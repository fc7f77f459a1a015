import Mathlib.Data.List.Nodup
import SpendingPlan.Proofs.Input.Framing
import SpendingPlan.Proofs.Input.Values

namespace SpendingPlan.Input

namespace Field

theorem mem_all (field : Field) : field ∈ all := by
  cases field <;> decide

theorem nodup_all : all.Nodup := by decide

theorem type_injective : Function.Injective type := by
  have distinct : (all.map type).Nodup := by decide
  intro field other same
  exact List.inj_on_of_nodup_map distinct (mem_all field) (mem_all other) same

def select (field : Field) (pairs : List Pair) : List Pair :=
  pairs.filter fun pair => pair.1.head? = some field.type

theorem select_self {field : Field} {pairs : List Pair}
    (typed : ∀ pair ∈ pairs, pair.1.head? = some field.type) : field.select pairs = pairs := by
  rw [select, List.filter_eq_self]
  intro pair member
  exact decide_eq_true (typed pair member)

theorem select_none {field : Field} {pairs : List Pair}
    (foreign : ∀ pair ∈ pairs, pair.1.head? ≠ some field.type) : field.select pairs = [] := by
  rw [select, List.filter_eq_nil_iff]
  intro pair member
  rw [decide_eq_true_iff]
  exact foreign pair member

theorem select_append (field : Field) (front rest : List Pair) :
    field.select (front ++ rest) = field.select front ++ field.select rest := List.filter_append _ _

theorem select_flatMap {known : Field → List Pair}
    (typed : ∀ field, ∀ pair ∈ known field, pair.1.head? = some field.type) {field : Field}
    {fields : List Field} (member : field ∈ fields) (distinct : fields.Nodup) :
    field.select (fields.flatMap known) = known field := by
  induction fields with
  | nil => cases member
  | cons first rest ih =>
    rw [List.nodup_cons] at distinct
    rw [List.flatMap_cons, select_append]
    by_cases here : field = first
    · subst here
      have foreign : field.select (rest.flatMap known) = [] := by
        apply select_none
        intro pair held same
        obtain ⟨other, later, held⟩ := List.mem_flatMap.mp held
        have types := (typed other pair held).symm.trans same
        rw [type_injective (Option.some.inj types)] at later
        exact distinct.1 later
      rw [select_self (typed field), foreign, List.append_nil]
    · have foreign : field.select (known first) = [] := by
        apply select_none
        intro pair held same
        have types := (typed first pair held).symm.trans same
        exact here (type_injective (Option.some.inj types)).symm
      have later := List.mem_of_ne_of_mem here member
      rw [foreign, List.nil_append, ih later distinct.2]

theorem Lists.related {κ ν : Type} {field : Field} {keyData : κ → Bytes}
    {write : ν → Except Error Bytes} {same : ν → ν → Prop} {as bs : List (κ × ν)}
    {pairs : List Pair} (first : field.Lists keyData write as pairs)
    (second : field.Lists keyData write bs pairs)
    (keys : ∀ x ∈ as, ∀ y ∈ bs, keyData x.1 = keyData y.1 → x.1 = y.1)
    (values : ∀ x ∈ as, ∀ y ∈ bs, x.1 = y.1 → ∀ bytes,
      write x.2 = .ok bytes → write y.2 = .ok bytes → same x.2 y.2) :
    List.Forall₂ (fun x y => x.1 = y.1 ∧ same x.2 y.2) as bs := by
  obtain ⟨many, zipped⟩ := List.forall₂_iff_zip.mp (forall₂_through first second)
  refine List.forall₂_iff_zip.mpr ⟨many, fun {x y} member => ?_⟩
  obtain ⟨pair, ⟨key, value⟩, key', value'⟩ := zipped member
  obtain ⟨left, right⟩ := List.of_mem_zip member
  have data := (List.cons.inj (key.symm.trans key')).2
  have equal := keys x left y right data
  exact ⟨equal, values x left y right equal pair.2 value value'⟩

theorem Lists.sameBy {κ ν : Type} [DecidableEq κ] {field : Field} {le : κ → κ → Bool}
    {keyData : κ → Bytes} {write : ν → Except Error Bytes} {same : ν → ν → Prop} {a b : Table κ ν}
    {pairs : List Pair} (first : field.Lists keyData write (a.sorted le) pairs)
    (second : field.Lists keyData write (b.sorted le) pairs)
    (keys : ∀ x ∈ a.entries, ∀ y ∈ b.entries, keyData x.1 = keyData y.1 → x.1 = y.1)
    (values : ∀ x ∈ a.entries, ∀ y ∈ b.entries, x.1 = y.1 → ∀ bytes,
      write x.2 = .ok bytes → write y.2 = .ok bytes → same x.2 y.2) :
    Table.SameBy same a b := by
  refine Table.sameBy_of_sorted (first.related second ?_ ?_)
  · intro x left y right
    exact keys x (Table.mem_sorted.mp left) y (Table.mem_sorted.mp right)
  · intro x left y right
    exact values x (Table.mem_sorted.mp left) y (Table.mem_sorted.mp right)

theorem Gives.related {ν : Type} {field : Field} {write : ν → Except Error Bytes}
    {same : ν → ν → Prop} {a b : Option ν} {pairs : List Pair} (first : field.Gives write a pairs)
    (second : field.Gives write b pairs)
    (values : ∀ x y bytes, write x = .ok bytes → write y = .ok bytes → same x y) :
    Option.Rel same a b := by
  have entries : List.Forall₂ (fun x y => x.1 = y.1 ∧ same x.2 y.2)
      (a.toList.map fun value => ((), value)) (b.toList.map fun value => ((), value)) :=
    Lists.related first second (fun _ _ _ _ _ => rfl) fun x _ y _ _ => values x.2 y.2
  cases a with
  | none =>
    cases b with
    | none => exact .none
    | some y => cases entries
  | some x =>
    cases b with
    | none => cases entries
    | some y =>
      cases entries with
      | cons head _ => exact .some head.2

theorem Gives.eq {ν : Type} {field : Field} {write : ν → Except Error Bytes} {a b : Option ν}
    {pairs : List Pair} (first : field.Gives write a pairs) (second : field.Gives write b pairs)
    (injective : ∀ x y bytes, write x = .ok bytes → write y = .ok bytes → x = y) : a = b := by
  cases first.related second injective with
  | none => rfl
  | some same => rw [same]

end Field

theorem witness?_inj {a b : List Bytes} (h : witness? a = witness? b) : a = b := by
  rw [witness?, witness?] at h
  by_cases nothing : a = []
  · by_cases nothing' : b = []
    · rw [nothing, nothing']
    · rw [if_pos nothing, if_neg nothing'] at h
      cases h
  · rw [if_neg nothing] at h
    split at h
    · cases h
    · exact Option.some.inj h

/-- Parts whose ends can be told from their sizes, and unknown keys of none of the known types. -/
structure WellKeyed (input : Input) : Prop where
  signatureKeys : ∀ key ∈ input.tapScriptSignatures.keys, key.1.length = 32
  leafHashes : ∀ entry ∈ input.tapKeyOrigins.entries, ∀ hash ∈ entry.2.1, hash.length = 32
  unknownKeys : ∀ key ∈ input.unknown.keys,
    key ≠ [] ∧ ∀ field : Field, key.head? ≠ some field.type

/-- The same contents: scripts and control blocks as they encode, and tables in any order. -/
structure Agrees (a b : Input) : Prop where
  previousTransaction : a.previousTransaction = b.previousTransaction
  previousOutput :
    Option.Rel (fun x y => x.1 = y.1 ∧ x.2.same y.2 = .ok true) a.previousOutput b.previousOutput
  partialSignatures : Table.SameBy (· = ·) a.partialSignatures b.partialSignatures
  sighashType : a.sighashType = b.sighashType
  redeemScript : Option.Rel (fun x y => x.same y = .ok true) a.redeemScript b.redeemScript
  witnessScript : Option.Rel (fun x y => x.same y = .ok true) a.witnessScript b.witnessScript
  keyOrigins : Table.SameBy (· = ·) a.keyOrigins b.keyOrigins
  finalScriptSig : Option.Rel (fun x y => x.same y = .ok true) a.finalScriptSig b.finalScriptSig
  finalWitness : a.finalWitness = b.finalWitness
  tapKeySignature : a.tapKeySignature = b.tapKeySignature
  tapScriptSignatures : Table.SameBy (· = ·) a.tapScriptSignatures b.tapScriptSignatures
  tapScripts :
    Table.SameBy
      (fun x y => x.block.same y.block = .ok true ∧ x.script.same y.script = .ok true ∧
        x.version = y.version)
      a.tapScripts.table b.tapScripts.table
  tapKeyOrigins : Table.SameBy (· = ·) a.tapKeyOrigins b.tapKeyOrigins
  tapInternalKey : a.tapInternalKey = b.tapInternalKey
  tapMerkleRoot : a.tapMerkleRoot = b.tapMerkleRoot
  unknown : Table.SameBy (· = ·) a.unknown b.unknown

theorem select_layout {input : Input} {known : Field → List Pair}
    (holds : ∀ field : Field, field.Holds input (known field)) (keyed : input.WellKeyed)
    (field : Field) :
    field.select (Field.all.flatMap known ++ input.unknown.sorted Bytes.le) = known field := by
  have typed : ∀ field, ∀ pair ∈ known field, pair.1.head? = some field.type :=
    fun field => (holds field).head_key
  have foreign : field.select (input.unknown.sorted Bytes.le) = [] := by
    apply Field.select_none
    intro pair member
    have held := List.mem_map_of_mem (f := Prod.fst) (Table.mem_sorted.mp member)
    exact (keyed.unknownKeys pair.1 held).2 field
  rw [Field.select_append, Field.select_flatMap typed field.mem_all Field.nodup_all, foreign,
    List.append_nil]

theorem same_layout {a b : Input} {bytes : Bytes} (keyed : a.WellKeyed) (keyed' : b.WellKeyed)
    (first : a.encode = .ok bytes) (second : b.encode = .ok bytes) :
    ∃ known : Field → List Pair, (∀ field : Field, field.Holds a (known field)) ∧
      (∀ field : Field, field.Holds b (known field)) ∧
      a.unknown.sorted Bytes.le = b.unknown.sorted Bytes.le := by
  obtain ⟨known, framed, holds, written, rfl⟩ := encode_layout first
  obtain ⟨known', framed', holds', written', same⟩ := encode_layout second
  have named := (named_layout_iff holds).mpr fun empty => (keyed.unknownKeys [] empty).1 rfl
  have named' := (named_layout_iff holds').mpr fun empty => (keyed'.unknownKeys [] empty).1 rfl
  -- the two lists of pairs are one, as both are read back from the same bytes
  have reads := readPairs_frames written named []
  rw [same, readPairs_frames written' named' []] at reads
  have layout := (Prod.mk.inj (Option.some.inj reads)).1
  -- and what one field comes to is found in that list by its type
  have equal : known' = known := by
    funext field
    have selected := congrArg field.select layout
    rwa [select_layout holds keyed, select_layout holds' keyed'] at selected
  subst equal
  exact ⟨known', holds, holds', (List.append_cancel_left layout).symm⟩

/-- Nothing that an input holds is lost in its bytes. -/
theorem agrees_of_encode {a b : Input} {bytes : Bytes} (keyed : a.WellKeyed) (keyed' : b.WellKeyed)
    (first : a.encode = .ok bytes) (second : b.encode = .ok bytes) : Agrees a b := by
  obtain ⟨known, holds, holds', unknown⟩ := same_layout keyed keyed' first second
  constructor
  case previousTransaction =>
    exact Field.Gives.eq (holds .previousTransaction) (holds' .previousTransaction)
      fun x y bytes => plain_inj
  case previousOutput =>
    exact Field.Gives.related (holds .previousOutput) (holds' .previousOutput)
      fun x y bytes => encodeOutput_inj
  case partialSignatures =>
    exact Field.Lists.sameBy (holds .partialSignature) (holds' .partialSignature)
      (fun x _ y _ data => data) fun x _ y _ _ bytes => plain_inj
  case sighashType =>
    exact Field.Gives.eq (holds .sighashType) (holds' .sighashType)
      fun x y bytes => encodeSighash_inj
  case redeemScript =>
    exact Field.Gives.related (holds .redeemScript) (holds' .redeemScript)
      fun x y bytes => Script.same_true
  case witnessScript =>
    exact Field.Gives.related (holds .witnessScript) (holds' .witnessScript)
      fun x y bytes => Script.same_true
  case keyOrigins =>
    exact Field.Lists.sameBy (holds .keyOrigin) (holds' .keyOrigin)
      (fun x _ y _ data => data) fun x _ y _ _ bytes => KeyOrigin.encode_inj
  case finalScriptSig =>
    exact Field.Gives.related (holds .finalScriptSig) (holds' .finalScriptSig)
      fun x y bytes => Script.same_true
  case finalWitness =>
    exact witness?_inj (Field.Gives.eq (holds .finalWitness) (holds' .finalWitness)
      fun x y bytes => writeWitness_inj)
  case tapKeySignature =>
    exact Field.Gives.eq (holds .tapKeySignature) (holds' .tapKeySignature)
      fun x y bytes => plain_inj
  case tapScriptSignatures =>
    have listed : Field.tapScriptSignature.Lists (fun key : Bytes × Bytes => key.1 ++ key.2) .ok
        (a.tapScriptSignatures.sorted lePair) (known .tapScriptSignature) :=
      holds .tapScriptSignature
    have listed' : Field.tapScriptSignature.Lists (fun key : Bytes × Bytes => key.1 ++ key.2) .ok
        (b.tapScriptSignatures.sorted lePair) (known .tapScriptSignature) :=
      holds' .tapScriptSignature
    refine listed.sameBy listed' (fun x left y right data => ?_) fun x _ y _ _ bytes => plain_inj
    have whole := keyed.signatureKeys x.1 (List.mem_map_of_mem left)
    have whole' := keyed'.signatureKeys y.1 (List.mem_map_of_mem right)
    obtain ⟨keys, hashes⟩ := List.append_inj data (whole.trans whole'.symm)
    exact Prod.ext keys hashes
  case tapScripts =>
    refine Field.Lists.sameBy (holds .tapScript) (holds' .tapScript) (fun x _ y _ data => data)
      fun x left y right same bytes encoded encoded' => ?_
    obtain ⟨scripts, versions⟩ := encodeLeafScript_inj encoded encoded'
    have block := a.tapScripts.keyed x left
    have block' := b.tapScripts.keyed y right
    rw [← same] at block'
    exact ⟨ControlBlock.same_true block block', scripts, versions⟩
  case tapKeyOrigins =>
    exact Field.Lists.sameBy (holds .tapKeyOrigin) (holds' .tapKeyOrigin)
      (fun x _ y _ data => data) fun x left y right _ bytes =>
        encodeTapOrigin_inj (keyed.leafHashes x left) (keyed'.leafHashes y right)
  case tapInternalKey =>
    exact Field.Gives.eq (holds .tapInternalKey) (holds' .tapInternalKey) fun x y bytes => plain_inj
  case tapMerkleRoot =>
    exact Field.Gives.eq (holds .tapMerkleRoot) (holds' .tapMerkleRoot) fun x y bytes => plain_inj
  case unknown =>
    have entries : List.Forall₂ (fun x y => x.1 = y.1 ∧ x.2 = y.2) (a.unknown.sorted Bytes.le)
        (b.unknown.sorted Bytes.le) := by
      rw [unknown]
      exact List.forall₂_same.mpr fun x _ => ⟨rfl, rfl⟩
    exact Table.sameBy_of_sorted entries

def respelled : Input :=
  { filled with
    partialSignatures := (Table.empty.insert [2, 1] [0x30, 2]).insert [3, 1] [0x30, 1]
    redeemScript := some ⟨[.number 1]⟩ }

theorem encode_respelled : respelled.encode = filled.encode := by
  have sorted : respelled.partialSignatures.sorted Bytes.le =
      filled.partialSignatures.sorted Bytes.le := by
    rw [sorted_filled]
    exact Table.sorted_eq_of_perm Table.linear_bytes (.refl _) (by decide)
  have signatures : encodeTable 0x02 Bytes.le id .ok respelled.partialSignatures =
      encodeTable 0x02 Bytes.le id .ok filled.partialSignatures := by
    rw [encodeTable, encodeTable, sorted]
  have redeem : respelled.redeemScript.mapM Script.encode =
      filled.redeemScript.mapM Script.encode := rfl
  rw [encode, encode, pairs, pairs, knownPairs, knownPairs, signatures, redeem]
  rfl

theorem agrees_filled_respelled : filled ≠ respelled ∧ Agrees filled respelled := by
  have keyed : filled.WellKeyed := by
    refine ⟨by decide, by decide, ?_⟩
    intro key member
    obtain rfl : key = [0xfc, 1] := List.mem_singleton.mp member
    exact ⟨by decide, fun field => by cases field <;> decide⟩
  have keyed' : respelled.WellKeyed := ⟨by decide, keyed.leafHashes, keyed.unknownKeys⟩
  obtain ⟨bytes, encoded⟩ := encode_filled
  refine ⟨by decide, ?_⟩
  exact agrees_of_encode keyed keyed' encoded (encode_respelled.trans encoded)

end SpendingPlan.Input

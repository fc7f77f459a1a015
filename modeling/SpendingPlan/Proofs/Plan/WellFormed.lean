import SpendingPlan.Proofs.Input.KeyOrder
import SpendingPlan.Proofs.Plan.Populated

namespace SpendingPlan

variable {small : Prop}

theorem ControlBlock.length_encode {block : ControlBlock} {bytes : Bytes}
    (h : block.encode = .ok bytes) : ∃ hashes, hashes ≤ 128 ∧ bytes.length = 33 + 32 * hashes := by
  rw [encode] at h
  obtain ⟨first, -, h⟩ := bind_ok h
  cases h
  have whole := block.whole
  have shallow := block.shallow
  unfold maxPathHashes at shallow
  refine ⟨block.path.length / 32, shallow, ?_⟩
  rw [List.length_cons, List.length_append, PublicKey.length_xOnly]
  omega

namespace Input

/-- The pairs that belong in the map of an input that is still to be signed. -/
inductive WellFormed : Pair → Prop
  | redeemScript (script : Bytes) : WellFormed ([0x04], script)
  | witnessScript (script : Bytes) : WellFormed ([0x05], script)
  | keyOrigin {parity : UInt8} {x origin : Bytes} (depth : Nat) :
      parity = 2 ∨ parity = 3 → x.length = 32 → origin.length = 4 + 4 * depth →
        WellFormed (0x06 :: parity :: x, origin)
  | tapScript {block script : Bytes} (hashes : Nat) :
      hashes ≤ 128 → block.length = 33 + 32 * hashes → WellFormed (0x15 :: block, script ++ [0xc0])
  | tapKeyOrigin {key count hashes origin : Bytes} (leaves depth : Nat) :
      key.length = 32 → CompactSize.encode leaves = .ok count → hashes.length = 32 * leaves →
        origin.length = 4 + 4 * depth → WellFormed (0x16 :: key, count ++ hashes ++ origin)
  | tapInternalKey {key : Bytes} : key.length = 32 → WellFormed ([0x17], key)
  | tapMerkleRoot {root : Bytes} : root.length = 32 → WellFormed ([0x18], root)

theorem WellFormed.length_key {pair : Pair} (h : WellFormed pair) :
    pair.1.length ≤ 34 + 32 * 128 := by
  cases h with
  | redeemScript script => simp
  | witnessScript script => simp
  | keyOrigin depth parity x origin =>
    simp only [List.length_cons]
    omega
  | tapScript hashes few block =>
    simp only [List.length_cons]
    omega
  | tapKeyOrigin leaves depth key count hashes origin =>
    simp only [List.length_cons]
    omega
  | tapInternalKey key => simp
  | tapMerkleRoot root => simp

namespace Field

theorem Holds.of_empty {field : Field} {pairs : List Pair} (h : field.Holds Input.empty pairs) :
    pairs = [] := by
  have none : ∀ {κ ν : Type} {le : κ → κ → Bool}, (Table.empty : Table κ ν).sorted le = [] := by
    intro κ ν le
    simp [Table.sorted, Table.empty]
  cases field
  all_goals
    simp only [Holds, Gives, Lists, Input.empty, witness?, LeafScripts.empty, none,
      Option.toList_none, List.map_nil, List.forall₂_nil_left_iff, if_true] at h
    exact h

end Field

theorem counted_option {ν : Type} {write : ν → Except Error Bytes} {value? : Option ν}
    (h : ∀ value, value? = some value → Counted small (write value)) :
    Counted small (value?.mapM write) := by
  cases value? with
  | none => exact .ok none
  | some value =>
    apply (h value rfl).bind
    intro bytes _
    exact .ok (some bytes)

theorem counted_table {κ ν : Type} {type : UInt8} {le : κ → κ → Bool} {keyBytes : κ → Bytes}
    {write : ν → Except Error Bytes} {table : Table κ ν}
    (h : ∀ entry ∈ table.entries, Counted small (write entry.2)) :
    Counted small (encodeTable type le keyBytes write table) := by
  apply Counted.mapM
  intro entry member
  apply (h entry (Table.mem_sorted.mp member)).bind
  intro bytes _
  exact .ok (type :: keyBytes entry.1, bytes)

theorem counted_pair {pair : Pair} (key : small → pair.1.length < CompactSize.limit)
    (value : small → pair.2.length < CompactSize.limit) : Counted small (encodePair pair) := by
  apply (Counted.frame key).bind
  intro keyFrame _
  apply (Counted.frame value).bind
  intro valueFrame _
  exact .ok (keyFrame ++ valueFrame)

theorem counted_leafScript {entry : LeafScript} (written : entry.script.Writable small)
    (version : entry.version = Taproot.scriptLeafVersion) :
    Counted small (encodeLeafScript entry) := by
  obtain ⟨bytes, encoded, -⟩ := written
  rw [encodeLeafScript, encoded, version]
  exact .ok (bytes ++ [0xc0])

theorem counted_tapOrigin {value : List Bytes × KeyOrigin} (written : value.2.path.InRange)
    (few : small → value.1.length < CompactSize.limit) : Counted small (encodeTapOrigin value) := by
  obtain ⟨origin, encoded⟩ := KeyOrigin.encode_of_inRange written
  rw [encodeTapOrigin]
  apply (Counted.encode few).bind
  intro count _
  rw [encoded]
  exact .ok (count ++ value.1.flatten ++ origin)

/-- The pair has the form for its type, and a value within the limit unless something large went
    into it. -/
def Fitting (small : Prop) (pair : Pair) : Prop :=
  WellFormed pair ∧ (small → pair.2.length < CompactSize.limit)

theorem fitting_script {key value : Bytes} {script : Script} (formed : WellFormed (key, value))
    (written : script.Writable small) (wrote : script.encode = .ok value) :
    Fitting small (key, value) := by
  refine ⟨formed, fun held => ?_⟩
  have bound := written.length_lt wrote held
  exact Nat.lt_trans bound (by decide)

theorem fitting_hash {key value : Bytes} (formed : WellFormed (key, value))
    (size : value.length = 32) : Fitting small (key, value) := by
  refine ⟨formed, fun _ => ?_⟩
  rw [size]
  decide

theorem fitting_keyOrigin (key : PublicKey) {origin : KeyOrigin} {value : Bytes}
    (written : origin.Writable small) (wrote : origin.encode = .ok value) :
    Fitting small (0x06 :: key.compressed, value) := by
  have size := KeyOrigin.length_encode wrote
  constructor
  · refine .keyOrigin origin.path.length ?_ key.length_xOnly size
    cases key.isOdd with
    | false => exact .inl rfl
    | true => exact .inr rfl
  · intro held
    have short := written.2 held
    rw [size]
    unfold CompactSize.room at short
    unfold CompactSize.limit
    omega

theorem fitting_tapScript {block value : Bytes} {entry : LeafScript}
    (keyed : entry.block.encode = .ok block) (written : entry.script.Writable small)
    (version : entry.version = Taproot.scriptLeafVersion)
    (wrote : encodeLeafScript entry = .ok value) : Fitting small (0x15 :: block, value) := by
  obtain ⟨hashes, few, length⟩ := ControlBlock.length_encode keyed
  obtain ⟨script, mark, encoded, marked, rfl⟩ := encodeLeafScript_ok wrote
  obtain rfl : 0xc0 = mark := Except.ok.inj (version ▸ marked)
  refine ⟨.tapScript hashes few length, fun held => ?_⟩
  have bound := written.length_lt encoded held
  rw [List.length_append, List.length_singleton]
  unfold CompactSize.room at bound
  unfold CompactSize.limit
  omega

theorem fitting_tapKeyOrigin {key value : Bytes} {leaves : List Bytes × KeyOrigin}
    (size : key.length = 32) (written : WritableLeaves small leaves)
    (few : small → leaves.1.length < CompactSize.room)
    (wrote : encodeTapOrigin leaves = .ok value) : Fitting small (0x16 :: key, value) := by
  obtain ⟨count, origin, counted, encoded, rfl⟩ := encodeTapOrigin_ok wrote
  have hashes := Bytes.length_flatten written.1
  have depth := KeyOrigin.length_encode encoded
  refine ⟨.tapKeyOrigin leaves.1.length _ size counted hashes depth, fun held => ?_⟩
  have many := few held
  have short := written.2.2 held
  have head := CompactSize.length_encode counted
  rw [List.length_append, List.length_append]
  unfold CompactSize.room at many short
  unfold CompactSize.limit
  omega

namespace Populated

variable {input : Input} (populated : input.Populated small)

include populated

theorem fitting_of_holds
    (few : small → ∀ entry ∈ input.tapKeyOrigins.entries, entry.2.1.length < CompactSize.room)
    {field : Field} {pairs : List Pair} (h : field.Holds input pairs) :
    ∀ pair ∈ pairs, Fitting small pair := by
  rintro ⟨key, value⟩ member
  have absent : ∀ field : Field, field.Holds input.blank pairs → Fitting small (key, value) := by
    intro field bare
    rw [populated.blank] at bare
    rw [bare.of_empty] at member
    cases member
  cases field with
  | redeemScript =>
    obtain ⟨script, given, rfl, wrote⟩ := Field.Gives.of_mem h member
    exact fitting_script (.redeemScript value) (populated.redeemScript script given) wrote
  | witnessScript =>
    obtain ⟨script, given, rfl, wrote⟩ := Field.Gives.of_mem h member
    exact fitting_script (.witnessScript value) (populated.witnessScript script given) wrote
  | keyOrigin =>
    obtain ⟨⟨_, origin⟩, held, rfl, wrote⟩ := Field.Lists.of_mem h member
    obtain ⟨⟨key, rfl⟩, written⟩ := populated.keyOrigins _ (Table.mem_sorted.mp held)
    exact fitting_keyOrigin key written wrote
  | tapScript =>
    obtain ⟨entry, held, rfl, wrote⟩ := Field.Lists.of_mem h member
    have held := Table.mem_sorted.mp held
    obtain ⟨written, version⟩ := populated.tapScripts entry held
    exact fitting_tapScript (input.tapScripts.keyed entry held) written version wrote
  | tapKeyOrigin =>
    obtain ⟨entry, held, rfl, wrote⟩ := Field.Lists.of_mem h member
    have held := Table.mem_sorted.mp held
    obtain ⟨size, written⟩ := populated.tapKeyOrigins entry held
    exact fitting_tapKeyOrigin size written (fun small => few small entry held) wrote
  | tapInternalKey =>
    obtain ⟨key, given, rfl, wrote⟩ := Field.Gives.of_mem h member
    cases wrote
    have size := populated.tapInternalKey value given
    exact fitting_hash (.tapInternalKey size) size
  | tapMerkleRoot =>
    obtain ⟨root, given, rfl, wrote⟩ := Field.Gives.of_mem h member
    cases wrote
    have size := populated.tapMerkleRoot value given
    exact fitting_hash (.tapMerkleRoot size) size
  | previousTransaction => exact absent .previousTransaction h
  | previousOutput => exact absent .previousOutput h
  | partialSignature => exact absent .partialSignature h
  | sighashType => exact absent .sighashType h
  | finalScriptSig => exact absent .finalScriptSig h
  | finalWitness => exact absent .finalWitness h
  | tapKeySignature => exact absent .tapKeySignature h
  | tapScriptSignature => exact absent .tapScriptSignature h

theorem counted_knownPairs
    (few : small → ∀ entry ∈ input.tapKeyOrigins.entries, entry.2.1.length < CompactSize.room) :
    Counted small input.knownPairs := by
  have output : input.previousOutput = none := congrArg previousOutput populated.blank
  have sighash : input.sighashType = none := congrArg sighashType populated.blank
  have scriptSig : input.finalScriptSig = none := congrArg finalScriptSig populated.blank
  have witness : input.finalWitness = [] := congrArg finalWitness populated.blank
  have script : ∀ script : Script, script.Writable small → Counted small script.encode :=
    fun _ ⟨bytes, encoded, _⟩ => .inl ⟨bytes, encoded⟩
  unfold knownPairs
  rw [output, sighash, scriptSig, witness]
  refine (Counted.ok none).bind fun _ _ => ?_
  refine (counted_table fun _ _ => .ok _).bind fun _ _ => ?_
  refine (Counted.ok none).bind fun _ _ => ?_
  refine (counted_option fun _ given => script _ (populated.redeemScript _ given)).bind
    fun _ _ => ?_
  refine (counted_option fun _ given => script _ (populated.witnessScript _ given)).bind
    fun _ _ => ?_
  refine (counted_table fun entry held => ?_).bind fun _ _ => ?_
  · exact .inl (KeyOrigin.encode_of_inRange (populated.keyOrigins entry held).2.1)
  refine (Counted.ok none).bind fun _ _ => ?_
  refine (Counted.ok none).bind fun _ _ => ?_
  refine (counted_table fun _ _ => .ok _).bind fun _ _ => ?_
  refine (counted_table fun entry held => ?_).bind fun _ _ => ?_
  · obtain ⟨written, version⟩ := populated.tapScripts entry held
    exact counted_leafScript written version
  refine (counted_table fun entry held => ?_).bind fun _ _ => ?_
  · apply counted_tapOrigin (populated.tapKeyOrigins entry held).2.2.1
    intro held'
    exact Nat.lt_trans (few held' entry held) (by decide)
  exact .ok _

theorem unknown_eq_nil : input.unknown.sorted Bytes.le = [] := by
  have unknown : input.unknown = Table.empty := congrArg Input.unknown populated.blank
  simp [unknown, Table.sorted, Table.empty]

theorem counted_encode
    (few : small → ∀ entry ∈ input.tapKeyOrigins.entries, entry.2.1.length < CompactSize.room) :
    Counted small input.encode := by
  unfold encode
  have pairs : Counted small input.pairs := by
    apply (populated.counted_knownPairs few).bind
    intro known _
    exact .ok _
  refine pairs.bind fun pairs listed => ?_
  obtain ⟨known, layout, listed⟩ := bind_ok listed
  cases listed
  obtain ⟨known, holds, rfl⟩ := knownPairs_layout layout
  rw [populated.unknown_eq_nil, List.append_nil]
  refine (Counted.mapM fun pair member => ?_).bind fun _ _ => .ok _
  obtain ⟨field, -, member⟩ := List.mem_flatMap.mp member
  obtain ⟨formed, value⟩ := populated.fitting_of_holds few (holds field) pair member
  apply counted_pair _ value
  intro _
  have key := formed.length_key
  unfold CompactSize.limit
  omega

theorem readPairs_encode
    (few : small → ∀ entry ∈ input.tapKeyOrigins.entries, entry.2.1.length < CompactSize.room)
    {bytes : Bytes} (h : input.encode = .ok bytes) :
    ∃ pairs, readPairs bytes = some (pairs, []) ∧
      pairs.Pairwise (fun a b => a.1.lt b.1 = true) ∧ ∀ pair ∈ pairs, WellFormed pair := by
  obtain ⟨known, framed, holds, written, rfl⟩ := encode_layout h
  have unnamed : [] ∉ input.unknown.keys := by
    have unknown : input.unknown = Table.empty := congrArg Input.unknown populated.blank
    rw [unknown]
    exact List.not_mem_nil
  have read := readPairs_frames written ((named_layout_iff holds).mpr unnamed) []
  rw [populated.unknown_eq_nil, List.append_nil, List.append_nil] at read
  refine ⟨_, read, keys_increasing ?_ holds, ?_⟩
  · have signatures : input.tapScriptSignatures = Table.empty :=
      congrArg tapScriptSignatures populated.blank
    rw [signatures]
    intro _ none
    cases none
  · intro pair member
    obtain ⟨field, -, member⟩ := List.mem_flatMap.mp member
    exact (populated.fitting_of_holds few (holds field) pair member).1

end Populated

end Input

end SpendingPlan

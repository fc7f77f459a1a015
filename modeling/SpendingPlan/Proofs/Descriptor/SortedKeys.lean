import Mathlib.Tactic.IntervalCases
import SpendingPlan.Proofs.Bytes.Order
import SpendingPlan.Proofs.Key.Reading
import SpendingPlan.Proofs.Script.Elements
import SpendingPlan.Proofs.Script.Encoding

namespace SpendingPlan

namespace Hex

theorem digit_lt_iff : ∀ m < 16, ∀ n < 16, (digit m < digit n ↔ m < n) := by decide

theorem digit_inj : ∀ m < 16, ∀ n < 16, (digit m = digit n ↔ m = n) := by decide

theorem encodeChars_cons (byte : UInt8) (rest : Bytes) :
    encodeChars (byte :: rest) =
      digit (byte.toNat / 16) :: digit (byte.toNat % 16) :: encodeChars rest := rfl

theorem encodeChars_lt_iff (a b : Bytes) : encodeChars a < encodeChars b ↔ a < b := by
  induction a generalizing b with
  | nil =>
    cases b with
    | nil => simp [encodeChars]
    | cons y ys => exact iff_of_true (List.nil_lt_cons _ _) (List.nil_lt_cons _ _)
  | cons x xs ih =>
    cases b with
    | nil => simp [encodeChars]
    | cons y ys =>
      have left := x.toNat_lt
      have right := y.toNat_lt
      have high := digit_lt_iff (x.toNat / 16) (by omega) (y.toNat / 16) (by omega)
      have high' := digit_inj (x.toNat / 16) (by omega) (y.toNat / 16) (by omega)
      have low := digit_lt_iff (x.toNat % 16) (by omega) (y.toNat % 16) (by omega)
      have low' := digit_inj (x.toNat % 16) (by omega) (y.toNat % 16) (by omega)
      simp only [encodeChars_cons, List.cons_lt_cons_iff, high, high', low, low', ih,
        UInt8.lt_iff_toNat_lt, ← UInt8.toNat_inj]
      by_cases less : xs < ys
      · simp only [less, and_true]
        omega
      · simp only [less, and_false, or_false]
        omega

theorem encode_le_iff (a b : Bytes) : encode a ≤ encode b ↔ a ≤ b := by
  rw [← String.not_lt, String.lt_iff, encode, encode, String.toList_ofList, String.toList_ofList,
    encodeChars_lt_iff, List.not_lt]

end Hex

namespace Script

def numberElement (n : Nat) : Element :=
  if n ≤ 16 then .code (UInt8.ofNat (0x50 + n)) else .push [UInt8.ofNat n]

def Element.direct : Element → Bytes
  | .push data => UInt8.ofNat data.length :: data
  | .code value => [value]

def Element.Short : Element → Prop
  | .push data => data.length < 0x4c
  | .code _ => True

theorem Element.encode_direct {element : Element} (short : element.Short) :
    element.encode = .ok element.direct := by
  cases element with
  | push data =>
    exact if_pos short
  | code value => rfl

theorem encode_number {n : Nat} (positive : 1 ≤ n) (few : n ≤ 20) :
    (Token.number n).encode = .ok (numberElement n).direct := by
  interval_cases n
  all_goals decide

theorem short_numberElement (n : Nat) : (numberElement n).Short := by
  rw [numberElement]
  split
  · trivial
  · exact (by decide : 1 < 0x4c)

theorem legible_numberElement (n : Nat) : (numberElement n).Legible := by
  rw [numberElement]
  split
  · rw [Element.Legible, UInt8.lt_iff_toNat_lt, UInt8.toNat_ofNat']
    have : (0x4e : UInt8).toNat = 0x4e := rfl
    omega
  · trivial

theorem encode_direct {tokens : List Token} {elements : List Element}
    (written : List.Forall₂ (fun token element => token.encode = .ok element.direct) tokens
      elements) : encode ⟨tokens⟩ = .ok (elements.flatMap Element.direct) := by
  induction written with
  | nil => exact encode_nil
  | cons head _ ih => exact encode_cons head ih

theorem read_direct {elements : List Element} (short : ∀ element ∈ elements, element.Short)
    (legible : ∀ element ∈ elements, element.Legible) :
    read (elements.flatMap Element.direct) = some elements := by
  rw [List.flatMap_def]
  apply readWithin_flatten _ legible le_rfl
  rw [List.forall₂_map_right_iff, List.forall₂_same]
  intro element member
  exact Element.encode_direct (short element member)

end Script

namespace SortedMulti

theorem make_eq_ok_iff {required : Int} {keys : List DescriptorKey} {multi : SortedMulti} :
    make required keys = .ok multi ↔ required = multi.required ∧ keys = multi.keys := by
  obtain ⟨required', keys', pos, le, few⟩ := multi
  rw [make]
  constructor
  · intro made
    split at made
    · rename_i bounds
      cases made
      exact ⟨(Int.toNat_of_nonneg (by omega)).symm, rfl⟩
    · cases made
  · rintro ⟨rfl, rfl⟩
    exact dif_pos ⟨pos, le, few⟩

def sortedKeys (multi : SortedMulti) : List Bytes :=
  (multi.keys.map fun key => key.key.compressed).mergeSort Bytes.le

theorem perm_sortedKeys (multi : SortedMulti) :
    multi.sortedKeys.Perm (multi.keys.map fun key => key.key.compressed) :=
  List.mergeSort_perm _ _

theorem pairwise_sortedKeys (multi : SortedMulti) : multi.sortedKeys.Pairwise (· ≤ ·) := by
  have ordered : multi.sortedKeys.Pairwise fun a b => Bytes.le a b = true := by
    apply List.pairwise_mergeSort
    · intro a b c
      exact Bytes.le_trans
    · exact Bytes.le_total
  exact ordered.imp (Bytes.le_iff _ _).mp

theorem length_sortedKeys (multi : SortedMulti) : multi.sortedKeys.length = multi.keys.length := by
  rw [multi.perm_sortedKeys.length_eq, List.length_map]

theorem length_of_mem_sortedKeys {multi : SortedMulti} {key : Bytes}
    (member : key ∈ multi.sortedKeys) : key.length = 33 := by
  obtain ⟨given, -, rfl⟩ := List.mem_map.mp (multi.perm_sortedKeys.mem_iff.mp member)
  exact given.key.length_compressed

theorem sortedKeys_eq_of_perm {a b : SortedMulti} (perm : a.keys.Perm b.keys) :
    a.sortedKeys = b.sortedKeys := by
  -- a linear order leaves one way to list the keys
  apply List.Perm.eq_of_pairwise (fun _ _ _ _ => List.le_antisymm) a.pairwise_sortedKeys
    b.pairwise_sortedKeys
  exact a.perm_sortedKeys.trans ((perm.map _).trans b.perm_sortedKeys.symm)

def elements (required : Nat) (keys : List Bytes) : List Script.Element :=
  Script.numberElement required ::
    (keys.map .push ++ [Script.numberElement keys.length, .code 0xae])

/-- Sorting the texts of the keys is sorting the keys. -/
theorem map_word_sorted (keys : List Bytes) :
    ((keys.map Hex.encode).mergeSort fun a b => a ≤ b).map Token.word =
      (keys.mergeSort Bytes.le).map Script.hexWord := by
  have order : ∀ a ∈ keys, ∀ b ∈ keys, Bytes.le a b = decide (Hex.encode a ≤ Hex.encode b) := by
    intro a _ b _
    rw [Bool.eq_iff_iff, Bytes.le_iff, decide_eq_true_iff, Hex.encode_le_iff]
  rw [← List.map_mergeSort order, List.map_map]
  rfl

theorem script_tokens (multi : SortedMulti) : multi.script.tokens =
    .number multi.required :: (multi.sortedKeys.map Script.hexWord ++
      [.number multi.keys.length, .word "OP_CHECKMULTISIG"]) := by
  have texts : (multi.keys.map fun key => Hex.encode key.key.compressed) =
      (multi.keys.map fun key => key.key.compressed).map Hex.encode := by
    rw [List.map_map]
    rfl
  rw [script, texts, map_word_sorted]
  rfl

theorem forall₂_elements (multi : SortedMulti) :
    List.Forall₂ (fun token element => token.encode = .ok element.direct) multi.script.tokens
      (elements multi.required multi.sortedKeys) := by
  have required := Script.encode_number multi.required_pos (multi.required_le.trans multi.keys_le)
  have given := Script.encode_number (multi.required_pos.trans multi.required_le) multi.keys_le
  have keys : List.Forall₂
      (fun token (element : Script.Element) => token.encode = .ok element.direct)
      (multi.sortedKeys.map Script.hexWord) (multi.sortedKeys.map .push) := by
    rw [List.forall₂_map_left_iff, List.forall₂_map_right_iff, List.forall₂_same]
    intro key member
    apply Script.encode_hexWord
    rw [length_of_mem_sortedKeys member]
    decide
  rw [script_tokens, elements, length_sortedKeys]
  exact .cons required (List.rel_append keys (.cons given (.cons rfl .nil)))

theorem short_elements {required : Nat} {keys : List Bytes}
    (short : ∀ key ∈ keys, key.length < 0x4c) :
    ∀ element ∈ elements required keys, element.Short := by
  simp only [elements, List.forall_mem_cons, List.forall_mem_append, List.forall_mem_map,
    List.not_mem_nil, false_imp_iff, implies_true, and_true]
  exact ⟨Script.short_numberElement _, short, Script.short_numberElement _, trivial⟩

theorem legible_elements (required : Nat) (keys : List Bytes) :
    ∀ element ∈ elements required keys, element.Legible := by
  simp only [elements, List.forall_mem_cons, List.forall_mem_append, List.forall_mem_map,
    List.not_mem_nil, false_imp_iff, implies_true, and_true]
  have closing : (0x4e : UInt8) < 0xae := by decide
  exact ⟨Script.legible_numberElement _, fun _ _ => trivial, Script.legible_numberElement _,
    closing⟩

theorem encode_script (multi : SortedMulti) : multi.script.encode =
    .ok ((elements multi.required multi.sortedKeys).flatMap Script.Element.direct) :=
  Script.encode_direct multi.forall₂_elements

theorem read_script (multi : SortedMulti) :
    Script.read ((elements multi.required multi.sortedKeys).flatMap Script.Element.direct) =
      some (elements multi.required multi.sortedKeys) := by
  apply Script.read_direct (short_elements _) (legible_elements _ _)
  intro key member
  rw [length_of_mem_sortedKeys member]
  decide

theorem script_eq_of_perm {a b : SortedMulti} (required : a.required = b.required)
    (perm : a.keys.Perm b.keys) : a.script = b.script := by
  have tokens : a.script.tokens = b.script.tokens := by
    rw [script_tokens, script_tokens, required, perm.length_eq, sortedKeys_eq_of_perm perm]
  exact congrArg Script.mk tokens

end SortedMulti

def InnerScript.wrappers : List (InnerScript → Descriptor) :=
  [.bare, .wsh, fun inner => .sh (.script inner), fun inner => .sh (.wsh inner)]

section Wrapping

variable {wrap : InnerScript → Descriptor} (listed : wrap ∈ InnerScript.wrappers)

include listed

theorem InnerScript.exists_outputScript (inner : InnerScript) {bytes : Bytes}
    (encoded : inner.script.encode = .ok bytes) :
    ∃ output, (wrap inner).outputScript = .ok output := by
  obtain ⟨witness, wrapped, encoded'⟩ := Script.payToWitnessScriptHash_of_encode encoded
  obtain ⟨direct, hashed, -⟩ := Script.payToScriptHash_of_encode encoded
  obtain ⟨nested, hashed', -⟩ := Script.payToScriptHash_of_encode encoded'
  simp only [InnerScript.wrappers, List.mem_cons, List.not_mem_nil, or_false] at listed
  rcases listed with rfl | rfl | rfl | rfl
  · exact ⟨_, rfl⟩
  · exact ⟨witness, wrapped⟩
  · exact ⟨direct, hashed⟩
  · refine ⟨nested, ?_⟩
    rw [Descriptor.outputScript, ShInner.redeemScript, wrapped]
    exact hashed'

theorem InnerScript.outputScript_congr (a b : InnerScript) (same : a.script = b.script) :
    (wrap a).outputScript = (wrap b).outputScript := by
  simp only [InnerScript.wrappers, List.mem_cons, List.not_mem_nil, or_false] at listed
  rcases listed with rfl | rfl | rfl | rfl
  all_goals simp only [Descriptor.outputScript, ShInner.redeemScript, same]

end Wrapping

namespace SortedMulti

/-- The script of some keys is read back as the number of signatures, the keys in the order of their
    encodings, their number and the operation that checks them. It does not depend on the order in
    which the keys are given, and neither do the outputs to it. -/
theorem read_sorted {k : Int} {keys : List DescriptorKey} {multi : SortedMulti}
    (made : make k keys = .ok multi) :
    (∃ (required : Nat) (sorted : List Bytes) (bytes : Bytes), k = required ∧
      sorted.Perm (keys.map fun key => key.key.compressed) ∧ sorted.Pairwise (· ≤ ·) ∧
      multi.script.encode = .ok bytes ∧
      bytes = (elements required sorted).flatMap Script.Element.direct ∧
      Script.read bytes = some (elements required sorted)) ∧
    multi.script.tokens =
      .number k ::
        (((keys.map fun key => Hex.encode key.key.compressed).mergeSort fun a b => a ≤ b).map
            .word ++
          [.number keys.length, .word "OP_CHECKMULTISIG"]) ∧
    ∀ others : List DescriptorKey, others.Perm keys → ∃ multi', make k others = .ok multi' ∧
      multi'.script.encode = multi.script.encode ∧
      ∀ wrap ∈ InnerScript.wrappers, ∃ output,
        (wrap (.sortedMulti multi)).outputScript = .ok output ∧
          (wrap (.sortedMulti multi')).outputScript = .ok output := by
  obtain ⟨rfl, rfl⟩ := make_eq_ok_iff.mp made
  refine ⟨?_, ?_, ?_⟩
  · exact ⟨multi.required, multi.sortedKeys, _, rfl, multi.perm_sortedKeys,
      multi.pairwise_sortedKeys, multi.encode_script, rfl, multi.read_script⟩
  · rfl
  · intro others perm
    have few := perm.length_eq
    let multi' : SortedMulti := ⟨multi.required, others, multi.required_pos,
      few ▸ multi.required_le, few ▸ multi.keys_le⟩
    have same : multi'.script = multi.script := script_eq_of_perm rfl perm
    refine ⟨multi', make_eq_ok_iff.mpr ⟨rfl, rfl⟩, by rw [same], ?_⟩
    intro wrap listed
    obtain ⟨output, built⟩ :=
      InnerScript.exists_outputScript listed (.sortedMulti multi) multi.encode_script
    have moved :=
      InnerScript.outputScript_congr listed (.sortedMulti multi') (.sortedMulti multi) same
    exact ⟨output, built, moved.trans built⟩

def mirrored : PublicKey where
  x := PublicKey.doubled.x
  y := Curve.prime - PublicKey.doubled.y
  holds := by decide

def unsortedKeys : List DescriptorKey :=
  [⟨mirrored, none, []⟩, ⟨PublicKey.doubled, none, []⟩, ⟨mirrored, none, []⟩]

def swappedKeys : List DescriptorKey :=
  [⟨PublicKey.doubled, none, []⟩, ⟨mirrored, none, []⟩, ⟨mirrored, none, []⟩]

theorem read_sorted_mirrored :
    ∃ multi bytes multi' output, make 2 unsortedKeys = .ok multi ∧
      multi.script.encode = .ok bytes ∧
      Script.read bytes = some [.code 0x52, .push PublicKey.doubled.compressed,
        .push mirrored.compressed, .push mirrored.compressed, .code 0x53, .code 0xae] ∧
      make 2 swappedKeys = .ok multi' ∧ multi'.script.encode = .ok bytes ∧
      (Descriptor.wsh (.sortedMulti multi)).outputScript = .ok output ∧
      (Descriptor.wsh (.sortedMulti multi')).outputScript = .ok output := by
  have made : make 2 unsortedKeys =
      .ok ⟨2, unsortedKeys, by decide, by decide, by decide⟩ := rfl
  obtain ⟨⟨required, sorted, bytes, two, perm, ordered, encoded, -, read⟩, -, reordered⟩ :=
    read_sorted made
  obtain ⟨multi', made', encoded', outputs⟩ := reordered swappedKeys (List.Perm.swap _ _ _)
  obtain ⟨output, paid, paid'⟩ := outputs .wsh (by simp [InnerScript.wrappers])
  cases Int.ofNat.inj two
  have order : [PublicKey.doubled.compressed, mirrored.compressed, mirrored.compressed].Pairwise
      (· ≤ ·) := by
    decide +kernel
  have same :
      sorted = [PublicKey.doubled.compressed, mirrored.compressed, mirrored.compressed] := by
    apply List.Perm.eq_of_pairwise (fun _ _ _ _ => List.le_antisymm) ordered order
    exact perm.trans (List.Perm.swap _ _ _)
  rw [same] at read
  exact ⟨_, bytes, multi', output, made, encoded, read, made', encoded'.trans encoded, paid, paid'⟩

end SortedMulti

end SpendingPlan

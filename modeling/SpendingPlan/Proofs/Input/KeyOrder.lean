import SpendingPlan.Proofs.Input.Framing
import SpendingPlan.Proofs.Table.Sorted

namespace SpendingPlan.Input

theorem lePair_trans {a b c : Bytes × Bytes} (first : lePair a b = true)
    (second : lePair b c = true) : lePair a c = true := by
  unfold lePair at *
  by_cases left : a.1 = b.1
  · by_cases right : b.1 = c.1
    · rw [if_pos left] at first
      rw [if_pos right] at second
      rw [if_pos (left.trans right)]
      exact Bytes.le_trans first second
    · rw [if_neg right] at second
      rw [left, if_neg right]
      exact second
  · rw [if_neg left] at first
    by_cases right : b.1 = c.1
    · rw [← right, if_neg left]
      exact first
    · rw [if_neg right] at second
      have ends : a.1 ≠ c.1 := by
        intro same
        have less := Bytes.lt_of_le_of_ne first left
        rw [Bytes.le, ← same, less] at second
        cases second
      rw [if_neg ends]
      exact Bytes.le_trans first second

theorem lePair_total (a b : Bytes × Bytes) : (lePair a b || lePair b a) = true := by
  unfold lePair
  by_cases same : a.1 = b.1
  · rw [if_pos same, if_pos same.symm]
    exact Bytes.le_total a.2 b.2
  · rw [if_neg same, if_neg (Ne.symm same)]
    exact Bytes.le_total a.1 b.1

theorem lePair_antisymm {a b : Bytes × Bytes} (below : lePair a b = true)
    (above : lePair b a = true) : a = b := by
  unfold lePair at below above
  by_cases same : a.1 = b.1
  · rw [if_pos same] at below
    rw [if_pos same.symm] at above
    exact Prod.ext same (Bytes.le_antisymm below above)
  · rw [if_neg same] at below
    rw [if_neg (Ne.symm same)] at above
    exact absurd (Bytes.le_antisymm below above) same

theorem linear_lePair : Table.Linear lePair := ⟨lePair_trans, lePair_total, lePair_antisymm⟩

theorem lt_append_of_lePair {a b : Bytes × Bytes} (size : a.1.length = b.1.length)
    (below : lePair a b = true) (apart : a ≠ b) : (a.1 ++ a.2).lt (b.1 ++ b.2) = true := by
  obtain ⟨first, second⟩ := a
  obtain ⟨first', second'⟩ := b
  dsimp only [lePair] at *
  by_cases same : first = first'
  · subst same
    rw [if_pos rfl] at below
    have differ : second ≠ second' := fun equal => apart (by rw [equal])
    exact Bytes.lt_append_left (Bytes.lt_of_le_of_ne below differ) first
  · rw [if_neg same] at below
    exact Bytes.lt_append (Bytes.lt_of_le_of_ne below same) size second second'

namespace Field

theorem Lists.increasing {κ ν : Type} {field : Field} {keyData : κ → Bytes}
    {write : ν → Except Error Bytes} {entries : List (κ × ν)} {pairs : List Pair}
    (h : field.Lists keyData write entries pairs)
    (ordered : entries.Pairwise fun a b => (keyData a.1).lt (keyData b.1) = true) :
    pairs.Pairwise fun a b => a.1.lt b.1 = true := by
  have written : List.Forall₂ (fun entry (pair : Pair) => pair.1 = field.type :: keyData entry.1)
      entries pairs := h.imp fun _ _ wrote => wrote.1
  clear h
  induction written with
  | nil => exact .nil
  | @cons entry pair entries pairs head rest ih =>
    rw [List.pairwise_cons] at ordered
    refine .cons ?_ (ih ordered.2)
    intro later member
    obtain ⟨other, held, key⟩ := exists_related rest.flip member
    have less := ordered.1 other held
    rw [head, key]
    exact Bytes.lt_append_left less [field.type]

theorem Gives.increasing {ν : Type} {field : Field} {write : ν → Except Error Bytes}
    {value? : Option ν} {pairs : List Pair} (h : field.Gives write value? pairs) :
    pairs.Pairwise fun a b => a.1.lt b.1 = true := by
  apply Lists.increasing h
  cases value? with
  | none => exact .nil
  | some value => exact List.pairwise_singleton _ _

theorem Holds.increasing {input : Input} {field : Field} {pairs : List Pair}
    (even : ∀ a ∈ input.tapScriptSignatures.keys, ∀ b ∈ input.tapScriptSignatures.keys,
      a.1.length = b.1.length)
    (h : field.Holds input pairs) : pairs.Pairwise fun a b => a.1.lt b.1 = true := by
  cases field with
  | partialSignature => exact Lists.increasing h (Table.pairwise_sorted_bytes _)
  | keyOrigin => exact Lists.increasing h (Table.pairwise_sorted_bytes _)
  | tapScript => exact Lists.increasing h (Table.pairwise_sorted_bytes _)
  | tapKeyOrigin => exact Lists.increasing h (Table.pairwise_sorted_bytes _)
  | tapScriptSignature =>
    have sorted := Table.pairwise_sorted linear_lePair input.tapScriptSignatures
    have listed : Field.tapScriptSignature.Lists (fun key : Bytes × Bytes => key.1 ++ key.2) .ok
        (input.tapScriptSignatures.sorted lePair) pairs := h
    apply listed.increasing
    apply sorted.imp_of_mem
    rintro a b left right ⟨below, apart⟩
    have size := even a.1 (List.mem_map_of_mem (Table.mem_sorted.mp left)) b.1
      (List.mem_map_of_mem (Table.mem_sorted.mp right))
    exact lt_append_of_lePair size below apart
  | previousTransaction => exact Gives.increasing h
  | previousOutput => exact Gives.increasing h
  | sighashType => exact Gives.increasing h
  | redeemScript => exact Gives.increasing h
  | witnessScript => exact Gives.increasing h
  | finalScriptSig => exact Gives.increasing h
  | finalWitness => exact Gives.increasing h
  | tapKeySignature => exact Gives.increasing h
  | tapInternalKey => exact Gives.increasing h
  | tapMerkleRoot => exact Gives.increasing h

theorem types_increasing : all.Pairwise fun a b => a.type.toNat < b.type.toNat := by decide

end Field

theorem keys_increasing {input : Input} {known : Field → List Pair}
    (even : ∀ a ∈ input.tapScriptSignatures.keys, ∀ b ∈ input.tapScriptSignatures.keys,
      a.1.length = b.1.length)
    (holds : ∀ field : Field, field.Holds input (known field)) :
    (Field.all.flatMap known).Pairwise fun a b => a.1.lt b.1 = true := by
  rw [List.pairwise_flatMap]
  constructor
  · intro field _
    exact (holds field).increasing even
  · apply Field.types_increasing.imp
    intro field later less a left b right
    have first := (holds field).head_key a left
    have second := (holds later).head_key b right
    obtain ⟨data, key⟩ := List.head?_eq_some_iff.mp first
    obtain ⟨data', key'⟩ := List.head?_eq_some_iff.mp second
    have types : Bytes.lt [field.type] [later.type] = true := by
      simp [Bytes.lt, less]
    rw [key, key']
    exact Bytes.lt_append types rfl data data'

end SpendingPlan.Input

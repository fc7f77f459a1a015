import SpendingPlan.Proofs.Bytes.Order
import SpendingPlan.Proofs.Outcome
import SpendingPlan.Taproot.Tree

namespace SpendingPlan.Taproot

theorem leafPreimage_ok_iff {script : Script} {preimage : Bytes} :
    leafPreimage scriptLeafVersion script = .ok preimage ↔
      ∃ bytes framed, script.encode = .ok bytes ∧ CompactSize.frame bytes = .ok framed ∧
        preimage = 0xc0 :: framed := by
  have version : byte scriptLeafVersion = .ok 0xc0 := rfl
  rw [leafPreimage, version, ok_bind]
  constructor
  · intro h
    obtain ⟨bytes, encoded, h⟩ := bind_ok h
    obtain ⟨framed, frame, h⟩ := bind_ok h
    cases h
    exact ⟨bytes, framed, encoded, frame, rfl⟩
  · rintro ⟨bytes, framed, encoded, frame, rfl⟩
    rw [encoded, ok_bind, frame]
    rfl

theorem branchPreimage_comm (a b : Bytes) : branchPreimage a b = branchPreimage b a := by
  rcases Bytes.lt_trichotomy a b with less | rfl | less
  · rw [branchPreimage, branchPreimage, if_pos less, Bytes.lt_asymm less]
    rfl
  · rfl
  · rw [branchPreimage, branchPreimage, if_pos less, Bytes.lt_asymm less]
    rfl

theorem branchPreimage_eq (a b : Bytes) :
    branchPreimage a b = a ++ b ∨ branchPreimage a b = b ++ a := by
  unfold branchPreimage
  split
  · exact .inl rfl
  · exact .inr rfl

/-- Two hashes of one size can be told from what a branch is hashed over, but not their order. -/
theorem branchPreimage_inj {size : Nat} {a b c d : Bytes} (first : a.length = size)
    (second : b.length = size) (third : c.length = size) (fourth : d.length = size)
    (same : branchPreimage a b = branchPreimage c d) : (a = c ∧ b = d) ∨ (a = d ∧ b = c) := by
  rcases branchPreimage_eq a b with left | left <;> rcases branchPreimage_eq c d with right | right
  all_goals rw [left, right] at same
  · exact .inl (List.append_inj same (by omega))
  · exact .inr (List.append_inj same (by omega))
  · exact .inr (List.append_inj same (by omega)).symm
  · exact .inl (List.append_inj same (by omega)).symm

end SpendingPlan.Taproot

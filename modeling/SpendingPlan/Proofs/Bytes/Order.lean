import SpendingPlan.Bytes

namespace SpendingPlan.Bytes

theorem lt_iff (a b : Bytes) : lt a b = true ↔ a < b := by
  induction a generalizing b with
  | nil => cases b <;> simp [lt]
  | cons x xs ih =>
    cases b with
    | nil => simp [lt]
    | cons y ys =>
      rw [List.cons_lt_cons_iff, ← ih, ← UInt8.toNat_inj, UInt8.lt_iff_toNat_lt]
      simp [lt]

theorem lt_trichotomy (a b : Bytes) : lt a b = true ∨ a = b ∨ lt b a = true := by
  simp only [lt_iff]
  rcases List.le_total a b with below | below
  · rcases List.le_iff_lt_or_eq.mp below with less | same
    · exact .inl less
    · exact .inr (.inl same)
  · rcases List.le_iff_lt_or_eq.mp below with less | same
    · exact .inr (.inr less)
    · exact .inr (.inl same.symm)

theorem lt_asymm {a b : Bytes} (h : lt a b = true) : lt b a = false := by
  rw [lt_iff] at h
  rw [Bool.eq_false_iff, ne_eq, lt_iff]
  exact List.lt_asymm h

theorem le_iff (a b : Bytes) : le a b = true ↔ a ≤ b := by
  rw [le, Bool.not_eq_true', Bool.eq_false_iff, ne_eq, lt_iff]
  exact List.not_lt

theorem le_trans {a b c : Bytes} (first : le a b = true) (second : le b c = true) :
    le a c = true := by
  rw [le_iff] at first second ⊢
  exact List.le_trans first second

theorem le_total (a b : Bytes) : (le a b || le b a) = true := by
  rw [Bool.or_eq_true, le_iff, le_iff]
  exact List.le_total a b

theorem le_antisymm {a b : Bytes} (below : le a b = true) (above : le b a = true) : a = b := by
  rw [le_iff] at below above
  exact List.le_antisymm below above

theorem lt_of_le_of_ne {a b : Bytes} (below : le a b = true) (apart : a ≠ b) : lt a b = true := by
  rcases lt_trichotomy a b with less | same | greater
  · exact less
  · exact absurd same apart
  · rw [le, greater] at below
    cases below

theorem lt_append {a b : Bytes} (less : lt a b = true) (size : a.length = b.length) (c d : Bytes) :
    lt (a ++ c) (b ++ d) = true := by
  induction a generalizing b with
  | nil =>
    cases b with
    | nil => cases less
    | cons _ _ => cases size
  | cons x xs ih =>
    cases b with
    | nil => cases size
    | cons y ys =>
      simp only [lt, List.cons_append, Bool.or_eq_true, Bool.and_eq_true] at less ⊢
      rcases less with first | ⟨same, later⟩
      · exact .inl first
      · exact .inr ⟨same, ih later (Nat.succ.inj size)⟩

theorem lt_append_left {c d : Bytes} (less : lt c d = true) (a : Bytes) :
    lt (a ++ c) (a ++ d) = true := by
  induction a with
  | nil => exact less
  | cons x xs ih => simp [lt, ih]

end SpendingPlan.Bytes

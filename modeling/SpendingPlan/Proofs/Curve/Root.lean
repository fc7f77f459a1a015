import Mathlib.FieldTheory.Finite.Basic
import SpendingPlan.Curve
import SpendingPlan.Proofs.Curve.Prime

namespace SpendingPlan.Curve

theorem natCast_inj {a b : ℕ} (reduced : a < prime) (reduced' : b < prime) :
    (a : ZMod prime) = b ↔ a = b := by
  rw [ZMod.natCast_eq_natCast_iff', Nat.mod_eq_of_lt reduced, Nat.mod_eq_of_lt reduced']

theorem power_lt (base exponent : ℕ) : power base exponent < prime := by
  fun_induction power base exponent with
  | case1 => decide
  | case2 base exponent nonzero half odd ih => exact Nat.mod_lt _ prime_pos
  | case3 base exponent nonzero half even ih => exact ih

theorem natCast_power (base exponent : ℕ) :
    (power base exponent : ZMod prime) = (base : ZMod prime) ^ exponent := by
  fun_induction power base exponent with
  | case1 base => simp
  | case2 base exponent nonzero half odd ih =>
    have whole : exponent = 2 * (exponent / 2) + 1 := by omega
    rw [ZMod.natCast_mod, Nat.cast_mul, ih, ZMod.natCast_mod, Nat.cast_mul, ← sq, ← pow_mul,
      ← pow_succ', ← whole]
  | case3 base exponent nonzero half even ih =>
    have whole : exponent = 2 * (exponent / 2) := by omega
    rw [ih, ZMod.natCast_mod, Nat.cast_mul, ← sq, ← pow_mul, ← whole]

theorem sq_pow_quarter (y : ZMod prime) : ((y ^ 2) ^ ((prime + 1) / 4)) ^ 2 = y ^ 2 := by
  have exponent : 2 * ((prime + 1) / 4 * 2) = prime + 1 := by decide
  rw [← pow_mul, ← pow_mul, exponent, pow_succ, ZMod.pow_card, sq]

theorem mul_self_mod_eq_iff {y a : ℕ} (reduced : a < prime) :
    y * y % prime = a ↔ (y : ZMod prime) ^ 2 = a := by
  rw [← natCast_inj (Nat.mod_lt _ prime_pos) reduced, ZMod.natCast_mod, Nat.cast_mul, sq]

theorem sqrt?_some {a r : ℕ} (h : sqrt? a = some r) : r < prime ∧ r * r % prime = a := by
  rw [sqrt?] at h
  split at h
  · rename_i square
    cases h
    exact ⟨power_lt _ _, square⟩
  · cases h

theorem sqrt?_of_mul_self (y : ℕ) : ∃ r, sqrt? (y * y % prime) = some r := by
  have reduced : y * y % prime < prime := Nat.mod_lt _ prime_pos
  have square : power (y * y % prime) ((prime + 1) / 4) * power (y * y % prime) ((prime + 1) / 4) %
      prime = y * y % prime := by
    rw [mul_self_mod_eq_iff reduced, natCast_power, ZMod.natCast_mod, Nat.cast_mul, ← sq]
    exact sq_pow_quarter y
  exact ⟨_, if_pos square⟩

theorem eq_or_add_eq {y z : ℕ} (reduced : y < prime) (reduced' : z < prime)
    (same : y * y % prime = z * z % prime) : y = z ∨ y + z = prime := by
  have squares : (y : ZMod prime) ^ 2 = (z : ZMod prime) ^ 2 := by
    rw [(mul_self_mod_eq_iff (Nat.mod_lt _ prime_pos)).mp same, ZMod.natCast_mod, Nat.cast_mul, sq]
  rcases sq_eq_sq_iff_eq_or_eq_neg.mp squares with equal | opposite
  · exact .inl ((natCast_inj reduced reduced').mp equal)
  · have divides : prime ∣ y + z := by
      rw [← ZMod.natCast_eq_zero_iff, Nat.cast_add, opposite, neg_add_cancel]
    obtain ⟨times, sum⟩ := divides
    have few : times < 2 := by
      by_contra many
      have : prime * 2 ≤ prime * times := Nat.mul_le_mul_left prime (by omega)
      omega
    interval_cases times
    · exact .inl (by omega)
    · exact .inr (by omega)

theorem opposite_mul_self {y : ℕ} (reduced : y ≤ prime) :
    (prime - y) * (prime - y) % prime = y * y % prime := by
  rw [mul_self_mod_eq_iff (Nat.mod_lt _ prime_pos), Nat.cast_sub reduced, ZMod.natCast_self,
    zero_sub, neg_sq, ← mul_self_mod_eq_iff (Nat.mod_lt _ prime_pos)]

theorem prime_odd : prime % 2 = 1 := by decide

theorem evenOrdinate?_eq_some_iff {x y : ℕ} :
    evenOrdinate? x = some y ↔ y < prime ∧ y % 2 = 0 ∧ y * y % prime = cubic x := by
  have odd := prime_odd
  rw [evenOrdinate?, Option.map_eq_some_iff]
  constructor
  · rintro ⟨r, found, rfl⟩
    obtain ⟨reduced, square⟩ := sqrt?_some found
    split
    · rename_i even
      exact ⟨reduced, even, square⟩
    · -- the prime is odd, so that of two opposite roots one is even
      exact ⟨by omega, by omega, (opposite_mul_self reduced.le).trans square⟩
  · rintro ⟨reduced, even, square⟩
    obtain ⟨r, found⟩ := sqrt?_of_mul_self y
    obtain ⟨reduced', square'⟩ := sqrt?_some found
    refine ⟨r, square ▸ found, ?_⟩
    rcases eq_or_add_eq reduced' reduced square' with same | opposite
    · rw [same, if_pos even]
    · rw [if_neg (by omega)]
      omega

theorem evenOrdinate?_eq_find? {x : ℕ} {roots : List ℕ}
    (all : ∀ y, y ∈ roots ↔ y < prime ∧ y * y % prime = cubic x) :
    evenOrdinate? x = roots.find? fun y => y % 2 = 0 := by
  have root {y : ℕ} : y ∈ roots ∧ y % 2 = 0 ↔ evenOrdinate? x = some y := by
    rw [evenOrdinate?_eq_some_iff, all, and_assoc, and_comm (a := _ = cubic x)]
  cases found : roots.find? fun y => y % 2 = 0 with
  | none =>
    rw [Option.eq_none_iff_forall_ne_some]
    intro y given
    obtain ⟨listed, even⟩ := root.mpr given
    exact List.find?_eq_none.mp found y listed (decide_eq_true even)
  | some y =>
    have even : y % 2 = 0 := by simpa using List.find?_some found
    exact root.mp ⟨List.mem_of_find?_eq_some found, even⟩

theorem cubic_eq (x : ℕ) : cubic x = (x ^ 3 + 7) % prime := by
  rw [cubic, pow_succ, sq]

theorem neg_seven_pow : (-7 : ZMod prime) ^ ((prime - 1) / 3) ≠ 1 := by
  unfold prime
  norm_num
  reduce_mod_char
  decide

theorem cubic_ne_zero (x : ℕ) : cubic x ≠ 0 := by
  intro zero
  have cube : (x : ZMod prime) ^ 3 = -7 := by
    have sum := congrArg (Nat.cast : ℕ → ZMod prime) zero
    rw [cubic, ZMod.natCast_mod] at sum
    push_cast at sum
    rw [eq_neg_iff_add_eq_zero, ← sum]
    ring
  have nonzero : (x : ZMod prime) ≠ 0 := by
    intro vanishes
    rw [vanishes] at cube
    exact absurd cube (by unfold prime; decide)
  -- the power of minus seven that a cube would have as one is another number
  have exponent : 3 * ((prime - 1) / 3) = prime - 1 := by decide
  apply neg_seven_pow
  rw [← cube, ← pow_mul, exponent]
  exact ZMod.pow_card_sub_one_eq_one nonzero

theorem Holds.ordinate_pos {x y : ℕ} (holds : Holds x y) : 0 < y := by
  obtain ⟨-, -, square⟩ := holds
  apply Nat.pos_of_ne_zero
  rintro rfl
  exact cubic_ne_zero x square.symm

end SpendingPlan.Curve

import Mathlib.Algebra.Ring.Nat
import SpendingPlan.Bytes

namespace SpendingPlan.Bytes

theorem toNatLE_ofNatLE (width n : Nat) : toNatLE (ofNatLE width n) = n % 256 ^ width := by
  induction width generalizing n with
  | zero => simp [ofNatLE, toNatLE, Nat.mod_one]
  | succ width ih =>
    have low : (UInt8.ofNat n).toNat = n % 256 := by simp
    rw [ofNatLE, toNatLE, ih, low, pow_succ, Nat.mul_comm (256 ^ width) 256, Nat.mod_mul]

theorem toNatLE_lt (bytes : Bytes) : toNatLE bytes < 256 ^ bytes.length := by
  induction bytes with
  | nil => simp [toNatLE]
  | cons byte rest ih =>
    have := byte.toNat_lt
    simp only [toNatLE, List.length_cons, pow_succ]
    omega

theorem base_pow (width : Nat) : 256 ^ width = 2 ^ (8 * width) := (Nat.pow_mul 2 8 width).symm

theorem toNatLE_append_zero (bytes : Bytes) : toNatLE (bytes ++ [0]) = toNatLE bytes := by
  induction bytes with
  | nil => rfl
  | cons byte rest ih => rw [List.cons_append, toNatLE, toNatLE, ih]

theorem toNatBE_ofNatBE (width n : Nat) : toNatBE (ofNatBE width n) = n % 256 ^ width := by
  rw [toNatBE_eq, ofNatBE, List.reverse_reverse, toNatLE_ofNatLE]

theorem ofNatBE_toNatBE (bytes : Bytes) : ofNatBE bytes.length (toNatBE bytes) = bytes := by
  have reversed := ofNatLE_toNatLE bytes.reverse
  rw [List.length_reverse] at reversed
  rw [toNatBE_eq, ofNatBE, reversed, List.reverse_reverse]

end SpendingPlan.Bytes

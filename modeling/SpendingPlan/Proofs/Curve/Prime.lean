import Mathlib.Data.List.Prime
import Mathlib.NumberTheory.LucasPrimality
import Mathlib.Tactic.NormNum.Prime
import Mathlib.Tactic.ReduceModChar
import SpendingPlan.Curve

namespace SpendingPlan.Curve

/-- Lucas's test with all prime factors of `p - 1` listed, each as often as it divides. -/
theorem prime_of_factors {p : ℕ} (a : ZMod p) (factors : List ℕ)
    (primes : ∀ q ∈ factors, q.Prime) (product : factors.prod = p - 1) (full : a ^ (p - 1) = 1)
    (proper : ∀ q ∈ factors, a ^ ((p - 1) / q) ≠ 1) : p.Prime := by
  apply lucas_primality p a full
  intro q prime divides
  rw [← product] at divides
  obtain ⟨factor, member, divides⟩ := prime.prime.dvd_prod_iff.mp divides
  obtain rfl := (Nat.prime_dvd_prime_iff_eq prime (primes factor member)).mp divides
  exact proper q member

theorem prime_58bit : Nat.Prime 173378833005251801 := by
  apply prime_of_factors 6 [2, 2, 2, 5, 5, 2621, 24809, 13331831]
  · norm_num
  · norm_num
  · norm_num
    reduce_mod_char
  · norm_num
    reduce_mod_char
    decide

theorem prime_75bit : Nat.Prime 22149492674086928081353 := by
  apply prime_of_factors 5 ([2, 2, 2, 3, 5323] ++ [173378833005251801])
  · rw [List.forall_mem_append, List.forall_mem_singleton]
    exact ⟨by norm_num, prime_58bit⟩
  · norm_num
  · norm_num
    reduce_mod_char
  · norm_num
    reduce_mod_char
    decide

theorem prime_77bit : Nat.Prime 132896956044521568488119 := by
  apply prime_of_factors 6 ([2, 3] ++ [22149492674086928081353])
  · rw [List.forall_mem_append, List.forall_mem_singleton]
    exact ⟨by norm_num, prime_75bit⟩
  · norm_num
  · norm_num
    reduce_mod_char
  · norm_num
    reduce_mod_char
    decide

theorem prime_128bit : Nat.Prime 255515944373312847190720520512484175977 := by
  apply prime_of_factors 3 [2, 2, 2, 7, 7, 11, 1627, 2657, 4423, 41201, 96557, 7240687, 107590001]
  · norm_num
  · norm_num
  · norm_num
    reduce_mod_char
  · norm_num
    reduce_mod_char
    decide

theorem prime_237bit :
    Nat.Prime 205115282021455665897114700593932402728804164701536103180137503955397371 := by
  apply prime_of_factors 10 ([2, 3, 5, 29, 29, 31, 7723] ++
    [132896956044521568488119, 255515944373312847190720520512484175977])
  · rw [List.forall_mem_append]
    refine ⟨by norm_num, ?_⟩
    rw [List.forall_mem_cons, List.forall_mem_singleton]
    exact ⟨prime_77bit, prime_128bit⟩
  · norm_num
  · norm_num
    reduce_mod_char
  · norm_num
    reduce_mod_char
    decide

theorem prime_prime : Nat.Prime prime := by
  unfold prime
  apply prime_of_factors 3 ([2, 3, 7, 13441] ++
    [205115282021455665897114700593932402728804164701536103180137503955397371])
  · rw [List.forall_mem_append, List.forall_mem_singleton]
    exact ⟨by norm_num, prime_237bit⟩
  · norm_num
  · norm_num
    reduce_mod_char
  · norm_num
    reduce_mod_char
    decide

instance : Fact (Nat.Prime prime) := ⟨prime_prime⟩

end SpendingPlan.Curve

import SpendingPlan.Curve
import SpendingPlan.Proofs.Curve.Prime

namespace SpendingPlan.Curve

theorem prime_57bit : Nat.Prime 107361793816595537 := by
  apply prime_of_factors 3 [2, 2, 2, 2, 16699, 85831, 4681609]
  · norm_num
  · norm_num
  · norm_num
    reduce_mod_char
  · norm_num
    reduce_mod_char
    decide

theorem prime_68bit : Nat.Prime 174723607534414371449 := by
  apply prime_of_factors 3 [2, 2, 2, 17, 59, 4051, 120233, 44706919]
  · norm_num
  · norm_num
  · norm_num
    reduce_mod_char
  · norm_num
    reduce_mod_char
    decide

theorem prime_30bit : Nat.Prime 545358713 := by
  apply prime_of_factors 5 [2, 2, 2, 41, 59, 28181]
  · norm_num
  · norm_num
  · norm_num
    reduce_mod_char
  · norm_num
    reduce_mod_char
    decide

theorem prime_39bit : Nat.Prime 297159362677 := by
  apply prime_of_factors 2 [2, 2, 3, 3, 11, 461, 1627771]
  · norm_num
  · norm_num
  · norm_num
    reduce_mod_char
  · norm_num
    reduce_mod_char
    decide

theorem prime_95bit : Nat.Prime 29047611873442575647497758179 := by
  apply prime_of_factors 2 ([2, 293, 305873] ++ [545358713, 297159362677])
  · rw [List.forall_mem_append]
    refine ⟨by norm_num, ?_⟩
    rw [List.forall_mem_cons, List.forall_mem_singleton]
    exact ⟨prime_30bit, prime_39bit⟩
  · norm_num
  · norm_num
    reduce_mod_char
  · norm_num
    reduce_mod_char
    decide

theorem prime_109bit : Nat.Prime 341948486974166000522343609283189 := by
  apply prime_of_factors 2 ([2, 2, 3, 3, 3, 109] ++ [29047611873442575647497758179])
  · rw [List.forall_mem_append, List.forall_mem_singleton]
    exact ⟨by norm_num, prime_95bit⟩
  · norm_num
  · norm_num
    reduce_mod_char
  · norm_num
    reduce_mod_char
    decide

theorem prime_order : Nat.Prime order := by
  unfold order
  apply prime_of_factors 7 ([2, 2, 2, 2, 2, 2, 3, 149, 631] ++
    [107361793816595537, 174723607534414371449, 341948486974166000522343609283189])
  · rw [List.forall_mem_append]
    refine ⟨by norm_num, ?_⟩
    rw [List.forall_mem_cons, List.forall_mem_cons, List.forall_mem_singleton]
    exact ⟨prime_57bit, prime_68bit, prime_109bit⟩
  · norm_num
  · norm_num
    reduce_mod_char
  · norm_num
    reduce_mod_char
    decide

instance : Fact (Nat.Prime order) := ⟨prime_order⟩

end SpendingPlan.Curve

import Mathlib.Data.List.TakeWhile
import SpendingPlan.Text.Character

namespace SpendingPlan.Text

variable {drop : Char → Bool} {text : List Char}

theorem dropWhile_of_head (solid : ∀ c, text.head? = some c → drop c = false) :
    text.dropWhile drop = text := by
  cases text with
  | nil => rfl
  | cons c rest => rw [List.dropWhile_cons, solid c rfl, if_neg Bool.false_ne_true]

theorem trimEnd_of_last (solid : ∀ c, text.getLast? = some c → drop c = false) :
    trimEnd drop text = text := by
  rw [trimEnd, dropWhile_of_head, List.reverse_reverse]
  rw [List.head?_reverse]
  exact solid

theorem trimEnd_concat {last : Char} (closes : drop last = true) :
    trimEnd drop (text ++ [last]) = trimEnd drop text := by
  rw [trimEnd, trimEnd, List.reverse_append, List.reverse_singleton, List.singleton_append,
    List.dropWhile_cons, if_pos closes]

theorem trim_eq_self (solid : ∀ c ∈ text, drop c = false) : trim drop text = text := by
  rw [trim, dropWhile_of_head, trimEnd_of_last]
  · intro c last
    exact solid c (List.mem_of_getLast? last)
  · intro c first
    exact solid c (List.mem_of_head? first)

theorem trim_enclosed {first last : Char} (solid : ∀ c ∈ text, drop c = false)
    (opens : drop first = true) (closes : drop last = true) :
    trim drop (first :: (text ++ [last])) = text := by
  have whole := trim_eq_self solid
  cases text with
  | nil => simp [trim, trimEnd, opens, closes]
  | cons c rest =>
    have front : (first :: (c :: rest ++ [last])).dropWhile drop = c :: rest ++ [last] := by
      simp [opens, solid c List.mem_cons_self]
    have unopened : (c :: rest).dropWhile drop = c :: rest := by
      simp [solid c List.mem_cons_self]
    rw [trim, unopened] at whole
    rw [trim, front, trimEnd_concat closes, whole]

theorem trim_parts (drop : Char → Bool) (text : List Char) :
    ∃ front back, text = front ++ (trim drop text ++ back) ∧ (∀ c ∈ front, drop c = true) ∧
      ∀ c ∈ back, drop c = true := by
  refine ⟨text.takeWhile drop, ((text.dropWhile drop).reverse.takeWhile drop).reverse, ?_, ?_, ?_⟩
  · rw [trim, trimEnd, ← List.reverse_append, List.takeWhile_append_dropWhile, List.reverse_reverse,
      List.takeWhile_append_dropWhile]
  · intro c member
    exact List.mem_takeWhile_imp member
  · intro c member
    exact List.mem_takeWhile_imp (List.mem_reverse.mp member)

end SpendingPlan.Text

import Mathlib.Data.List.Forall2

namespace SpendingPlan

variable {α β γ : Type}

theorem forall₂_snoc {related : α → β → Prop} {items : List α} {last : α} {results : List β}
    (h : List.Forall₂ related (items ++ [last]) results) :
    ∃ front result, results = front ++ [result] ∧ List.Forall₂ related items front ∧
      related last result := by
  have reversed := List.forall₂_reverse_iff.mpr h
  rw [List.reverse_append, List.reverse_singleton, List.singleton_append,
    List.forall₂_cons_left_iff] at reversed
  obtain ⟨result, front, holds, rest, same⟩ := reversed
  refine ⟨front.reverse, result, ?_, ?_, holds⟩
  · rw [← List.reverse_cons, ← same, List.reverse_reverse]
  · rw [← List.forall₂_reverse_iff, List.reverse_reverse]
    exact rest

theorem forall₂_through {first : α → γ → Prop} {second : β → γ → Prop} {as : List α} {bs : List β}
    {cs : List γ} (left : List.Forall₂ first as cs) (right : List.Forall₂ second bs cs) :
    List.Forall₂ (fun a b => ∃ c, first a c ∧ second b c) as bs := by
  induction left generalizing bs with
  | nil =>
    cases right
    exact .nil
  | cons head _ ih =>
    cases right with
    | cons other rest => exact .cons ⟨_, head, other⟩ (ih rest)

theorem exists_related {related : α → β → Prop} {as : List α} {bs : List β}
    (h : List.Forall₂ related as bs) {a : α} (member : a ∈ as) : ∃ b ∈ bs, related a b := by
  induction h with
  | nil => cases member
  | cons head _ ih =>
    rcases List.mem_cons.mp member with rfl | member
    · exact ⟨_, List.mem_cons_self, head⟩
    · obtain ⟨b, held, holds⟩ := ih member
      exact ⟨b, List.mem_cons_of_mem _ held, holds⟩

theorem forall₂_imp_of_mem {first second : α → β → Prop} {as : List α} {bs : List β}
    (h : List.Forall₂ first as bs) (imp : ∀ a ∈ as, ∀ b ∈ bs, first a b → second a b) :
    List.Forall₂ second as bs := by
  induction h with
  | nil => exact .nil
  | cons head _ ih =>
    refine .cons (imp _ List.mem_cons_self _ List.mem_cons_self head) (ih ?_)
    intro a held b member
    exact imp a (List.mem_cons_of_mem _ held) b (List.mem_cons_of_mem _ member)

theorem rel_refl {related : α → α → Prop} (refl : ∀ x, related x x) (a : Option α) :
    Option.Rel related a a := by
  cases a with
  | none => exact .none
  | some x => exact .some (refl x)

theorem rel_eq_iff {a b : Option α} : Option.Rel (· = ·) a b ↔ a = b := by
  constructor
  · rintro (same | _)
    · rw [same]
    · rfl
  · rintro rfl
    exact rel_refl (fun _ => rfl) a

/-- What is found first in a list is related to what is found first in the same items in another
    order, when all that can be found is related. -/
theorem rel_findSome? {f : α → Option β} {related : β → β → Prop} {items items' : List α}
    (reordered : items.Perm items')
    (alike : ∀ x ∈ items, ∀ y ∈ items, ∀ a b, f x = some a → f y = some b → related a b) :
    Option.Rel related (items.findSome? f) (items'.findSome? f) := by
  cases first : items.findSome? f with
  | none =>
    have nothing : items'.findSome? f = none := by
      rw [List.findSome?_eq_none_iff] at first ⊢
      intro item member
      exact first item (reordered.mem_iff.mpr member)
    rw [nothing]
    exact .none
  | some a =>
    obtain ⟨x, member, gives⟩ := List.exists_of_findSome?_eq_some first
    cases second : items'.findSome? f with
    | none =>
      have nothing := List.findSome?_eq_none_iff.mp second x (reordered.mem_iff.mp member)
      rw [gives] at nothing
      cases nothing
    | some b =>
      obtain ⟨y, member', gives'⟩ := List.exists_of_findSome?_eq_some second
      exact .some (alike x member y (reordered.mem_iff.mpr member') a b gives gives')

theorem rel_findSome?_reverse {f : α → Option β} {related : β → β → Prop} {items items' : List α}
    (reordered : items.Perm items')
    (alike : ∀ x ∈ items, ∀ y ∈ items, ∀ a b, f x = some a → f y = some b → related a b) :
    Option.Rel related (items.reverse.findSome? f) (items'.reverse.findSome? f) := by
  have reversed := (List.reverse_perm items).trans
    (reordered.trans (List.reverse_perm items').symm)
  apply rel_findSome? reversed
  intro x member y member'
  exact alike x (List.mem_reverse.mp member) y (List.mem_reverse.mp member')

end SpendingPlan

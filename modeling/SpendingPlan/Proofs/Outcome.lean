import Mathlib.Data.List.Forall2
import SpendingPlan.Error

namespace SpendingPlan

variable {α β : Type}

theorem bind_ok {x : Except Error α} {f : α → Except Error β} {b : β}
    (h : (x >>= f) = .ok b) : ∃ a, x = .ok a ∧ f a = .ok b := by
  cases x with
  | error e => cases h
  | ok a => exact ⟨a, rfl, h⟩

@[simp] theorem ok_bind (a : α) (f : α → Except Error β) : (Except.ok a >>= f) = f a := rfl

theorem exists_ok_of_isOk {x : Except Error α} (h : x.isOk = true) : ∃ a, x = .ok a := by
  cases x with
  | error e => cases h
  | ok a => exact ⟨a, rfl⟩

theorem forall₂_of_mapM {f : α → Except Error β} {items : List α} {results : List β}
    (h : items.mapM f = .ok results) :
    List.Forall₂ (fun item result => f item = .ok result) items results := by
  induction items generalizing results with
  | nil =>
    cases h
    exact .nil
  | cons item items ih =>
    rw [List.mapM_cons] at h
    obtain ⟨first, head, h⟩ := bind_ok h
    obtain ⟨rest, tail, h⟩ := bind_ok h
    cases h
    exact .cons head (ih tail)

theorem mapM_eq_map {f : α → Except Error β} {g : α → β} {items : List α}
    (each : ∀ item ∈ items, f item = .ok (g item)) : items.mapM f = .ok (items.map g) := by
  induction items with
  | nil => rfl
  | cons item rest ih =>
    rw [List.forall_mem_cons] at each
    rw [List.mapM_cons, each.1, ih each.2]
    rfl

theorem exists_mapM_inverse {f : α → Except Error β} {g : β → Except Error α} {items : List α}
    (each : ∀ item ∈ items, ∃ image, f item = .ok image ∧ g image = .ok item) :
    ∃ images, items.mapM f = .ok images ∧ images.mapM g = .ok items := by
  induction items with
  | nil => exact ⟨[], rfl, rfl⟩
  | cons item rest ih =>
    rw [List.forall_mem_cons] at each
    obtain ⟨⟨image, there, back⟩, each⟩ := each
    obtain ⟨images, rest, restBack⟩ := ih each
    refine ⟨image :: images, ?_, ?_⟩
    · rw [List.mapM_cons, there, rest]
      rfl
    · rw [List.mapM_cons, back, restBack]
      rfl

theorem mapM_eq_of_forall₂ {γ : Type} {f : α → Except Error γ} {g : β → Except Error γ}
    {as : List α} {bs : List β} (h : List.Forall₂ (fun a b => f a = g b) as bs) :
    as.mapM f = bs.mapM g := by
  induction h with
  | nil => rfl
  | cons head _ ih => rw [List.mapM_cons, List.mapM_cons, head, ih]

theorem mapM_eq_of_rel {γ : Type} {f : α → Except Error γ} {g : β → Except Error γ}
    {a : Option α} {b : Option β} (h : Option.Rel (fun a b => f a = g b) a b) :
    a.mapM f = b.mapM g := by
  cases h with
  | none => rfl
  | some same => rw [Option.mapM_some, Option.mapM_some, same]

end SpendingPlan

import SpendingPlan.Proofs.Related
import SpendingPlan.Table

namespace SpendingPlan.Table

variable {κ ν : Type}

theorem mem_sorted {le : κ → κ → Bool} {table : Table κ ν} {entry : κ × ν} :
    entry ∈ table.sorted le ↔ entry ∈ table.entries := List.mem_mergeSort

variable [DecidableEq κ]

theorem lookup_eq_some_iff {entries : List (κ × ν)} (nodup : (entries.map Prod.fst).Nodup) {key : κ}
    {value : ν} : entries.lookup key = some value ↔ (key, value) ∈ entries := by
  induction entries with
  | nil => simp
  | cons entry rest ih =>
    obtain ⟨other, held⟩ := entry
    rw [List.map_cons, List.nodup_cons] at nodup
    by_cases here : key = other
    · subst here
      have fresh : (key, value) ∉ rest := fun member =>
        nodup.1 (List.mem_map.mpr ⟨(key, value), member, rfl⟩)
      simp [fresh, eq_comm]
    · simp [List.lookup_cons, beq_false_of_ne here, here, ih nodup.2]

theorem get?_eq_some_iff {table : Table κ ν} {key : κ} {value : ν} :
    table.get? key = some value ↔ (key, value) ∈ table.entries :=
  lookup_eq_some_iff table.nodup

theorem get?_eq_none_iff {table : Table κ ν} {key : κ} :
    table.get? key = none ↔ key ∉ table.keys := by
  rw [mem_keys_iff, Option.not_isSome_iff_eq_none]

theorem mem_keys_insert {table : Table κ ν} {key wanted : κ} {value : ν} :
    wanted ∈ (table.insert key value).keys ↔ wanted = key ∨ wanted ∈ table.keys := by
  rw [mem_keys_iff, mem_keys_iff, get?_insert]
  by_cases same : wanted = key
  · simp [same]
  · simp [same]

theorem mem_entries_insert {table : Table κ ν} {key : κ} {value : ν} {entry : κ × ν}
    (h : entry ∈ (table.insert key value).entries) :
    entry = (key, value) ∨ entry ∈ table.entries := by
  have found := get?_eq_some_iff.mpr h
  rw [get?_insert] at found
  split at found
  · rename_i same
    cases found
    exact .inl (Prod.ext same rfl)
  · exact .inr (get?_eq_some_iff.mp found)

theorem get?_foldl_insert (values : List ν) (table : Table κ ν) (key wanted : κ) :
    (values.foldl (fun table value => table.insert key value) table).get? wanted =
      (if key = wanted then values.getLast? else none).or (table.get? wanted) := by
  induction values generalizing table with
  | nil => simp
  | cons value rest ih =>
    rw [List.foldl_cons, ih, get?_insert]
    by_cases same : key = wanted
    · simp [same, List.getLast?_cons]
    · simp [same, Ne.symm same]

theorem mem_entries_foldl_insert {values : List ν} {table : Table κ ν} {key : κ} {entry : κ × ν}
    (h : entry ∈ (values.foldl (fun table value => table.insert key value) table).entries) :
    (entry.1 = key ∧ entry.2 ∈ values) ∨ entry ∈ table.entries := by
  induction values generalizing table with
  | nil => exact .inr h
  | cons value rest ih =>
    rw [List.foldl_cons] at h
    rcases ih h with ⟨same, later⟩ | held
    · exact .inl ⟨same, List.mem_cons_of_mem _ later⟩
    · rcases mem_entries_insert held with rfl | held
      · exact .inl ⟨rfl, List.mem_cons_self⟩
      · exact .inr held

/-- The same keys, with values that are the same in the given sense, in whatever order they came. -/
def SameBy (same : ν → ν → Prop) (a b : Table κ ν) : Prop :=
  ∀ key, Option.Rel same (a.get? key) (b.get? key)

theorem SameBy.imp {same same' : ν → ν → Prop} {a b : Table κ ν} (alike : SameBy same a b)
    (imp : ∀ x y, same x y → same' x y) : SameBy same' a b := by
  intro key
  have both := alike key
  generalize a.get? key = left, b.get? key = right at both ⊢
  cases both with
  | none => exact .none
  | some related => exact .some (imp _ _ related)

theorem SameBy.mem_keys {same : ν → ν → Prop} {a b : Table κ ν} (alike : SameBy same a b)
    {key : κ} : key ∈ a.keys ↔ key ∈ b.keys := by
  have both := alike key
  rw [mem_keys_iff, mem_keys_iff]
  generalize a.get? key = left, b.get? key = right at both ⊢
  cases both <;> rfl

theorem sameBy_eq_iff {a b : Table κ ν} :
    SameBy (· = ·) a b ↔ ∀ key, a.get? key = b.get? key :=
  forall_congr' fun _ => rel_eq_iff

theorem sameBy_of_perm {a b : Table κ ν} (h : a.entries.Perm b.entries) : SameBy (· = ·) a b := by
  rw [sameBy_eq_iff]
  intro key
  apply Option.ext
  intro value
  rw [get?_eq_some_iff, get?_eq_some_iff, h.mem_iff]

theorem sameBy_of_sorted {le : κ → κ → Bool} {same : ν → ν → Prop} {a b : Table κ ν}
    (h : List.Forall₂ (fun x y => x.1 = y.1 ∧ same x.2 y.2) (a.sorted le) (b.sorted le)) :
    SameBy same a b := by
  intro key
  cases left : a.get? key with
  | none =>
    cases right : b.get? key with
    | none => exact .none
    | some value =>
      have held : (key, value) ∈ b.sorted le := mem_sorted.mpr (get?_eq_some_iff.mp right)
      obtain ⟨⟨other, _⟩, partner, same, -⟩ := exists_related h.flip held
      have found := get?_eq_some_iff.mpr (mem_sorted.mp partner)
      cases same
      rw [left] at found
      cases found
  | some value =>
    have held : (key, value) ∈ a.sorted le := mem_sorted.mpr (get?_eq_some_iff.mp left)
    obtain ⟨⟨other, value'⟩, partner, same, alike⟩ := exists_related h held
    have found := get?_eq_some_iff.mpr (mem_sorted.mp partner)
    cases same
    rw [found]
    exact .some alike

end SpendingPlan.Table

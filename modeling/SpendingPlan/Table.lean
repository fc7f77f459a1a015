namespace SpendingPlan

/-- Values under distinct keys, in the order in which the keys came in. -/
structure Table (κ ν : Type) where
  entries : List (κ × ν)
  nodup : (entries.map Prod.fst).Nodup
deriving DecidableEq

namespace Table

variable {κ ν : Type}

def empty : Table κ ν := ⟨[], by simp⟩

instance : Inhabited (Table κ ν) := ⟨empty⟩

def keys (table : Table κ ν) : List κ := table.entries.map Prod.fst

def isEmpty (table : Table κ ν) : Bool := table.entries.isEmpty

section Lookup

variable [DecidableEq κ]

def get? (table : Table κ ν) (key : κ) : Option ν := table.entries.lookup key

def modify (table : Table κ ν) (key : κ) (f : ν → ν) : Table κ ν where
  entries := table.entries.map fun entry => if entry.1 = key then (entry.1, f entry.2) else entry
  nodup := by
    have same : (table.entries.map fun entry =>
        if entry.1 = key then (entry.1, f entry.2) else entry).map Prod.fst =
        table.entries.map Prod.fst := by
      rw [List.map_map]
      apply List.map_congr_left
      intro entry _
      simp only [Function.comp_apply]
      split <;> rfl
    rw [same]
    exact table.nodup

def insert (table : Table κ ν) (key : κ) (value : ν) : Table κ ν :=
  if fresh : key ∈ table.keys then table.modify key fun _ => value
  else
    { entries := table.entries ++ [(key, value)]
      nodup := by
        rw [List.map_append, List.nodup_append]
        refine ⟨table.nodup, by simp, ?_⟩
        intro a member b new same
        simp only [List.map_cons, List.map_nil, List.mem_singleton] at new
        exact fresh (new ▸ same ▸ member) }

theorem lookup_append_fresh (entries : List (κ × ν)) (key wanted : κ) (value : ν)
    (fresh : key ∉ entries.map Prod.fst) :
    (entries ++ [(key, value)]).lookup wanted =
      if wanted = key then some value else entries.lookup wanted := by
  induction entries with
  | nil =>
    by_cases same : wanted = key
    · simp [same]
    · simp [List.lookup_cons, same, beq_false_of_ne]
  | cons entry rest ih =>
    obtain ⟨other, old⟩ := entry
    simp only [List.map_cons, List.mem_cons, not_or] at fresh
    by_cases here : wanted = other
    · subst here
      simp [Ne.symm fresh.1]
    · simp [List.lookup_cons, beq_false_of_ne here, ih fresh.2]

theorem lookup_map_value (entries : List (κ × ν)) (key wanted : κ) (f : ν → ν) :
    (entries.map fun entry => if entry.1 = key then (entry.1, f entry.2) else entry).lookup wanted =
      if wanted = key then (entries.lookup wanted).map f else entries.lookup wanted := by
  induction entries with
  | nil => simp
  | cons entry rest ih =>
    obtain ⟨other, old⟩ := entry
    by_cases here : wanted = other
    · subst here
      by_cases same : wanted = key <;> simp [same]
    · have apart := beq_false_of_ne here
      by_cases same : other = key
      · subst same
        simp [List.lookup_cons, apart, ih]
      · simp [List.lookup_cons, apart, same, ih]

theorem lookup_isSome_iff (entries : List (κ × ν)) (wanted : κ) :
    (entries.lookup wanted).isSome ↔ wanted ∈ entries.map Prod.fst := by
  induction entries with
  | nil => simp
  | cons entry rest ih =>
    obtain ⟨other, old⟩ := entry
    by_cases here : wanted = other
    · simp [here]
    · simp [List.lookup_cons, beq_false_of_ne here, here, ih]

theorem mem_keys_iff (table : Table κ ν) (key : κ) :
    key ∈ table.keys ↔ (table.get? key).isSome :=
  (lookup_isSome_iff table.entries key).symm

theorem get?_modify (table : Table κ ν) (key wanted : κ) (f : ν → ν) :
    (table.modify key f).get? wanted =
      if wanted = key then (table.get? wanted).map f else table.get? wanted :=
  lookup_map_value table.entries key wanted f

theorem get?_insert (table : Table κ ν) (key wanted : κ) (value : ν) :
    (table.insert key value).get? wanted =
      if wanted = key then some value else table.get? wanted := by
  by_cases old : key ∈ table.keys
  · simp only [insert, old, ↓reduceDIte, get?_modify]
    by_cases same : wanted = key
    · subst same
      obtain ⟨previous, held⟩ := Option.isSome_iff_exists.mp ((mem_keys_iff table wanted).mp old)
      simp [held]
    · simp [same]
  · simp only [insert, old, ↓reduceDIte]
    exact lookup_append_fresh table.entries key wanted value old

end Lookup

def sorted (le : κ → κ → Bool) (table : Table κ ν) : List (κ × ν) :=
  table.entries.mergeSort fun a b => le a.1 b.1

end Table

end SpendingPlan

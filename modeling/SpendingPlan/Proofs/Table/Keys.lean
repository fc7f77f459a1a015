import SpendingPlan.Proofs.Table.Lookup

namespace SpendingPlan.Table

variable {κ ν : Type} [DecidableEq κ]

theorem keys_modify (table : Table κ ν) (key : κ) (f : ν → ν) :
    (table.modify key f).keys = table.keys := by
  rw [keys, keys, modify, List.map_map]
  apply List.map_congr_left
  intro entry _
  rw [Function.comp_apply]
  split <;> rfl

theorem keys_insert_of_mem {table : Table κ ν} {key : κ} (present : key ∈ table.keys) (value : ν) :
    (table.insert key value).keys = table.keys := by
  rw [insert, dif_pos present, keys_modify]

theorem keys_foldl_insert_of_mem {table : Table κ ν} {key : κ} (present : key ∈ table.keys)
    (values : List ν) :
    (values.foldl (fun table value => table.insert key value) table).keys = table.keys := by
  induction values generalizing table with
  | nil => rfl
  | cons value rest ih =>
    have kept := keys_insert_of_mem present value
    rw [List.foldl_cons, ih (kept ▸ present), kept]

theorem entries_eq_of_lookup {left right : List (κ × ν)} (distinct : (left.map Prod.fst).Nodup)
    (keys : left.map Prod.fst = right.map Prod.fst)
    (values : ∀ key, left.lookup key = right.lookup key) : left = right := by
  induction left generalizing right with
  | nil => exact (List.map_eq_nil_iff.mp keys.symm).symm
  | cons entry rest ih =>
    obtain ⟨key, value⟩ := entry
    cases right with
    | nil => cases keys
    | cons entry' rest' =>
      obtain ⟨key', value'⟩ := entry'
      rw [List.map_cons, List.map_cons, List.cons.injEq] at keys
      obtain ⟨rfl, keys⟩ := keys
      rw [List.map_cons, List.nodup_cons] at distinct
      have here := values key
      rw [List.lookup_cons_self, List.lookup_cons_self, Option.some.injEq] at here
      have absent {entries : List (κ × ν)} (fresh : key ∉ entries.map Prod.fst) :
          entries.lookup key = none := by
        rwa [← Option.not_isSome_iff_eq_none, lookup_isSome_iff]
      have there (wanted : κ) : rest.lookup wanted = rest'.lookup wanted := by
        by_cases same : wanted = key
        · -- the first entry hides the key, and neither rest has it
          rw [same, absent distinct.1, absent (keys ▸ distinct.1)]
        · have both := values wanted
          rwa [List.lookup_cons, List.lookup_cons, beq_false_of_ne same] at both
      rw [here, ih distinct.2 keys there]

theorem ext_of_get? {left right : Table κ ν} (keys : left.keys = right.keys)
    (values : ∀ key, left.get? key = right.get? key) : left = right := by
  have entries : left.entries = right.entries := entries_eq_of_lookup left.nodup keys values
  cases left
  cases right
  cases entries
  rfl

theorem modify_eq_self {table : Table κ ν} {key : κ} {f : ν → ν}
    (fixed : ∀ value, table.get? key = some value → f value = value) :
    table.modify key f = table := by
  apply ext_of_get? (keys_modify table key f)
  intro wanted
  rw [get?_modify]
  split
  · rename_i here
    subst here
    cases held : table.get? wanted with
    | none => rfl
    | some value => rw [Option.map_some, fixed value held]
  · rfl

end SpendingPlan.Table

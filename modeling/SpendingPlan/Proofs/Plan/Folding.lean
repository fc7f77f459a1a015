import SpendingPlan.Plan.TaprootData
import SpendingPlan.Proofs.Outcome
import SpendingPlan.Proofs.Table.Lookup

namespace SpendingPlan

theorem DescriptorKey.origins_ne_nil (key : DescriptorKey) : key.origins ≠ [] := by
  intro none
  have paths := List.map_eq_nil_iff.mp none
  rw [fullPaths] at paths
  split at paths
  · cases paths
  · exact absurd (List.map_eq_nil_iff.mp paths) ‹_›

namespace Placeholder

def script? : Placeholder → Option Script
  | .tapScript script => some script
  | _ => none

def controlBlock? : Placeholder → Option ControlBlock
  | .tapControlBlock block => some block
  | _ => none

def signer? : Placeholder → Option DescriptorKey
  | .schnorrSigPk key _ _ => some key
  | .schnorrSigPkHash key _ _ => some key
  | _ => none

def spend? : Placeholder → Option Spend
  | .schnorrSigPk key use _ => some (use.toSpend key)
  | _ => none

def hashSpend? : Placeholder → Option Spend
  | .schnorrSigPkHash _ leafHash _ => some (.script leafHash)
  | _ => none

def SignsFor (item : Placeholder) (key : Bytes) : Prop :=
  ∃ signer, item.signer? = some signer ∧ signer.xOnly = key

theorem script?_eq_some_iff {item : Placeholder} {script : Script} :
    item.script? = some script ↔ item = .tapScript script := by
  cases item <;> simp [script?]

theorem controlBlock?_eq_some_iff {item : Placeholder} {block : ControlBlock} :
    item.controlBlock? = some block ↔ item = .tapControlBlock block := by
  cases item <;> simp [controlBlock?]

end Placeholder

namespace TaprootData

theorem mem_keys_foldl_insert {origins : List KeyOrigin} {table : Table Bytes KeyOrigin}
    {key wanted : Bytes} :
    wanted ∈ (origins.foldl (fun table origin => table.insert key origin) table).keys ↔
      (origins ≠ [] ∧ wanted = key) ∨ wanted ∈ table.keys := by
  induction origins generalizing table with
  | nil => simp
  | cons origin rest ih =>
    rw [List.foldl_cons, ih, Table.mem_keys_insert]
    simp only [ne_eq, reduceCtorEq, not_false_eq_true, true_and]
    constructor
    · rintro (⟨-, same⟩ | same | held)
      · exact .inl same
      · exact .inl same
      · exact .inr held
    · rintro (same | held)
      · exact .inr (.inl same)
      · exact .inr (.inr held)

theorem mem_keys_addKey {data : TaprootData} {signer : DescriptorKey} {key : Bytes} :
    key ∈ (data.addKey signer).origins.keys ↔ signer.xOnly = key ∨ key ∈ data.origins.keys := by
  rw [addKey, mem_keys_foldl_insert]
  simp [signer.origins_ne_nil, eq_comm]

theorem classify_done {data after : TaprootData} {key : DescriptorKey} {use : SchnorrUse}
    (h : data.classify key use = (after, none)) :
    after = { data with spend := data.spend.or (some (use.toSpend key)) } ∧
      ∀ spend, data.spend = some spend → spend.agrees use = true := by
  rw [classify] at h
  split at h
  · rename_i undecided
    cases h
    rw [undecided]
    exact ⟨rfl, fun spend held => absurd held.symm (Option.some_ne_none spend)⟩
  · rename_i spend decided
    split at h
    · rename_i agree
      cases h
      refine ⟨?_, ?_⟩
      · rw [decided, Option.some_or, ← decided]
      · intro earlier held
        cases decided.symm.trans held
        exact agree
    · cases h

theorem classify_refused {data after : TaprootData} {key : DescriptorKey} {use : SchnorrUse}
    {e : Error} (h : data.classify key use = (after, some e)) :
    after = data ∧ e = .mixedSpends ∧
      ∃ spend, data.spend = some spend ∧ spend.agrees use = false := by
  rw [classify] at h
  split at h
  · cases h
  · rename_i spend decided
    split at h
    · cases h
    · rename_i differ
      cases h
      exact ⟨rfl, rfl, spend, decided, Bool.eq_false_iff.mpr differ⟩

/-- An item is refused before any of it is written. -/
theorem add_refused {data after : TaprootData} {item : Placeholder} {e : Error}
    (h : data.add item = (after, some e)) : after = data ∧ e = .mixedSpends := by
  cases item with
  | schnorrSigPk key use size =>
    rw [add] at h
    split at h
    · cases h
    · rename_i classified
      cases h
      obtain ⟨kept, cause, -⟩ := classify_refused classified
      exact ⟨kept, cause⟩
  | _ => cases h

/-- What one item sets. A signature by key hash replaces how the template spends, and a signature by
    key decides it only when nothing did before. -/
theorem add_fields {data after : TaprootData} {item : Placeholder}
    (h : data.add item = (after, none)) :
    after.script = item.script?.or data.script ∧
      after.controlBlock = item.controlBlock?.or data.controlBlock ∧
      after.spend = item.hashSpend?.or (data.spend.or item.spend?) ∧
      after.origins = (item.signer?.elim data data.addKey).origins := by
  cases item with
  | schnorrSigPk key use size =>
    rw [add] at h
    split at h
    · rename_i classified
      cases h
      obtain ⟨rfl, -⟩ := classify_done classified
      exact ⟨rfl, rfl, rfl, rfl⟩
    · cases h
  | _ =>
    cases h
    simp [addKey, Placeholder.script?, Placeholder.controlBlock?, Placeholder.hashSpend?,
      Placeholder.spend?, Placeholder.signer?]

theorem mem_keys_add {data data' : TaprootData} {item : Placeholder} {key : Bytes}
    (h : data.add item = (data', none)) :
    key ∈ data'.origins.keys ↔ item.SignsFor key ∨ key ∈ data.origins.keys := by
  obtain ⟨-, -, -, origins⟩ := add_fields h
  rw [origins, Placeholder.SignsFor]
  cases item.signer? with
  | none => simp
  | some signer => simp [mem_keys_addKey]

theorem addAll_cons_done {data after : TaprootData} {item : Placeholder}
    {rest : List Placeholder} :
    data.addAll (item :: rest) = (after, none) ↔
      ∃ next, data.add item = (next, none) ∧ next.addAll rest = (after, none) := by
  rw [addAll]
  constructor
  · intro h
    split at h
    · rename_i next added
      exact ⟨next, added, h⟩
    · cases h
  · rintro ⟨next, added, later⟩
    rw [added]
    exact later

theorem addAll_refused {data after : TaprootData} {template : List Placeholder} {e : Error}
    (h : data.addAll template = (after, some e)) : e = .mixedSpends := by
  induction template generalizing data with
  | nil => cases h
  | cons item rest ih =>
    rw [addAll] at h
    split at h
    · exact ih h
    · rename_i refused
      cases h
      exact (add_refused refused).2

theorem ofTemplate_eq_ok_iff {template : List Placeholder} {data : TaprootData} :
    ofTemplate template = .ok data ↔ empty.addAll template = (data, none) := by
  rw [ofTemplate]
  obtain ⟨after, outcome⟩ := empty.addAll template
  cases outcome <;> simp

theorem ofTemplate_error {template : List Placeholder} {e : Error}
    (h : ofTemplate template = .error e) : e = .mixedSpends := by
  rw [ofTemplate] at h
  split at h
  · cases h
  · rename_i refused
    cases h
    exact addAll_refused refused

/-- What every item of a template keeps holds of all that the template gives. -/
theorem addAll_induction (holds : TaprootData → Prop) {template : List Placeholder}
    {data data' : TaprootData} (h : data.addAll template = (data', none)) (start : holds data)
    (keeps : ∀ item ∈ template, ∀ before after, holds before → before.add item = (after, none) →
      holds after) : holds data' := by
  induction template generalizing data with
  | nil =>
    cases h
    exact start
  | cons item rest ih =>
    obtain ⟨next, first, later⟩ := addAll_cons_done.mp h
    have held := keeps item List.mem_cons_self data next start first
    exact ih later held fun other member => keeps other (List.mem_cons_of_mem _ member)

theorem mem_keys_addAll {template : List Placeholder} {data data' : TaprootData} {key : Bytes}
    (h : data.addAll template = (data', none)) :
    key ∈ data'.origins.keys ↔
      (∃ item ∈ template, item.SignsFor key) ∨ key ∈ data.origins.keys := by
  induction template generalizing data with
  | nil =>
    cases h
    simp
  | cons item rest ih =>
    obtain ⟨next, first, later⟩ := addAll_cons_done.mp h
    rw [ih later, mem_keys_add first, List.exists_mem_cons_iff]
    constructor
    · rintro (later | here | held)
      · exact .inl (.inr later)
      · exact .inl (.inl here)
      · exact .inr held
    · rintro ((here | later) | held)
      · exact .inr (.inl here)
      · exact .inl later
      · exact .inr (.inr held)

theorem mem_keys_ofTemplate {template : List Placeholder} {data : TaprootData}
    (h : ofTemplate template = .ok data) {key : Bytes} :
    key ∈ data.origins.keys ↔ ∃ item ∈ template, item.SignsFor key := by
  have none : key ∉ empty.origins.keys := List.not_mem_nil
  rw [mem_keys_addAll (ofTemplate_eq_ok_iff.mp h)]
  simp [none]

end TaprootData

end SpendingPlan

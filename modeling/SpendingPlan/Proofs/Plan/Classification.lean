import SpendingPlan.Proofs.Plan.Folding

namespace SpendingPlan

theorem findSome?_reverse_cons {α β : Type} (f : α → Option β) (item : α) (rest : List α) :
    (item :: rest).reverse.findSome? f = (rest.reverse.findSome? f).or (f item) := by
  rw [List.reverse_cons, List.findSome?_append, List.findSome?_singleton]

theorem findSome?_cons_or {α β : Type} (f : α → Option β) (item : α) (rest : List α) :
    (item :: rest).findSome? f = (f item).or (rest.findSome? f) := by
  rw [List.findSome?_cons]
  cases f item <;> rfl

def Spend.isKey : Spend → Bool
  | .key _ => true
  | .script _ => false

theorem Spend.agrees_iff {spend : Spend} {use : SchnorrUse} (key : DescriptorKey) :
    spend.agrees use = true ↔ (use.toSpend key).isKey = spend.isKey := by
  cases spend <;> cases use <;> simp [agrees, SchnorrUse.toSpend, isKey]

namespace Placeholder

theorem spend?_eq_some_iff {item : Placeholder} {spend : Spend} :
    item.spend? = some spend ↔
      ∃ key use size, item = .schnorrSigPk key use size ∧ use.toSpend key = spend := by
  cases item <;> simp [spend?]

theorem hashSpend?_eq_some_iff {item : Placeholder} {spend : Spend} :
    item.hashSpend? = some spend ↔
      ∃ key leafHash size, item = .schnorrSigPkHash key leafHash size ∧
        .script leafHash = spend := by
  cases item <;> simp [hashSpend?]

theorem of_signer? {item : Placeholder} (plain : item.hashSpend? = none) {signer : DescriptorKey}
    (signs : item.signer? = some signer) : ∃ use size, item = .schnorrSigPk signer use size := by
  cases item with
  | schnorrSigPk key use size =>
    cases signs
    exact ⟨use, size, rfl⟩
  | schnorrSigPkHash key leafHash size => cases plain
  | _ => cases signs

variable {template : List Placeholder}

theorem last_eq_none_iff {ι β : Type} {read : Placeholder → Option β} {make : ι → Placeholder}
    (kind : ∀ item, read item ≠ none ↔ ∃ data, make data = item) :
    template.reverse.findSome? read = none ↔ ∀ data, make data ∉ template := by
  rw [List.findSome?_eq_none_iff]
  constructor
  · intro absent data listed
    exact (kind _).mpr ⟨data, rfl⟩ (absent _ (List.mem_reverse.mpr listed))
  · intro absent item listed
    by_contra given
    obtain ⟨data, rfl⟩ := (kind item).mp given
    exact absent data (List.mem_reverse.mp listed)

theorem lastScript_eq_none_iff : template.reverse.findSome? script? = none ↔
    ∀ script, .tapScript script ∉ template := by
  apply last_eq_none_iff
  intro item
  cases item <;> simp [script?]

theorem lastControlBlock_eq_none_iff : template.reverse.findSome? controlBlock? = none ↔
    ∀ block, .tapControlBlock block ∉ template := by
  apply last_eq_none_iff
  intro item
  cases item <;> simp [controlBlock?]

theorem lastHashSpend_eq_none_iff : template.reverse.findSome? hashSpend? = none ↔
    ∀ key leafHash size, .schnorrSigPkHash key leafHash size ∉ template := by
  have kind (item : Placeholder) : item.hashSpend? ≠ none ↔
      ∃ data : DescriptorKey × Bytes × Int, .schnorrSigPkHash data.1 data.2.1 data.2.2 = item := by
    cases item <;> simp [hashSpend?]
  rw [last_eq_none_iff kind]
  simp only [Prod.forall]

theorem lastHashSpend_eq_script {spend : Spend}
    (h : template.reverse.findSome? hashSpend? = some spend) :
    ∃ leafHash, spend = .script leafHash := by
  obtain ⟨item, -, gives⟩ := List.exists_of_findSome?_eq_some h
  obtain ⟨key, leafHash, size, -, same⟩ := hashSpend?_eq_some_iff.mp gives
  exact ⟨leafHash, same.symm⟩

end Placeholder

namespace TaprootData

variable {data after : TaprootData}

theorem addAll_fields {template : List Placeholder} (h : data.addAll template = (after, none)) :
    after.script = (template.reverse.findSome? Placeholder.script?).or data.script ∧
      after.controlBlock =
        (template.reverse.findSome? Placeholder.controlBlock?).or data.controlBlock ∧
      after.spend = (template.reverse.findSome? Placeholder.hashSpend?).or
        (data.spend.or (template.findSome? Placeholder.spend?)) := by
  induction template generalizing data with
  | nil =>
    cases h
    simp
  | cons item rest ih =>
    obtain ⟨next, first, later⟩ := addAll_cons_done.mp h
    obtain ⟨script, controlBlock, spend, -⟩ := add_fields first
    obtain ⟨script', controlBlock', spend'⟩ := ih later
    rw [script', controlBlock', spend', script, controlBlock, spend]
    simp only [findSome?_reverse_cons, findSome?_cons_or, Option.or_assoc, and_self]

theorem ofTemplate_fields {template : List Placeholder} (h : ofTemplate template = .ok data) :
    data.script = template.reverse.findSome? Placeholder.script? ∧
      data.controlBlock = template.reverse.findSome? Placeholder.controlBlock? ∧
      data.spend = (template.reverse.findSome? Placeholder.hashSpend?).or
        (template.findSome? Placeholder.spend?) := by
  have fields := addAll_fields (ofTemplate_eq_ok_iff.mp h)
  simpa [empty] using fields

theorem add_done_iff {item : Placeholder} (plain : item.hashSpend? = none) :
    (∃ next, data.add item = (next, none)) ↔
      ∀ spend, data.spend = some spend → ∀ other, item.spend? = some other →
        other.isKey = spend.isKey := by
  cases item with
  | schnorrSigPk key use size =>
    rw [add]
    cases classified : data.classify key use with
    | mk next outcome =>
      cases outcome with
      | none =>
        refine iff_of_true ⟨_, rfl⟩ ?_
        intro spend held other gives
        cases gives
        exact (Spend.agrees_iff key).mp ((classify_done classified).2 spend held)
      | some e =>
        refine iff_of_false (by rintro ⟨_, ⟨⟩⟩) ?_
        intro same
        obtain ⟨-, -, spend, held, differ⟩ := classify_refused classified
        have agree := (Spend.agrees_iff key).mpr (same spend held _ rfl)
        cases agree.symm.trans differ
  | schnorrSigPkHash key leafHash size => cases plain
  | _ => exact iff_of_true ⟨_, rfl⟩ (by simp [Placeholder.spend?])

theorem addAll_done_iff {template : List Placeholder}
    (plain : ∀ item ∈ template, item.hashSpend? = none) :
    (∃ after, data.addAll template = (after, none)) ↔
      ∃ byKey, (∀ spend, data.spend = some spend → spend.isKey = byKey) ∧
        ∀ item ∈ template, ∀ spend, item.spend? = some spend → spend.isKey = byKey := by
  induction template generalizing data with
  | nil =>
    refine iff_of_true ⟨data, rfl⟩ ?_
    cases data.spend with
    | none => exact ⟨true, by simp⟩
    | some spend => exact ⟨spend.isKey, by simp⟩
  | cons item rest ih =>
    rw [List.forall_mem_cons] at plain
    simp only [List.forall_mem_cons]
    constructor
    · rintro ⟨after, taken⟩
      obtain ⟨next, first, later⟩ := addAll_cons_done.mp taken
      obtain ⟨byKey, kind, kinds⟩ := (ih plain.2).mp ⟨after, later⟩
      have agree := (add_done_iff plain.1).mp ⟨next, first⟩
      obtain ⟨-, -, spend, -⟩ := add_fields first
      rw [spend, plain.1, Option.none_or] at kind
      refine ⟨byKey, fun earlier held => kind earlier (by rw [held, Option.some_or]), ?_, kinds⟩
      intro other gives
      cases held : data.spend with
      | none => exact kind other (by rw [held, gives, Option.none_or])
      | some earlier =>
        exact (agree earlier held other gives).trans (kind earlier (by rw [held, Option.some_or]))
    · rintro ⟨byKey, earlier, here, kinds⟩
      obtain ⟨next, first⟩ := (add_done_iff plain.1).mpr fun spend held other gives =>
        (here other gives).trans (earlier spend held).symm
      obtain ⟨-, -, spend, -⟩ := add_fields first
      have kind : ∀ given, next.spend = some given → given.isKey = byKey := by
        intro given decided
        rw [spend, plain.1, Option.none_or, Option.or_eq_some_iff] at decided
        rcases decided with held | ⟨-, gives⟩
        · exact earlier given held
        · exact here given gives
      obtain ⟨after, later⟩ := (ih plain.2).mpr ⟨byKey, kind, kinds⟩
      exact ⟨after, addAll_cons_done.mpr ⟨next, first, later⟩⟩

theorem ofTemplate_ok_iff {template : List Placeholder}
    (plain : ∀ item ∈ template, item.hashSpend? = none) :
    (∃ data, ofTemplate template = .ok data) ↔
      ∃ byKey, ∀ item ∈ template, ∀ spend, item.spend? = some spend → spend.isKey = byKey := by
  simp only [ofTemplate_eq_ok_iff]
  rw [addAll_done_iff plain]
  simp [empty]

end TaprootData

end SpendingPlan

import SpendingPlan.Proofs.Plan.Additive
import SpendingPlan.Proofs.Plan.Recording

namespace SpendingPlan

/-- A template is refused for signatures by key that spend in two ways before any signature by key
    hash, or for one that spends by key after a signature by key hash. A signature by key hash after
    those that spend by key is no reason. -/
inductive Mixed : List Placeholder → Prop
  | before {front rest : List Placeholder} {key key' : DescriptorKey} {root : Option Bytes}
      {leafHash : Bytes} {size size' : Int} (plain : ∀ item ∈ front, item.hashSpend? = none)
      (byKey : .schnorrSigPk key (.keySpend root) size ∈ front)
      (byScript : .schnorrSigPk key' (.scriptSpend leafHash) size' ∈ front) : Mixed (front ++ rest)
  | after {front rest : List Placeholder} {key key' : DescriptorKey} {root : Option Bytes}
      {leafHash : Bytes} {size size' : Int}
      (byKey : .schnorrSigPk key' (.keySpend root) size' ∈ rest) :
      Mixed (front ++ .schnorrSigPkHash key leafHash size :: rest)

namespace TaprootData

variable {data : TaprootData} {template : List Placeholder}

theorem addAll_append_done {after : TaprootData} {front rest : List Placeholder} :
    data.addAll (front ++ rest) = (after, none) ↔
      ∃ middle, data.addAll front = (middle, none) ∧ middle.addAll rest = (after, none) := by
  induction front generalizing data with
  | nil =>
    constructor
    · intro taken
      exact ⟨data, rfl, taken⟩
    · rintro ⟨middle, none, taken⟩
      cases none
      exact taken
  | cons item front ih =>
    rw [List.cons_append, addAll_cons_done]
    constructor
    · rintro ⟨next, first, taken⟩
      obtain ⟨middle, before, later⟩ := ih.mp taken
      exact ⟨middle, addAll_cons_done.mpr ⟨next, first, before⟩, later⟩
    · rintro ⟨middle, taken, later⟩
      obtain ⟨next, first, before⟩ := addAll_cons_done.mp taken
      exact ⟨next, first, ih.mpr ⟨middle, before, later⟩⟩

theorem add_done_iff_of_script {item : Placeholder} {leafHash : Bytes}
    (spent : data.spend = some (.script leafHash)) :
    (∃ next, data.add item = (next, none)) ↔
      ∀ key root size, item ≠ .schnorrSigPk key (.keySpend root) size := by
  cases item with
  | schnorrSigPk key use size =>
    cases use <;> simp [add, classify, spent, Spend.agrees]
  | _ => simp [add]

theorem spend_add_of_script {item : Placeholder} {next : TaprootData} {leafHash : Bytes}
    (spent : data.spend = some (.script leafHash)) (taken : data.add item = (next, none)) :
    ∃ leafHash', next.spend = some (.script leafHash') := by
  obtain ⟨-, -, spend, -⟩ := add_fields taken
  rw [spend, spent]
  cases hash : item.hashSpend? with
  | none => exact ⟨leafHash, rfl⟩
  | some other =>
    obtain ⟨key, leafHash', size, -, rfl⟩ := Placeholder.hashSpend?_eq_some_iff.mp hash
    exact ⟨leafHash', rfl⟩

theorem addAll_done_iff_of_script {leafHash : Bytes}
    (spent : data.spend = some (.script leafHash)) :
    (∃ after, data.addAll template = (after, none)) ↔
      ∀ key root size, .schnorrSigPk key (.keySpend root) size ∉ template := by
  induction template generalizing data leafHash with
  | nil => exact iff_of_true ⟨data, rfl⟩ (by simp)
  | cons item rest ih =>
    simp only [List.mem_cons, not_or]
    constructor
    · rintro ⟨after, taken⟩ key root size
      obtain ⟨next, first, later⟩ := addAll_cons_done.mp taken
      obtain ⟨leafHash', spent'⟩ := spend_add_of_script spent first
      have here := (add_done_iff_of_script spent).mp ⟨next, first⟩ key root size
      exact ⟨here.symm, (ih spent').mp ⟨after, later⟩ key root size⟩
    · intro none
      obtain ⟨next, first⟩ := (add_done_iff_of_script spent).mpr fun key root size =>
        Ne.symm (none key root size).1
      obtain ⟨leafHash', spent'⟩ := spend_add_of_script spent first
      obtain ⟨after, later⟩ := (ih spent').mpr fun key root size => (none key root size).2
      exact ⟨after, addAll_cons_done.mpr ⟨next, first, later⟩⟩

theorem ofTemplate_ok_of_plain (plain : ∀ item ∈ template, item.hashSpend? = none)
    (unmixed : ∀ key root size, .schnorrSigPk key (.keySpend root) size ∈ template →
      ∀ key' leafHash size', .schnorrSigPk key' (.scriptSpend leafHash) size' ∉ template) :
    ∃ after, ofTemplate template = .ok after := by
  apply (ofTemplate_ok_iff plain).mpr
  by_cases byKey : ∃ key root size, .schnorrSigPk key (.keySpend root) size ∈ template
  · obtain ⟨key, root, size, listed⟩ := byKey
    refine ⟨true, ?_⟩
    intro item member spend gives
    obtain ⟨key', use, size', rfl, rfl⟩ := Placeholder.spend?_eq_some_iff.mp gives
    cases use with
    | keySpend root' => rfl
    | scriptSpend leafHash => exact absurd member (unmixed key root size listed key' leafHash size')
  · refine ⟨false, ?_⟩
    intro item member spend gives
    obtain ⟨key', use, size', rfl, rfl⟩ := Placeholder.spend?_eq_some_iff.mp gives
    cases use with
    | keySpend root => exact absurd ⟨key', root, size', member⟩ byKey
    | scriptSpend leafHash => rfl

theorem not_mixed_of_ok {after : TaprootData} (taken : ofTemplate template = .ok after) :
    ¬ Mixed template := by
  rintro (@⟨front, rest, key, key', root, leafHash, size, size', plain, byKey, byScript⟩ |
    @⟨front, rest, key, key', root, leafHash, size, size', byKey⟩)
  · rw [ofTemplate_eq_ok_iff, addAll_append_done] at taken
    obtain ⟨middle, first, -⟩ := taken
    obtain ⟨kind, -, same⟩ := (addAll_done_iff plain).mp ⟨middle, first⟩
    have left := same _ byKey _ rfl
    have right := same _ byScript _ rfl
    cases left.trans right.symm
  · rw [ofTemplate_eq_ok_iff, addAll_append_done] at taken
    obtain ⟨middle, -, later⟩ := taken
    obtain ⟨next, hash, later⟩ := addAll_cons_done.mp later
    obtain ⟨-, -, spend, -⟩ := add_fields hash
    exact (addAll_done_iff_of_script spend).mp ⟨after, later⟩ key' root size' byKey

theorem ok_of_not_mixed (unmixed : ¬ Mixed template) :
    ∃ after, ofTemplate template = .ok after := by
  have front_ok {front rest : List Placeholder} (split : template = front ++ rest)
      (plain : ∀ item ∈ front, item.hashSpend? = none) :
      ∃ middle, ofTemplate front = .ok middle := by
    apply ofTemplate_ok_of_plain plain
    intro key root size byKey key' leafHash size' byScript
    exact unmixed (split ▸ .before plain byKey byScript)
  -- up to the first signature by key hash the kinds agree, and after it none spends by key
  cases hash : template.findSome? Placeholder.hashSpend? with
  | none => exact front_ok (List.append_nil template).symm (List.findSome?_eq_none_iff.mp hash)
  | some spend =>
    obtain ⟨front, item, rest, split, gives, plain⟩ := List.findSome?_eq_some_iff.mp hash
    obtain ⟨key, leafHash, size, rfl, rfl⟩ := Placeholder.hashSpend?_eq_some_iff.mp gives
    obtain ⟨middle, first⟩ := front_ok split plain
    have spent : ((middle.add (.schnorrSigPkHash key leafHash size)).1).spend =
        some (.script leafHash) := rfl
    obtain ⟨after, later⟩ := (addAll_done_iff_of_script spent).mpr fun key' root size' byKey =>
      unmixed (split ▸ .after byKey)
    refine ⟨after, ?_⟩
    rw [ofTemplate_eq_ok_iff, split, addAll_append_done]
    exact ⟨middle, ofTemplate_eq_ok_iff.mp first, addAll_cons_done.mpr ⟨_, rfl, later⟩⟩

theorem ofTemplate_error_iff : ofTemplate template = .error .mixedSpends ↔ Mixed template := by
  constructor
  · intro refused
    by_contra unmixed
    obtain ⟨after, taken⟩ := ok_of_not_mixed unmixed
    cases refused.symm.trans taken
  · intro mixed
    cases outcome : ofTemplate template with
    | ok after => exact absurd mixed (not_mixed_of_ok outcome)
    | error e => rw [ofTemplate_error outcome]

/-- What a template tells. The last signature by key hash decides how it spends, or the first one by
    key when there is none. Its keys are those that sign, each with the last way to the last signer
    that has it. -/
structure Told (template : List Placeholder) (data : TaprootData) : Prop where
  script : data.script = template.reverse.findSome? Placeholder.script?
  controlBlock : data.controlBlock = template.reverse.findSome? Placeholder.controlBlock?
  spend : data.spend = (template.reverse.findSome? Placeholder.hashSpend?).or
    (template.findSome? Placeholder.spend?)
  signers : ∀ key, key ∈ data.origins.keys ↔ ∃ item ∈ template, item.SignsFor key
  last : ∀ front item rest signer, template = front ++ item :: rest → item.signer? = some signer →
    (∀ later ∈ rest, ¬ later.SignsFor signer.xOnly) →
    ∃ path, signer.fullPaths.getLast? = some path ∧
      data.origins.get? signer.xOnly = some ⟨signer.masterFingerprint, path⟩

theorem told_of_ok (taken : ofTemplate template = .ok data) : Told template data := by
  obtain ⟨script, controlBlock, spend⟩ := ofTemplate_fields taken
  refine ⟨script, controlBlock, spend, fun key => mem_keys_ofTemplate taken, ?_⟩
  intro front item rest signer split signs last
  have recorded : data.origins.get? signer.xOnly = signer.origins.getLast? := by
    rw [origins_ofTemplate taken, split, Placeholder.lastRecorded_of_last signs]
    intro later member other signs' same
    exact last later member ⟨other, signs', same⟩
  obtain ⟨path, way, origin⟩ := signer.exists_lastOrigin
  exact ⟨path, way, recorded.trans origin⟩

/-- The data after all items, when the next item has its turn after an error. -/
def settled (data : TaprootData) (template : List Placeholder) : TaprootData :=
  ((steps data template).getLast?.map Prod.fst).getD data

def accepted (data : TaprootData) (template : List Placeholder) : List Placeholder :=
  ((template.zip (steps data template)).filter fun step => step.2.2.isNone).map Prod.fst

section Steps

variable {next : TaprootData} {item : Placeholder} {e : Error}

theorem settled_cons (data : TaprootData) (item : Placeholder) (rest : List Placeholder) :
    data.settled (item :: rest) = (data.add item).1.settled rest := by
  rw [settled, steps, List.getLast?_cons, settled]
  cases (steps (data.add item).1 rest).getLast? <;> rfl

theorem accepted_cons_done (added : data.add item = (next, none)) (rest : List Placeholder) :
    data.accepted (item :: rest) = item :: next.accepted rest := by
  rw [accepted, steps, added]
  rfl

theorem accepted_cons_refused (refused : data.add item = (next, some e))
    (rest : List Placeholder) : data.accepted (item :: rest) = next.accepted rest := by
  rw [accepted, steps, refused]
  rfl

end Steps

theorem addAll_accepted (data : TaprootData) (template : List Placeholder) :
    data.addAll (data.accepted template) = (data.settled template, none) := by
  induction template generalizing data with
  | nil => rfl
  | cons item rest ih =>
    rw [settled_cons]
    cases added : data.add item with
    | mk next outcome =>
      cases outcome with
      | none =>
        rw [accepted_cons_done added]
        exact addAll_cons_done.mpr ⟨next, added, ih next⟩
      | some e =>
        -- the items after a refused one meet the data that it was refused with
        obtain ⟨rfl, -⟩ := add_refused added
        rw [accepted_cons_refused added]
        exact ih next

/-- When a template is refused and what it tells otherwise. A refused item leaves the data as they
    were, so that to go on after errors is to take in the template without the refused items. -/
theorem ofTemplate_closed (template : List Placeholder) :
    (ofTemplate template = .error .mixedSpends ↔ Mixed template) ∧
    (¬ Mixed template → ∃ data, ofTemplate template = .ok data ∧ Told template data) ∧
    (∀ (data after : TaprootData) (item : Placeholder) (e : Error),
      data.add item = (after, some e) → after = data) ∧
    ofTemplate (empty.accepted template) = .ok (empty.settled template) := by
  refine ⟨ofTemplate_error_iff, ?_, ?_, ?_⟩
  · intro unmixed
    obtain ⟨data, taken⟩ := ok_of_not_mixed unmixed
    exact ⟨data, taken, told_of_ok taken⟩
  · intro data after item e refused
    exact (add_refused refused).1
  · exact ofTemplate_eq_ok_iff.mpr (addAll_accepted empty template)

def overridden : List Placeholder :=
  [.schnorrSigPk Input.signer (.keySpend none) 64,
    .schnorrSigPkHash Input.signer (List.replicate 32 9) 64]

theorem ofTemplate_closed_overridden :
    (∃ data, ofTemplate overridden = .ok data ∧
      data.spend = some (.script (List.replicate 32 9)) ∧
      data.origins.get? Input.signer.xOnly = some ⟨Input.signer.masterFingerprint, [86]⟩) ∧
    ofTemplate overridden.reverse = .error .mixedSpends ∧
    (∃ data, empty.steps overridden.reverse = [(data, none), (data, some .mixedSpends)]) ∧
    ofTemplate [.schnorrSigPkHash Input.signer (List.replicate 32 9) 64] =
      .ok (empty.settled overridden.reverse) := by
  obtain ⟨refused, told, -, -⟩ := ofTemplate_closed overridden
  obtain ⟨refused', -, kept, passed⟩ := ofTemplate_closed overridden.reverse
  have unmixed : ¬ Mixed overridden := by
    intro mixed
    cases refused.mpr mixed
  have mixed : Mixed overridden.reverse := @Mixed.after [] _ _ _ _ _ _ _ List.mem_cons_self
  obtain ⟨data, taken, closed⟩ := told unmixed
  obtain ⟨path, way, bound⟩ := closed.last [_] _ [] Input.signer rfl rfl (by simp)
  cases way
  let byHash := (empty.add (.schnorrSigPkHash Input.signer (List.replicate 32 9) 64)).1
  let late : Placeholder := .schnorrSigPk Input.signer (.keySpend none) 64
  have second : byHash.add late = ((byHash.add late).1, some .mixedSpends) := rfl
  rw [kept byHash _ late .mixedSpends second] at second
  have steps : empty.steps overridden.reverse = [(byHash, none), byHash.add late] := rfl
  rw [second] at steps
  exact ⟨⟨data, taken, closed.spend, bound⟩, refused'.mpr mixed, ⟨byHash, steps⟩, passed⟩

end TaprootData

end SpendingPlan

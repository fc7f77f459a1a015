import SpendingPlan.Proofs.Plan.Classification

namespace SpendingPlan

namespace Placeholder

def key? : Placeholder → Option DescriptorKey
  | .pubKey key _ => some key
  | .pubKeyHash key _ => some key
  | .ecdsaSigPk key => some key
  | .schnorrSigPk key _ _ => some key
  | .schnorrSigPkHash key _ _ => some key
  | _ => none

def leafHash? : Placeholder → Option Bytes
  | .schnorrSigPk _ (.scriptSpend hash) _ => some hash
  | .schnorrSigPkHash _ hash _ => some hash
  | _ => none

theorem key?_of_signer? {item : Placeholder} {key : DescriptorKey}
    (h : item.signer? = some key) : item.key? = some key := by
  cases item with
  | schnorrSigPk signer use size => exact h
  | schnorrSigPkHash signer leafHash size => exact h
  | _ => cases h

theorem key?_of_spend? {item : Placeholder} {bytes : Bytes} (h : item.spend? = some (.key bytes)) :
    ∃ key, item.key? = some key ∧ bytes = key.xOnly := by
  obtain ⟨key, use, size, rfl, same⟩ := spend?_eq_some_iff.mp h
  cases use with
  | keySpend root =>
    cases same
    exact ⟨key, rfl, rfl⟩
  | scriptSpend hash => cases same

theorem hashSpend?_ne_key {item : Placeholder} {bytes : Bytes} :
    item.hashSpend? ≠ some (.key bytes) := by
  cases item <;> simp [hashSpend?]

theorem leafHash?_of_spend? {item : Placeholder} {hash : Bytes}
    (h : item.hashSpend? = some (.script hash) ∨ item.spend? = some (.script hash)) :
    item.leafHash? = some hash := by
  rcases h with byHash | byKey
  · obtain ⟨key, leafHash, size, rfl, same⟩ := hashSpend?_eq_some_iff.mp byHash
    cases same
    rfl
  · obtain ⟨key, use, size, rfl, same⟩ := spend?_eq_some_iff.mp byKey
    cases use with
    | keySpend root => cases same
    | scriptSpend leafHash =>
      cases same
      rfl

end Placeholder

namespace TaprootData

/-- All that the data tell was named by an item of a template. -/
structure NamedIn (template : List Placeholder) (data : TaprootData) : Prop where
  script : ∀ script, data.script = some script → .tapScript script ∈ template
  controlBlock : ∀ block, data.controlBlock = some block → .tapControlBlock block ∈ template
  internalKey : ∀ bytes, data.spend = some (.key bytes) →
    ∃ item ∈ template, ∃ key, item.key? = some key ∧ bytes = key.xOnly
  leafHash : ∀ hash, data.spend = some (.script hash) →
    ∃ item ∈ template, item.leafHash? = some hash
  origins : ∀ entry ∈ data.origins.entries,
    ∃ item ∈ template, ∃ key, item.key? = some key ∧ entry.1 = key.xOnly ∧ entry.2 ∈ key.origins

theorem NamedIn.add {template : List Placeholder} {data after : TaprootData}
    (named : data.NamedIn template) {item : Placeholder} (member : item ∈ template)
    (h : data.add item = (after, none)) : after.NamedIn template := by
  obtain ⟨script, controlBlock, spend, origins⟩ := add_fields h
  constructor
  case script =>
    intro leaf given
    rw [script, Option.or_eq_some_iff] at given
    rcases given with here | ⟨-, held⟩
    · rw [← Placeholder.script?_eq_some_iff.mp here]
      exact member
    · exact named.script leaf held
  case controlBlock =>
    intro block given
    rw [controlBlock, Option.or_eq_some_iff] at given
    rcases given with here | ⟨-, held⟩
    · rw [← Placeholder.controlBlock?_eq_some_iff.mp here]
      exact member
    · exact named.controlBlock block held
  case internalKey =>
    intro bytes given
    rw [spend, Option.or_eq_some_iff, Option.or_eq_some_iff] at given
    rcases given with here | ⟨-, held | ⟨-, here⟩⟩
    · exact absurd here Placeholder.hashSpend?_ne_key
    · exact named.internalKey bytes held
    · exact ⟨item, member, Placeholder.key?_of_spend? here⟩
  case leafHash =>
    intro hash given
    rw [spend, Option.or_eq_some_iff, Option.or_eq_some_iff] at given
    rcases given with here | ⟨-, held | ⟨-, here⟩⟩
    · exact ⟨item, member, Placeholder.leafHash?_of_spend? (.inl here)⟩
    · exact named.leafHash hash held
    · exact ⟨item, member, Placeholder.leafHash?_of_spend? (.inr here)⟩
  case origins =>
    intro entry held
    rw [origins] at held
    cases signs : item.signer? with
    | none =>
      rw [signs] at held
      exact named.origins entry held
    | some key =>
      rw [signs] at held
      rcases Table.mem_entries_foldl_insert held with ⟨same, origin⟩ | earlier
      · exact ⟨item, member, key, Placeholder.key?_of_signer? signs, same, origin⟩
      · exact named.origins entry earlier

theorem namedIn_ofTemplate {template : List Placeholder} {data : TaprootData}
    (h : ofTemplate template = .ok data) : data.NamedIn template := by
  have start : empty.NamedIn template := by
    constructor <;> intro _ none <;> cases none
  apply addAll_induction (NamedIn template) (ofTemplate_eq_ok_iff.mp h) start
  intro item member before after named added
  exact named.add member added

end TaprootData

end SpendingPlan

import SpendingPlan.Proofs.Plan.Classification
import SpendingPlan.Proofs.Plan.Refusal

namespace SpendingPlan

theorem LeafScripts.entries_insert_ne_nil {scripts after : LeafScripts} {block : ControlBlock}
    {script : Script} {version : Int} (h : scripts.insert block script version = .ok after) :
    after.table.entries ≠ [] := by
  unfold insert at h
  split at h
  · cases h
  · split at h
    · rename_i key _ old
      cases h
      intro nothing
      rw [Table.keys, List.map_eq_nil_iff.mp nothing] at old
      cases old
    · rename_i key _ fresh
      cases h
      have held : key ∈ (scripts.table.insert key ⟨block, script, version⟩).keys :=
        Table.mem_keys_insert.mpr (.inl rfl)
      intro nothing
      rw [Table.keys, nothing] at held
      cases held

namespace Input

variable {key : DescriptorKey} {tree : Tree TreeLeaf} {template : List Placeholder}

theorem putLeafScript_done {input : Input} {block : ControlBlock} {script : Script} {version : Int}
    (done : (input.putLeafScript block script version).2 = none) :
    ∃ tapScripts, input.tapScripts.insert block script version = .ok tapScripts ∧
      (input.putLeafScript block script version).1 = { input with tapScripts } := by
  unfold putLeafScript at done ⊢
  cases put : input.tapScripts.insert block script version with
  | error e =>
    rw [put] at done
    cases done
  | ok tapScripts => exact ⟨tapScripts, rfl, rfl⟩

theorem updateTaproot_done {input : Input}
    (done : (input.updateTaproot key tree template).2 = none) :
    ∃ data info, TaprootData.ofTemplate template = .ok data ∧
      Descriptor.spendInfo key tree = .ok info ∧
      (input.updateTaproot key tree template).1.tapInternalKey =
        (input.mergeTaproot data info).tapInternalKey ∧
      ((∃ script block, data.script = some script ∧ data.controlBlock = some block ∧
          input.tapScripts.insert block script Taproot.scriptLeafVersion =
            .ok (input.updateTaproot key tree template).1.tapScripts) ∨
        (data.script = none ∨ data.controlBlock = none) ∧
          (input.updateTaproot key tree template).1.tapScripts = input.tapScripts) := by
  rcases updateTaproot_cases input key tree template with ⟨e, same⟩ | merged
  · rw [same] at done
    cases done
  · obtain ⟨data, info, folded, spent, outcome⟩ := merged
    refine ⟨data, info, folded, spent, ?_⟩
    rcases outcome with ⟨absent, same⟩ | ⟨script, block, leaf, given, same⟩
    · rw [same]
      exact ⟨rfl, .inr ⟨absent, rfl⟩⟩
    · rw [same] at done ⊢
      obtain ⟨scripts, put, written⟩ := putLeafScript_done done
      rw [written]
      exact ⟨rfl, .inl ⟨script, block, leaf, given, put⟩⟩

theorem tapInternalKey_done (done : (empty.updateTaproot key tree template).2 = none) :
    (empty.updateTaproot key tree template).1.tapInternalKey ≠ none ↔
      (∀ key leafHash size, .schnorrSigPkHash key leafHash size ∉ template) ∧
        ∃ bytes, template.findSome? Placeholder.spend? = some (.key bytes) := by
  obtain ⟨data, info, folded, -, written, -⟩ := updateTaproot_done done
  obtain ⟨-, -, spend⟩ := TaprootData.ofTemplate_fields folded
  rw [written, mergeTaproot, ← Placeholder.lastHashSpend_eq_none_iff]
  dsimp only
  rw [spend]
  cases last : template.reverse.findSome? Placeholder.hashSpend? with
  | some replaced =>
    obtain ⟨leafHash, rfl⟩ := Placeholder.lastHashSpend_eq_script last
    simp [empty]
  | none =>
    rw [Option.none_or]
    cases template.findSome? Placeholder.spend? with
    | none => simp [empty]
    | some first => cases first <;> simp [empty]

theorem tapScripts_done (done : (empty.updateTaproot key tree template).2 = none) :
    (empty.updateTaproot key tree template).1.tapScripts.table.entries ≠ [] ↔
      (∃ script, .tapScript script ∈ template) ∧ ∃ block, .tapControlBlock block ∈ template := by
  obtain ⟨data, info, folded, -, -, written⟩ := updateTaproot_done done
  obtain ⟨script, controlBlock, -⟩ := TaprootData.ofTemplate_fields folded
  have noScript : data.script = none → ∀ script, .tapScript script ∉ template := by
    rw [script]
    exact Placeholder.lastScript_eq_none_iff.mp
  have noBlock : data.controlBlock = none → ∀ block, .tapControlBlock block ∉ template := by
    rw [controlBlock]
    exact Placeholder.lastControlBlock_eq_none_iff.mp
  rcases written with ⟨leaf, block, shown, given, put⟩ | ⟨absent, kept⟩
  · have named := TaprootData.namedIn_ofTemplate folded
    have listed := LeafScripts.entries_insert_ne_nil put
    exact iff_of_true listed
      ⟨⟨leaf, named.script leaf shown⟩, block, named.controlBlock block given⟩
  · rw [kept]
    refine iff_of_false (fun held => held rfl) ?_
    rintro ⟨⟨leaf, shown⟩, block, given⟩
    rcases absent with absent | absent
    · exact noScript absent leaf shown
    · exact noBlock absent block given

/-- Of a fresh input that is updated with success, an internal key and a leaf script are both put in
    exactly when a template that spends by key shows a leaf as well: the kinds of signatures are
    kept apart, but scripts and control blocks go in with either kind. -/
theorem update_both_iff {plan : Plan} (target : plan.target = .descriptor (.tr key tree))
    (done : (empty.update plan).2 = none) :
    ((empty.update plan).1.tapInternalKey ≠ none ∧
        (empty.update plan).1.tapScripts.table.entries ≠ []) ↔
      ((∀ key leafHash size, .schnorrSigPkHash key leafHash size ∉ plan.template) ∧
        ∃ bytes, plan.template.findSome? Placeholder.spend? = some (.key bytes)) ∧
      (∃ script, .tapScript script ∈ plan.template) ∧
        ∃ block, .tapControlBlock block ∈ plan.template := by
  have taproot : empty.update plan = empty.updateTaproot key tree plan.template := by
    rw [update, target]
  rw [taproot] at done ⊢
  exact and_congr (tapInternalKey_done done) (tapScripts_done done)

def fittingBlock : ControlBlock := { wideBlock with version := Taproot.scriptLeafVersion }

def leafBesides (use : SchnorrUse) : Plan where
  target := .descriptor (.tr signer (SpendInfo.wrappedPair.map .script))
  template :=
    [.tapScript ⟨[.word "OP_1"]⟩, .tapControlBlock fittingBlock, .schnorrSigPk signer use 64]
  absoluteLock := none
  relativeLock := none

theorem update_leafBesides (use : SchnorrUse) : (empty.update (leafBesides use)).2 = none := by
  obtain ⟨info, made⟩ := SpendInfo.make_wrappedPair
  have spent := (spendInfo_wrappedPair signer).trans made
  change (empty.updateTaproot signer (SpendInfo.wrappedPair.map .script) _).2 = none
  unfold updateTaproot
  rw [spent]
  rfl

theorem update_leafBesides_keySpend :
    (∃ key tree, (leafBesides (.keySpend none)).target = .descriptor (.tr key tree)) ∧
      (empty.update (leafBesides (.keySpend none))).2 = none ∧
      (empty.update (leafBesides (.keySpend none))).1.tapInternalKey ≠ none ∧
      (empty.update (leafBesides (.keySpend none))).1.tapScripts.table.entries ≠ [] := by
  have done := update_leafBesides (.keySpend none)
  have key := (tapInternalKey_done done).mpr ⟨by simp [leafBesides], _, rfl⟩
  have scripts := (tapScripts_done done).mpr (by simp [leafBesides])
  exact ⟨⟨_, _, rfl⟩, done, key, scripts⟩

theorem update_both_iff_leafBesides :
    (empty.update (leafBesides (.scriptSpend [9]))).2 = none ∧
      ¬ ((empty.update (leafBesides (.scriptSpend [9]))).1.tapInternalKey ≠ none ∧
        (empty.update (leafBesides (.scriptSpend [9]))).1.tapScripts.table.entries ≠ []) := by
  have done := update_leafBesides (.scriptSpend [9])
  refine ⟨done, ?_⟩
  rw [update_both_iff rfl done]
  rintro ⟨⟨-, bytes, first⟩, -⟩
  cases first

end Input

end SpendingPlan

import SpendingPlan.Proofs.Plan.Additive
import SpendingPlan.Proofs.Plan.Recording

namespace SpendingPlan.Input

theorem writeScripts_keyOrigins (input : Input) (keyOrigins : Table Bytes KeyOrigin)
    (target : Fragment) :
    { input with keyOrigins }.writeScripts target =
      ({ (input.writeScripts target).1 with keyOrigins }, (input.writeScripts target).2) := by
  cases target with
  | inner script => rfl
  | descriptor descriptor =>
    cases descriptor with
    | sh inner =>
      cases inner with
      | wsh inner =>
        rw [writeScripts, writeScripts]
        cases inner.script.payToWitnessScriptHash <;> rfl
      | _ => rfl
    | _ => rfl

theorem writeScripts_congr {alike : Script → Script → Prop} (refl : ∀ script, alike script script)
    {a b : Input} (witness : Option.Rel alike a.witnessScript b.witnessScript)
    (redeem : Option.Rel alike a.redeemScript b.redeemScript) (target : Fragment) :
    (a.writeScripts target).2 = (b.writeScripts target).2 ∧
      Option.Rel alike (a.writeScripts target).1.witnessScript
        (b.writeScripts target).1.witnessScript ∧
      Option.Rel alike (a.writeScripts target).1.redeemScript
        (b.writeScripts target).1.redeemScript := by
  have written (script : Script) : Option.Rel alike (some script) (some script) :=
    .some (refl script)
  cases target with
  | inner script => exact ⟨rfl, witness, redeem⟩
  | descriptor descriptor =>
    cases descriptor with
    | bare inner => exact ⟨rfl, witness, redeem⟩
    | pkh key => exact ⟨rfl, witness, redeem⟩
    | wpkh key => exact ⟨rfl, witness, redeem⟩
    | wsh inner => exact ⟨rfl, written _, redeem⟩
    | sh inner =>
      cases inner with
      | wsh inner =>
        rw [writeScripts, writeScripts]
        cases inner.script.payToWitnessScriptHash with
        | ok script => exact ⟨rfl, written _, written _⟩
        | error e => exact ⟨rfl, written _, redeem⟩
      | wpkh key => exact ⟨rfl, witness, written _⟩
      | script inner => exact ⟨rfl, witness, written _⟩
    | tr key tree => exact ⟨rfl, witness, redeem⟩

theorem update_segwit {plan : Plan}
    (segwit : ∀ key tree, plan.target ≠ .descriptor (.tr key tree)) (input : Input) :
    input.update plan =
      ({ (input.writeScripts plan.target).1 with
          keyOrigins := (plan.template.foldl addSigner input).keyOrigins },
        (input.writeScripts plan.target).2) := by
  obtain ⟨keyOrigins, signed⟩ := foldl_addSigner_eq plan.template input
  rw [update_of_segwit segwit, updateSegwit, signed, writeScripts_keyOrigins]

theorem updateTaproot_fields (input : Input) (key : DescriptorKey) (tree : Tree TreeLeaf)
    (template : List Placeholder) :
    ∃ tapMerkleRoot tapInternalKey tapKeyOrigins tapScripts,
      (input.updateTaproot key tree template).1 =
        { input with tapMerkleRoot, tapInternalKey, tapKeyOrigins, tapScripts } := by
  rcases updateTaproot_cases input key tree template with ⟨e, same⟩ | merged
  · rw [same]
    exact ⟨_, _, _, _, rfl⟩
  · obtain ⟨data, info, -, -, ⟨-, same⟩ | ⟨script, block, -, -, same⟩⟩ := merged
    · rw [same]
      exact ⟨_, _, _, _, rfl⟩
    · obtain ⟨tapScripts, put⟩ :=
        putLeafScript_fields (input.mergeTaproot data info) block script Taproot.scriptLeafVersion
      rw [same, put]
      exact ⟨_, _, _, _, rfl⟩

theorem keyOrigins_of_unsigned {template : List Placeholder} {key : Bytes}
    (unsigned : ∀ signer, .ecdsaSigPk signer ∈ template → signer.key.compressed ≠ key)
    (input : Input) :
    (template.foldl addSigner input).keyOrigins.get? key = input.keyOrigins.get? key := by
  rw [keyOrigins_foldl_addSigner, Placeholder.lastRecorded_of_unsigned, Option.none_or]
  intro item member signer signs
  rw [Placeholder.ecdsaSigner?_eq_some_iff] at signs
  exact unsigned signer (signs ▸ member)

theorem keyOrigins_of_last {before after : List Placeholder} {signer : DescriptorKey}
    (last : ∀ other, .ecdsaSigPk other ∈ after → other.key.compressed ≠ signer.key.compressed)
    (input : Input) :
    ((before ++ .ecdsaSigPk signer :: after).foldl addSigner input).keyOrigins.get?
        signer.key.compressed =
      signer.origins.getLast? := by
  have later : ∀ item ∈ after, ∀ other, item.ecdsaSigner? = some other →
      other.key.compressed ≠ signer.key.compressed := by
    intro item member other signs
    rw [Placeholder.ecdsaSigner?_eq_some_iff] at signs
    exact last other (signs ▸ member)
  have present := List.getLast?_isSome.mpr signer.origins_ne_nil
  rw [keyOrigins_foldl_addSigner,
    @Placeholder.lastRecorded_of_last _ (·.key.compressed) before after _ signer rfl later,
    Option.or_of_isSome present]

/-- The scripts that open an output, alike in two inputs. -/
structure SameScripts (alike : Script → Script → Prop) (a b : Input) : Prop where
  witness : Option.Rel alike a.witnessScript b.witnessScript
  redeem : Option.Rel alike a.redeemScript b.redeemScript

/-- The origins of keys after the ECDSA signatures of a template: the last signature for a key binds
    it to the last way from its master, and the other keys are kept as they were. -/
structure RecordsSigners (template : List Placeholder) (before after : Table Bytes KeyOrigin) :
    Prop where
  kept : ∀ key, (∀ signer, .ecdsaSigPk signer ∈ template → signer.key.compressed ≠ key) →
    after.get? key = before.get? key
  last : ∀ front signer rest, template = front ++ .ecdsaSigPk signer :: rest →
    (∀ later, .ecdsaSigPk later ∈ rest → later.key.compressed ≠ signer.key.compressed) →
    signer.key.compressed.length = 33 ∧
      ∃ path, signer.fullPaths.getLast? = some path ∧
        after.get? signer.key.compressed = some ⟨signer.masterFingerprint, path⟩

theorem recordsSigners_foldl (input : Input) (template : List Placeholder) :
    RecordsSigners template input.keyOrigins (template.foldl addSigner input).keyOrigins where
  kept key unsigned := keyOrigins_of_unsigned unsigned input
  last front signer rest split later := by
    refine ⟨signer.key.length_compressed, ?_⟩
    obtain ⟨path, way, origin⟩ := signer.exists_lastOrigin
    exact ⟨path, way, split ▸ (keyOrigins_of_last later input).trans origin⟩

/-- Taproot plans and the others write apart, whether the update ends with an error or not. Without
    taproot the scripts depend on the target alone, and keys are bound by the template alone. -/
theorem update_frame (input : Input) (plan : Plan) :
    (∀ key tree, plan.target = .descriptor (.tr key tree) →
      ∃ tapMerkleRoot tapInternalKey tapKeyOrigins tapScripts,
        (input.update plan).1 =
          { input with tapMerkleRoot, tapInternalKey, tapKeyOrigins, tapScripts }) ∧
    ((∀ key tree, plan.target ≠ .descriptor (.tr key tree)) →
      (∃ keyOrigins witnessScript redeemScript,
        (input.update plan).1 = { input with keyOrigins, witnessScript, redeemScript }) ∧
      RecordsSigners plan.template input.keyOrigins (input.update plan).1.keyOrigins ∧
      ∀ alike : Script → Script → Prop, (∀ script, alike script script) →
        ∀ (other : Input) (plan' : Plan), plan'.target = plan.target →
          SameScripts alike input other →
            (input.update plan).2 = (other.update plan').2 ∧
              SameScripts alike (input.update plan).1 (other.update plan').1) := by
  constructor
  · intro key tree target
    rw [update, target]
    exact updateTaproot_fields input key tree plan.template
  · intro segwit
    refine ⟨?_, ?_, ?_⟩
    · obtain ⟨witnessScript, redeemScript, written⟩ := writeScripts_fields input plan.target
      rw [update_segwit segwit, written]
      exact ⟨_, _, _, rfl⟩
    · rw [update_segwit segwit]
      exact recordsSigners_foldl input plan.template
    · intro alike refl other plan' target scripts
      obtain ⟨outcome, witness, redeem⟩ :=
        writeScripts_congr refl scripts.witness scripts.redeem plan.target
      rw [update_segwit segwit, update_segwit (target ▸ segwit), target]
      exact ⟨outcome, witness, redeem⟩

def resignedPlan : Plan where
  target := .descriptor (.sh (.wsh (.miniscript ⟨⟨[.number 1]⟩, [signer]⟩)))
  template := [.ecdsaSigPk signer, .pushOne, .ecdsaSigPk { signer with suffixes := [[0], [1]] }]
  absoluteLock := none
  relativeLock := none

theorem update_frame_resignedPlan :
    (empty.update resignedPlan).1.keyOrigins.get? signer.key.compressed =
        some ⟨signer.masterFingerprint, [86, 1]⟩ ∧
      (begun.update resignedPlan).1.tapKeyOrigins = begun.tapKeyOrigins ∧
      SameScripts (· = ·) (empty.update resignedPlan).1 (begun.update resignedPlan).1 := by
  have segwit : ∀ key tree, resignedPlan.target ≠ .descriptor (.tr key tree) := by
    rintro key tree ⟨⟩
  obtain ⟨-, signers, scripts⟩ := (update_frame empty resignedPlan).2 segwit
  obtain ⟨⟨_, _, _, kept⟩, -⟩ := (update_frame begun resignedPlan).2 segwit
  obtain ⟨-, path, way, bound⟩ := signers.last [.ecdsaSigPk signer, .pushOne] _ [] rfl
    (by intro later member; cases member)
  cases way
  have same := scripts (· = ·) (fun _ => rfl) begun resignedPlan rfl ⟨.none, .none⟩
  exact ⟨bound, by rw [kept], same.2⟩

end SpendingPlan.Input

import SpendingPlan.Proofs.Plan.Populated

namespace SpendingPlan

/-- On bytes, what an input holds for an output to a script hash whose script is `redeem`. -/
def ShInner.OpenedBy (input : Input) (redeem : Bytes) : ShInner → Prop
  | .wsh inner =>
    ∃ witness, input.witnessScript = some inner.script ∧ inner.script.encode = .ok witness ∧
      redeem = witness.witnessScriptHashOutput
  | .wpkh key => input.witnessScript = none ∧ redeem = key.key.compressed.witnessKeyHashOutput
  | .script inner => input.witnessScript = none ∧ input.redeemScript = some inner.script

/-- On bytes, the scripts of an input are those that an output commits to, and there are no others.
    Taproot outputs commit to no script of this kind. -/
def Descriptor.OpenedBy (input : Input) (output : Bytes) : Descriptor → Prop
  | .bare inner =>
    input.redeemScript = none ∧ input.witnessScript = none ∧ inner.script.encode = .ok output
  | .pkh key =>
    input.redeemScript = none ∧ input.witnessScript = none ∧
      output = key.key.compressed.keyHashOutput
  | .wpkh key =>
    input.redeemScript = none ∧ input.witnessScript = none ∧
      output = key.key.compressed.witnessKeyHashOutput
  | .wsh inner =>
    input.redeemScript = none ∧
      ∃ witness, input.witnessScript = some inner.script ∧ inner.script.encode = .ok witness ∧
        output = witness.witnessScriptHashOutput
  | .sh inner =>
    ∃ script redeem, input.redeemScript = some script ∧ script.encode = .ok redeem ∧
      output = redeem.scriptHashOutput ∧ inner.OpenedBy input redeem
  | .tr _ _ => False

namespace Input

theorem update_eq_writeScripts {plan : Plan}
    (segwit : ∀ key tree, plan.target ≠ .descriptor (.tr key tree)) (input : Input) :
    ∃ keyOrigins, input.update plan = { input with keyOrigins }.writeScripts plan.target := by
  obtain ⟨keyOrigins, signed⟩ := foldl_addSigner_eq plan.template input
  exact ⟨keyOrigins, by rw [update_of_segwit segwit, updateSegwit, signed]⟩

theorem writeScripts_sh {inner : ShInner} {input : Input}
    (encodes : ∀ script, (Fragment.descriptor (.sh inner)).inner? = some script →
      ∃ bytes, script.script.encode = .ok bytes)
    (unwitnessed : input.witnessScript = none) :
    ∃ redeem bytes, inner.redeemScript = .ok redeem ∧ redeem.encode = .ok bytes ∧
      (input.writeScripts (.descriptor (.sh inner))).2 = none ∧
      (input.writeScripts (.descriptor (.sh inner))).1.redeemScript = some redeem ∧
      inner.OpenedBy (input.writeScripts (.descriptor (.sh inner))).1 bytes := by
  cases inner with
  | wsh inner =>
    obtain ⟨witness, encoded⟩ := encodes inner rfl
    obtain ⟨redeem, wrapped, written⟩ := Script.payToWitnessScriptHash_of_encode encoded
    refine ⟨redeem, _, wrapped, written, ?_⟩
    rw [writeScripts, wrapped]
    exact ⟨rfl, rfl, witness, rfl, encoded, rfl⟩
  | wpkh key =>
    exact ⟨_, _, rfl, encode_payToWitnessKeyHash key, rfl, rfl, unwitnessed, rfl⟩
  | script inner =>
    obtain ⟨bytes, encoded⟩ := encodes inner rfl
    exact ⟨_, bytes, rfl, encoded, rfl, rfl, unwitnessed, rfl⟩

theorem writeScripts_opens {descriptor : Descriptor}
    (segwit : ∀ key tree, descriptor ≠ .tr key tree)
    (encodes : ∀ inner, (Fragment.descriptor descriptor).inner? = some inner →
      ∃ bytes, inner.script.encode = .ok bytes)
    {input : Input} (unredeemed : input.redeemScript = none)
    (unwitnessed : input.witnessScript = none) :
    (input.writeScripts (.descriptor descriptor)).2 = none ∧
      ∃ script output, descriptor.outputScript = .ok script ∧ script.encode = .ok output ∧
        descriptor.OpenedBy (input.writeScripts (.descriptor descriptor)).1 output := by
  cases descriptor with
  | bare inner =>
    obtain ⟨output, encoded⟩ := encodes inner rfl
    exact ⟨rfl, _, output, rfl, encoded, unredeemed, unwitnessed, encoded⟩
  | pkh key =>
    exact ⟨rfl, _, _, rfl, encode_payToKeyHash key, unredeemed, unwitnessed, rfl⟩
  | wpkh key =>
    exact ⟨rfl, _, _, rfl, encode_payToWitnessKeyHash key, unredeemed, unwitnessed, rfl⟩
  | wsh inner =>
    obtain ⟨witness, encoded⟩ := encodes inner rfl
    obtain ⟨script, wrapped, written⟩ := Script.payToWitnessScriptHash_of_encode encoded
    exact ⟨rfl, script, _, wrapped, written, unredeemed, witness, rfl, encoded, rfl⟩
  | sh inner =>
    obtain ⟨redeem, bytes, made, encoded, done, held, opened⟩ :=
      writeScripts_sh encodes unwitnessed
    obtain ⟨script, wrapped, written⟩ := Script.payToScriptHash_of_encode encoded
    refine ⟨done, script, _, ?_, written, redeem, bytes, held, encoded, rfl, opened⟩
    rw [Descriptor.outputScript, made]
    exact wrapped
  | tr key tree => exact absurd rfl (segwit key tree)

/-- The update of a fresh input for a plan that is no taproot plan succeeds, and the scripts that it
    writes open the output of the descriptor. -/
theorem update_opens {plan : Plan} {descriptor : Descriptor}
    (target : plan.target = .descriptor descriptor)
    (segwit : ∀ key tree, descriptor ≠ .tr key tree)
    (encodes : ∀ inner, plan.target.inner? = some inner →
      ∃ bytes, inner.script.encode = .ok bytes)
    {input : Input} (unredeemed : input.redeemScript = none)
    (unwitnessed : input.witnessScript = none) :
    (input.update plan).2 = none ∧
      ∃ script output, descriptor.outputScript = .ok script ∧ script.encode = .ok output ∧
        descriptor.OpenedBy (input.update plan).1 output := by
  have apart : ∀ key tree, plan.target ≠ .descriptor (.tr key tree) := by
    intro key tree taproot
    rw [target] at taproot
    exact segwit key tree (Fragment.descriptor.inj taproot)
  obtain ⟨keyOrigins, updated⟩ := update_eq_writeScripts apart input
  rw [target] at encodes
  rw [updated, target]
  exact writeScripts_opens segwit encodes unredeemed unwitnessed

def nested : Descriptor := .sh (.wsh (.miniscript ⟨⟨[.number 1]⟩, [signer]⟩))

def nestedPlan : Plan where
  target := .descriptor nested
  template := [.ecdsaSigPk signer]
  absoluteLock := none
  relativeLock := none

theorem update_opens_nestedPlan :
    (empty.update nestedPlan).2 = none ∧
      ∃ script output, nested.outputScript = .ok script ∧ script.encode = .ok output ∧
        nested.OpenedBy (empty.update nestedPlan).1 output := by
  have encodes : ∀ inner, nestedPlan.target.inner? = some inner →
      ∃ bytes, inner.script.encode = .ok bytes := by
    rintro inner ⟨⟩
    exact ⟨[0x51], rfl⟩
  exact update_opens rfl (by rintro key tree ⟨⟩) encodes rfl rfl

end Input

end SpendingPlan

import SpendingPlan.Plan.Update

namespace SpendingPlan

inductive Step
  | fresh
  | setPreviousTransaction (value : Option Bytes)
  | setPreviousOutput (value : Option (Int × Script))
  | setSighashType (value : Option Int)
  | setRedeemScript (value : Option Script)
  | setWitnessScript (value : Option Script)
  | setFinalScriptSig (value : Option Script)
  | setFinalWitness (value : List Bytes)
  | setTapKeySignature (value : Option Bytes)
  | setTapInternalKey (value : Option Bytes)
  | setTapMerkleRoot (value : Option Bytes)
  | putPartialSignature (key value : Bytes)
  | putUnknown (key value : Bytes)
  | putKeyOrigin (key : Bytes) (origin : KeyOrigin)
  | putTapScriptSignature (key : Bytes × Bytes) (value : Bytes)
  | putTapScript (block : ControlBlock) (script : Script) (version : Int)
  | putTapKeyOrigin (key : Bytes) (leafHashes : List Bytes) (origin : KeyOrigin)
  | update (plan : Plan)
  | updateSegwit (plan : Plan)

def Step.run (input : Input) : Step → Updated
  | .fresh => (Input.empty, none)
  | .setPreviousTransaction value => ({ input with previousTransaction := value }, none)
  | .setPreviousOutput value => ({ input with previousOutput := value }, none)
  | .setSighashType value => ({ input with sighashType := value }, none)
  | .setRedeemScript value => ({ input with redeemScript := value }, none)
  | .setWitnessScript value => ({ input with witnessScript := value }, none)
  | .setFinalScriptSig value => ({ input with finalScriptSig := value }, none)
  | .setFinalWitness value => ({ input with finalWitness := value }, none)
  | .setTapKeySignature value => ({ input with tapKeySignature := value }, none)
  | .setTapInternalKey value => ({ input with tapInternalKey := value }, none)
  | .setTapMerkleRoot value => ({ input with tapMerkleRoot := value }, none)
  | .putPartialSignature key value =>
    ({ input with partialSignatures := input.partialSignatures.insert key value }, none)
  | .putUnknown key value => ({ input with unknown := input.unknown.insert key value }, none)
  | .putKeyOrigin key origin =>
    ({ input with keyOrigins := input.keyOrigins.insert key origin }, none)
  | .putTapScriptSignature key value =>
    ({ input with tapScriptSignatures := input.tapScriptSignatures.insert key value }, none)
  | .putTapScript block script version => input.putLeafScript block script version
  | .putTapKeyOrigin key leafHashes origin =>
    ({ input with tapKeyOrigins := input.tapKeyOrigins.insert key (leafHashes, origin) }, none)
  | .update plan => input.update plan
  | .updateSegwit plan => input.updateSegwit plan

/-- The input after each step of a session; a step that could not be built changes nothing. -/
def runSession (input : Input) : List (Except Error Step) → List Updated
  | [] => []
  | .error e :: rest => (input, some e) :: runSession input rest
  | .ok step :: rest =>
    let updated := step.run input
    updated :: runSession updated.1 rest

end SpendingPlan

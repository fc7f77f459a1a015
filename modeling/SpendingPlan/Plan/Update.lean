import SpendingPlan.Descriptor.Basic
import SpendingPlan.Input.Basic
import SpendingPlan.Plan.TaprootData

namespace SpendingPlan

structure Plan where
  target : Fragment
  template : List Placeholder
  absoluteLock : Option Int := none
  relativeLock : Option Int := none

/-- An input after an update, with the error that ended the update if one did. What was written
    before the error stays written. -/
abbrev Updated := Input × Option Error

namespace Input

/-- Adds a leaf hash for a key unless it is listed; a key that is present keeps its origin. -/
def mergeTapOrigin (leafHash : Option Bytes) (table : Table Bytes (List Bytes × KeyOrigin))
    (entry : Bytes × KeyOrigin) : Table Bytes (List Bytes × KeyOrigin) :=
  match table.get? entry.1 with
  | none => table.insert entry.1 (leafHash.toList, entry.2)
  | some (hashes, _) =>
    match leafHash with
    | some hash =>
      if hashes.contains hash then table
      else table.modify entry.1 fun (hashes, origin) => (hashes ++ [hash], origin)
    | none => table

def mergeTaproot (input : Input) (data : TaprootData) (info : SpendInfo) : Input :=
  { input with
    tapMerkleRoot := info.merkleRoot
    tapInternalKey :=
      match data.spend with
      | some (.key internalKey) => some internalKey
      | _ => input.tapInternalKey
    tapKeyOrigins :=
      data.origins.entries.foldl (mergeTapOrigin (data.spend.bind Spend.leafHash?))
        input.tapKeyOrigins }

def putLeafScript (input : Input) (block : ControlBlock) (script : Script) (version : Int) :
    Updated :=
  match input.tapScripts.insert block script version with
  | .ok tapScripts => ({ input with tapScripts }, none)
  | .error e => (input, some e)

def updateTaproot (input : Input) (key : DescriptorKey) (tree : Tree TreeLeaf)
    (template : List Placeholder) : Updated :=
  match TaprootData.ofTemplate template, Descriptor.spendInfo key tree with
  | .error e, _ => (input, some e)
  | .ok _, .error e => (input, some e)
  | .ok data, .ok info =>
    let input := input.mergeTaproot data info
    match data.script, data.controlBlock with
    | some script, some block => input.putLeafScript block script Taproot.scriptLeafVersion
    | _, _ => (input, none)

def addSigner (input : Input) : Placeholder → Input
  | .ecdsaSigPk key =>
    { input with
      keyOrigins :=
        key.origins.foldl (fun table origin => table.insert key.key.compressed origin)
          input.keyOrigins }
  | _ => input

def writeScripts (input : Input) : Fragment → Updated
  | .descriptor (.bare _) => (input, none)
  | .descriptor (.pkh _) => (input, none)
  | .descriptor (.wpkh _) => (input, none)
  | .descriptor (.sh (.wsh inner)) =>
    let input := { input with witnessScript := some inner.script }
    match inner.script.payToWitnessScriptHash with
    | .ok redeemScript => ({ input with redeemScript := some redeemScript }, none)
    | .error e => (input, some e)
  | .descriptor (.sh (.wpkh key)) =>
    ({ input with redeemScript := some (payToWitnessKeyHash key) }, none)
  | .descriptor (.sh (.script inner)) =>
    ({ input with redeemScript := some inner.script }, none)
  | .descriptor (.wsh inner) => ({ input with witnessScript := some inner.script }, none)
  | .descriptor (.tr _ _) => (input, some .taprootApart)
  | fragment => (input, some (.unknownDescriptor fragment.kind))

def updateSegwit (input : Input) (plan : Plan) : Updated :=
  (plan.template.foldl addSigner input).writeScripts plan.target

/-- Writes what signers and finalizers need for one plan, and nothing about other ways to spend. -/
def update (input : Input) (plan : Plan) : Updated :=
  match plan.target with
  | .descriptor (.tr key tree) => input.updateTaproot key tree plan.template
  | _ => input.updateSegwit plan

end Input

end SpendingPlan

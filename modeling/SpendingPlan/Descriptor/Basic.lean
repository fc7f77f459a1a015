import SpendingPlan.Descriptor.Key
import SpendingPlan.Taproot.SpendInfo

namespace SpendingPlan

/-- A threshold over keys, which the script lists in the order of their texts in hex. -/
structure SortedMulti where
  required : Nat
  keys : List DescriptorKey
  required_pos : 1 ≤ required
  required_le : required ≤ keys.length
  keys_le : keys.length ≤ 20
deriving DecidableEq

namespace SortedMulti

def make (required : Int) (keys : List DescriptorKey) : Except Error SortedMulti :=
  if bounds : 1 ≤ required.toNat ∧ required.toNat ≤ keys.length ∧ keys.length ≤ 20 then
    .ok ⟨required.toNat, keys, bounds.1, bounds.2.1, bounds.2.2⟩
  else .error (.threshold required keys.length)

def script (multi : SortedMulti) : Script :=
  let texts := (multi.keys.map fun key => Hex.encode key.key.compressed).mergeSort fun a b => a ≤ b
  ⟨.number multi.required :: texts.map .word ++
    [.number multi.keys.length, .word "OP_CHECKMULTISIG"]⟩

end SortedMulti

structure Miniscript where
  script : Script
  keys : List DescriptorKey := []
deriving DecidableEq

inductive InnerScript
  | sortedMulti (multi : SortedMulti)
  | miniscript (fragment : Miniscript)
deriving DecidableEq

def InnerScript.script : InnerScript → Script
  | .sortedMulti multi => multi.script
  | .miniscript fragment => fragment.script

def InnerScript.keys : InnerScript → List DescriptorKey
  | .sortedMulti multi => multi.keys
  | .miniscript fragment => fragment.keys

inductive ShInner
  | wsh (inner : InnerScript)
  | wpkh (key : DescriptorKey)
  | script (inner : InnerScript)
deriving DecidableEq

inductive TreeLeaf
  | script (script : Script)
  | miniscript (fragment : Miniscript)
deriving DecidableEq

def TreeLeaf.toScript : TreeLeaf → Script
  | .script leaf => leaf
  | .miniscript fragment => fragment.script

def TreeLeaf.keys : TreeLeaf → List DescriptorKey
  | .script _ => []
  | .miniscript fragment => fragment.keys

namespace TreeLeaf

/-- Only scripts are hashed; a fragment has to give up its script first. -/
def hash : TreeLeaf → Except Error Bytes
  | .script leaf => Taproot.leafHash Taproot.scriptLeafVersion leaf
  | .miniscript _ => .error .notAScript

def treeRoot : Tree TreeLeaf → Except Error Bytes := Tree.rootBy hash Taproot.branchHash

def treeMerklePath : Tree TreeLeaf → Int → Except Error (Option Bytes) :=
  Tree.merklePathBy hash Taproot.branchHash

end TreeLeaf

inductive Descriptor
  | bare (inner : InnerScript)
  | pkh (key : DescriptorKey)
  | wpkh (key : DescriptorKey)
  | wsh (inner : InnerScript)
  | sh (inner : ShInner)
  | tr (key : DescriptorKey) (tree : Tree TreeLeaf := .absent)

def payToKeyHash (key : DescriptorKey) : Script :=
  ⟨[.word "OP_DUP", .word "OP_HASH160", Script.hexWord (hash160 key.key.compressed),
    .word "OP_EQUALVERIFY", .word "OP_CHECKSIG"]⟩

def payToWitnessKeyHash (key : DescriptorKey) : Script :=
  ⟨[.word "OP_0", Script.hexWord (hash160 key.key.compressed)]⟩

def ShInner.redeemScript : ShInner → Except Error Script
  | .wsh inner => inner.script.payToWitnessScriptHash
  | .wpkh key => .ok (payToWitnessKeyHash key)
  | .script inner => .ok inner.script

def ShInner.keys : ShInner → List DescriptorKey
  | .wsh inner => inner.keys
  | .wpkh key => [key]
  | .script inner => inner.keys

namespace Descriptor

def spendInfo (key : DescriptorKey) (tree : Tree TreeLeaf) : Except Error SpendInfo :=
  SpendInfo.make key.key (tree.map TreeLeaf.toScript)

def outputScript : Descriptor → Except Error Script
  | .bare inner => .ok inner.script
  | .pkh key => .ok (payToKeyHash key)
  | .wpkh key => .ok (payToWitnessKeyHash key)
  | .wsh inner => inner.script.payToWitnessScriptHash
  | .sh inner => do (← inner.redeemScript).payToScriptHash
  | .tr key tree => do
    return ⟨[.word "OP_1", Script.hexWord (← spendInfo key tree).outputKey.xOnly]⟩

def innerScript? : Descriptor → Option (Except Error Script)
  | .bare inner => some (.ok inner.script)
  | .wsh inner => some (.ok inner.script)
  | .sh inner => some inner.redeemScript
  | .pkh _ | .wpkh _ | .tr _ _ => none

def keys : Descriptor → List DescriptorKey
  | .bare inner => inner.keys
  | .pkh key => [key]
  | .wpkh key => [key]
  | .wsh inner => inner.keys
  | .sh inner => inner.keys
  | .tr key tree => key :: tree.leaves.flatMap TreeLeaf.keys

end Descriptor

inductive Fragment
  | inner (script : InnerScript)
  | descriptor (descriptor : Descriptor)

namespace Fragment

def kind : Fragment → String
  | .inner (.sortedMulti _) => "SortedMulti"
  | .inner (.miniscript _) => "Miniscript"
  | .descriptor (.bare _) => "Bare"
  | .descriptor (.pkh _) => "Pkh"
  | .descriptor (.wpkh _) => "Wpkh"
  | .descriptor (.wsh _) => "Wsh"
  | .descriptor (.sh _) => "Sh"
  | .descriptor (.tr _ _) => "Tr"

def bare : Fragment → Except Error Descriptor
  | .inner script => .ok (.bare script)
  | .descriptor _ => .error .bareInner

def wsh : Fragment → Except Error Descriptor
  | .inner script => .ok (.wsh script)
  | .descriptor _ => .error .wshInner

def sh : Fragment → Except Error Descriptor
  | .inner script => .ok (.sh (.script script))
  | .descriptor (.wsh script) => .ok (.sh (.wsh script))
  | .descriptor (.wpkh key) => .ok (.sh (.wpkh key))
  | fragment => .error (.shInner fragment.kind)

def spendInfo : Fragment → Except Error SpendInfo
  | .descriptor (.tr key tree) => Descriptor.spendInfo key tree
  | _ => .error .noSpendInfo

end Fragment

end SpendingPlan

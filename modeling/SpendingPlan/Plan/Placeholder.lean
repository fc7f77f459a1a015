import SpendingPlan.Descriptor.Key
import SpendingPlan.Taproot.ControlBlock

namespace SpendingPlan

inductive SchnorrUse
  | keySpend (merkleRoot : Option Bytes := none)
  | scriptSpend (leafHash : Bytes)
deriving DecidableEq

/-- An item of a witness template: data that signing or finalizing has to provide, and the bytes
    that keys and Schnorr signatures take in the witness. -/
inductive Placeholder
  | pubKey (key : DescriptorKey) (size : Int := 34)
  | pubKeyHash (key : DescriptorKey) (size : Int := 34)
  | ecdsaSigPk (key : DescriptorKey)
  | ecdsaSigPkHash (hash : Bytes)
  | schnorrSigPk (key : DescriptorKey) (use : SchnorrUse) (size : Int := 64)
  | schnorrSigPkHash (key : DescriptorKey) (leafHash : Bytes) (size : Int := 64)
  | sha256Preimage (hash : Bytes)
  | hash256Preimage (hash : Bytes)
  | ripemd160Preimage (hash : Bytes)
  | hash160Preimage (hash : Bytes)
  | pushOne
  | pushZero
  | tapScript (script : Script)
  | tapControlBlock (block : ControlBlock)
deriving DecidableEq

def SchnorrUse.describe : SchnorrUse → String
  | .keySpend none => "KeySpend(merkle_root=None)"
  | .keySpend (some root) => s!"KeySpend(merkle_root={Text.Quoted.bytes root})"
  | .scriptSpend leafHash => s!"ScriptSpend(leaf_hash={Text.Quoted.bytes leafHash})"

namespace Placeholder

def same : Placeholder → Placeholder → Except Error Bool
  | .tapScript a, .tapScript b => a.same b
  | .tapControlBlock a, .tapControlBlock b => a.same b
  | a, b => .ok (a = b)

def describe : Placeholder → Except Error String
  | .pubKey key size => do return s!"PubKey({← key.describe}, {size})"
  | .pubKeyHash key size => do return s!"PubKeyHash({← key.describe}, {size})"
  | .ecdsaSigPk key => do return s!"EcdsaSigPk({← key.describe})"
  | .ecdsaSigPkHash hash => .ok s!"EcdsaSigPkHash({Text.Quoted.bytes hash})"
  | .schnorrSigPk key use size => do
    return s!"SchnorrSigPk({← key.describe}, {use.describe}, {size})"
  | .schnorrSigPkHash key leafHash size => do
    return s!"SchnorrSigPkHash({← key.describe}, {Text.Quoted.bytes leafHash}, {size})"
  | .sha256Preimage hash => .ok s!"Sha256Preimage({Text.Quoted.bytes hash})"
  | .hash256Preimage hash => .ok s!"Hash256Preimage({Text.Quoted.bytes hash})"
  | .ripemd160Preimage hash => .ok s!"Ripemd160Preimage({Text.Quoted.bytes hash})"
  | .hash160Preimage hash => .ok s!"Hash160Preimage({Text.Quoted.bytes hash})"
  | .pushOne => .ok "PushOne()"
  | .pushZero => .ok "PushZero()"
  | .tapScript script => .ok s!"TapScript({script.describe})"
  | .tapControlBlock block => do return s!"TapControlBlock({← block.describe})"

end Placeholder

end SpendingPlan

import SpendingPlan.Plan.Placeholder

namespace SpendingPlan

inductive Item
  | script (script : Script)
  | publicKey (key : PublicKey)
  | origin (origin : KeyOrigin)
  | descriptorKey (key : DescriptorKey)
  | controlBlock (block : ControlBlock)
  | placeholder (item : Placeholder)
  | schnorrUse (use : SchnorrUse)
  | number (n : Int)
deriving DecidableEq

/-- What an item is told apart by: scripts and control blocks by their encodings. -/
inductive Identity
  | script (encoded : Bytes)
  | publicKey (key : PublicKey)
  | origin (origin : KeyOrigin)
  | descriptorKey (key : DescriptorKey)
  | controlBlock (encoded : Bytes)
  | number (n : Int)
deriving DecidableEq

namespace Item

def same : Item → Item → Except Error Bool
  | .script a, .script b => a.same b
  | .controlBlock a, .controlBlock b => a.same b
  | .placeholder a, .placeholder b => a.same b
  | a, b => .ok (a = b)

def describe : Item → Except Error String
  | .script value => .ok value.describe
  | .publicKey value => .ok value.describe
  | .origin value => value.describe
  | .descriptorKey value => value.describe
  | .controlBlock value => value.describe
  | .placeholder value => value.describe
  | .schnorrUse value => .ok value.describe
  | .number n => .ok (toString n)

def identity : Item → Except Error Identity
  | .script value => do return .script (← value.encode)
  | .publicKey value => .ok (.publicKey value)
  | .origin value => .ok (.origin value)
  | .descriptorKey value => .ok (.descriptorKey value)
  | .controlBlock value => do return .controlBlock (← value.encode)
  | .placeholder _ => .error .notAKey
  | .schnorrUse _ => .error .notAKey
  | .number n => .ok (.number n)

/-- For each item, the position of the first one with the same identity. An item is built and told
    apart before the next one is built, so the first that fails either way decides the error. -/
def firsts (items : List (Except Error Item)) : Except Error (List Nat) := do
  let identities ← items.mapM fun item => do identity (← item)
  return identities.map identities.idxOf

def countDistinct (firsts : List Nat) : Nat := firsts.eraseDups.length

end Item

end SpendingPlan

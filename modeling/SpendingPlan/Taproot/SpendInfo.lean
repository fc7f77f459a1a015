import SpendingPlan.Taproot.ControlBlock

namespace SpendingPlan

namespace Taproot

structure OutputKey where
  xOnly : Bytes
  odd : Bool
deriving DecidableEq, Repr

/-- The number that ties an internal key to a Merkle root; no root and an empty one are alike. -/
def tweak (internalKey : Bytes) (root : Option Bytes) : Except Error Nat :=
  let value := Bytes.toNatBE (taggedHash "TapTweak" (internalKey ++ root.getD []))
  if Curve.order ≤ value then .error .tweakTooLarge else .ok value

def outputKey (internalKey : Bytes) (tweak : Int) : Except Error OutputKey := do
  let x := internalKey.toNatBE
  let some y := Curve.evenOrdinate? x | .error .internalKeyOffCurve
  let _ ← Curve.encodeCoordinate x
  let key ← PublicKey.ofCoordinates x y
  match (Curve.Point.affine key.x key.y).add (Curve.mulGenerator tweak) with
  | .infinity => .error .pointAtInfinity
  | .affine x y => .ok ⟨Bytes.ofNatBE 32 x, y % 2 = 1⟩

end Taproot

structure SpendInfo where
  internalKey : PublicKey
  tree : Tree Script
  merkleRoot : Option Bytes
  outputKey : Taproot.OutputKey

namespace SpendInfo

def make (internalKey : PublicKey) (tree : Tree Script := .absent) : Except Error SpendInfo := do
  let root ← tree.root
  let merkleRoot := if root = [] then none else some root
  let tweak ← Taproot.tweak internalKey.xOnly merkleRoot
  return ⟨internalKey, tree, merkleRoot, ← Taproot.outputKey internalKey.xOnly tweak⟩

def leaves (info : SpendInfo) : List Script := info.tree.leaves

/-- The position of the first leaf that encodes as `script` does, counted from `first`. Leaves are
    encoded before the script they are compared with. -/
def position (script : Script) : Nat → List Script → Except Error Nat
  | _, [] => .error (.notALeaf script.listing)
  | first, leaf :: rest => do
    if ← leaf.same script then return first
    position script (first + 1) rest

def leafHash (info : SpendInfo) (script : Script) : Except Error Bytes := do
  let _ ← position script 0 info.leaves
  Taproot.leafHash Taproot.scriptLeafVersion script

def controlBlock (info : SpendInfo) (script : Script) : Except Error ControlBlock := do
  let index ← position script 0 info.leaves
  let some path ← info.tree.merklePath index | .error .noMerklePath
  ControlBlock.make info.internalKey path info.outputKey.odd Taproot.scriptLeafVersion

end SpendInfo

end SpendingPlan

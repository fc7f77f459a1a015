import SpendingPlan.Key
import SpendingPlan.Taproot.Tree

namespace SpendingPlan

def maxPathHashes : Nat := 128

structure ControlBlock where
  key : PublicKey
  path : Bytes
  odd : Bool
  version : Int
  whole : path.length % 32 = 0
  shallow : path.length / 32 ≤ maxPathHashes
deriving DecidableEq

namespace ControlBlock

def make (key : PublicKey) (path : Bytes := []) (odd : Bool := false)
    (version : Int := Taproot.scriptLeafVersion) : Except Error ControlBlock :=
  if whole : path.length % 32 = 0 then
    if shallow : path.length / 32 ≤ maxPathHashes then .ok ⟨key, path, odd, version, whole, shallow⟩
    else .error .merklePathDepth
  else .error .merklePathLength

/-- The version with the parity of the output key in its low bit, the internal key, the path. -/
def encode (block : ControlBlock) : Except Error Bytes := do
  let first ← Taproot.byte ((if block.odd then 1 else 0) + block.version)
  return first :: (block.key.xOnly ++ block.path)

def parse (bytes : Bytes) : Except Error ControlBlock :=
  match bytes with
  | first :: rest =>
    if bytes.length < 33 then .error (.controlBlockLength bytes.length)
    else do
      let key ← PublicKey.parse (Hex.encode (rest.take 32))
      make key (rest.drop 32) (first &&& 1 = 1) (first &&& 0xfe).toNat
  | [] => .error (.controlBlockLength 0)

def same (a b : ControlBlock) : Except Error Bool := do
  let left ← a.encode
  let right ← b.encode
  return left = right

def describe (block : ControlBlock) : Except Error String := do
  return s!"ControlBlock({Hex.encode (← block.encode)})"

/-- Control blocks in the order of their encodings; a single one is not looked at. -/
def sort (blocks : List ControlBlock) : Except Error (List ControlBlock) := do
  if blocks.length ≤ 1 then return blocks
  let encoded ← blocks.mapM fun block => return (← block.encode, block)
  return (encoded.mergeSort fun a b => Bytes.le a.1 b.1).map Prod.snd

end ControlBlock

namespace Taproot

def foldPath (leaf path : Bytes) : Bytes := (path.chunks 32).foldl branchHash leaf

def tweakedPoint (internalKey : Bytes) (tweak : Nat) : Option Curve.Point :=
  let x := internalKey.toNatBE
  if x < Curve.prime then
    (Curve.evenOrdinate? x).map fun y => (Curve.Point.affine x y).add (Curve.mulGenerator tweak)
  else none

def isOutput (outputKey : Bytes) (odd : Bool) : Curve.Point → Bool
  | .infinity => false
  | .affine x y => Bytes.ofNatBE 32 x = outputKey && decide (y % 2 = 1) = odd

/-- Whether a control block shows that a script may spend an output. -/
def verify (block script outputKey : Bytes) : Bool :=
  match block, CompactSize.frame script with
  | first :: rest, .ok framed =>
    let internalKey := rest.take 32
    let path := rest.drop 32
    let leaf := taggedHash "TapLeaf" ((first &&& 0xfe) :: framed)
    let tweak := Bytes.toNatBE (taggedHash "TapTweak" (internalKey ++ foldPath leaf path))
    32 ≤ rest.length && path.length % 32 = 0 && path.length / 32 ≤ maxPathHashes &&
      tweak < Curve.order &&
      (tweakedPoint internalKey tweak).any (isOutput outputKey (first &&& 1 = 1))
  | _, _ => false

end Taproot

end SpendingPlan

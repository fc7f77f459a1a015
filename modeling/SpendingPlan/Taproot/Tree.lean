import SpendingPlan.Script

namespace SpendingPlan

namespace Taproot

def scriptLeafVersion : Nat := 0xc0

def byte (n : Int) : Except Error UInt8 :=
  if 0 ≤ n ∧ n ≤ 0xff then .ok (UInt8.ofNat n.toNat) else .error .byteOutOfRange

def leafPreimage (version : Int) (script : Script) : Except Error Bytes := do
  let version ← byte version
  let script ← script.encode
  return version :: (← CompactSize.frame script)

def branchPreimage (a b : Bytes) : Bytes := if a.lt b then a ++ b else b ++ a

def leafHashWith (sha : Bytes → Bytes) (version : Int) (script : Script) : Except Error Bytes := do
  return taggedHashWith sha "TapLeaf" (← leafPreimage version script)

def branchHashWith (sha : Bytes → Bytes) (a b : Bytes) : Bytes :=
  taggedHashWith sha "TapBranch" (branchPreimage a b)

def leafHash (version : Int) (script : Script) : Except Error Bytes :=
  leafHashWith Sha256.digest version script

def branchHash (a b : Bytes) : Bytes := branchHashWith Sha256.digest a b

end Taproot

/-- A script tree as it is written down: nothing, a leaf, or a list of trees. Lists of one or two
    trees are wrappers and branches; an empty list stands for nothing. -/
inductive Tree (α : Type)
  | absent
  | leaf (value : α)
  | list (children : List (Tree α))

namespace Tree

def leaves {α : Type} : Tree α → List α
  | .absent => []
  | .leaf value => [value]
  | .list children => children.flatMap leaves

def map {α β : Type} (f : α → β) : Tree α → Tree β
  | .absent => .absent
  | .leaf value => .leaf (f value)
  | .list children => .list (children.map (map f))

section Hashing

variable {α : Type} (hashLeaf : α → Except Error Bytes) (join : Bytes → Bytes → Bytes)

def rootBy : Tree α → Except Error Bytes
  | .absent => .ok []
  | .leaf value => hashLeaf value
  | .list [] => .ok []
  | .list [tree] => rootBy tree
  | .list [left, right] => do
    let left ← rootBy left
    let right ← rootBy right
    return join left right
  | .list (_ :: _ :: _ :: _) => .error .branchTooWide

/-- What a walk towards one leaf brings back from a subtree: the hashes beside the way up from
    that leaf, or the hash of a subtree without it. -/
inductive Sighting
  | beside (hashes : Bytes)
  | hash (value : Bytes)
deriving DecidableEq, Repr

def Sighting.bytes : Sighting → Bytes
  | .beside hashes => hashes
  | .hash value => value

def Sighting.merge : Sighting → Sighting → Sighting
  | .beside hashes, right => .beside (hashes ++ right.bytes)
  | .hash value, .beside hashes => .beside (hashes ++ value)
  | .hash left, .hash right => .hash (join left right)

/-- Walks a tree whose first leaf has number `first`; brings back the number of the leaf after it
    as well. An absent leaf takes a number and has no hash. -/
def walk (target : Int) : Tree α → Nat → Except Error (Sighting × Nat)
  | .absent, first =>
    if (first : Int) = target then .ok (.beside [], first + 1) else .error .notAScript
  | .leaf value, first =>
    if (first : Int) = target then .ok (.beside [], first + 1)
    else do return (.hash (← hashLeaf value), first + 1)
  | .list [tree], first => walk target tree first
  | .list [left, right], first => do
    let (left, next) ← walk target left first
    let (right, next) ← walk target right next
    return (left.merge join right, next)
  | .list [], _ => .error .branchTooWide
  | .list (_ :: _ :: _ :: _), _ => .error .branchTooWide

def merklePathBy (tree : Tree α) (target : Int) : Except Error (Option Bytes) := do
  match ← walk hashLeaf join target tree 0 with
  | (.beside hashes, _) => return some hashes
  | (.hash _, _) => return none

end Hashing

def rootWith (sha : Bytes → Bytes) : Tree Script → Except Error Bytes :=
  rootBy (Taproot.leafHashWith sha Taproot.scriptLeafVersion) (Taproot.branchHashWith sha)

def root : Tree Script → Except Error Bytes := rootWith Sha256.digest

def merklePath : Tree Script → Int → Except Error (Option Bytes) :=
  merklePathBy (Taproot.leafHash Taproot.scriptLeafVersion) Taproot.branchHash

end Tree

end SpendingPlan

import SpendingPlan.Key
import SpendingPlan.Origin

namespace SpendingPlan

/-- A key of a descriptor, already derived; `suffixes` are the ways down that follow the origin. -/
structure DescriptorKey where
  key : PublicKey
  origin : Option KeyOrigin := none
  suffixes : List Path := []
deriving DecidableEq

namespace DescriptorKey

def splitOrigin (text : List Char) : List Char × List Char :=
  (text.takeWhile (· ≠ ']'), (text.dropWhile (· ≠ ']')).drop 1)

def parse (text : String) (suffixes : List String := []) : Except Error DescriptorKey := do
  match text.toList with
  | '[' :: rest =>
    let (origin, key) := splitOrigin rest
    let origin ← KeyOrigin.parse (String.ofList origin)
    let suffixes ← suffixes.mapM Path.parse
    return ⟨← PublicKey.parse (String.ofList key), some origin, suffixes⟩
  | _ =>
    let suffixes ← suffixes.mapM Path.parse
    return ⟨← PublicKey.parse text, none, suffixes⟩

def ownFingerprint (key : PublicKey) : Fingerprint where
  bytes := (hash160 key.compressed).take 4
  length_bytes := by simp

/-- The fingerprint of the origin; a key without one is its own master key. -/
def masterFingerprint (key : DescriptorKey) : Fingerprint :=
  match key.origin with
  | some origin => origin.fingerprint
  | none => ownFingerprint key.key

def originPath (key : DescriptorKey) : Path :=
  match key.origin with
  | some origin => origin.path
  | none => []

def fullPaths (key : DescriptorKey) : List Path :=
  if key.suffixes = [] then [key.originPath] else key.suffixes.map (key.originPath ++ ·)

def isMultipath (key : DescriptorKey) : Bool := 1 < key.suffixes.length

def origins (key : DescriptorKey) : List KeyOrigin :=
  key.fullPaths.map fun path => ⟨key.masterFingerprint, path⟩

def xOnly (key : DescriptorKey) : Bytes := key.key.xOnly

def describe (key : DescriptorKey) : Except Error String := do
  let origin ←
    match key.origin with
    | some origin => do pure s!"[{← origin.render}]"
    | none => pure ""
  return s!"DescriptorPublicKey({origin}{Hex.encode key.key.compressed})"

end DescriptorKey

end SpendingPlan

import SpendingPlan.Hex
import SpendingPlan.Path

namespace SpendingPlan

structure Fingerprint where
  bytes : Bytes
  length_bytes : bytes.length = 4
deriving DecidableEq

def Fingerprint.ofBytes (bytes : Bytes) : Except Error Fingerprint :=
  if length : bytes.length = 4 then .ok ⟨bytes, length⟩ else .error .fingerprintLength

/-- Where a key comes from: its master key and the way down from there. -/
structure KeyOrigin where
  fingerprint : Fingerprint
  path : Path
deriving DecidableEq

namespace KeyOrigin

def isBracket (c : Char) : Bool := c = '[' || c = ']'

/-- A fingerprint in hex and the path after the first slash; brackets around them are dropped. -/
def parse (text : String) : Except Error KeyOrigin := do
  let body := Text.trim isBracket text.toList
  let some bytes := Hex.decode (body.takeWhile (· ≠ '/')) | .error .malformedHex
  let path ← Path.parse (String.ofList ((body.dropWhile (· ≠ '/')).drop 1))
  return ⟨← Fingerprint.ofBytes bytes, path⟩

def encodeIndex (index : Int) : Except Error Bytes :=
  if index < 0 ∨ 0xffffffff < index then .error .fieldOutOfRange
  else .ok (Bytes.ofNatLE 4 index.toNat)

def encode (origin : KeyOrigin) : Except Error Bytes := do
  return origin.fingerprint.bytes ++ (← origin.path.mapM encodeIndex).flatten

def render (origin : KeyOrigin) : Except Error String := do
  let path ← Path.renderElements Path.defaultMark (origin.path.map .index)
  return Hex.encode origin.fingerprint.bytes ++ path

def describe (origin : KeyOrigin) : Except Error String := do
  return s!"KeyOrigin({← origin.render})"

end KeyOrigin

end SpendingPlan

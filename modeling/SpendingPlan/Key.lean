import SpendingPlan.Curve
import SpendingPlan.Error
import SpendingPlan.Hash.Sha256
import SpendingPlan.Hex
import SpendingPlan.Text.Numeral

namespace SpendingPlan

structure PublicKey where
  x : Nat
  y : Nat
  holds : Curve.Holds x y
deriving DecidableEq

namespace PublicKey

def ofCoordinates (x y : Nat) : Except Error PublicKey :=
  if holds : Curve.Holds x y then .ok ⟨x, y, holds⟩ else .error .pointRejected

/-- The point over `x` whose ordinate has the given parity. An abscissa is refused first for
    having no point over it, then for its width, then for not being reduced. -/
def ofAbscissa (x : Nat) (odd : Bool) : Except Error PublicKey :=
  match Curve.evenOrdinate? x with
  | none => .error .keyOffCurve
  | some y =>
    if Curve.coordinateLimit ≤ x then .error .malformedHex
    else ofCoordinates x (if odd then Curve.prime - y else y)

def abscissa (text : List Char) : Except Error Nat :=
  match Text.Numeral.hex text with
  | none => .error .malformedNumeral
  | some x => .ok x.toNat

def body (text : List Char) : List Char :=
  match Text.trim Text.isBlank text with
  | '0' :: 'x' :: rest => rest
  | '0' :: 'X' :: rest => rest
  | rest => rest

/-- A key in hex: the uncompressed form, the compressed form, or the abscissa alone of a point
    with even ordinate. -/
def parse (text : String) : Except Error PublicKey := do
  let text := body text.toList
  let some bytes := Hex.decode text | .error .malformedHex
  match bytes.length with
  | 65 =>
    if bytes.head? = some 4 then
      let coordinates := bytes.drop 1
      ofCoordinates (Bytes.toNatBE (coordinates.take 32)) (Bytes.toNatBE (coordinates.drop 32))
    else .error .uncompressedForm
  | 33 =>
    let x ← abscissa (text.drop 2)
    if bytes.head? = some 2 then ofAbscissa x false
    else if bytes.head? = some 3 then ofAbscissa x true
    else .error .compressedForm
  | 32 => ofAbscissa (← abscissa text) false
  | length => .error (.keyLength length)

def isOdd (key : PublicKey) : Bool := key.y % 2 = 1

def xOnly (key : PublicKey) : Bytes := Bytes.ofNatBE 32 key.x

def compressed (key : PublicKey) : Bytes := (if key.isOdd then 3 else 2) :: key.xOnly

def uncompressed (key : PublicKey) : Bytes := 4 :: (key.xOnly ++ Bytes.ofNatBE 32 key.y)

def describe (key : PublicKey) : String := s!"PublicKey({Hex.encode key.compressed})"

@[simp] theorem length_xOnly (key : PublicKey) : key.xOnly.length = 32 := by simp [xOnly]

@[simp] theorem length_compressed (key : PublicKey) : key.compressed.length = 33 := by
  simp [compressed]

end PublicKey

structure SecretKey where
  exponent : Nat
  pos : 0 < exponent
  lt_order : exponent < Curve.order
deriving DecidableEq

namespace SecretKey

/-- No random key is drawn: exponent 0 and no bytes at all, which can ask for one, are refused like
    other values out of range. -/
def ofExponent (exponent : Int) : Except Error SecretKey :=
  if bounds : 0 < exponent.toNat ∧ exponent.toNat < Curve.order then
    .ok ⟨exponent.toNat, bounds.1, bounds.2⟩
  else .error .pointRejected

def ofBytes (bytes : Bytes) : Except Error SecretKey :=
  if bytes.length = 32 then ofExponent bytes.toNatBE else .error .secretLength

def toBytes (secret : SecretKey) : Bytes := Bytes.ofNatBE 32 secret.exponent

def publicKey (secret : SecretKey) : Except Error PublicKey :=
  match Curve.mulGenerator secret.exponent with
  | .infinity => .error .pointRejected
  | .affine x y => PublicKey.ofCoordinates x y

end SecretKey

end SpendingPlan

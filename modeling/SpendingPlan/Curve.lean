import SpendingPlan.Bytes
import SpendingPlan.Error

namespace SpendingPlan.Curve

def prime : Nat := 0xfffffffffffffffffffffffffffffffffffffffffffffffffffffffefffffc2f

theorem prime_pos : 0 < prime := by decide

def sub (a b : Nat) : Nat := (a + (prime - b)) % prime

def power (base exponent : Nat) : Nat :=
  if exponent = 0 then 1
  else
    let half := power (base * base % prime) (exponent / 2)
    if exponent % 2 = 1 then base * half % prime else half
termination_by exponent
decreasing_by omega

/-- Euclid's algorithm; each coefficient times the number to invert is congruent to its
    remainder. -/
def bezout (older newer : Nat) (olderCoefficient newerCoefficient : Int) : Int :=
  if newer = 0 then olderCoefficient
  else
    bezout newer (older % newer) newerCoefficient
      (olderCoefficient - (older / newer : Nat) * newerCoefficient)
termination_by newer
decreasing_by exact Nat.mod_lt _ (Nat.pos_of_ne_zero ‹_›)

def inverse (a : Nat) : Nat := (bezout prime (a % prime) 0 1 % prime).toNat

/-- A square root: the prime is three modulo four, so squares have one that is a power. -/
def sqrt? (a : Nat) : Option Nat :=
  let root := power a ((prime + 1) / 4)
  if root * root % prime = a then some root else none

def order : Nat := 0xfffffffffffffffffffffffffffffffebaaedce6af48a03bbfd25e8cd0364141

def cubic (x : Nat) : Nat := (x * x * x + 7) % prime

def Holds (x y : Nat) : Prop := x < prime ∧ y < prime ∧ y * y % prime = cubic x

instance (x y : Nat) : Decidable (Holds x y) := inferInstanceAs (Decidable (_ ∧ _ ∧ _))

inductive Point
  | infinity
  | affine (x y : Nat)
deriving DecidableEq, Repr

/-- The third point on a line through two points, reflected. -/
def reflectedThird (slope x₁ y₁ x₂ : Nat) : Point :=
  let x := sub (sub (slope * slope % prime) x₁) x₂
  .affine x (sub (slope * sub x₁ x % prime) y₁)

def Point.add : Point → Point → Point
  | .infinity, point => point
  | point, .infinity => point
  | .affine x₁ y₁, .affine x₂ y₂ =>
    if x₁ = x₂ then
      if (y₁ + y₂) % prime = 0 then .infinity
      else reflectedThird (3 * x₁ * x₁ * inverse (2 * y₁) % prime) x₁ y₁ x₂
    else reflectedThird (sub y₂ y₁ * inverse (sub x₂ x₁) % prime) x₁ y₁ x₂

def Point.mul (n : Nat) (point : Point) : Point :=
  if n = 0 then .infinity
  else
    let rest := Point.mul (n / 2) (point.add point)
    if n % 2 = 1 then point.add rest else rest
termination_by n
decreasing_by omega

def generator : Point :=
  .affine 0x79be667ef9dcbbac55a06295ce870b07029bfcdb2dce28d959f2815b16f81798
    0x483ada7726a3c4655da4fbfc0e1108a8fd17b448a68554199c47d08ffb10d4b8

def mulGenerator (n : Int) : Point := Point.mul (n % order).toNat generator

def evenOrdinate? (x : Nat) : Option Nat :=
  (sqrt? (cubic x)).map fun y => if y % 2 = 0 then y else prime - y

def coordinateLimit : Nat := 0x10000000000000000000000000000000000000000000000000000000000000000

def encodeCoordinate (n : Int) : Except Error Bytes :=
  if n < 0 ∨ coordinateLimit ≤ n then .error .coordinateOutOfRange
  else .ok (Bytes.ofNatBE 32 n.toNat)

end SpendingPlan.Curve

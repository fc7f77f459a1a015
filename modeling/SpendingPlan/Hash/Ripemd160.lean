import SpendingPlan.Bytes

namespace SpendingPlan

namespace TwosComplement

/-- All bits of an integer flipped; integers are read as two's complement of unbounded width. -/
def complement (x : Int) : Int := -x - 1

def land : Int → Int → Int
  | .ofNat m, .ofNat n => .ofNat (m &&& n)
  | .ofNat m, .negSucc n => .ofNat (m - (m &&& n))
  | .negSucc m, .ofNat n => .ofNat (n - (n &&& m))
  | .negSucc m, .negSucc n => .negSucc (m ||| n)

def lor (x y : Int) : Int := complement (land (complement x) (complement y))

def lxor : Int → Int → Int
  | .ofNat m, .ofNat n => .ofNat (m ^^^ n)
  | .ofNat m, .negSucc n => .negSucc (m ^^^ n)
  | .negSucc m, .ofNat n => .negSucc (m ^^^ n)
  | .negSucc m, .negSucc n => .ofNat (m ^^^ n)

def low32 (x : Int) : Nat := (x % 0x100000000).toNat

end TwosComplement

namespace Ripemd160

structure Line where
  words : List Nat
  shifts : List Nat
  constants : List Nat

def leftLine : Line where
  words :=
    [0, 1, 2, 3, 4, 5, 6, 7, 8, 9, 10, 11, 12, 13, 14, 15,
      7, 4, 13, 1, 10, 6, 15, 3, 12, 0, 9, 5, 2, 14, 11, 8,
      3, 10, 14, 4, 9, 15, 8, 1, 2, 7, 0, 6, 13, 11, 5, 12,
      1, 9, 11, 10, 0, 8, 12, 4, 13, 3, 7, 15, 14, 5, 6, 2,
      4, 0, 5, 9, 7, 12, 2, 10, 14, 1, 3, 8, 11, 6, 15, 13]
  shifts :=
    [11, 14, 15, 12, 5, 8, 7, 9, 11, 13, 14, 15, 6, 7, 9, 8,
      7, 6, 8, 13, 11, 9, 7, 15, 7, 12, 15, 9, 11, 7, 13, 12,
      11, 13, 6, 7, 14, 9, 13, 15, 14, 8, 13, 6, 5, 12, 7, 5,
      11, 12, 14, 15, 14, 15, 9, 8, 9, 14, 5, 6, 8, 6, 5, 12,
      9, 15, 5, 11, 6, 8, 13, 12, 5, 12, 13, 14, 11, 8, 5, 6]
  constants := [0x00000000, 0x5a827999, 0x6ed9eba1, 0x8f1bbcdc, 0xa953fd4e]

def rightLine : Line where
  words :=
    [5, 14, 7, 0, 9, 2, 11, 4, 13, 6, 15, 8, 1, 10, 3, 12,
      6, 11, 3, 7, 0, 13, 5, 10, 14, 15, 8, 12, 4, 9, 1, 2,
      15, 5, 1, 3, 7, 14, 6, 9, 11, 8, 12, 2, 10, 0, 4, 13,
      8, 6, 4, 1, 3, 11, 15, 0, 5, 12, 2, 13, 9, 7, 10, 14,
      12, 15, 10, 4, 1, 5, 8, 7, 6, 2, 13, 14, 0, 3, 9, 11]
  shifts :=
    [8, 9, 9, 11, 13, 15, 15, 5, 7, 7, 8, 11, 14, 14, 12, 6,
      9, 13, 15, 7, 12, 8, 9, 11, 7, 7, 12, 7, 6, 15, 13, 11,
      9, 7, 15, 11, 8, 6, 6, 14, 12, 13, 5, 14, 13, 13, 7, 5,
      15, 5, 8, 11, 14, 14, 6, 14, 6, 9, 12, 9, 12, 5, 15, 8,
      8, 5, 12, 9, 12, 5, 14, 6, 8, 13, 6, 5, 15, 13, 11, 11]
  constants := [0x50a28be6, 0x5c4dd124, 0x6d703ef3, 0x7a6d76e9, 0x00000000]

structure State where
  a : Nat
  b : Nat
  c : Nat
  d : Nat
  e : Nat

def initial : State := ⟨0x67452301, 0xefcdab89, 0x98badcfe, 0x10325476, 0xc3d2e1f0⟩

open TwosComplement in
/-- The mixing function of a round; its value is an integer of either sign. -/
def mix (round : Nat) (x y z : Int) : Int :=
  match round with
  | 0 => lxor (lxor x y) z
  | 1 => lor (land x y) (land (complement x) z)
  | 2 => lxor (lor x (complement y)) z
  | 3 => lor (land x z) (land y (complement z))
  | _ => lxor x (lor y (complement z))

def rotateLeft (value : Int) (bits : Nat) : Nat :=
  let word := TwosComplement.low32 value
  ((word <<< bits) ||| (word >>> (32 - bits))) % 0x100000000

/-- One step; the sum of mixed, message and constant words is reduced only by the rotation. -/
def step (mixRound : Nat) (message constant : Nat) (shift : Nat) (s : State) : State :=
  let sum : Int := s.a + mix mixRound s.b s.c s.d + message + constant
  ⟨s.e, (rotateLeft sum shift + s.e) % 0x100000000, s.b, rotateLeft s.c 10, s.d⟩

def stepBoth (message : List Nat) (lines : State × State) (j : Nat) : State × State :=
  let round := j / 16
  (step round (message.getD (leftLine.words.getD j 0) 0) (leftLine.constants.getD round 0)
      (leftLine.shifts.getD j 0) lines.1,
    step (4 - round) (message.getD (rightLine.words.getD j 0) 0)
      (rightLine.constants.getD round 0) (rightLine.shifts.getD j 0) lines.2)

def compress (s : State) (block : Bytes) : State :=
  let message := (block.chunks 4).map Bytes.toNatLE
  let (left, right) := (List.range 80).foldl (stepBoth message) (s, s)
  ⟨(s.b + left.c + right.d) % 0x100000000, (s.c + left.d + right.e) % 0x100000000,
    (s.d + left.e + right.a) % 0x100000000, (s.e + left.a + right.b) % 0x100000000,
    (s.a + left.b + right.c) % 0x100000000⟩

/-- The message, a marker byte, zeros up to eight bytes short of a block, and the bit length. -/
def pad (message : Bytes) : Bytes :=
  message ++ 0x80 ::
    (List.replicate ((119 - message.length % 64) % 64) 0 ++ Bytes.ofNatLE 8 (8 * message.length))

def State.toBytes (s : State) : Bytes :=
  [s.a, s.b, s.c, s.d, s.e].flatMap (Bytes.ofNatLE 4)

def digest (message : Bytes) : Bytes :=
  (((pad message).chunks 64).foldl compress initial).toBytes

@[simp] theorem length_digest (message : Bytes) : (digest message).length = 20 := by
  simp [digest, State.toBytes]

end Ripemd160

end SpendingPlan

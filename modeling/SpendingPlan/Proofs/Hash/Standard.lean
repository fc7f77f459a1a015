import Mathlib.Algebra.Ring.Nat
import Mathlib.Data.Nat.NthRoot.Defs
import Mathlib.Logic.Function.Iterate
import SpendingPlan.Proofs.Bytes.Chunks

/-!
RIPEMD-160 on words of 32 bits. Word orders, rotations and constants follow the rules that they are
made by, not tables with an entry for each step.
-/

namespace SpendingPlan.Ripemd160.Standard

abbrev Word := BitVec 32

structure Registers where
  a : Word
  b : Word
  c : Word
  d : Word
  e : Word

def initial : Registers := ⟨0x67452301, 0xefcdab89, 0x98badcfe, 0x10325476, 0xc3d2e1f0⟩

def mix (round : Nat) (x y z : Word) : Word :=
  match round with
  | 0 => x ^^^ y ^^^ z
  | 1 => (x &&& y) ||| (~~~x &&& z)
  | 2 => (x ||| ~~~y) ^^^ z
  | 3 => (x &&& z) ||| (y &&& ~~~z)
  | _ => x ^^^ (y ||| ~~~z)

/-- How the message words change places from one round to the next. -/
def rho (i : Nat) : Nat := [7, 4, 13, 1, 10, 6, 15, 3, 12, 0, 9, 5, 2, 14, 11, 8].getD i 0

/-- By how much a step rotates; this depends on the round and the message word, not on the line. -/
def rotation (round word : Nat) : Nat :=
  ([[11, 14, 15, 12, 5, 8, 7, 9, 11, 13, 14, 15, 6, 7, 9, 8],
    [12, 13, 11, 15, 6, 9, 9, 7, 12, 15, 11, 13, 7, 8, 7, 7],
    [13, 15, 14, 11, 7, 7, 6, 8, 13, 14, 13, 12, 5, 5, 6, 9],
    [14, 11, 12, 14, 8, 6, 5, 5, 15, 12, 15, 14, 9, 9, 8, 6],
    [15, 12, 13, 13, 9, 5, 8, 6, 14, 11, 12, 11, 8, 6, 5, 5]].getD round []).getD word 0

structure Line where
  mixRound : Nat → Nat
  constant : Nat → Word
  word : Nat → Nat

/-- The integer part of `2 ^ 30` times a root of `n`. -/
def scaledRoot (degree n : Nat) : Word :=
  BitVec.ofNat 32 (Nat.nthRoot degree (n * 2 ^ (30 * degree)))

def left : Line where
  mixRound round := round
  constant round := scaledRoot 2 ([0, 2, 3, 5, 7].getD round 0)
  word j := rho^[j / 16] (j % 16)

def right : Line where
  mixRound round := 4 - round
  constant round := scaledRoot 3 ([2, 3, 5, 7, 0].getD round 0)
  word j := rho^[j / 16] ((9 * (j % 16) + 5) % 16)

def step (mixRound : Nat) (message constant : Word) (shift : Nat) (r : Registers) : Registers :=
  ⟨r.e, (r.a + mix mixRound r.b r.c r.d + message + constant).rotateLeft shift + r.e, r.b,
    r.c.rotateLeft 10, r.d⟩

def Line.step (line : Line) (message : Nat → Word) (r : Registers) (j : Nat) : Registers :=
  Standard.step (line.mixRound (j / 16)) (message (line.word j)) (line.constant (j / 16))
    (rotation (j / 16) (line.word j)) r

def Line.run (line : Line) (message : Nat → Word) (h : Registers) (steps : Nat) : Registers :=
  (List.range steps).foldl (line.step message) h

theorem Line.run_succ (line : Line) (message : Nat → Word) (h : Registers) (steps : Nat) :
    line.run message h (steps + 1) = line.step message (line.run message h steps) steps := by
  rw [run, List.range_succ, List.foldl_append]
  rfl

def compress (h : Registers) (message : Nat → Word) : Registers :=
  let l := left.run message h 80
  let r := right.run message h 80
  ⟨h.b + l.c + r.d, h.c + l.d + r.e, h.d + l.e + r.a, h.e + l.a + r.b, h.a + l.b + r.c⟩

/-- A one bit, zeros and the length in bits fill the message up to whole blocks, as few of them as
    there can be. -/
def padded (message : Bytes) : Bytes :=
  let size := (message.length + 9 + 63) / 64 * 64
  message ++ [0x80] ++ List.replicate (size - (message.length + 9)) 0 ++
    Bytes.ofNatLE 8 (8 * message.length)

def word (bytes : Bytes) (i : Nat) : Word := BitVec.ofNat 32 (Bytes.slice 4 bytes i).toNatLE

def chain (bytes : Bytes) : Nat → Registers
  | 0 => initial
  | blocks + 1 => compress (chain bytes blocks) fun i => word bytes (16 * blocks + i)

def digest (message : Bytes) : Bytes :=
  let h := chain (padded message) ((padded message).length / 64)
  [h.a, h.b, h.c, h.d, h.e].flatMap fun word => Bytes.ofNatLE 4 word.toNat

end SpendingPlan.Ripemd160.Standard

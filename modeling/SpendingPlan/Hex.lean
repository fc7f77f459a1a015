import SpendingPlan.Bytes
import SpendingPlan.Text.Character

namespace SpendingPlan.Hex

def digit (n : Nat) : Char := Char.ofNat (if n < 10 then 48 + n else 87 + n)

def value? (c : Char) : Option Nat :=
  let n := c.toNat
  if 48 ≤ n ∧ n ≤ 57 then some (n - 48)
  else if 97 ≤ n ∧ n ≤ 102 then some (n - 87)
  else if 65 ≤ n ∧ n ≤ 70 then some (n - 55)
  else none

def digits (byte : UInt8) : List Char := [digit (byte.toNat / 16), digit (byte.toNat % 16)]

def encodeChars (bytes : Bytes) : List Char := bytes.flatMap digits

def encode (bytes : Bytes) : String := String.ofList (encodeChars bytes)

def decodeFrom (read : Bytes) : List Char → Option Bytes
  | [] => some read.reverse
  | c :: rest =>
    if Text.isAsciiBlank c then decodeFrom read rest
    else
      match rest with
      | [] => none
      | d :: rest =>
        match value? c, value? d with
        | some high, some low => decodeFrom (UInt8.ofNat (16 * high + low) :: read) rest
        | _, _ => none

/-- Pairs of hex digits of either case; blanks may stand between pairs but not inside one. -/
def decode (text : List Char) : Option Bytes := decodeFrom [] text

def natDigits (width n : Nat) : List Char :=
  let shown := (Nat.toDigits 16 n)
  List.replicate (width - shown.length) '0' ++ shown

theorem value?_digit : ∀ n, n < 16 → value? (digit n) = some n := by decide

end SpendingPlan.Hex

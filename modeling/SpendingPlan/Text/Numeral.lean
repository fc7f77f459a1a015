import SpendingPlan.Text.Character

namespace SpendingPlan.Text.Numeral

def hexValue? (c : Char) : Option Nat :=
  let n := c.toNat
  if 97 ≤ n ∧ n ≤ 102 then some (n - 87)
  else if 65 ≤ n ∧ n ≤ 70 then some (n - 55)
  else decimalValue? c

/-- Digits with single underscores between them, at least one digit; `afterDigit` tells whether
    an underscore may come next. -/
def hexDigits (value : Nat) (afterDigit : Bool) : List Char → Option Nat
  | [] => if afterDigit then some value else none
  | c :: rest =>
    if c = '_' then if afterDigit then hexDigits value false rest else none
    else
      match hexValue? c with
      | some digit => hexDigits (16 * value + digit) true rest
      | none => none

def unsignedHex (text : List Char) : Option Nat :=
  match text with
  | c :: d :: rest =>
    if decimalValue? c = some 0 ∧ (d = 'x' ∨ d = 'X') then
      match rest with
      | '_' :: rest => hexDigits 0 false rest
      | rest => hexDigits 0 false rest
    else hexDigits 0 false text
  | _ => hexDigits 0 false text

def hex (text : List Char) : Option Int :=
  match trim isNumeralBlank text with
  | '-' :: rest => (unsignedHex rest).map fun n => -(n : Int)
  | '+' :: rest => (unsignedHex rest).map fun n => (n : Int)
  | body => (unsignedHex body).map fun n => (n : Int)

def maxDecimalDigits : Nat := 4300

def decimalDigits (value : Nat) : List Char → Option Nat
  | [] => some value
  | c :: rest =>
    match decimalValue? c with
    | some digit => decimalDigits (10 * value + digit) rest
    | none => none

def decimal (text : List Char) : Option Nat :=
  if text = [] ∨ maxDecimalDigits < text.length then none else decimalDigits 0 text

end SpendingPlan.Text.Numeral

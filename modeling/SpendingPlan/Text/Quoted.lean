import SpendingPlan.Hex
import SpendingPlan.Text.Printable

namespace SpendingPlan.Text.Quoted

def singleQuote : Char := '\x27'

def doubleQuote : Char := '\x22'

def backslash : Char := '\x5c'

/-- Single quotes, unless the text holds one of them and no double quote. -/
def quoteFor (text : List Char) : Char :=
  if text.contains singleQuote && !text.contains doubleQuote then doubleQuote else singleQuote

def namedEscape? (quote c : Char) : Option (List Char) :=
  if c = quote ∨ c = backslash then some [backslash, c]
  else if c = '\t' then some [backslash, 't']
  else if c = '\n' then some [backslash, 'n']
  else if c = '\r' then some [backslash, 'r']
  else none

def numberedEscape (n : Nat) : List Char :=
  if n ≤ 0xff then backslash :: 'x' :: Hex.natDigits 2 n
  else if n ≤ 0xffff then backslash :: 'u' :: Hex.natDigits 4 n
  else backslash :: 'U' :: Hex.natDigits 8 n

def escape (quote c : Char) : List Char :=
  (namedEscape? quote c).getD (if isPrintable c then [c] else numberedEscape c.toNat)

def text (content : String) : String :=
  let chars := content.toList
  let quote := quoteFor chars
  String.ofList (quote :: chars.flatMap (escape quote) ++ [quote])

def escapeByte (quote c : Char) : List Char :=
  (namedEscape? quote c).getD
    (if 0x20 ≤ c.toNat ∧ c.toNat < 0x7f then [c] else numberedEscape c.toNat)

def bytes (content : Bytes) : String :=
  let chars := content.map fun byte => Char.ofNat byte.toNat
  let quote := quoteFor chars
  String.ofList ('b' :: quote :: chars.flatMap (escapeByte quote) ++ [quote])

end SpendingPlan.Text.Quoted

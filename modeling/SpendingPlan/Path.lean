import SpendingPlan.Bytes
import SpendingPlan.Error
import SpendingPlan.Text.Numeral

namespace SpendingPlan

/-- Child indexes from a master key down; the upper half of the 32-bit range is hardened. -/
abbrev Path := List Int

namespace Path

def hardenedBit : Nat := 0x80000000

def isHardenedMark (c : Char) : Bool := c = '\x27' || c = 'h' || c = 'H'

def parseIndex (text : List Char) : Except Error Nat :=
  let marked := text.getLast?.any isHardenedMark
  let digits := if marked then text.dropLast else text
  if digits = [] ∨ !digits.all Text.isDigit then
    .error (.pathElement (String.ofList digits))
  else
    match Text.Numeral.decimal digits with
    | none => .error .malformedNumeral
    | some index =>
      if hardenedBit ≤ index then .error (.indexTooLarge index)
      else .ok (if marked then index + hardenedBit else index)

def pieces (text : List Char) : List (List Char) := text.splitOn '/'

/-- Indexes between slashes, after an optional `m`; empty elements are passed over. -/
def parse (text : String) : Except Error Path := do
  let elements :=
    match pieces (Text.trimEnd (· = '/') text.toList) with
    | ['m'] :: rest => rest
    | elements => elements
  return (← (elements.filter (· ≠ [])).mapM parseIndex).map Int.ofNat

def defaultMark : String := "h"

def renderIndex (mark : String) (index : Int) : Except Error String :=
  if index < 0 ∨ 0xffffffff < index then .error (.indexOutOfRange index)
  else if (hardenedBit : Int) ≤ index then .ok s!"/{index - hardenedBit}{mark}"
  else .ok s!"/{index}"

inductive Element
  | index (n : Int)
  | text (s : String)
deriving DecidableEq, Repr

def Element.render (mark : String) : Element → Except Error String
  | .index n => renderIndex mark n
  | .text s => .error (.indexNotNumber s)

def renderElements (mark : String) (elements : List Element) : Except Error String := do
  return String.join (← elements.mapM (Element.render mark))

def renderFromMaster (mark : String) (elements : List Element) : Except Error String := do
  return "m" ++ (← renderElements mark elements)

def render (mark : String) (path : Path) : Except Error String :=
  renderFromMaster mark (path.map .index)

end Path

end SpendingPlan

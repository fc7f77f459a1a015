import SpendingPlan.Bytes
import SpendingPlan.CompactSize
import SpendingPlan.Hash.Sha256
import SpendingPlan.Hex
import SpendingPlan.Text.Quoted

namespace SpendingPlan

def opcodes : List (String × UInt8) :=
  [("OP_0", 0x00), ("OP_FALSE", 0x00), ("OP_PUSHDATA1", 0x4c), ("OP_PUSHDATA2", 0x4d),
    ("OP_PUSHDATA4", 0x4e), ("OP_1NEGATE", 0x4f), ("OP_TRUE", 0x51), ("OP_NOP", 0x61),
    ("OP_IF", 0x63), ("OP_NOTIF", 0x64), ("OP_ELSE", 0x67), ("OP_ENDIF", 0x68),
    ("OP_VERIFY", 0x69), ("OP_RETURN", 0x6a), ("OP_TOALTSTACK", 0x6b), ("OP_FROMALTSTACK", 0x6c),
    ("OP_IFDUP", 0x73), ("OP_DEPTH", 0x74), ("OP_DROP", 0x75), ("OP_DUP", 0x76),
    ("OP_NIP", 0x77), ("OP_OVER", 0x78), ("OP_SWAP", 0x7c), ("OP_SIZE", 0x82),
    ("OP_EQUAL", 0x87), ("OP_EQUALVERIFY", 0x88), ("OP_1ADD", 0x8b), ("OP_NOT", 0x91),
    ("OP_0NOTEQUAL", 0x92), ("OP_ADD", 0x93), ("OP_BOOLAND", 0x9a), ("OP_BOOLOR", 0x9b),
    ("OP_NUMEQUAL", 0x9c), ("OP_NUMEQUALVERIFY", 0x9d), ("OP_RIPEMD160", 0xa6),
    ("OP_SHA256", 0xa8), ("OP_HASH160", 0xa9), ("OP_HASH256", 0xaa), ("OP_CHECKSIG", 0xac),
    ("OP_CHECKSIGVERIFY", 0xad), ("OP_CHECKMULTISIG", 0xae), ("OP_CHECKMULTISIGVERIFY", 0xaf),
    ("OP_CHECKSIGADD", 0xba), ("OP_CHECKLOCKTIMEVERIFY", 0xb1), ("OP_CHECKSEQUENCEVERIFY", 0xb2),
    ("OP_1", 0x51), ("OP_2", 0x52), ("OP_3", 0x53), ("OP_4", 0x54), ("OP_5", 0x55),
    ("OP_6", 0x56), ("OP_7", 0x57), ("OP_8", 0x58), ("OP_9", 0x59), ("OP_10", 0x5a),
    ("OP_11", 0x5b), ("OP_12", 0x5c), ("OP_13", 0x5d), ("OP_14", 0x5e), ("OP_15", 0x5f),
    ("OP_16", 0x60)]

def opcode? (name : String) : Option UInt8 := opcodes.lookup name

/-- A number, or a word that names an operation or spells data in hex. -/
inductive Token
  | number (n : Int)
  | word (text : String)
deriving DecidableEq, Repr

structure Script where
  tokens : List Token
deriving DecidableEq, Repr

namespace Script

def push (data : Bytes) : Except Error Bytes :=
  let length := data.length
  if length < 0x4c then .ok (Bytes.ofNatLE 1 length ++ data)
  else if length ≤ 0xff then .ok (0x4c :: (Bytes.ofNatLE 1 length ++ data))
  else if length ≤ 0xffff then .ok (0x4d :: (Bytes.ofNatLE 2 length ++ data))
  else if length ≤ 0xffffffff then .ok (0x4e :: (Bytes.ofNatLE 4 length ++ data))
  else .error .pushTooLarge

def byteWidth (n : Nat) : Nat := if n = 0 then 0 else Nat.log2 n / 8 + 1

/-- Little-endian bytes whose top bit stays clear, as it is the sign. -/
def numberPayload (n : Nat) : Bytes :=
  let width := byteWidth n
  let magnitude := Bytes.ofNatLE width n
  if 0 < width ∧ n.testBit (8 * width - 1) then magnitude ++ [0] else magnitude

def smallNumber (n : Nat) : UInt8 := if n = 0 then 0 else UInt8.ofNat (0x50 + n)

end Script

def Token.encode : Token → Except Error Bytes
  | .number n =>
    if n < 0 then .error .negativeNumber
    else if n ≤ 16 then .ok [Script.smallNumber n.toNat]
    else Script.push (Script.numberPayload n.toNat)
  | .word text =>
    match opcode? text with
    | some code => .ok [code]
    | none =>
      match Hex.decode text.toList with
      | some data => Script.push data
      | none => .error .malformedHex

def Token.describe : Token → String
  | .number n => toString n
  | .word text => Text.Quoted.text text

namespace Script

def encode (script : Script) : Except Error Bytes := do
  return (← script.tokens.mapM Token.encode).flatten

def listing (script : Script) : String :=
  "[" ++ ", ".intercalate (script.tokens.map Token.describe) ++ "]"

def describe (script : Script) : String := s!"Script({script.listing})"

/-- Two scripts are the same when they encode alike, so that names and numbers may be mixed. -/
def same (a b : Script) : Except Error Bool := do
  let left ← a.encode
  let right ← b.encode
  return left = right

def hexWord (data : Bytes) : Token := .word (Hex.encode data)

def payToScriptHash (script : Script) : Except Error Script := do
  return ⟨[.word "OP_HASH160", hexWord (hash160 (← script.encode)), .word "OP_EQUAL"]⟩

def payToWitnessScriptHash (script : Script) : Except Error Script := do
  return ⟨[.word "OP_0", hexWord (Sha256.digest (← script.encode))]⟩

inductive Element
  | push (data : Bytes)
  | code (value : UInt8)
deriving DecidableEq, Repr

def readPush (width : Nat) (bytes : Bytes) : Option (Element × Bytes) := do
  let (size, rest) ← CompactSize.readFixed width bytes
  let (data, rest) ← Bytes.split? size rest
  return (.push data, rest)

def readElement : Bytes → Option (Element × Bytes)
  | [] => none
  | first :: rest =>
    if first < 0x4c then
      (Bytes.split? first.toNat rest).map fun (data, rest) => (.push data, rest)
    else if first = 0x4c then readPush 1 rest
    else if first = 0x4d then readPush 2 rest
    else if first = 0x4e then readPush 4 rest
    else some (.code first, rest)

def readWithin : Nat → Bytes → Option (List Element)
  | _, [] => some []
  | 0, _ => none
  | fuel + 1, bytes => do
    let (element, rest) ← readElement bytes
    return element :: (← readWithin fuel rest)

/-- Every element takes a byte or more, so as many elements as bytes suffice. -/
def read (bytes : Bytes) : Option (List Element) := readWithin bytes.length bytes

/-- The number that pushed bytes stand for: little-endian magnitude, the top bit its sign. -/
def readNumber (bytes : Bytes) : Int :=
  let magnitude := bytes.toNatLE
  let sign := 8 * bytes.length - 1
  if magnitude.testBit sign then -((magnitude - 1 <<< sign : Nat) : Int) else magnitude

end Script

end SpendingPlan

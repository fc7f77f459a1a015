import SpendingPlan.CompactSize
import SpendingPlan.Input.Basic

namespace SpendingPlan.Input

abbrev Pair := Bytes × Bytes

def single (type : UInt8) (value : Option Bytes) : List Pair :=
  (value.map fun value => ([type], value)).toList

def encodeAmount (amount : Int) : Except Error Bytes :=
  if amount < -0x8000000000000000 ∨ 0x7fffffffffffffff < amount then .error .fieldOutOfRange
  else .ok (Bytes.ofNatLE 8 (amount % 0x10000000000000000).toNat)

def encodeOutput (output : Int × Script) : Except Error Bytes := do
  let amount ← encodeAmount output.1
  let script ← output.2.encode
  return amount ++ (← CompactSize.frame script)

def encodeSighash (type : Int) : Except Error Bytes :=
  if type < 0 ∨ 0xffffffff < type then .error .fieldOutOfRange
  else .ok (Bytes.ofNatLE 4 type.toNat)

def encodeWitness (items : List Bytes) : Except Error (Option Bytes) := do
  if items = [] then return none
  let count ← CompactSize.encode items.length
  return some (count ++ (← items.mapM CompactSize.frame).flatten)

def encodeLeafScript (entry : LeafScript) : Except Error Bytes := do
  let script ← entry.script.encode
  return script ++ [← Taproot.byte entry.version]

def encodeTapOrigin (value : List Bytes × KeyOrigin) : Except Error Bytes := do
  let count ← CompactSize.encode value.1.length
  return count ++ value.1.flatten ++ (← value.2.encode)

def lePair (a b : Bytes × Bytes) : Bool := if a.1 = b.1 then Bytes.le a.2 b.2 else Bytes.le a.1 b.1

def encodeTable {κ ν : Type} (type : UInt8) (le : κ → κ → Bool) (keyBytes : κ → Bytes)
    (encodeValue : ν → Except Error Bytes) (table : Table κ ν) : Except Error (List Pair) :=
  (table.sorted le).mapM fun entry => do
    return (type :: keyBytes entry.1, ← encodeValue entry.2)

def knownPairs (input : Input) : Except Error (List Pair) := do
  let previousOutput ← input.previousOutput.mapM encodeOutput
  let partialSignatures ← encodeTable 0x02 Bytes.le id .ok input.partialSignatures
  let sighashType ← input.sighashType.mapM encodeSighash
  let redeemScript ← input.redeemScript.mapM Script.encode
  let witnessScript ← input.witnessScript.mapM Script.encode
  let keyOrigins ← encodeTable 0x06 Bytes.le id KeyOrigin.encode input.keyOrigins
  let finalScriptSig ← input.finalScriptSig.mapM Script.encode
  let finalWitness ← encodeWitness input.finalWitness
  let tapScriptSignatures ←
    encodeTable 0x14 lePair (fun key => key.1 ++ key.2) .ok input.tapScriptSignatures
  let tapScripts ← encodeTable 0x15 Bytes.le id encodeLeafScript input.tapScripts.table
  let tapKeyOrigins ← encodeTable 0x16 Bytes.le id encodeTapOrigin input.tapKeyOrigins
  return single 0x00 input.previousTransaction ++ single 0x01 previousOutput ++
    partialSignatures ++ single 0x03 sighashType ++ single 0x04 redeemScript ++
    single 0x05 witnessScript ++ keyOrigins ++ single 0x07 finalScriptSig ++
    single 0x08 finalWitness ++ single 0x13 input.tapKeySignature ++ tapScriptSignatures ++
    tapScripts ++ tapKeyOrigins ++ single 0x17 input.tapInternalKey ++
    single 0x18 input.tapMerkleRoot

/-- All pairs: those of known types, then the unknown ones, whose keys hold their types. -/
def pairs (input : Input) : Except Error (List Pair) := do
  return (← input.knownPairs) ++ input.unknown.sorted Bytes.le

def encodePair (pair : Pair) : Except Error Bytes := do
  return (← CompactSize.frame pair.1) ++ (← CompactSize.frame pair.2)

def encode (input : Input) : Except Error Bytes := do
  return (← (← input.pairs).mapM encodePair).flatten ++ [0]

def readPairsWithin : Nat → Bytes → Option (List Pair × Bytes)
  | 0, _ => none
  | fuel + 1, bytes => do
    let (key, rest) ← CompactSize.readFrame bytes
    if key = [] then return ([], rest)
    let (value, rest) ← CompactSize.readFrame rest
    let (pairs, rest) ← readPairsWithin fuel rest
    return ((key, value) :: pairs, rest)

/-- Every pair takes bytes, so no map has more pairs than bytes. -/
def readPairs (bytes : Bytes) : Option (List Pair × Bytes) :=
  readPairsWithin bytes.length bytes

end SpendingPlan.Input

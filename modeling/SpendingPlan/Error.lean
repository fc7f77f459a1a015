namespace SpendingPlan

/-- What can go wrong; `Error.message` has the wording of the causes that have one. -/
inductive Error
  | malformedHex
  | malformedNumeral
  | byteOutOfRange
  /-- A number too wide for its place in an encoding. -/
  | fieldOutOfRange
  | coordinateOutOfRange
  /-- Coordinates of no point, or a multiplier of none. -/
  | pointRejected
  | pointAtInfinity
  | notAScript
  | noSpendInfo
  | notAKey
  | noMerklePath
  | countTooLarge (count : Int)
  | pushTooLarge
  | negativeNumber
  | branchTooWide
  | tweakTooLarge
  | internalKeyOffCurve
  | secretLength
  | uncompressedForm
  | compressedForm
  | keyOffCurve
  | keyLength (bytes : Nat)
  | pathElement (text : String)
  | indexTooLarge (index : Nat)
  | indexNotNumber (text : String)
  | indexOutOfRange (index : Int)
  | fingerprintLength
  | merklePathLength
  | merklePathDepth
  | controlBlockLength (bytes : Nat)
  | notALeaf (script : String)
  | threshold (required : Int) (keys : Nat)
  | bareInner
  | wshInner
  | shInner (kind : String)
  | unknownDescriptor (kind : String)
  | mixedSpends
  | taprootApart
deriving DecidableEq, Repr

inductive Error.Kind
  | value
  | type
  | attribute
  | assertion
  | overflow
  | layout
  | point
deriving DecidableEq, Repr

def Error.kind : Error → Error.Kind
  | .fieldOutOfRange => .layout
  | .coordinateOutOfRange => .overflow
  | .pointRejected => .point
  | .pointAtInfinity | .notAScript | .noSpendInfo => .attribute
  | .notAKey | .uncompressedForm | .compressedForm | .indexNotNumber _ | .bareInner | .wshInner
  | .shInner _ | .unknownDescriptor _ => .type
  | .noMerklePath | .mixedSpends | .taprootApart => .assertion
  | _ => .value

def Error.message : Error → Option String
  | .countTooLarge count => some s!"Integer is too large: {count}"
  | .pushTooLarge => some "Data too large. Cannot push into script"
  | .negativeNumber => some "Integer is currently required to be positive."
  | .branchTooWide => some "Invalid Merkle branch: List cannot have more than 2 branches."
  | .tweakTooLarge => some "Taproot tweak is larger than the curve order"
  | .internalKeyOffCurve => some "Internal key is not a valid x coordinate"
  | .secretLength => some "Invalid key length: must be exactly 32 bytes."
  | .uncompressedForm => some "Invalid SEC uncompressed format"
  | .compressedForm => some "Invalid SEC compressed format"
  | .keyOffCurve => some "Public key is not on the secp256k1 curve"
  | .keyLength bytes => some s!"Invalid public key length: {bytes} bytes"
  | .pathElement text => some s!"failed to parse bip32 path element: {text}"
  | .indexTooLarge index => some s!"bip32 path child index too large: {index}"
  | .indexNotNumber text => some s!"bip32 path child index must be int: {text}"
  | .indexOutOfRange index => some s!"bip32 path child index out of range: {index}"
  | .fingerprintLength => some "Master fingerprint must be exactly 4 bytes"
  | .merklePathLength => some "Merkle path must be a multiple of 32 bytes"
  | .merklePathDepth => some "Merkle path is too long"
  | .controlBlockLength bytes => some s!"Control block is too short: {bytes} bytes"
  | .notALeaf script => some s!"Script {script} is not a leaf of the tree"
  | .threshold required keys => some s!"Invalid multisig threshold {required} of {keys}"
  | .bareInner => some "Bare descriptor requires a script"
  | .wshInner => some "Wsh descriptor requires a sortedmulti or miniscript"
  | .shInner kind => some s!"Invalid inner descriptor for sh: {kind}"
  | .unknownDescriptor kind => some s!"Unknown descriptor type: {kind}"
  | .mixedSpends =>
    some "Mixed taproot key-spend and script-spend placeholders in the same plan"
  | .taprootApart => some "Tr is dealt with separately"
  | _ => none

end SpendingPlan

import SpendingPlan.Bytes
import SpendingPlan.Error

namespace SpendingPlan.CompactSize

def encode (n : Int) : Except Error Bytes :=
  if n < 0 then .error .byteOutOfRange
  else if n < 0xfd then .ok (Bytes.ofNatLE 1 n.toNat)
  else if n < 0x10000 then .ok (0xfd :: Bytes.ofNatLE 2 n.toNat)
  else if n < 0x100000000 then .ok (0xfe :: Bytes.ofNatLE 4 n.toNat)
  else if n < 0x10000000000000000 then .ok (0xff :: Bytes.ofNatLE 8 n.toNat)
  else .error (.countTooLarge n)

def frame (bytes : Bytes) : Except Error Bytes := do
  return (← encode bytes.length) ++ bytes

def readFixed (width : Nat) (bytes : Bytes) : Option (Nat × Bytes) :=
  (bytes.split? width).map fun (front, rest) => (front.toNatLE, rest)

def read : Bytes → Option (Nat × Bytes)
  | [] => none
  | first :: rest =>
    if first = 0xfd then readFixed 2 rest
    else if first = 0xfe then readFixed 4 rest
    else if first = 0xff then readFixed 8 rest
    else some (first.toNat, rest)

def readFrame (bytes : Bytes) : Option (Bytes × Bytes) :=
  (read bytes).bind fun (size, rest) => rest.split? size

end SpendingPlan.CompactSize

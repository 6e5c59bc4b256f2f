/-! The 16-bit cyclic redundancy check with generator 0x1021 that starts from
all ones and takes each byte from its most significant bit. -/

namespace TwinStick

namespace Checksum

/-- Multiplies the register by x modulo the generator. -/
def shift (register : BitVec 16) : BitVec 16 :=
  if register.msb then (register <<< 1) ^^^ 0x1021#16 else register <<< 1

def feed (register : BitVec 16) (byte : UInt8) : BitVec 16 :=
  Nat.repeat shift 8 (register ^^^ (byte.toBitVec.setWidth 16 <<< 8))

end Checksum

def checksum (bytes : List UInt8) : UInt16 :=
  ⟨bytes.foldl Checksum.feed 0xFFFF#16⟩

end TwinStick

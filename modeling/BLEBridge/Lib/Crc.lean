import BLEBridge.Lib.Bytes
/-!
# Bit-reflected cyclic redundancy checks

A shift register of any width, fed with bytes least significant bit first.
-/

namespace Lib

variable {w : Nat}

/-- One step of the register: shift right, and add `poly` if a one fell out. -/
def crcBit (poly crc : BitVec w) : BitVec w := (crc >>> 1) ^^^ (poly &&& (0 - (crc &&& 1)))

/-- Feed one byte. -/
def crcByte (poly crc : BitVec w) (b : UInt8) : BitVec w := (crcBit poly)^[8] (crc ^^^ b.toBitVec.setWidth w)

/-- Feed a byte string. -/
def crcUpdate (poly crc : BitVec w) (data : Bytes) : BitVec w := data.foldl (crcByte poly) crc

end Lib

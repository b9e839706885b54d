import CredentialIntake.Bytes

/-!
# CRC-32

The cyclic redundancy check a gzip trailer carries: the reflected polynomial
`0xEDB88320`, a register that starts as all ones, and the final register
inverted.
-/

namespace CredentialIntake.Checksum

/-- Moves the register by one bit. -/
def shiftBit (register : UInt32) : UInt32 :=
  if register % 2 = 1 then (register >>> 1) ^^^ 0xEDB88320 else register >>> 1

/-- Takes one byte into the register, the low bit first. -/
def takeByte (register : UInt32) (byte : UInt8) : UInt32 :=
  shiftBit (shiftBit (shiftBit (shiftBit (shiftBit (shiftBit (shiftBit (shiftBit
    (register ^^^ byte.toUInt32))))))))

def crc32 (bytes : Bytes) : UInt32 := bytes.foldl takeByte 0xFFFFFFFF ^^^ 0xFFFFFFFF

end CredentialIntake.Checksum

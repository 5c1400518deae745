/-!
# The cyclic redundancy check of archives

The 32-bit check with the reflected polynomial `0xedb88320`, as archives store it.
-/

namespace FlowCalibration

namespace Checksum

/-- The register after one bit. -/
def shiftBit (register : UInt32) : UInt32 :=
  if register &&& 1 = 1 then (register >>> 1) ^^^ 0xedb88320 else register >>> 1

/-- The register after one byte. -/
def shiftByte (register : UInt32) (byte : UInt8) : UInt32 :=
  Nat.repeat shiftBit 8 (register ^^^ byte.toUInt32)

/-- The check of a list of bytes. -/
def ofBytes (bytes : List UInt8) : UInt32 :=
  bytes.foldl shiftByte 0xffffffff ^^^ 0xffffffff

end Checksum

end FlowCalibration

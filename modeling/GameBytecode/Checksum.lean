import GameBytecode.Text.Utf8

/-!
The checksum of a module: a shift register of 16 bits over the bits of the input, most significant
first, with polynomial x^16 + x^12 + x^5 + 1 and all bits set at the start.
-/
namespace GameBytecode.Checksum
open Text (Bytes)

/-- Shifts one zero bit through the register. -/
def shift (register : UInt16) : UInt16 :=
  if 0x8000 ≤ register then (register <<< 1) ^^^ 0x1021 else register <<< 1

/-- Takes in one byte. -/
def next (register : UInt16) (byte : UInt8) : UInt16 :=
  Nat.repeat shift 8 (register ^^^ (byte.toUInt16 <<< 8))

def crc16 (bytes : Bytes) : UInt16 := bytes.foldl next 0xffff

end GameBytecode.Checksum

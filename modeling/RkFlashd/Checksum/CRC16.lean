import RkFlashd.Text.Bytes

/-! CRC16-CCITT of `checksum.h`, bit by bit on a 16-bit register. -/
namespace Checksum

open Text

/-- The register `crc_`. -/
structure CRC16 where
  crc_ : UInt16
  deriving DecidableEq, Repr

namespace CRC16

def reset : CRC16 := ⟨0xFFFF⟩

/-- One turn of the inner loop. -/
def shift (crc : UInt16) : UInt16 :=
  if crc &&& 0x8000 ≠ 0 then (crc <<< 1) ^^^ 0x1021 else crc <<< 1

/-- One turn of the outer loop. -/
def update_byte (crc : UInt16) (byte : UInt8) : UInt16 :=
  shift^[8] (crc ^^^ (byte.toUInt16 <<< 8))

def update (c : CRC16) (data : Bytes) : CRC16 := ⟨data.foldl update_byte c.crc_⟩

def digest (c : CRC16) : UInt16 := c.crc_

end CRC16

def crc16_compute (data : Bytes) : UInt16 := (CRC16.reset.update data).digest

example : crc16_compute (str "123456789") = 0x29B1 := by decide +kernel

end Checksum

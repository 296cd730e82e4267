import Mathlib.Data.List.Basic
import Mathlib.Logic.Function.Iterate

set_option relaxedAutoImplicit false
set_option autoImplicit false

/-!
# The checksum of `ios_mcp/source/utils.c`

## Main definitions

* `RecoveryMenu.Crc32.crc32`: the reflected CRC with polynomial `0xedb88320`, without the final
  complement.

## References

* `ios_mcp/source/utils.c`, lines 205-221.
-/

namespace RecoveryMenu

namespace Crc32

/-- One turn of the inner loop: the lowest bit decides whether the polynomial is added. -/
def crcBit (crc : UInt32) : UInt32 :=
  let mult : UInt32 := if crc &&& 1 ≠ 0 then 0xedb88320 else 0
  (crc >>> 1) ^^^ mult

/-- One turn of the outer loop, for the byte `b`. -/
def crcByte (crc : UInt32) (b : UInt8) : UInt32 := crcBit^[8] (crc ^^^ b.toUInt32)

/-- `crc32(seed, data, len)`, with the `len` bytes at `data`. -/
def crc32 (seed : UInt32) (data : List UInt8) : UInt32 := data.foldl crcByte seed

/-- The well-known check value of this CRC. -/
example : ~~~crc32 0xffffffff [0x31, 0x32, 0x33, 0x34, 0x35, 0x36, 0x37, 0x38, 0x39] =
    0xcbf43926 := by decide +kernel

end Crc32

end RecoveryMenu

import Mathlib.Data.Int.Notation

set_option relaxedAutoImplicit false
set_option autoImplicit false

/-!
# The memory devices of IOS-FS (`ios_mcp/source/mdinfo.c`)

The options that report on the memory devices read two block device drivers and, for each, the
registers of its card.

## Main definitions

* `RecoveryMenu.MdInfo.MDBlkDrv`.

## References

* `ios_mcp/source/mdinfo.h`.
-/

namespace RecoveryMenu

namespace MdInfo

/-- `SAL_DEVICE_TYPE_MLC`. -/
def salDeviceTypeMlc : UInt32 := 5

/-- `SAL_DEVICE_TYPE_SD_CARD`. -/
def salDeviceTypeSdCard : UInt32 := 6

/-- The fields of `SALDeviceParams` that the options read. -/
structure SALDeviceParams where
  midPrv : UInt32
  deviceType : UInt32
  numBlocks : UInt64
  blockSize : UInt32
  name1 : Vector UInt8 128
  deriving DecidableEq, Repr

/-- The fields of `MDBlkDrv` that the options read. -/
structure MDBlkDrv where
  registered : ℤ
  params : SALDeviceParams
  deviceId : ℤ
  deriving DecidableEq, Repr

end MdInfo

end RecoveryMenu

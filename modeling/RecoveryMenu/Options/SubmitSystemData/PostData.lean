import RecoveryMenu.Foundations.CString
import RecoveryMenu.MdInfo
import RecoveryMenu.Options.DumpOtpAndSeeprom

set_option relaxedAutoImplicit false
set_option autoImplicit false

/-!
# The submitted record (`ios_mcp/source/options/SubmitSystemData.c`)

The record `struct post_data` collects what the OTP, the SEEPROM, the production settings and
the first MLC say about the console. Of the serial number the last three characters are masked.
The record is filled field by field in a zeroed buffer; here it is a value of its own, filled
from the two memories in the data buffer and the results of the other calls.

## Main definitions

* `RecoveryMenu.SubmitSystemData.PostData`, `RecoveryMenu.SubmitSystemData.PostData.bytes`.
* `RecoveryMenu.SubmitSystemData.systemSerial`: the serial number before it is masked.
* `RecoveryMenu.SubmitSystemData.maskSerial`: the mask.
* `RecoveryMenu.SubmitSystemData.fillPostData`: the record.

## Main results

* `RecoveryMenu.SubmitSystemData.PostData.length_bytes`: the record has `0x240` bytes.

## References

* `ios_mcp/source/options/SubmitSystemData.c`, lines 38-81 and 240-305.
-/

namespace RecoveryMenu

namespace SubmitSystemData

open ByteMemory DumpOtpAndSeeprom MdInfo

/-! ## The record -/

/-- `mlc` in `struct post_data`. -/
structure Mlc where
  cid : Vector UInt32 4
  midPrv : UInt32
  blockSize : UInt32
  numBlocks : UInt64
  deriving DecidableEq, Repr

/-- `struct post_data`, whose `reserved2` stays zero. Words that are copied byte by byte are kept
as bytes. -/
structure PostData where
  systemModel : Vector UInt8 16
  systemSerial : Vector UInt8 16
  mfgDate : Vector UInt8 6
  productArea : UInt8
  gameRegion : UInt8
  secLevel : Vector UInt8 4
  boardType : UInt16
  boardRevision : UInt16
  bootSource : UInt16
  ddr3Size : UInt16
  ddr3Speed : UInt16
  ddr3Vendor : UInt16
  sataDevice : UInt16
  consoleType : UInt16
  bspRev : UInt32
  wiiuRootMsId : Vector UInt8 4
  wiiuRootCaId : Vector UInt8 4
  wiiuNgId : Vector UInt8 4
  wiiuNgKeyId : Vector UInt8 4
  mlc : Mlc
  otpSha256 : Vector UInt8 32
  deviceCert : Vector UInt8 0x180
  deriving DecidableEq, Repr

/-- The record in memory. -/
def PostData.bytes (pd : PostData) : List UInt8 :=
  pd.systemModel.toList ++ pd.systemSerial.toList ++ pd.mfgDate.toList ++
    [pd.productArea, pd.gameRegion] ++ pd.secLevel.toList ++
    [pd.boardType, pd.boardRevision, pd.bootSource, pd.ddr3Size, pd.ddr3Speed, pd.ddr3Vendor,
      pd.sataDevice, pd.consoleType].flatMap bytesOfHalf ++
    bytesOfWord pd.bspRev ++ pd.wiiuRootMsId.toList ++ pd.wiiuRootCaId.toList ++
    pd.wiiuNgId.toList ++ pd.wiiuNgKeyId.toList ++ List.replicate 48 0 ++
    pd.mlc.cid.toList.flatMap bytesOfWord ++ bytesOfWord pd.mlc.midPrv ++
    bytesOfWord pd.mlc.blockSize ++ BigEndian.ofNat 8 pd.mlc.numBlocks.toNat ++
    pd.otpSha256.toList ++ pd.deviceCert.toList

/-- The record has `0x240` bytes. -/
theorem PostData.length_bytes (pd : PostData) : pd.bytes.length = 0x240 := by
  -- the equation lemma of so long a list takes seconds to generate
  delta bytes
  simp only [List.length_append, Vector.length_toList, List.length_cons, List.length_nil,
    length_flatMap_bytesOfHalf, length_bytesOfWord, List.length_replicate,
    length_flatMap_bytesOfWord, BigEndian.length_ofNat]

/-- `struct post_data_hashed`. -/
structure PostDataHashed where
  data : PostData
  postSha256 : Vector UInt8 32
  deriving DecidableEq, Repr

/-! ## The serial number -/

/-- An array of `n` characters that starts with the given ones and is zero after them. -/
def charArray (n : ℕ) (cs : List UInt8) : Vector UInt8 n := Vector.ofFn fun i => cs.getD i 0

/-- `snprintf(pd->system_serial, 16, "%s%s", &seeprom[0xAC], &seeprom[0xB0])` into a zeroed
array: the code id and the serial number, each as the string that starts there, cut off after
15 characters. -/
def systemSerial (buf : Frame) : Vector UInt8 16 :=
  charArray 16 ((buf.cString (0x400 + 2 * 0xAC) 15 ++ buf.cString (0x400 + 2 * 0xB0) 15).take 15)

/-- The loop that masks the serial number, with `k + 3` the index `i` of the turn: characters up
to a space are zeroed from the end, and the last other one is masked with the two before it. A
`char` is unsigned. -/
def maskLoop : ℕ → Vector UInt8 16 → Vector UInt8 16
  | 0, serial => serial
  | k + 1, serial =>
    let i := k + 4
    if serial[i]?.getD 0 ≤ 0x20 then maskLoop k (serial.setIfInBounds i 0)
    else
      ((serial.setIfInBounds i 0x2A).setIfInBounds (i - 1) 0x2A).setIfInBounds (i - 2) 0x2A

/-- The loop, from index 15 down to index 4. -/
def maskSerial (serial : Vector UInt8 16) : Vector UInt8 16 := maskLoop 12 serial

/-! ## Filling the record -/

/-- The `n` bytes from byte `off` on, as an array. -/
def bytesAt (buf : Frame) (off n : ℕ) : Vector UInt8 n := Vector.ofFn fun i => buf (off + i)

/-- The first registered MLC whose CID can be read. -/
def findMlc (blkDrv : ℕ → MDBlkDrv) (getCID : ℕ → ℤ × Vector UInt32 4) : Option Mlc :=
  (List.range 2).findSome? fun i =>
    let drv := blkDrv i
    if drv.registered = 0 ∨ drv.params.deviceType ≠ salDeviceTypeMlc then none
    else if (getCID i).1 ≠ 0 then none
    else some ⟨(getCID i).2, drv.params.midPrv, drv.params.blockSize, drv.params.numBlocks⟩

/-- The record before the OTP is hashed, from the data buffer with the OTP and the SEEPROM. -/
def fillPostData (buf : Frame) (deviceCert : Vector UInt8 0x180) (bspRev : UInt32)
    (region : Except ℤ (ℕ × UInt32)) (mlc : Mlc) : PostData where
  systemModel := bytesAt buf (0x400 + 2 * 0xB8) 16
  systemSerial := maskSerial (systemSerial buf)
  mfgDate := bytesAt buf (0x400 + 2 * 0xC4) 6
  productArea := match region with
    | .ok (productAreaId, _) => UInt8.ofNat productAreaId
    | .error _ => 0
  gameRegion := match region with
    | .ok (_, gameRegion) => gameRegion.toUInt8
    | .error _ => 0
  secLevel := bytesAt buf 0x080 4
  boardType := seepromWord buf 0x21
  boardRevision := seepromWord buf 0x22
  bootSource := seepromWord buf 0x23
  ddr3Size := seepromWord buf 0x24
  ddr3Speed := seepromWord buf 0x25
  ddr3Vendor := seepromWord buf 0x29
  sataDevice := seepromWord buf 0x2C
  consoleType := seepromWord buf 0x2D
  bspRev := bspRev
  wiiuRootMsId := bytesAt buf 0x280 4
  wiiuRootCaId := bytesAt buf 0x284 4
  wiiuNgId := bytesAt buf 0x21C 4
  wiiuNgKeyId := bytesAt buf 0x288 4
  mlc := mlc
  otpSha256 := Vector.replicate 32 0
  deviceCert := deviceCert

end SubmitSystemData

end RecoveryMenu

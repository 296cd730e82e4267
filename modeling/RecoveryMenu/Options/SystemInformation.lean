import RecoveryMenu.Foundations.CString
import RecoveryMenu.MdInfo
import RecoveryMenu.Options.DumpOtpAndSeeprom

set_option relaxedAutoImplicit false
set_option autoImplicit false

/-!
# The system information (`ios_mcp/source/options/SystemInformation.c`)

The option shows what the OTP, the SEEPROM, the production settings, the installed Wii U Menu
and the memory devices say about the console.

## Main definitions

* `RecoveryMenu.SystemInformation.optionSystemInformation`: a run of the option.

## References

* `ios_mcp/source/options/SystemInformation.c`.
-/

namespace RecoveryMenu

namespace SystemInformation

open ByteMemory DumpOtpAndSeeprom Fsa MdInfo Menu RegionInfo

/-! ## Tables -/

/-- `bsp_rev_tbl`. -/
def bspRevTbl : List (UInt32 × String) :=
  [(0x00000001, "Hollywood ES1"), (0x10000001, "Hollywood ES2"),
    (0x10100001, "Hollywood Prod for Wii"), (0x10100008, "Hollywood Cortado"),
    (0x1010000C, "Hollywood Cortado Espresso"), (0x20000001, "Bollywood"),
    (0x20100001, "Bollywood Prod for Wii"), (0x21100010, "Latte A11 EV"),
    (0x21100020, "Latte A11 CAT"), (0x21200010, "Latte A12 EV"), (0x21200020, "Latte A12 CAT"),
    (0x22100010, "Latte A2X EV"), (0x22100020, "Latte A2X CAT"), (0x23100010, "Latte A3X EV"),
    (0x23100020, "Latte A3X CAT"), (0x23100028, "Latte A3X CAFE"), (0x24100010, "Latte A4X EV"),
    (0x24100020, "Latte A4X CAT"), (0x24100028, "Latte A4X CAFE"), (0x25100010, "Latte A5X EV"),
    (0x25100010, "Latte A5X EV_Y"), (0x25100020, "Latte A5X CAT"),
    (0x25100028, "Latte A5X CAFE"), (0x26100010, "Latte B1X EV"),
    (0x26100010, "Latte B1X EV_Y"), (0x26100020, "Latte B1X CAT"),
    (0x26100028, "Latte B1X CAFE")]

/-- `keyset_tbl`. -/
def keysetTbl : List String := ["Factory", "Debug", "Retail", "Invalid"]

/-- `sataDevice_tbl`. -/
def sataDeviceTbl : List (Option String) :=
  [none, some "Default", some "No device", some "ROM drive", some "R drive", some "MION",
    some "SES", some "GEN2-HDD", some "GEN1-HDD"]

/-- `consoleType_tbl`. -/
def consoleTypeTbl : List (Option String) :=
  [none, some "WUP", some "CAT-R", some "CAT-DEV", some "EV board", some "Kiosk",
    some "OrchestraX", some "WUIH", some "WUIH_DEV", some "CAT_DEV_WUIH"]

/-- `VERSION_BIN_MAGIC_U32`. -/
def versionBinMagic : UInt32 := 0x56455200

/-! ## The option -/

/-- The results of the calls made in a run. -/
structure Results where
  heapAlloc : Bool
  /-- What the allocated buffer holds. -/
  heap : Frame
  readOTP : ℤ
  otp : Vector UInt8 0x400
  bspRead : ℕ → ℤ × UInt16
  /-- `bspGetHardwareVersion(&bsp_rev)`, and `bsp_rev` after it. -/
  hardwareVersion : ℤ
  bspRev : UInt32
  /-- `IOS_Open` and `MCP_GetSysProdSettings` in `getRegionInfo`. -/
  regionHandle : ℤ
  regionGet : ℤ
  settings : MCPSysProdSettings
  openVersion : ℤ
  verHandle : ℤ
  readVersion : ℤ
  /-- The bytes `FSA_ReadFile` stored in `version_bin`. -/
  versionBin : List UInt8
  mdReadInfo : ℤ
  blkDrv : ℕ → MDBlkDrv
  /-- `MDGetCID` and `MDGetCSD` for a driver. -/
  getCID : ℕ → ℤ × Vector UInt32 4
  getCSD : ℕ → ℤ × Vector UInt32 4

/-- A number, with its name in a table if it has one. -/
def showNamed (format formatNamed : String) (tbl : List (Option String)) (id : UInt16) :
    Event Call :=
  match tbl[id.toNat]?.join with
  | some name => .print formatNamed [.int id.toNat, .str name]
  | none => .print format [.int id.toNat]

/-- The first column: model, serial number, manufacturing date, keyset and BSP revision. -/
def showColumn1 (r : Results) (buf : Frame) : List (Event Call) :=
  [.print "Model:    %s" [.chars (buf.cString (0x400 + 2 * 0xB8) 16)],
    .print "Serial:   %s%s" [.chars (buf.cString (0x400 + 2 * 0xAC) 8),
      .chars (buf.cString (0x400 + 2 * 0xB0) 16)]] ++
  (if seepromWord buf 0xC4 ≠ 0 then
    [.print "Mfg Date: %04x/%02x/%02x %02x:%02x"
      [.int (seepromWord buf 0xC4).toNat, .int (seepromWord buf 0xC5 >>> 8).toNat,
        .int (seepromWord buf 0xC5 &&& 0xFF).toNat, .int (seepromWord buf 0xC6 >>> 8).toNat,
        .int (seepromWord buf 0xC6 &&& 0xFF).toNat]]
  else []) ++
  [.print "Keyset:   %s" [.str (keysetTbl.getD ((buf 0x080 &&& 0x18) >>> 3).toNat "")]] ++
  [if r.hardwareVersion = 0 then .print "BSP rev:  0x%08lX" [.int r.bspRev.toNat]
    else .print "BSP rev:  ERR=%d" [.int r.hardwareVersion]] ++
  (match bspRevTbl.find? fun p => p.1 = r.bspRev with
    | some p => [.print "%s" [.str p.2]]
    | none => [])

/-- The second column: boardType, sataDevice, consoleType and the memory. -/
def showColumn2 (buf : Frame) : List (Event Call) :=
  [.print "boardType:   %s" [.chars (buf.cString (0x400 + 2 * 0x21) 2)],
    showNamed "sataDevice:  %u" "sataDevice:  %u (%s)" sataDeviceTbl (seepromWord buf 0x2C),
    showNamed "consoleType: %u" "consoleType: %u (%s)" consoleTypeTbl (seepromWord buf 0x2D),
    .print "ddr3Size:    %u MiB\nddr3Speed:   %u\nddr3Vendor:  0x%04X"
      [.int (seepromWord buf 0x24).toNat, .int (seepromWord buf 0x25).toNat,
        .int (seepromWord buf 0x29).toNat]]

/-- `path` of `version.bin`, with the character of a region at index 43. -/
def versionPath (id : ℤ) : String :=
  String.ofList ("/vol/storage_mlc01/sys/title/00050010/10041x00/content/version.bin".toList.set 43
    (Char.ofNat (id + 48).toNat))

/-- The version of the installed menu of a region. -/
def showMenuVersion (r : Results) (buf : Frame) (productAreaId : ℕ) : List (Event Call) :=
  let path := versionPath productAreaId
  let buf := buf.store 0x600 (bytesOfWord 0)
  let opened := [.call (.openFile path "r" r.openVersion r.verHandle)]
  if r.openVersion < 0 then opened
  else
    let buf := buf.store 0x600 r.versionBin
    opened ++ [.call (.readFile 64 r.verHandle r.readVersion), .call (.closeFile r.verHandle)] ++
    if r.readVersion = 64 ∧ wordOfBytes (buf.load 0x600 4) = versionBinMagic then
      [.print "Wii U Menu version: %lu.%lu.%lu %c"
        [.int (wordOfBytes (buf.load 0x604 4)).toNat, .int (wordOfBytes (buf.load 0x608 4)).toNat,
          .int (wordOfBytes (buf.load 0x60C 4)).toNat, .chars [buf 0x610]]]
    else []

/-- The third column: the regions and the version of the installed menu. Where the regions
cannot be read, the version is that of the menu of region 0. -/
def showColumn3 (r : Results) (buf : Frame) : List (Event Call) :=
  match getRegionInfo r.regionHandle r.regionGet r.settings with
  | .ok (productAreaId, gameRegion) =>
    [.print "productArea: %s" [.region productAreaId],
      .print "gameRegion:  %s %s %s %s %s %s" (gameRegionArgs gameRegion)] ++
    showMenuVersion r buf productAreaId
  | .error _ => showMenuVersion r buf 0

/-- A register of a card. -/
def showRegister (format : String) (register : ℤ × Vector UInt32 4) : List (Event Call) :=
  if register.1 = 0 then [.print format (register.2.toList.map fun w => .int w.toNat)] else []

/-- `mid` in words. -/
def manufacturer (mid : UInt32) : String :=
  if mid = 0x11 then "Toshiba"
  else if mid = 0x15 then "Samsung"
  else if mid = 0x90 then "Hynix"
  else "Unknown"

/-- A memory device. -/
def showDevice (r : Results) (i : ℕ) : List (Event Call) :=
  let drv := r.blkDrv i
  if drv.registered = 0 ∨ drv.params.deviceType = salDeviceTypeSdCard then []
  else
    let deviceType := if drv.params.deviceType = salDeviceTypeMlc then "MLC" else "Unknown"
    let mid := drv.params.midPrv >>> 16
    let prv := drv.params.midPrv &&& 0xff
    let totalSizeMiB :=
      (drv.params.numBlocks * drv.params.blockSize.toUInt64 / 1024 / 1024).toUInt32
    [.print "Memory device %d (Type 0x%lx '%s'):"
        [.int i, .int drv.params.deviceType.toNat, .str deviceType],
      .print ("Manufacturer ID: 0x%02x (%s)\nProduct revision: 0x%02x (%d.%d)\n" ++
          "Product name: %s\nSize: %llu x %lu (%lu MiB)\n")
        [.int mid.toNat, .str (manufacturer mid), .int prv.toNat, .int (prv >>> 4).toNat,
          .int (prv &&& 0xf).toNat, .chars (drv.params.name1.toList.takeWhile (· ≠ 0)),
          .int drv.params.numBlocks.toNat, .int drv.params.blockSize.toNat,
          .int totalSizeMiB.toNat]] ++
    showRegister "CID: %08lx%08lx%08lx%08lx" (r.getCID i) ++
    showRegister "CSD: %08lx%08lx%08lx%08lx" (r.getCSD i)

/-- The memory devices. -/
def showDevices (r : Results) : List (Event Call) :=
  if r.mdReadInfo < 0 then
    [.printError "Failed to read memory device info: %x" [.int r.mdReadInfo]]
  else (List.range 2).flatMap (showDevice r) ++ [.waitButtonInput]

/-- `option_SystemInformation()`. -/
def optionSystemInformation (r : Results) : List (Event Call) :=
  let start := [.drawTopBar "System Information", .call (.heapAlloc 0x800 r.heapAlloc)]
  if ¬ r.heapAlloc then start ++ [.printError "Out of memory!" []]
  else
    let read := readOtpSeeprom r.readOTP r.otp r.bspRead r.heap
    if read.res ≠ 0 then start ++ read.events ++ [.call .heapFree]
    else
      start ++ showColumn1 r read.buf ++ showColumn2 read.buf ++ showColumn3 r read.buf ++
        [.call .heapFree] ++ showDevices r

end SystemInformation

end RecoveryMenu

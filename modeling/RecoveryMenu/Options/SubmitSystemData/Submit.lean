import RecoveryMenu.Options.SubmitSystemData.HttpResponse
import RecoveryMenu.Options.SubmitSystemData.PostData

set_option relaxedAutoImplicit false
set_option autoImplicit false

/-!
# Submitting the system data (`ios_mcp/source/options/SubmitSystemData.c`)

The option collects the record, hashes and encrypts it, and sends it to a server with the
encrypted key; then it shows the response of the server. It goes through six stages, each of
which may end the run.

A run returns what it shows and calls, in order. Among the calls are the accesses to the data
buffer, through the typed pointers derived from it, since several properties of the option are
about the buffer and its parts.

## Main definitions

* `RecoveryMenu.SubmitSystemData.View`: the pointers into the data buffer.
* `RecoveryMenu.SubmitSystemData.Call`, `RecoveryMenu.SubmitSystemData.Results`.
* `RecoveryMenu.SubmitSystemData.optionSubmitSystemData`: a run of the option.
* `RecoveryMenu.SubmitSystemData.FillsRecord`, `RecoveryMenu.SubmitSystemData.CollectsRecord`,
  `RecoveryMenu.SubmitSystemData.EncryptsRecord`, `RecoveryMenu.SubmitSystemData.SendsAll`: how
  far a run gets.

## Main results

* `RecoveryMenu.SubmitSystemData.optionSubmitSystemData_eq`: a run that fills the record.

## References

* `ios_mcp/source/options/SubmitSystemData.c`, lines 155-508.
* `ios_mcp/source/socket.c`, `recv`, and `ios_mcp/source/menu.h`, `VERSION_STRING`.
-/

namespace RecoveryMenu

namespace SubmitSystemData

open ByteMemory DumpOtpAndSeeprom MdInfo Menu RegionInfo

/-! ## The data buffer -/

/-- `DATA_BUFFER_SIZE`. -/
def dataBufferSize : ℕ := 0xA00

/-- `RSA2048_BUF_SIZE`. -/
def rsa2048BufSize : ℕ := 0x100

/-- The pointers into the data buffer. -/
inductive View
  | dataBuffer
  | otp
  | seeprom
  | encKey
  | pdh
  deriving DecidableEq, Repr

/-- Where the pointer stands, in bytes from the start of the buffer. A number added to a pointer
counts elements: half-words for `seeprom`, and whole records for `pdh`. -/
def View.offset : View → ℕ
  | .dataBuffer => 0
  | .otp => 0
  | .seeprom => 0x200 * 2
  | .encKey => 0x600
  | .pdh => 0x700 * 0x260

/-! ## Calls and results -/

/-- The calls of the option, and its accesses to the data buffer. -/
inductive Call
  /-- `IOS_HeapAllocAligned(CROSS_PROCESS_HEAP_ID, DATA_BUFFER_SIZE, 0x40)`. -/
  | heapAlloc (ok : Bool)
  | heapFree
  /-- An access to the `len` bytes from byte `off` of what the pointer points to. -/
  | access (view : View) (off len : ℕ)
  /-- The string from byte `off` on is read, whose NUL is at the given index of the buffer, if
  it has one inside. -/
  | accessString (view : View) (off : ℕ) (nul : Option ℕ)
  /-- The bytes are hashed by `IOSC_GenerateHash`. -/
  | generateHash (data : List UInt8)
  | createObject (res : ℤ)
  | importSecretKey (res : ℤ)
  | encrypt (data : List UInt8) (res : ℤ)
  | deleteObject
  | initNetconf (res : ℤ)
  | socket (res : ℤ)
  | gethostbyname (name : String) (found : Bool)
  | connect (res : ℤ)
  | send (len : ℕ) (res : ℤ)
  | recv (res : ℤ)
  | closesocket
  deriving DecidableEq, Repr

/-- What `recv` returns on a connection that the server has closed. -/
def closedByServer : ℤ := 0

/-- A result of `recv` with room for `DATA_BUFFER_SIZE - 1` bytes. -/
inductive RecvResult
  | failed (res : ℤ) (le : res ≤ 0)
  | data (bytes : List UInt8) (ne_nil : bytes ≠ []) (lt : bytes.length < dataBufferSize)

/-- The results of the calls made in a run, and the item the user selects. -/
structure Results where
  selected : ℕ
  heapAlloc : Bool
  /-- What the allocated buffer holds. -/
  heap : Frame
  readOTP : ℤ
  otp : Vector UInt8 0x400
  bspRead : ℕ → ℤ × UInt16
  getDeviceCertificate : ℤ
  deviceCert : Vector UInt8 0x180
  hardwareVersion : ℤ
  bspRev : UInt32
  /-- `IOS_Open` and `MCP_GetSysProdSettings` in `getRegionInfo`. -/
  regionHandle : ℤ
  regionGet : ℤ
  settings : MCPSysProdSettings
  blkDrv : ℕ → MDBlkDrv
  getCID : ℕ → ℤ × Vector UInt32 4
  /-- The hash of all bytes fed to `IOSC_GenerateHash`, and the results of its five calls. -/
  sha256 : List UInt8 → Vector UInt8 32
  otpHashInit : ℤ
  otpHashFinalize : ℤ
  postHashInit : ℤ
  postHashUpdate : ℤ
  postHashFinalize : ℤ
  generateRand : ℤ
  /-- `rsa2048_encrypt_aes128_key`, and what it leaves in `encKey`. -/
  encryptKey : ℤ
  encKey : Vector UInt8 0x100
  createObject : ℤ
  importSecretKey : ℤ
  encrypt : ℤ
  initNetconf : ℤ
  socket : ℤ
  /-- The address `gethostbyname` finds. -/
  hostAddr : Option (Vector UInt8 4)
  connect : ℤ
  sendRequest : ℤ
  sendKey : ℤ
  sendData : ℤ
  /-- The results of successive calls of `recv`. -/
  recvs : ℕ → RecvResult

/-- A run: what it shows and calls, and the record with its hash, if it gets that far. -/
structure Run where
  events : List (Event Call)
  postData : Option PostDataHashed

/-- A run that does something before it goes on. -/
def Run.after (run : Run) (events : List (Event Call)) : Run :=
  ⟨events ++ run.events, run.postData⟩

/-- A run that ends without a record. -/
def stop (events : List (Event Call)) : Run := ⟨events, none⟩

/-! ## Texts -/

/-- `desc`. -/
def desc : String :=
  "This will submit statistical data to the developers of recovery_menu,\n" ++
  "which will help to determine various statistics about Wii U consoles,\n" ++
  "e.g. eMMC manufacturers. The submitted data may be publicly accessible\n" ++
  "but personally identifying information will be kept confidential.\n" ++
  "\n" ++
  "Information that will be submitted:\n" ++
  "* System model and serial number (excluding the last 3 digits)\n" ++
  "* Manufacturing date\n" ++
  "* Region information\n" ++
  "* Security level (keyset), sataDevice, consoleType, BSP revision\n" ++
  "* boardType, boardRevision, bootSource, ddr3Size, ddr3Speed, ddr3Vendor\n" ++
  "* MLC manufacturer, revision, name, size, and CID\n" ++
  "* Device certificate and SHA-256 hash of OTP (to prevent duplicates)\n" ++
  "* MS, CA, NG, and NG key IDs\n" ++
  "\n" ++
  "Do you want to submit your console's system data?\n"

/-- The first 64 bytes of `desc`. -/
def descBytes : List UInt8 := (desc.toList.take 64).map fun c => UInt8.ofNat c.toNat

/-- `http_req`. -/
def httpReq : String :=
  "POST /add-system.php HTTP/1.0\r\n" ++
  "Host: wiiu.gerbilsoft.com\r\n" ++
  "User-Agent: Wii U Recovery Menu/0.6\r\n" ++
  "Content-Type: application/octet-stream\r\n" ++
  "Content-Length: 864\r\n\r\n"

/-! ## The stages -/

/-- The end of a run that got a response, successful or not. -/
def submitFinish (ok : Bool) : List (Event Call) :=
  [.call .closesocket] ++
  (if ok then
    [.print "System data submitted successfully." [],
      .print "Check out the Wii U console database at:" [],
      .print "https://wiiu.gerbilsoft.com/" []]
  else
    [.print ("Failed to submit system data.\n" ++
        "Please report a bug on the GitHub issue tracker:\n") [],
      .print "https://github.com/GaryOderNichts/recovery_menu/issues" []]) ++
  [.call .heapFree, .waitButtonInput]

/-- The string at an index of the buffer, as it is shown. -/
def shownString (buf : Frame) (off : ℕ) : List UInt8 := buf.cString off (dataBufferSize - off)

/-- What is shown of a response that was parsed. -/
def submitShow (parsed : Parsed) : List (Event Call) :=
  match parsed.resp with
  | some resp =>
    if parsed.res = 0 then
      [.call (.access .dataBuffer resp 1),
        .call (.accessString .dataBuffer resp (parsed.buf.nulBefore resp dataBufferSize)),
        .print "%s" [.chars (shownString parsed.buf resp)]] ++
      (match parsed.body with
        | some body =>
          [.call (.accessString .dataBuffer body (parsed.buf.nulBefore body dataBufferSize)),
            .print "%s" [.chars (shownString parsed.buf body)]]
        | none => []) ++
      submitFinish (parsed.buf resp = 0x32)
    else [.print "Invalid response received from the server." []] ++ submitFinish false
  | none => [.print "Invalid response received from the server." []] ++ submitFinish false

/-- The buffer after `recv` stored the given bytes, which are ended by a NUL. -/
def received (buf : Frame) (bytes : List UInt8) : Frame :=
  ((buf.store 0 bytes).store (dataBufferSize - 1) [0]).store bytes.length [0]

/-- The response: one call of `recv`, and what is shown of it. -/
def submitResponse (recvs : ℕ → RecvResult) (buf : Frame) : List (Event Call) :=
  match recvs 0 with
  | .failed res _ =>
    [.call (.recv res), .call (.access .dataBuffer (dataBufferSize - 1) 1),
      .print "No response received from the server." []] ++ submitFinish false
  | .data bytes _ _ =>
    [.call (.recv bytes.length), .call (.access .dataBuffer 0 bytes.length),
      .call (.access .dataBuffer (dataBufferSize - 1) 1),
      .call (.access .dataBuffer bytes.length 1),
      .call (.access .dataBuffer 0 bytes.length)] ++
    submitShow (parseHttpResponse (received buf bytes) bytes.length)

/-- The three parts of the request, up to the first that is not sent whole. -/
def submitSend (r : Results) (buf : Frame) : List (Event Call) :=
  let failed := [.call .heapFree, .printError "Failed to send HTTP request." []]
  [.print "Connected, submitting data..." [], .call (.send httpReq.length r.sendRequest)] ++
  if r.sendRequest ≠ httpReq.length then failed
  else
    [.call (.access .encKey 0 rsa2048BufSize), .call (.send rsa2048BufSize r.sendKey)] ++
    if r.sendKey ≠ rsa2048BufSize then failed
    else
      [.call (.access .pdh 0 0x260), .call (.send 0x260 r.sendData)] ++
      if r.sendData ≠ 0x260 then failed
      else submitResponse r.recvs buf

/-- The connection to the server. -/
def submitConnect (r : Results) (buf : Frame) : List (Event Call) :=
  [.call (.initNetconf r.initNetconf)] ++
  if r.initNetconf ≠ 0 then
    [.call .heapFree, .printError "Failed to initialize netconf: %d" [.int r.initNetconf]]
  else
    [.call (.socket r.socket)] ++
    if r.socket < 0 then
      [.call .heapFree, .printError "socket() failed: %d" [.int r.socket]]
    else
      [.call (.gethostbyname "wiiu.gerbilsoft.com" r.hostAddr.isSome)] ++
      if r.hostAddr = none then
        [.call .heapFree,
          .printError "gethostbyname() failed; is your DNS server working?" []]
      else
        [.call (.connect r.connect)] ++
        if r.connect < 0 then
          [.call .closesocket, .call .heapFree, .printError "connect() failed: %d" [.int r.connect]]
        else submitSend r buf

/-- The encryption of the key and of the record. -/
def submitEncrypt (r : Results) (buf : Frame) (pdh : PostDataHashed) : List (Event Call) :=
  if r.generateRand ≠ 0 then
    [.call .heapFree, .printError "IOSC_GenerateRand() failed: %d" [.int r.generateRand]]
  else
    [.call (.access .encKey 0 rsa2048BufSize)] ++
    if r.encryptKey ≠ 0 then
      [.call .heapFree, .printError "rsa2048_encrypt_aes128_key() failed: %d" [.int r.encryptKey]]
    else
      let buf := buf.store 0x600 r.encKey.toList
      [.call (.createObject r.createObject)] ++
      if r.createObject ≠ 0 then
        [.call .heapFree, .printError "IOSC_CreateObject() failed: %d" [.int r.createObject]]
      else
        [.call (.importSecretKey r.importSecretKey)] ++
        if r.importSecretKey ≠ 0 then
          [.call .deleteObject, .call .heapFree,
            .printError "IOSC_ImportSecretKey() failed: %d" [.int r.importSecretKey]]
        else
          [.call (.access .pdh 0 0x260),
            .call (.encrypt (pdh.data.bytes ++ pdh.postSha256.toList) r.encrypt)] ++
          if r.encrypt ≠ 0 then
            [.call .deleteObject, .call .heapFree,
              .printError "IOSC_Encrypt() failed: %d" [.int r.encrypt]]
          else [.call .deleteObject] ++ submitConnect r buf

/-- The hash of the OTP, stored in the record. -/
def hashOtp (r : Results) (buf : Frame) (pd : PostData) : PostData × List (Event Call) :=
  if r.otpHashInit ≠ 0 then (pd, [])
  else
    (if r.otpHashFinalize = 0 then { pd with otpSha256 := r.sha256 (buf.load 0 0x400) } else pd,
      [.call (.access .otp 0 0x400), .call (.generateHash (buf.load 0 0x400)),
        .call (.access .pdh 0x0A0 32)])

/-- The hash of the record and of the first bytes of `desc`, which are copied over the OTP. -/
def hashPostData (r : Results) (buf : Frame) (pd : PostData) :
    PostDataHashed × Frame × List (Event Call) :=
  let zero := Vector.replicate 32 0
  if r.postHashInit ≠ 0 then (⟨pd, zero⟩, buf, [])
  else
    let updated := [.call (.access .pdh 0 0x240), .call (.generateHash pd.bytes)]
    if r.postHashUpdate ≠ 0 then (⟨pd, zero⟩, buf, updated)
    else
      let buf := buf.store 0 descBytes
      (⟨pd, if r.postHashFinalize = 0 then r.sha256 (pd.bytes ++ buf.load 0 64) else zero⟩, buf,
        updated ++ [.call (.access .otp 0 64), .call (.access .otp 0 64),
          .call (.generateHash (buf.load 0 64)), .call (.access .pdh 0x240 32)])

/-- The hashes, and everything after them. -/
def submitHash (r : Results) (buf : Frame) (pd : PostData) : Run :=
  let (pd, otpEvents) := hashOtp r buf pd
  let (pdh, buf, postEvents) := hashPostData r buf pd
  ⟨otpEvents ++ postEvents ++ submitEncrypt r buf pdh, some pdh⟩

/-- The fields of the record that are copied: from where, to which byte of the record, and how
many bytes. -/
def fieldCopies : List (View × ℕ × ℕ × ℕ) :=
  [(.seeprom, 2 * 0xB8, 0x000, 16), (.seeprom, 2 * 0xC4, 0x020, 6), (.otp, 0x080, 0x028, 4),
    (.seeprom, 2 * 0x21, 0x02C, 2), (.seeprom, 2 * 0x22, 0x02E, 2),
    (.seeprom, 2 * 0x23, 0x030, 2), (.seeprom, 2 * 0x24, 0x032, 2),
    (.seeprom, 2 * 0x25, 0x034, 2), (.seeprom, 2 * 0x29, 0x036, 2),
    (.seeprom, 2 * 0x2C, 0x038, 2), (.seeprom, 2 * 0x2D, 0x03A, 2), (.otp, 0x280, 0x040, 4),
    (.otp, 0x284, 0x044, 4), (.otp, 0x21C, 0x048, 4), (.otp, 0x288, 0x04C, 4)]

/-- The accesses of copying the fields, of writing and masking the serial number, and of storing
the regions. -/
def fillAccesses (r : Results) (buf : Frame) : List (Event Call) :=
  (fieldCopies.flatMap fun (view, src, dst, len) =>
    [.call (.access view src len), .call (.access .pdh dst len)]) ++
  [.call (.accessString .seeprom (2 * 0xAC) (buf.nulBefore (0x400 + 2 * 0xAC) dataBufferSize)),
    .call (.accessString .seeprom (2 * 0xB0) (buf.nulBefore (0x400 + 2 * 0xB0) dataBufferSize)),
    .call (.access .pdh 0x010 16)] ++
  match getRegionInfo r.regionHandle r.regionGet r.settings with
  | .ok _ => [.call (.access .pdh 0x026 1), .call (.access .pdh 0x027 1)]
  | .error _ => []

/-- The record, from a buffer with the OTP and the SEEPROM, and everything after it. -/
def submitCollect (r : Results) (buf : Frame) : Run :=
  let buf := buf.store 0x380 (List.replicate 0x40 0)
  let started := [.call (.access .pdh 0 0x240), .call (.access .otp 0x380 0x40),
    .call (.access .pdh 0x0C0 0x180)]
  if r.getDeviceCertificate ≠ 0 then
    stop (started ++
      [.print "Failed to get device certificate: %d" [.int r.getDeviceCertificate],
        .call .heapFree, .waitButtonInput])
  else
    let versioned := started ++ [.call (.access .pdh 0x03C 4)]
    if r.hardwareVersion ≠ 0 then
      stop (versioned ++
        [.print "Failed to get BSP revision: %d" [.int r.hardwareVersion], .call .heapFree,
          .waitButtonInput])
    else
      let filled := versioned ++ fillAccesses r buf
      match findMlc r.blkDrv r.getCID with
      | none =>
        stop (filled ++ [.print "Failed to get MLC CID." [], .call .heapFree, .waitButtonInput])
      | some mlc =>
        let region := getRegionInfo r.regionHandle r.regionGet r.settings
        (submitHash r buf (fillPostData buf r.deviceCert r.bspRev region mlc)).after
          (filled ++ [.call (.access .pdh 0x080 16), .call (.access .pdh 0x090 4),
            .call (.access .pdh 0x098 8), .call (.access .pdh 0x094 4)])

/-- `option_SubmitSystemData()`. -/
def optionSubmitSystemData (r : Results) : Run :=
  let offered := [.drawTopBar "Submit System Data", .print desc [],
    .drawMenu "Submit System Data" ["Cancel", "Submit Data"]]
  if r.selected = 0 then stop offered
  else
    let allocated := offered ++
      [.drawTopBar "Submit System Data", .call (.heapAlloc r.heapAlloc)]
    if ¬ r.heapAlloc then stop (allocated ++ [.printError "Out of memory!" []])
    else
      let read := readOtpSeeprom r.readOTP r.otp r.bspRead r.heap
      let words := (Eeprom.eepromRead r.bspRead 0 0x100 []).2
      let accessed := allocated ++ [.call (.access .otp 0 0x400)] ++
        if r.readOTP < 0 then [] else [.call (.access .seeprom 0 (2 * words.length))]
      if read.res ≠ 0 then stop (accessed ++ read.events ++ [.call .heapFree])
      else (submitCollect r read.buf).after accessed

/-- The run fills the record: the user agrees, and the OTP and the SEEPROM are read. -/
def FillsRecord (r : Results) : Prop :=
  r.selected ≠ 0 ∧ r.heapAlloc = true ∧ 0 ≤ r.readOTP ∧ ∀ i < 0x100, 0 ≤ (r.bspRead i).1

/-- All other data of the record can be had. -/
def CollectsRecord (r : Results) : Prop :=
  r.getDeviceCertificate = 0 ∧ r.hardwareVersion = 0 ∧ findMlc r.blkDrv r.getCID ≠ none

/-- The key and the record can be encrypted. -/
def EncryptsRecord (r : Results) : Prop :=
  r.generateRand = 0 ∧ r.encryptKey = 0 ∧ r.createObject = 0 ∧ r.importSecretKey = 0 ∧
    r.encrypt = 0

/-- The three parts of the request are sent whole. -/
def SendsAll (r : Results) : Prop :=
  r.sendRequest = httpReq.length ∧ r.sendKey = rsa2048BufSize ∧ r.sendData = 0x260

/-- The buffer of a successful read of the OTP and the SEEPROM. -/
def readBuffer (r : Results) : Frame :=
  (r.heap.store 0 r.otp.toList).store 0x400 (seepromBytes r.bspRead)

/-- What a run shows and calls before it fills the record. -/
def beforeRecord (r : Results) : List (Event Call) :=
  [.drawTopBar "Submit System Data", .print desc [],
    .drawMenu "Submit System Data" ["Cancel", "Submit Data"], .drawTopBar "Submit System Data",
    .call (.heapAlloc r.heapAlloc), .call (.access .otp 0 0x400),
    .call (.access .seeprom 0 (2 * 0x100))]

/-- A run that fills the record. -/
theorem optionSubmitSystemData_eq {r : Results} (h : FillsRecord r) :
    optionSubmitSystemData r = (submitCollect r (readBuffer r)).after (beforeRecord r) := by
  obtain ⟨hselected, halloc, hotp, hread⟩ := h
  simp only [optionSubmitSystemData, readOtpSeeprom_eq hotp hread,
    Eeprom.eepromRead_eq_of_readable hread, if_neg hselected, halloc, not_true_eq_false,
    if_false, ne_eq, if_neg (not_lt.mpr hotp), List.length_map, List.length_range']
  rw [beforeRecord, halloc]
  rfl

/-- Results with which a run sends its data, to a server that does not respond. -/
def sent : Results where
  selected := 1
  heapAlloc := true
  heap := fun _ => 0
  readOTP := 0
  otp := Vector.replicate 0x400 0
  bspRead := fun _ => (0, 0)
  getDeviceCertificate := 0
  deviceCert := Vector.replicate 0x180 0
  hardwareVersion := 0
  bspRev := 0x26100028
  regionHandle := -1
  regionGet := 0
  settings := ⟨1, 0, Vector.replicate 2 0, 1, Vector.replicate 4 0, Vector.replicate 5 0,
    Vector.replicate 4 0, 0, Vector.replicate 8 0, Vector.replicate 12 0, Vector.replicate 4 0,
    Vector.replicate 16 0, 0⟩
  blkDrv := fun _ => ⟨1, ⟨0x110000, salDeviceTypeMlc, 0x1DACB, 0x200, Vector.replicate 128 0⟩, 0x43⟩
  getCID := fun _ => (0, #v[0, 0, 0, 0])
  sha256 := fun _ => Vector.replicate 32 0
  otpHashInit := 0
  otpHashFinalize := 0
  postHashInit := 0
  postHashUpdate := 0
  postHashFinalize := 0
  generateRand := 0
  encryptKey := 0
  encKey := Vector.replicate 0x100 0
  createObject := 0
  importSecretKey := 0
  encrypt := 0
  initNetconf := 0
  socket := 1
  hostAddr := some #v[127, 0, 0, 1]
  connect := 0
  sendRequest := httpReq.length
  sendKey := 0x100
  sendData := 0x260
  recvs := fun _ => .failed closedByServer (Int.le_refl closedByServer)

end SubmitSystemData

end RecoveryMenu

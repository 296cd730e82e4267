import RecoveryMenu.Foundations.ByteMemory
import RecoveryMenu.Fsa
import RecoveryMenu.Menu
import RecoveryMenu.Options.LoadBoot1Payload

set_option relaxedAutoImplicit false
set_option autoImplicit false

/-!
# Loading a BOOT1 payload (`ios_mcp/source/options/LoadBoot1Payload.c`)

Behind the version check, `loadBoot1Payload` reads an ancast image and copies its body to MEM1
word by word, makes `boot_info` point into BOOT1, and restarts the console.

## Main definitions

* `RecoveryMenu.LoadBoot1Payload.preparePrshHax`: the changed PRSH memory.
* `RecoveryMenu.LoadBoot1Payload.readBody`: the loop that copies the body.
* `RecoveryMenu.LoadBoot1Payload.loadBoot1Payload`: the whole function.

## References

* `ios_mcp/source/options/LoadBoot1Payload.c`, lines 22-72 and 147-268.
-/

namespace RecoveryMenu

namespace LoadBoot1Payload

open ByteMemory Menu

/-- The calls behind the version check. -/
inductive PayloadCall
  | fsa (c : Fsa.Call)
  /-- `dataBuffer[i]` is read. -/
  | readData (i : ℕ)
  | kernWrite32 (address value : UInt32)
  /-- `IOS_HeapAlloc(CROSS_PROCESS_HEAP_ID, 0x10)` for `prshIvBuf` and whether it succeeded. -/
  | allocIv (ok : Bool)
  | copyIv
  | encryptPrsh (res : ℤ)
  | freeIv
  | shutdown
  deriving DecidableEq, Repr

/-! ## The PRSH memory -/

/-- `prshHdrOffset`. -/
def prshHdrOffset : UInt32 := 0x10000000 + 0x400 + 0x5654

/-- `bootInfoPtrAddr`. -/
def bootInfoPtrAddr : UInt32 := prshHdrOffset + 0x1c + 0x100

/-- The checksum of the PRSH words. -/
def prshChecksum (m : Memory) : UInt32 :=
  (List.range 0x20d).foldl
    (fun checksum i => checksum ^^^ m.word (prshHdrOffset + 0x04 + UInt32.ofNat i * 0x04)) 0

/-- What `preparePrshHax` returns, the memory it leaves, and its calls. -/
structure PrshHax where
  res : ℤ
  memory : Memory
  calls : List PayloadCall

/-- `preparePrshHax(bootInfoOffset)`, where `encryptPrsh` gives its result and the memory it
leaves. The checksum of the old memory is computed and not used. -/
def preparePrshHax (ivAlloc : Bool) (encryptPrsh : Memory → ℤ × Memory) (memory : Memory)
    (bootInfoOffset : UInt32) : PrshHax :=
  let memory := memory.store bootInfoPtrAddr (bytesOfWord (0x0d400200 + bootInfoOffset))
  let memory := memory.store prshHdrOffset (bytesOfWord (prshChecksum memory))
  if ¬ ivAlloc then ⟨-1, memory, [.allocIv false]⟩
  else
    let encrypted := encryptPrsh memory
    ⟨encrypted.1, encrypted.2, [.allocIv true, .copyIv, .encryptPrsh encrypted.1, .freeIv]⟩

/-! ## The image -/

/-- A read of the body that returned data. -/
structure Chunk where
  bytes : List UInt8
  bytes_ne_nil : bytes ≠ []
  bytes_le : bytes.length ≤ 0x40

/-- The results of the calls, and the memory. -/
structure Results where
  openFile : ℤ
  fileHandle : ℤ
  heapAlloc : Bool
  /-- The bytes from the start of `dataBuffer` on, before anything is read. -/
  dataBuffer : Frame
  readHeader : ℤ
  header : List UInt8
  chunks : List Chunk
  lastRead : ℤ
  lastRead_le : lastRead ≤ 0
  memory : Memory
  ivAlloc : Bool
  encryptPrsh : Memory → ℤ × Memory

/-- The words of a chunk, from `payloadOffset` on. The last one may go on behind the chunk. -/
def writeWords (dataBuffer : Frame) (payloadOffset length : ℕ) : List (Event PayloadCall) :=
  (List.range ((length + 3) / 4)).flatMap fun i =>
    [.call (.readData i),
      .call (.kernWrite32 (UInt32.ofNat (payloadOffset + 4 * i)) (dataBuffer.word i))]

/-- The loop over the body, for what is in `dataBuffer` before it. -/
def readBody (fileHandle lastRead : ℤ) : List Chunk → Frame → ℕ → List (Event PayloadCall)
  | [], _, _ => [.call (.fsa (.readFile 0x40 fileHandle lastRead))]
  | chunk :: chunks, dataBuffer, payloadOffset =>
    let dataBuffer := dataBuffer.store 0 chunk.bytes
    .call (.fsa (.readFile 0x40 fileHandle chunk.bytes.length)) ::
      writeWords dataBuffer payloadOffset chunk.bytes.length ++
      readBody fileHandle lastRead chunks dataBuffer
        (payloadOffset + 4 * ((chunk.bytes.length + 3) / 4))

/-- `bytesRead`. -/
def Results.bytesRead (r : Results) : ℕ := (r.chunks.map fun chunk => chunk.bytes.length).sum

/-- A text in the colour of errors, and the wait for a button. -/
def failWith (format : String) (args : List Arg) : List (Event PayloadCall) :=
  [.print format args, .waitButtonInput]

/-- What follows the body. -/
def startPayload (r : Results) (boootInfoOffset bodySize : UInt32) : List (Event PayloadCall) :=
  if r.lastRead < 0 then failWith "Failed to read boot1.img: %x" [.int r.lastRead]
  else if UInt32.ofNat r.bytesRead < bodySize then
    failWith "Failed to read ancast body (%d / %ld bytes)" [.int r.bytesRead, .int bodySize.toNat]
  else
    let hax := preparePrshHax r.ivAlloc r.encryptPrsh r.memory boootInfoOffset
    hax.calls.map .call ++
      if hax.res < 0 then failWith "Failed to prepare prshhax: %x" [.int hax.res]
      else [.call (.kernWrite32 0x00000000 0xEA000012), .call (.kernWrite32 0x00000004 0xDEADC0DE),
        .call (.kernWrite32 0x00000008 0xDEADC0DE), .call .shutdown]

/-- The end of a call that has the file and the buffer. -/
def releaseImage (fileHandle : ℤ) : List (Event PayloadCall) :=
  [.call (.fsa .heapFree), .call (.fsa (.closeFile fileHandle))]

/-- `loadBoot1Payload` behind its version check. -/
def loadImage (r : Results) (filePath : String) (boootInfoOffset : UInt32) :
    List (Event PayloadCall) :=
  .call (.fsa (.openFile filePath "r" r.openFile r.fileHandle)) ::
  if r.openFile < 0 then failWith "Failed to open boot1.img: %x" [.int r.openFile]
  else .call (.fsa (.heapAlloc 0x200 r.heapAlloc)) ::
  if ¬ r.heapAlloc then
    failWith "Failed to allocate data buffer!" [] ++ [.call (.fsa (.closeFile r.fileHandle))]
  else .call (.fsa (.readFile 0x200 r.fileHandle r.readHeader)) ::
  if r.readHeader ≠ 0x200 then
    failWith "Failed to read ancast header: %x" [.int r.readHeader] ++ releaseImage r.fileHandle
  else
    let dataBuffer := r.dataBuffer.store 0 r.header
    .call (.readData 0) ::
    if dataBuffer.word 0 ≠ 0xEFA282D9 then
      .call (.readData 0) ::
      failWith "Invalid ancast header magic: %08lx" [.int (dataBuffer.word 0).toNat] ++
        releaseImage r.fileHandle
    else .call (.readData 0x68) ::
    if (dataBuffer.word 0x68 >>> 16) &&& 1 = 0 then
      failWith "Ancast image is encrypted!" [] ++ releaseImage r.fileHandle
    else
      let bodySize := dataBuffer.word 0x6B
      [.call (.readData 0x6B)] ++ readBody r.fileHandle r.lastRead r.chunks dataBuffer 0x50 ++
        [.print "Read %d / %ld bytes" [.int r.bytesRead, .int bodySize.toNat]] ++
        releaseImage r.fileHandle ++ startPayload r boootInfoOffset bodySize

/-- The text about the active version. -/
def activeVersionText (p : Blocks) : List (Event PayloadCall) :=
  match determineActiveBoot1Slot p with
  | some slot => [.print "Active BOOT1 version: %d (slot %d)"
      [.int (p.get slot).version.toNat, .int slot.val]]
  | none => []

/-- `loadBoot1Payload(index, filePath)`, for the blocks it finds. It does not return behind the
shutdown. -/
def loadBoot1Payload (c : Call) (p : Blocks) (r : Results) (filePath : String) :
    List (Event PayloadCall) :=
  let check := checkBoot1Version c p
  .print "Checking BOOT1 version..." [] ::
  match check.1 with
  | .readFailed => failWith "Failed to read boot1 parameters" []
  | .noActiveSlot => failWith "Failed to determine active boot1 version" []
  | .unsupported version =>
    activeVersionText check.2 ++
      failWith "Unsupported BOOT1 version: %d" [.int version.toNat]
  | .passed _ _ boootInfoOffset =>
    activeVersionText check.2 ++ loadImage r filePath boootInfoOffset

end LoadBoot1Payload

end RecoveryMenu

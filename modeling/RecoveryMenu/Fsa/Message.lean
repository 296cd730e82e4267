import RecoveryMenu.Foundations.MessageLayout

set_option relaxedAutoImplicit false
set_option autoImplicit false

/-!
# The messages of the file system (`ios_mcp/source/fsa.c`)

Each wrapper allocates a buffer, clears it and stores its arguments at fixed places, behind which
there is room for the answer and for the vectors of a vectored call. The device is handed the
command and the first `0x520` bytes, and for a vectored call the vectors.

## Main definitions

* `RecoveryMenu.Fsa.Text`: a string.
* `RecoveryMenu.Fsa.Message`: what the device is handed.
* `RecoveryMenu.Fsa.fsaMount` and so on: the wrappers; `RecoveryMenu.Fsa.Request`: their calls.
* `RecoveryMenu.Fsa.Request.copySize`: what a call copies of the answer.
* `RecoveryMenu.Fsa.Request.normal`: what a message says about a call.

## Main results

* `RecoveryMenu.Fsa.message_eq_iff`: which calls give the same message.

## References

* `ios_mcp/source/fsa.c`; `ios_mcp/source/fsa.h`: `FSStat`, `FSDirectoryEntry`;
  `ios_mcp/source/imports.h`: `IOSVec_t`, `IOS_Ioctl`, `IOS_Ioctlv`.
-/

namespace RecoveryMenu

namespace Fsa

open ByteMemory

/-! ## Messages -/

/-- The characters of a string, which does not contain a NUL. -/
structure Text where
  chars : List UInt8
  noNul : 0 ∉ chars
  deriving DecidableEq

@[ext] lemma Text.ext {s t : Text} (h : s.chars = t.chars) : s = t := by
  cases s
  cases t
  cases h
  rfl

/-- The first `n` characters of a string. -/
def Text.take (s : Text) (n : ℕ) : Text where
  chars := s.chars.take n
  noNul h := s.noNul (List.mem_of_mem_take h)

/-- What `IOS_Ioctl` and `IOS_Ioctlv` hand to the device. -/
inductive Message
  | ioctl (command : ℕ) (inbuf : List UInt8) (outLen : ℕ)
  | ioctlv (command numIn numOut : ℕ) (inbuf : List UInt8) (iovec : List (UInt32 × UInt32))
  deriving DecidableEq

/-- `allocIobuf`, where the heap is not exhausted. -/
def allocIobuf (heap : Frame) : Frame := heap.store 0 (List.replicate 0x828 0)

/-- A call of `IOS_Ioctl`, whose arguments are stored in the buffer. -/
def ioctl (command : ℕ) (fields : List Store) (heap : Frame) : Message :=
  .ioctl command (((allocIobuf heap).storeAll fields).load 0 0x520) 0x293

/-- The three vectors: the arguments, what the caller hands over, and the answer. -/
def iovecFields (iobuf data len : UInt32) : List Store :=
  [wordField 0x7C0 iobuf, wordField 0x7C4 0x520,
    wordField 0x7CC data, wordField 0x7D0 len,
    wordField 0x7D8 (iobuf + 0x520), wordField 0x7DC 0x293]

/-- A call of `IOS_Ioctlv`, whose arguments and vectors are stored in the buffer. -/
def ioctlv (command numIn numOut : ℕ) (fields : List Store) (data len iobuf : UInt32)
    (heap : Frame) : Message :=
  let buf := (allocIobuf heap).storeAll (fields ++ iovecFields iobuf data len)
  .ioctlv command numIn numOut (buf.load 0 0x520)
    ((List.range (numIn + numOut)).map fun i =>
      (buf.word (0x1F0 + 3 * i), buf.word (0x1F1 + 3 * i)))

/-- `strncpy((char*)&inbuf[0x01], path, 0x27F)`. -/
def pathField (path : Text) : Store := stringField 0x04 path.chars 0x27F

/-! ## The wrappers -/

/-- `FSA_Mount`. -/
def fsaMount (devicePath volumePath : Text) (flags argString argStringLen : UInt32) :
    UInt32 → Frame → Message :=
  ioctlv 0x01 2 1
    [pathField devicePath, stringField 0x284 volumePath.chars 0x27F, wordField 0x504 flags,
      wordField 0x508 argStringLen] argString argStringLen

/-- `FSA_Unmount`. -/
def fsaUnmount (path : Text) (flags : UInt32) : Frame → Message :=
  ioctl 0x02 [pathField path, wordField 0x284 flags]

/-- `FSA_FlushVolume`. -/
def fsaFlushVolume (volumePath : Text) : Frame → Message := ioctl 0x1B [pathField volumePath]

/-- `FSA_MakeDir`. -/
def fsaMakeDir (path : Text) (flags : UInt32) : Frame → Message :=
  ioctl 0x07 [pathField path, wordField 0x284 flags]

/-- `FSA_OpenDir`. -/
def fsaOpenDir (path : Text) : Frame → Message := ioctl 0x0A [pathField path]

/-- `FSA_ReadDir`. -/
def fsaReadDir (handle : UInt32) : Frame → Message := ioctl 0x0B [wordField 0x04 handle]

/-- `FSA_RewindDir`. -/
def fsaRewindDir (handle : UInt32) : Frame → Message := ioctl 0x0C [wordField 0x04 handle]

/-- `FSA_CloseDir`. -/
def fsaCloseDir (handle : UInt32) : Frame → Message := ioctl 0x0D [wordField 0x04 handle]

/-- `FSA_ChangeDir`. -/
def fsaChangeDir (path : Text) : Frame → Message := ioctl 0x05 [pathField path]

/-- `FSA_OpenFile`. -/
def fsaOpenFile (path mode : Text) : Frame → Message :=
  ioctl 0x0E [pathField path, stringField 0x284 mode.chars 0x10]

/-- `_FSA_ReadWriteFile`. -/
def fsaReadWriteFile (data size cnt fileHandle flags : UInt32) (read : Bool) :
    UInt32 → Frame → Message :=
  let fields := [wordField 0x08 size, wordField 0x0C cnt, wordField 0x14 fileHandle,
    wordField 0x18 flags]
  if read then ioctlv 0x0F 1 2 fields data (size * cnt)
  else ioctlv 0x10 2 1 fields data (size * cnt)

/-- `FSA_StatFile`. -/
def fsaStatFile (handle : UInt32) : Frame → Message := ioctl 0x14 [wordField 0x04 handle]

/-- `FSA_CloseFile`. -/
def fsaCloseFile (fileHandle : UInt32) : Frame → Message := ioctl 0x15 [wordField 0x04 fileHandle]

/-- `FSA_SetPosFile`. -/
def fsaSetPosFile (fileHandle position : UInt32) : Frame → Message :=
  ioctl 0x12 [wordField 0x04 fileHandle, wordField 0x08 position]

/-- `FSA_GetStat`. -/
def fsaGetStat (path : Text) : Frame → Message :=
  ioctl 0x18 [pathField path, wordField 0x284 5]

/-- `FSA_Remove`. -/
def fsaRemove (path : Text) : Frame → Message := ioctl 0x08 [pathField path]

/-- `FSA_ChangeMode`, with the mask `0x777`. -/
def fsaChangeMode (path : Text) (mode : UInt32) : Frame → Message :=
  ioctl 0x20 [pathField path, wordField 0x284 mode, wordField 0x288 0x777]

/-- `FSA_GetDeviceInfo`. -/
def fsaGetDeviceInfo (devicePath : Text) (type : UInt32) : Frame → Message :=
  ioctl 0x18 [pathField devicePath, wordField 0x284 type]

/-- `FSA_RawOpen`. -/
def fsaRawOpen (devicePath : Text) : Frame → Message := ioctl 0x6A [pathField devicePath]

/-- `FSA_RawClose`. -/
def fsaRawClose (deviceHandle : UInt32) : Frame → Message :=
  ioctl 0x6D [wordField 0x04 deviceHandle]

/-- The fields of `FSA_RawRead` and `FSA_RawWrite`. -/
def rawFields (sizeBytes cnt : UInt32) (blocksOffset : UInt64) (deviceHandle : UInt32) :
    List Store :=
  [wordField 0x08 (blocksOffset >>> 32).toUInt32,
    wordField 0x0C (blocksOffset &&& 0xFFFFFFFF).toUInt32,
    wordField 0x10 cnt, wordField 0x14 sizeBytes, wordField 0x18 deviceHandle]

/-- `FSA_RawRead`. -/
def fsaRawRead (data sizeBytes cnt : UInt32) (blocksOffset : UInt64) (deviceHandle : UInt32) :
    UInt32 → Frame → Message :=
  ioctlv 0x6B 1 2 (rawFields sizeBytes cnt blocksOffset deviceHandle) data (sizeBytes * cnt)

/-- `FSA_RawWrite`. -/
def fsaRawWrite (data sizeBytes cnt : UInt32) (blocksOffset : UInt64) (deviceHandle : UInt32) :
    UInt32 → Frame → Message :=
  ioctlv 0x6C 2 1 (rawFields sizeBytes cnt blocksOffset deviceHandle) data (sizeBytes * cnt)

/-- A call of a wrapper. Where a wrapper checks its out pointer, `out` says that it is not
`NULL`. -/
inductive Request
  | mount (devicePath volumePath : Text) (flags argString argStringLen : UInt32)
  | unmount (path : Text) (flags : UInt32)
  | flushVolume (volumePath : Text)
  | makeDir (path : Text) (flags : UInt32)
  | openDir (path : Text) (out : Bool)
  | readDir (handle : UInt32) (out : Bool)
  | rewindDir (handle : UInt32)
  | closeDir (handle : UInt32)
  | changeDir (path : Text)
  | openFile (path mode : Text) (out : Bool)
  | readFile (data size cnt fileHandle flags : UInt32)
  | writeFile (data size cnt fileHandle flags : UInt32)
  | statFile (handle : UInt32) (out : Bool)
  | closeFile (fileHandle : UInt32)
  | setPosFile (fileHandle position : UInt32)
  | getStat (path : Text) (out : Bool)
  | remove (path : Text)
  | changeMode (path : Text) (mode : UInt32)
  | getDeviceInfo (devicePath : Text) (type : UInt32)
  | rawOpen (devicePath : Text) (out : Bool)
  | rawClose (deviceHandle : UInt32)
  | rawRead (data sizeBytes cnt : UInt32) (blocksOffset : UInt64) (deviceHandle : UInt32)
  | rawWrite (data sizeBytes cnt : UInt32) (blocksOffset : UInt64) (deviceHandle : UInt32)
  deriving DecidableEq

/-- The message of a call, with the address of the buffer and what the heap holds there. The out
pointer is not part of it. -/
def Request.message (iobuf : UInt32) (heap : Frame) : Request → Message
  | mount devicePath volumePath flags argString argStringLen =>
    fsaMount devicePath volumePath flags argString argStringLen iobuf heap
  | unmount path flags => fsaUnmount path flags heap
  | flushVolume volumePath => fsaFlushVolume volumePath heap
  | makeDir path flags => fsaMakeDir path flags heap
  | openDir path _ => fsaOpenDir path heap
  | readDir handle _ => fsaReadDir handle heap
  | rewindDir handle => fsaRewindDir handle heap
  | closeDir handle => fsaCloseDir handle heap
  | changeDir path => fsaChangeDir path heap
  | openFile path mode _ => fsaOpenFile path mode heap
  | readFile data size cnt fileHandle flags =>
    fsaReadWriteFile data size cnt fileHandle flags true iobuf heap
  | writeFile data size cnt fileHandle flags =>
    fsaReadWriteFile data size cnt fileHandle flags false iobuf heap
  | statFile handle _ => fsaStatFile handle heap
  | closeFile fileHandle => fsaCloseFile fileHandle heap
  | setPosFile fileHandle position => fsaSetPosFile fileHandle position heap
  | getStat path _ => fsaGetStat path heap
  | remove path => fsaRemove path heap
  | changeMode path mode => fsaChangeMode path mode heap
  | getDeviceInfo devicePath type => fsaGetDeviceInfo devicePath type heap
  | rawOpen devicePath _ => fsaRawOpen devicePath heap
  | rawClose deviceHandle => fsaRawClose deviceHandle heap
  | rawRead data sizeBytes cnt blocksOffset deviceHandle =>
    fsaRawRead data sizeBytes cnt blocksOffset deviceHandle iobuf heap
  | rawWrite data sizeBytes cnt blocksOffset deviceHandle =>
    fsaRawWrite data sizeBytes cnt blocksOffset deviceHandle iobuf heap

/-! ## Answers -/

/-- `sizeof(FSStat)`. -/
def sizeofFSStat : ℕ := 4 * (6 + 3 + 3 + 0x0D)

/-- `sizeof(FSDirectoryEntry)`. -/
def sizeofFSDirectoryEntry : ℕ := sizeofFSStat + 0x100

/-- The size of what `FSA_GetDeviceInfo` copies. -/
def deviceInfoSize (type : UInt32) : ℕ :=
  if type = 0 ∨ type = 1 ∨ type = 7 then 0x8
  else if type = 2 then 0x4
  else if type = 3 then 0x1E
  else if type = 4 then 0x28
  else if type = 5 then 0x64
  else if type = 6 ∨ type = 8 then 0x14
  else 0

/-- The out pointer of a call is `NULL`, and its wrapper checks it. -/
def Request.outNull : Request → Bool
  | openDir _ out | readDir _ out | openFile _ _ out | statFile _ out | getStat _ out
  | rawOpen _ out => !out
  | _ => false

/-- How many bytes behind the first word of the answer a call copies to its caller.
`FSA_GetDeviceInfo` does not check its out pointer. -/
def Request.copySize : Request → ℕ
  | openDir _ out => if out then 4 else 0
  | openFile _ _ out => if out then 4 else 0
  | rawOpen _ out => if out then 4 else 0
  | readDir _ out => if out then sizeofFSDirectoryEntry else 0
  | statFile _ out => if out then sizeofFSStat else 0
  | getStat _ out => if out then sizeofFSStat else 0
  | getDeviceInfo _ type => deviceInfoSize type
  | _ => 0

/-- No call copies more than there is room for in the answer. -/
lemma Request.copySize_le (r : Request) : 4 + r.copySize ≤ 0x293 := by
  cases r with
  | getDeviceInfo devicePath type =>
    rw [copySize, deviceInfoSize]
    split_ifs <;> decide
  | openDir path out | readDir handle out | openFile path mode out | statFile handle out
  | getStat path out | rawOpen devicePath out =>
    rw [copySize]
    split_ifs <;> decide
  | _ => exact Nat.le_of_ble_eq_true rfl

/-! ## What a message says -/

/-- What the message of a call says about it: paths and modes up to the room there is for them,
nothing of the out pointer, and no difference between `FSA_GetStat` and `FSA_GetDeviceInfo` with the
type `5`. -/
def Request.normal : Request → Request
  | mount devicePath volumePath flags argString argStringLen =>
    mount (devicePath.take 0x27F) (volumePath.take 0x27F) flags argString argStringLen
  | unmount path flags => unmount (path.take 0x27F) flags
  | flushVolume volumePath => flushVolume (volumePath.take 0x27F)
  | makeDir path flags => makeDir (path.take 0x27F) flags
  | openDir path _ => openDir (path.take 0x27F) true
  | readDir handle _ => readDir handle true
  | changeDir path => changeDir (path.take 0x27F)
  | openFile path mode _ => openFile (path.take 0x27F) (mode.take 0x10) true
  | statFile handle _ => statFile handle true
  | getStat path _ => getDeviceInfo (path.take 0x27F) 5
  | remove path => remove (path.take 0x27F)
  | changeMode path mode => changeMode (path.take 0x27F) mode
  | getDeviceInfo devicePath type => getDeviceInfo (devicePath.take 0x27F) type
  | rawOpen devicePath _ => rawOpen (devicePath.take 0x27F) true
  | r => r

/-- The word at byte `off` of the arguments. -/
def wordIn (inbuf : List UInt8) (off : ℕ) : UInt32 := wordOfBytes ((inbuf.drop off).take 4)

/-- The string in the `n` bytes from byte `off` of the arguments on. -/
def textIn (inbuf : List UInt8) (off n : ℕ) : Text where
  chars := ((inbuf.drop off).take n).takeWhile (· ≠ 0)
  noNul h := of_decide_eq_true (List.mem_takeWhile_imp (p := fun c => decide (c ≠ 0)) h) rfl

/-- The path. -/
def pathIn (inbuf : List UInt8) : Text := textIn inbuf 0x04 0x280

/-- The call that a message with the given command comes from. -/
def readIoctl (inbuf : List UInt8) : ℕ → Option Request
  | 0x02 => some (.unmount (pathIn inbuf) (wordIn inbuf 0x284))
  | 0x05 => some (.changeDir (pathIn inbuf))
  | 0x07 => some (.makeDir (pathIn inbuf) (wordIn inbuf 0x284))
  | 0x08 => some (.remove (pathIn inbuf))
  | 0x0A => some (.openDir (pathIn inbuf) true)
  | 0x0B => some (.readDir (wordIn inbuf 0x04) true)
  | 0x0C => some (.rewindDir (wordIn inbuf 0x04))
  | 0x0D => some (.closeDir (wordIn inbuf 0x04))
  | 0x0E => some (.openFile (pathIn inbuf) (textIn inbuf 0x284 0x14) true)
  | 0x12 => some (.setPosFile (wordIn inbuf 0x04) (wordIn inbuf 0x08))
  | 0x14 => some (.statFile (wordIn inbuf 0x04) true)
  | 0x15 => some (.closeFile (wordIn inbuf 0x04))
  | 0x18 => some (.getDeviceInfo (pathIn inbuf) (wordIn inbuf 0x284))
  | 0x1B => some (.flushVolume (pathIn inbuf))
  | 0x20 => some (.changeMode (pathIn inbuf) (wordIn inbuf 0x284))
  | 0x6A => some (.rawOpen (pathIn inbuf) true)
  | 0x6D => some (.rawClose (wordIn inbuf 0x04))
  | _ => none

/-- The call that a vectored message with the given command comes from, with the vector that the
caller hands over. -/
def readIoctlv (inbuf : List UInt8) (data len : UInt32) : ℕ → Option Request
  | 0x01 => some (.mount (pathIn inbuf) (textIn inbuf 0x284 0x280) (wordIn inbuf 0x504) data len)
  | 0x0F => some (.readFile data (wordIn inbuf 0x08) (wordIn inbuf 0x0C) (wordIn inbuf 0x14)
      (wordIn inbuf 0x18))
  | 0x10 => some (.writeFile data (wordIn inbuf 0x08) (wordIn inbuf 0x0C) (wordIn inbuf 0x14)
      (wordIn inbuf 0x18))
  | 0x6B => some (.rawRead data (wordIn inbuf 0x14) (wordIn inbuf 0x10)
      (.ofNat ((wordIn inbuf 0x08).toNat * 2 ^ 32 + (wordIn inbuf 0x0C).toNat)) (wordIn inbuf 0x18))
  | 0x6C => some (.rawWrite data (wordIn inbuf 0x14) (wordIn inbuf 0x10)
      (.ofNat ((wordIn inbuf 0x08).toNat * 2 ^ 32 + (wordIn inbuf 0x0C).toNat)) (wordIn inbuf 0x18))
  | _ => none

/-- The call that a message comes from. -/
def Message.read : Message → Option Request
  | .ioctl command inbuf _ => readIoctl inbuf command
  | .ioctlv command _ _ inbuf iovec =>
    readIoctlv inbuf (iovec.getD 1 default).1 (iovec.getD 1 default).2 command

/-! ## Fields -/

section Fields

variable {fields : List Store} (heap : Frame)

/-- The buffer is cleared. -/
lemma allocIobuf_apply {i : ℕ} (hi : i < 0x828) : allocIobuf heap i = 0 := by
  rw [allocIobuf, Frame.store_of_le heap _ (Nat.zero_le i), Nat.sub_zero,
    List.getElem?_replicate_of_lt hi, Option.getD_some]

/-- A word among the arguments. -/
lemma wordIn_eq (hfields : fields.Pairwise Store.Disjoint) {off : ℕ} {w : UInt32}
    (hoff : off + 4 ≤ 0x520) (hw : wordField off w ∈ fields) :
    wordIn (((allocIobuf heap).storeAll fields).load 0 0x520) off = w := by
  rw [wordIn, Frame.take_drop_load _ hoff]
  exact Frame.wordOfBytes_load_storeAll _ hfields off hw

/-- A string among the arguments, behind which there is a zero. -/
lemma textIn_eq (hfields : fields.Pairwise Store.Disjoint) {off n m : ℕ} {s : Text}
    (hoff : off + m ≤ 0x520) (hm : n < m) (hs : stringField off s.chars n ∈ fields)
    (hbehind : ∀ t ∈ fields, ¬ t.Writes (off + n)) :
    textIn (((allocIobuf heap).storeAll fields).load 0 0x520) off m = s.take n := by
  apply Text.ext
  have hzero : (allocIobuf heap).storeAll fields (off + n) = 0 := by
    rw [Frame.storeAll_of_not_writes _ hbehind, allocIobuf_apply heap (by omega)]
  show (List.take m (List.drop off _)).takeWhile _ = _
  rw [Frame.take_drop_load _ hoff]
  exact Frame.cString_storeAll _ hfields hs s.noNul hzero hm

/-- A path is the only argument. -/
lemma pathIn_path (path : Text) :
    pathIn (((allocIobuf heap).storeAll [pathField path]).load 0 0x520) = path.take 0x27F := by
  apply textIn_eq heap (List.pairwise_singleton _ _) (by decide) (by decide)
    (List.mem_singleton_self _)
  simp [Store.Writes, stringField]

/-- A handle is the only argument. -/
lemma wordIn_handle (handle : UInt32) :
    wordIn (((allocIobuf heap).storeAll [wordField 0x04 handle]).load 0 0x520) 0x04 = handle :=
  wordIn_eq heap (List.pairwise_singleton _ _) (by decide) (List.mem_singleton_self _)

/-- A path, and a word behind it. -/
lemma pathIn_flags (path : Text) (w : UInt32) :
    pathIn (((allocIobuf heap).storeAll [pathField path, wordField 0x284 w]).load 0 0x520) =
        path.take 0x27F ∧
      wordIn (((allocIobuf heap).storeAll [pathField path, wordField 0x284 w]).load 0 0x520) 0x284 =
        w := by
  have hfields : [pathField path, wordField 0x284 w].Pairwise Store.Disjoint := by
    simp [Store.Disjoint, pathField, stringField, wordField]
  refine ⟨textIn_eq heap hfields (by decide) (by decide) List.mem_cons_self ?_,
    wordIn_eq heap hfields (by decide) (by simp)⟩
  simp [Store.Writes, pathField, stringField, wordField]

/-- A path, a mode and its mask. -/
lemma pathIn_mode (path : Text) (mode mask : UInt32) :
    pathIn (((allocIobuf heap).storeAll
        [pathField path, wordField 0x284 mode, wordField 0x288 mask]).load 0 0x520) =
          path.take 0x27F ∧
      wordIn (((allocIobuf heap).storeAll
        [pathField path, wordField 0x284 mode, wordField 0x288 mask]).load 0 0x520) 0x284 =
          mode := by
  have hfields : [pathField path, wordField 0x284 mode, wordField 0x288 mask].Pairwise
      Store.Disjoint := by
    simp [Store.Disjoint, pathField, stringField, wordField]
  refine ⟨textIn_eq heap hfields (by decide) (by decide) List.mem_cons_self ?_,
    wordIn_eq heap hfields (by decide) (by simp)⟩
  simp [Store.Writes, pathField, stringField, wordField]

/-- A path and the mode of a file. -/
lemma pathIn_openFile (path mode : Text) :
    pathIn (((allocIobuf heap).storeAll
        [pathField path, stringField 0x284 mode.chars 0x10]).load 0 0x520) = path.take 0x27F ∧
      textIn (((allocIobuf heap).storeAll
        [pathField path, stringField 0x284 mode.chars 0x10]).load 0 0x520) 0x284 0x14 =
          mode.take 0x10 := by
  have hfields : [pathField path, stringField 0x284 mode.chars 0x10].Pairwise
      Store.Disjoint := by
    simp [Store.Disjoint, pathField, stringField]
  refine ⟨textIn_eq heap hfields (by decide) (by decide) List.mem_cons_self ?_,
    textIn_eq heap hfields (by decide) (by decide) (by simp) ?_⟩
  · simp [Store.Writes, pathField, stringField]
  · simp [Store.Writes, pathField, stringField]

/-- The vector that the caller hands over. -/
lemma iovec_eq (command numIn numOut : ℕ) (hnum : 1 < numIn + numOut) {data len iobuf : UInt32}
    (hfields : (fields ++ iovecFields iobuf data len).Pairwise Store.Disjoint) :
    ∃ iovec, iovec.getD 1 default = (data, len) ∧
      ioctlv command numIn numOut fields data len iobuf heap =
        .ioctlv command numIn numOut (((allocIobuf heap).storeAll
          (fields ++ iovecFields iobuf data len)).load 0 0x520) iovec := by
  refine ⟨_, ?_, rfl⟩
  rw [List.getD_eq_getElem _ _ (by simpa using hnum), List.getElem_map, List.getElem_range]
  refine Prod.ext ?_ ?_
  · exact Frame.wordOfBytes_load_storeAll _ hfields 0x7CC (by simp [iovecFields])
  · exact Frame.wordOfBytes_load_storeAll _ hfields 0x7D0 (by simp [iovecFields])

/-- The arguments of a read or a write of a file. -/
lemma wordIn_readWriteFile (data size cnt fileHandle flags iobuf : UInt32) :
    let fields := [wordField 0x08 size, wordField 0x0C cnt, wordField 0x14 fileHandle,
      wordField 0x18 flags]
    (fields ++ iovecFields iobuf data (size * cnt)).Pairwise Store.Disjoint ∧
      ∀ inbuf, inbuf = ((allocIobuf heap).storeAll
          (fields ++ iovecFields iobuf data (size * cnt))).load 0 0x520 →
        wordIn inbuf 0x08 = size ∧ wordIn inbuf 0x0C = cnt ∧ wordIn inbuf 0x14 = fileHandle ∧
          wordIn inbuf 0x18 = flags := by
  intro fields
  have hfields : (fields ++ iovecFields iobuf data (size * cnt)).Pairwise Store.Disjoint := by
    simp [fields, Store.Disjoint, wordField, iovecFields]
  refine ⟨hfields, ?_⟩
  intro inbuf hinbuf
  rw [hinbuf]
  refine ⟨?_, ?_, ?_, ?_⟩
  · exact wordIn_eq heap hfields (by decide) (by simp [fields])
  · exact wordIn_eq heap hfields (by decide) (by simp [fields])
  · exact wordIn_eq heap hfields (by decide) (by simp [fields])
  · exact wordIn_eq heap hfields (by decide) (by simp [fields])

/-- The two halves of an offset. -/
lemma blocksOffset_eq (blocksOffset : UInt64) :
    UInt64.ofNat ((blocksOffset >>> 32).toUInt32.toNat * 2 ^ 32 +
      (blocksOffset &&& 0xFFFFFFFF).toUInt32.toNat) = blocksOffset := by
  have hlow : (blocksOffset &&& 0xFFFFFFFF).toUInt32.toNat = blocksOffset.toNat % 2 ^ 32 := by
    rw [UInt64.toNat_toUInt32, UInt64.toNat_and]
    show (blocksOffset.toNat &&& (2 ^ 32 - 1)) % 2 ^ 32 = _
    rw [Nat.and_two_pow_sub_one_eq_mod, Nat.mod_mod]
  have hhigh : (blocksOffset >>> 32).toUInt32.toNat = blocksOffset.toNat / 2 ^ 32 := by
    have hlt := blocksOffset.toNat_lt
    rw [UInt64.toNat_toUInt32, UInt64.toNat_shiftRight]
    show blocksOffset.toNat >>> 32 % 2 ^ 32 = _
    rw [Nat.shiftRight_eq_div_pow, Nat.mod_eq_of_lt (by omega)]
  rw [hlow, hhigh, Nat.mul_comm, Nat.div_add_mod, UInt64.ofNat_toNat]

/-- The arguments of a raw read or write. -/
lemma wordIn_raw (data sizeBytes cnt : UInt32) (blocksOffset : UInt64)
    (deviceHandle iobuf : UInt32) :
    let fields := rawFields sizeBytes cnt blocksOffset deviceHandle
    (fields ++ iovecFields iobuf data (sizeBytes * cnt)).Pairwise Store.Disjoint ∧
      ∀ inbuf, inbuf = ((allocIobuf heap).storeAll
          (fields ++ iovecFields iobuf data (sizeBytes * cnt))).load 0 0x520 →
        wordIn inbuf 0x14 = sizeBytes ∧ wordIn inbuf 0x10 = cnt ∧
          UInt64.ofNat ((wordIn inbuf 0x08).toNat * 2 ^ 32 + (wordIn inbuf 0x0C).toNat) =
            blocksOffset ∧ wordIn inbuf 0x18 = deviceHandle := by
  intro fields
  have hfields : (fields ++ iovecFields iobuf data (sizeBytes * cnt)).Pairwise
      Store.Disjoint := by
    simp [fields, rawFields, Store.Disjoint, wordField, iovecFields]
  refine ⟨hfields, ?_⟩
  intro inbuf hinbuf
  rw [hinbuf]
  refine ⟨?_, ?_, ?_, ?_⟩
  · exact wordIn_eq heap hfields (by decide) (by simp [fields, rawFields])
  · exact wordIn_eq heap hfields (by decide) (by simp [fields, rawFields])
  · rw [wordIn_eq heap hfields (w := (blocksOffset >>> 32).toUInt32)
        (by decide : 0x08 + 4 ≤ 0x520) (by simp [fields, rawFields]),
      wordIn_eq heap hfields (w := (blocksOffset &&& 0xFFFFFFFF).toUInt32)
        (by decide : 0x0C + 4 ≤ 0x520) (by simp [fields, rawFields]), blocksOffset_eq]
  · exact wordIn_eq heap hfields (by decide) (by simp [fields, rawFields])

/-- The arguments of a mount. -/
lemma textIn_mount (devicePath volumePath : Text) (flags argString argStringLen iobuf : UInt32) :
    let fields := [pathField devicePath, stringField 0x284 volumePath.chars 0x27F,
      wordField 0x504 flags, wordField 0x508 argStringLen]
    (fields ++ iovecFields iobuf argString argStringLen).Pairwise Store.Disjoint ∧
      ∀ inbuf, inbuf = ((allocIobuf heap).storeAll
          (fields ++ iovecFields iobuf argString argStringLen)).load 0 0x520 →
        pathIn inbuf = devicePath.take 0x27F ∧
          textIn inbuf 0x284 0x280 = volumePath.take 0x27F ∧ wordIn inbuf 0x504 = flags := by
  intro fields
  have hfields : (fields ++ iovecFields iobuf argString argStringLen).Pairwise
      Store.Disjoint := by
    simp [fields, pathField, stringField, Store.Disjoint, wordField, iovecFields]
  refine ⟨hfields, ?_⟩
  intro inbuf hinbuf
  rw [hinbuf]
  refine ⟨?_, ?_, ?_⟩
  · refine textIn_eq heap hfields (by decide) (by decide) (by simp [fields, pathField]) ?_
    simp [fields, Store.Writes, pathField, stringField, wordField, iovecFields]
  · refine textIn_eq heap hfields (by decide) (by decide) (by simp [fields]) ?_
    simp [fields, Store.Writes, pathField, stringField, wordField, iovecFields]
  · exact wordIn_eq heap hfields (by decide) (by simp [fields])

end Fields

/-! ## Which calls give the same message -/

/-- A vectored message and the vector that the caller hands over. -/
lemma read_ioctlv {command numIn numOut : ℕ} {inbuf : List UInt8}
    {iovec : List (UInt32 × UInt32)} {data len : UInt32} (h : iovec.getD 1 default = (data, len)) :
    (Message.ioctlv command numIn numOut inbuf iovec).read =
      readIoctlv inbuf data len command := by
  rw [Message.read, h]

/-- **Round trip.** From the message of a call one gets back what it says about the call, whatever
the heap holds.

**Proof sketch.** Case by case: the fields of a message have no byte in common, and behind its
strings there are zeros. -/
lemma read_message (iobuf : UInt32) (heap : Frame) (r : Request) :
    (r.message iobuf heap).read = some r.normal := by
  cases r with
  | mount devicePath volumePath flags argString argStringLen =>
    obtain ⟨hfields, hargs⟩ :=
      textIn_mount heap devicePath volumePath flags argString argStringLen iobuf
    obtain ⟨iovec, hiovec, hmessage⟩ := iovec_eq heap 0x01 2 1 (by decide) hfields
    obtain ⟨hpath, hvolume, hflags⟩ := hargs _ rfl
    rw [Request.message, fsaMount, hmessage, read_ioctlv hiovec, readIoctlv, hpath, hvolume,
      hflags]
    rfl
  | unmount path flags =>
    obtain ⟨hpath, hflags⟩ := pathIn_flags heap path flags
    rw [Request.message, fsaUnmount, ioctl, Message.read, readIoctl, hpath, hflags]
    rfl
  | flushVolume path =>
    rw [Request.message, fsaFlushVolume, ioctl, Message.read, readIoctl, pathIn_path]
    rfl
  | makeDir path flags =>
    obtain ⟨hpath, hflags⟩ := pathIn_flags heap path flags
    rw [Request.message, fsaMakeDir, ioctl, Message.read, readIoctl, hpath, hflags]
    rfl
  | openDir path out =>
    rw [Request.message, fsaOpenDir, ioctl, Message.read, readIoctl, pathIn_path]
    rfl
  | readDir handle out =>
    rw [Request.message, fsaReadDir, ioctl, Message.read, readIoctl, wordIn_handle]
    rfl
  | rewindDir handle =>
    rw [Request.message, fsaRewindDir, ioctl, Message.read, readIoctl, wordIn_handle]
    rfl
  | closeDir handle =>
    rw [Request.message, fsaCloseDir, ioctl, Message.read, readIoctl, wordIn_handle]
    rfl
  | changeDir path =>
    rw [Request.message, fsaChangeDir, ioctl, Message.read, readIoctl, pathIn_path]
    rfl
  | openFile path mode out =>
    obtain ⟨hpath, hmode⟩ := pathIn_openFile heap path mode
    rw [Request.message, fsaOpenFile, ioctl, Message.read, readIoctl, hpath, hmode]
    rfl
  | readFile data size cnt fileHandle flags =>
    obtain ⟨hfields, hargs⟩ := wordIn_readWriteFile heap data size cnt fileHandle flags iobuf
    obtain ⟨iovec, hiovec, hmessage⟩ := iovec_eq heap 0x0F 1 2 (by decide) hfields
    obtain ⟨hsize, hcnt, hhandle, hflags⟩ := hargs _ rfl
    rw [Request.message, fsaReadWriteFile, if_pos rfl, hmessage, read_ioctlv hiovec, readIoctlv,
      hsize, hcnt, hhandle, hflags]
    rfl
  | writeFile data size cnt fileHandle flags =>
    obtain ⟨hfields, hargs⟩ := wordIn_readWriteFile heap data size cnt fileHandle flags iobuf
    obtain ⟨iovec, hiovec, hmessage⟩ := iovec_eq heap 0x10 2 1 (by decide) hfields
    obtain ⟨hsize, hcnt, hhandle, hflags⟩ := hargs _ rfl
    rw [Request.message, fsaReadWriteFile, if_neg Bool.false_ne_true, hmessage,
      read_ioctlv hiovec, readIoctlv, hsize, hcnt, hhandle, hflags]
    rfl
  | statFile handle out =>
    rw [Request.message, fsaStatFile, ioctl, Message.read, readIoctl, wordIn_handle]
    rfl
  | closeFile handle =>
    rw [Request.message, fsaCloseFile, ioctl, Message.read, readIoctl, wordIn_handle]
    rfl
  | setPosFile handle position =>
    have hfields : [wordField 0x04 handle, wordField 0x08 position].Pairwise Store.Disjoint := by
      simp [Store.Disjoint, wordField]
    rw [Request.message, fsaSetPosFile, ioctl, Message.read, readIoctl,
      wordIn_eq heap hfields (by decide) List.mem_cons_self,
      wordIn_eq heap hfields (w := position) (by decide) (by simp)]
    rfl
  | getStat path out =>
    obtain ⟨hpath, hflags⟩ := pathIn_flags heap path 5
    rw [Request.message, fsaGetStat, ioctl, Message.read, readIoctl, hpath, hflags]
    rfl
  | remove path =>
    rw [Request.message, fsaRemove, ioctl, Message.read, readIoctl, pathIn_path]
    rfl
  | changeMode path mode =>
    obtain ⟨hpath, hmode⟩ := pathIn_mode heap path mode 0x777
    rw [Request.message, fsaChangeMode, ioctl, Message.read, readIoctl, hpath, hmode]
    rfl
  | getDeviceInfo path type =>
    obtain ⟨hpath, htype⟩ := pathIn_flags heap path type
    rw [Request.message, fsaGetDeviceInfo, ioctl, Message.read, readIoctl, hpath, htype]
    rfl
  | rawOpen path out =>
    rw [Request.message, fsaRawOpen, ioctl, Message.read, readIoctl, pathIn_path]
    rfl
  | rawClose handle =>
    rw [Request.message, fsaRawClose, ioctl, Message.read, readIoctl, wordIn_handle]
    rfl
  | rawRead data sizeBytes cnt blocksOffset deviceHandle =>
    obtain ⟨hfields, hargs⟩ := wordIn_raw heap data sizeBytes cnt blocksOffset deviceHandle iobuf
    obtain ⟨iovec, hiovec, hmessage⟩ := iovec_eq heap 0x6B 1 2 (by decide) hfields
    obtain ⟨hsize, hcnt, hoffset, hhandle⟩ := hargs _ rfl
    rw [Request.message, fsaRawRead, hmessage, read_ioctlv hiovec, readIoctlv, hsize, hcnt,
      hoffset, hhandle]
    rfl
  | rawWrite data sizeBytes cnt blocksOffset deviceHandle =>
    obtain ⟨hfields, hargs⟩ := wordIn_raw heap data sizeBytes cnt blocksOffset deviceHandle iobuf
    obtain ⟨iovec, hiovec, hmessage⟩ := iovec_eq heap 0x6C 2 1 (by decide) hfields
    obtain ⟨hsize, hcnt, hoffset, hhandle⟩ := hargs _ rfl
    rw [Request.message, fsaRawWrite, hmessage, read_ioctlv hiovec, readIoctlv, hsize, hcnt,
      hoffset, hhandle]
    rfl

/-- A byte of the buffer does not depend on what the heap has held there. -/
lemma storeAll_allocIobuf (heap heap' : Frame) (fields : List Store) {i : ℕ} (hi : i < 0x828) :
    (allocIobuf heap).storeAll fields i = (allocIobuf heap').storeAll fields i := by
  apply Frame.storeAll_congr
  rw [allocIobuf_apply heap hi, allocIobuf_apply heap' hi]

/-- Bytes of the buffer do not depend on what the heap has held there. -/
lemma load_allocIobuf (heap heap' : Frame) (fields : List Store) {off n : ℕ}
    (h : off + n ≤ 0x828) :
    ((allocIobuf heap).storeAll fields).load off n =
      ((allocIobuf heap').storeAll fields).load off n :=
  Frame.load_congr fun _ _ hi => storeAll_allocIobuf heap heap' fields (hi.trans_le h)

/-- A message does not depend on what the heap has held. -/
lemma ioctl_heap (heap heap' : Frame) (command : ℕ) (fields : List Store) :
    ioctl command fields heap = ioctl command fields heap' := by
  rw [ioctl, ioctl, load_allocIobuf heap heap' fields (by decide)]

/-- A vectored message does not depend on what the heap has held. -/
lemma ioctlv_heap (heap heap' : Frame) {command numIn numOut : ℕ} (hnum : numIn + numOut ≤ 3)
    (fields : List Store) (data len iobuf : UInt32) :
    ioctlv command numIn numOut fields data len iobuf heap =
      ioctlv command numIn numOut fields data len iobuf heap' := by
  have hword : ∀ i, 4 * i + 4 ≤ 0x828 →
      ((allocIobuf heap).storeAll (fields ++ iovecFields iobuf data len)).word i =
        ((allocIobuf heap').storeAll (fields ++ iovecFields iobuf data len)).word i := by
    intro i hi
    rw [Frame.word, Frame.word, load_allocIobuf heap heap' _ hi]
  refine congrArg₂ (Message.ioctlv command numIn numOut)
    (load_allocIobuf heap heap' _ (by decide)) (List.map_congr_left fun i hi => ?_)
  have hi := List.mem_range.mp hi
  exact Prod.ext (hword _ (by omega)) (hword _ (by omega))

/-- A path that is cut off gives the same field. -/
@[simp] lemma pathField_take (path : Text) : pathField (path.take 0x27F) = pathField path := by
  rw [pathField, pathField, stringField, stringField, Text.take, strncpy_take]

/-- What is not in the message does not matter. -/
lemma message_normal (iobuf : UInt32) (heap heap' : Frame) (r : Request) :
    r.normal.message iobuf heap = r.message iobuf heap' := by
  have hstring : ∀ (s : Text) (off n : ℕ),
      stringField off (s.take n).chars n = stringField off s.chars n := by
    intro s off n
    rw [stringField, stringField, Text.take, strncpy_take]
  cases r with
  | mount devicePath volumePath flags argString argStringLen =>
    rw [Request.normal, Request.message, Request.message, fsaMount, fsaMount, pathField_take,
      hstring, ioctlv_heap heap heap' (by decide)]
  | openFile path mode out =>
    rw [Request.normal, Request.message, Request.message, fsaOpenFile, fsaOpenFile,
      pathField_take, hstring, ioctl_heap heap heap']
  | readFile data size cnt fileHandle flags => exact ioctlv_heap heap heap' (by decide) _ _ _ _
  | writeFile data size cnt fileHandle flags => exact ioctlv_heap heap heap' (by decide) _ _ _ _
  | rawRead data sizeBytes cnt blocksOffset deviceHandle =>
    exact ioctlv_heap heap heap' (by decide) _ _ _ _
  | rawWrite data sizeBytes cnt blocksOffset deviceHandle =>
    exact ioctlv_heap heap heap' (by decide) _ _ _ _
  | unmount path flags =>
    rw [Request.normal, Request.message, fsaUnmount, pathField_take]
    exact ioctl_heap heap heap' _ _
  | makeDir path flags =>
    rw [Request.normal, Request.message, fsaMakeDir, pathField_take]
    exact ioctl_heap heap heap' _ _
  | changeMode path mode =>
    rw [Request.normal, Request.message, fsaChangeMode, pathField_take]
    exact ioctl_heap heap heap' _ _
  | getDeviceInfo path type =>
    rw [Request.normal, Request.message, fsaGetDeviceInfo, pathField_take]
    exact ioctl_heap heap heap' _ _
  | getStat path out =>
    show ioctl 0x18 [pathField (path.take 0x27F), wordField 0x284 5] heap = _
    rw [pathField_take]
    exact ioctl_heap heap heap' _ _
  | flushVolume path =>
    rw [Request.normal, Request.message, fsaFlushVolume, pathField_take]
    exact ioctl_heap heap heap' _ _
  | openDir path out =>
    rw [Request.normal, Request.message, fsaOpenDir, pathField_take]
    exact ioctl_heap heap heap' _ _
  | changeDir path =>
    rw [Request.normal, Request.message, fsaChangeDir, pathField_take]
    exact ioctl_heap heap heap' _ _
  | remove path =>
    rw [Request.normal, Request.message, fsaRemove, pathField_take]
    exact ioctl_heap heap heap' _ _
  | rawOpen path out =>
    rw [Request.normal, Request.message, fsaRawOpen, pathField_take]
    exact ioctl_heap heap heap' _ _
  | readDir handle out => exact ioctl_heap heap heap' _ _
  | rewindDir handle => exact ioctl_heap heap heap' _ _
  | closeDir handle => exact ioctl_heap heap heap' _ _
  | statFile handle out => exact ioctl_heap heap heap' _ _
  | closeFile handle => exact ioctl_heap heap heap' _ _
  | setPosFile handle position => exact ioctl_heap heap heap' _ _
  | rawClose handle => exact ioctl_heap heap heap' _ _

/-- What is not in the message does not matter for the answer either, except for the out pointer. -/
lemma Request.copySize_eq (r : Request) :
    r.copySize = if r.outNull then 0 else r.normal.copySize := by
  cases r with
  | openDir path out | readDir handle out | openFile path mode out | statFile handle out
  | getStat path out | rawOpen devicePath out => cases out <;> rfl
  | _ => rfl

/-- **The messages of the file system.** Whatever the heap has held, two calls give the same message
exactly if they are the same call, up to the characters of a path behind the first `0x27F` and of a
mode behind the first `0x10`, and up to the out pointer, where `FSA_GetStat` is `FSA_GetDeviceInfo`
with the type `5`. Calls with the same message copy the same part of an answer, unless it is only
one of them whose out pointer is found to be `NULL`, which copies nothing. No call copies what is
behind the answer. -/
theorem message_eq_iff (iobuf : UInt32) (heap heap' : Frame) (r r' : Request) :
    (r.message iobuf heap = r'.message iobuf heap' ↔ r.normal = r'.normal) ∧
      (r.message iobuf heap = r'.message iobuf heap' → r.outNull = r'.outNull →
        r.copySize = r'.copySize) ∧
      (r.outNull = true → r.copySize = 0) ∧ 4 + r.copySize ≤ 0x293 := by
  have hnormal : r.message iobuf heap = r'.message iobuf heap' → r.normal = r'.normal := by
    intro h
    have hread : (r.message iobuf heap).read = (r'.message iobuf heap').read := by rw [h]
    rw [read_message, read_message] at hread
    exact Option.some.inj hread
  refine ⟨⟨hnormal, fun h => ?_⟩, fun h hout => ?_, fun hout => ?_, r.copySize_le⟩
  · rw [← message_normal iobuf heap heap r, h, message_normal iobuf heap heap' r']
  · rw [r.copySize_eq, r'.copySize_eq, hout, hnormal h]
  · rw [r.copySize_eq, if_pos hout]

end Fsa

end RecoveryMenu

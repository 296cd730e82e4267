import RecoveryMenu.Foundations.Ledger
import RecoveryMenu.Options.DumpSyslogs
import RecoveryMenu.Options.LoadBoot1Payload.Payload
import RecoveryMenu.Options.LoadNetConf.Option

set_option relaxedAutoImplicit false
set_option autoImplicit false

/-!
# Handles and buffers of the file paths

Four functions open files and directories and allocate buffers, and clean up by hand on each of
their exits. A handle is a number, and the number of a file that has been closed may come back
for another one; a buffer goes by the variable that holds it, which each call assigns once.

## Main definitions

* `RecoveryMenu.Handles.Resource`: a file, a directory or a buffer.
* `RecoveryMenu.Handles.fsaOps`, and what the calls of each function do with the resources.

## Main results

* `RecoveryMenu.Handles.disciplined`: all four functions release what they acquire, once, and use
  nothing else.

## References

* `ios_mcp/source/utils.c`, lines 120-153.
* `ios_mcp/source/options/DumpSyslogs.c`, lines 28-64.
* `ios_mcp/source/options/LoadNetConf.c`, lines 88-170.
* `ios_mcp/source/options/LoadBoot1Payload.c`, lines 179-268.
-/

namespace RecoveryMenu

namespace Handles

open Lifetime Menu

/-- The variables that hold buffers. -/
inductive Buffer
  | dataBuffer
  | cfgBuffer
  /-- `prshIvBuf` of `preparePrshHax`. -/
  | prshIvBuf
  /-- `buf` of `netconf_set_running`. -/
  | iobuf
  deriving DecidableEq, Repr

/-- What can be acquired. -/
inductive Resource
  | file (handle : ℤ)
  | dir (handle : ℤ)
  | buffer (b : Buffer)
  deriving DecidableEq, Repr

/-! ## What the calls do -/

/-- What a call of the file system or of the heap does, for the buffer `b`. -/
def fsaOps (b : Buffer) : Fsa.Call → List (Op Resource)
  | .openFile _ _ res handle => if res < 0 then [] else [.acquire (.file handle)]
  | .readFile _ handle _ => [.use (.file handle), .use (.buffer b)]
  | .writeFile _ handle _ => [.use (.file handle), .use (.buffer b)]
  | .closeFile handle => [.release (.file handle)]
  | .heapAlloc _ ok => if ok then [.acquire (.buffer b)] else []
  | .heapFree => [.release (.buffer b)]

/-- What a call of `copy_file` does. -/
def copyOps (calls : List Fsa.Call) : List (Op Resource) := calls.flatMap (fsaOps .dataBuffer)

/-- What a call of `option_DumpSyslogs` does. -/
def syslogsOps : DumpSyslogs.Call → List (Op Resource)
  | .makeDir _ _ _ => []
  | .openDir _ res handle => if res < 0 then [] else [.acquire (.dir handle)]
  | .readDir handle _ => [.use (.dir handle)]
  | .copyFile _ _ outcome => copyOps outcome.calls
  | .closeDir handle => [.release (.dir handle)]

/-- What a call of `option_LoadNetConf` does. -/
def netConfOps : LoadNetConf.OptionCall → List (Op Resource)
  | .netconfInit _ => []
  | .fsa c => fsaOps .cfgBuffer c
  | .statFile handle _ => [.use (.file handle)]
  | .terminate _ => [.use (.buffer .cfgBuffer)]
  | .scan touched => touched.map fun _ => .use (.buffer .cfgBuffer)
  | .parseConfigValue _ _ _ => [.use (.buffer .cfgBuffer)]
  | .netconfSetRunning _ _ =>
    [.acquire (.buffer .iobuf), .use (.buffer .iobuf), .use (.buffer .iobuf),
      .release (.buffer .iobuf)]

/-- What a call of `loadBoot1Payload` does. -/
def payloadOps : LoadBoot1Payload.PayloadCall → List (Op Resource)
  | .fsa c => fsaOps .dataBuffer c
  | .readData _ => [.use (.buffer .dataBuffer)]
  | .kernWrite32 _ _ => []
  | .allocIv ok => if ok then [.acquire (.buffer .prshIvBuf)] else []
  | .copyIv => [.use (.buffer .prshIvBuf)]
  | .encryptPrsh _ => [.use (.buffer .prshIvBuf)]
  | .freeIv => [.release (.buffer .prshIvBuf)]
  | .shutdown => []

/-- What a run of an option does, for what its calls do. -/
def eventsOps {C : Type} (ops : C → List (Op Resource)) (events : List (Event C)) :
    List (Op Resource) :=
  events.flatMap fun event => match event with
    | .call c => ops c
    | _ => []

section Events

variable {C : Type} (ops : C → List (Op Resource))

/-- One run after another. -/
lemma eventsOps_append (a b : List (Event C)) :
    eventsOps ops (a ++ b) = eventsOps ops a ++ eventsOps ops b :=
  List.flatMap_append

/-- A call and what follows. -/
@[simp] lemma eventsOps_call (c : C) (events : List (Event C)) :
    eventsOps ops (.call c :: events) = ops c ++ eventsOps ops events := rfl

/-- Nothing happens. -/
@[simp] lemma eventsOps_nil : eventsOps ops [] = [] := rfl

/-- A text and what follows. -/
@[simp] lemma eventsOps_print (format : String) (args : List Arg) (events : List (Event C)) :
    eventsOps ops (.print format args :: events) = eventsOps ops events := rfl

/-- An error and what follows. -/
@[simp] lemma eventsOps_printError (format : String) (args : List Arg) (events : List (Event C)) :
    eventsOps ops (.printError format args :: events) = eventsOps ops events := rfl

/-- A title and what follows. -/
@[simp] lemma eventsOps_drawTopBar (title : String) (events : List (Event C)) :
    eventsOps ops (.drawTopBar title :: events) = eventsOps ops events := rfl

/-- A colour and what follows. -/
@[simp] lemma eventsOps_setNotificationLED (mask : UInt8) (events : List (Event C)) :
    eventsOps ops (.setNotificationLED mask :: events) = eventsOps ops events := rfl

/-- A wait and what follows. -/
@[simp] lemma eventsOps_waitButtonInput (events : List (Event C)) :
    eventsOps ops (.waitButtonInput :: events) = eventsOps ops events := rfl

end Events

/-! ## `copy_file` -/

/-- The calls of `copy_file`, part by part. -/
lemma copyOps_append (a b : List Fsa.Call) : copyOps (a ++ b) = copyOps a ++ copyOps b :=
  List.flatMap_append

/-- The copy loop only uses the two files and the buffer.

**Proof sketch.** Induction on the turns. -/
lemma exists_copyLoop_calls (rh wh last : ℤ) (ts : List CopyFile.Turn) (stored : List UInt8)
    (calls : List Fsa.Call) :
    ∃ more, (CopyFile.copyLoop rh wh last ts stored calls).calls = calls ++ more ∧
      ∀ op ∈ copyOps more,
        ∃ x ∈ [Resource.file rh, .file wh, .buffer .dataBuffer], op = .use x := by
  induction ts generalizing stored calls with
  | nil =>
    refine ⟨_, rfl, ?_⟩
    simp [copyOps, fsaOps]
  | cons t ts ih =>
    have hturn : ∀ op ∈ copyOps [.readFile CopyFile.copyBufferSize rh t.chunk.length,
        .writeFile t.chunk.length wh t.written],
        ∃ x ∈ [Resource.file rh, .file wh, .buffer .dataBuffer], op = .use x := by
      simp [copyOps, fsaOps]
    rw [CopyFile.copyLoop]
    split_ifs with hfailed
    · exact ⟨_, rfl, hturn⟩
    · obtain ⟨more, hcalls, hmore⟩ := ih (stored ++ t.chunk.take t.written.toNat)
        (calls ++ [.readFile CopyFile.copyBufferSize rh t.chunk.length,
          .writeFile t.chunk.length wh t.written])
      refine ⟨_, hcalls.trans (List.append_assoc _ _ _), ?_⟩
      rw [copyOps_append, List.forall_mem_append]
      exact ⟨hturn, hmore⟩

/-- `copy_file` leaves what is held as it is.

**Proof sketch.** One case for each exit. The loop only uses what is held. -/
lemma hold_copyFile {content : List UInt8} (f : CopyFile.Results content) (src dst : String)
    (s : Multiset Resource) :
    hold s (copyOps (CopyFile.copyFile f src dst).calls) = some s := by
  unfold CopyFile.copyFile
  by_cases hsrc : f.openSrc < 0
  · simp [hsrc, copyOps, fsaOps]
  by_cases hdst : f.openDst < 0
  · simp [hsrc, hdst, copyOps, fsaOps]
  by_cases halloc : f.heapAlloc
  · obtain ⟨more, hcalls, hmore⟩ := exists_copyLoop_calls f.readHandle f.writeHandle f.lastRead
      f.turns [] [.openFile src "r" f.openSrc f.readHandle,
        .openFile dst "w" f.openDst f.writeHandle, .heapAlloc CopyFile.copyBufferSize true]
    have huses : hold (.buffer .dataBuffer ::ₘ .file f.writeHandle ::ₘ .file f.readHandle ::ₘ s)
        (copyOps more) =
          some (.buffer .dataBuffer ::ₘ .file f.writeHandle ::ₘ .file f.readHandle ::ₘ s) := by
      refine hold_uses fun op hop => ?_
      obtain ⟨x, hx, rfl⟩ := hmore op hop
      refine ⟨x, ?_, rfl⟩
      simp only [List.mem_cons, List.not_mem_nil, or_false] at hx
      rcases hx with rfl | rfl | rfl <;> simp
    simp only [hsrc, hdst, halloc, if_false, not_true]
    have hopen : copyOps [.openFile src "r" f.openSrc f.readHandle,
        .openFile dst "w" f.openDst f.writeHandle, .heapAlloc CopyFile.copyBufferSize true] =
          [.acquire (.file f.readHandle), .acquire (.file f.writeHandle),
            .acquire (.buffer .dataBuffer)] := by
      simp [copyOps, fsaOps, hsrc, hdst]
    rw [hcalls, copyOps_append, copyOps_append, hopen, List.append_assoc]
    show hold _ (copyOps more ++ _) = some s
    rw [hold_append_of_eq huses]
    show hold _ [.release _, .release _, .release _] = some s
    rw [hold_release, hold_release, hold_release, hold_nil]
  · have hcalls : copyOps [.openFile src "r" f.openSrc f.readHandle,
        .openFile dst "w" f.openDst f.writeHandle, .heapAlloc CopyFile.copyBufferSize false,
        .closeFile f.readHandle, .closeFile f.writeHandle] =
          [.acquire (.file f.readHandle), .acquire (.file f.writeHandle),
            .release (.file f.readHandle), .release (.file f.writeHandle)] := by
      simp [copyOps, fsaOps, hsrc, hdst]
    simp only [hsrc, hdst, halloc, if_false, if_true, not_false_eq_true, Bool.false_eq_true]
    rw [hcalls, hold_acquire, hold_acquire, Multiset.cons_swap, hold_release, hold_release,
      hold_nil]

/-! ## `option_DumpSyslogs` -/

/-- The loop over the entries closes the directory in the end.

**Proof sketch.** Induction on the entries read; a copy leaves what is held as it is. -/
lemma hold_copyLogs (dirHandle lastRead : ℤ) (reads : List DumpSyslogs.Read)
    (s : Multiset Resource) :
    hold (.dir dirHandle ::ₘ s)
      (eventsOps syslogsOps (DumpSyslogs.copyLogs dirHandle lastRead reads)) = some s := by
  have hmem : Resource.dir dirHandle ∈ .dir dirHandle ::ₘ s := Multiset.mem_cons_self _ s
  induction reads with
  | nil =>
    show hold _ [.use _, .release _] = some s
    rw [hold_use hmem, hold_release, hold_nil]
  | cons e reads ih =>
    have hcopy (t : Multiset Resource) : hold t (copyOps e.outcome.calls) = some t :=
      hold_copyFile e.copy e.entry.srcPath e.entry.dstPath t
    rw [DumpSyslogs.copyLogs, eventsOps_call]
    show hold _ (.use _ :: _) = some s
    rw [hold_use hmem]
    split_ifs with hdir hfailed
    · exact ih
    · show hold _ (copyOps e.outcome.calls ++ [.release _]) = some s
      rw [hold_append_of_eq (hcopy _), hold_release, hold_nil]
    · rw [eventsOps_append]
      show hold _ ((copyOps e.outcome.calls ++ []) ++ _) = some s
      rw [List.append_nil, hold_append_of_eq (hcopy _)]
      exact ih

/-- `option_DumpSyslogs` leaves what is held as it is. -/
lemma hold_optionDumpSyslogs {endOfDirectory : ℤ} {listing : List DumpSyslogs.Entry}
    (r : DumpSyslogs.Results endOfDirectory listing) (s : Multiset Resource) :
    hold s (eventsOps syslogsOps (DumpSyslogs.optionDumpSyslogs r)) = some s := by
  unfold DumpSyslogs.optionDumpSyslogs
  dsimp only
  split_ifs with hmake hopen
  · rfl
  · simp [syslogsOps, hopen]
  · rw [eventsOps_append]
    have hstart : eventsOps syslogsOps [.drawTopBar "Dumping Syslogs...",
        .setNotificationLED notifLedRedBlinking, .print "Creating 'logs' directory..." [],
        .call (.makeDir "/vol/storage_recovsd/logs" 0x600 r.makeDir)] = [] := rfl
    rw [eventsOps_append, hstart]
    simp only [eventsOps_print, eventsOps_call, eventsOps_nil, syslogsOps, if_neg hopen,
      List.append_nil, List.nil_append, List.singleton_append, hold_acquire]
    exact hold_copyLogs r.dirHandle r.lastRead r.reads s

/-! ## `option_LoadNetConf` -/

/-- The calls of the scan only use the buffer. -/
lemma hold_calls {s : Multiset Resource} (h : .buffer .cfgBuffer ∈ s)
    (calls : List LoadNetConf.Call) :
    hold s (eventsOps netConfOps (calls.flatMap LoadNetConf.Call.events)) = some s := by
  induction calls with
  | nil => rfl
  | cons c calls ih =>
    have htexts : eventsOps netConfOps
        (c.effect.texts.map fun text => .print text.1 text.2) = [] := by
      induction c.effect.texts with
      | nil => rfl
      | cons text texts iht => exact iht
    rw [List.flatMap_cons, LoadNetConf.Call.events, eventsOps_append, eventsOps_call, htexts]
    show hold s (.use _ :: _) = some s
    rw [hold_use h]
    exact ih

/-- With the file and the buffer, the rest of the option releases both. -/
lemma hold_applyConfiguration (r : LoadNetConf.Results) (s : Multiset Resource) :
    hold (.buffer .cfgBuffer ::ₘ .file r.cfgHandle ::ₘ s)
      (eventsOps netConfOps (LoadNetConf.applyConfiguration r)) = some s := by
  have hmem : Resource.buffer .cfgBuffer ∈ .buffer .cfgBuffer ::ₘ .file r.cfgHandle ::ₘ s :=
    Multiset.mem_cons_self _ _
  have hscan (touched : List ℤ) :
      hold (.buffer .cfgBuffer ::ₘ .file r.cfgHandle ::ₘ s)
        (eventsOps netConfOps [.call (.scan touched)]) =
          some (.buffer .cfgBuffer ::ₘ .file r.cfgHandle ::ₘ s) := by
    refine hold_uses fun op hop => ?_
    rw [eventsOps_call, eventsOps_nil, List.append_nil, netConfOps, List.mem_map] at hop
    obtain ⟨i, -, rfl⟩ := hop
    exact ⟨_, hmem, rfl⟩
  unfold LoadNetConf.applyConfiguration
  rw [List.append_assoc, List.append_assoc, eventsOps_append, eventsOps_append, eventsOps_append,
    hold_append_of_eq (hscan _), hold_append_of_eq (hold_calls hmem _)]
  have hset : hold (.buffer .cfgBuffer ::ₘ .file r.cfgHandle ::ₘ s) (eventsOps netConfOps
      [.print "Applying configuration..." [],
        .call (.netconfSetRunning (r.machine.netConfCfg r.content) r.setRunning)]) =
      some (.buffer .cfgBuffer ::ₘ .file r.cfgHandle ::ₘ s) := by
    simp [netConfOps, hold_use]
  rw [hold_append_of_eq hset]
  split_ifs with hfailed
  · simp [LoadNetConf.releaseFile, netConfOps, fsaOps]
  · simp [LoadNetConf.releaseFile, netConfOps, fsaOps]

/-- `option_LoadNetConf` leaves what is held as it is.

**Proof sketch.** One case for each exit, in the order of the function. -/
lemma hold_optionLoadNetConf (r : LoadNetConf.Results) (s : Multiset Resource) :
    hold s (eventsOps netConfOps (LoadNetConf.optionLoadNetConf r)) = some s := by
  unfold LoadNetConf.optionLoadNetConf
  dsimp only
  split_ifs with hinit hopen hstat halloc hread
  · rfl
  · simp [netConfOps, fsaOps, hopen]
  · simp [netConfOps, fsaOps, hopen, hold_use]
  · simp [netConfOps, fsaOps, hopen, hold_use, halloc, LoadNetConf.releaseFile]
  · have happly := hold_applyConfiguration r s
    simpa [netConfOps, fsaOps, hopen, hold_use, halloc] using happly
  · simp [netConfOps, fsaOps, hopen, hold_use, halloc]

/-! ## `loadBoot1Payload` -/

/-- The loop over the body only uses the file and the buffer.

**Proof sketch.** Induction on the chunks. -/
lemma hold_readBody (fileHandle lastRead : ℤ) {s : Multiset Resource}
    (hfile : .file fileHandle ∈ s) (hbuffer : .buffer .dataBuffer ∈ s)
    (chunks : List LoadBoot1Payload.Chunk) (dataBuffer : ByteMemory.Frame) (payloadOffset : ℕ) :
    hold s (eventsOps payloadOps (LoadBoot1Payload.readBody fileHandle lastRead chunks dataBuffer
      payloadOffset)) = some s := by
  induction chunks generalizing dataBuffer payloadOffset with
  | nil =>
    show hold s [.use _, .use _] = some s
    rw [hold_use hfile, hold_use hbuffer, hold_nil]
  | cons chunk chunks ih =>
    have hwords : ∀ op ∈ eventsOps payloadOps (LoadBoot1Payload.writeWords
        (dataBuffer.store 0 chunk.bytes) payloadOffset chunk.bytes.length),
        ∃ x ∈ s, op = .use x := by
      intro op hop
      obtain ⟨event, hevent, hop⟩ := List.mem_flatMap.mp hop
      obtain ⟨i, -, hi⟩ := List.mem_flatMap.mp hevent
      rcases List.mem_pair.mp hi with rfl | rfl
      · exact ⟨_, hbuffer, List.mem_singleton.mp hop⟩
      · cases hop
    rw [LoadBoot1Payload.readBody, List.cons_append, eventsOps_call, eventsOps_append]
    show hold s (.use _ :: .use _ :: _) = some s
    rw [hold_use hfile, hold_use hbuffer]
    exact (hold_append_of_eq (hold_uses hwords) _).trans (ih _ _)

/-- What follows the body leaves what is held as it is. -/
lemma hold_startPayload (r : LoadBoot1Payload.Results) (boootInfoOffset bodySize : UInt32)
    (s : Multiset Resource) :
    hold s (eventsOps payloadOps (LoadBoot1Payload.startPayload r boootInfoOffset bodySize)) =
      some s := by
  have hhax : hold s (eventsOps payloadOps ((LoadBoot1Payload.preparePrshHax r.ivAlloc
      r.encryptPrsh r.memory boootInfoOffset).calls.map .call)) = some s := by
    unfold LoadBoot1Payload.preparePrshHax
    cases r.ivAlloc with
    | true => simp [payloadOps, hold_use]
    | false => rfl
  unfold LoadBoot1Payload.startPayload
  dsimp only
  split_ifs
  · rfl
  · rfl
  · rw [eventsOps_append, hold_append_of_eq hhax]
    rfl
  · rw [eventsOps_append, hold_append_of_eq hhax]
    rfl

/-- `loadBoot1Payload` leaves what is held as it is. -/
lemma hold_loadImage (r : LoadBoot1Payload.Results) (filePath : String) (boootInfoOffset : UInt32)
    (s : Multiset Resource) :
    hold s (eventsOps payloadOps (LoadBoot1Payload.loadImage r filePath boootInfoOffset)) =
      some s := by
  unfold LoadBoot1Payload.loadImage
  dsimp only
  split_ifs with hopen halloc hheader hmagic hflag
  · simp [payloadOps, fsaOps, hopen, LoadBoot1Payload.failWith]
  · simp [payloadOps, fsaOps, hopen, halloc, hold_use, LoadBoot1Payload.failWith,
      LoadBoot1Payload.releaseImage]
  · simp [payloadOps, fsaOps, hopen, halloc, hold_use, LoadBoot1Payload.failWith,
      LoadBoot1Payload.releaseImage]
  · simp [payloadOps, fsaOps, hopen, halloc, hold_use, LoadBoot1Payload.failWith,
      LoadBoot1Payload.releaseImage]
  · have hbody := hold_readBody r.fileHandle r.lastRead
      (s := .buffer .dataBuffer ::ₘ .file r.fileHandle ::ₘ s) (by simp) (by simp) r.chunks
      (r.dataBuffer.store 0 r.header) 0x50
    have hstart := hold_startPayload r boootInfoOffset ((r.dataBuffer.store 0 r.header).word 0x6B) s
    simp [payloadOps, fsaOps, hopen, halloc, hold_use, LoadBoot1Payload.releaseImage,
      eventsOps_append, hold_append_of_eq hbody, hstart]
  · simp [payloadOps, fsaOps, hopen, halloc, LoadBoot1Payload.failWith]

/-- `loadBoot1Payload` leaves what is held as it is. -/
lemma hold_loadBoot1Payload (c : LoadBoot1Payload.Call) (p : LoadBoot1Payload.Blocks)
    (r : LoadBoot1Payload.Results) (filePath : String) (s : Multiset Resource) :
    hold s (eventsOps payloadOps (LoadBoot1Payload.loadBoot1Payload c p r filePath)) = some s := by
  have hactive (blocks : LoadBoot1Payload.Blocks) :
      eventsOps payloadOps (LoadBoot1Payload.activeVersionText blocks) = [] := by
    unfold LoadBoot1Payload.activeVersionText
    split <;> rfl
  unfold LoadBoot1Payload.loadBoot1Payload
  dsimp only
  rw [eventsOps_print]
  cases (LoadBoot1Payload.checkBoot1Version c p).1 with
  | readFailed => rfl
  | noActiveSlot => rfl
  | unsupported version =>
    rw [eventsOps_append, hactive]
    rfl
  | passed slot version boootInfoOffset =>
    rw [eventsOps_append, hactive]
    exact hold_loadImage r filePath boootInfoOffset s

/-- **Handle discipline.** For all results of the calls, all listings and all contents, on every
exit of `copy_file`, `option_DumpSyslogs`, `option_LoadNetConf` and `loadBoot1Payload`: every file
handle, directory handle and buffer is released as often as it was acquired, and a handle or a
buffer is only used or released while it is held.

**Proof sketch.** Each function leaves what is held as it is, whatever that is
(`hold_copyFile`, `hold_optionDumpSyslogs`, `hold_optionLoadNetConf`, `hold_loadBoot1Payload`). -/
theorem disciplined :
    (∀ (content : List UInt8) (f : CopyFile.Results content) (src dst : String),
      Disciplined (copyOps (CopyFile.copyFile f src dst).calls)) ∧
    (∀ (endOfDirectory : ℤ) (listing : List DumpSyslogs.Entry)
      (r : DumpSyslogs.Results endOfDirectory listing),
      Disciplined (eventsOps syslogsOps (DumpSyslogs.optionDumpSyslogs r))) ∧
    (∀ r : LoadNetConf.Results,
      Disciplined (eventsOps netConfOps (LoadNetConf.optionLoadNetConf r))) ∧
    ∀ (c : LoadBoot1Payload.Call) (p : LoadBoot1Payload.Blocks) (r : LoadBoot1Payload.Results)
      (filePath : String),
      Disciplined (eventsOps payloadOps (LoadBoot1Payload.loadBoot1Payload c p r filePath)) := by
  refine ⟨?_, ?_, ?_, ?_⟩
  · intro content f src dst
    exact disciplined_of_hold (hold_copyFile f src dst 0)
  · intro endOfDirectory listing r
    exact disciplined_of_hold (hold_optionDumpSyslogs r 0)
  · intro r
    exact disciplined_of_hold (hold_optionLoadNetConf r 0)
  · intro c p r filePath
    exact disciplined_of_hold (hold_loadBoot1Payload c p r filePath 0)

end Handles

end RecoveryMenu

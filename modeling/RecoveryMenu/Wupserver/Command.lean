import RecoveryMenu.Foundations.ByteMemory

set_option relaxedAutoImplicit false
set_option autoImplicit false

/-!
# The commands of wupserver (`ios_mcp/source/wupserver.c`)

`serverCommandHandler` executes the command at the start of `command_buffer` and leaves the
response there. The buffer is a local array of the server thread: it is a frame of its own, not
part of the address space that the commands read and write, and a packet that is received
replaces only its first bytes. Caches are left out.

The handler also returns the accesses it made to the buffer and to `arguments`, with their
sizes as the code computed them, so that one can ask whether they stay inside the packet.

## Main definitions

* `RecoveryMenu.Wupserver.serverCommandHandler`, over `State` and `Env`, with one definition
  for each case of its `switch`.
* `RecoveryMenu.Wupserver.Packet`, `RecoveryMenu.Wupserver.handlePacket`: what one `recv`
  returns, and the command executed on it.
* `RecoveryMenu.Wupserver.InputSafe`: the accesses stay inside the packet and the buffer.

## Main results

* `RecoveryMenu.Wupserver.inputSafe_iff`: a packet is handled safely iff it holds all the
  fields of its command and the lengths it asks for are in range.
* `RecoveryMenu.Wupserver.not_inputSafe`: the packet of four zero bytes is not.

## References

* `ios_mcp/source/wupserver.c`, lines 9-130.
-/

namespace RecoveryMenu

namespace Wupserver

open ByteMemory

/-! ## The model -/

/-- `sizeof(command_buffer)`. -/
def commandBufferSize : ℕ := 0x180 * 4

/-- `MCP_SVC_BASE`. -/
def mcpSvcBase : UInt32 := 0x050567ec

/-- What the commands rely on outside of the server. -/
structure Env where
  /-- Calling the function at an address with eight arguments: the memory it leaves and the
  value it returns. -/
  call : UInt32 → List UInt32 → Memory → Memory × UInt32
  /-- What the rest of the console did to the memory before turn `i` of a polling loop. -/
  elapse : ℕ → Memory → Memory

/-- The memory, the local array of `serverClientHandler`, and the flag of the server. -/
structure State where
  memory : Memory
  commandBuffer : Frame
  serverRunning : Bool

/-- An access to `command_buffer`, or a copy, with the size the code computed. -/
inductive Access
  /-- `command_buffer[i]` read as a field of the command. -/
  | field (i : ℕ)
  /-- `memcpy(dst, &command_buffer[2], n)`. -/
  | store (dst : UInt32) (n : ℕ)
  /-- `memcpy(&command_buffer[1], src, n)`. -/
  | fetch (src : UInt32) (n : ℕ)
  /-- `memcpy(arguments, &command_buffer[2], n)` where `size_arguments` is `size`. -/
  | arguments (size : ℤ) (n : ℕ)
  /-- `memcpy(dst, src, size)`. -/
  | move (dst src : UInt32) (size : ℤ)
  deriving DecidableEq, Repr

/-- A case of the `switch` that ran to its `break`. -/
structure Executed where
  outLength : Int32
  memory : Memory
  commandBuffer : Frame
  accesses : List Access

/-- Command 0, write: `[cmd_id][addr]` and the data. -/
def write (length : UInt32) (s : State) : Executed :=
  let dst := s.commandBuffer.word 1
  let size := (length - 8).toNat
  { outLength := 4
    memory := s.memory.store dst (s.commandBuffer.load 8 size)
    commandBuffer := s.commandBuffer
    accesses := [.field 1, .store dst size] }

/-- Command 1, read: `[cmd_id][addr][length]`. -/
def read (s : State) : Executed :=
  let src := s.commandBuffer.word 1
  let length := s.commandBuffer.word 2
  { outLength := (length + 4).toInt32
    memory := s.memory
    commandBuffer := s.commandBuffer.store 4 (s.memory.load src length.toNat)
    accesses := [.field 1, .field 2, .fetch src length.toNat] }

/-- Command 2, svc: `[cmd_id][svc_id]` and up to eight arguments. -/
def svc (env : Env) (length : UInt32) (s : State) : Executed :=
  let svcId := s.commandBuffer.word 1
  let sizeArguments : Int32 := (length - 8).toInt32
  let size := (if sizeArguments < 8 * 4 then sizeArguments else 8 * 4).toUInt32.toNat
  let arguments : Frame := Frame.store (fun _ => 0) 0 (s.commandBuffer.load 8 size)
  let result := env.call (mcpSvcBase + svcId * 8) ((List.range 8).map arguments.word) s.memory
  { outLength := 8
    memory := result.1
    commandBuffer := s.commandBuffer.store 4 (bytesOfWord result.2)
    accesses := [.field 1, .arguments sizeArguments.toInt size] }

/-- Command 4, memcpy: `[dst][src][size]` after the id. -/
def memcpy (s : State) : Executed :=
  let dst := s.commandBuffer.word 1
  let src := s.commandBuffer.word 2
  let size : Int32 := (s.commandBuffer.word 3).toInt32
  { outLength := 4
    memory := s.memory.copy dst src size.toUInt32.toNat
    commandBuffer := s.commandBuffer
    accesses := [.field 1, .field 2, .field 3, .move dst src size.toInt] }

/-- The polling loop of command 5, `n` turns from turn `i` on: once the word at `dst` is neither
zero nor the value seen before, it is replaced. -/
def pollAndReplace (env : Env) (dst value : UInt32) : ℕ → ℕ → UInt32 → Memory → Memory
  | 0, _, _, m => m
  | n + 1, i, old, m =>
    let m := env.elapse i m
    if m.word dst ≠ old then
      if m.word dst = 0 then pollAndReplace env dst value n (i + 1) 0 m
      else m.store dst (bytesOfWord value)
    else pollAndReplace env dst value n (i + 1) old m

/-- Command 5, repeated-write: `[address][value][n]` after the id. -/
def repeatedWrite (env : Env) (s : State) : Executed :=
  let dst := s.commandBuffer.word 1
  let value := s.commandBuffer.word 2
  let n := s.commandBuffer.word 3
  { outLength := 4
    memory := pollAndReplace env dst value n.toNat 0 (s.memory.word dst) s.memory
    commandBuffer := s.commandBuffer
    accesses := [.field 1, .field 2, .field 3] }

/-- What a call of the handler did: the value returned, or `none` where it does not return, the
state it left, and its accesses. -/
structure Outcome where
  ret : Option Int32
  state : State
  accesses : List Access

/-- The end of the handler, after a case of the `switch`. -/
def finish (s : State) (e : Executed) : Outcome where
  ret := some e.outLength
  state := { s with
    memory := e.memory
    commandBuffer := e.commandBuffer.store 0 (bytesOfWord 0) }
  accesses := .field 0 :: e.accesses

/-- The `switch` of the handler. The kill command calls `wupserver_deinit`, which waits for the
calling thread itself to end when the server is still running, and does nothing otherwise. -/
def dispatch (env : Env) (length : UInt32) (s : State) : ℕ → Outcome
  | 0 => finish s (write length s)
  | 1 => finish s (read s)
  | 2 => finish s (svc env length s)
  | 3 =>
    if s.serverRunning then ⟨none, { s with serverRunning := false }, [.field 0]⟩
    else finish s ⟨4, s.memory, s.commandBuffer, []⟩
  | 4 => finish s (memcpy s)
  | 5 => finish s (repeatedWrite env s)
  | _ => ⟨some (-2), s, [.field 0]⟩

/-- `serverCommandHandler(command_buffer, length)`. -/
def serverCommandHandler (env : Env) (length : UInt32) (s : State) : Outcome :=
  if length = 0 then ⟨some (-1), s, []⟩
  else dispatch env length s (s.commandBuffer.word 0).toNat

/-! ## Packets -/

/-- The bytes one `recv` returns: at least one, and at most the size of the buffer. -/
structure Packet where
  bytes : List UInt8
  length_pos : 0 < bytes.length
  length_le : bytes.length ≤ commandBufferSize

/-- The state after `recv` stored a packet at the start of the buffer. -/
def State.receive (s : State) (p : Packet) : State :=
  { s with commandBuffer := s.commandBuffer.store 0 p.bytes }

/-- Receiving a packet does not touch the memory. -/
@[simp] lemma memory_receive (s : State) (p : Packet) : (s.receive p).memory = s.memory := rfl

/-- The handler called on a packet just received. -/
def handlePacket (env : Env) (s : State) (p : Packet) : Outcome :=
  serverCommandHandler env (UInt32.ofNat p.bytes.length) (s.receive p)

/-- A command field inside the packet is read from the packet. -/
lemma word_receive (s : State) (p : Packet) {i : ℕ} (h : 4 * i + 4 ≤ p.bytes.length) :
    (s.receive p).commandBuffer.word i = wordAt p.bytes i :=
  Frame.word_store_zero _ h

/-- Bytes inside the packet are read from the packet. -/
lemma load_receive (s : State) (p : Packet) {off n : ℕ} (h : off + n ≤ p.bytes.length) :
    (s.receive p).commandBuffer.load off n = (p.bytes.drop off).take n :=
  Frame.load_store_zero _ h

/-- The length handed to the handler is that of the packet. -/
lemma toNat_length (p : Packet) :
    (UInt32.ofNat p.bytes.length).toNat = p.bytes.length := by
  have := p.length_le
  simp only [commandBufferSize] at this
  exact UInt32.toNat_ofNat_of_lt' (by simp only [UInt32.size]; omega)

/-- The handler gets past its first check: a packet is not empty. -/
lemma handlePacket_eq (env : Env) (s : State) (p : Packet) :
    handlePacket env s p = dispatch env (UInt32.ofNat p.bytes.length) (s.receive p)
      ((s.receive p).commandBuffer.word 0).toNat := by
  have hpos : UInt32.ofNat p.bytes.length ≠ 0 := by
    intro h
    have hlen := toNat_length p
    rw [h] at hlen
    exact absurd hlen.symm (Nat.ne_of_gt p.length_pos)
  rw [handlePacket, serverCommandHandler, if_neg hpos]

/-- A packet that holds the command id decides the command. -/
lemma handlePacket_of_four_le (env : Env) (s : State) {p : Packet} (h : 4 ≤ p.bytes.length) :
    handlePacket env s p = dispatch env (UInt32.ofNat p.bytes.length) (s.receive p)
      (wordAt p.bytes 0).toNat := by
  rw [handlePacket_eq, word_receive s p (by omega)]

/-! ## Input safety -/

/-- An access stays inside a packet of `length` bytes and inside the arrays, and its size was
computed without wrapping. -/
def Access.Safe (length : ℕ) : Access → Prop
  | .field i => 4 * i + 4 ≤ length
  | .store _ n => (n : ℤ) = length - 8
  | .fetch _ n => 4 + n ≤ commandBufferSize
  | .arguments size n => 0 ≤ size ∧ n ≤ 32 ∧ (n : ℤ) ≤ length - 8
  | .move _ _ size => 0 ≤ size

/-- All accesses of a call are safe, and the response it returns lies inside the buffer. -/
structure InputSafe (length : ℕ) (o : Outcome) : Prop where
  accesses : ∀ a ∈ o.accesses, a.Safe length
  outLength : ∀ v, o.ret = some v → v.toInt ≤ commandBufferSize

/-- The packet holds the fields of its command, and the lengths it asks for are in range. -/
def Packet.Fits (p : Packet) : Prop :=
  4 ≤ p.bytes.length ∧
    match (wordAt p.bytes 0).toNat with
    | 0 => 8 ≤ p.bytes.length
    | 1 => 12 ≤ p.bytes.length ∧ 4 + (wordAt p.bytes 2).toNat ≤ commandBufferSize
    | 2 => 8 ≤ p.bytes.length
    | 4 => 16 ≤ p.bytes.length ∧ (wordAt p.bytes 3).toNat < 2 ^ 31
    | 5 => 16 ≤ p.bytes.length
    | _ => True

/-- The conversion to `int` of an unsigned word. -/
lemma toInt_toInt32 (w : UInt32) :
    w.toInt32.toInt = if w.toNat < 2 ^ 31 then (w.toNat : ℤ) else w.toNat - 2 ^ 32 := by
  have h := BitVec.toInt_eq_toNat_cond w.toBitVec
  simp only [UInt32.toNat_toBitVec] at h
  rw [← Int32.toInt_toBitVec, UInt32.toBitVec_toInt32, h]
  split_ifs <;> omega

/-- `length - 8` does not wrap iff the packet has at least 8 bytes. -/
lemma toNat_sub_eight_iff {length : UInt32} :
    ((length - 8).toNat : ℤ) = length.toNat - 8 ↔ 8 ≤ length.toNat := by
  rw [UInt32.toNat_sub]
  have := length.toNat_lt
  simp only [UInt32.reduceToNat]
  omega

/-- The end of the handler adds the access to the command id. -/
lemma inputSafe_finish (length : ℕ) (s : State) (e : Executed) :
    InputSafe length (finish s e) ↔
      4 ≤ length ∧ (∀ a ∈ e.accesses, a.Safe length) ∧ e.outLength.toInt ≤ commandBufferSize := by
  constructor
  · rintro ⟨hacc, hout⟩
    simp only [finish, List.forall_mem_cons, Access.Safe] at hacc hout
    exact ⟨by omega, hacc.2, hout _ rfl⟩
  · rintro ⟨hlen, hacc, hout⟩
    refine ⟨?_, ?_⟩
    · simp only [finish, List.forall_mem_cons, Access.Safe]
      exact ⟨by omega, hacc⟩
    · simp only [finish, Option.some.injEq]
      rintro v rfl
      exact hout

/-- A write is safe iff the packet holds the address. -/
lemma inputSafe_write {length : UInt32} {n : ℕ} (hn : length.toNat = n) (s s' : State) :
    InputSafe n (finish s' (write length s)) ↔ 8 ≤ n := by
  subst hn
  simp only [inputSafe_finish, write, List.forall_mem_cons, Access.Safe, toNat_sub_eight_iff,
    List.not_mem_nil, false_implies, implies_true, and_true]
  have : (4 : Int32).toInt ≤ (commandBufferSize : ℤ) := by decide
  omega

/-- A read is safe iff the packet holds the address and the length, and the response fits into
the buffer. -/
lemma inputSafe_read (length : ℕ) (s s' : State) :
    InputSafe length (finish s' (read s)) ↔
      12 ≤ length ∧ 4 + (s.commandBuffer.word 2).toNat ≤ commandBufferSize := by
  simp only [inputSafe_finish, read, List.forall_mem_cons, Access.Safe, List.not_mem_nil,
    false_implies, implies_true, and_true]
  have hout (h : 4 + (s.commandBuffer.word 2).toNat ≤ commandBufferSize) :
      (s.commandBuffer.word 2 + 4).toInt32.toInt ≤ commandBufferSize := by
    simp only [commandBufferSize] at h ⊢
    rw [toInt_toInt32, UInt32.toNat_add]
    split_ifs <;> simp only [UInt32.reduceToNat] <;> omega
  constructor
  · rintro ⟨_, ⟨_, hfield, hfetch⟩, _⟩
    exact ⟨by omega, hfetch⟩
  · rintro ⟨hlen, hfetch⟩
    exact ⟨by omega, ⟨by omega, by omega, hfetch⟩, hout hfetch⟩

/-- An svc is safe iff the packet holds the number of the call. -/
lemma inputSafe_svc (env : Env) {length : UInt32} {n : ℕ} (hn : length.toNat = n)
    (hle : n ≤ commandBufferSize) (s s' : State) :
    InputSafe n (finish s' (svc env length s)) ↔ 8 ≤ n := by
  subst hn
  simp only [inputSafe_finish, svc, List.forall_mem_cons, Access.Safe, List.not_mem_nil,
    false_implies, implies_true, and_true]
  constructor
  · rintro ⟨_, ⟨hfield, _⟩, _⟩
    omega
  · intro hlen
    simp only [commandBufferSize] at hle
    have hsub : (length - 8).toNat = length.toNat - 8 := by
      rw [UInt32.toNat_sub]
      simp only [UInt32.reduceToNat]
      omega
    have hsize : (length - 8).toInt32.toInt = length.toNat - 8 := by
      rw [toInt_toInt32, hsub]
      split_ifs <;> omega
    refine ⟨by omega, ⟨by omega, by omega, ?_⟩, by decide⟩
    split_ifs with hlt
    · rw [UInt32.toUInt32_toInt32, hsub]
      have := Int32.lt_iff_toInt_lt.mp hlt
      have h32 : (8 * 4 : Int32).toInt = 32 := by decide
      omega
    · have := Int32.lt_iff_toInt_lt.not.mp hlt
      have h32 : (8 * 4 : Int32).toInt = 32 := by decide
      have h32' : (8 * 4 : Int32).toUInt32.toNat = 32 := by decide
      omega

/-- A memcpy is safe iff the packet holds its fields and the size is not negative as an `int`. -/
lemma inputSafe_memcpy (length : ℕ) (s s' : State) :
    InputSafe length (finish s' (memcpy s)) ↔
      16 ≤ length ∧ (s.commandBuffer.word 3).toNat < 2 ^ 31 := by
  have hsize : 0 ≤ (s.commandBuffer.word 3).toInt32.toInt ↔
      (s.commandBuffer.word 3).toNat < 2 ^ 31 := by
    have := (s.commandBuffer.word 3).toNat_lt
    rw [toInt_toInt32]
    split_ifs <;> omega
  simp only [inputSafe_finish, memcpy, List.forall_mem_cons, Access.Safe, List.not_mem_nil,
    false_implies, implies_true, and_true, hsize]
  have : (4 : Int32).toInt ≤ (commandBufferSize : ℤ) := by decide
  omega

/-- A repeated-write is safe iff the packet holds its fields. -/
lemma inputSafe_repeatedWrite (env : Env) (length : ℕ) (s s' : State) :
    InputSafe length (finish s' (repeatedWrite env s)) ↔ 16 ≤ length := by
  simp only [inputSafe_finish, repeatedWrite, List.forall_mem_cons, Access.Safe,
    List.not_mem_nil, false_implies, implies_true, and_true]
  have : (4 : Int32).toInt ≤ (commandBufferSize : ℤ) := by decide
  omega

/-- The handler reads the command id, so a safe call has a packet that holds it. -/
lemma four_le_of_inputSafe {env : Env} {s : State} {p : Packet}
    (h : InputSafe p.bytes.length (handlePacket env s p)) : 4 ≤ p.bytes.length := by
  have hmem : Access.field 0 ∈ (handlePacket env s p).accesses := by
    rw [handlePacket_eq]
    generalize ((s.receive p).commandBuffer.word 0).toNat = command
    match command with
    | 0 | 1 | 2 | 4 | 5 => exact List.mem_cons_self
    | 3 =>
      simp only [dispatch]
      split_ifs <;> exact List.mem_cons_self
    | n + 6 => exact List.mem_cons_self
  have := h.accesses _ hmem
  simp only [Access.Safe] at this
  omega

/-- **When a packet is handled safely.** For every packet, whatever earlier packets left in the
buffer and whatever the rest of the console does, the handler keeps to the packet and to its
arrays iff the packet holds all the fields of its command and the lengths it asks for are in
range.

**Proof sketch.** The first word is always read, so the packet must hold it, and then it decides
the command. Each command has its own lemma; its fields are those of the packet where they lie
inside the packet (`word_receive`). -/
theorem inputSafe_iff (env : Env) (s : State) (p : Packet) :
    InputSafe p.bytes.length (handlePacket env s p) ↔ p.Fits := by
  by_cases hid : 4 ≤ p.bytes.length
  · rw [handlePacket_of_four_le env s hid, Packet.Fits, and_iff_right hid]
    generalize (wordAt p.bytes 0).toNat = command
    match command with
    | 0 => exact inputSafe_write (toNat_length p) _ _
    | 1 =>
      exact (inputSafe_read _ _ _).trans
        (and_congr_right fun h => by rw [word_receive s p (by omega)])
    | 2 => exact inputSafe_svc env (toNat_length p) p.length_le _ _
    | 3 =>
      refine iff_of_true ?_ trivial
      have hout : (4 : Int32).toInt ≤ (commandBufferSize : ℤ) := by decide
      by_cases hrun : (s.receive p).serverRunning
      · simp only [dispatch, hrun, if_true]
        exact ⟨List.forall_mem_singleton.mpr hid, by simp⟩
      · simp only [dispatch, hrun]
        exact (inputSafe_finish _ _ _).mpr ⟨hid, by simp, hout⟩
    | 4 =>
      exact (inputSafe_memcpy _ _ _).trans
        (and_congr_right fun h => by rw [word_receive s p (by omega)])
    | 5 => exact inputSafe_repeatedWrite env _ _ _
    | n + 6 =>
      refine iff_of_true ⟨List.forall_mem_singleton.mpr hid, ?_⟩ trivial
      rintro v ⟨rfl⟩
      decide
  · exact iff_of_false (fun h => hid (four_le_of_inputSafe h)) (fun h => hid h.1)

/-- The server does not check the length of a packet: after four zero bytes, a write command
without its address, it copies `2 ^ 32 - 4` bytes to an address left by an earlier packet. -/
theorem not_inputSafe :
    ¬ ∀ (env : Env) (s : State) (p : Packet),
      InputSafe p.bytes.length (handlePacket env s p) := by
  intro h
  let p : Packet := ⟨[0, 0, 0, 0], by decide, by decide⟩
  have hsafe := h ⟨fun _ _ m => (m, 0), fun _ m => m⟩ ⟨fun _ => 0, fun _ => 0, true⟩ p
  have hstore := hsafe.accesses (.store 0 0xFFFFFFFC) (by decide)
  exact absurd hstore (by simp [Access.Safe, p])

end Wupserver

end RecoveryMenu

import RecoveryMenu.Wupserver.Command

set_option relaxedAutoImplicit false
set_option autoImplicit false

/-!
# A client session of wupserver (`ios_mcp/source/wupserver.c`)

`serverClientHandler` executes one command for each `recv` and sends its response. It keeps no
bytes from one `recv` to the next, although TCP delivers a stream that may be cut anywhere: a
command that arrives in two parts is executed as two commands, and of two commands that arrive
together only the first is executed.

## Main definitions

* `RecoveryMenu.Wupserver.serverClientHandler`: the loop, over the results of `recv`.
* `RecoveryMenu.Wupserver.Command`: a well-formed command, with its bytes `Command.encode`, and
  its meaning `Command.exec` and `Command.response` over a flat memory.
* `RecoveryMenu.Wupserver.Framed`: a cut of the stream gives the same session as receiving
  every command by itself.

## Main results

* `RecoveryMenu.Wupserver.session_commands`: commands received one by one have
  their meaning over a flat memory, whatever the buffer held before.
* `RecoveryMenu.Wupserver.framed_iff`: what holds for every cut of the stream.
* `RecoveryMenu.Wupserver.not_framed`: a write cut before its last byte loses that byte.

## References

* `ios_mcp/source/wupserver.c`, lines 18-130.
* `ios_mcp/source/socket.c`, `recv`.
-/

namespace RecoveryMenu

namespace Wupserver

open ByteMemory

/-! ## The session -/

/-- What is sent after the handler returned `ret`: that many bytes of the buffer, or the error
code. -/
def reply (ret : Int32) (s : State) : List UInt8 :=
  if 0 < ret then s.commandBuffer.load 0 ret.toInt.toNat
  else if ret < 0 then bytesOfWord ret.toUInt32
  else []

/-- A session: the state it left, the bytes sent, and the packets handed to the command
handler, in order. -/
structure Session where
  state : State
  sent : List UInt8
  executed : List Packet

/-- `serverClientHandler(sock)`, where `recv` returns the given results in order, `none` for a
result of at most `0`. -/
def serverClientHandler (env : Env) : List (Option Packet) → State → Session
  | [], s => ⟨s, [], []⟩
  | received :: rest, s =>
    if ¬ s.serverRunning then ⟨s, [], []⟩
    else match received with
      | none => ⟨s, [], []⟩
      | some p =>
        let o := handlePacket env s p
        match o.ret with
        | none => ⟨o.state, [], [p]⟩
        | some ret =>
          let next := serverClientHandler env rest o.state
          ⟨next.state, reply ret o.state ++ next.sent, p :: next.executed⟩

/-- The session in which `recv` returns the given packets. -/
def session (env : Env) (s : State) (segments : List Packet) : Session :=
  serverClientHandler env (segments.map some) s

/-! ## Well-formed commands -/

/-- A write, read or memcpy command whose packet and response fit into the buffer. -/
inductive Command
  | write (addr : UInt32) (data : List UInt8) (h : data.length ≤ 0x5F8)
  | read (addr length : UInt32) (h : length.toNat ≤ 0x5FC)
  | memcpy (dst src size : UInt32)

/-- The bytes of a command on the wire. -/
def Command.encode : Command → List UInt8
  | .write addr data _ => bytesOfWord 0 ++ (bytesOfWord addr ++ data)
  | .read addr length _ => bytesOfWord 1 ++ (bytesOfWord addr ++ (bytesOfWord length ++ []))
  | .memcpy dst src size =>
    bytesOfWord 4 ++ (bytesOfWord dst ++ (bytesOfWord src ++ (bytesOfWord size ++ [])))

/-- What a command does to a flat memory. -/
def Command.exec (m : Memory) : Command → Memory
  | .write addr data _ => m.store addr data
  | .read _ _ _ => m
  | .memcpy dst src size => m.copy dst src size.toNat

/-- What a command answers: the word `0`, and for a read the bytes asked for. -/
def Command.response (m : Memory) : Command → List UInt8
  | .read addr length _ => bytesOfWord 0 ++ m.load addr length.toNat
  | _ => bytesOfWord 0

/-- The meaning of a sequence of commands: the memory they leave, and their responses one after
the other. -/
def execAll : List Command → Memory → Memory × List UInt8
  | [], m => (m, [])
  | c :: cs, m =>
    let next := execAll cs (c.exec m)
    (next.1, c.response m ++ next.2)

/-- A command received whole by one `recv`. -/
def Command.packet (c : Command) : Packet where
  bytes := c.encode
  length_pos := by cases c <;> simp [encode]
  length_le := by
    cases c with
    | write addr data h =>
      simp only [encode, List.length_append, length_bytesOfWord, commandBufferSize]
      omega
    | read addr length h => simp [encode, commandBufferSize]
    | memcpy dst src size => simp [encode, commandBufferSize]

/-! ## One command -/

/-- The word `0` that `finish` stores in front of the response. -/
lemma load_finish (s : State) (e : Executed) (n : ℕ) :
    (finish s e).state.commandBuffer.load 0 (4 + n) =
      bytesOfWord 0 ++ e.commandBuffer.load 4 n := by
  have hzero : (e.commandBuffer.store 0 (bytesOfWord 0)).load 0 4 = bytesOfWord 0 :=
    Frame.load_store_self e.commandBuffer 0 (bytesOfWord 0)
  have hrest : (e.commandBuffer.store 0 (bytesOfWord 0)).load 4 n = e.commandBuffer.load 4 n :=
    Frame.load_store_of_ge _ _ (by simp)
  rw [finish, Frame.load_add, hzero, Nat.zero_add, hrest]

/-- A response of `4 + n` bytes is the word `0` and the `n` bytes after it. -/
lemma reply_finish (s : State) (e : Executed) {n : ℕ} (h : e.outLength.toInt = 4 + n) :
    reply e.outLength (finish s e).state = bytesOfWord 0 ++ e.commandBuffer.load 4 n := by
  have hpos : 0 < e.outLength := Int32.lt_iff_toInt_lt.mpr (by rw [h, Int32.toInt_zero]; omega)
  have hlen : e.outLength.toInt.toNat = 4 + n := by omega
  rw [reply, if_pos hpos, hlen, load_finish]

/-- A packet whose command runs to its `break` is executed and answered as that case says. -/
lemma handlePacket_of_finish {env : Env} {s : State} {p : Packet} {e : Executed} {n : ℕ}
    (h : handlePacket env s p = finish (s.receive p) e) (hlen : e.outLength.toInt = 4 + n) :
    ∃ ret, (handlePacket env s p).ret = some ret ∧
      reply ret (handlePacket env s p).state = bytesOfWord 0 ++ e.commandBuffer.load 4 n ∧
      (handlePacket env s p).state.memory = e.memory ∧
      (handlePacket env s p).state.serverRunning = s.serverRunning := by
  rw [h]
  exact ⟨e.outLength, rfl, reply_finish _ _ hlen, rfl, rfl⟩

/-- The fields of a packet that starts with them, whatever the buffer held before. -/
lemma word_receive_fields (s : State) {p : Packet} {ws : List UInt32} {bs : List UInt8}
    (hbytes : p.bytes = ws.flatMap bytesOfWord ++ bs) {i : ℕ} (hi : i < ws.length) :
    (s.receive p).commandBuffer.word i = ws[i] := by
  have hlen : p.bytes.length = 4 * ws.length + bs.length := by
    rw [hbytes, List.length_append, length_flatMap_bytesOfWord]
  rw [word_receive s p (by omega), hbytes, wordAt_flatMap bs hi]

/-- A command received whole is executed with its full payload and answered. -/
def Executes (env : Env) (s : State) (c : Command) : Prop :=
  ∃ ret, (handlePacket env s c.packet).ret = some ret ∧
    reply ret (handlePacket env s c.packet).state = c.response s.memory ∧
    (handlePacket env s c.packet).state.memory = c.exec s.memory ∧
    (handlePacket env s c.packet).state.serverRunning = s.serverRunning

/-- A write: its two words and its data are read back from the packet. -/
lemma executes_write (env : Env) (s : State) (addr : UInt32) (data : List UInt8)
    (h : data.length ≤ 0x5F8) : Executes env s (.write addr data h) := by
  unfold Executes
  set p := (Command.write addr data h).packet
  have hbytes : p.bytes = [0, addr].flatMap bytesOfWord ++ data := by
    simp [p, Command.packet, Command.encode]
  have hlen : p.bytes.length = 8 + data.length := by
    rw [hbytes, List.length_append, length_flatMap_bytesOfWord]
    rfl
  have hexec : handlePacket env s p =
      finish (s.receive p) (write (UInt32.ofNat p.bytes.length) (s.receive p)) := by
    rw [handlePacket_eq, word_receive_fields s hbytes (by omega : 0 < 2)]
    rfl
  obtain ⟨ret, hret, hreply, hmem, hrun⟩ :=
    handlePacket_of_finish hexec (n := 0) (by decide : (4 : Int32).toInt = 4)
  refine ⟨ret, hret, hreply.trans (List.append_nil _), hmem.trans ?_, hrun⟩
  have hsize : (UInt32.ofNat p.bytes.length - 8).toNat = data.length := by
    have := toNat_sub_eight_iff.mpr (toNat_length p ▸ (by omega : 8 ≤ p.bytes.length))
    rw [toNat_length] at this
    omega
  have haddr : (s.receive p).commandBuffer.word 1 = addr :=
    word_receive_fields s hbytes (by omega : 1 < 2)
  have hdata : (s.receive p).commandBuffer.load 8 data.length = data := by
    have hfields : ([0, addr].flatMap bytesOfWord).length = 8 := length_flatMap_bytesOfWord _
    rw [load_receive s p (by omega), hbytes, List.drop_left' hfields, List.take_length]
  simp only [write, Command.exec, hsize, haddr, hdata, memory_receive]

/-- A read: what it loads is put behind the result. -/
lemma executes_read (env : Env) (s : State) (addr length : UInt32)
    (h : length.toNat ≤ 0x5FC) : Executes env s (.read addr length h) := by
  unfold Executes
  set p := (Command.read addr length h).packet
  have hbytes : p.bytes = [1, addr, length].flatMap bytesOfWord ++ [] := by
    simp [p, Command.packet, Command.encode]
  have hexec : handlePacket env s p = finish (s.receive p) (read (s.receive p)) := by
    rw [handlePacket_eq, word_receive_fields s hbytes (by omega : 0 < 3)]
    rfl
  have haddr : (s.receive p).commandBuffer.word 1 = addr :=
    word_receive_fields s hbytes (by omega : 1 < 3)
  have hlength : (s.receive p).commandBuffer.word 2 = length :=
    word_receive_fields s hbytes (by omega : 2 < 3)
  have hout : (length + 4).toInt32.toInt = 4 + length.toNat := by
    have h4 : (length + 4).toNat = length.toNat + 4 := by
      rw [UInt32.toNat_add]
      simp only [UInt32.reduceToNat]
      omega
    rw [toInt_toInt32, h4]
    split_ifs <;> omega
  obtain ⟨ret, hret, hreply, hmem, hrun⟩ :=
    handlePacket_of_finish hexec (n := length.toNat) (by simp only [read, hlength, hout])
  refine ⟨ret, hret, hreply.trans ?_, hmem, hrun⟩
  have hback := Frame.load_store_self (s.receive p).commandBuffer 4
    (s.memory.load addr length.toNat)
  rw [Memory.length_load] at hback
  simp only [read, Command.response, haddr, hlength, memory_receive, hback]

/-- A copy: its four words are read back from the packet. -/
lemma executes_memcpy (env : Env) (s : State) (dst src size : UInt32) :
    Executes env s (.memcpy dst src size) := by
  unfold Executes
  set p := (Command.memcpy dst src size).packet
  have hbytes : p.bytes = [4, dst, src, size].flatMap bytesOfWord ++ [] := by
    simp [p, Command.packet, Command.encode]
  have hexec : handlePacket env s p = finish (s.receive p) (memcpy (s.receive p)) := by
    rw [handlePacket_eq, word_receive_fields s hbytes (by omega : 0 < 4)]
    rfl
  obtain ⟨ret, hret, hreply, hmem, hrun⟩ :=
    handlePacket_of_finish hexec (n := 0) (by decide : (4 : Int32).toInt = 4)
  refine ⟨ret, hret, hreply.trans (List.append_nil _), hmem.trans ?_, hrun⟩
  have hdst : (s.receive p).commandBuffer.word 1 = dst :=
    word_receive_fields s hbytes (by omega : 1 < 4)
  have hsrc : (s.receive p).commandBuffer.word 2 = src :=
    word_receive_fields s hbytes (by omega : 2 < 4)
  have hsize : (s.receive p).commandBuffer.word 3 = size :=
    word_receive_fields s hbytes (by omega : 3 < 4)
  simp only [memcpy, Command.exec, hdst, hsrc, hsize, UInt32.toUInt32_toInt32,
    memory_receive]

/-- Every command received whole is executed and answered, whatever the buffer held before.

**Proof sketch.** By cases on the command: the id and the fields are read back from the packet
(`word_receive_fields`, `load_receive`), and the case of the `switch` is the meaning of the
command. -/
lemma handlePacket_packet (env : Env) (s : State) (c : Command) : Executes env s c := by
  cases c with
  | write addr data h => exact executes_write env s addr data h
  | read addr length h => exact executes_read env s addr length h
  | memcpy dst src size => exact executes_memcpy env s dst src size

/-! ## A session of whole commands -/

/-- **Whole commands.** Commands that are each received by one `recv` are executed in order,
each once, and the memory and the responses are those of the flat memory.

**Proof sketch.** Induction on the commands, with `handlePacket_packet` for each. -/
lemma session_commands (env : Env) (cs : List Command) (s : State) (hrun : s.serverRunning) :
    (session env s (cs.map Command.packet)).executed = cs.map Command.packet ∧
      (session env s (cs.map Command.packet)).state.memory = (execAll cs s.memory).1 ∧
      (session env s (cs.map Command.packet)).sent = (execAll cs s.memory).2 := by
  induction cs generalizing s with
  | nil => exact ⟨rfl, rfl, rfl⟩
  | cons c cs ih =>
    obtain ⟨ret, hret, hreply, hmem, hrun'⟩ := handlePacket_packet env s c
    obtain ⟨hexec, hmemory, hsent⟩ := ih (handlePacket env s c.packet).state (hrun'.trans hrun)
    rw [hmem] at hmemory hsent
    simp only [session, List.map_cons, serverClientHandler, hrun, not_true_eq_false, if_false,
      hret, execAll, hreply]
    exact ⟨congrArg _ hexec, hmemory, congrArg _ hsent⟩

/-! ## Sessions of arbitrary cuts -/

/-- Receiving the stream of the commands `cs` in `segments` executes each command once with its
full payload and in order, and gives the memory and the responses of receiving every command by
itself. -/
structure Framed (env : Env) (s : State) (cs : List Command) (segments : List Packet) : Prop where
  executed : (session env s segments).executed = cs.map Command.packet
  memory : (session env s segments).state.memory =
    (session env s (cs.map Command.packet)).state.memory
  sent : (session env s segments).sent = (session env s (cs.map Command.packet)).sent

/-- The handler is called on the results of `recv` as they are, each at most once and in order.

**Proof sketch.** Induction on the results. -/
lemma executed_prefix (env : Env) (segments : List Packet) (s : State) :
    (session env s segments).executed <+: segments := by
  induction segments generalizing s with
  | nil => exact List.prefix_rfl
  | cons p ps ih =>
    simp only [session, List.map_cons, serverClientHandler]
    by_cases hrun : s.serverRunning
    · simp only [hrun, not_true_eq_false, if_false]
      cases (handlePacket env s p).ret with
      | none => exact List.cons_prefix_cons.mpr ⟨rfl, List.nil_prefix⟩
      | some ret => exact List.cons_prefix_cons.mpr ⟨rfl, ih _⟩
    · simp only [hrun]
      exact List.nil_prefix

/-- A cut of a stream that starts with all of its bytes ends there: packets are not empty. -/
lemma eq_of_prefix_of_flatten_eq {ps segments : List Packet} (h : ps <+: segments)
    (hcut : (segments.map Packet.bytes).flatten = (ps.map Packet.bytes).flatten) :
    segments = ps := by
  obtain ⟨rest, rfl⟩ := h
  simp only [List.map_append, List.flatten_append, List.append_right_eq_self,
    List.flatten_eq_nil_iff, List.forall_mem_map] at hcut
  have hrest : rest = [] := by
    refine List.eq_nil_iff_forall_not_mem.mpr fun p hp => ?_
    have hpos := p.length_pos
    rw [hcut p hp] at hpos
    exact absurd hpos (Nat.lt_irrefl 0)
  rw [hrest, List.append_nil]

/-- **Cuts of the stream.** However the stream of a sequence of well-formed commands is cut, the
handler executes the results of `recv` as they are, one command for each. It executes every
command once with its full payload and in order, with the same effect as receiving every command
by itself, iff every `recv` returns exactly one command; and then the memory and the responses
are those of the flat memory, whatever the buffer held before.

**Proof sketch.** The packets executed are a first part of the results of `recv`
(`executed_prefix`); where they are the commands, nothing of the stream is left for a further
result. The effect of whole commands is `session_commands`. -/
theorem framed_iff (env : Env) (s : State) (hrun : s.serverRunning) (cs : List Command)
    (segments : List Packet)
    (hcut : (segments.map Packet.bytes).flatten = (cs.map Command.encode).flatten) :
    (session env s segments).executed <+: segments ∧
      (Framed env s cs segments ↔ segments = cs.map Command.packet) ∧
      (segments = cs.map Command.packet →
        (session env s segments).state.memory = (execAll cs s.memory).1 ∧
        (session env s segments).sent = (execAll cs s.memory).2) := by
  have hwhole := session_commands env cs s hrun
  have hpre := executed_prefix env segments s
  refine ⟨hpre, ⟨fun h => ?_, ?_⟩, ?_⟩
  · rw [h.executed] at hpre
    exact eq_of_prefix_of_flatten_eq hpre (by rw [hcut, List.map_map]; rfl)
  · rintro rfl
    exact ⟨hwhole.1, rfl, rfl⟩
  · rintro rfl
    exact hwhole.2

/-- A read received whole. -/
theorem framed_read :
    (session ⟨fun _ _ m => (m, 0), fun _ m => m⟩ ⟨fun _ => 0x41, fun _ => 0, true⟩
      [(Command.read 0x1000 2 (by decide)).packet]).sent = [0, 0, 0, 0, 0x41, 0x41] :=
  ((framed_iff _ _ rfl [.read 0x1000 2 (by decide)] _ rfl).2.2 rfl).2.trans (by decide)

/-- The stream of a write of one byte, cut before that byte. -/
def cutWrite : List Packet :=
  [⟨[0, 0, 0, 0, 0, 0, 0x10, 0], by decide, by decide⟩, ⟨[0xAB], by decide, by decide⟩]

/-- A write whose last byte arrives by itself loses that byte: the handler writes nothing, and
takes the byte for an unknown command. -/
theorem not_framed :
    ¬ ∀ (env : Env) (s : State), s.serverRunning → ∀ (cs : List Command) (segments : List Packet),
      (segments.map Packet.bytes).flatten = (cs.map Command.encode).flatten →
      Framed env s cs segments := by
  intro h
  have hframed := h ⟨fun _ _ m => (m, 0), fun _ m => m⟩ ⟨fun _ => 0, fun _ => 0, true⟩ rfl
    [.write 0x1000 [0xAB] (by decide)] cutWrite (by decide)
  have hbyte := congrFun hframed.memory 0x1000
  exact absurd hbyte (by decide)

end Wupserver

end RecoveryMenu

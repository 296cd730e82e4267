import RecoveryMenu.Wupserver.Client

set_option relaxedAutoImplicit false
set_option autoImplicit false

/-!
# The memory behind wupserver (`ios_mcp/source/wupserver.c`)

A sequence of commands, each received whole, is a program over a flat memory of bytes. The
handler builds each response in the buffer that the command was received in. The meaning of the
program does not know of the buffer: it writes and copies single bytes, in order, and a response
is what the memory holds at that moment.

## Main definitions

* `RecoveryMenu.Wupserver.Request`: a well-formed command, or one with an unknown id.
* `RecoveryMenu.Wupserver.Request.apply`, `RecoveryMenu.Wupserver.Request.response`,
  `RecoveryMenu.Wupserver.responses`: their meaning.

## Main results

* `RecoveryMenu.Wupserver.session_requests`: a session is its meaning.

## References

* `ios_mcp/source/wupserver.c`, lines 18-130.
-/

namespace RecoveryMenu

namespace Wupserver

open ByteMemory

/-! ## Requests -/

/-- A copy is well formed if its ranges have no address in common. -/
def Command.NonOverlapping : Command → Prop
  | .memcpy dst src size => Memory.Disjoint dst src size.toNat
  | _ => True

/-- A write, read or memcpy command, or a command with an unknown id and any bytes behind it. -/
inductive Request
  | known (c : Command) (h : c.NonOverlapping)
  | unknown (id : UInt32) (payload : List UInt8) (hid : 6 ≤ id.toNat)
    (hlength : payload.length ≤ 0x5FC)

/-- A request received whole by one `recv`. -/
def Request.packet : Request → Packet
  | .known c _ => c.packet
  | .unknown id payload _ hlength =>
    { bytes := bytesOfWord id ++ payload
      length_pos := by simp
      length_le := by
        rw [List.length_append, length_bytesOfWord, commandBufferSize]
        omega }

/-- What a request does to the memory, byte by byte. -/
def Request.apply (m : Memory) : Request → Memory
  | .known (.write addr data _) _ => m.writeBytes addr data
  | .known (.memcpy dst src size) _ => m.copyBytes dst src size.toNat
  | _ => m

/-- What a request answers: the word `0`, and for a read the bytes of the memory; the word `-2`
where the id is unknown. -/
def Request.response (m : Memory) : Request → List UInt8
  | .known (.read addr length _) _ => bytesOfWord 0 ++ m.load addr length.toNat
  | .known _ _ => bytesOfWord 0
  | .unknown _ _ _ _ => bytesOfWord (-2)

/-- The responses to a sequence of requests, each from the memory at that moment. -/
def responses : Memory → List Request → List (List UInt8)
  | _, [] => []
  | m, r :: rs => r.response m :: responses (r.apply m) rs

/-! ## One request -/

/-- The meaning of a well-formed command, byte by byte. -/
lemma apply_known (m : Memory) {c : Command} (h : c.NonOverlapping) :
    (Request.known c h).apply m = c.exec m := by
  cases c with
  | write addr data hlength => exact Memory.writeBytes_eq_store m addr (by omega)
  | read addr length hlength => rfl
  | memcpy dst src size => exact Memory.copyBytes_eq_copy m size.toNat_lt.le h

/-- The answer to a well-formed command. -/
lemma response_known (m : Memory) {c : Command} (h : c.NonOverlapping) :
    (Request.known c h).response m = c.response m := by
  cases c <;> rfl

/-- An unknown id is answered, and the memory stays.

**Proof sketch.** The `switch` reads the id from the packet and returns. -/
lemma handlePacket_unknown (env : Env) (s : State) (r : Request) {id : UInt32}
    {payload : List UInt8} {hid : 6 ≤ id.toNat} {hlength : payload.length ≤ 0x5FC}
    (hr : r = .unknown id payload hid hlength) :
    handlePacket env s r.packet = ⟨some (-2), s.receive r.packet, [.field 0]⟩ := by
  subst hr
  set p := (Request.unknown id payload hid hlength).packet
  have hbytes : p.bytes = [id].flatMap bytesOfWord ++ payload := by
    simp [p, Request.packet]
  obtain ⟨n, hn⟩ := Nat.exists_eq_add_of_le hid
  rw [handlePacket_eq, word_receive_fields s hbytes (by omega : 0 < 1), List.getElem_cons_zero, hn,
    Nat.add_comm]
  rfl

/-- **One request.** The handler returns, the response is that of the request, and the memory is
what the request makes of it. -/
lemma handlePacket_request (env : Env) (s : State) (r : Request) :
    ∃ ret, (handlePacket env s r.packet).ret = some ret ∧
      reply ret (handlePacket env s r.packet).state = r.response s.memory ∧
      (handlePacket env s r.packet).state.memory = r.apply s.memory ∧
      (handlePacket env s r.packet).state.serverRunning = s.serverRunning := by
  cases r with
  | known c h =>
    rw [apply_known, response_known]
    exact handlePacket_packet env s c
  | unknown id payload hid hlength =>
    rw [handlePacket_unknown env s _ rfl]
    exact ⟨-2, rfl, rfl, rfl, rfl⟩

/-! ## A session -/

/-- The memory and the bytes sent after a session.

**Proof sketch.** Induction on the requests, with `handlePacket_request` for each; the buffer a
request leaves is any buffer to the next one. -/
lemma session_meaning (env : Env) (rs : List Request) (s : State) (hrun : s.serverRunning) :
    (session env s (rs.map Request.packet)).state.memory = rs.foldl Request.apply s.memory ∧
      (session env s (rs.map Request.packet)).sent = (responses s.memory rs).flatten := by
  induction rs generalizing s with
  | nil => exact ⟨rfl, rfl⟩
  | cons r rs ih =>
    obtain ⟨ret, hret, hreply, hmem, hrun'⟩ := handlePacket_request env s r
    obtain ⟨hmemory, hsent⟩ := ih (handlePacket env s r.packet).state (hrun'.trans hrun)
    rw [hmem] at hmemory hsent
    simp only [session, List.map_cons, serverClientHandler, hrun, not_true_eq_false, if_false,
      hret, responses, hreply, List.flatten_cons, List.foldl_cons]
    exact ⟨hmemory, congrArg _ hsent⟩

/-- The responses to one sequence of requests behind another. -/
lemma responses_append (m : Memory) (rs rs' : List Request) :
    responses m (rs ++ rs') = responses m rs ++ responses (rs.foldl Request.apply m) rs' := by
  induction rs generalizing m with
  | nil => rfl
  | cons r rs ih =>
    rw [List.cons_append, responses, ih, responses, List.foldl_cons, List.cons_append]

/-- A read of all the bytes that a write has just written. -/
def readBack (addr : UInt32) (data : List UInt8) (h : data.length ≤ 0x5F8) : Command :=
  .read addr (UInt32.ofNat data.length) (by rw [UInt32.toNat_ofNat']; omega)

/-- The bytes of a write are what a read answers after it. -/
lemma response_readBack (m : Memory) (addr : UInt32) (data : List UInt8)
    (h : data.length ≤ 0x5F8) :
    (Request.known (readBack addr data h) trivial).response
        ((Request.known (.write addr data h) trivial).apply m) = bytesOfWord 0 ++ data := by
  have hlength : (UInt32.ofNat data.length).toNat = data.length := by
    rw [UInt32.toNat_ofNat']
    omega
  have hle : data.length ≤ 2 ^ 32 := by omega
  change bytesOfWord 0 ++ (m.writeBytes addr data).load addr (UInt32.ofNat data.length).toNat = _
  rw [hlength, Memory.writeBytes_eq_store m addr hle, Memory.load_store_self m addr hle]

/-- **The memory behind the server.** For every sequence of requests, each received whole, and
whatever the buffer held before: the memory afterwards is that of the writes and copies byte by
byte and in order, and the bytes sent are the responses, one behind the other. One more request
adds the response that it has in the memory of that moment, so a write that is read back answers
with its bytes. -/
theorem session_requests (env : Env) (s : State) (hrun : s.serverRunning) (rs : List Request) :
    (session env s (rs.map Request.packet)).state.memory = rs.foldl Request.apply s.memory ∧
      (session env s (rs.map Request.packet)).sent = (responses s.memory rs).flatten ∧
      (∀ r : Request, (session env s ((rs ++ [r]).map Request.packet)).sent =
        (session env s (rs.map Request.packet)).sent ++
          r.response (session env s (rs.map Request.packet)).state.memory) ∧
      ∀ (addr : UInt32) (data : List UInt8) (h : data.length ≤ 0x5F8),
        (session env s ((rs ++ [Request.known (.write addr data h) trivial,
            Request.known (readBack addr data h) trivial]).map Request.packet)).sent =
          (session env s (rs.map Request.packet)).sent ++
            (bytesOfWord 0 ++ (bytesOfWord 0 ++ data)) := by
  obtain ⟨hmemory, hsent⟩ := session_meaning env rs s hrun
  refine ⟨hmemory, hsent, fun r => ?_, fun addr data h => ?_⟩
  · rw [(session_meaning env _ s hrun).2, responses_append, List.flatten_append, ← hsent, hmemory,
      responses, responses, List.flatten_singleton]
  · rw [(session_meaning env _ s hrun).2, responses_append, List.flatten_append, ← hsent, responses,
      responses, responses, response_readBack, List.flatten_cons, List.flatten_singleton]
    rfl

/-- The byte at `0x1000` and the one at `0x2000` do not overlap. -/
lemma nonOverlapping_byte : (Command.memcpy 0x2000 0x1000 1).NonOverlapping := by
  simp [Command.NonOverlapping, Memory.Disjoint]

/-- A byte is written, copied and read at its new address; then comes an unknown command. -/
theorem session_requests_copy :
    (session ⟨fun _ _ m => (m, 0), fun _ m => m⟩ ⟨fun _ => 0, fun _ => 0xFF, true⟩
      ([Request.known (.write 0x1000 [0xAB] (by decide)) trivial,
        .known (.memcpy 0x2000 0x1000 1) nonOverlapping_byte,
        .known (.read 0x2000 1 (by decide)) trivial,
        .unknown 7 [] (by decide) (by decide)].map Request.packet)).sent =
      [0, 0, 0, 0, 0, 0, 0, 0, 0, 0, 0, 0, 0xAB, 0xFF, 0xFF, 0xFF, 0xFE] :=
  (session_requests _ _ rfl _).2.1.trans (by decide)

end Wupserver

end RecoveryMenu

import Mathlib.Tactic.Abel
import RecoveryMenu.Foundations.Places
import RecoveryMenu.Options.InstallWUP.Handshake

set_option relaxedAutoImplicit false
set_option autoImplicit false

/-!
# Who owns the buffer of a request (`ios_mcp/source/options/InstallWUP.c`)

The buffer of a request passes from the menu thread to MCP, with the reply to the queue, and from
there to a callback thread, which frees it. Each buffer has at most one owner at any time, and
only its owner accesses it or frees it.

## Main definitions

* `RecoveryMenu.InstallWUP.Handshake.State.transit`: the requests MCP has accepted, and the replies
  until `asyncPending` is cleared.
* `RecoveryMenu.InstallWUP.Handshake.State.owned`: the buffers with an owner.
* `RecoveryMenu.InstallWUP.Handshake.Owned`: the invariant.

## Main results

* `RecoveryMenu.InstallWUP.Handshake.owned_of_reachable`: it holds in every run.

## References

* `ios_mcp/source/options/InstallWUP.c`, lines 15-28 and 95-156.
* `ios_mcp/source/mcp_install.c`, `MCP_InstallTitleAsync`.
-/

namespace RecoveryMenu

namespace InstallWUP

namespace Handshake

open Interleaving Lifetime Places

/-! ## Requests and replies -/

/-- A request that MCP has accepted, or the reply to it, with its buffer. -/
inductive Packet
  | request (ioBuf : ℕ)
  | reply (ioBuf : ℕ)
  deriving DecidableEq, Repr

/-- The buffer of a request or a reply. -/
def Packet.ioBuf : Packet → ℕ
  | .request b => b
  | .reply b => b

/-- A request is with MCP. -/
def Request.packets (r : Request) : Multiset Packet := {.request r.ioBuf}

/-- A message may carry a reply. -/
def messagePackets (m : ℕ × Message) : Multiset Packet :=
  match m.2 with
  | .null => 0
  | .reply b => {.reply b}

/-- A callback thread has a reply until it clears `asyncPending`. -/
def CallbackPc.packets : CallbackPc → Multiset Packet
  | .readResult b | .clearPending b => {.reply b}
  | _ => 0

/-- After that it still has the buffer. -/
def CallbackPc.freeing : CallbackPc → Multiset ℕ
  | .readIoBuf b | .free b => {b}
  | _ => 0

/-- The buffers a callback thread has. -/
def CallbackPc.buffers (pc : CallbackPc) : Multiset ℕ := pc.packets.map Packet.ioBuf + pc.freeing

/-- The menu thread has the buffer before MCP accepts the request, and where MCP refuses it. -/
def MenuPc.writing : MenuPc → Multiset ℕ
  | .submit _ b | .freeRefused _ b => {b}
  | _ => 0

/-- The requests that MCP has accepted, and the replies, until `asyncPending` is cleared. -/
def inTransit (requests : List Request) (messages : List (ℕ × Message))
    (threads : List CallbackPc) : Multiset Packet :=
  tokens Request.packets requests + tokens messagePackets messages +
    tokens CallbackPc.packets threads

/-- The buffers with an owner, as often as they have one. -/
def withOwner (menu : MenuPc) (packets : Multiset Packet) (threads : List CallbackPc) :
    Multiset ℕ :=
  menu.writing + packets.map Packet.ioBuf + tokens CallbackPc.freeing threads

/-- The requests that MCP has accepted, and the replies, until `asyncPending` is cleared. -/
def State.transit (s : State) : Multiset Packet := inTransit s.requests s.messages s.threads

/-- The buffers with an owner, as often as they have one. -/
def State.owned (s : State) : Multiset ℕ := withOwner s.menu s.transit s.threads

/-! ## How they move -/

section

variable {requests : List Request} {messages : List (ℕ × Message)} {threads : List CallbackPc}
  {packets : Multiset Packet} {menu : MenuPc}

/-- A callback thread goes on. -/
lemma inTransit_set (requests : List Request) (messages : List (ℕ × Message)) {t : ℕ}
    {pc : CallbackPc} (h : threads[t]? = some pc) (pc' : CallbackPc) :
    pc.packets + inTransit requests messages (threads.set t pc') =
      pc'.packets + inTransit requests messages threads := by
  have hset := tokens_set CallbackPc.packets h pc'
  unfold inTransit
  rw [add_left_comm, hset, add_left_comm]

/-- A callback thread goes on with the same replies. -/
lemma inTransit_set_of_eq {t : ℕ} {pc : CallbackPc} (h : threads[t]? = some pc)
    (pc' : CallbackPc) (heq : pc.packets = pc'.packets) :
    inTransit requests messages (threads.set t pc') = inTransit requests messages threads := by
  have hset := inTransit_set requests messages h pc'
  rw [heq] at hset
  exact add_left_cancel hset

/-- A thread that is created has no reply. -/
lemma inTransit_created :
    inTransit requests messages (threads ++ [.created]) = inTransit requests messages threads := by
  simp [inTransit, CallbackPc.packets]

/-- MCP accepts a request. -/
lemma inTransit_submit (r : Request) :
    inTransit (requests ++ [r]) messages threads =
      .request r.ioBuf ::ₘ inTransit requests messages threads := by
  simp only [inTransit, tokens_append, tokens_cons, tokens_nil, Request.packets,
    ← Multiset.singleton_add]
  abel

/-- A request is done. -/
lemma inTransit_erase (messages : List (ℕ × Message)) (threads : List CallbackPc) {r : Request}
    (hr : r ∈ requests) :
    .request r.ioBuf ::ₘ inTransit (requests.erase r) messages threads =
      inTransit requests messages threads := by
  unfold inTransit
  rw [← tokens_erase Request.packets hr, ← Multiset.singleton_add, ← add_assoc, ← add_assoc]
  rfl

/-- A message is sent. -/
lemma inTransit_send (m : ℕ × Message) :
    inTransit requests (messages ++ [m]) threads =
      messagePackets m + inTransit requests messages threads := by
  simp only [inTransit, tokens_append, tokens_cons, tokens_nil]
  abel

/-- A callback thread receives a message. -/
lemma inTransit_received {t q : ℕ} {m : ℕ × Message}
    (h : threads[t]? = some (.receiving (some q))) (hm : m ∈ messages) :
    inTransit requests (messages.erase m) (threads.set t m.2.received) =
      inTransit requests messages threads := by
  have hset := inTransit_set requests (messages.erase m) h m.2.received
  have hpackets : m.2.received.packets = messagePackets m := by
    unfold messagePackets
    cases m.2 <;> rfl
  have herase : messagePackets m + inTransit requests (messages.erase m) threads =
      inTransit requests messages threads := by
    unfold inTransit
    rw [← tokens_erase messagePackets hm]
    abel
  rw [hpackets, herase] at hset
  exact (zero_add _).symm.trans hset

/-- Some messages are lost. -/
lemma inTransit_filter_le (p : ℕ × Message → Bool) :
    inTransit requests (messages.filter p) threads ≤ inTransit requests messages threads := by
  have hmessages := tokens_filter_le messagePackets p messages
  unfold inTransit
  gcongr

/-- Fewer packets have fewer buffers. -/
lemma withOwner_le {packets' : Multiset Packet} (h : packets' ≤ packets) :
    withOwner menu packets' threads ≤ withOwner menu packets threads := by
  unfold withOwner
  gcongr

/-- What a callback thread has goes on with it. -/
lemma withOwner_set (menu : MenuPc) (requests : List Request) (messages : List (ℕ × Message))
    {t : ℕ} {pc : CallbackPc} (h : threads[t]? = some pc) (pc' : CallbackPc) :
    pc.buffers + withOwner menu (inTransit requests messages (threads.set t pc'))
        (threads.set t pc') =
      pc'.buffers + withOwner menu (inTransit requests messages threads) threads := by
  have htransit := congrArg (Multiset.map Packet.ioBuf)
    (inTransit_set requests messages h pc')
  have hfreeing := tokens_set CallbackPc.freeing h pc'
  rw [Multiset.map_add, Multiset.map_add] at htransit
  unfold withOwner CallbackPc.buffers
  calc
    _ = menu.writing + (pc.packets.map Packet.ioBuf +
          (inTransit requests messages (threads.set t pc')).map Packet.ioBuf) +
          (pc.freeing + tokens CallbackPc.freeing (threads.set t pc')) := by abel
    _ = menu.writing + (pc'.packets.map Packet.ioBuf +
          (inTransit requests messages threads).map Packet.ioBuf) +
          (pc'.freeing + tokens CallbackPc.freeing threads) := by rw [htransit, hfreeing]
    _ = _ := by abel

/-- A callback thread goes on with the same buffers. -/
lemma withOwner_set_of_eq {t : ℕ} {pc : CallbackPc} (h : threads[t]? = some pc)
    (pc' : CallbackPc) (heq : pc.buffers = pc'.buffers) :
    withOwner menu (inTransit requests messages (threads.set t pc')) (threads.set t pc') =
      withOwner menu (inTransit requests messages threads) threads := by
  have hset := withOwner_set menu requests messages h pc'
  rw [heq] at hset
  exact add_left_cancel hset

/-- A thread that is created has no buffer. -/
lemma withOwner_created :
    withOwner menu (inTransit requests messages (threads ++ [.created]))
        (threads ++ [.created]) =
      withOwner menu (inTransit requests messages threads) threads := by
  rw [inTransit_created]
  simp [withOwner, CallbackPc.freeing]

/-- A callback thread gets the buffer with the message. -/
lemma withOwner_received {t q : ℕ} {m : ℕ × Message}
    (h : threads[t]? = some (.receiving (some q))) (hm : m ∈ messages) :
    withOwner menu (inTransit requests (messages.erase m) (threads.set t m.2.received))
        (threads.set t m.2.received) =
      withOwner menu (inTransit requests messages threads) threads := by
  have hfreeing := tokens_set CallbackPc.freeing h m.2.received
  have hreceived : m.2.received.freeing = 0 := by cases m.2 <;> rfl
  rw [hreceived] at hfreeing
  rw [inTransit_received h hm]
  exact congrArg (menu.writing + _ + ·) ((zero_add _).symm.trans (hfreeing.trans (zero_add _)))

/-- The reply has the buffer of the request. -/
lemma withOwner_reply (b : ℕ) :
    withOwner menu (.reply b ::ₘ packets) threads =
      withOwner menu (.request b ::ₘ packets) threads := by
  simp only [withOwner, Multiset.map_cons, Packet.ioBuf]

/-- The menu thread hands the buffer over to MCP. -/
lemma withOwner_submit (t b : ℕ) :
    withOwner (.submitted t b) (.request b ::ₘ packets) threads =
      withOwner (.submit t b) packets threads := by
  simp only [withOwner, MenuPc.writing, Multiset.map_cons, Packet.ioBuf, zero_add,
    Multiset.singleton_add]

end

/-! ## The invariant -/

section

variable {s s' : State}

/-- A thread that has not ended exists. -/
lemma getElem?_of_thread {t : ℕ} {pc : CallbackPc} (h : s.thread t = pc) (hpc : pc ≠ .ended) :
    s.threads[t]? = some pc := by
  unfold State.thread at h
  cases hget : s.threads[t]? with
  | none =>
    rw [hget] at h
    exact absurd h.symm hpc
  | some pc' =>
    rw [hget] at h
    exact congrArg some h

/-- A NULL message carries no reply. -/
lemma transit_post_null (s : State) (queue : Option ℕ) :
    (s.post queue .null).transit = s.transit := by
  show inTransit s.requests (s.post queue .null).messages s.threads = _
  unfold State.post
  dsimp only
  split
  · split_ifs
    · rw [inTransit_send]
      exact zero_add _
    · rfl
  · rfl

/-- A reply is in transit, unless its queue does not exist. -/
lemma transit_post_reply (s : State) (queue : Option ℕ) (b : ℕ) :
    (s.post queue (.reply b)).transit = s.transit ∨
      (s.post queue (.reply b)).transit = .reply b ::ₘ s.transit := by
  show inTransit s.requests (s.post queue (.reply b)).messages s.threads = _ ∨
    inTransit s.requests (s.post queue (.reply b)).messages s.threads = _
  unfold State.post
  dsimp only
  split
  · split_ifs
    · rw [inTransit_send]
      exact .inr (Multiset.singleton_add _ _)
    · exact .inl rfl
  · exact .inl rfl

/-- What a callback thread has is owned. -/
lemma mem_owned_of_thread {t b : ℕ} {pc : CallbackPc} (h : s.thread t = pc) (hpc : pc ≠ .ended)
    (hb : b ∈ pc.buffers) : b ∈ s.owned := by
  have hset := withOwner_set s.menu s.requests s.messages (getElem?_of_thread h hpc) .ended
  have hmem : b ∈ CallbackPc.ended.buffers + s.owned := by
    show b ∈ CallbackPc.ended.buffers + withOwner _ (inTransit _ _ _) _
    rw [← hset]
    exact Multiset.mem_add.mpr (.inl hb)
  exact (Multiset.mem_add.mp hmem).resolve_left (Multiset.notMem_zero b)

/-- The buffer of a request that MCP has accepted is owned. -/
lemma mem_owned_of_request {r : Request} (hr : r ∈ s.requests) : r.ioBuf ∈ s.owned := by
  have hmem : Packet.request r.ioBuf ∈ s.transit := by
    unfold State.transit
    rw [← inTransit_erase _ _ hr]
    exact Multiset.mem_cons_self _ _
  exact Multiset.mem_add.mpr (.inl (Multiset.mem_add.mpr (.inr
    (Multiset.mem_map_of_mem Packet.ioBuf hmem))))

/-- What the menu thread has is owned. -/
lemma mem_owned_of_menu {b : ℕ} {pc : MenuPc} (h : s.menu = pc) (hb : b ∈ pc.writing) :
    b ∈ s.owned := by
  rw [← h] at hb
  exact Multiset.mem_add.mpr (.inl (Multiset.mem_add.mpr (.inl hb)))

/-- The accesses so far are allowed, an owned buffer is not freed yet, no buffer has two owners,
and a buffer that is owned names itself as the one to free. -/
structure Owned (s : State) : Prop where
  ledger : ∃ phase, Lifetime.run (fun _ => .fresh) s.ops = some phase ∧
    (∀ b ∈ s.owned, phase b = .held) ∧ ∀ b, s.allocated ≤ b → phase b = .fresh
  nodup : s.owned.Nodup
  ioBuf : ∀ b ∈ s.owned, (s.heap b).ioBuf = b

/-- A step that accesses owned buffers only, and hands buffers on or loses them. -/
lemma Owned.hand (hs : Owned s) (uses : List ℕ) (huses : ∀ b ∈ uses, b ∈ s.owned)
    (hops : s'.ops = s.ops ++ uses.map Op.use) (howned : s'.owned ≤ s.owned)
    (hallocated : s'.allocated = s.allocated)
    (hheap : ∀ b, (s'.heap b).ioBuf = (s.heap b).ioBuf) : Owned s' := by
  obtain ⟨phase, hrun, hheld, hfresh⟩ := hs.ledger
  refine ⟨⟨phase, ?_, fun b hb => hheld b (Multiset.mem_of_le howned hb),
    fun b hb => hfresh b (hallocated ▸ hb)⟩, Multiset.nodup_of_le howned hs.nodup, fun b hb => ?_⟩
  · have hused : ∀ op ∈ uses.map Op.use, ∃ b, op = .use b ∧ phase b = .held := by
      intro op hop
      obtain ⟨b, hb, rfl⟩ := List.mem_map.mp hop
      exact ⟨b, rfl, hheld b (huses b hb)⟩
    rw [hops, run_append, hrun, Option.bind_some, run_uses hused]
  · rw [hheap, hs.ioBuf b (Multiset.mem_of_le howned hb)]

/-- A step that frees an owned buffer. -/
lemma Owned.free (hs : Owned s) {b : ℕ} (howned : b ::ₘ s'.owned = s.owned)
    (hops : s'.ops = s.ops ++ [Op.release b]) (hallocated : s'.allocated = s.allocated)
    (hheap : s'.heap = s.heap) : Owned s' := by
  obtain ⟨phase, hrun, hheld, hfresh⟩ := hs.ledger
  have hnodup : (b ::ₘ s'.owned).Nodup := howned ▸ hs.nodup
  obtain ⟨hb, hrest⟩ := Multiset.nodup_cons.mp hnodup
  have hmem {c : ℕ} (hc : c ∈ s'.owned) : c ∈ s.owned :=
    howned ▸ Multiset.mem_cons_of_mem hc
  have hphase : phase b = .held := hheld b (howned ▸ Multiset.mem_cons_self b _)
  refine ⟨⟨Function.update phase b .released, ?_, fun c hc => ?_, fun c hc => ?_⟩, hrest,
    fun c hc => hheap ▸ hs.ioBuf c (hmem hc)⟩
  · rw [hops, run_append, hrun, Option.bind_some, run_cons, step, Op.resource, hphase]
    rfl
  · rw [Function.update_of_ne (ne_of_mem_of_not_mem hc hb)]
    exact hheld c (hmem hc)
  · have hcb : c ≠ b := by
      rintro rfl
      rw [hfresh c (hallocated ▸ hc)] at hphase
      cases hphase
    rw [Function.update_of_ne hcb]
    exact hfresh c (hallocated ▸ hc)

/-- A buffer with an owner has been allocated. -/
lemma Owned.lt_allocated (hs : Owned s) {b : ℕ} (hb : b ∈ s.owned) : b < s.allocated := by
  obtain ⟨phase, -, hheld, hfresh⟩ := hs.ledger
  by_contra hle
  have hphase := hheld b hb
  rw [hfresh b (not_lt.mp hle)] at hphase
  cases hphase

/-- A step that accesses no buffer, and hands buffers on or loses them. -/
lemma Owned.keep (hs : Owned s) (howned : s'.owned ≤ s.owned)
    (hsame : s'.ops = s.ops ∧ s'.allocated = s.allocated ∧ s'.heap = s.heap) : Owned s' := by
  refine hs.hand [] (by simp) ?_ howned hsame.2.1 fun b => by rw [hsame.2.2]
  rw [hsame.1, List.map_nil, List.append_nil]

/-- A step that accesses the owned buffer `b`, and hands buffers on or loses them. -/
lemma Owned.use (hs : Owned s) {b : ℕ} (hb : b ∈ s.owned) (hops : s'.ops = s.ops ++ [Op.use b])
    (howned : s'.owned ≤ s.owned) (hallocated : s'.allocated = s.allocated)
    (hheap : ∀ b, (s'.heap b).ioBuf = (s.heap b).ioBuf) : Owned s' :=
  hs.hand [b] (by simpa using hb) hops howned hallocated hheap

/-- A step that allocates a buffer and writes to it. -/
lemma Owned.allocate (hs : Owned s) (howned : s'.owned = s.allocated ::ₘ s.owned)
    (hops : s'.ops = s.ops ++ [Op.acquire s.allocated, Op.use s.allocated])
    (hallocated : s'.allocated = s.allocated + 1)
    (hheap : s'.heap = Function.update s.heap s.allocated ⟨0, s.allocated⟩) : Owned s' := by
  obtain ⟨phase, hrun, hheld, hfresh⟩ := hs.ledger
  have hphase : phase s.allocated = .fresh := hfresh s.allocated le_rfl
  have hnew : s.allocated ∉ s.owned := by
    intro hmem
    rw [hheld _ hmem] at hphase
    cases hphase
  refine ⟨⟨Function.update phase s.allocated .held, ?_, fun b hb => ?_, fun b hb => ?_⟩, ?_,
    fun b hb => ?_⟩
  · have huse : ∀ op ∈ [Op.use s.allocated], ∃ b, op = .use b ∧
        Function.update phase s.allocated .held b = .held := by
      intro op hop
      exact ⟨s.allocated, List.mem_singleton.mp hop, Function.update_self _ _ _⟩
    rw [hops, run_append, hrun, Option.bind_some, run_cons, step, Op.resource, hphase]
    exact run_uses huse
  · rw [howned] at hb
    rcases Multiset.mem_cons.mp hb with rfl | hb
    · exact Function.update_self _ _ _
    · rw [Function.update_of_ne (ne_of_mem_of_not_mem hb hnew)]
      exact hheld b hb
  · have hlt : s.allocated < b := by
      rw [hallocated] at hb
      exact hb
    rw [Function.update_of_ne hlt.ne']
    exact hfresh b hlt.le
  · rw [howned]
    exact Multiset.nodup_cons.mpr ⟨hnew, hs.nodup⟩
  · rw [howned] at hb
    rw [hheap]
    rcases Multiset.mem_cons.mp hb with rfl | hb
    · rw [Function.update_self]
    · rw [Function.update_of_ne (ne_of_mem_of_not_mem hb hnew)]
      exact hs.ioBuf b hb

/-- A step of the menu thread that only goes on to another position leaves it its buffers. -/
lemma Goes.writing {pc pc' : MenuPc} (h : Goes s pc pc') : pc'.writing = pc.writing := by
  cases h <;> rfl

/-- A position of the menu thread where it has the same buffers. -/
lemma withOwner_menu {pc pc' : MenuPc} {packets : Multiset Packet} {threads : List CallbackPc}
    (h : pc'.writing = pc.writing) :
    withOwner pc' packets threads = withOwner pc packets threads :=
  congrArg (· + _ + _) h

/-- **Every step keeps the invariant.**

**Proof sketch.** Case split over the steps: where a buffer is handed on, its next owner gets it
in the same step; and only an owner accesses or frees it. -/
lemma Owned.next (hs : Owned s) {a : Label} (h : next s a = some s') : Owned s' := by
  have hmove := move_of_next h
  clear h
  cases hmove with
  | call hm =>
    exact hs.keep (withOwner_menu (congrArg MenuPc.writing hm).symm).le ⟨rfl, rfl, rfl⟩
  | goes hgoes => exact hs.keep (withOwner_menu hgoes.writing).le ⟨rfl, rfl, rfl⟩
  | createQueue hm | createQueueFailed hm | setResult hm | setPending hm =>
    exact hs.keep (withOwner_menu (congrArg MenuPc.writing hm).symm).le ⟨rfl, rfl, rfl⟩
  | @prepare t hm =>
    refine hs.allocate ?_ rfl rfl rfl
    show withOwner (.submit t s.allocated) s.transit s.threads = _ ::ₘ withOwner s.menu _ _
    simp only [withOwner, hm, MenuPc.writing, Multiset.singleton_add, Multiset.cons_add, zero_add]
  | createThread hm =>
    refine hs.keep (le_of_eq ?_) ⟨rfl, rfl, rfl⟩
    exact withOwner_created.trans (withOwner_menu (congrArg MenuPc.writing hm).symm)
  | startThread hm ht =>
    refine hs.keep (le_of_eq ?_) ⟨rfl, rfl, rfl⟩
    have hget := getElem?_of_thread ht CallbackPc.noConfusion
    exact (withOwner_set_of_eq hget .receive rfl).trans
      (withOwner_menu (congrArg MenuPc.writing hm).symm)
  | destroyQueue hm =>
    have hwriting : MenuPc.idle.writing = s.menu.writing := by
      rcases hm with hm | ⟨t, b, hm⟩
      · rw [hm]
        rfl
      · rw [hm]
        rfl
    refine hs.keep ?_ ⟨rfl, rfl, rfl⟩
    exact (withOwner_le (inTransit_filter_le _)).trans_eq (withOwner_menu hwriting)
  | @submit t b hm =>
    have hb : b ∈ (MenuPc.submit t b).writing := Multiset.mem_singleton_self b
    refine hs.use (mem_owned_of_menu hm hb) rfl (le_of_eq ?_) rfl fun _ => rfl
    show withOwner (.submitted t b) (inTransit (s.requests ++ [_]) s.messages s.threads) s.threads =
      withOwner s.menu (inTransit s.requests s.messages s.threads) s.threads
    rw [inTransit_submit, withOwner_submit, hm]
  | @refuse t b hm =>
    have hb : b ∈ (MenuPc.submit t b).writing := Multiset.mem_singleton_self b
    refine hs.use (mem_owned_of_menu hm hb) rfl (le_of_eq ?_) rfl fun _ => rfl
    exact withOwner_menu (congrArg MenuPc.writing hm).symm
  | @freeRefused t b hm =>
    refine hs.free ?_ rfl rfl rfl
    show b ::ₘ withOwner (.sendNull t) s.transit s.threads = withOwner s.menu _ _
    simp only [withOwner, hm, MenuPc.writing, Multiset.singleton_add, Multiset.cons_add, zero_add]
  | @sendNull t hm =>
    refine hs.keep (le_of_eq ?_) ⟨rfl, rfl, rfl⟩
    show withOwner _ (s.post s.callbackQueue .null).transit s.threads = _
    rw [transit_post_null]
    exact withOwner_menu (congrArg MenuPc.writing hm).symm
  | receive ht | receiveFailed ht | clearPending ht =>
    refine hs.keep (le_of_eq ?_) ⟨rfl, rfl, rfl⟩
    exact withOwner_set_of_eq (getElem?_of_thread ht CallbackPc.noConfusion) _ rfl
  | received ht hmem =>
    refine hs.keep (le_of_eq ?_) ⟨rfl, rfl, rfl⟩
    exact withOwner_received (getElem?_of_thread ht CallbackPc.noConfusion) hmem
  | @readResult t b ht =>
    have hb : b ∈ (CallbackPc.readResult b).buffers := Multiset.mem_singleton_self b
    refine hs.use (mem_owned_of_thread ht CallbackPc.noConfusion hb) rfl (le_of_eq ?_) rfl
      fun _ => rfl
    exact withOwner_set_of_eq (getElem?_of_thread ht CallbackPc.noConfusion) _ rfl
  | @readIoBuf t b ht =>
    have hb : b ∈ (CallbackPc.readIoBuf b).buffers := Multiset.mem_singleton_self b
    have howned := mem_owned_of_thread ht CallbackPc.noConfusion hb
    refine hs.use howned rfl (le_of_eq ?_) rfl fun _ => rfl
    rw [hs.ioBuf b howned]
    exact withOwner_set_of_eq (getElem?_of_thread ht CallbackPc.noConfusion) _ rfl
  | @free t b ht =>
    have hset := withOwner_set s.menu s.requests s.messages
      (getElem?_of_thread ht CallbackPc.noConfusion) .ended
    exact hs.free (hset.trans (zero_add _)) rfl rfl rfl
  | access hr => exact hs.use (mem_owned_of_request hr) rfl le_rfl rfl fun _ => rfl
  | @reply r result hr =>
    -- `ioBuf` is not part of what MCP writes.
    have hheap : ∀ b, (Function.update s.heap r.ioBuf { s.heap r.ioBuf with result := result }
        b).ioBuf = (s.heap b).ioBuf := by
      intro b
      by_cases hb : b = r.ioBuf
      · subst hb
        rw [Function.update_self]
      · rw [Function.update_of_ne hb]
    refine hs.use (mem_owned_of_request hr) rfl ?_ rfl hheap
    show withOwner s.menu (State.post _ r.queue (.reply r.ioBuf)).transit s.threads ≤
      withOwner s.menu (inTransit s.requests s.messages s.threads) s.threads
    rw [← inTransit_erase _ _ hr]
    rcases transit_post_reply _ r.queue r.ioBuf with hpost | hpost
    · rw [hpost]
      exact withOwner_le (Multiset.le_cons_self _ _)
    · rw [hpost, withOwner_reply]
      exact le_rfl

/-- **The owners of buffers.** The invariant holds in every run. -/
theorem owned_of_reachable (h : handshakeSystem.Reachable s) : Owned s := by
  refine h.invariant ?_ fun s a s' hs _ hnext => hs.next hnext
  rintro s ⟨-, -, -, -, hmessages, hrequests, -, hthreads, hmenu, hops, -⟩
  have howned : s.owned = 0 := by
    simp [State.owned, State.transit, inTransit, withOwner, hmessages, hrequests, hthreads, hmenu,
      MenuPc.writing]
  refine ⟨⟨fun _ => .fresh, by rw [hops]; rfl, ?_, fun b _ => rfl⟩, ?_, ?_⟩
  · rw [howned]
    exact fun b hb => absurd hb (Multiset.notMem_zero b)
  · rw [howned]
    exact Multiset.nodup_zero
  · rw [howned]
    exact fun b hb => absurd hb (Multiset.notMem_zero b)

end

end Handshake

end InstallWUP

end RecoveryMenu

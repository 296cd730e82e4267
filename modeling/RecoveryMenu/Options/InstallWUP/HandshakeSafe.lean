import RecoveryMenu.Options.InstallWUP.Ownership

set_option relaxedAutoImplicit false
set_option autoImplicit false

/-!
# What the threads of an installation agree on (`ios_mcp/source/options/InstallWUP.c`)

The loop of the menu thread ends once `asyncPending` is cleared, and then `asyncResult` has to be
the result of the installation; and `callbackQueue` is destroyed when no callback thread is left
that could use it.

## Main definitions

* `RecoveryMenu.InstallWUP.Handshake.HandshakeSafe`: the property, about the buffers, the result
  and the queue.
* `RecoveryMenu.InstallWUP.Handshake.Delivery`: how far the reply to a request has come, as an
  invariant.

## Main results

* `RecoveryMenu.InstallWUP.Handshake.delivery_of_reachable`: the invariant holds in every run.
* `RecoveryMenu.InstallWUP.Handshake.handshakeSafe_of_joinWaits`: the property holds in every run
  in which `IOS_JoinThread` waits.

## References

* `ios_mcp/source/options/InstallWUP.c`, lines 15-28 and 95-156.
* `ios_mcp/source/mcp_install.c`, `MCP_InstallTitleAsync`.
-/

namespace RecoveryMenu

namespace InstallWUP

namespace Handshake

open Interleaving Lifetime

/-! ## The property -/

/-- The replies delivered to the request in a buffer. -/
def State.repliesTo (s : State) (b : ℕ) : List (ℕ × ℤ) := s.delivered.filter (·.1 = b)

/-- The request whose loop has ended. -/
def MenuPc.finished : MenuPc → Option ℕ
  | .report _ b => some b
  | .join _ b | .destroy _ b => b
  | _ => none

/-- At a call of `IOS_DestroyMessageQueue`. -/
def MenuPc.Destroying : MenuPc → Prop
  | .abandon | .destroy _ _ => True
  | _ => False

/-- A buffer is freed at most once and not accessed afterwards; once the loop has ended,
`asyncResult` is the result of the one reply delivered; and where `callbackQueue` is destroyed,
every callback thread has ended or was never started. -/
structure HandshakeSafe (s : State) : Prop where
  buffers : NoneAfterRelease s.ops
  result : ∀ b, s.menu.finished = some b → s.repliesTo b = [(b, s.asyncResult)]
  queue : s.menu.Destroying → ∀ t, s.thread t = .ended ∨ s.thread t = .created

/-! ## The reply -/

/-- How far an installation has come. -/
inductive Stage
  | before
  /-- `asyncPending` is set, and the request may have been written to a buffer. -/
  | setUp (ioBuf : Option ℕ)
  /-- MCP has accepted the request, and the loop has not ended. -/
  | awaited (ioBuf : ℕ)
  /-- The loop has ended. -/
  | finished (ioBuf : ℕ)
  deriving DecidableEq, Repr

/-- The stage for a position of the menu thread. -/
def MenuPc.stage : MenuPc → Stage
  | .prepare _ => .setUp none
  | .submit _ b => .setUp (some b)
  | .submitted _ b | .test _ b | .poll _ b => .awaited b
  | .report _ b => .finished b
  | .join _ (some b) | .destroy _ (some b) => .finished b
  | _ => .before

/-- The reply to an accepted request is still to come, on its way or lost, and then the loop goes
on; or its result is stored. -/
inductive Awaiting (s : State) (b : ℕ) : Prop
  | requested (hpending : s.asyncPending = true) (htransit : s.transit = {.request b})
    (hreplies : s.repliesTo b = [])
  | replied (hpending : s.asyncPending = true) (htransit : s.transit = {.reply b})
    (hreplies : s.repliesTo b = [(b, (s.heap b).result)])
  | lost (hpending : s.asyncPending = true) (htransit : s.transit = 0)
  | stored (hpending : s.asyncPending = false) (htransit : s.transit = 0)
    (hreplies : s.repliesTo b = [(b, s.asyncResult)])

/-- What holds at a stage: a request or a reply is in transit only while it is awaited. -/
def StageInv (s : State) : Stage → Prop
  | .before => s.transit = 0
  | .setUp b => s.transit = 0 ∧ s.asyncPending = true ∧ ∀ c, b = some c → s.repliesTo c = []
  | .awaited b => Awaiting s b
  | .finished b => s.transit = 0 ∧ s.repliesTo b = [(b, s.asyncResult)]

/-- The invariant of the reply. A thread that is about to clear `asyncPending` has stored the
result. -/
structure Delivery (s : State) : Prop where
  stage : StageInv s s.menu.stage
  stored : ∀ t b, s.thread t = .clearPending b → s.asyncResult = (s.heap b).result
  numbered : ∀ r ∈ s.delivered, r.1 < s.allocated

section

variable {s s' : State}

/-- The reply a callback thread has is in transit. -/
lemma mem_transit_of_thread {t b : ℕ} {pc : CallbackPc} (h : s.thread t = pc)
    (hpc : pc ≠ .ended) (hb : .reply b ∈ pc.packets) : .reply b ∈ s.transit := by
  have hset := inTransit_set s.requests s.messages (getElem?_of_thread h hpc) .ended
  have hmem : .reply b ∈ CallbackPc.ended.packets + s.transit := by
    show _ ∈ CallbackPc.ended.packets + inTransit _ _ _
    rw [← hset]
    exact Multiset.mem_add.mpr (.inl hb)
  exact (Multiset.mem_add.mp hmem).resolve_left (Multiset.notMem_zero _)

/-- Something is in transit only while it is awaited. -/
lemma Delivery.awaiting (hs : Delivery s) {p : Packet} (hp : p ∈ s.transit) :
    ∃ b, s.menu.stage = .awaited b ∧ Awaiting s b := by
  have hne (hzero : s.transit = 0) : False :=
    Multiset.eq_zero_iff_forall_notMem.mp hzero p hp
  have hstage := hs.stage
  cases hmenu : s.menu.stage with
  | before =>
    rw [hmenu] at hstage
    exact (hne hstage).elim
  | setUp c =>
    rw [hmenu] at hstage
    exact (hne hstage.1).elim
  | finished c =>
    rw [hmenu] at hstage
    exact (hne hstage.1).elim
  | awaited c =>
    rw [hmenu] at hstage
    exact ⟨c, rfl, hstage⟩

/-- What is in transit is the request that is awaited or the reply to it, and it is alone. -/
lemma Delivery.of_mem (hs : Delivery s) {p : Packet} (hp : p ∈ s.transit) :
    ∃ b, s.menu.stage = .awaited b ∧ s.asyncPending = true ∧ s.transit = {p} ∧
      ((p = .request b ∧ s.repliesTo b = []) ∨
        (p = .reply b ∧ s.repliesTo b = [(b, (s.heap b).result)])) := by
  obtain ⟨b, hstage, hawaiting⟩ := hs.awaiting hp
  refine ⟨b, hstage, ?_⟩
  cases hawaiting with
  | requested hpending htransit hreplies =>
    have hrequest : p = .request b := by
      rw [htransit] at hp
      exact Multiset.mem_singleton.mp hp
    exact ⟨hpending, hrequest ▸ htransit, .inl ⟨hrequest, hreplies⟩⟩
  | replied hpending htransit hreplies =>
    have hreply : p = .reply b := by
      rw [htransit] at hp
      exact Multiset.mem_singleton.mp hp
    exact ⟨hpending, hreply ▸ htransit, .inr ⟨hreply, hreplies⟩⟩
  | lost _ htransit | stored _ htransit _ =>
    exact (Multiset.eq_zero_iff_forall_notMem.mp htransit _ hp).elim

/-- A reply in transit is the one that is awaited, and nothing else is in transit. -/
lemma Delivery.of_reply (hs : Delivery s) {b : ℕ} (hb : .reply b ∈ s.transit) :
    s.menu.stage = .awaited b ∧ s.asyncPending = true ∧ s.transit = {.reply b} ∧
      s.repliesTo b = [(b, (s.heap b).result)] := by
  obtain ⟨c, hstage, hpending, htransit, ⟨hp, -⟩ | ⟨hp, hreplies⟩⟩ := hs.of_mem hb
  · cases hp
  · obtain rfl := Packet.reply.inj hp
    exact ⟨hstage, hpending, htransit, hreplies⟩

/-- A request that MCP has accepted is the one whose reply is awaited, and nothing else is in
transit. -/
lemma Delivery.of_request (hs : Delivery s) {b : ℕ} (hb : .request b ∈ s.transit) :
    s.menu.stage = .awaited b ∧ s.asyncPending = true ∧ s.transit = {.request b} ∧
      s.repliesTo b = [] := by
  obtain ⟨c, hstage, hpending, htransit, ⟨hp, hreplies⟩ | ⟨hp, -⟩⟩ := hs.of_mem hb
  · obtain rfl := Packet.request.inj hp
    exact ⟨hstage, hpending, htransit, hreplies⟩
  · cases hp

/-- With nothing in transit no thread is about to clear `asyncPending`. -/
lemma Delivery.of_transit_eq_zero (htransit : s.transit = 0) (hstage : StageInv s s.menu.stage)
    (hnumbered : ∀ r ∈ s.delivered, r.1 < s.allocated) : Delivery s := by
  refine ⟨hstage, fun t b ht => ?_, hnumbered⟩
  have hmem := mem_transit_of_thread ht CallbackPc.noConfusion (Multiset.mem_singleton_self _)
  exact (Multiset.eq_zero_iff_forall_notMem.mp htransit _ hmem).elim

/-- What a stage says is about these variables only. -/
lemma StageInv.congr {stage : Stage} (h : StageInv s stage) (htransit : s'.transit = s.transit)
    (hvars : s'.asyncPending = s.asyncPending ∧ s'.asyncResult = s.asyncResult ∧
      s'.heap = s.heap ∧ s'.delivered = s.delivered) : StageInv s' stage := by
  obtain ⟨hpending, hresult, hheap, hdelivered⟩ := hvars
  have hreplies (b : ℕ) : s'.repliesTo b = s.repliesTo b :=
    congrArg (List.filter _) hdelivered
  cases stage with
  | before => exact htransit.trans h
  | setUp b =>
    refine ⟨htransit.trans h.1, hpending.trans h.2.1, fun c hc => ?_⟩
    rw [hreplies]
    exact h.2.2 c hc
  | awaited b =>
    cases h with
    | requested hp ht hr =>
      exact .requested (hpending.trans hp) (htransit.trans ht) ((hreplies b).trans hr)
    | replied hp ht hr =>
      exact .replied (hpending.trans hp) (htransit.trans ht)
        ((hreplies b).trans (hheap ▸ hr))
    | lost hp ht => exact .lost (hpending.trans hp) (htransit.trans ht)
    | stored hp ht hr =>
      exact .stored (hpending.trans hp) (htransit.trans ht)
        ((hreplies b).trans (hresult ▸ hr))
  | finished b => exact ⟨htransit.trans h.1, (hreplies b).trans (hresult ▸ h.2)⟩

/-- A step that leaves the stage, what is in transit and the variables, and takes no thread to
`asyncPending = 0`. -/
lemma Delivery.keep (hs : Delivery s) (hmenu : s'.menu.stage = s.menu.stage)
    (htransit : s'.transit = s.transit)
    (hvars : s'.asyncPending = s.asyncPending ∧ s'.asyncResult = s.asyncResult ∧
      s'.heap = s.heap ∧ s'.delivered = s.delivered) (hallocated : s'.allocated = s.allocated)
    (hthreads : ∀ t b, s'.thread t = .clearPending b → s.thread t = .clearPending b) :
    Delivery s' := by
  refine ⟨hmenu ▸ hs.stage.congr htransit hvars, fun t b ht => ?_, fun r hr => ?_⟩
  · rw [hvars.2.1, hvars.2.2.1]
    exact hs.stored t b (hthreads t b ht)
  · rw [hvars.2.2.2] at hr
    rw [hallocated]
    exact hs.numbered r hr

/-- Where the threads stand after one of them went on. -/
lemma thread_set {t : ℕ} {pc : CallbackPc} (h : s.thread t = pc) (hpc : pc ≠ .ended)
    (pc' : CallbackPc) (u : ℕ) :
    (s.threads.set t pc')[u]?.getD .ended = if u = t then pc' else s.thread u := by
  have hlt : t < s.threads.length := (List.getElem?_eq_some_iff.mp (getElem?_of_thread h hpc)).1
  by_cases hu : u = t
  · subst hu
    simp [hlt]
  · rw [List.getElem?_set_ne (Ne.symm hu), if_neg hu]
    rfl

/-- Where the threads stand after one was created. -/
lemma thread_created (u : ℕ) :
    (s.threads ++ [.created])[u]?.getD .ended =
      if u = s.threads.length then .created else s.thread u := by
  rcases Nat.lt_trichotomy u s.threads.length with hlt | rfl | hgt
  · rw [List.getElem?_append_left hlt, if_neg (Nat.ne_of_lt hlt)]
    rfl
  · simp
  · have hend : (s.threads ++ [CallbackPc.created]).length ≤ u := by
      rw [List.length_append]
      exact hgt
    rw [if_neg (Nat.ne_of_gt hgt), State.thread, List.getElem?_eq_none hend,
      List.getElem?_eq_none hgt.le]

/-- A callback thread goes on without a reply, or with the one it has. -/
lemma Delivery.goOn (hs : Delivery s) {t : ℕ} {pc pc' : CallbackPc} (ht : s.thread t = pc)
    (hpc : pc ≠ .ended) (hpackets : pc.packets = pc'.packets)
    (hpc' : ∀ b, pc' ≠ .clearPending b) (ops : List (Op ℕ)) :
    Delivery ({ s with ops := ops }.goOn t pc') := by
  refine hs.keep rfl (inTransit_set_of_eq (getElem?_of_thread ht hpc) pc' hpackets)
    ⟨rfl, rfl, rfl, rfl⟩ rfl fun u b hu => ?_
  rw [State.thread, State.goOn, thread_set ht hpc] at hu
  split_ifs at hu with hut
  · exact absurd hu (hpc' b)
  · exact hu

/-- The result is read from a reply. -/
lemma Delivery.readResult (hs : Delivery s) {t b : ℕ} (ht : s.thread t = .readResult b) :
    Delivery ({ s with asyncResult := (s.heap b).result, ops := s.ops ++ [Op.use b] }.goOn t
      (.clearPending b)) := by
  have hget := getElem?_of_thread ht CallbackPc.noConfusion
  obtain ⟨hstage, hpending, htransit, hreplies⟩ := hs.of_reply
    (mem_transit_of_thread ht CallbackPc.noConfusion (Multiset.mem_singleton_self _))
  refine ⟨?_, fun u c hu => ?_, hs.numbered⟩
  · show StageInv _ s.menu.stage
    rw [hstage]
    have htransit' := (inTransit_set_of_eq hget (.clearPending b) rfl).trans htransit
    exact .replied hpending htransit' hreplies
  · -- Any thread at this position has the one reply in transit.
    have hc : c = b := by
      rw [State.thread, State.goOn, thread_set ht CallbackPc.noConfusion] at hu
      split_ifs at hu with hut
      · exact (CallbackPc.clearPending.inj hu).symm
      · have hmem := mem_transit_of_thread hu CallbackPc.noConfusion
          (Multiset.mem_singleton_self (Packet.reply c))
        rw [htransit] at hmem
        exact Packet.reply.inj (Multiset.mem_singleton.mp hmem)
    rw [hc]
    rfl

/-- `asyncPending` is cleared. -/
lemma Delivery.clearPending (hs : Delivery s) {t b : ℕ} (ht : s.thread t = .clearPending b) :
    Delivery ({ s with asyncPending := false }.goOn t (.readIoBuf b)) := by
  have hset := inTransit_set s.requests s.messages
    (getElem?_of_thread ht CallbackPc.noConfusion) (.readIoBuf b)
  obtain ⟨hstage, -, htransit, hreplies⟩ := hs.of_reply
    (mem_transit_of_thread ht CallbackPc.noConfusion (Multiset.mem_singleton_self _))
  have hzero : inTransit s.requests s.messages (s.threads.set t (.readIoBuf b)) = 0 := by
    have hsum : ({.reply b} : Multiset Packet) + inTransit s.requests s.messages
        (s.threads.set t (.readIoBuf b)) = {.reply b} + 0 := by
      rw [add_zero]
      exact hset.trans ((zero_add _).trans htransit)
    exact add_left_cancel hsum
  refine .of_transit_eq_zero hzero ?_ hs.numbered
  show StageInv _ s.menu.stage
  rw [hstage]
  refine .stored rfl hzero (hreplies.trans ?_)
  rw [← hs.stored t b ht]
  rfl

/-- MCP replies to a request. -/
lemma Delivery.reply (hs : Delivery s) (howned : Owned s) {r : Request} (hr : r ∈ s.requests)
    (result : ℤ) :
    Delivery ({ s with
      requests := s.requests.erase r
      heap := Function.update s.heap r.ioBuf { s.heap r.ioBuf with result := result }
      ops := s.ops ++ [Op.use r.ioBuf]
      delivered := s.delivered ++ [(r.ioBuf, result)] }.post r.queue (.reply r.ioBuf)) := by
  have herase := inTransit_erase s.messages s.threads hr
  have hmem : Packet.request r.ioBuf ∈ s.transit := by
    rw [State.transit, ← herase]
    exact Multiset.mem_cons_self _ _
  obtain ⟨hstage, hpending, htransit, hreplies⟩ := hs.of_request hmem
  have hrest : inTransit (s.requests.erase r) s.messages s.threads = 0 := by
    have hcons : Packet.request r.ioBuf ::ₘ inTransit (s.requests.erase r) s.messages s.threads =
        Packet.request r.ioBuf ::ₘ 0 := herase.trans htransit
    exact (Multiset.cons_inj_right _).mp hcons
  have hreplies' : (s.delivered ++ [(r.ioBuf, result)]).filter (·.1 = r.ioBuf) =
      [(r.ioBuf, result)] := by
    rw [List.filter_append, show s.delivered.filter (·.1 = r.ioBuf) = [] from hreplies]
    simp
  refine ⟨?_, fun t b ht => ?_, fun p hp => ?_⟩
  · show StageInv _ s.menu.stage
    rw [hstage]
    rcases transit_post_reply _ r.queue r.ioBuf with hpost | hpost
    · exact .lost hpending (hpost.trans hrest)
    · refine .replied hpending (hpost.trans (congrArg _ hrest)) (hreplies'.trans ?_)
      show _ = [(r.ioBuf, (Function.update s.heap r.ioBuf _ r.ioBuf).result)]
      rw [Function.update_self]
  · -- No thread has a reply while the request is with MCP.
    have hthread := mem_transit_of_thread (show s.thread t = .clearPending b from ht)
      CallbackPc.noConfusion (Multiset.mem_singleton_self _)
    rw [htransit] at hthread
    cases Multiset.mem_singleton.mp hthread
  · rcases List.mem_append.mp hp with hp | hp
    · exact hs.numbered p hp
    · obtain rfl := List.mem_singleton.mp hp
      exact howned.lt_allocated (mem_owned_of_request hr)

/-- The menu thread goes on to another position.

**Proof sketch.** Case split over the positions: the loop ends only once `asyncPending` is cleared,
and then the result is stored. -/
lemma Delivery.goes (hs : Delivery s) {pc : MenuPc} (h : Goes s s.menu pc) :
    Delivery { s with menu := pc } := by
  have hkeep (hstage : pc.stage = s.menu.stage) : Delivery { s with menu := pc } :=
    hs.keep hstage rfl ⟨rfl, rfl, rfl, rfl⟩ rfl fun _ _ ht => ht
  have hstage := hs.stage
  generalize hm : s.menu = pc₀ at h hkeep hstage
  cases h with
  | createThreadFailed => exact hkeep rfl
  | startThreadFailed t => exact hkeep rfl
  | abandonFailed => exact hkeep rfl
  | submitted t b => exact hkeep rfl
  | sendNullFailed t => exact hkeep rfl
  | pending t b hpending => exact hkeep rfl
  | poll t b => exact hkeep rfl
  | report t b => exact hkeep rfl
  | join t b => cases b <;> exact hkeep rfl
  | loopEnds t b hpending =>
    have hawaiting : Awaiting s b := hstage
    cases hawaiting with
    | requested hset _ _ | replied hset _ _ | lost hset _ =>
      rw [hpending] at hset
      cases hset
    | stored _ htransit hreplies =>
      exact .of_transit_eq_zero htransit ⟨htransit, hreplies⟩ hs.numbered
  | destroyFailed t b =>
    cases b with
    | none => exact hkeep rfl
    | some b => exact .of_transit_eq_zero hstage.1 hstage.1 hs.numbered

/-- **Every step keeps the invariant.**

**Proof sketch.** Case split over the steps. Nothing is in transit where a request is written; then
the request, and after it the reply, is the one thing in transit, until the thread that has it
clears `asyncPending`. -/
lemma Delivery.next (hs : Delivery s) (howned : Owned s) {a : Label}
    (h : next s a = some s') : Delivery s' := by
  have hmove := move_of_next h
  have hstage := hs.stage
  clear h
  cases hmove with
  | call hm | createQueue hm | createQueueFailed hm =>
    exact hs.keep (congrArg MenuPc.stage hm).symm rfl ⟨rfl, rfl, rfl, rfl⟩ rfl fun _ _ ht => ht
  | goes hgoes => exact hs.goes hgoes
  | createThread hm =>
    refine hs.keep (congrArg MenuPc.stage hm).symm ?_ ⟨rfl, rfl, rfl, rfl⟩ rfl fun t b ht => ?_
    · exact inTransit_created
    · rw [State.thread, thread_created] at ht
      split_ifs at ht
      exact ht
  | startThread hm ht =>
    refine hs.keep (congrArg MenuPc.stage hm).symm
      (inTransit_set_of_eq (getElem?_of_thread ht CallbackPc.noConfusion) .receive rfl)
      ⟨rfl, rfl, rfl, rfl⟩ rfl fun u b hu => ?_
    rw [State.thread, thread_set ht CallbackPc.noConfusion] at hu
    split_ifs at hu
    exact hu
  | destroyQueue hm =>
    have htransit : s.transit = 0 := by
      rcases hm with hm | ⟨t, b, hm⟩
      · rw [hm] at hstage
        exact hstage
      · rw [hm] at hstage
        cases b with
        | none => exact hstage
        | some b => exact hstage.1
    have hle : ({ s.destroyQueue with menu := .idle } : State).transit ≤ s.transit :=
      inTransit_filter_le _
    rw [htransit] at hle
    have hzero := Multiset.le_zero.mp hle
    exact .of_transit_eq_zero hzero hzero hs.numbered
  | setResult hm =>
    rw [hm] at hstage
    exact .of_transit_eq_zero hstage hstage hs.numbered
  | setPending hm =>
    rw [hm] at hstage
    exact .of_transit_eq_zero hstage ⟨hstage, rfl, fun c hc => by cases hc⟩ hs.numbered
  | @prepare t hm =>
    rw [hm] at hstage
    have hnone : s.repliesTo s.allocated = [] := by
      refine List.filter_eq_nil_iff.mpr fun r hr => ?_
      rw [decide_eq_true_eq]
      exact (hs.numbered r hr).ne
    refine .of_transit_eq_zero hstage.1 ⟨hstage.1, hstage.2.1, fun c hc => ?_⟩
      fun r hr => (hs.numbered r hr).trans (Nat.lt_succ_self _)
    obtain rfl := Option.some.inj hc
    exact hnone
  | @submit t b hm =>
    rw [hm] at hstage
    obtain ⟨hzero, hpending, hreplies⟩ := hstage
    have htransit : inTransit (s.requests ++ [⟨b, s.callbackQueue⟩]) s.messages s.threads =
        {.request b} := by
      rw [inTransit_submit]
      exact congrArg _ hzero
    refine ⟨.requested hpending htransit (hreplies b rfl), fun u c hu => ?_, hs.numbered⟩
    exact hs.stored u c hu
  | refuse hm =>
    rw [hm] at hstage
    exact .of_transit_eq_zero hstage.1 hstage.1 hs.numbered
  | freeRefused hm =>
    exact hs.keep (congrArg MenuPc.stage hm).symm rfl ⟨rfl, rfl, rfl, rfl⟩ rfl fun _ _ ht => ht
  | sendNull hm =>
    exact hs.keep (congrArg MenuPc.stage hm).symm (transit_post_null s _) ⟨rfl, rfl, rfl, rfl⟩ rfl
      fun _ _ ht => ht
  | receive ht | receiveFailed ht | readIoBuf ht | free ht =>
    refine hs.goOn ht CallbackPc.noConfusion ?_ ?_ _
    · rfl
    · exact fun b => CallbackPc.noConfusion
  | @received t q m ht hmem =>
    refine hs.keep rfl
      (inTransit_received (getElem?_of_thread ht CallbackPc.noConfusion) hmem)
      ⟨rfl, rfl, rfl, rfl⟩ rfl fun u b hu => ?_
    rw [State.thread, State.goOn, thread_set ht CallbackPc.noConfusion] at hu
    split_ifs at hu
    · cases hreceived : m.2 <;> rw [hreceived] at hu <;> cases hu
    · exact hu
  | readResult ht => exact hs.readResult ht
  | clearPending ht => exact hs.clearPending ht
  | access hr => exact hs.keep rfl rfl ⟨rfl, rfl, rfl, rfl⟩ rfl fun _ _ ht => ht
  | reply hr => exact hs.reply howned hr _

/-- **The reply.** The invariant holds in every run. -/
theorem delivery_of_reachable (h : handshakeSystem.Reachable s) : Delivery s := by
  refine h.invariant_of_reachable ?_ fun s a s' hreach hs _ hnext =>
    hs.next (owned_of_reachable hreach) hnext
  rintro s ⟨-, -, -, -, hmessages, hrequests, -, hthreads, hmenu, -, hdelivered⟩
  have htransit : s.transit = 0 := by
    simp [State.transit, inTransit, hmessages, hrequests, hthreads]
  refine .of_transit_eq_zero htransit ?_ ?_
  · rw [hmenu]
    exact htransit
  · rw [hdelivered]
    exact fun r hr => absurd hr List.not_mem_nil

/-! ## The queue -/

/-- The callback thread that was started and not joined. -/
def MenuPc.running : MenuPc → Option ℕ
  | .setResult t | .setPending t | .prepare t | .submit t _ | .submitted t _ | .freeRefused t _
  | .sendNull t | .test t _ | .poll t _ | .report t _ | .join t _ => some t
  | _ => none

/-- A callback thread that has not ended was never started, or it is the one that is running. -/
def OneRunning (s : State) : Prop :=
  ∀ t, s.thread t = .ended ∨ s.thread t = .created ∨ s.menu.running = some t

/-- A step that leaves the callback threads and the one that is running. -/
lemma OneRunning.keep (hs : OneRunning s) (hrunning : s'.menu.running = s.menu.running)
    (hthreads : s'.threads = s.threads) : OneRunning s' := by
  intro t
  rw [State.thread, hthreads, hrunning]
  exact hs t

/-- A callback thread that goes on is the one that is running. -/
lemma OneRunning.goOn (hs : OneRunning s) {t : ℕ} {pc : CallbackPc} (ht : s.thread t = pc)
    (hpc : pc ≠ .ended ∧ pc ≠ .created) (pc' : CallbackPc) (hmenu : s'.menu = s.menu)
    (hthreads : s'.threads = s.threads.set t pc') : OneRunning s' := by
  intro u
  rw [State.thread, hthreads, hmenu, thread_set ht hpc.1]
  by_cases hut : u = t
  · subst hut
    have hrunning := ((hs u).resolve_left (ht ▸ hpc.1)).resolve_left (ht ▸ hpc.2)
    exact .inr (.inr hrunning)
  · rw [if_neg hut]
    exact hs u

/-- With no thread running, any callback thread has ended or was never started. -/
lemma OneRunning.of_none (hs : OneRunning s) (hnone : s.menu.running = none) (t : ℕ) :
    s.thread t = .ended ∨ s.thread t = .created := by
  rcases hs t with hended | hcreated | hrunning
  · exact .inl hended
  · exact .inr hcreated
  · rw [hnone] at hrunning
    cases hrunning

/-- The menu thread goes on to another position, and from `IOS_JoinThread` only once the thread
has ended. -/
lemma OneRunning.goes (hs : OneRunning s) {pc : MenuPc} (h : Goes s s.menu pc)
    (hjoin : ∀ t ∈ s.menu.joining, s.thread t = .ended) :
    OneRunning { s with menu := pc } := by
  generalize hm : s.menu = pc₀ at h hjoin
  have hkeep (hrunning : pc.running = pc₀.running) : OneRunning { s with menu := pc } :=
    hs.keep (hrunning.trans (congrArg MenuPc.running hm).symm) rfl
  cases h with
  | join t b =>
    have hended := hjoin t rfl
    intro u
    rcases hs u with hu | hu | hu
    · exact .inl hu
    · exact .inr (.inl hu)
    · rw [hm] at hu
      obtain rfl := Option.some.inj hu
      exact .inl hended
  | createThreadFailed => exact hkeep rfl
  | startThreadFailed t => exact hkeep rfl
  | abandonFailed => exact hkeep rfl
  | submitted t b => exact hkeep rfl
  | sendNullFailed t => exact hkeep rfl
  | pending t b hpending => exact hkeep rfl
  | loopEnds t b hpending => exact hkeep rfl
  | poll t b => exact hkeep rfl
  | report t b => exact hkeep rfl
  | destroyFailed t b => exact hkeep rfl

/-- **Every step keeps to one running thread,** where `IOS_JoinThread` waits.

**Proof sketch.** Case split over the steps: a thread is started only where none is running, and
the one that is running ends before it is joined. -/
lemma OneRunning.next (hs : OneRunning s) {a : Label} (hjoin : JoinWaits s a)
    (h : next s a = some s') : OneRunning s' := by
  have hmove := move_of_next h
  clear h
  cases hmove with
  | goes hgoes => exact hs.goes hgoes hjoin
  | call hm | createQueue hm | createQueueFailed hm | setResult hm | setPending hm | prepare hm
  | submit hm | refuse hm | freeRefused hm | sendNull hm =>
    exact hs.keep (congrArg MenuPc.running hm).symm rfl
  | destroyQueue hm =>
    refine hs.keep ?_ rfl
    rcases hm with hm | ⟨t, b, hm⟩
    · exact (congrArg MenuPc.running hm).symm
    · exact (congrArg MenuPc.running hm).symm
  | createThread hm =>
    intro t
    have hold := hs.of_none (congrArg MenuPc.running hm) t
    rw [State.thread, thread_created]
    split_ifs
    · exact .inr (.inl rfl)
    · exact hold.imp_right .inl
  | @startThread t hm ht =>
    intro u
    have hold := hs.of_none (congrArg MenuPc.running hm) u
    rw [State.thread, thread_set ht CallbackPc.noConfusion]
    split_ifs with hut
    · subst hut
      exact .inr (.inr rfl)
    · exact hold.imp_right .inl
  | receive ht | received ht _ | receiveFailed ht | readResult ht | clearPending ht
  | readIoBuf ht | free ht =>
    exact hs.goOn ht ⟨CallbackPc.noConfusion, CallbackPc.noConfusion⟩ _ rfl rfl
  | access hr => exact hs.keep rfl rfl
  | reply hr => exact hs.keep rfl rfl

/-- The invariant holds in every run in which `IOS_JoinThread` waits. -/
lemma oneRunning_of_joinWaits (h : handshakeSystem.ReachableVia JoinWaits s) : OneRunning s := by
  refine h.invariant ?_ fun s a s' hs hjoin hnext => hs.next hjoin hnext
  rintro s ⟨-, -, -, -, -, -, -, hthreads, -⟩ t
  rw [State.thread, hthreads]
  exact .inl rfl

/-! ## The handshake -/

/-- The guard may be forgotten. -/
lemma reachable_of_joinWaits (h : handshakeSystem.ReachableVia JoinWaits s) :
    handshakeSystem.Reachable s :=
  h.mono_of_invariant (I := fun _ => True) (fun _ _ => trivial) (fun _ _ _ _ _ _ => trivial)
    fun _ _ _ _ => trivial

/-- **The handshake.** In every run in which `IOS_JoinThread` waits, a buffer is freed at most once
and not accessed afterwards, the loop ends with the result of the reply, and no callback thread is
left when the queue is destroyed. Only the last of these needs that `IOS_JoinThread` waits. -/
theorem handshakeSafe_of_joinWaits (h : handshakeSystem.ReachableVia JoinWaits s) :
    HandshakeSafe s := by
  have hreach := reachable_of_joinWaits h
  have hstage := (delivery_of_reachable hreach).stage
  constructor
  · obtain ⟨phase, hrun, -⟩ := (owned_of_reachable hreach).ledger
    exact noneAfterRelease_of_run hrun
  · intro b hb
    have hfinished : s.menu.stage = .finished b := by
      cases hm : s.menu with
      | report t c =>
        rw [hm] at hb
        exact congrArg Stage.finished (Option.some.inj hb)
      | join t c =>
        rw [hm] at hb
        obtain rfl : c = some b := hb
        rfl
      | destroy t c =>
        rw [hm] at hb
        obtain rfl : c = some b := hb
        rfl
      | _ =>
        rw [hm] at hb
        cases hb
    rw [hfinished] at hstage
    exact hstage.2
  · intro hdestroying t
    refine (oneRunning_of_joinWaits h).of_none ?_ t
    cases hm : s.menu <;> rw [hm] at hdestroying <;> first | rfl | exact hdestroying.elim

end

/-- The start of the program. -/
def start : State where
  callbackQueue := none
  asyncPending := false
  asyncResult := -1
  queues := []
  messages := []
  requests := []
  allocated := 0
  heap _ := ⟨0, 0⟩
  threads := []
  menu := .idle
  ops := []
  delivered := []

/-- An installation whose reply comes before `IOS_IoctlvAsync` has returned, up to the destruction
of the queue. -/
def installed : List Label :=
  [.call, .menu (.created 3), .menu .done, .menu .done, .callback 0 .done, .menu .done,
    .menu .done, .menu .done, .menu .done, .reply ⟨0, some 3⟩ 7, .callback 0 .done,
    .callback 0 .done, .menu .done, .menu .done, .callback 0 .done, .menu .done, .menu .done,
    .callback 0 .done, .menu .done, .callback 0 .done, .menu .done]

/-- The loop of that installation ends with the result of the reply. -/
theorem handshakeSafe_of_joinWaits_installed :
    (handshakeSystem.run start installed).map (fun s => (s.menu, s.asyncResult)) =
        some (.destroy 0 (some 0), 7) ∧
      ∀ s, handshakeSystem.run start installed = some s → HandshakeSafe s := by
  refine ⟨by decide +kernel, fun s hs => ?_⟩
  have hinit : handshakeSystem.init start := ⟨rfl, rfl, rfl, rfl, rfl, rfl, rfl, rfl, rfl, rfl, rfl⟩
  have hmeets : handshakeSystem.Meets JoinWaits start installed := by decide +kernel
  exact handshakeSafe_of_joinWaits (.run (.init hinit) installed hs hmeets)

end Handshake

end InstallWUP

end RecoveryMenu

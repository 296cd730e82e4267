import Mathlib.Data.Int.Notation
import RecoveryMenu.Foundations.Lifetime
import RecoveryMenu.Foundations.TransitionSystem

set_option relaxedAutoImplicit false
set_option autoImplicit false

/-!
# The threads of an installation (`ios_mcp/source/options/InstallWUP.c`)

The option hands MCP a request and goes on to show the progress, until `asyncPending` is cleared.
MCP replies by a message to `callbackQueue` that points into the buffer of the request;
`callbackThread` reads the result from it, clears `asyncPending` and frees the buffer. Where MCP
refuses the request, the menu thread frees the buffer itself and sends a NULL message.

The model is the transition system `handshakeSystem`: a step of a thread is one access to the shared
variables or one call, and its `Event` is the result of that call. A buffer is known by its number
among those allocated, and `heap` has the reply in it. A step of MCP accesses the buffer of a
request it has accepted, or replies to the request. Where `IOS_IoctlvAsync` fails, MCP has not
accepted the request. Ids of threads are not used again; those of queues may be.

## Main definitions

* `RecoveryMenu.InstallWUP.Handshake.handshakeSystem`: the menu thread, the callback threads and
  MCP, over any number of installations.
* `RecoveryMenu.InstallWUP.Handshake.JoinWaits`: `IOS_JoinThread` returns only once its thread has
  ended.

## Main results

* `RecoveryMenu.InstallWUP.Handshake.move_of_next`: what a step can do.

## References

* `ios_mcp/source/options/InstallWUP.c`, lines 10-28 and 95-156.
* `ios_mcp/source/mcp_install.c`, `MCP_InstallTitleAsync`.
-/

namespace RecoveryMenu

namespace InstallWUP

namespace Handshake

open Interleaving Lifetime

/-! ## Program counters -/

/-- Where a callback thread stands. A buffer stands for the `reply` in it. -/
inductive CallbackPc
  /-- Created and not started. -/
  | created
  /-- At the call of `IOS_ReceiveMessage(callbackQueue, ..)`. -/
  | receive
  /-- Inside `IOS_ReceiveMessage`, `none` for a negative id. -/
  | receiving (queue : Option ℕ)
  /-- At `asyncResult = reply->reply.result`. -/
  | readResult (reply : ℕ)
  /-- At `asyncPending = 0`. -/
  | clearPending (reply : ℕ)
  /-- At the access to `reply->ioBuf`. -/
  | readIoBuf (reply : ℕ)
  /-- At `IOS_HeapFree(CROSS_PROCESS_HEAP_ID, ioBuf)`. -/
  | free (ioBuf : ℕ)
  /-- The thread has ended. -/
  | ended
  deriving DecidableEq, Repr

/-- Where the menu thread stands in `option_InstallWUP`, with the callback thread and the buffer of
the request. -/
inductive MenuPc
  /-- Not at the part of the option from `IOS_CreateMessageQueue` on. -/
  | idle
  | createQueue
  | createThread
  | startThread (thread : ℕ)
  /-- At `IOS_DestroyMessageQueue`, where the thread was not created or not started. -/
  | abandon
  /-- At `asyncResult = -1`. -/
  | setResult (thread : ℕ)
  /-- At `asyncPending = 1`. -/
  | setPending (thread : ℕ)
  /-- In `MCP_InstallTitleAsync`, before the request is written. -/
  | prepare (thread : ℕ)
  /-- At the call of `IOS_IoctlvAsync`. -/
  | submit (thread ioBuf : ℕ)
  /-- MCP has accepted the request, and the result is not negative. -/
  | submitted (thread ioBuf : ℕ)
  /-- At `freeIoBuf(buf)`, where the result is negative. -/
  | freeRefused (thread ioBuf : ℕ)
  /-- At `IOS_SendMessage(callbackQueue, 0, ..)`. -/
  | sendNull (thread : ℕ)
  /-- At `while (asyncPending)`. -/
  | test (thread ioBuf : ℕ)
  /-- In the body of the loop. -/
  | poll (thread ioBuf : ℕ)
  /-- At `if (asyncResult < 0)`. -/
  | report (thread ioBuf : ℕ)
  /-- Inside `IOS_JoinThread`, with the buffer where the request was accepted. -/
  | join (thread : ℕ) (ioBuf : Option ℕ)
  /-- At `IOS_DestroyMessageQueue` after the thread was joined. -/
  | destroy (thread : ℕ) (ioBuf : Option ℕ)
  deriving DecidableEq, Repr

/-- The result of a step. -/
inductive Event
  | done
  /-- The call returns a negative value. -/
  | failed
  /-- `IOS_CreateMessageQueue` returns an id. -/
  | created (queue : ℕ)
  deriving DecidableEq, Repr

/-! ## The state -/

/-- `MCPAsyncReply`. -/
structure MCPAsyncReply where
  /-- `reply.result`. -/
  result : ℤ
  ioBuf : ℕ
  deriving DecidableEq, Repr

/-- A message to `callbackQueue`. -/
inductive Message
  | null
  /-- A pointer to the reply in a buffer. -/
  | reply (ioBuf : ℕ)
  deriving DecidableEq, Repr

/-- A request that MCP has accepted, with the queue for the reply. -/
structure Request where
  ioBuf : ℕ
  queue : Option ℕ
  deriving DecidableEq, Repr

/-- The shared variables, what is in the queues and in the buffers, and where the threads stand.
Two fields only observe the run: `ops` are the accesses to the buffers, and `delivered` are the
replies with their results. -/
structure State where
  callbackQueue : Option ℕ
  asyncPending : Bool
  asyncResult : ℤ
  /-- The queues that exist. -/
  queues : List ℕ
  /-- The messages that were not received, with their queues. -/
  messages : List (ℕ × Message)
  requests : List Request
  /-- The number of buffers allocated. -/
  allocated : ℕ
  heap : ℕ → MCPAsyncReply
  threads : List CallbackPc
  menu : MenuPc
  ops : List (Op ℕ)
  delivered : List (ℕ × ℤ)

/-- Where callback thread `t` stands; a thread that does not exist counts as ended. -/
def State.thread (s : State) (t : ℕ) : CallbackPc := s.threads[t]?.getD .ended

/-- A message is put into a queue, if the queue exists. -/
def State.post (s : State) (queue : Option ℕ) (m : Message) : State :=
  { s with
    messages := match queue with
      | some q => if q ∈ s.queues then s.messages ++ [(q, m)] else s.messages
      | none => s.messages }

/-- `IOS_DestroyMessageQueue(callbackQueue)`. -/
def State.destroyQueue (s : State) : State :=
  { s with
    queues := s.queues.filter fun q => some q ≠ s.callbackQueue
    messages := s.messages.filter fun m => some m.1 ≠ s.callbackQueue }

/-! ## The steps -/

/-- One step of the menu thread. The result of `MCP_InstallGetProgress` does not matter, nor does
that of `IOS_JoinThread`. -/
def menuStep (s : State) : MenuPc → Event → Option State
  | .createQueue, .created q =>
    if q ∈ s.queues then none
    else some { s with callbackQueue := some q, queues := q :: s.queues, menu := .createThread }
  | .createQueue, .failed => some { s with callbackQueue := none, menu := .idle }
  | .createThread, .done =>
    some { s with threads := s.threads ++ [.created], menu := .startThread s.threads.length }
  | .createThread, .failed => some { s with menu := .abandon }
  | .startThread t, .done =>
    if s.thread t = .created then
      some { s with threads := s.threads.set t .receive, menu := .setResult t }
    else none
  | .startThread _, .failed => some { s with menu := .abandon }
  | .abandon, .done => some { s.destroyQueue with menu := .idle }
  | .abandon, .failed => some { s with menu := .idle }
  | .setResult t, .done => some { s with asyncResult := -1, menu := .setPending t }
  | .setPending t, .done => some { s with asyncPending := true, menu := .prepare t }
  | .prepare t, .done =>
    -- The buffer is cleared, and the path, the vector and `ioBuf` are written.
    some { s with
      allocated := s.allocated + 1
      heap := Function.update s.heap s.allocated ⟨0, s.allocated⟩
      ops := s.ops ++ [Op.acquire s.allocated, Op.use s.allocated]
      menu := .submit t s.allocated }
  | .submit t b, .done =>
    some { s with
      requests := s.requests ++ [⟨b, s.callbackQueue⟩]
      ops := s.ops ++ [Op.use b]
      menu := .submitted t b }
  | .submit t b, .failed => some { s with ops := s.ops ++ [Op.use b], menu := .freeRefused t b }
  | .submitted t b, .done => some { s with menu := .test t b }
  | .freeRefused t b, .done => some { s with ops := s.ops ++ [Op.release b], menu := .sendNull t }
  | .sendNull t, .done => some { s.post s.callbackQueue .null with menu := .join t none }
  | .sendNull t, .failed => some { s with menu := .join t none }
  | .test t b, .done =>
    some { s with menu := if s.asyncPending then .poll t b else .report t b }
  | .poll t b, .done => some { s with menu := .test t b }
  | .report t b, .done => some { s with menu := .join t (some b) }
  | .join t b, .done => some { s with menu := .destroy t b }
  | .destroy _ _, .done => some { s.destroyQueue with menu := .idle }
  | .destroy _ _, .failed => some { s with menu := .idle }
  | _, _ => none

/-- Where a callback thread goes on with a message. -/
def Message.received : Message → CallbackPc
  | .null => .ended
  | .reply b => .readResult b

/-- Callback thread `t` goes on at `pc`. -/
def State.goOn (s : State) (t : ℕ) (pc : CallbackPc) : State :=
  { s with threads := s.threads.set t pc }

/-- One step of callback thread `t`. -/
def callbackThread (s : State) (t : ℕ) : CallbackPc → Event → Option State
  | .receive, .done => some (s.goOn t (.receiving s.callbackQueue))
  | .receiving (some q), .done =>
    (s.messages.find? (·.1 = q)).map fun m =>
      { s with messages := s.messages.erase m }.goOn t m.2.received
  | .receiving _, .failed => some (s.goOn t .ended)
  | .readResult b, .done =>
    some ({ s with asyncResult := (s.heap b).result, ops := s.ops ++ [Op.use b] }.goOn t
      (.clearPending b))
  | .clearPending b, .done => some ({ s with asyncPending := false }.goOn t (.readIoBuf b))
  | .readIoBuf b, .done =>
    some ({ s with ops := s.ops ++ [Op.use b] }.goOn t (.free (s.heap b).ioBuf))
  | .free b, .done => some ({ s with ops := s.ops ++ [Op.release b] }.goOn t .ended)
  | _, _ => none

/-- The steps of the system. -/
inductive Label
  /-- The menu thread gets to `IOS_CreateMessageQueue`. -/
  | call
  /-- The menu thread advances. -/
  | menu (e : Event)
  /-- Callback thread `t` advances. -/
  | callback (t : ℕ) (e : Event)
  /-- MCP accesses the buffer of a request. -/
  | access (r : Request)
  /-- MCP replies to a request. -/
  | reply (r : Request) (result : ℤ)
  deriving DecidableEq, Repr

/-- The state after a label, where it is enabled. -/
def next (s : State) : Label → Option State
  | .call => if s.menu = .idle then some { s with menu := .createQueue } else none
  | .menu e => menuStep s s.menu e
  | .callback t e => callbackThread s t (s.thread t) e
  | .access r => if r ∈ s.requests then some { s with ops := s.ops ++ [Op.use r.ioBuf] } else none
  | .reply r result =>
    if r ∈ s.requests then
      some ({ s with
        requests := s.requests.erase r
        heap := Function.update s.heap r.ioBuf { s.heap r.ioBuf with result := result }
        ops := s.ops ++ [Op.use r.ioBuf]
        delivered := s.delivered ++ [(r.ioBuf, result)] }.post r.queue (.reply r.ioBuf))
    else none

/-- The menu thread, the callback threads and MCP, from the start of the program. -/
def handshakeSystem : System State Label where
  init s := s.callbackQueue = none ∧ s.asyncPending = false ∧ s.asyncResult = -1 ∧
    s.queues = [] ∧ s.messages = [] ∧ s.requests = [] ∧ s.allocated = 0 ∧ s.threads = [] ∧
    s.menu = .idle ∧ s.ops = [] ∧ s.delivered = []
  next := next

/-- The thread the menu thread waits for in `IOS_JoinThread`. -/
def MenuPc.joining : MenuPc → Option ℕ
  | .join t _ => some t
  | _ => none

/-- `IOS_JoinThread` returns only once its thread has ended. -/
def JoinWaits (s : State) : Label → Prop
  | .menu _ => ∀ t ∈ s.menu.joining, s.thread t = .ended
  | _ => True

instance (s : State) : ∀ a, Decidable (JoinWaits s a)
  | .menu _ => inferInstanceAs (Decidable (∀ t ∈ s.menu.joining, s.thread t = .ended))
  | .call | .callback _ _ | .access _ | .reply _ _ => .isTrue trivial

/-! ## What a step can do -/

/-- The steps of the menu thread that only go on to another position. -/
inductive Goes (s : State) : MenuPc → MenuPc → Prop
  | createThreadFailed : Goes s .createThread .abandon
  | startThreadFailed (t : ℕ) : Goes s (.startThread t) .abandon
  | abandonFailed : Goes s .abandon .idle
  | submitted (t b : ℕ) : Goes s (.submitted t b) (.test t b)
  | sendNullFailed (t : ℕ) : Goes s (.sendNull t) (.join t none)
  | pending (t b : ℕ) (hpending : s.asyncPending = true) : Goes s (.test t b) (.poll t b)
  | loopEnds (t b : ℕ) (hpending : s.asyncPending = false) : Goes s (.test t b) (.report t b)
  | poll (t b : ℕ) : Goes s (.poll t b) (.test t b)
  | report (t b : ℕ) : Goes s (.report t b) (.join t (some b))
  | join (t : ℕ) (b : Option ℕ) : Goes s (.join t b) (.destroy t b)
  | destroyFailed (t : ℕ) (b : Option ℕ) : Goes s (.destroy t b) .idle

/-- What a step of the system can do. -/
inductive Move (s : State) : Label → State → Prop
  | call (hm : s.menu = .idle) : Move s .call { s with menu := .createQueue }
  | goes {e : Event} {pc : MenuPc} (hgoes : Goes s s.menu pc) :
    Move s (.menu e) { s with menu := pc }
  | createQueue {q : ℕ} (hm : s.menu = .createQueue) :
    Move s (.menu (.created q))
      { s with callbackQueue := some q, queues := q :: s.queues, menu := .createThread }
  | createQueueFailed (hm : s.menu = .createQueue) :
    Move s (.menu .failed) { s with callbackQueue := none, menu := .idle }
  | createThread (hm : s.menu = .createThread) :
    Move s (.menu .done)
      { s with threads := s.threads ++ [.created], menu := .startThread s.threads.length }
  | startThread {t : ℕ} (hm : s.menu = .startThread t) (ht : s.thread t = .created) :
    Move s (.menu .done) { s with threads := s.threads.set t .receive, menu := .setResult t }
  | destroyQueue (hm : s.menu = .abandon ∨ ∃ t b, s.menu = .destroy t b) :
    Move s (.menu .done) { s.destroyQueue with menu := .idle }
  | setResult {t : ℕ} (hm : s.menu = .setResult t) :
    Move s (.menu .done) { s with asyncResult := -1, menu := .setPending t }
  | setPending {t : ℕ} (hm : s.menu = .setPending t) :
    Move s (.menu .done) { s with asyncPending := true, menu := .prepare t }
  | prepare {t : ℕ} (hm : s.menu = .prepare t) :
    Move s (.menu .done) { s with
      allocated := s.allocated + 1
      heap := Function.update s.heap s.allocated ⟨0, s.allocated⟩
      ops := s.ops ++ [Op.acquire s.allocated, Op.use s.allocated]
      menu := .submit t s.allocated }
  | submit {t b : ℕ} (hm : s.menu = .submit t b) :
    Move s (.menu .done) { s with
      requests := s.requests ++ [⟨b, s.callbackQueue⟩]
      ops := s.ops ++ [Op.use b]
      menu := .submitted t b }
  /-- MCP refuses the request. -/
  | refuse {t b : ℕ} (hm : s.menu = .submit t b) :
    Move s (.menu .failed) { s with ops := s.ops ++ [Op.use b], menu := .freeRefused t b }
  | freeRefused {t b : ℕ} (hm : s.menu = .freeRefused t b) :
    Move s (.menu .done) { s with ops := s.ops ++ [Op.release b], menu := .sendNull t }
  | sendNull {t : ℕ} (hm : s.menu = .sendNull t) :
    Move s (.menu .done) { s.post s.callbackQueue .null with menu := .join t none }
  | receive {t : ℕ} (ht : s.thread t = .receive) :
    Move s (.callback t .done) (s.goOn t (.receiving s.callbackQueue))
  | received {t q : ℕ} {m : ℕ × Message} (ht : s.thread t = .receiving (some q))
    (hmem : m ∈ s.messages) :
    Move s (.callback t .done) ({ s with messages := s.messages.erase m }.goOn t m.2.received)
  | receiveFailed {t : ℕ} {queue : Option ℕ} (ht : s.thread t = .receiving queue) :
    Move s (.callback t .failed) (s.goOn t .ended)
  | readResult {t b : ℕ} (ht : s.thread t = .readResult b) :
    Move s (.callback t .done)
      ({ s with asyncResult := (s.heap b).result, ops := s.ops ++ [Op.use b] }.goOn t
        (.clearPending b))
  | clearPending {t b : ℕ} (ht : s.thread t = .clearPending b) :
    Move s (.callback t .done) ({ s with asyncPending := false }.goOn t (.readIoBuf b))
  | readIoBuf {t b : ℕ} (ht : s.thread t = .readIoBuf b) :
    Move s (.callback t .done)
      ({ s with ops := s.ops ++ [Op.use b] }.goOn t (.free (s.heap b).ioBuf))
  | free {t b : ℕ} (ht : s.thread t = .free b) :
    Move s (.callback t .done) ({ s with ops := s.ops ++ [Op.release b] }.goOn t .ended)
  | access {r : Request} (hr : r ∈ s.requests) :
    Move s (.access r) { s with ops := s.ops ++ [Op.use r.ioBuf] }
  | reply {r : Request} {result : ℤ} (hr : r ∈ s.requests) :
    Move s (.reply r result) ({ s with
      requests := s.requests.erase r
      heap := Function.update s.heap r.ioBuf { s.heap r.ioBuf with result := result }
      ops := s.ops ++ [Op.use r.ioBuf]
      delivered := s.delivered ++ [(r.ioBuf, result)] }.post r.queue (.reply r.ioBuf))

/-- Every step of the menu thread is a `Move`. -/
lemma move_of_menuStep {s s' : State} {e : Event} (h : menuStep s s.menu e = some s') :
    Move s (.menu e) s' := by
  generalize hm : s.menu = pc at h
  have hgoes {pc' : MenuPc} (hpc : Goes s pc pc') : Move s (.menu e) { s with menu := pc' } :=
    .goes (hm ▸ hpc)
  unfold menuStep at h
  split at h
  · split_ifs at h
    obtain rfl := Option.some.inj h
    exact .createQueue hm
  · obtain rfl := Option.some.inj h
    exact .createQueueFailed hm
  · obtain rfl := Option.some.inj h
    exact .createThread hm
  · obtain rfl := Option.some.inj h
    exact hgoes .createThreadFailed
  · split_ifs at h with ht
    obtain rfl := Option.some.inj h
    exact .startThread hm ht
  · obtain rfl := Option.some.inj h
    exact hgoes (.startThreadFailed _)
  · obtain rfl := Option.some.inj h
    exact .destroyQueue (.inl hm)
  · obtain rfl := Option.some.inj h
    exact hgoes .abandonFailed
  · obtain rfl := Option.some.inj h
    exact .setResult hm
  · obtain rfl := Option.some.inj h
    exact .setPending hm
  · obtain rfl := Option.some.inj h
    exact .prepare hm
  · obtain rfl := Option.some.inj h
    exact .submit hm
  · obtain rfl := Option.some.inj h
    exact .refuse hm
  · obtain rfl := Option.some.inj h
    exact hgoes (.submitted _ _)
  · obtain rfl := Option.some.inj h
    exact .freeRefused hm
  · obtain rfl := Option.some.inj h
    exact .sendNull hm
  · obtain rfl := Option.some.inj h
    exact hgoes (.sendNullFailed _)
  · obtain rfl := Option.some.inj h
    split_ifs with hpending
    · exact hgoes (.pending _ _ hpending)
    · exact hgoes (.loopEnds _ _ (Bool.eq_false_iff.mpr hpending))
  · obtain rfl := Option.some.inj h
    exact hgoes (.poll _ _)
  · obtain rfl := Option.some.inj h
    exact hgoes (.report _ _)
  · obtain rfl := Option.some.inj h
    exact hgoes (.join _ _)
  · obtain rfl := Option.some.inj h
    exact .destroyQueue (.inr ⟨_, _, hm⟩)
  · obtain rfl := Option.some.inj h
    exact hgoes (.destroyFailed _ _)
  · cases h

/-- Every step of a callback thread is a `Move`. -/
lemma move_of_callbackThread {s s' : State} {t : ℕ} {e : Event}
    (h : callbackThread s t (s.thread t) e = some s') : Move s (.callback t e) s' := by
  generalize ht : s.thread t = pc at h
  unfold callbackThread at h
  split at h
  · obtain rfl := Option.some.inj h
    exact .receive ht
  · obtain ⟨m, hfind, rfl⟩ := Option.map_eq_some_iff.mp h
    exact .received ht (List.mem_of_find?_eq_some hfind)
  · obtain rfl := Option.some.inj h
    exact .receiveFailed ht
  · obtain rfl := Option.some.inj h
    exact .readResult ht
  · obtain rfl := Option.some.inj h
    exact .clearPending ht
  · obtain rfl := Option.some.inj h
    exact .readIoBuf ht
  · obtain rfl := Option.some.inj h
    exact .free ht
  · cases h

/-- Every step of the system is a `Move`. -/
lemma move_of_next {s s' : State} {a : Label} (h : next s a = some s') : Move s a s' := by
  cases a with
  | call =>
    obtain ⟨hm, hs'⟩ := Option.ite_none_right_eq_some.mp h
    obtain rfl := Option.some.inj hs'
    exact .call hm
  | menu e => exact move_of_menuStep h
  | callback t e => exact move_of_callbackThread h
  | access r =>
    obtain ⟨hr, hs'⟩ := Option.ite_none_right_eq_some.mp h
    obtain rfl := Option.some.inj hs'
    exact .access hr
  | reply r result =>
    obtain ⟨hr, hs'⟩ := Option.ite_none_right_eq_some.mp h
    obtain rfl := Option.some.inj hs'
    exact .reply hr

end Handshake

end InstallWUP

end RecoveryMenu

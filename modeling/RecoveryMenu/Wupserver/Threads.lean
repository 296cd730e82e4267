import Mathlib.Data.List.Basic
import RecoveryMenu.Foundations.TransitionSystem

set_option relaxedAutoImplicit false
set_option autoImplicit false

/-!
# The threads of wupserver (`ios_mcp/source/wupserver.c`)

The menu thread starts the server with `wupserver_init` and stops it with `wupserver_deinit`;
the server thread accepts clients and executes their commands, of which the kill command calls
`wupserver_deinit` on the server thread itself. All of them share `serverRunning`,
`serverSocket`, `threadId` and the one static `threadStack`.

The model is the transition system `threadSystem`: a step of a thread is one access to the
shared variables or one call, and its `Event` is the result of that call. Four calls of the
server thread may block: `accept`, `recv`, `send`, which waits for a client that does not read,
and the system call a client names in a command. A thread blocked in one of them stands inside
the call, and has a step for every result the call may have. `IOS_JoinThread` returns only once
its thread has ended. Thread ids are not used again; descriptors may be.

## Main definitions

* `RecoveryMenu.Wupserver.Threads.threadSystem`: the menu thread and the server threads.
* `RecoveryMenu.Wupserver.Threads.State.Live`: a thread was created and has not ended.

## Main results

* `RecoveryMenu.Wupserver.Threads.move_of_next`: what a step can do.
* `RecoveryMenu.Wupserver.Threads.server_step`, `RecoveryMenu.Wupserver.Threads.serverStep_spec`:
  what a step of a server thread can do.
* `RecoveryMenu.Wupserver.Threads.canReach_joining`: a thread that has begun to stop the server
  can go on until it waits in `IOS_JoinThread`.

## References

* `ios_mcp/source/wupserver.c`, lines 11-14 and 111-206.
* `ios_mcp/source/options/StartWupserver.c`, `option_StartWupserver`.
-/

namespace RecoveryMenu

namespace Wupserver

namespace Threads

open Interleaving

/-! ## Program counters -/

/-- Where a thread stands in `wupserver_deinit`. -/
inductive DeinitPc
  /-- At `if (serverRunning)`. -/
  | test
  /-- At `serverRunning = 0`. -/
  | clear
  /-- At `if (serverSocket >= 0)`. -/
  | checkSocket
  /-- At `shutdown(serverSocket, SHUT_RDWR)`. -/
  | shutdown
  /-- At the call of `IOS_JoinThread(threadId, NULL)`. -/
  | join
  /-- Inside `IOS_JoinThread`, `none` for a negative id. -/
  | joining (threadId : Option ℕ)
  deriving DecidableEq, Repr

/-- Where a server thread stands. -/
inductive ServerPc
  /-- Created and not started. -/
  | created
  /-- At `if (!serverRunning)` of `wupserver_thread`. -/
  | threadTest
  /-- At `serverSocket = socket(..)`. -/
  | socket
  | bind
  | listen
  /-- At `while (serverRunning)` of `serverListenClients`. -/
  | listenTest
  /-- At the call of `accept(serverSocket, ..)`. -/
  | accept
  /-- Inside `accept`. -/
  | accepting (sock : ℕ)
  /-- At `while (serverRunning)` of `serverClientHandler`. -/
  | clientTest (sock : ℕ)
  /-- Inside `recv(sock, ..)`. -/
  | recv (sock : ℕ)
  /-- In `serverCommandHandler`. -/
  | handle (sock : ℕ)
  /-- Blocked in the system call of an svc command. -/
  | svc (sock : ℕ)
  /-- In the `wupserver_deinit` of a kill command. -/
  | deinit (sock : ℕ) (pc : DeinitPc)
  /-- At the call of `send(sock, ..)`, or past it where the command has no answer. -/
  | send (sock : ℕ)
  /-- Inside `send(sock, ..)`. -/
  | sending (sock : ℕ)
  /-- At `closesocket(sock)`. -/
  | closeClient (sock : ℕ)
  /-- At `closesocket(serverSocket)`. -/
  | closeListener
  /-- At `serverSocket = -1`. -/
  | clearSocket
  /-- At `usleep`. -/
  | sleep
  /-- The thread has ended. -/
  | ended
  deriving DecidableEq, Repr

/-- Where the menu thread stands. -/
inductive MenuPc
  /-- Neither in `wupserver_init` nor in `wupserver_deinit`. -/
  | idle
  /-- At `if (!serverRunning)`. -/
  | initTest
  /-- At `serverSocket = -1`. -/
  | initSocket
  /-- At `threadId = IOS_CreateThread(..)`. -/
  | initCreate
  /-- At `IOS_StartThread(threadId)`. -/
  | initStart
  /-- At `serverRunning = 1`. -/
  | initSet
  | deinit (pc : DeinitPc)
  deriving DecidableEq, Repr

/-- The result of a step. -/
inductive Event
  | done
  /-- The call returns a negative value, `recv` returns `0`, or there is nothing to send. -/
  | failed
  /-- `socket` or `accept` returns a descriptor. -/
  | opened (sock : ℕ)
  /-- The command to execute is the kill command. -/
  | kill
  /-- The command to execute is an svc command whose system call blocks. -/
  | svc
  deriving DecidableEq, Repr

/-! ## The state -/

/-- The variables the threads share. Two of them only observe the run: `down` are the sockets
shut down or closed since `serverRunning` became `0`, and `started` is the thread that
`wupserver_init` started, if no `wupserver_deinit` has taken a step since. -/
structure Globals where
  serverRunning : Bool
  serverSocket : Option ℕ
  threadId : Option ℕ
  down : List ℕ
  started : Option ℕ
  deriving DecidableEq, Repr

/-- The shared variables, the server threads by their ids, and the menu thread. -/
structure State where
  globals : Globals
  threads : List ServerPc
  menu : MenuPc
  deriving DecidableEq, Repr

/-- Where server thread `t` stands; a thread that does not exist counts as ended. -/
def State.pc (s : State) (t : ℕ) : ServerPc := s.threads[t]?.getD .ended

/-- Thread `t` was created and has not ended. -/
def State.Live (s : State) (t : ℕ) : Prop := s.pc t ≠ .ended

instance (s : State) (t : ℕ) : Decidable (s.Live t) :=
  inferInstanceAs (Decidable (s.pc t ≠ .ended))

/-- A descriptor is in use again. -/
def Globals.reopen (g : Globals) (sock : ℕ) : Globals :=
  { g with down := g.down.filter (· ≠ sock) }

/-- `closesocket` or `shutdown` of a descriptor. -/
def Globals.takeDown (g : Globals) (sock : Option ℕ) : Globals :=
  { g with down := sock.toList ++ g.down }

/-! ## The steps -/

/-- One step of `wupserver_deinit`: the next position in it, or `none` when it returns. -/
def deinitStep (s : State) (pc : DeinitPc) : Option (Globals × Option DeinitPc) :=
  let g := { s.globals with started := none }
  match pc with
  | .test => some (g, if g.serverRunning then some .clear else none)
  | .clear =>
    some ({ g with
      serverRunning := false
      down := if g.serverRunning then [] else g.down }, some .checkSocket)
  | .checkSocket => some (g, some (if g.serverSocket.isSome then .shutdown else .join))
  | .shutdown => some (g.takeDown g.serverSocket, some .join)
  | .join => some (g, some (.joining g.threadId))
  | .joining t => if ∀ u ∈ t, ¬ s.Live u then some (g, none) else none

/-- One step of `wupserver_thread` and the functions it calls. -/
def serverStep (s : State) : ServerPc → Event → Option (Globals × ServerPc)
  | .threadTest, .done =>
    some (s.globals, if s.globals.serverRunning then .socket else .ended)
  | .socket, .opened n => some ({ s.globals.reopen n with serverSocket := some n }, .bind)
  | .socket, .failed => some ({ s.globals with serverSocket := none }, .bind)
  | .bind, .done => if s.globals.serverSocket.isSome then some (s.globals, .listen) else none
  | .bind, .failed => some (s.globals, .closeListener)
  | .listen, .done => some (s.globals, .listenTest)
  | .listen, .failed => some (s.globals, .closeListener)
  | .listenTest, .done =>
    some (s.globals, if s.globals.serverRunning then .accept else .closeListener)
  | .accept, .done =>
    some (s.globals, s.globals.serverSocket.elim .closeListener .accepting)
  | .accepting _, .opened c => some (s.globals.reopen c, .clientTest c)
  | .accepting _, .failed => some (s.globals, .closeListener)
  | .clientTest c, .done =>
    some (s.globals, if s.globals.serverRunning then .recv c else .closeClient c)
  | .recv c, .done => some (s.globals, .handle c)
  | .recv c, .failed => some (s.globals, .closeClient c)
  | .handle c, .done => some (s.globals, .send c)
  | .handle c, .kill => some (s.globals, .deinit c .test)
  | .handle c, .svc => some (s.globals, .svc c)
  | .svc c, .done => some (s.globals, .send c)
  | .deinit c pc, .done => (deinitStep s pc).map fun r => (r.1, r.2.elim (.send c) (.deinit c))
  | .send c, .done => some (s.globals, .sending c)
  | .send c, .failed => some (s.globals, .clientTest c)
  -- the result of `send` is not looked at
  | .sending c, .done => some (s.globals, .clientTest c)
  | .sending c, .failed => some (s.globals, .clientTest c)
  | .closeClient c, .done => some (s.globals.takeDown (some c), .listenTest)
  | .closeListener, .done => some (s.globals.takeDown s.globals.serverSocket, .clearSocket)
  | .clearSocket, .done => some ({ s.globals with serverSocket := none }, .sleep)
  | .sleep, .done => some (s.globals, .threadTest)
  | _, _ => none

/-- One step of the menu thread inside `wupserver_init` or `wupserver_deinit`. -/
def menuStep (s : State) : Event → Option State
  | .done =>
    match s.menu with
    | .idle => none
    | .initTest =>
      some { s with menu := if s.globals.serverRunning then .idle else .initSocket }
    | .initSocket =>
      some { s with globals := { s.globals with serverSocket := none }, menu := .initCreate }
    | .initCreate =>
      some { globals := { s.globals with threadId := some s.threads.length }
             threads := s.threads ++ [.created]
             menu := .initStart }
    | .initStart =>
      s.globals.threadId.map fun t =>
        { globals := { s.globals with started := some t }
          threads := s.threads.set t .threadTest
          menu := .initSet }
    | .initSet =>
      some { s with globals := { s.globals with serverRunning := true }, menu := .idle }
    | .deinit pc =>
      (deinitStep s pc).map fun r =>
        { s with globals := r.1, menu := r.2.elim .idle .deinit }
  | .failed =>
    if s.menu = .initCreate then
      some { s with globals := { s.globals with threadId := none }, menu := .idle }
    else none
  | _ => none

/-- The steps of the system. -/
inductive Label
  /-- The menu thread calls `wupserver_init`. -/
  | callInit
  /-- The menu thread calls `wupserver_deinit`. -/
  | callDeinit
  /-- The menu thread advances. -/
  | menu (e : Event)
  /-- Server thread `t` advances. -/
  | server (t : ℕ) (e : Event)
  deriving DecidableEq, Repr

/-- The state after a label, where it is enabled. -/
def next (s : State) : Label → Option State
  | .callInit => if s.menu = .idle then some { s with menu := .initTest } else none
  | .callDeinit => if s.menu = .idle then some { s with menu := .deinit .test } else none
  | .menu e => menuStep s e
  | .server t e =>
    (serverStep s (s.pc t) e).map fun r =>
      { s with globals := r.1, threads := s.threads.set t r.2 }

/-- The menu thread and the server threads, from the start of the program. -/
def threadSystem : System State Label where
  init s := s = ⟨⟨false, none, none, [], none⟩, [], .idle⟩
  next := next

/-! ## What a step can do -/

/-- Every step of `wupserver_deinit` forgets the started thread, leaves `threadId` and
`serverSocket` alone, and does not set `serverRunning`. -/
lemma deinitStep_spec {s : State} {pc : DeinitPc} {g : Globals} {r : Option DeinitPc}
    (h : deinitStep s pc = some (g, r)) :
    g.started = none ∧ g.threadId = s.globals.threadId ∧
      g.serverSocket = s.globals.serverSocket ∧
      (g.serverRunning = true → s.globals.serverRunning = true) := by
  cases pc with
  | joining t =>
    simp only [deinitStep] at h
    split_ifs at h
    simp only [Option.some.injEq, Prod.mk.injEq] at h
    obtain ⟨rfl, -⟩ := h
    exact ⟨rfl, rfl, rfl, id⟩
  | clear =>
    simp only [deinitStep, Option.some.injEq, Prod.mk.injEq] at h
    obtain ⟨rfl, -⟩ := h
    exact ⟨rfl, rfl, rfl, fun h => absurd h (by simp)⟩
  | _ =>
    simp only [deinitStep, Option.some.injEq, Prod.mk.injEq] at h
    obtain ⟨rfl, -⟩ := h
    exact ⟨rfl, rfl, rfl, id⟩

/-- The test of `wupserver_deinit` while the server is running. -/
lemma deinitStep_test {s : State} (h : s.globals.serverRunning = true) :
    deinitStep s .test = some ({ s.globals with started := none }, some .clear) := by
  simp [deinitStep, h]

/-- In `wupserver_deinit`, past its test of `serverRunning`. -/
def ServerPc.Stopping : ServerPc → Prop
  | .deinit _ pc => pc ≠ .test
  | _ => False

/-- What a step of a server thread from `pc` to `pc'` can do. -/
structure ServerSpec (s : State) (pc : ServerPc) (g : Globals) (pc' : ServerPc) : Prop where
  threadId : g.threadId = s.globals.threadId
  live : pc ≠ .ended
  ended : pc' = .ended → pc = .threadTest ∧ s.globals.serverRunning = false
  started : g.started = s.globals.started ∧ g.serverRunning = s.globals.serverRunning ∨
    g.started = none
  stopping : pc'.Stopping →
    pc.Stopping ∨ (∃ c, pc = .deinit c .test) ∧ s.globals.serverRunning = true
  serverRunning : ¬ pc.Stopping → g.serverRunning = s.globals.serverRunning
  notSet : g.serverRunning = true → s.globals.serverRunning = true

/-- A step that keeps `threadId`, `started` and `serverRunning`, and neither ends the thread nor
enters `wupserver_deinit`. -/
lemma ServerSpec.of_keeps {s : State} {pc pc' : ServerPc} {g : Globals} (hpc : pc ≠ .ended)
    (hthread : g.threadId = s.globals.threadId) (hstarted : g.started = s.globals.started)
    (hrun : g.serverRunning = s.globals.serverRunning) (hpc' : pc' ≠ .ended)
    (hstop : ¬ pc'.Stopping) : ServerSpec s pc g pc' where
  threadId := hthread
  live := hpc
  ended h := absurd h hpc'
  started := .inl ⟨hstarted, hrun⟩
  stopping h := absurd h hstop
  serverRunning _ := hrun
  notSet h := hrun ▸ h

/-- A step of a kill command's `wupserver_deinit` keeps to `ServerSpec`. -/
lemma serverSpec_deinit {s : State} {c : ℕ} {pc : DeinitPc} {g : Globals} {r : Option DeinitPc}
    (h : deinitStep s pc = some (g, r)) :
    ServerSpec s (.deinit c pc) g (r.elim (.send c) (.deinit c)) := by
  obtain ⟨hstarted, hthread, -, hset⟩ := deinitStep_spec h
  refine ⟨hthread, by simp, by cases r <;> simp, .inr hstarted, fun hstop => ?_, fun hstop => ?_,
    hset⟩
  · by_cases hpc : pc = .test
    · subst hpc
      simp only [deinitStep, Option.some.injEq, Prod.mk.injEq] at h
      obtain ⟨-, rfl⟩ := h
      split_ifs at hstop with hrun
      · exact .inr ⟨⟨c, rfl⟩, hrun⟩
      · exact absurd hstop (by simp [ServerPc.Stopping])
    · exact .inl hpc
  · have hpc : pc = .test := not_not.mp hstop
    subst hpc
    simp only [deinitStep, Option.some.injEq, Prod.mk.injEq] at h
    obtain ⟨rfl, -⟩ := h
    rfl

/-- Every step of a server thread keeps to `ServerSpec`.

**Proof sketch.** By cases on the position and the event: only `threadTest` can end the thread,
and only `wupserver_deinit` touches `serverRunning` and `started`. -/
lemma serverStep_spec {s : State} {pc : ServerPc} {e : Event} {g : Globals} {pc' : ServerPc}
    (h : serverStep s pc e = some (g, pc')) : ServerSpec s pc g pc' := by
  cases pc with
  | threadTest =>
    cases e <;> simp only [serverStep, reduceCtorEq, Option.some.injEq, Prod.mk.injEq] at h
    obtain ⟨rfl, rfl⟩ := h
    refine ⟨rfl, by simp, fun hend => ⟨rfl, ?_⟩, .inl ⟨rfl, rfl⟩, fun hstop => ?_, fun _ => rfl,
      id⟩
    · by_contra hrun
      simp [Bool.not_eq_false _ ▸ hrun] at hend
    · split_ifs at hstop <;> exact absurd hstop (by simp [ServerPc.Stopping])
  | deinit c pc =>
    cases e <;> simp only [serverStep, reduceCtorEq, Option.map_eq_some_iff] at h
    obtain ⟨⟨g₀, r⟩, hstep, heq⟩ := h
    simp only [Prod.mk.injEq] at heq
    obtain ⟨rfl, rfl⟩ := heq
    exact serverSpec_deinit hstep
  | accept =>
    cases e <;> simp only [serverStep, reduceCtorEq, Option.some.injEq, Prod.mk.injEq] at h
    obtain ⟨rfl, rfl⟩ := h
    cases s.globals.serverSocket <;>
      exact .of_keeps (by simp) rfl rfl rfl (by simp) (by simp [ServerPc.Stopping])
  | bind =>
    cases e <;> simp only [serverStep, reduceCtorEq, Option.ite_none_right_eq_some,
      Option.some.injEq, Prod.mk.injEq] at h
    · obtain ⟨-, rfl, rfl⟩ := h
      exact .of_keeps (by simp) rfl rfl rfl (by simp) (by simp [ServerPc.Stopping])
    · obtain ⟨rfl, rfl⟩ := h
      exact .of_keeps (by simp) rfl rfl rfl (by simp) (by simp [ServerPc.Stopping])
  | listenTest | clientTest =>
    cases e <;> simp only [serverStep, reduceCtorEq, Option.some.injEq, Prod.mk.injEq] at h
    obtain ⟨rfl, rfl⟩ := h
    split_ifs <;> exact .of_keeps (by simp) rfl rfl rfl (by simp) (by simp [ServerPc.Stopping])
  | _ =>
    cases e <;> simp only [serverStep, reduceCtorEq, Option.some.injEq, Prod.mk.injEq] at h
    all_goals
      obtain ⟨rfl, rfl⟩ := h
      exact .of_keeps (by simp) rfl rfl rfl (by simp) (by simp [ServerPc.Stopping])

/-- The positions depend on the threads only. -/
lemma pc_of_threads_eq {s s' : State} (h : s'.threads = s.threads) (t : ℕ) :
    s'.pc t = s.pc t := by
  rw [State.pc, State.pc, h]

/-- The position of a thread after thread `t` was put elsewhere. -/
lemma pc_set_cases (s : State) (t : ℕ) (g : Globals) (pc : ServerPc) (m : MenuPc) (u : ℕ) :
    u = t ∧ State.pc ⟨g, s.threads.set t pc, m⟩ u = pc ∨
      State.pc ⟨g, s.threads.set t pc, m⟩ u = s.pc u := by
  by_cases hu : u = t
  · subst hu
    by_cases hlt : u < s.threads.length
    · exact .inl ⟨rfl, by simp [State.pc, hlt]⟩
    · exact .inr (by simp [State.pc, hlt])
  · exact .inr (by simp only [State.pc, List.getElem?_set_ne (Ne.symm hu)])

/-- The positions after a thread was created. -/
lemma pc_created (s : State) (g : Globals) (m : MenuPc) (u : ℕ) :
    State.pc ⟨g, s.threads ++ [.created], m⟩ u =
      if u = s.threads.length then .created else s.pc u := by
  rcases Nat.lt_trichotomy u s.threads.length with hlt | rfl | hgt
  · simp only [State.pc, List.getElem?_append_left hlt, if_neg (Nat.ne_of_lt hlt)]
  · simp [State.pc]
  · have hnew : s.threads.length + 1 ≤ u := hgt
    rw [if_neg (Nat.ne_of_gt hgt), State.pc, State.pc, List.getElem?_eq_none (by simpa using hnew),
      List.getElem?_eq_none (by omega)]

/-- The position of a thread after another one, or itself, moved. -/
lemma pc_setThread {s : State} {t : ℕ} (ht : s.Live t) (g : Globals) (pc : ServerPc)
    (m : MenuPc) (u : ℕ) :
    State.pc ⟨g, s.threads.set t pc, m⟩ u = if u = t then pc else s.pc u := by
  have hlt : t < s.threads.length := by
    by_contra h
    exact ht (by rw [State.pc, List.getElem?_eq_none (by omega), Option.getD_none])
  by_cases hu : u = t
  · subst hu
    simp [State.pc, hlt]
  · simp only [State.pc, if_neg hu, List.getElem?_set_ne (Ne.symm hu)]

/-- What a step of server thread `t` can do: it changes its own position and the shared
variables, as `ServerSpec` says. -/
lemma server_step {s s' : State} {t : ℕ} {e : Event} (h : next s (.server t e) = some s') :
    ∃ g pc', serverStep s (s.pc t) e = some (g, pc') ∧ ServerSpec s (s.pc t) g pc' ∧
      s'.globals = g ∧ s'.menu = s.menu ∧ s'.threads.length = s.threads.length ∧
      ∀ u, s'.pc u = if u = t then pc' else s.pc u := by
  simp only [next, Option.map_eq_some_iff] at h
  obtain ⟨⟨g, pc'⟩, hstep, rfl⟩ := h
  have hspec := serverStep_spec hstep
  exact ⟨g, pc', hstep, hspec, rfl, rfl, List.length_set, pc_setThread hspec.live g pc' s.menu⟩

/-- What a step of the system can do: those of the menu thread are listed one by one. -/
inductive Move (s : State) : Label → State → Prop
  | callInit (hm : s.menu = .idle) : Move s .callInit { s with menu := .initTest }
  | callDeinit (hm : s.menu = .idle) : Move s .callDeinit { s with menu := .deinit .test }
  /-- `wupserver_init` finds the server running and returns. -/
  | initRunning (hm : s.menu = .initTest) (hrun : s.globals.serverRunning = true) :
    Move s (.menu .done) { s with menu := .idle }
  | initTest (hm : s.menu = .initTest) (hrun : s.globals.serverRunning = false) :
    Move s (.menu .done) { s with menu := .initSocket }
  | initSocket (hm : s.menu = .initSocket) :
    Move s (.menu .done)
      { s with globals := { s.globals with serverSocket := none }, menu := .initCreate }
  | initCreate (hm : s.menu = .initCreate) :
    Move s (.menu .done)
      { globals := { s.globals with threadId := some s.threads.length }
        threads := s.threads ++ [.created]
        menu := .initStart }
  /-- `IOS_CreateThread` fails and `wupserver_init` returns. -/
  | createFailed (hm : s.menu = .initCreate) :
    Move s (.menu .failed)
      { s with globals := { s.globals with threadId := none }, menu := .idle }
  | initStart {t : ℕ} (hm : s.menu = .initStart) (hid : s.globals.threadId = some t) :
    Move s (.menu .done)
      { globals := { s.globals with started := some t }
        threads := s.threads.set t .threadTest
        menu := .initSet }
  | initSet (hm : s.menu = .initSet) :
    Move s (.menu .done)
      { s with globals := { s.globals with serverRunning := true }, menu := .idle }
  | deinit {pc : DeinitPc} {g : Globals} {r : Option DeinitPc} (hm : s.menu = .deinit pc)
    (hdeinit : deinitStep s pc = some (g, r)) :
    Move s (.menu .done) { s with globals := g, menu := r.elim .idle .deinit }
  | server {t : ℕ} {e : Event} {g : Globals} {pc : ServerPc}
    (hserver : serverStep s (s.pc t) e = some (g, pc)) :
    Move s (.server t e) { s with globals := g, threads := s.threads.set t pc }

/-- Every step of the system is a `Move`. -/
lemma move_of_next {s s' : State} {a : Label} (h : next s a = some s') : Move s a s' := by
  cases a with
  | callInit | callDeinit =>
    simp only [next, Option.ite_none_right_eq_some, Option.some.injEq] at h
    obtain ⟨hm, rfl⟩ := h
    constructor
    exact hm
  | server t e =>
    simp only [next, Option.map_eq_some_iff] at h
    obtain ⟨⟨g, pc⟩, hserver, rfl⟩ := h
    exact .server hserver
  | menu e =>
    cases e with
    | done =>
      simp only [next, menuStep] at h
      split at h
      · cases h
      · next hm =>
        split_ifs at h with hrun <;> obtain rfl := Option.some.inj h
        · exact .initRunning hm hrun
        · exact .initTest hm (Bool.eq_false_iff.mpr hrun)
      · next hm =>
        obtain rfl := Option.some.inj h
        exact .initSocket hm
      · next hm =>
        obtain rfl := Option.some.inj h
        exact .initCreate hm
      · next hm =>
        obtain ⟨t, hid, rfl⟩ := Option.map_eq_some_iff.mp h
        exact .initStart hm hid
      · next hm =>
        obtain rfl := Option.some.inj h
        exact .initSet hm
      · next pc hm =>
        obtain ⟨⟨g, r⟩, hdeinit, rfl⟩ := Option.map_eq_some_iff.mp h
        exact .deinit hm hdeinit
    | failed =>
      simp only [next, menuStep, Option.ite_none_right_eq_some, Option.some.injEq] at h
      obtain ⟨hm, rfl⟩ := h
      exact .createFailed hm
    | opened n => simp [next, menuStep] at h
    | kill => simp [next, menuStep] at h
    | svc => simp [next, menuStep] at h

/-! ## What a run can do -/

/-- In `wupserver_init`, between its test of `serverRunning` and `serverRunning = 1`. -/
def MenuPc.Starting : MenuPc → Prop
  | .initSocket | .initCreate | .initStart | .initSet => True
  | _ => False

/-- While `wupserver_init` is starting a thread, `serverRunning` is cleared: no other thread
sets it. -/
lemma serverRunning_of_starting {G : State → Label → Prop} {s : State}
    (h : threadSystem.ReachableVia G s) (hm : s.menu.Starting) :
    s.globals.serverRunning = false := by
  refine h.invariant (I := fun s => s.menu.Starting → s.globals.serverRunning = false) ?_ ?_ hm
  · rintro s rfl hm
    exact hm.elim
  · intro s a s' hs _ hstep hm'
    cases move_of_next hstep with
    | initTest hm hrun => exact hrun
    | initSocket hm | initCreate hm | initStart hm => exact hs (by rw [hm]; trivial)
    | @deinit pc g r hm hdeinit => cases r <;> exact hm'.elim
    | server =>
      obtain ⟨g, pc', -, hspec, rfl, hmenu, -, -⟩ := server_step hstep
      rw [hmenu] at hm'
      refine Bool.eq_false_iff.mpr fun hset => ?_
      have hrun := hspec.notSet hset
      rw [hs hm'] at hrun
      cases hrun
    | _ => exact hm'.elim

/-- A thread at `serverRunning = 0` of `wupserver_deinit` can go on until it waits for the
thread named by `threadId`. Here `P` says that the thread stands at a position of
`wupserver_deinit`, and `a` is its label. -/
lemma canReach_joining {a : Label} {P : State → DeinitPc → Prop}
    (hstep : ∀ s pc g pc', P s pc → deinitStep s pc = some (g, some pc') →
      ∃ s', next s a = some s' ∧ P s' pc' ∧ s'.globals = g) {s : State} (h : P s .clear) :
    ∃ u, threadSystem.CanReach s u ∧ P u (.joining s.globals.threadId) ∧
      u.globals.threadId = s.globals.threadId := by
  have hjoin (v : State) (hat : P v .join) (hid : v.globals.threadId = s.globals.threadId) :
      ∃ u, threadSystem.CanReach v u ∧ P u (.joining s.globals.threadId) ∧
        u.globals.threadId = s.globals.threadId := by
    obtain ⟨u, hnext, hat', hg⟩ := hstep v _ _ _ hat rfl
    refine ⟨u, .head hnext (.refl u), hid ▸ hat', ?_⟩
    rw [hg]
    exact hid
  obtain ⟨s₁, h₁, hat₁, hg₁⟩ := hstep s _ _ _ h rfl
  obtain ⟨s₂, h₂, hat₂, hg₂⟩ := hstep s₁ _ _ _ hat₁ rfl
  have hid₂ : s₂.globals.threadId = s.globals.threadId := by rw [hg₂, hg₁]
  by_cases hsock : s₁.globals.serverSocket.isSome
  · rw [if_pos hsock] at hat₂
    obtain ⟨s₃, h₃, hat₃, hg₃⟩ := hstep s₂ _ _ _ hat₂ rfl
    obtain ⟨u, hu, hjoining⟩ := hjoin s₃ hat₃ (by rw [hg₃]; exact hid₂)
    exact ⟨u, .head h₁ (.head h₂ (.head h₃ hu)), hjoining⟩
  · rw [if_neg hsock] at hat₂
    obtain ⟨u, hu, hjoining⟩ := hjoin s₂ hat₂ hid₂
    exact ⟨u, .head h₁ (.head h₂ hu), hjoining⟩

end Threads

end Wupserver

end RecoveryMenu

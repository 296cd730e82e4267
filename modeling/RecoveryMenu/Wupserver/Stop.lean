import RecoveryMenu.Wupserver.SingleServer

set_option relaxedAutoImplicit false
set_option autoImplicit false

/-!
# Stopping the server (`ios_mcp/source/wupserver.c`)

`wupserver_deinit` clears `serverRunning`, shuts down `serverSocket` and waits for the server
thread. A server thread waiting in `accept` returns, since its socket was shut down, and then
sees the flag. A server thread waiting in `recv` or `send` does not: nothing shuts down the
socket of the client, and the menu thread waits as long as the client neither sends nor reads.
The answer to a command is sent without a look at the flag, so the server thread may get into
`send` while the menu thread is waiting already. The same goes for the system call of an svc
command.

## Main definitions

* `RecoveryMenu.Wupserver.Threads.StopCanFinish`: while the menu thread waits for the server
  thread, a blocked server thread is blocked on a socket that was taken down.
* `RecoveryMenu.Wupserver.Threads.ServerPc.HeldUp`: a thread is waiting for its client.
* `RecoveryMenu.Wupserver.Threads.NoneHeldUp`: no server thread is held up when the menu thread
  begins to wait, and none goes into such a call later.

## Main results

* `RecoveryMenu.Wupserver.Threads.stopCanFinish_of_stopKept`: `StopCanFinish` holds in the
  runs with `NoneHeldUp` and `NoKill`, and after any other step it can fail.
* `RecoveryMenu.Wupserver.Threads.not_stopCanFinish`: a client that connects and stays silent.

## References

* `ios_mcp/source/wupserver.c`, lines 111-166 and 195-206.
* `ios_mcp/source/socket.c`, `send` and `recv`.
-/

namespace RecoveryMenu

namespace Wupserver

namespace Threads

open Interleaving

/-! ## The property -/

/-- A thread that is blocked is in `accept` or `recv`, on one of the given sockets. -/
def ServerPc.BlockedOnlyOn (socks : List ℕ) : ServerPc → Prop
  | .accepting sock | .recv sock => sock ∈ socks
  | .svc _ | .sending _ | .deinit _ (.joining _) => False
  | _ => True

/-- While the menu thread waits in `IOS_JoinThread` for a server thread, every blocked server
thread is in `accept` or `recv` on a socket that was shut down or closed since `serverRunning`
became `0`. -/
def StopCanFinish (s : State) : Prop :=
  ∀ u, s.menu = .deinit (.joining (some u)) → s.Live u →
    ∀ t, (s.pc t).BlockedOnlyOn s.globals.down

/-- A thread is held up: in `recv` on none of the given sockets, in `send`, or in the system call
of a command. -/
def ServerPc.HeldUp (socks : List ℕ) : ServerPc → Prop
  | .recv sock => sock ∉ socks
  | .svc _ | .sending _ => True
  | _ => False

instance (socks : List ℕ) : ∀ pc : ServerPc, Decidable (pc.HeldUp socks)
  | .recv sock => inferInstanceAs (Decidable (sock ∉ socks))
  | .svc _ | .sending _ => .isTrue trivial
  | .created | .threadTest | .socket | .bind | .listen | .listenTest | .accept | .accepting _
  | .clientTest _ | .handle _ | .deinit _ _ | .send _ | .closeClient _ | .closeListener
  | .clearSocket | .sleep | .ended => .isFalse id

/-- A thread that is held up has not ended. -/
lemma ServerPc.HeldUp.live {s : State} {t : ℕ} {socks : List ℕ} (h : (s.pc t).HeldUp socks) :
    s.Live t := by
  intro hend
  rw [hend] at h
  exact h

/-- The step goes into `send`, or into a system call that blocks. -/
def ServerPc.goesIn : ServerPc → Event → Bool
  | .send _, .done | .handle _, .svc => true
  | _, _ => false

/-- Inside `IOS_JoinThread`. -/
def MenuPc.inJoin : MenuPc → Bool
  | .deinit (.joining _) => true
  | _ => false

/-- The position at which `inJoin` holds. -/
lemma MenuPc.exists_of_inJoin {m : MenuPc} (h : m.inJoin) : ∃ j, m = .deinit (.joining j) := by
  unfold MenuPc.inJoin at h
  split at h
  · exact ⟨_, rfl⟩
  · cases h

/-- Where the menu thread calls `IOS_JoinThread`, no server thread is held up. While it waits
there, no server thread goes into `send` or into a system call that blocks. -/
def NoneHeldUp (s : State) : Label → Prop
  | .menu _ => s.menu = .deinit .join → ∀ pc ∈ s.threads, ¬ pc.HeldUp s.globals.down
  | .server t e => s.menu.inJoin → (s.pc t).goesIn e = false
  | _ => True

/-- The steps that do not leave the menu thread waiting for a client. -/
def StopKept (s : State) (a : Label) : Prop := NoKill s a ∧ NoneHeldUp s a

instance (s : State) : ∀ a, Decidable (StopKept s a)
  | .menu _ => inferInstanceAs (Decidable (True ∧ (s.menu = .deinit .join →
      ∀ pc ∈ s.threads, ¬ pc.HeldUp s.globals.down)))
  | .server t e => inferInstanceAs (Decidable
      (((s.pc t).atKill → s.globals.serverRunning = false) ∧
        (s.menu.inJoin → (s.pc t).goesIn e = false)))
  | .callInit | .callDeinit => .isTrue ⟨trivial, trivial⟩

/-! ## The server thread while it is being stopped -/

/-- In `wupserver_deinit` after `serverRunning = 0`. -/
def DeinitPc.Cleared : DeinitPc → Prop
  | .test | .clear => False
  | _ => True

/-- In `wupserver_deinit` after the shutdown of `serverSocket`. -/
def DeinitPc.ShutDone : DeinitPc → Prop
  | .join | .joining _ => True
  | _ => False

/-- The flag is cleared before the socket is shut down. -/
lemma DeinitPc.ShutDone.cleared {pc : DeinitPc} (h : pc.ShutDone) : pc.Cleared := by
  cases pc <;> first | exact h | trivial

/-- At or in `accept`. -/
def ServerPc.Accepting : ServerPc → Prop
  | .accept | .accepting _ => True
  | _ => False

/-- What holds in a run with `StopKept` steps: once the menu thread has cleared the flag it
stays cleared; a thread in `accept` waits on `serverSocket`, which is taken down before the
menu thread waits; and a thread that is held up is not being waited for. -/
structure StopInv (s : State) : Prop where
  one : OneServerInv s
  cleared : ∀ pc, s.menu = .deinit pc → pc.Cleared → s.globals.serverRunning = false
  listener : ∀ t n, s.pc t = .accepting n → s.globals.serverSocket = some n
  shutDown : ∀ pc, s.menu = .deinit pc → pc.ShutDone → ∀ t, (s.pc t).Accepting →
    ∀ n, s.globals.serverSocket = some n → n ∈ s.globals.down
  noneHeldUp : ∀ j, s.menu = .deinit (.joining j) → ∀ t, ¬ (s.pc t).HeldUp s.globals.down

/-- The invariant gives the property. -/
lemma StopInv.stopCanFinish {s : State} (hs : StopInv s) : StopCanFinish s := by
  intro u hm _ t
  have hheld := hs.noneHeldUp _ hm t
  cases hpc : s.pc t with
  | accepting n =>
    exact hs.shutDown _ hm trivial t (by simp [hpc, ServerPc.Accepting]) n (hs.listener t n hpc)
  | recv sock =>
    rw [hpc, ServerPc.HeldUp, not_not] at hheld
    exact hheld
  | svc sock | sending sock =>
    rw [hpc] at hheld
    exact hheld trivial
  | deinit c pc =>
    have hstop := hs.one.stopping t
    rw [hpc, ServerPc.Stopping, not_not] at hstop
    rw [hstop]
    trivial
  | _ => trivial

/-- How a step of a server thread gets to `accept` or `recv`: only past a test of
`serverRunning`. It is held up elsewhere only where it goes in. -/
structure BlockSpec (s : State) (pc : ServerPc) (e : Event) (g : Globals) (pc' : ServerPc) :
    Prop where
  accept : pc' = .accept → s.globals.serverRunning = true
  accepting : ∀ n, pc' = .accepting n →
    pc = .accept ∧ s.globals.serverSocket = some n ∧ g = s.globals
  heldUp : ∀ socks, pc'.HeldUp socks → s.globals.serverRunning = true ∨ pc.goesIn e = true

/-- A step that does not get to `accept`, and to another blocking call only where it goes in. -/
lemma BlockSpec.of_not_accepting {s : State} {pc pc' : ServerPc} {e : Event} {g : Globals}
    (haccept : ¬ pc'.Accepting) (hheld : ∀ socks, pc'.HeldUp socks → pc.goesIn e = true) :
    BlockSpec s pc e g pc' where
  accept h := absurd (by rw [h]; trivial) haccept
  accepting n h := absurd (by rw [h]; trivial) haccept
  heldUp socks h := .inr (hheld socks h)

/-- Every step of a server thread keeps to `BlockSpec`.

**Proof sketch.** By cases on the position and the event. -/
lemma serverStep_blockSpec {s : State} {pc : ServerPc} {e : Event} {g : Globals}
    {pc' : ServerPc} (h : serverStep s pc e = some (g, pc')) : BlockSpec s pc e g pc' := by
  cases pc with
  | threadTest =>
    cases e <;> simp only [serverStep, reduceCtorEq, Option.some.injEq, Prod.mk.injEq] at h
    obtain ⟨rfl, rfl⟩ := h
    split_ifs <;> exact .of_not_accepting id fun _ => False.elim
  | deinit c pc =>
    cases e <;> simp only [serverStep, reduceCtorEq, Option.map_eq_some_iff] at h
    obtain ⟨⟨g₀, r⟩, -, heq⟩ := h
    simp only [Prod.mk.injEq] at heq
    obtain ⟨-, rfl⟩ := heq
    cases r <;> exact .of_not_accepting id fun _ => False.elim
  | accept =>
    cases e <;> simp only [serverStep, reduceCtorEq, Option.some.injEq, Prod.mk.injEq] at h
    obtain ⟨rfl, rfl⟩ := h
    cases hsock : s.globals.serverSocket with
    | none => exact .of_not_accepting id fun _ => False.elim
    | some n =>
      refine ⟨by simp, fun m hm => ?_, fun _ => False.elim⟩
      simp only [Option.elim_some, ServerPc.accepting.injEq] at hm
      exact ⟨rfl, hm ▸ hsock, rfl⟩
  | bind =>
    cases e <;> simp only [serverStep, reduceCtorEq, Option.ite_none_right_eq_some,
      Option.some.injEq, Prod.mk.injEq] at h
    · obtain ⟨-, rfl, rfl⟩ := h
      exact .of_not_accepting id fun _ => False.elim
    · obtain ⟨rfl, rfl⟩ := h
      exact .of_not_accepting id fun _ => False.elim
  | listenTest =>
    cases e <;> simp only [serverStep, reduceCtorEq, Option.some.injEq, Prod.mk.injEq] at h
    obtain ⟨rfl, rfl⟩ := h
    split_ifs with hrun
    · exact ⟨fun _ => hrun, by simp, fun _ => False.elim⟩
    · exact .of_not_accepting id fun _ => False.elim
  | clientTest sock =>
    cases e <;> simp only [serverStep, reduceCtorEq, Option.some.injEq, Prod.mk.injEq] at h
    obtain ⟨rfl, rfl⟩ := h
    split_ifs with hrun
    · exact ⟨by simp, by simp, fun _ _ => .inl hrun⟩
    · exact .of_not_accepting id fun _ => False.elim
  | handle c | send c =>
    cases e <;> simp only [serverStep, reduceCtorEq, Option.some.injEq, Prod.mk.injEq] at h
    all_goals
      obtain ⟨rfl, rfl⟩ := h
      first
        | exact .of_not_accepting id fun _ => False.elim
        | exact .of_not_accepting id fun _ _ => rfl
  | _ =>
    cases e <;> simp only [serverStep, reduceCtorEq, Option.some.injEq, Prod.mk.injEq] at h
    all_goals
      obtain ⟨rfl, rfl⟩ := h
      exact .of_not_accepting id fun _ => False.elim

/-- A step of a server thread preserves the invariant.

**Proof sketch.** The thread that moves is the only one that has not ended. It gets to `accept`
or `recv` only while `serverRunning` is set, hence before the menu thread clears it; inside
`accept` it holds the socket it was called with. By the guard it does not go into `send` or a
system call while the menu thread waits. -/
lemma StopInv.server {s s' : State} {t : ℕ} {e : Event} (hs : StopInv s)
    (hkept : StopKept s (.server t e)) (h : next s (.server t e) = some s') : StopInv s' := by
  obtain ⟨hkill, hgoes⟩ := hkept
  have hone := hs.one.server hkill h
  obtain ⟨g, pc', hstep, hspec, rfl, hmenu, -, hpc⟩ := server_step h
  have hblock := serverStep_blockSpec hstep
  have hrun := hspec.serverRunning (hs.one.stopping t)
  have hself {u : ℕ} (hu : s'.Live u) : u = t := by
    by_contra hut
    rw [State.Live, hpc, if_neg hut] at hu
    exact hut (hs.one.oneServer.unique u t hu hspec.live)
  have hmoved {u : ℕ} (hu : s'.Live u) : s'.pc u = pc' := by rw [hpc, if_pos (hself hu)]
  refine ⟨hone, fun pc hm hcleared => ?_, fun u n hu => ?_, fun pc hm hdone u hu n hn => ?_,
    fun j hm u hu => ?_⟩
  · rw [hrun]
    exact hs.cleared pc (hmenu ▸ hm) hcleared
  · have := hmoved (u := u) (by simp [State.Live, hu])
    obtain ⟨-, hsock, hg⟩ := hblock.accepting n (this.symm.trans hu)
    rw [hg, hsock]
  · have hlive : s'.Live u := by
      intro hend
      rw [hend] at hu
      exact hu
    rw [hmoved hlive] at hu
    have hfalse := hs.cleared pc (hmenu ▸ hm) hdone.cleared
    cases hpc' : pc' with
    | accept =>
      rw [hblock.accept hpc'] at hfalse
      cases hfalse
    | accepting m =>
      obtain ⟨hat, -, hg⟩ := hblock.accepting m hpc'
      rw [hg] at hn ⊢
      exact hs.shutDown pc (hmenu ▸ hm) hdone t (by rw [hat]; trivial) n hn
    | _ =>
      rw [hpc'] at hu
      exact hu.elim
  · rw [hmoved hu.live] at hu
    have hjoin : s.menu = .deinit (.joining j) := hmenu ▸ hm
    rcases hblock.heldUp _ hu with hset | hin
    · rw [hs.cleared _ hjoin trivial] at hset
      cases hset
    · rw [hgoes (by rw [hjoin]; rfl)] at hin
      cases hin

/-- A step of the menu thread outside `wupserver_deinit` that keeps what the server threads
see. -/
lemma StopInv.of_init {s s' : State} (hs : StopInv s) (hone : OneServerInv s')
    (hmenu : ∀ pc, s'.menu = .deinit pc → pc = .test)
    (hlistener : ∀ t n, s'.pc t = .accepting n →
      s.pc t = .accepting n ∧ s'.globals.serverSocket = s.globals.serverSocket) : StopInv s' where
  one := hone
  cleared pc hm hcleared := by rw [hmenu pc hm] at hcleared; exact hcleared.elim
  listener t n ht := (hlistener t n ht).2.trans (hs.listener t n (hlistener t n ht).1)
  shutDown pc hm hdone := by rw [hmenu pc hm] at hdone; exact hdone.elim
  noneHeldUp j hm := by cases hmenu _ hm

/-- A step of the menu thread inside `wupserver_deinit` preserves the invariant.

**Proof sketch.** Clearing the flag and taking down the socket establish `cleared` and
`shutDown`; the call of `IOS_JoinThread` establishes `noneHeldUp` by the guard. -/
lemma StopInv.menu_deinit {s : State} {pc : DeinitPc} {g : Globals} {r : Option DeinitPc}
    (hs : StopInv s) (hpc : s.menu = .deinit pc)
    (hheld : pc = .join → ∀ t, ¬ (s.pc t).HeldUp s.globals.down)
    (h : deinitStep s pc = some (g, r)) :
    StopInv { s with globals := g, menu := r.elim .idle .deinit } := by
  have hone := hs.one.menu_deinit hpc h
  obtain ⟨-, -, hsock, -⟩ := deinitStep_spec h
  have hlistener (t n : ℕ) (ht : s.pc t = .accepting n) : g.serverSocket = some n :=
    hsock.trans (hs.listener t n ht)
  cases pc with
  | test =>
    simp only [deinitStep, Option.some.injEq, Prod.mk.injEq] at h
    obtain ⟨rfl, rfl⟩ := h
    by_cases hrun : s.globals.serverRunning
    · simp only [hrun, if_true, Option.elim_some] at hone ⊢
      refine ⟨hone, fun pc hm hc => ?_, hlistener, fun pc hm hd => ?_, fun j hm => by cases hm⟩
      · cases hm
        exact hc.elim
      · cases hm
        exact hd.elim
    · simp only [hrun] at hone ⊢
      exact ⟨hone, by simp, hlistener, by simp, by simp⟩
  | clear =>
    simp only [deinitStep, Option.some.injEq, Prod.mk.injEq] at h
    obtain ⟨rfl, rfl⟩ := h
    refine ⟨hone, fun _ _ _ => rfl, hlistener, fun pc hm hd => ?_, fun j hm => by cases hm⟩
    cases hm
    exact hd.elim
  | checkSocket =>
    have hfalse := hs.cleared _ hpc trivial
    simp only [deinitStep, Option.some.injEq, Prod.mk.injEq] at h
    obtain ⟨rfl, rfl⟩ := h
    refine ⟨hone, fun _ _ _ => hfalse, hlistener, fun pc hm hd t _ n hn => ?_, fun j hm => ?_⟩
    · have hsome : s.globals.serverSocket.isSome := by simp only at hn; simp [hn]
      rw [if_pos hsome] at hm
      cases hm
      exact hd.elim
    · split_ifs at hm <;> cases hm
  | shutdown =>
    have hfalse := hs.cleared _ hpc trivial
    simp only [deinitStep, Option.some.injEq, Prod.mk.injEq] at h
    obtain ⟨rfl, rfl⟩ := h
    refine ⟨hone, fun _ _ _ => hfalse, hlistener, fun pc hm hd t _ n hn => ?_,
      fun j hm => by cases hm⟩
    simp only [Globals.takeDown] at hn ⊢
    simp [hn]
  | join =>
    have hfalse := hs.cleared _ hpc trivial
    have hdown := hs.shutDown _ hpc trivial
    simp only [deinitStep, Option.some.injEq, Prod.mk.injEq] at h
    obtain ⟨rfl, rfl⟩ := h
    exact ⟨hone, fun _ _ _ => hfalse, hlistener, fun _ _ _ => hdown, fun _ _ => hheld rfl⟩
  | joining j =>
    simp only [deinitStep, Option.ite_none_right_eq_some, Option.some.injEq, Prod.mk.injEq] at h
    obtain ⟨-, rfl, rfl⟩ := h
    exact ⟨hone, by simp, hlistener, by simp, by simp⟩

/-- A thread that has not ended is among the threads. -/
lemma State.Live.mem_threads {s : State} {t : ℕ} (h : s.Live t) : s.pc t ∈ s.threads := by
  rw [State.Live, State.pc] at h
  rw [State.pc]
  cases ht : s.threads[t]? with
  | none => simp [ht] at h
  | some pc => exact List.mem_of_getElem? ht

/-- Every `StopKept` step preserves the invariant. -/
lemma StopInv.next {s s' : State} {a : Label} (hs : StopInv s) (hkept : StopKept s a)
    (h : next s a = some s') : StopInv s' := by
  have hone := hs.one.next hkept.1 h
  cases move_of_next h with
  | callInit | initRunning | initTest | initSet | createFailed =>
    exact hs.of_init hone (by simp) fun t n ht => ⟨ht, rfl⟩
  | callDeinit => exact hs.of_init hone (by simp [eq_comm]) fun t n ht => ⟨ht, rfl⟩
  | initSocket hm =>
    refine hs.of_init hone (by simp) fun t n ht => ?_
    have hnone := hs.one.noServer (by simp [State.NoServer, hm]) t
    simp only [State.Live, not_not] at hnone
    exact absurd (ht.symm.trans hnone) (by simp)
  | initCreate =>
    refine hs.of_init hone (by simp) fun t n ht => ?_
    rw [pc_created] at ht
    split_ifs at ht
    exact ⟨ht, rfl⟩
  | @initStart u =>
    refine hs.of_init hone (by simp) fun t n ht => ?_
    rcases pc_set_cases s u _ .threadTest .initSet t with ⟨-, hpc⟩ | hpc
    · cases hpc.symm.trans ht
    · exact ⟨hpc.symm.trans ht, rfl⟩
  | deinit hm hdeinit =>
    refine hs.menu_deinit hm (fun hjoin t ht => ?_) hdeinit
    exact hkept.2 (by rw [hm, hjoin]) _ ht.live.mem_threads ht
  | server => exact hs.server hkept h

/-- The initial state satisfies the invariant. -/
lemma stopInv_init {s : State} (h : threadSystem.init s) : StopInv s := by
  have hone := oneServerInv_init h
  obtain rfl : s = _ := h
  exact ⟨hone, by simp, fun t n ht => by simp [State.pc] at ht, by simp, by simp⟩

/-- The invariant holds in all runs with `StopKept` steps. -/
lemma StopInv.of_reachable {s : State} (h : threadSystem.ReachableVia StopKept s) : StopInv s :=
  h.invariant (fun _ => stopInv_init) fun _ _ _ => StopInv.next

/-! ## Waiting for a client -/

/-- A thread among the threads has an id. -/
lemma exists_pc_eq {s : State} {pc : ServerPc} (h : pc ∈ s.threads) : ∃ t, s.pc t = pc := by
  obtain ⟨t, ht⟩ := List.mem_iff_getElem?.mp h
  exact ⟨t, by rw [State.pc, ht, Option.getD_some]⟩

/-- A thread that is held up is blocked otherwise than in `accept` or `recv` on one of the
sockets. -/
lemma ServerPc.HeldUp.not_blockedOnlyOn {socks : List ℕ} {pc : ServerPc} (h : pc.HeldUp socks) :
    ¬ pc.BlockedOnlyOn socks := by
  cases pc with
  | recv sock => exact h
  | svc sock | sending sock => exact id
  | _ => exact h.elim

/-- A thread that goes in is held up afterwards. -/
lemma heldUp_of_goesIn {s : State} {pc pc' : ServerPc} {e : Event} {g : Globals}
    (hin : pc.goesIn e = true) (h : serverStep s pc e = some (g, pc')) (socks : List ℕ) :
    pc'.HeldUp socks := by
  unfold ServerPc.goesIn at hin
  split at hin
  · simp only [serverStep, Option.some.injEq, Prod.mk.injEq] at h
    rw [← h.2]
    trivial
  · simp only [serverStep, Option.some.injEq, Prod.mk.injEq] at h
    rw [← h.2]
    trivial
  · cases hin

/-- The menu thread waits for a thread that is held up. -/
lemma not_stopCanFinish_of_heldUp {s : State} {t : ℕ}
    (hm : s.menu = .deinit (.joining (some t))) (h : (s.pc t).HeldUp s.globals.down) :
    ¬ StopCanFinish s := by
  intro hstop
  exact h.not_blockedOnlyOn (hstop t hm h.live t)

/-- A menu thread that begins to wait while a server thread is held up is waiting for that
thread; so is a menu thread that waits already while a server thread goes in.

**Proof sketch.** The thread that is held up is the one named by `threadId`. -/
lemma StopInv.stuck_of_heldUp {s s' : State} {a : Label} (hs : StopInv s)
    (hheld : ¬ NoneHeldUp s a) (h : Threads.next s a = some s') : ¬ StopCanFinish s' := by
  cases a with
  | menu e =>
    simp only [NoneHeldUp, not_forall, not_not] at hheld
    obtain ⟨hm, pc, hpc, hheld⟩ := hheld
    obtain ⟨t, rfl⟩ := exists_pc_eq hpc
    have hid := hs.one.threadId t hheld.live
    cases e with
    | done =>
      simp only [Threads.next, menuStep, hm, deinitStep, Option.map_some, Option.some.injEq] at h
      subst h
      exact not_stopCanFinish_of_heldUp (by rw [hid]; rfl) hheld
    | failed => simp [Threads.next, menuStep, hm] at h
    | opened n => simp [Threads.next, menuStep] at h
    | kill => simp [Threads.next, menuStep] at h
    | svc => simp [Threads.next, menuStep] at h
  | server t e =>
    simp only [NoneHeldUp, not_forall, Bool.not_eq_false] at hheld
    obtain ⟨hjoin, hin⟩ := hheld
    obtain ⟨j, hm⟩ := MenuPc.exists_of_inJoin hjoin
    obtain ⟨g, pc', hstep, hspec, -, hmenu, -, hpc⟩ := server_step h
    have hid : j = some t := (hs.one.joining j hm).trans (hs.one.threadId t hspec.live)
    refine not_stopCanFinish_of_heldUp (t := t) (by rw [hmenu, hm, hid]) ?_
    rw [hpc, if_pos rfl]
    exact heldUp_of_goesIn hin hstep _
  | _ => exact absurd trivial hheld

/-! ## Waiting for a thread that waits for itself -/

/-- While `serverRunning` is set and a server thread has not ended, the menu thread is outside
`wupserver_init` and `wupserver_deinit`, or at a test of `serverRunning`, or about to clear
it. -/
lemma StopInv.menu_of_running {s : State} (hs : StopInv s)
    (hstarting : s.menu.Starting → s.globals.serverRunning = false)
    (hrun : s.globals.serverRunning = true) :
    s.menu = .idle ∨ s.menu = .initTest ∨ s.menu = .deinit .test ∨ s.menu = .deinit .clear := by
  have hset : s.globals.serverRunning ≠ false := by simp [hrun]
  cases hm : s.menu with
  | idle => exact .inl rfl
  | initTest => exact .inr (.inl rfl)
  | deinit pc =>
    cases pc with
    | test => exact .inr (.inr (.inl rfl))
    | clear => exact .inr (.inr (.inr rfl))
    | _ => exact absurd (hs.cleared _ hm trivial) hset
  | _ => exact absurd (hstarting (by rw [hm]; trivial)) hset

/-- The menu thread advances inside `wupserver_deinit`. -/
lemma next_menu_deinit {s : State} {pc pc' : DeinitPc} {g : Globals} (hm : s.menu = .deinit pc)
    (h : deinitStep s pc = some (g, some pc')) :
    next s (.menu .done) = some { s with globals := g, menu := .deinit pc' } := by
  simp only [next, menuStep, hm, h, Option.map_some, Option.elim_some]

/-- From the positions of `menu_of_running` the menu thread can go on to `serverRunning = 0`. -/
lemma canReach_clear {s : State} (hrun : s.globals.serverRunning = true)
    (hm : s.menu = .idle ∨ s.menu = .initTest ∨ s.menu = .deinit .test ∨
      s.menu = .deinit .clear) :
    ∃ u, threadSystem.CanReach s u ∧ u.menu = .deinit .clear ∧ u.threads = s.threads ∧
      u.globals.threadId = s.globals.threadId := by
  have htest (v : State) (hrun : v.globals.serverRunning = true) (hm : v.menu = .deinit .test) :
      ∃ u, threadSystem.CanReach v u ∧ u.menu = .deinit .clear ∧ u.threads = v.threads ∧
        u.globals.threadId = v.globals.threadId := by
    have hclear := next_menu_deinit hm (deinitStep_test hrun)
    exact ⟨_, System.CanReach.head (a := .menu .done) hclear (.refl _), by rfl, by rfl, by rfl⟩
  have hidle (v : State) (hrun : v.globals.serverRunning = true) (hm : v.menu = .idle) :
      ∃ u, threadSystem.CanReach v u ∧ u.menu = .deinit .clear ∧ u.threads = v.threads ∧
        u.globals.threadId = v.globals.threadId := by
    have hcall : next v .callDeinit = some { v with menu := .deinit .test } := by
      simp [next, hm]
    obtain ⟨u, hu, hclear⟩ := htest { v with menu := .deinit .test } hrun rfl
    exact ⟨u, .head (a := .callDeinit) hcall hu, hclear⟩
  rcases hm with hm | hm | hm | hm
  · exact hidle s hrun hm
  · have hreturn : next s (.menu .done) = some { s with menu := .idle } := by
      simp [next, menuStep, hm, hrun]
    obtain ⟨u, hu, hclear⟩ := hidle { s with menu := .idle } hrun rfl
    exact ⟨u, .head (a := .menu .done) hreturn hu, hclear⟩
  · exact htest s hrun hm
  · exact ⟨s, .refl s, hm, rfl, rfl⟩

/-- From `serverRunning = 0` the menu thread can go on until it joins the thread named by
`threadId`, while the server threads stand still. -/
lemma canReach_menu_joining {s : State} (hm : s.menu = .deinit .clear) :
    ∃ u, threadSystem.CanReach s u ∧ u.menu = .deinit (.joining s.globals.threadId) ∧
      u.threads = s.threads := by
  obtain ⟨u, hu, hat, -⟩ := canReach_joining (a := .menu .done)
    (P := fun v pc => v.menu = .deinit pc ∧ v.threads = s.threads) (s := s)
    (fun v pc g pc' ⟨hat, hthreads⟩ hstep =>
      ⟨_, next_menu_deinit hat hstep, ⟨rfl, hthreads⟩, rfl⟩) ⟨hm, rfl⟩
  exact ⟨u, hu, hat⟩

/-- After a kill the run can go on to a state in which the menu thread waits for the server
thread, and the server thread for itself.

**Proof sketch.** Both threads have tested `serverRunning` before either clears it; then both
get to `IOS_JoinThread`. -/
lemma StopInv.canReach_of_kill {s s' : State} {a : Label} (hs : StopInv s)
    (hstarting : s.menu.Starting → s.globals.serverRunning = false) (hkill : ¬ NoKill s a)
    (h : Threads.next s a = some s') : ∃ u, threadSystem.CanReach s' u ∧ ¬ StopCanFinish u := by
  obtain ⟨hrun, t, c, hpc, hrun', hid, hmenu⟩ := hs.one.kill hkill h
  have hm := hs.menu_of_running hstarting hrun
  rw [← hmenu] at hm
  obtain ⟨u₁, hu₁, hclear, hthreads₁, hid₁⟩ := canReach_clear hrun' hm
  have hpc₁ : u₁.pc t = .deinit c .clear := (pc_of_threads_eq hthreads₁ t).trans hpc
  obtain ⟨u₂, hu₂, hpc₂, hmenu₂, hid₂⟩ := canReach_server_joining hpc₁
  obtain ⟨u, hu, hmenu₃, hthreads₃⟩ := canReach_menu_joining (hmenu₂.trans hclear)
  have hpc₃ : u.pc t = .deinit c (.joining u₁.globals.threadId) :=
    (pc_of_threads_eq hthreads₃ t).trans hpc₂
  rw [hid₂, hid₁, hid] at hmenu₃
  refine ⟨u, hu₁.trans (hu₂.trans hu), fun hstop => ?_⟩
  have hblocked := hstop t hmenu₃ (by simp [State.Live, hpc₃]) t
  rw [hpc₃] at hblocked
  exact hblocked

/-- The server is started, and stopped while it waits in `accept`. -/
def stopAccepting : List Label :=
  [.callInit, .menu .done, .menu .done, .menu .done, .menu .done, .menu .done,
    .server 0 .done, .server 0 (.opened 5), .server 0 .done, .server 0 .done, .server 0 .done,
    .server 0 .done, .callDeinit, .menu .done, .menu .done, .menu .done, .menu .done, .menu .done]

/-- The server is started, a client connects and stays silent, and the server is stopped. -/
def stopSilent : List Label :=
  [.callInit, .menu .done, .menu .done, .menu .done, .menu .done, .menu .done,
    .server 0 .done, .server 0 (.opened 5), .server 0 .done, .server 0 .done, .server 0 .done,
    .server 0 .done, .server 0 (.opened 6), .server 0 .done,
    .callDeinit, .menu .done, .menu .done, .menu .done, .menu .done, .menu .done]

/-- A client sends a command and then reads nothing. The menu thread waits already when the
server thread goes into `send`. -/
def stopUnread : List Label :=
  serveClient ++ [.callDeinit, .menu .done, .menu .done, .menu .done, .menu .done, .menu .done,
    .server 0 .done, .server 0 .done]

example : threadSystem.run ⟨⟨false, none, none, [], none⟩, [], .idle⟩ stopUnread =
    some ⟨⟨false, some 5, some 0, [5], none⟩, [.sending 6], .deinit (.joining (some 0))⟩ := by
  decide

end Threads

end Wupserver

end RecoveryMenu

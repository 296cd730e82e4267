import RecoveryMenu.Wupserver.Threads

set_option relaxedAutoImplicit false
set_option autoImplicit false

/-!
# One server thread (`ios_mcp/source/wupserver.c`)

`wupserver_init` hands the one static `threadStack` to a new thread, which is safe as long as
the thread before it has ended. `wupserver_deinit` of the menu thread sees to that: it waits for
the server thread. The kill command calls the same function on the server thread, which then
waits for itself; and as `serverRunning` is `0` by then, the menu thread may start another one.

## Main definitions

* `RecoveryMenu.Wupserver.Threads.OneServer`: no thread joins itself, and at most one server
  thread has not ended.
* `RecoveryMenu.Wupserver.Threads.NoKill`: no kill command is executed while `serverRunning` is
  set.

## Main results

* `RecoveryMenu.Wupserver.Threads.oneServer_of_noKill`: `OneServer` holds in all runs without
  such a kill, and after one a thread can join itself.
* `RecoveryMenu.Wupserver.Threads.not_oneServer`: a client that sends the kill command.

## References

* `ios_mcp/source/wupserver.c`, lines 59-64 and 168-206.
-/

namespace RecoveryMenu

namespace Wupserver

namespace Threads

open Interleaving

/-! ## The property -/

/-- No thread is joining itself, and at most one server thread has not ended. -/
structure OneServer (s : State) : Prop where
  noSelfJoin : ∀ t c, s.pc t ≠ .deinit c (.joining (some t))
  unique : ∀ t u, s.Live t → s.Live u → t = u

/-- At the test of the `wupserver_deinit` of a kill command. -/
def ServerPc.atKill : ServerPc → Bool
  | .deinit _ .test => true
  | _ => false

/-- The position at which `atKill` holds. -/
lemma ServerPc.exists_of_atKill {pc : ServerPc} (h : pc.atKill) : ∃ c, pc = .deinit c .test := by
  unfold ServerPc.atKill at h
  split at h
  · exact ⟨_, rfl⟩
  · cases h

/-- The `wupserver_deinit` of a kill command finds `serverRunning` cleared already. -/
def NoKill (s : State) : Label → Prop
  | .server t _ => (s.pc t).atKill → s.globals.serverRunning = false
  | _ => True

instance (s : State) : ∀ a, Decidable (NoKill s a)
  | .server t _ => inferInstanceAs (Decidable ((s.pc t).atKill → s.globals.serverRunning = false))
  | .callInit | .callDeinit | .menu _ => .isTrue trivial

/-! ## Runs without a kill -/

/-- The menu thread is where `serverRunning = 0` means, or will mean, that no thread is left. -/
def State.NoServer (s : State) : Prop :=
  match s.menu with
  | .idle | .initTest | .deinit .test => s.globals.serverRunning = false
  | .initSocket | .initCreate => True
  | _ => False

/-- What holds in a run without a kill: `threadId` names the only thread that may not have
ended, and that thread is not inside `wupserver_deinit`. -/
structure OneServerInv (s : State) : Prop where
  threadId : ∀ t, s.Live t → s.globals.threadId = some t
  stopping : ∀ t, ¬ (s.pc t).Stopping
  noServer : s.NoServer → ∀ t, ¬ s.Live t
  joining : ∀ t, s.menu = .deinit (.joining t) → t = s.globals.threadId

/-- The invariant gives the property. -/
lemma OneServerInv.oneServer {s : State} (hs : OneServerInv s) : OneServer s where
  noSelfJoin t c h := hs.stopping t (by simp [h, ServerPc.Stopping])
  unique t u ht hu := by
    have := (hs.threadId t ht).symm.trans (hs.threadId u hu)
    exact Option.some.inj this

/-- A step of the menu thread that moves no server thread and keeps `threadId`. -/
lemma OneServerInv.of_threads_eq {s s' : State} (hs : OneServerInv s)
    (hthreads : s'.threads = s.threads) (hid : s'.globals.threadId = s.globals.threadId)
    (hnone : s'.NoServer → ∀ t, ¬ s.Live t)
    (hjoin : ∀ t, s'.menu = .deinit (.joining t) → t = s.globals.threadId) :
    OneServerInv s' := by
  have hpc := pc_of_threads_eq hthreads
  have hlive (t : ℕ) : s'.Live t ↔ s.Live t := by rw [State.Live, State.Live, hpc]
  refine ⟨fun t ht => ?_, fun t => ?_, fun h t ht => ?_, fun t h => ?_⟩
  · exact hid.trans (hs.threadId t ((hlive t).mp ht))
  · rw [hpc]
    exact hs.stopping t
  · exact hnone h t ((hlive t).mp ht)
  · exact (hjoin t h).trans hid.symm

/-- A step of the menu thread inside `wupserver_deinit` preserves the invariant.

**Proof sketch.** `wupserver_deinit` returns either because `serverRunning` was `0`, or because
the thread named by `threadId` has ended; in both cases no thread is left. -/
lemma OneServerInv.menu_deinit {s : State} {pc : DeinitPc} {g : Globals} {r : Option DeinitPc}
    (hs : OneServerInv s) (hpc : s.menu = .deinit pc) (h : deinitStep s pc = some (g, r)) :
    OneServerInv { s with globals := g, menu := r.elim .idle .deinit } := by
  obtain ⟨-, hid, -⟩ := deinitStep_spec h
  cases pc with
  | test =>
    simp only [deinitStep, Option.some.injEq, Prod.mk.injEq] at h
    obtain ⟨rfl, rfl⟩ := h
    by_cases hrun : s.globals.serverRunning
    · simp only [hrun, if_true, Option.elim_some]
      exact hs.of_threads_eq rfl hid (fun h => h.elim) (by simp)
    · have hfalse : s.globals.serverRunning = false := Bool.eq_false_iff.mpr hrun
      simp only [hfalse, Bool.false_eq_true, if_false, Option.elim_none]
      exact hs.of_threads_eq rfl hid (fun _ => hs.noServer (by simp [State.NoServer, hpc, hfalse]))
        (by simp)
  | joining t =>
    simp only [deinitStep, Option.ite_none_right_eq_some, Option.some.injEq, Prod.mk.injEq] at h
    obtain ⟨hended, rfl, rfl⟩ := h
    refine hs.of_threads_eq rfl hid (fun _ u hu => ?_) (by simp)
    rw [hs.joining t hpc] at hended
    exact hended u (hs.threadId u hu) hu
  | clear | shutdown =>
    simp only [deinitStep, Option.some.injEq, Prod.mk.injEq] at h
    obtain ⟨rfl, rfl⟩ := h
    exact hs.of_threads_eq rfl hid (fun h => h.elim) (by simp)
  | checkSocket =>
    simp only [deinitStep, Option.some.injEq, Prod.mk.injEq] at h
    obtain ⟨rfl, rfl⟩ := h
    split_ifs <;> exact hs.of_threads_eq rfl hid (fun h => h.elim) (by simp)
  | join =>
    simp only [deinitStep, Option.some.injEq, Prod.mk.injEq] at h
    obtain ⟨rfl, rfl⟩ := h
    exact hs.of_threads_eq rfl hid (fun h => h.elim) (by simp [eq_comm])

/-- A created thread is the only one left. -/
lemma OneServerInv.created {s : State} (hs : OneServerInv s) (hm : s.menu = .initCreate) :
    OneServerInv
      { globals := { s.globals with threadId := some s.threads.length }
        threads := s.threads ++ [.created]
        menu := .initStart } := by
  have hnone := hs.noServer (by simp [State.NoServer, hm])
  refine ⟨fun u hu => ?_, fun u => ?_, fun h => h.elim, by simp⟩
  · by_contra hne
    have hlt : u ≠ s.threads.length := fun h => hne (by rw [h])
    exact hnone u (by rwa [State.Live, pc_created, if_neg hlt] at hu)
  · rw [pc_created]
    split_ifs
    · exact id
    · exact hs.stopping u

/-- Starting the thread named by `threadId` preserves the invariant. -/
lemma OneServerInv.started {s : State} {t : ℕ} (hs : OneServerInv s)
    (hid : s.globals.threadId = some t) :
    OneServerInv
      { globals := { s.globals with started := some t }
        threads := s.threads.set t .threadTest
        menu := .initSet } := by
  refine ⟨fun u hu => ?_, fun u => ?_, fun h => h.elim, by simp⟩
  · rcases pc_set_cases s t _ .threadTest .initSet u with ⟨rfl, -⟩ | hpc
    · exact hid
    · exact hs.threadId u (by rwa [State.Live, hpc] at hu)
  · rcases pc_set_cases s t _ .threadTest .initSet u with ⟨-, hpc⟩ | hpc <;> rw [hpc]
    · exact id
    · exact hs.stopping u

/-- A step of a server thread that is no kill preserves the invariant.

**Proof sketch.** The thread that moves is the only one that has not ended, and by
`ServerSpec` it neither enters `wupserver_deinit` nor touches `serverRunning` and `threadId`. -/
lemma OneServerInv.server {s s' : State} {t : ℕ} {e : Event} (hs : OneServerInv s)
    (hkill : NoKill s (.server t e)) (h : next s (.server t e) = some s') : OneServerInv s' := by
  obtain ⟨g, pc', -, hspec, rfl, hmenu, -, hpc⟩ := server_step h
  have hrun := hspec.serverRunning (hs.stopping t)
  have hlive {u : ℕ} (hu : s'.Live u) : s.Live u := by
    by_cases hut : u = t
    · exact hut ▸ hspec.live
    · rwa [State.Live, hpc, if_neg hut] at hu
  refine ⟨fun u hu => ?_, fun u => ?_, fun hnone u hu => ?_, fun u hu => ?_⟩
  · exact hspec.threadId.trans (hs.threadId u (hlive hu))
  · rw [hpc]
    split_ifs with hut
    · intro hstop
      rcases hspec.stopping hstop with hold | ⟨⟨c, hc⟩, hrunning⟩
      · exact hs.stopping t hold
      · rw [hkill (by rw [hc]; rfl)] at hrunning
        cases hrunning
    · exact hs.stopping u
  · refine hs.noServer ?_ u (hlive hu)
    rwa [State.NoServer, hmenu, hrun] at hnone
  · rw [hmenu] at hu
    exact (hs.joining u hu).trans hspec.threadId.symm

/-- Every step that is no kill preserves the invariant.

**Proof sketch.** The steps of `wupserver_init` up to the creation of a thread happen where no
thread is left, and that thread is the one `threadId` then names. -/
lemma OneServerInv.next {s s' : State} {a : Label} (hs : OneServerInv s) (hkill : NoKill s a)
    (h : next s a = some s') : OneServerInv s' := by
  cases move_of_next h with
  | callInit hm | callDeinit hm =>
    exact hs.of_threads_eq rfl rfl (fun h => hs.noServer (by simpa [State.NoServer, hm] using h))
      (by simp)
  | initRunning hm hrun =>
    exact hs.of_threads_eq rfl rfl (fun h => by simp [State.NoServer, hrun] at h) (by simp)
  | initTest hm hrun =>
    exact hs.of_threads_eq rfl rfl (fun _ => hs.noServer (by simp [State.NoServer, hm, hrun]))
      (by simp)
  | initSocket hm =>
    exact hs.of_threads_eq rfl rfl (fun _ => hs.noServer (by simp [State.NoServer, hm])) (by simp)
  | initCreate hm => exact hs.created hm
  | createFailed hm =>
    have hnone := hs.noServer (by simp [State.NoServer, hm])
    exact ⟨fun u hu => absurd hu (hnone u), hs.stopping, fun _ => hnone, by simp⟩
  | initStart hm hid => exact hs.started hid
  | initSet hm =>
    exact hs.of_threads_eq rfl rfl (fun h => by simp [State.NoServer] at h) (by simp)
  | deinit hm hdeinit => exact hs.menu_deinit hm hdeinit
  | server => exact hs.server hkill h

/-- The initial state satisfies the invariant. -/
lemma oneServerInv_init {s : State} (h : threadSystem.init s) : OneServerInv s := by
  obtain rfl : s = _ := h
  exact ⟨fun t ht => absurd rfl ht, fun t => id, fun _ t ht => ht rfl, by simp⟩

/-- The invariant holds in all runs without a kill. -/
lemma OneServerInv.of_reachable {s : State} (h : threadSystem.ReachableVia NoKill s) :
    OneServerInv s :=
  h.invariant (fun _ => oneServerInv_init) fun _ _ _ => OneServerInv.next

/-! ## A kill -/

/-- A server thread inside `wupserver_deinit` advances in it. -/
lemma exists_next_deinit {s : State} {t c : ℕ} {pc pc' : DeinitPc} {g : Globals}
    (hpc : s.pc t = .deinit c pc) (h : deinitStep s pc = some (g, some pc')) :
    ∃ s', next s (.server t .done) = some s' ∧ s'.pc t = .deinit c pc' ∧ s'.globals = g ∧
      s'.menu = s.menu := by
  have hlive : s.Live t := by simp [State.Live, hpc]
  refine ⟨{ s with globals := g, threads := s.threads.set t (.deinit c pc') }, ?_, ?_, rfl, rfl⟩
  · simp only [next, serverStep, hpc, h, Option.map_some, Option.elim_some]
  · rw [pc_setThread hlive, if_pos rfl]

/-- A server thread that has got past the test of `wupserver_deinit` can go on until it joins
the thread named by `threadId`, while the menu thread stands still. -/
lemma canReach_server_joining {s : State} {t c : ℕ} (hpc : s.pc t = .deinit c .clear) :
    ∃ u, threadSystem.CanReach s u ∧ u.pc t = .deinit c (.joining s.globals.threadId) ∧
      u.menu = s.menu ∧ u.globals.threadId = s.globals.threadId := by
  obtain ⟨u, hu, ⟨hat, hmenu⟩, hid⟩ := canReach_joining (a := .server t .done)
    (P := fun v pc => v.pc t = .deinit c pc ∧ v.menu = s.menu) (s := s)
    (fun v pc g pc' ⟨hat, hmenu⟩ hstep => by
      obtain ⟨v', hnext, hat', hg, hmenu'⟩ := exists_next_deinit hat hstep
      exact ⟨v', hnext, ⟨hat', hmenu'.trans hmenu⟩, hg⟩) ⟨hpc, rfl⟩
  exact ⟨u, hu, hat, hmenu, hid⟩

/-- A step that is a kill: the thread named by `threadId` gets past the test of
`wupserver_deinit`. -/
lemma OneServerInv.kill {s s' : State} {a : Label} (hs : OneServerInv s) (hkill : ¬ NoKill s a)
    (h : Threads.next s a = some s') : s.globals.serverRunning = true ∧
      ∃ t c, s'.pc t = .deinit c .clear ∧ s'.globals.serverRunning = true ∧
        s'.globals.threadId = some t ∧ s'.menu = s.menu := by
  cases a with
  | server t e =>
    simp only [NoKill, not_forall, Bool.not_eq_false] at hkill
    obtain ⟨hatKill, hrun⟩ := hkill
    obtain ⟨c, hpc⟩ := ServerPc.exists_of_atKill hatKill
    have hlive : s.Live t := by simp [State.Live, hpc]
    obtain ⟨v, hnext, hpc', hglobals, hmenu⟩ := exists_next_deinit hpc (deinitStep_test hrun)
    cases e with
    | done =>
      obtain rfl : v = s' := Option.some.inj (hnext.symm.trans h)
      refine ⟨hrun, t, c, hpc', ?_, ?_, hmenu⟩
      · rw [hglobals]
        exact hrun
      · rw [hglobals]
        exact hs.threadId t hlive
    | _ => simp [Threads.next, serverStep, hpc] at h
  | _ => exact absurd trivial hkill

/-- **One server thread.** In every run without a kill command executed while `serverRunning` is
set, no thread joins itself and at most one server thread has not ended. After the first such
kill, the run can go on to a thread that joins itself.

**Proof sketch.** The first part is the invariant rule for `OneServerInv`. For the second, the
killing thread is the one named by `threadId`, and after its test of `serverRunning` it gets to
`IOS_JoinThread(threadId)` by its own steps (`canReach_server_joining`). -/
theorem oneServer_of_noKill {s : State} (h : threadSystem.ReachableVia NoKill s) :
    OneServer s ∧ ∀ a s', ¬ NoKill s a → next s a = some s' →
      ∃ u, threadSystem.CanReach s' u ∧ ¬ OneServer u := by
  have hinv := OneServerInv.of_reachable h
  refine ⟨hinv.oneServer, fun a s' hkill hstep => ?_⟩
  obtain ⟨-, t, c, hpc, -, hid, -⟩ := hinv.kill hkill hstep
  obtain ⟨u, hu, hjoining, -, -⟩ := canReach_server_joining hpc
  refine ⟨u, hu, fun hone => hone.noSelfJoin t c ?_⟩
  rw [hjoining, hid]

/-- The server is started, and a client connects and sends a command. -/
def serveClient : List Label :=
  [.callInit, .menu .done, .menu .done, .menu .done, .menu .done, .menu .done,
    .server 0 .done, .server 0 (.opened 5), .server 0 .done, .server 0 .done, .server 0 .done,
    .server 0 .done, .server 0 (.opened 6), .server 0 .done, .server 0 .done]

/-- The state after `serveClient`. -/
def serving : State :=
  ⟨⟨true, some 5, some 0, [], some 0⟩, [.handle 6], .idle⟩

/-- `serveClient` leads to `serving`. -/
lemma run_serveClient :
    threadSystem.run ⟨⟨false, none, none, [], none⟩, [], .idle⟩ serveClient = some serving := by
  decide

/-- `serveClient` contains no kill, so `serving` has one server thread. -/
theorem oneServer_serving : OneServer serving := by
  have hreach : threadSystem.ReachableVia NoKill serving :=
    .run (.init rfl) serveClient run_serveClient (by decide)
  exact (oneServer_of_noKill hreach).1

/-- A client that sends the kill command: the server thread joins itself. -/
theorem not_oneServer : ¬ ∀ s, threadSystem.Reachable s → OneServer s := by
  intro h
  have hrun : threadSystem.run ⟨⟨false, none, none, [], none⟩, [], .idle⟩
      (serveClient ++ [.server 0 .kill, .server 0 .done, .server 0 .done, .server 0 .done,
        .server 0 .done, .server 0 .done]) =
      some ⟨⟨false, some 5, some 0, [5], none⟩, [.deinit 6 (.joining (some 0))], .idle⟩ := by
    decide
  exact (h _ (System.Reachable.of_run rfl _ hrun)).noSelfJoin 0 6 rfl

end Threads

end Wupserver

end RecoveryMenu

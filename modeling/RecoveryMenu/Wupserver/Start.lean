import RecoveryMenu.Wupserver.Threads

set_option relaxedAutoImplicit false
set_option autoImplicit false

/-!
# Starting the server (`ios_mcp/source/wupserver.c`)

`wupserver_init` starts the server thread before it sets `serverRunning`. A new thread that is
scheduled in between finds the flag cleared and ends, and `serverRunning` is then set without a
server.

## Main definitions

* `RecoveryMenu.Wupserver.Threads.StartKept`: a started thread that nobody stopped has not ended.
* `RecoveryMenu.Wupserver.Threads.SetFirst`: the new thread does not test `serverRunning` before
  it is set.

## Main results

* `RecoveryMenu.Wupserver.Threads.startKept_of_setFirst`: `StartKept` holds in the runs with
  `SetFirst`, and a step without it ends it.
* `RecoveryMenu.Wupserver.Threads.not_startKept`: the new thread runs at once.

## References

* `ios_mcp/source/wupserver.c`, lines 168-193.
-/

namespace RecoveryMenu

namespace Wupserver

namespace Threads

open Interleaving

/-! ## The property -/

/-- The thread that `wupserver_init` started has not ended, if no `wupserver_deinit` has taken a
step since, be it that of a kill command. -/
def StartKept (s : State) : Prop := ∀ t, s.globals.started = some t → s.Live t

/-- The started thread does not test `serverRunning` while the menu thread is about to set it. -/
def SetFirst (s : State) : Label → Prop
  | .server t _ => s.pc t = .threadTest → s.globals.started = some t → s.menu ≠ .initSet
  | _ => True

instance (s : State) : ∀ a, Decidable (SetFirst s a)
  | .server t _ => inferInstanceAs
      (Decidable (s.pc t = .threadTest → s.globals.started = some t → s.menu ≠ .initSet))
  | .callInit | .callDeinit | .menu _ => .isTrue trivial

/-! ## Runs in which the flag is set first -/

/-- What holds in a run with `SetFirst` steps: the started thread either has not run yet, and
the menu thread is about to set the flag, or the flag is set and the thread has not ended. -/
structure StartInv (s : State) : Prop where
  started : ∀ t, s.globals.started = some t →
    s.menu = .initSet ∧ s.pc t = .threadTest ∨ s.globals.serverRunning = true ∧ s.Live t
  created : s.menu = .initStart → ∃ t, s.globals.threadId = some t ∧ t < s.threads.length

/-- The invariant gives the property. -/
lemma StartInv.startKept {s : State} (hs : StartInv s) : StartKept s := by
  intro t ht
  rcases hs.started t ht with ⟨-, hpc⟩ | ⟨-, hlive⟩
  · simp [State.Live, hpc]
  · exact hlive

/-- Before the thread is started, no thread is remembered as started. -/
lemma StartInv.started_eq_none {s : State} (hs : StartInv s)
    (hrun : s.globals.serverRunning = false) (hset : s.menu ≠ .initSet) :
    s.globals.started = none := by
  refine Option.eq_none_iff_forall_ne_some.mpr fun t ht => ?_
  rcases hs.started t ht with ⟨h, -⟩ | ⟨hset', -⟩
  · exact hset h
  · rw [hrun] at hset'
    cases hset'

/-- A step of a server thread preserves the invariant.

**Proof sketch.** A thread ends only where it finds `serverRunning` cleared. The started thread
does not look before the flag is set, by the guard, and only `wupserver_deinit` clears it, which
forgets the started thread. -/
lemma StartInv.server {s s' : State} {t : ℕ} {e : Event} (hs : StartInv s)
    (hfirst : SetFirst s (.server t e)) (h : next s (.server t e) = some s') : StartInv s' := by
  obtain ⟨g, pc', -, hspec, rfl, hmenu, hlength, hpc⟩ := server_step h
  refine ⟨fun u hu => ?_, fun hm => ?_⟩
  · rcases hspec.started with ⟨hstarted, hrun⟩ | hnone
    · have hold := hs.started u (hstarted ▸ hu)
      rw [hmenu, hrun, State.Live, hpc]
      by_cases hut : u = t
      · subst hut
        rcases hold with ⟨hset, htest⟩ | ⟨hrunning, -⟩
        · exact absurd hset (hfirst htest (hstarted ▸ hu))
        · refine .inr ⟨hrunning, ?_⟩
          rw [if_pos rfl]
          intro hend
          rw [(hspec.ended hend).2] at hrunning
          cases hrunning
      · rw [if_neg hut]
        exact hold
    · rw [hnone] at hu
      cases hu
  · rw [hmenu] at hm
    rw [hspec.threadId, hlength]
    exact hs.created hm

/-- Every step with `SetFirst` preserves the invariant.

**Proof sketch.** While `wupserver_init` has not started its thread, no thread is remembered as
started; between that and `serverRunning = 1` the new thread does not run, by the guard. -/
lemma StartInv.next {s s' : State} {a : Label} (hs : StartInv s)
    (hstarting : s.menu.Starting → s.globals.serverRunning = false) (hfirst : SetFirst s a)
    (h : next s a = some s') : StartInv s' := by
  -- the steps outside of `wupserver_deinit` and from a position other than `initSet`
  have hkeep {m : MenuPc} (hm : s.menu ≠ .initSet) (hm' : m ≠ .initStart) :
      StartInv { s with menu := m } := by
    refine ⟨fun t ht => ?_, fun h => absurd h hm'⟩
    rcases hs.started t ht with ⟨hset, -⟩ | hrun
    · exact absurd hset hm
    · exact .inr hrun
  cases move_of_next h with
  | callInit hm | callDeinit hm | initRunning hm | initTest hm =>
    exact hkeep (by simp [hm]) (by simp)
  | initSocket hm | createFailed hm =>
    have hnone := hs.started_eq_none (hstarting (by rw [hm]; trivial)) (by simp [hm])
    exact ⟨by simp [hnone], by simp⟩
  | initCreate hm =>
    have hnone := hs.started_eq_none (hstarting (by rw [hm]; trivial)) (by simp [hm])
    exact ⟨by simp [hnone], fun _ => ⟨_, rfl, by simp⟩⟩
  | @initStart t hm hid =>
    obtain ⟨u, hid', hlt⟩ := hs.created hm
    obtain rfl : t = u := Option.some.inj (hid.symm.trans hid')
    refine ⟨fun u hu => .inl ⟨rfl, ?_⟩, by simp⟩
    obtain rfl : t = u := Option.some.inj hu
    simp [State.pc, hlt]
  | initSet hm => exact ⟨fun t ht => .inr ⟨rfl, hs.startKept t ht⟩, by simp⟩
  | @deinit pc g r hm hdeinit =>
    obtain ⟨hnone, -⟩ := deinitStep_spec hdeinit
    refine ⟨by simp [hnone], fun hm' => ?_⟩
    cases r <;> cases hm'
  | server => exact hs.server hfirst h

/-- The initial state satisfies the invariant. -/
lemma startInv_init {s : State} (h : threadSystem.init s) : StartInv s := by
  obtain rfl : s = _ := h
  exact ⟨by simp, by simp⟩

/-- The invariant holds in all runs with `SetFirst` steps. -/
lemma StartInv.of_reachable {s : State} (h : threadSystem.ReachableVia SetFirst s) :
    StartInv s :=
  h.invariant_of_reachable (fun _ => startInv_init) fun _ _ _ hreach hs =>
    hs.next (serverRunning_of_starting hreach)

/-- **The start is not lost.** In every run in which the new thread does not test
`serverRunning` before `wupserver_init` sets it, a started thread that nobody stopped has not
ended. A step in which it does so ends this at once.

**Proof sketch.** The first part is the invariant rule for `StartInv`. In the second, the flag
is not set yet, so the thread ends. -/
theorem startKept_of_setFirst {s : State} (h : threadSystem.ReachableVia SetFirst s) :
    StartKept s ∧ ∀ a s', ¬ SetFirst s a → next s a = some s' → ¬ StartKept s' := by
  have hinv := StartInv.of_reachable h
  refine ⟨hinv.startKept, fun a s' hfirst hstep => ?_⟩
  cases a with
  | server t e =>
    simp only [SetFirst, not_forall, not_not] at hfirst
    obtain ⟨hpc, hstarted, hm⟩ := hfirst
    have hrun := serverRunning_of_starting h (by rw [hm]; trivial)
    obtain ⟨g, pc', hserver, -, hg, -, -, hpc'⟩ := server_step hstep
    cases e with
    | done =>
      simp only [serverStep, hpc, hrun, Option.some.injEq, Prod.mk.injEq] at hserver
      obtain ⟨rfl, rfl⟩ := hserver
      intro hkept
      refine hkept t (by rw [hg, hstarted]) ?_
      rw [hpc', if_pos rfl]
      rfl
    | _ => simp [serverStep, hpc] at hserver
  | _ => exact absurd trivial hfirst

/-- The server is started, and the flag is set before the new thread runs. -/
def startInTime : List Label :=
  [.callInit, .menu .done, .menu .done, .menu .done, .menu .done, .menu .done, .server 0 .done]

/-- After `startInTime` the started thread has not ended. -/
theorem startKept_startInTime :
    StartKept ⟨⟨true, none, some 0, [], some 0⟩, [.socket], .idle⟩ := by
  have hrun : threadSystem.run ⟨⟨false, none, none, [], none⟩, [], .idle⟩ startInTime =
      some ⟨⟨true, none, some 0, [], some 0⟩, [.socket], .idle⟩ := by decide
  exact (startKept_of_setFirst (.run (.init rfl) startInTime hrun (by decide))).1

/-- The server is started, and the new thread runs before the flag is set. -/
def startTooEarly : List Label :=
  [.callInit, .menu .done, .menu .done, .menu .done, .menu .done, .server 0 .done, .menu .done]

/-- The flag is set and the server thread has ended. -/
theorem not_startKept : ¬ ∀ s, threadSystem.Reachable s → StartKept s := by
  intro h
  have hrun : threadSystem.run ⟨⟨false, none, none, [], none⟩, [], .idle⟩ startTooEarly =
      some ⟨⟨true, none, some 0, [], some 0⟩, [.ended], .idle⟩ := by decide
  exact h _ (System.Reachable.of_run rfl _ hrun) 0 rfl rfl

end Threads

end Wupserver

end RecoveryMenu

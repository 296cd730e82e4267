import Mathlib.Order.Basic

set_option relaxedAutoImplicit false
set_option autoImplicit false

/-!
# Labelled transition systems with guarded runs

Several threads that share state are modelled by one *executable* transition system: a label
names the actor and the outcome of the call it makes, and `next s a` is the state after that
step, or `none` when the step is not enabled in `s`. Interleaving is the free choice of the
next label.

A *guard* `G s a` restricts the steps of a run by a condition on the state before the step.
`ReachableVia G` are the states of runs whose every step meets the guard; `Reachable` is the
unrestricted case. Safety results are proved by one rule, `ReachableVia.invariant`.

## Main definitions

* `Interleaving.System`: initial states and the partial step function.
* `Interleaving.System.run`: a schedule, that is a list of labels, executed from a state;
  `Interleaving.System.Meets`: every step of it meets a guard.
* `Interleaving.System.ReachableVia`, `Interleaving.System.Reachable`: the states of guarded
  and of arbitrary runs; `Interleaving.System.CanReach`: the states a run can go on to.

## Main results

* `Interleaving.System.ReachableVia.invariant`: the invariant rule for guarded runs, and
  `Interleaving.System.ReachableVia.invariant_of_reachable`, where a step relies on others.
* `Interleaving.System.run_cons_iff`: a schedule, step by step.
* `Interleaving.System.Reachable.of_run`: the end of a schedule is reachable.
* `Interleaving.System.ReachableVia.mono_of_invariant`: replacing a guard by one it implies.
-/

namespace Interleaving

/-- A transition system: its initial states, and the state after a label where that label is
enabled. -/
structure System (σ α : Type*) where
  /-- The states a run may start from. -/
  init : σ → Prop
  /-- The state after label `a`, or `none` when `a` is not enabled. -/
  next : σ → α → Option σ

namespace System

variable {σ α : Type*} (S : System σ α)

/-- The state after executing the labels of a schedule in order, or `none` when one of them is
not enabled. -/
def run (s : σ) : List α → Option σ
  | [] => some s
  | a :: as => (S.next s a).bind fun t => run t as

/-- Every step of the schedule `as`, executed from `s`, meets the guard `G`. -/
def Meets (G : σ → α → Prop) (s : σ) : List α → Prop
  | [] => True
  | a :: as => G s a ∧ ∀ t, S.next s a = some t → Meets G t as

/-- The states of runs from an initial state in which every step meets the guard `G`. -/
inductive ReachableVia (G : σ → α → Prop) : σ → Prop
  | init {s : σ} : S.init s → ReachableVia G s
  | step {s t : σ} {a : α} : ReachableVia G s → G s a → S.next s a = some t → ReachableVia G t

/-- The states of arbitrary runs from an initial state. -/
def Reachable (s : σ) : Prop := S.ReachableVia (fun _ _ => True) s

/-- Some schedule leads from `s` to `t`. -/
def CanReach (s t : σ) : Prop := ∃ as, S.run s as = some t

variable {S}

/-- The schedule without labels leads nowhere else. -/
theorem run_nil_iff {s t : σ} : S.run s [] = some t ↔ s = t := Option.some_inj

/-- A schedule is its first step and then the rest. -/
theorem run_cons_iff {s t : σ} {a : α} {as : List α} :
    S.run s (a :: as) = some t ↔ ∃ u, S.next s a = some u ∧ S.run u as = some t :=
  Option.bind_eq_some_iff

/-- The invariant rule for a step that relies on invariants proved before: the state it leaves
is itself the end of a guarded run.

**Proof sketch.** Induction on the run. -/
theorem ReachableVia.invariant_of_reachable {G : σ → α → Prop} {I : σ → Prop}
    (hinit : ∀ s, S.init s → I s)
    (hstep : ∀ s a t, S.ReachableVia G s → I s → G s a → S.next s a = some t → I t) {s : σ}
    (h : S.ReachableVia G s) : I s := by
  induction h with
  | init h => exact hinit _ h
  | step hs hg hn ih => exact hstep _ _ _ hs ih hg hn

/-- **The invariant rule.** A property of the initial states that every step meeting the guard
preserves holds in every state of every guarded run. -/
theorem ReachableVia.invariant {G : σ → α → Prop} {I : σ → Prop}
    (hinit : ∀ s, S.init s → I s)
    (hstep : ∀ s a t, I s → G s a → S.next s a = some t → I t) {s : σ}
    (h : S.ReachableVia G s) : I s :=
  h.invariant_of_reachable hinit fun s a t _ => hstep s a t

/-- A guard may be replaced by one that it implies in the states of its own runs.

**Proof sketch.** Induction on the run, with the invariant rule for the state each step leaves. -/
theorem ReachableVia.mono_of_invariant {G G' : σ → α → Prop} {I : σ → Prop}
    (hinit : ∀ s, S.init s → I s)
    (hstep : ∀ s a t, I s → G s a → S.next s a = some t → I t)
    (hG : ∀ s a, I s → G s a → G' s a) {s : σ} (h : S.ReachableVia G s) :
    S.ReachableVia G' s := by
  induction h with
  | init h => exact .init h
  | step hs hg hn ih => exact .step ih (hG _ _ (hs.invariant hinit hstep) hg) hn

/-- A schedule that meets the guard, executed from a guarded-reachable state, ends in one.

**Proof sketch.** Induction on the schedule; each enabled label extends the run by one step. -/
theorem ReachableVia.run {G : σ → α → Prop} {s t : σ} (hs : S.ReachableVia G s) (as : List α)
    (h : S.run s as = some t) (hG : S.Meets G s as) : S.ReachableVia G t := by
  induction as generalizing s with
  | nil =>
    exact run_nil_iff.mp h ▸ hs
  | cons a as ih =>
    obtain ⟨u, hu, hrun⟩ := run_cons_iff.mp h
    exact ih (.step hs hG.1 hu) hrun (hG.2 u hu)

/-- Whether a schedule meets a decidable guard can be decided by executing it. -/
instance decidableMeets (G : σ → α → Prop) [∀ s a, Decidable (G s a)] :
    ∀ (s : σ) (as : List α), Decidable (S.Meets G s as)
  | _, [] => .isTrue trivial
  | s, a :: as =>
    match h : S.next s a with
    | none => decidable_of_iff (G s a) ⟨fun hg => ⟨hg, fun t ht => by simp [h] at ht⟩, And.left⟩
    | some t =>
      have := decidableMeets G t as
      decidable_of_iff (G s a ∧ S.Meets G t as)
        (and_congr_right fun _ => ⟨fun hm u hu => Option.some.inj (h.symm.trans hu) ▸ hm,
          fun hm => hm t h⟩)

/-- Every schedule meets the trivial guard. -/
theorem meets_true (s : σ) (as : List α) : S.Meets (fun _ _ => True) s as := by
  induction as generalizing s with
  | nil => trivial
  | cons a as ih => exact ⟨trivial, fun t _ => ih t⟩

/-- The end of a schedule executed from an initial state is reachable. -/
theorem Reachable.of_run {s t : σ} (hs : S.init s) (as : List α) (h : S.run s as = some t) :
    S.Reachable t :=
  ReachableVia.run (.init hs) as h (meets_true s as)

/-- The empty schedule leads to the state it starts from. -/
theorem CanReach.refl (s : σ) : S.CanReach s s := ⟨[], rfl⟩

/-- A step may be put in front of a schedule. -/
theorem CanReach.head {s t u : σ} {a : α} (h : S.next s a = some t) (hu : S.CanReach t u) :
    S.CanReach s u := by
  obtain ⟨as, hrun⟩ := hu
  exact ⟨a :: as, run_cons_iff.mpr ⟨t, h, hrun⟩⟩

/-- Schedules may be executed one after the other.

**Proof sketch.** Induction on the first schedule. -/
theorem CanReach.trans {s t u : σ} (hst : S.CanReach s t) (htu : S.CanReach t u) :
    S.CanReach s u := by
  obtain ⟨as, h⟩ := hst
  induction as generalizing s with
  | nil =>
    exact run_nil_iff.mp h ▸ htu
  | cons a as ih =>
    obtain ⟨v, hv, hrun⟩ := run_cons_iff.mp h
    exact .head hv (ih hrun)

end System

end Interleaving

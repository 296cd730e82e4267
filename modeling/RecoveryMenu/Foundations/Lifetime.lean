import Mathlib.Data.List.Basic
import Mathlib.Logic.Function.Basic

set_option relaxedAutoImplicit false
set_option autoImplicit false

/-!
# Lifetimes of resources

A program acquires resources, uses them and releases them. Each is to be acquired at most once,
and then used any number of times and released once, with nothing after that. Whether a list of
operations keeps to this is decided by a ledger with the phase of each resource, which goes
through the operations one by one.

## Main definitions

* `Lifetime.Op`: an operation on a resource.
* `Lifetime.ReleasesAll`: every resource that is acquired is released once, and not used after.
* `Lifetime.NoneAfterRelease`: nothing is done with a resource after its release.
* `Lifetime.run`: the ledger.

## Main results

* `Lifetime.run_append`, `Lifetime.run_uses`: the ledger of a composed list.
* `Lifetime.noneAfterRelease_of_run`: an allowed list does nothing with what it has released.
* `Lifetime.releasesAll_iff`: what the ledger says about every resource.
-/

namespace Lifetime

variable {ρ : Type*}

/-- An operation on a resource. -/
inductive Op (ρ : Type*)
  | acquire (x : ρ)
  | use (x : ρ)
  | release (x : ρ)
  deriving DecidableEq, Repr

/-- The resource of an operation. -/
@[simp] def Op.resource : Op ρ → ρ
  | .acquire x => x
  | .use x => x
  | .release x => x

/-- The phase a resource is in. -/
inductive Phase
  | fresh
  | held
  | released
  deriving DecidableEq, Repr

/-- The phase of a resource after an operation on it, if that is allowed. -/
@[simp] def Phase.after : Phase → Op ρ → Option Phase
  | .fresh, .acquire _ => some .held
  | .held, .use _ => some .held
  | .held, .release _ => some .released
  | _, _ => none

/-! ## The operations from phase to phase -/

/-- The operations on a resource from one phase to another. -/
def Goes (x : ρ) : Phase → Phase → List (Op ρ) → Prop
  | .fresh, .fresh, ops => ops = []
  | .fresh, .held, ops => ∃ n, ops = .acquire x :: List.replicate n (.use x)
  | .fresh, .released, ops =>
    ∃ n, ops = .acquire x :: List.replicate n (.use x) ++ [.release x]
  | .held, .held, ops => ∃ n, ops = List.replicate n (.use x)
  | .held, .released, ops => ∃ n, ops = List.replicate n (.use x) ++ [.release x]
  | .released, .released, ops => ops = []
  | _, _, _ => False

/-- Without operations the phase stays. -/
theorem goes_nil (x : ρ) (p : Phase) : Goes x p p [] := by
  cases p with
  | fresh => rfl
  | held => exact ⟨0, rfl⟩
  | released => rfl

/-- One operation more at the front. -/
theorem Goes.cons {p q r : Phase} {op : Op ρ} {ops : List (Op ρ)}
    (h : Goes op.resource q r ops) (hafter : p.after op = some q) :
    Goes op.resource p r (op :: ops) := by
  cases op with
  | acquire x =>
    cases p with
    | fresh =>
      cases hafter
      cases r with
      | fresh => cases h
      | held =>
        obtain ⟨n, rfl⟩ := h
        exact ⟨n, rfl⟩
      | released =>
        obtain ⟨n, rfl⟩ := h
        exact ⟨n, rfl⟩
    | held => cases hafter
    | released => cases hafter
  | use x =>
    cases p with
    | fresh => cases hafter
    | held =>
      cases hafter
      cases r with
      | fresh => cases h
      | held =>
        obtain ⟨n, rfl⟩ := h
        exact ⟨n + 1, rfl⟩
      | released =>
        obtain ⟨n, rfl⟩ := h
        exact ⟨n + 1, rfl⟩
    | released => cases hafter
  | release x =>
    cases p with
    | fresh => cases hafter
    | held =>
      cases hafter
      cases r with
      | fresh => cases h
      | held => cases h
      | released =>
        obtain rfl := h
        exact ⟨0, rfl⟩
    | released => cases hafter

/-! ## The ledger -/

variable [DecidableEq ρ]

/-- The operations on the resource `x`, in order. -/
def on (x : ρ) (ops : List (Op ρ)) : List (Op ρ) := ops.filter fun op => op.resource = x

/-- Every resource is not touched at all, or it is acquired, used, and released, with nothing
before and after. -/
def ReleasesAll (ops : List (Op ρ)) : Prop :=
  ∀ x, on x ops = [] ∨ ∃ n, on x ops = .acquire x :: List.replicate n (.use x) ++ [.release x]

/-- The phases after an operation, if it is allowed. -/
def step (s : ρ → Phase) (op : Op ρ) : Option (ρ → Phase) :=
  ((s op.resource).after op).map (Function.update s op.resource)

/-- The phases after a list of operations, if all are allowed. -/
def run (s : ρ → Phase) : List (Op ρ) → Option (ρ → Phase)
  | [] => some s
  | op :: ops => (step s op).bind fun t => run t ops

/-! ## The ledger of a composed list -/

/-- The ledger without operations. -/
@[simp] theorem run_nil (s : ρ → Phase) : run s [] = some s := rfl

/-- The ledger of an operation and then a list. -/
@[simp] theorem run_cons (s : ρ → Phase) (op : Op ρ) (ops : List (Op ρ)) :
    run s (op :: ops) = (step s op).bind fun t => run t ops := rfl

/-- The ledger of one list after another.

**Proof sketch.** Induction on the first list. -/
@[simp] theorem run_append (s : ρ → Phase) (a b : List (Op ρ)) :
    run s (a ++ b) = (run s a).bind fun t => run t b := by
  induction a generalizing s with
  | nil => rfl
  | cons op a ih =>
    rw [List.cons_append, run_cons, run_cons]
    cases step s op with
    | none => rfl
    | some t => exact ih t

/-- Uses of resources that are held change nothing.

**Proof sketch.** Induction on the list. -/
theorem run_uses {s : ρ → Phase} {ops : List (Op ρ)}
    (h : ∀ op ∈ ops, ∃ x, op = .use x ∧ s x = .held) : run s ops = some s := by
  induction ops with
  | nil => rfl
  | cons op ops ih =>
    obtain ⟨x, rfl, hx⟩ := h op List.mem_cons_self
    have hstep : step s (.use x) = some s := by
      show ((s x).after (.use x)).map (Function.update s x) = some s
      rw [hx]
      show some (Function.update s x .held) = some s
      rw [← hx, Function.update_eq_self]
    rw [run_cons, hstep]
    exact ih fun op hop => h op (List.mem_cons_of_mem _ hop)

/-! ## Nothing after a release -/

/-- Nothing is done with a resource after its release, and so it is released at most once. -/
def NoneAfterRelease (ops : List (Op ρ)) : Prop :=
  ∀ x before after, ops = before ++ .release x :: after → ∀ op ∈ after, op.resource ≠ x

/-- An allowed list does nothing with a resource that has been released.

**Proof sketch.** Induction on the list: the first operation is on another resource and leaves the
phase of this one. -/
theorem resource_ne_of_released {s t : ρ → Phase} {ops : List (Op ρ)} (h : run s ops = some t)
    {x : ρ} (hx : s x = .released) : ∀ op ∈ ops, op.resource ≠ x := by
  induction ops generalizing s with
  | nil => exact fun op hop => absurd hop List.not_mem_nil
  | cons op ops ih =>
    rw [run_cons, Option.bind_eq_some_iff] at h
    obtain ⟨s', hstep, hrun⟩ := h
    obtain ⟨q, hafter, rfl⟩ := Option.map_eq_some_iff.mp hstep
    have hne : op.resource ≠ x := by
      rintro rfl
      rw [hx] at hafter
      cases op <;> cases hafter
    refine List.forall_mem_cons.mpr ⟨hne, ih hrun ?_⟩
    rw [Function.update_of_ne hne.symm, hx]

/-- **An allowed list does nothing after a release.** -/
theorem noneAfterRelease_of_run {s t : ρ → Phase} {ops : List (Op ρ)} (h : run s ops = some t) :
    NoneAfterRelease ops := by
  rintro x before after rfl
  rw [run_append, Option.bind_eq_some_iff] at h
  obtain ⟨s', -, hrest⟩ := h
  rw [run_cons, Option.bind_eq_some_iff] at hrest
  obtain ⟨s'', hstep, hafter⟩ := hrest
  refine resource_ne_of_released hafter ?_
  obtain ⟨q, hq, rfl⟩ := Option.map_eq_some_iff.mp hstep
  show Function.update s' x q x = .released
  rw [Function.update_self]
  cases hphase : s' x with
  | held =>
    rw [Op.resource, hphase] at hq
    exact (Option.some.inj hq).symm
  | fresh =>
    rw [Op.resource, hphase] at hq
    cases hq
  | released =>
    rw [Op.resource, hphase] at hq
    cases hq

/-! ## The lifetime of one resource -/

/-- **The lifetime of a resource.** In an allowed list every resource goes through the operations
from the phase it has before to the phase it has after.

**Proof sketch.** Induction on the list: an operation on another resource changes nothing, and
one on the resource itself comes first in what it goes through. -/
theorem goes_of_run {s t : ρ → Phase} {ops : List (Op ρ)} (h : run s ops = some t) (x : ρ) :
    Goes x (s x) (t x) (on x ops) := by
  induction ops generalizing s with
  | nil =>
    rw [← Option.some.inj h]
    exact goes_nil x (s x)
  | cons op ops ih =>
    rw [run_cons, Option.bind_eq_some_iff] at h
    obtain ⟨s', hstep, hrun⟩ := h
    rw [step, Option.map_eq_some_iff] at hstep
    obtain ⟨q, hafter, rfl⟩ := hstep
    have hgoes := ih hrun
    by_cases hx : op.resource = x
    · obtain rfl := hx
      have hon : on op.resource (op :: ops) = op :: on op.resource ops :=
        List.filter_cons_of_pos (decide_eq_true rfl)
      rw [Function.update_self] at hgoes
      rw [hon]
      exact hgoes.cons hafter
    · have hon : on x (op :: ops) = on x ops :=
        List.filter_cons_of_neg (mt of_decide_eq_true hx)
      rw [Function.update_of_ne (Ne.symm hx)] at hgoes
      rw [hon]
      exact hgoes

/-- **The end of the ledger.** In a list that is allowed from the start, every resource is
released as it should iff none is held in the end. -/
theorem releasesAll_iff {t : ρ → Phase} {ops : List (Op ρ)}
    (h : run (fun _ => .fresh) ops = some t) : ReleasesAll ops ↔ ∀ x, t x ≠ .held := by
  refine forall_congr' fun x => ?_
  have hgoes := goes_of_run h x
  cases hx : t x with
  | fresh =>
    rw [hx] at hgoes
    exact iff_of_true (Or.inl hgoes) Phase.noConfusion
  | held =>
    rw [hx] at hgoes
    obtain ⟨n, hn⟩ := hgoes
    refine iff_of_false ?_ (not_not.mpr rfl)
    rw [hn]
    rintro (hnil | ⟨m, hm⟩)
    · cases hnil
    · have hrelease : Op.release x ∈ Op.acquire x :: List.replicate n (Op.use x) := by
        rw [hm]
        simp
      simp at hrelease
  | released =>
    rw [hx] at hgoes
    exact iff_of_true (Or.inr hgoes) Phase.noConfusion

end Lifetime

import Mathlib.Data.Multiset.AddSub
import RecoveryMenu.Foundations.Lifetime

set_option relaxedAutoImplicit false
set_option autoImplicit false

/-!
# Resources that come back

A handle that has been closed may be returned by the next open. So a resource can be acquired
several times, and what counts is that it is released as often, and only used or released while
it is held. The ledger is the multiset of what is held.

## Main definitions

* `Lifetime.Disciplined`: everything acquired is released, and nothing is used but what is held.
* `Lifetime.hold`: the ledger.

## Main results

* `Lifetime.hold_append`, `Lifetime.hold_uses`: the ledger of a composed list.
* `Lifetime.disciplined_of_hold`: a ledger that ends as it has started.
-/

namespace Lifetime

variable {ρ : Type*} [DecidableEq ρ]

/-- How often a resource is acquired. -/
def acquired (x : ρ) (ops : List (Op ρ)) : ℕ := ops.count (.acquire x)

/-- How often a resource is released. -/
def released (x : ρ) (ops : List (Op ρ)) : ℕ := ops.count (.release x)

/-- Every resource is released as often as it is acquired, and it is only used or released while
it is held. -/
structure Disciplined (ops : List (Op ρ)) : Prop where
  balanced : ∀ x, released x ops = acquired x ops
  held : ∀ before op after x, ops = before ++ op :: after → op = .use x ∨ op = .release x →
    released x before < acquired x before

/-- What is held after a list of operations, if all of them are allowed. -/
def hold (s : Multiset ρ) : List (Op ρ) → Option (Multiset ρ)
  | [] => some s
  | .acquire x :: ops => hold (x ::ₘ s) ops
  | .use x :: ops => if x ∈ s then hold s ops else none
  | .release x :: ops => if x ∈ s then hold (s.erase x) ops else none

/-! ## The ledger of a composed list -/

/-- The ledger without operations. -/
@[simp] theorem hold_nil (s : Multiset ρ) : hold s [] = some s := rfl

/-- Something more is held. -/
@[simp] theorem hold_acquire (s : Multiset ρ) (x : ρ) (ops : List (Op ρ)) :
    hold s (.acquire x :: ops) = hold (x ::ₘ s) ops := rfl

/-- A use of what is held. -/
theorem hold_use {s : Multiset ρ} {x : ρ} (h : x ∈ s) (ops : List (Op ρ)) :
    hold s (.use x :: ops) = hold s ops :=
  if_pos h

/-- A release of what was acquired last. -/
@[simp] theorem hold_release (s : Multiset ρ) (x : ρ) (ops : List (Op ρ)) :
    hold (x ::ₘ s) (.release x :: ops) = hold s ops := by
  rw [hold, if_pos (Multiset.mem_cons_self x s), Multiset.erase_cons_head]

/-- The ledger of one list after another.

**Proof sketch.** Induction on the first list. -/
theorem hold_append (s : Multiset ρ) (a b : List (Op ρ)) :
    hold s (a ++ b) = (hold s a).bind fun t => hold t b := by
  induction a generalizing s with
  | nil => rfl
  | cons op a ih =>
    cases op with
    | acquire x => exact ih (x ::ₘ s)
    | use x =>
      rw [List.cons_append, hold, hold]
      split_ifs
      · exact ih s
      · rfl
    | release x =>
      rw [List.cons_append, hold, hold]
      split_ifs
      · exact ih (s.erase x)
      · rfl

/-- A list that leaves the ledger as it is can be left out. -/
theorem hold_append_of_eq {s : Multiset ρ} {a : List (Op ρ)} (h : hold s a = some s)
    (b : List (Op ρ)) : hold s (a ++ b) = hold s b := by
  rw [hold_append, h, Option.bind_some]

/-- Uses of what is held leave the ledger as it is.

**Proof sketch.** Induction on the list. -/
theorem hold_uses {s : Multiset ρ} {ops : List (Op ρ)} (h : ∀ op ∈ ops, ∃ x ∈ s, op = .use x) :
    hold s ops = some s := by
  induction ops with
  | nil => rfl
  | cons op ops ih =>
    obtain ⟨x, hx, rfl⟩ := h op List.mem_cons_self
    rw [hold_use hx]
    exact ih fun op hop => h op (List.mem_cons_of_mem _ hop)

/-! ## What the ledger says -/

/-- What is held is what has been acquired and not released.

**Proof sketch.** Induction on the list. -/
theorem count_of_hold {s t : Multiset ρ} {ops : List (Op ρ)} (h : hold s ops = some t) (x : ρ) :
    t.count x + released x ops = s.count x + acquired x ops := by
  unfold released acquired
  induction ops generalizing s with
  | nil =>
    obtain rfl := Option.some.inj h
    rfl
  | cons op ops ih =>
    cases op with
    | acquire y =>
      have hrest := ih h
      rw [List.count_cons_of_ne (by simp), hrest, Multiset.count_cons, List.count_cons]
      by_cases hxy : x = y
      · rw [if_pos hxy, if_pos (by simp [hxy])]
        omega
      · rw [if_neg hxy, if_neg (by simp [Ne.symm hxy])]
        rfl
    | use y =>
      rw [hold] at h
      split_ifs at h
      rw [List.count_cons_of_ne (by simp), List.count_cons_of_ne (by simp)]
      exact ih h
    | release y =>
      rw [hold] at h
      split_ifs at h with hy
      have hrest := ih h
      have hacquired : List.count (Op.acquire x) (Op.release y :: ops) =
          List.count (Op.acquire x) ops := List.count_cons_of_ne (by simp)
      rw [hacquired, List.count_cons]
      by_cases hxy : x = y
      · subst hxy
        have hpos := Multiset.count_pos.mpr hy
        rw [Multiset.count_erase_self] at hrest
        rw [if_pos (by simp)]
        omega
      · rw [Multiset.count_erase_of_ne hxy] at hrest
        rw [if_neg (by simp [Ne.symm hxy])]
        exact hrest

/-- **The end of the ledger.** A list that is allowed from the start and after which nothing is
held is disciplined.

**Proof sketch.** Before a use or a release the resource is held, so it has been acquired more often
than released (`count_of_hold`). -/
theorem disciplined_of_hold {ops : List (Op ρ)} (h : hold 0 ops = some 0) : Disciplined ops := by
  constructor
  · intro x
    have hcount := count_of_hold h x
    rwa [Multiset.count_zero, Nat.zero_add, Nat.zero_add] at hcount
  · rintro before op after x rfl hop
    rw [hold_append, Option.bind_eq_some_iff] at h
    obtain ⟨t, hbefore, hafter⟩ := h
    have hmem : x ∈ t := by
      rcases hop with rfl | rfl
      · rw [hold] at hafter
        split_ifs at hafter with hmem
        exact hmem
      · rw [hold] at hafter
        split_ifs at hafter with hmem
        exact hmem
    have hpos := Multiset.count_pos.mpr hmem
    have hcount := count_of_hold hbefore x
    rw [Multiset.count_zero] at hcount
    omega

end Lifetime

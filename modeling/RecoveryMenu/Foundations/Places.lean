import Mathlib.Algebra.BigOperators.Group.List.Basic
import Mathlib.Algebra.Order.Group.Multiset

set_option relaxedAutoImplicit false
set_option autoImplicit false

/-!
# Tokens and the places they are in

A token, such as the right to access a buffer, is handed from one place to another: a thread, a
message, a request. Where the places are the members of a list, the tokens in it are a multiset,
so that a token in two places counts twice, and no token is duplicated while the multiset of all
places has no duplicates.

## Main definitions

* `Places.tokens`: the tokens in the members of a list.

## Main results

* `Places.tokens_append`, `Places.tokens_erase`, `Places.tokens_set`: the tokens when a place is
  added, is taken out, or hands its tokens on.
* `Places.tokens_filter_le`: the tokens when places are left out.
-/

namespace Places

variable {σ τ : Type*} (f : σ → Multiset τ)

/-- The tokens in the members of a list, where `f` are those in one of them. -/
def tokens (l : List σ) : Multiset τ := (l.map f).sum

/-- No places, no tokens. -/
@[simp] theorem tokens_nil : tokens f [] = 0 := rfl

/-- The tokens of a first place. -/
@[simp] theorem tokens_cons (a : σ) (l : List σ) : tokens f (a :: l) = f a + tokens f l := by
  unfold tokens
  rw [List.map_cons, List.sum_cons]

/-- The tokens of more places. -/
@[simp] theorem tokens_append (l l' : List σ) :
    tokens f (l ++ l') = tokens f l + tokens f l' := by
  unfold tokens
  rw [List.map_append, List.sum_append]

/-- A place is taken out. -/
theorem tokens_erase [BEq σ] [LawfulBEq σ] {l : List σ} {a : σ} (h : a ∈ l) :
    f a + tokens f (l.erase a) = tokens f l := by
  rw [← tokens_cons]
  exact ((List.perm_cons_erase h).map f).sum_eq.symm

/-- A place changes, and with it its tokens.

**Proof sketch.** Induction on the list. -/
theorem tokens_set {l : List σ} {i : ℕ} {a : σ} (h : l[i]? = some a) (b : σ) :
    f a + tokens f (l.set i b) = f b + tokens f l := by
  induction l generalizing i with
  | nil => cases h
  | cons c l ih =>
    cases i with
    | zero =>
      obtain rfl := Option.some.inj h
      rw [List.set_cons_zero, tokens_cons, tokens_cons, add_left_comm]
    | succ i =>
      rw [List.set_cons_succ, tokens_cons, tokens_cons, add_left_comm, ih h, add_left_comm]

/-- Some places are left out.

**Proof sketch.** Induction on the list. -/
theorem tokens_filter_le (p : σ → Bool) (l : List σ) :
    tokens f (l.filter p) ≤ tokens f l := by
  induction l with
  | nil => exact le_rfl
  | cons a l ih =>
    rw [List.filter_cons, tokens_cons]
    split_ifs
    · rw [tokens_cons]
      exact Multiset.add_le_add_left ih
    · exact ih.trans (Multiset.le_add_left _ _)

end Places

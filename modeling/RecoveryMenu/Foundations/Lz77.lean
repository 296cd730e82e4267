import Mathlib.Algebra.BigOperators.Group.List.Basic
import Mathlib.Algebra.GroupWithZero.Nat
import Mathlib.Algebra.Group.Nat.Defs
import Mathlib.Data.Nat.Notation
import Mathlib.Order.Nat

set_option relaxedAutoImplicit false
set_option autoImplicit false

/-!
# Literals and copies

A text in which what has been there before is not written again, but copied from a distance
behind the end. A copy can be longer than its distance: it then repeats what it has just written.

What a copy gives is stated by what it satisfies, each element as the one at the distance before
it, and not by how it is made. The elements are of any type.

## Main definitions

* `Lz77.Token`, `Lz77.Token.Extends`: what a token makes of a text.
* `Lz77.Expands`: what a list of them does.

## Main results

* `Lz77.extends_copy_succ`: a copy is made element by element.
* `Lz77.Token.Extends.unique`: there is one text.
* `Lz77.Expands.length_eq`: how long it is.
-/

namespace Lz77

universe u

variable {α : Type u}

/-- Elements as they are, or so many of them from a distance behind the end. -/
inductive Token (α : Type u)
  | literals (elems : List α)
  | copy (length distance : ℕ)
  deriving DecidableEq, Repr

/-- The number of elements of a token. -/
def Token.size : Token α → ℕ
  | .literals elems => elems.length
  | .copy length _ => length

/-- The text `v` begins with `u`, and behind it each element is the one at the distance before
it. -/
structure Repeats (distance : ℕ) (u v : List α) : Prop where
  begins : u <+: v
  again : ∀ i, u.length ≤ i → i < v.length → v[i]? = v[i - distance]?

/-- The text `u` becomes `v` with a token. The distance of a copy has to be in the text. -/
def Token.Extends (u v : List α) : Token α → Prop
  | .literals elems => v = u ++ elems
  | .copy length distance =>
    0 < distance ∧ distance ≤ u.length ∧ v.length = u.length + length ∧ Repeats distance u v

/-- The text `u` becomes `v` with one token after another. -/
def Expands : List (Token α) → List α → List α → Prop
  | [], u, v => u = v
  | token :: tokens, u, w => ∃ v, token.Extends u v ∧ Expands tokens v w

/-! ## A copy -/

/-- No element is copied. -/
lemma extends_copy_zero {distance : ℕ} {u v : List α} :
    (Token.copy 0 distance).Extends u v ↔ 0 < distance ∧ distance ≤ u.length ∧ u = v := by
  constructor
  · rintro ⟨hpos, hle, hlength, hrepeats⟩
    exact ⟨hpos, hle, hrepeats.begins.eq_of_length hlength.symm⟩
  · rintro ⟨hpos, hle, rfl⟩
    exact ⟨hpos, hle, rfl, List.prefix_rfl, fun i hi hlt => absurd hlt (by omega)⟩

/-- The first element of a copy is in the text, and the others are copied behind it. -/
theorem extends_copy_succ {length distance : ℕ} {u v : List α} (hpos : 0 < distance)
    (hin : distance ≤ u.length) {x : α} (hx : u[u.length - distance]? = some x) :
    (Token.copy (length + 1) distance).Extends u v ↔
      (Token.copy length distance).Extends (u ++ [x]) v := by
  have hle : u.length - distance < u.length := by omega
  constructor
  · rintro ⟨-, -, hlength, ⟨w, rfl⟩, hagain⟩
    -- the text is not at its end, so there is a first element, and it is the one at the distance
    rw [List.length_append] at hlength
    obtain ⟨y, w, rfl⟩ := List.exists_cons_of_length_pos (show 0 < w.length by omega)
    have hfirst := hagain u.length le_rfl (by simp)
    rw [List.getElem?_append_right le_rfl, List.getElem?_append_left hle, hx] at hfirst
    obtain rfl : y = x := by simpa using hfirst
    refine ⟨hpos, ?_, ?_, ⟨w, by simp⟩, fun i hi hlt => hagain i ?_ hlt⟩
    · simpa using Nat.le_succ_of_le hin
    · simp only [List.length_append, List.length_cons, List.length_nil] at hlength ⊢
      omega
    · simp only [List.length_append, List.length_cons, List.length_nil] at hi
      omega
  · rintro ⟨-, -, hlength, ⟨w, rfl⟩, hagain⟩
    simp only [List.length_append, List.length_cons, List.length_nil] at hlength hagain
    refine ⟨hpos, hin, ?_, ⟨x :: w, by simp⟩, fun i hi hlt => ?_⟩
    · simp only [List.length_append, List.length_cons, List.length_nil]
      omega
    · rcases Nat.lt_or_eq_of_le hi with hbehind | rfl
      · refine hagain i hbehind ?_
        rw [List.length_append, List.length_append] at hlt
        exact hlt
      · simp [List.getElem?_append_left hle, hx]

/-! ## Texts -/

/-- A token makes one text.

**Proof sketch.** A copy is made element by element, and each of them is one that is already
there. -/
theorem Token.Extends.unique {token : Token α} {u v v' : List α} (h : token.Extends u v)
    (h' : token.Extends u v') : v = v' := by
  cases token with
  | literals elems => exact (show v = u ++ elems from h).trans (show v' = u ++ elems from h').symm
  | copy length distance =>
    induction length generalizing u with
    | zero => exact (extends_copy_zero.mp h).2.2.symm.trans (extends_copy_zero.mp h').2.2
    | succ length ih =>
      obtain ⟨hpos, hle, -⟩ := id h
      have hx := List.getElem?_eq_getElem (show u.length - distance < u.length by omega)
      exact ih ((extends_copy_succ hpos hle hx).mp h) ((extends_copy_succ hpos hle hx).mp h')

/-- A token makes the text longer by its size. -/
lemma Token.Extends.length_eq {token : Token α} {u v : List α} (h : token.Extends u v) :
    v.length = u.length + token.size := by
  cases token with
  | literals elems =>
    obtain rfl : v = u ++ elems := h
    exact List.length_append
  | copy length distance => exact h.2.2.1

/-- A list of tokens makes it longer by all their sizes. -/
theorem Expands.length_eq {tokens : List (Token α)} {u v : List α} (h : Expands tokens u v) :
    v.length = u.length + (tokens.map Token.size).sum := by
  induction tokens generalizing u with
  | nil =>
    obtain rfl : u = v := h
    rfl
  | cons token tokens ih =>
    obtain ⟨w, hw, h⟩ := h
    rw [ih h, hw.length_eq, List.map_cons, List.sum_cons]
    omega

end Lz77

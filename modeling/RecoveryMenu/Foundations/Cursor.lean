import Mathlib.Data.List.Count
import Mathlib.Data.Nat.Basic

set_option relaxedAutoImplicit false
set_option autoImplicit false

/-!
# Cursors

A cursor goes round `n` places. One button moves it to the next place, behind the last one back to
the first; another one chooses the place it is at, where it stays.

## Main definitions

* `Cursor.Press`: the two buttons.
* `Cursor.place`, `Cursor.choices`: where the cursor is behind some presses, and what they choose.

## Main results

* `Cursor.place_eq`: only the number of moves matters.
* `Cursor.lt_of_mem_choices`: no choice is outside the places.
-/

namespace Cursor

/-- A press of one of the two buttons. -/
inductive Press
  | next
  | choose
  deriving DecidableEq, Repr

variable (n : ℕ)

/-- Where the cursor is after a press. -/
def move (i : ℕ) : Press → ℕ
  | .next => if i + 1 = n then 0 else i + 1
  | .choose => i

/-- Where the cursor is after some presses. -/
def place (i : ℕ) (ps : List Press) : ℕ := ps.foldl (move n) i

/-- The places that some presses choose. -/
def choices (i : ℕ) : List Press → List ℕ
  | [] => []
  | .next :: ps => choices (move n i .next) ps
  | .choose :: ps => i :: choices i ps

variable {n}

/-- The cursor stays at one of the places. -/
lemma move_lt {i : ℕ} (hi : i < n) (p : Press) : move n i p < n := by
  cases p with
  | next =>
    unfold move
    dsimp only
    split_ifs <;> omega
  | choose => exact hi

/-- **The place.** The cursor has gone as many places on as it was moved.

**Proof sketch.** Induction on the presses. -/
theorem place_eq {i : ℕ} (hi : i < n) (ps : List Press) :
    place n i ps = (i + ps.count .next) % n := by
  induction ps generalizing i with
  | nil =>
    rw [List.count_nil, Nat.add_zero, Nat.mod_eq_of_lt hi]
    rfl
  | cons p ps ih =>
    have hplace : place n i (p :: ps) = place n (move n i p) ps := rfl
    rw [hplace, ih (move_lt hi p)]
    cases p with
    | next =>
      rw [List.count_cons_self, move]
      split_ifs with hlast
      · -- behind the last place comes the first one
        rw [show i + (ps.count Press.next + 1) = 0 + ps.count Press.next + n by omega,
          Nat.add_mod_right]
      · congr 1
        omega
    | choose =>
      rw [List.count_cons_of_ne (by decide)]
      rfl

/-- A choice is one of the places.

**Proof sketch.** Induction on the presses. -/
theorem lt_of_mem_choices {i j : ℕ} (hi : i < n) {ps : List Press} (hj : j ∈ choices n i ps) :
    j < n := by
  induction ps generalizing i with
  | nil => cases hj
  | cons p ps ih =>
    cases p with
    | next => exact ih (move_lt hi .next) hj
    | choose =>
      rcases List.mem_cons.mp hj with rfl | hj
      · exact hi
      · exact ih hi hj

end Cursor

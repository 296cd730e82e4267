import Mathlib.Algebra.Order.Ring.Nat
import Mathlib.Algebra.Ring.Defs
import Mathlib.Algebra.Ring.Int.Defs
import Mathlib.Tactic.Linarith
import Mathlib.Tactic.LinearCombination
import Mathlib.Tactic.Ring

set_option relaxedAutoImplicit false
set_option autoImplicit false

/-!
# Digits, carries and remainders

Numbers as lists of digits to a base, the lowest digit first. What is done to such a number from
its low end takes a carry along, and what is done from its high end takes a remainder along: one
step has an equation about the one digit, and the whole walk has the same equation about the
number.

The digits, the carries and the remainders are of any type, with what they count for. A borrow
counts for a negative number.

## Main definitions

* `Positional.value`: what a list of digits counts for.
* `Positional.carried`: a walk from the low end.
* `Positional.divided`: a walk from the high end.

## Main results

* `Positional.value_append`, `Positional.value_add`, `Positional.value_mul`, `Positional.value_lt`.
* `Positional.value_carried_of_good`, `Positional.value_carried`: the equation of a walk from the
  low end.
* `Positional.value_divided`: the equation of a walk from the high end.
-/

namespace Positional

universe u v w x

variable {R : Type u} [CommRing R] {α : Type v} {δ : Type w} {σ : Type x}

/-- What a list of digits counts for to the base `β`. -/
def value (β : R) (f : α → R) (digits : List α) : R :=
  digits.foldr (fun digit rest => f digit + β * rest) 0

/-- From the low end: each digit becomes another one, and a carry goes on to the next. -/
def carried (step : α → σ → δ × σ) : List α → σ → List δ × σ
  | [], s => ([], s)
  | digit :: digits, s =>
    let (out, s) := step digit s
    let (outs, s) := carried step digits s
    (out :: outs, s)

/-- From the high end: each digit comes behind the remainder of those above, and leaves a digit
and a remainder. -/
def divided (step : α → σ → δ × σ) (s : σ) (digits : List α) : List δ × σ :=
  digits.foldr (fun digit (outs, s) => let (out, s) := step digit s; (out :: outs, s)) ([], s)

/-! ## Values -/

section Values

variable (β : R) (f g : α → R)

@[simp] theorem value_nil : value β f [] = 0 := rfl

@[simp] theorem value_cons (digit : α) (digits : List α) :
    value β f (digit :: digits) = f digit + β * value β f digits := rfl

/-- The digits behind others count for that much more. -/
theorem value_append (xs ys : List α) :
    value β f (xs ++ ys) = value β f xs + β ^ xs.length * value β f ys := by
  induction xs with
  | nil => simp
  | cons x xs ih =>
    rw [List.cons_append, value_cons, value_cons, ih, List.length_cons, pow_succ]
    ring

/-- The digits can be mapped first. -/
theorem value_map (m : δ → α) (digits : List δ) :
    value β f (digits.map m) = value β (fun digit => f (m digit)) digits := by
  induction digits with
  | nil => rfl
  | cons digit digits ih => rw [List.map_cons, value_cons, value_cons, ih]

/-- Digit by digit, two numbers are added. -/
theorem value_add (digits : List α) :
    value β (fun digit => f digit + g digit) digits = value β f digits + value β g digits := by
  induction digits with
  | nil => simp
  | cons digit digits ih =>
    rw [value_cons, value_cons, value_cons, ih]
    ring

/-- Digit by digit, a number is multiplied. -/
theorem value_mul (c : R) (digits : List α) :
    value β (fun digit => f digit * c) digits = value β f digits * c := by
  induction digits with
  | nil => simp
  | cons digit digits ih =>
    rw [value_cons, value_cons, ih]
    ring

/-- The first of two numbers next to each other. -/
theorem value_zip_left (xs : List α) (ys : List δ) (h : xs.length = ys.length) :
    value β (fun p => f p.1) (xs.zip ys) = value β f xs := by
  rw [← value_map β f Prod.fst, List.map_fst_zip h.le]

/-- The second of two numbers next to each other. -/
theorem value_zip_right (xs : List δ) (ys : List α) (h : xs.length = ys.length) :
    value β (fun p => f p.2) (xs.zip ys) = value β f ys := by
  rw [← value_map β f Prod.snd, List.map_snd_zip h.ge]

/-- Zeros count for nothing. -/
theorem value_eq_zero {digits : List α} (h : ∀ digit ∈ digits, f digit = 0) :
    value β f digits = 0 := by
  induction digits with
  | nil => rfl
  | cons digit digits ih =>
    rw [value_cons, h digit List.mem_cons_self,
      ih fun x hx => h x (List.mem_cons_of_mem digit hx), mul_zero, add_zero]

end Values

/-- A number is not negative, and below the power of the base that its length gives. -/
theorem value_lt {β : ℤ} {f : α → ℤ} (h : ∀ digit, 0 ≤ f digit ∧ f digit < β)
    (digits : List α) : 0 ≤ value β f digits ∧ value β f digits < β ^ digits.length := by
  induction digits with
  | nil => simp
  | cons digit digits ih =>
    obtain ⟨h₀, hlt⟩ := h digit
    obtain ⟨ih₀, ih⟩ := ih
    rw [value_cons, List.length_cons, pow_succ]
    constructor
    · nlinarith
    · nlinarith

/-! ## Walks from the low end -/

variable {step : α → σ → δ × σ}

/-- A walk leaves as many digits as it finds. -/
@[simp] theorem length_carried (digits : List α) (s : σ) :
    (carried step digits s).1.length = digits.length := by
  induction digits generalizing s with
  | nil => rfl
  | cons digit digits ih => simp only [carried, List.length_cons, ih]

/-- **Carries.** If each step leaves as much in the digit and in the carry as it found, the walk
leaves as much in the number and in the last carry.

**Proof sketch.** Induction on the digits, and the equation of the lowest one. -/
theorem value_carried_of_good (β : R) (f : α → R) (out : δ → R) (carry : σ → R) (good : σ → Prop)
    (hstep : ∀ digit s, good s → good (step digit s).2 ∧
      out (step digit s).1 + β * carry (step digit s).2 = f digit + carry s)
    (digits : List α) {s : σ} (hs : good s) :
    good (carried step digits s).2 ∧
      value β out (carried step digits s).1 +
          β ^ digits.length * carry (carried step digits s).2 =
        value β f digits + carry s := by
  induction digits generalizing s with
  | nil => exact ⟨hs, by simp [carried]⟩
  | cons digit digits ih =>
    obtain ⟨hgood, hlow⟩ := hstep digit s hs
    obtain ⟨hgood', hhigh⟩ := ih hgood
    refine ⟨hgood', ?_⟩
    simp only [carried, value_cons, List.length_cons, pow_succ]
    linear_combination hlow + β * hhigh

/-- The same, where all carries are good. -/
theorem value_carried (β : R) (f : α → R) (out : δ → R) (carry : σ → R)
    (hstep : ∀ digit s,
      out (step digit s).1 + β * carry (step digit s).2 = f digit + carry s)
    (digits : List α) (s : σ) :
    value β out (carried step digits s).1 +
        β ^ digits.length * carry (carried step digits s).2 =
      value β f digits + carry s :=
  (value_carried_of_good β f out carry (fun _ => True)
    (fun digit s _ => ⟨trivial, hstep digit s⟩) digits trivial).2

/-! ## Walks from the high end -/

@[simp] theorem divided_nil (s : σ) : divided step s [] = ([], s) := rfl

/-- The lowest digit comes last. -/
@[simp] theorem divided_cons (s : σ) (digit : α) (digits : List α) :
    divided step s (digit :: digits) =
      ((step digit (divided step s digits).2).1 :: (divided step s digits).1,
        (step digit (divided step s digits).2).2) := rfl

/-- **Remainders.** If each step divides the remainder with the digit behind it, the walk divides
the first remainder with all the digits behind it.

**Proof sketch.** Induction on the digits, the highest ones first. -/
theorem value_divided (β d : R) (f : α → R) (out : δ → R) (rest : σ → R) (good : σ → Prop)
    (hstep : ∀ digit s, good s → good (step digit s).2 ∧
      out (step digit s).1 * d + rest (step digit s).2 = rest s * β + f digit)
    (digits : List α) {s : σ} (hs : good s) :
    good (divided step s digits).2 ∧
      value β out (divided step s digits).1 * d + rest (divided step s digits).2 =
        rest s * β ^ digits.length + value β f digits := by
  induction digits with
  | nil => simpa using hs
  | cons digit digits ih =>
    obtain ⟨hgood, hhigh⟩ := ih
    obtain ⟨hgood', hlow⟩ := hstep digit _ hgood
    refine ⟨hgood', ?_⟩
    rw [divided_cons, value_cons, value_cons, List.length_cons, pow_succ]
    linear_combination hlow + β * hhigh

end Positional

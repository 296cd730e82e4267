import Mathlib.Data.Int.ModEq
import Mathlib.Tactic.Ring

set_option relaxedAutoImplicit false
set_option autoImplicit false

/-!
# Powers, digit by digit

A power of a number modulo another one, where the digits of the exponent come from the high end:
what has been reached is raised to the power of the base of the digits, and multiplied by the
power that the next digit stands for. What a stretch of such a run does depends on the number of
digits and on the number they are only, and stretches are put together like digits are.

## Main definitions

* `PowerLoop.Extends`: what a stretch of the run does.

## Main results

* `PowerLoop.Extends.trans`: two stretches, one behind the other.
* `PowerLoop.Extends.modEq_pow`: a run from one.
-/

namespace PowerLoop

/-- From `x` the run goes to `y` with digits that have `n` values and are the number `d`. -/
def Extends (m b : ℤ) (n d : ℕ) (x y : ℤ) : Prop := y ≡ x ^ n * b ^ d [ZMOD m]

variable {m b x y z : ℤ} {n d n' d' : ℕ}

/-- Without digits nothing happens. -/
theorem Extends.refl (m b x : ℤ) : Extends m b 1 0 x x := by
  rw [Extends, pow_one, pow_zero, mul_one]

/-- Two stretches, one behind the other: the digits of the first count for more. -/
theorem Extends.trans (h : Extends m b n d x y) (h' : Extends m b n' d' y z) :
    Extends m b (n * n') (d * n' + d') x z := by
  have hpow : x ^ (n * n') * b ^ (d * n' + d') = (x ^ n * b ^ d) ^ n' * b ^ d' := by ring
  rw [Extends, hpow]
  exact Int.ModEq.trans h' ((Int.ModEq.pow n' h).mul_right _)

/-- A bit that is not set: a square. -/
theorem Extends.of_square (h : y ≡ x * x [ZMOD m]) : Extends m b 2 0 x y := by
  rw [Extends, pow_zero, mul_one, pow_two]
  exact h

/-- A bit that is set: a square, and a product with a number that stands for the base. -/
theorem Extends.of_square_mul {c : ℤ} (hc : c ≡ b [ZMOD m]) (h : y ≡ x * x * c [ZMOD m]) :
    Extends m b 2 1 x y := by
  rw [Extends, pow_one, pow_two]
  exact h.trans (hc.mul_left _)

/-- A run from one reaches the power. -/
theorem Extends.modEq_pow (h : Extends m b n d 1 y) : y ≡ b ^ d [ZMOD m] := by
  rw [Extends, one_pow, one_mul] at h
  exact h

end PowerLoop

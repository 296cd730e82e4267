import Mathlib.Algebra.Order.Ring.Nat
import Mathlib.Data.Int.ModEq
import Mathlib.Tactic.Linarith
import Mathlib.Tactic.LinearCombination
import Mathlib.Tactic.Push
import Mathlib.Tactic.Ring
import Mathlib.Tactic.Zify

set_option relaxedAutoImplicit false
set_option autoImplicit false

/-!
# Division by a reciprocal

The quotient of a number by a divisor that does not change, one digit at a time and without a
division: the digit is estimated from the product with a reciprocal of the divisor, taken once,
and put right from the remainder that goes with the estimate.

The digits have the base `β`. The divisor `d` has the size of `M`, that is `M / 2 ≤ d < M`, and
`M` is `β * w`. With `w = 1` the divisor is one digit, and with `w = β` it is two.

## Main definitions

* `Reciprocal.IsReciprocal`: the reciprocal of a divisor.
* `Reciprocal.fixUp`: what is done to the estimate and its remainder.

## Main results

* `Reciprocal.isReciprocal_iff`: the reciprocal is a quotient.
* `Reciprocal.estimate_lt`: the estimate is a digit.
* `Reciprocal.fixUp_eq`: what comes out are the quotient and the remainder.
-/

namespace Reciprocal

/-- The reciprocal of `d`: the quotient of `β * M - 1` by `d`, less the `β` it begins with. -/
structure IsReciprocal (β M d v : ℕ) : Prop where
  lt : (β + v) * d < β * M
  le : β * M ≤ (β + v + 1) * d

/-- The estimate `q` with its remainder `r`, a number below `M`: first it is made smaller by one
where the remainder is too big to be one, and then bigger by one where the remainder still has
the divisor in it. -/
def fixUp (M d : ℕ) (tooBig : Prop) [Decidable tooBig] (q r : ℕ) : ℕ × ℕ :=
  let (q, r) := if tooBig then (q - 1, (r + d) % M) else (q, r)
  if d ≤ r then (q + 1, r - d) else (q, r)

variable {β M w d v h l t n q₁ q₀ : ℕ}

/-- There is one reciprocal, and this is it. -/
theorem isReciprocal_iff (hβ : 0 < β) (hd : d < M) (hpos : 0 < d) :
    IsReciprocal β M d v ↔ v = (β * M - 1) / d - β := by
  have hβM : β * d < β * M := Nat.mul_lt_mul_of_pos_left hd hβ
  have hle : β ≤ (β * M - 1) / d := (Nat.le_div_iff_mul_le hpos).mpr (by omega)
  have hmod := Nat.div_add_mod (β * M - 1) d
  have hlt := Nat.mod_lt (β * M - 1) hpos
  constructor
  · rintro ⟨hlt, hle'⟩
    have hquot : (β * M - 1) / d = β + v := Nat.div_eq_of_lt_le (by omega) (by omega)
    omega
  · intro hv
    have hquot : (β * M - 1) / d = β + v := by omega
    rw [hquot, Nat.mul_comm] at hmod
    refine ⟨by omega, ?_⟩
    rw [Nat.add_mul, Nat.one_mul]
    omega

/-! ## The estimate -/

/-- A divisor with its reciprocal. -/
structure Divisor (β w d v : ℕ) : Prop where
  two_le : 2 ≤ β
  width_pos : 0 < w
  lt : d < β * w
  le : β * w ≤ 2 * d
  isReciprocal : IsReciprocal β (β * w) d v

/-- A number of the digits `h` and `l` and the rest `t`, of which the quotient is a digit, and
what the product of the reciprocal with `h` has in its two digits when the number is added. -/
structure Estimate (β w d v h l t q₁ q₀ : ℕ) : Prop where
  digit_lt : l < β
  rest_lt : t < w
  lt : h * (β * w) + l * w + t < β * d
  low_lt : q₀ < β
  eq : q₁ * β + q₀ = (β + v) * h + l

/-- What the remainder of the estimate is, `β` times of it.

**Proof sketch.** The estimate is the upper digit of a product with the reciprocal, and the
reciprocal times the divisor misses `β * M` by as much as the first term says. -/
lemma Estimate.remainder_eq (he : Estimate β w d v h l t q₁ q₀) :
    (β : ℤ) * ((h * (β * w) + l * w + t : ℤ) - (q₁ + 1) * d) =
      h * (β * (β * w) - (β + v) * d) + l * (β * w - d) + β * t + q₀ * d - β * d := by
  have heq : (q₁ * β + q₀ : ℤ) = (β + v) * h + l := by exact_mod_cast he.eq
  linear_combination (-(d : ℤ)) * heq

/-- It is not so small that adding the divisor once is not enough, and where it is negative, it
is big as a number below `M`.

**Proof sketch.** All terms are positive but the last one. -/
lemma Estimate.lower (hd : Divisor β w d v) (he : Estimate β w d v h l t q₁ q₀) :
    (-d : ℤ) ≤ (h * (β * w) + l * w + t : ℤ) - (q₁ + 1) * d ∧
      (q₀ * w - β * w : ℤ) < (h * (β * w) + l * w + t : ℤ) - (q₁ + 1) * d := by
  have hβ : (0 : ℤ) < β := by exact_mod_cast (show 0 < β by have := hd.two_le; omega)
  have hlt : (d : ℤ) < β * w := by exact_mod_cast hd.lt
  have hq₀ : (q₀ : ℤ) < β := by exact_mod_cast he.low_lt
  have hk : (0 : ℤ) < β * (β * w) - (β + v) * d := by
    have := hd.isReciprocal.lt
    zify at this
    linarith
  have heq := he.remainder_eq
  generalize (h * (β * w) + l * w + t : ℤ) - (q₁ + 1) * d = r at *
  have hge : (q₀ * d - β * d : ℤ) ≤ β * r := by
    have h₁ : (0 : ℤ) ≤ h * (β * (β * w) - (β + v) * d) := by positivity
    have h₂ : (0 : ℤ) ≤ l * (β * w - d) := mul_nonneg (by positivity) (by linarith)
    have h₃ : (0 : ℤ) ≤ β * t := by positivity
    linarith
  constructor
  · have : (0 : ℤ) ≤ q₀ * d := by positivity
    nlinarith
  · have : (0 : ℤ) < (β - q₀) * (β * w - d) := mul_pos (by linarith) (by linarith)
    nlinarith

/-- And it is below the bigger one of two bounds: there is room for the divisor, or it is small
as a number below `M`.

**Proof sketch.** The upper digits of a number of which the quotient is a digit bound each
other, so the terms are the biggest where the lower digits are. -/
lemma Estimate.upper (hd : Divisor β w d v) (he : Estimate β w d v h l t q₁ q₀) :
    (h * (β * w) + l * w + t : ℤ) - (q₁ + 1) * d < max (β * w - d : ℤ) (q₀ * w) := by
  have hβ : (0 : ℤ) < β := by exact_mod_cast (show 0 < β by have := hd.two_le; omega)
  have hw : (0 : ℤ) < w := by exact_mod_cast hd.width_pos
  have hlt : (d : ℤ) < β * w := by exact_mod_cast hd.lt
  have hl : (l : ℤ) ≤ β - 1 := by have := he.digit_lt; omega
  have ht : (t : ℤ) ≤ w - 1 := by have := he.rest_lt; omega
  have hnum : (h * (β * w) + l * w + t : ℤ) ≤ β * d - 1 := by
    have := he.lt
    zify at this
    linarith
  have hbig : (β * w : ℤ) ≤ β * d := by
    have h₁ := hd.le
    have h₂ := hd.two_le
    zify at h₁ h₂
    nlinarith
  have hrecip₁ : (0 : ℤ) < β * (β * w) - (β + v) * d := by
    have := hd.isReciprocal.lt
    zify at this
    linarith
  have hrecip₂ : (β * (β * w) - (β + v) * d : ℤ) ≤ d := by
    have := hd.isReciprocal.le
    zify at this
    linarith
  have hrecip₃ : (β * (β * w) - (β + v) * d : ℤ) ≤ β * (β * w - d) := by
    have : (0 : ℤ) ≤ v * d := by positivity
    linarith
  have heq := he.remainder_eq
  generalize (h * (β * w) + l * w + t : ℤ) - (q₁ + 1) * d = r at *
  generalize (β * (β * w) - (β + v) * d : ℤ) = k at *
  generalize hM : (β * w : ℤ) = M at *
  have hbound : β * M * r ≤ β * (M - d) ^ 2 + q₀ * d * M - β * M := by
    have h₁ : M * h * k ≤ (β * d - 1 - l * w - t) * k :=
      mul_le_mul_of_nonneg_right (by linarith) hrecip₁.le
    have h₂ : (l : ℤ) * (M * (M - d) - k * w) ≤ (β - 1) * (M * (M - d) - k * w) := by
      refine mul_le_mul_of_nonneg_right hl ?_
      have : k * w ≤ β * (M - d) * w := mul_le_mul_of_nonneg_right hrecip₃ hw.le
      nlinarith
    have h₃ : (t : ℤ) * (β * M - k) ≤ (w - 1) * (β * M - k) := by
      refine mul_le_mul_of_nonneg_right ht ?_
      nlinarith
    have h₄ : k * (β * d - M) ≤ d * (β * d - M) :=
      mul_le_mul_of_nonneg_right hrecip₂ (by linarith)
    have heqM : β * M * r = M * h * k + l * (M * (M - d)) + β * t * M + q₀ * d * M - β * d * M := by
      linear_combination M * heq
    nlinarith
  by_contra hge
  rw [not_lt, max_le_iff] at hge
  have h₁ : β * (M - d) * (M - d) ≤ β * (M - d) * r :=
    mul_le_mul_of_nonneg_left hge.1 (mul_nonneg hβ.le (by linarith))
  have h₂ : (q₀ * d : ℤ) * M ≤ β * d * r := by
    rw [← hM, show (q₀ * d * (β * w) : ℤ) = β * d * (q₀ * w) by ring]
    exact mul_le_mul_of_nonneg_left hge.2 (by positivity)
  have hpos : 0 < β * M := mul_pos hβ (by linarith)
  linarith

/-! ## The digit -/

/-- The estimate is a digit.

**Proof sketch.** By the first lower bound it is at most the quotient. -/
theorem Estimate.estimate_lt (hd : Divisor β w d v) (he : Estimate β w d v h l t q₁ q₀) :
    q₁ < β := by
  have hlower := (he.lower hd).1
  have hlt := he.lt
  zify at hlt
  have hpos : (0 : ℤ) < d := by
    have h₁ := hd.le
    have h₂ := Nat.mul_pos (show 0 < β by have := hd.two_le; omega) hd.width_pos
    omega
  zify
  by_contra hge
  nlinarith

/-- A number below `M` that is another one from `-M` to `M` modulo it. -/
lemma eq_of_modEq {r δ : ℤ} {M : ℕ} (hr₀ : 0 ≤ r) (hr : r < M) (hlow : -M ≤ δ) (hhigh : δ < M)
    (hmod : r ≡ δ [ZMOD M]) : r = if δ < 0 then δ + M else δ := by
  rw [← Int.emod_eq_of_lt hr₀ hr, hmod]
  split_ifs with hneg
  · rw [← Int.add_emod_right, Int.emod_eq_of_lt (by omega) (by omega)]
  · exact Int.emod_eq_of_lt (by omega) hhigh

/-- **Division by a reciprocal.** The estimate made bigger by one, with its remainder as a number
below `M`, becomes the quotient and the remainder, whichever way the comparison with the lower
digit of the estimate goes where the two are equal.

**Proof sketch.** The remainder lies between `-d` and `M`. If it is negative, it is big as a
number below `M` (`Estimate.lower`), and adding the divisor makes it a remainder. If it is not
and is still found to be too big, there is room for the divisor (`Estimate.upper`): it is added
and taken off again. If it is not found to be, the divisor is in it at most once more. -/
theorem fixUp_eq (hd : Divisor β w d v) (he : Estimate β w d v h l t q₁ q₀) {tooBig : Prop}
    [Decidable tooBig] {r : ℕ} (hr : r < β * w)
    (hmod : (r : ℤ) ≡ (h * (β * w) + l * w + t : ℕ) - (q₁ + 1) * d [ZMOD (β * w : ℕ)])
    (hbig : q₀ * w < r → tooBig) (hsmall : tooBig → q₀ * w ≤ r) :
    fixUp (β * w) d tooBig (q₁ + 1) r =
      ((h * (β * w) + l * w + t) / d, (h * (β * w) + l * w + t) % d) := by
  have hlower := he.lower hd
  have hupper := he.upper hd
  have hM := hd.le
  have hlt := hd.lt
  have hlow : q₀ * w < β * w := Nat.mul_lt_mul_of_pos_right he.low_lt hd.width_pos
  rw [show (h * (β * w) + l * w + t : ℤ) = (h * (β * w) + l * w + t : ℕ) by push_cast; rfl]
    at hlower hupper
  rw [show (β * w : ℤ) = (β * w : ℕ) by push_cast; rfl] at hlower hupper
  rw [show (q₀ * w : ℤ) = (q₀ * w : ℕ) by push_cast; rfl] at hlower hupper
  generalize h * (β * w) + l * w + t = n at *
  generalize β * w = M at *
  generalize q₀ * w = low at *
  -- what the quotient and the remainder are told by
  have hquot {q r' : ℕ} (hr' : r' < d) (heq : (n : ℤ) - q * d = r') :
      (q, r') = (n / d, n % d) := by
    have heq : n = r' + d * q := by
      zify
      linarith
    rw [heq, Nat.add_mul_div_left _ _ (by omega), Nat.div_eq_of_lt hr', Nat.zero_add,
      Nat.add_mul_mod_self_left, Nat.mod_eq_of_lt hr']
  have hstep (q : ℕ) : (n : ℤ) - (q + 1 : ℕ) * d = n - q * d - d := by
    push_cast
    ring
  have hδ : (n : ℤ) - (q₁ + 1) * d = n - q₁ * d - d := by ring
  rw [hδ] at hlower hupper hmod
  have hr' := eq_of_modEq (by omega) (by omega) (by omega)
    (hupper.trans_le (max_le (by omega) (by omega))) hmod
  split_ifs at hr' with hneg
  · -- a negative remainder is found to be too big
    have hwrap : (r + d) % M = r + d - M := by
      rw [Nat.mod_eq_sub_mod (by omega), Nat.mod_eq_of_lt (by omega)]
    simp only [fixUp, if_pos (hbig (by omega)), hwrap, Nat.add_sub_cancel]
    rw [if_neg (by omega)]
    exact hquot (by omega) (by omega)
  · by_cases hfound : tooBig
    · -- there is room for the divisor
      have hroom : r + d < M := by
        have := hsmall hfound
        rcases lt_max_iff.mp hupper with h | h
        · omega
        · omega
      simp only [fixUp, if_pos hfound, Nat.mod_eq_of_lt hroom, Nat.add_sub_cancel]
      rw [if_pos (by omega)]
      exact hquot (by omega) (by rw [hstep]; omega)
    · simp only [fixUp, if_neg hfound]
      split_ifs with hle
      · exact hquot (by omega) (by rw [hstep, hstep]; omega)
      · exact hquot (by omega) (by rw [hstep]; omega)

/-! ## More digits

A divisor `e + P * d` of which `d` are the upper digits and `e` what is below them, and a number
`l + P * h` of which `h` are the digits that `d` is compared with.
-/

section MoreDigits

variable {P β d e h l q r : ℤ}

/-- The quotient of the upper digits is that of the numbers, or too big by one.

**Proof sketch.** What the digit takes off below the upper digits is less than the divisor. -/
theorem remainder_of_upper (hP : 0 < P) (hβ : β ≤ d) (he : 0 ≤ e ∧ e < P) (hl : 0 ≤ l ∧ l < P)
    (hq : 0 ≤ q ∧ q < β) (hr : 0 ≤ r ∧ r < d) (hdiv : h = q * d + r) :
    -(e + P * d) < l + P * h - q * (e + P * d) ∧ l + P * h - q * (e + P * d) < e + P * d := by
  obtain ⟨he₀, he⟩ := he
  obtain ⟨hl₀, hl⟩ := hl
  obtain ⟨hq₀, hq⟩ := hq
  obtain ⟨hr₀, hr⟩ := hr
  have hsub : l + P * h - q * (e + P * d) = l + P * r - q * e := by
    rw [hdiv]
    ring
  have hqe₀ : 0 ≤ q * e := mul_nonneg hq₀ he₀
  have hqe : q * e < P * d :=
    calc q * e ≤ q * P := mul_le_mul_of_nonneg_left he.le hq₀
      _ < β * P := mul_lt_mul_of_pos_right hq hP
      _ = P * β := mul_comm β P
      _ ≤ P * d := mul_le_mul_of_nonneg_left hβ hP.le
  have hPr₀ : 0 ≤ P * r := mul_nonneg hP.le hr₀
  have hPr : P * r ≤ P * (d - 1) := mul_le_mul_of_nonneg_left (by linarith) hP.le
  rw [hsub]
  constructor
  · linarith
  · linarith

/-- Where the upper digits begin with the divisor, the quotient is the highest digit. -/
theorem remainder_of_max (hP : 0 < P) (hβ : β ≤ d) (he : 0 ≤ e ∧ e < P) (hl : 0 ≤ l ∧ l < P)
    (hbelow : l + P * h < β * (e + P * d)) (hmax : β * d ≤ h) :
    0 ≤ l + P * h - (β - 1) * (e + P * d) ∧ l + P * h - (β - 1) * (e + P * d) < e + P * d := by
  obtain ⟨he₀, he⟩ := he
  obtain ⟨hl₀, hl⟩ := hl
  have hPh : P * (β * d) ≤ P * h := mul_le_mul_of_nonneg_left hmax hP.le
  have hPβ : P * β ≤ P * d := mul_le_mul_of_nonneg_left hβ hP.le
  constructor
  · rcases lt_or_ge β 1 with hβ₁ | hβ₁
    · nlinarith
    · have hβe : (β - 1) * e ≤ (β - 1) * P := mul_le_mul_of_nonneg_left he.le (by linarith)
      linarith
  · linarith

end MoreDigits

end Reciprocal

import Mathlib
import RecoveryMenu.Foundations.ShiftRegister

set_option relaxedAutoImplicit false
set_option autoImplicit false

/-!
# Shift registers as polynomial division

Read a message as a polynomial over the two-element field, its first bit as the highest
coefficient, and a register of `w` bits as a polynomial of a degree below `w`, its lowest place as
the highest coefficient. A shift is then a multiplication with `X`, and the polynomial that is added
when a `1` leaves the register is one step of a long division. So the register behind a message is
the remainder of a division, and two messages of one length leave the same register iff the
generator divides their difference.

## Main definitions

* `ShiftRegister.registerPolynomial`: the polynomial of a register.
* `ShiftRegister.messagePolynomial`: the polynomial of a message.
* `ShiftRegister.generator`: the divisor.

## Main results

* `ShiftRegister.registerPolynomial_feed`: the register behind a message is a remainder.
* `ShiftRegister.feed_eq_feed_iff`: when two messages leave the same register.
-/

namespace ShiftRegister

open Polynomial

variable {w : ℕ}

/-- The polynomial of a register. The lowest place is the highest coefficient. -/
noncomputable def registerPolynomial (r : BitVec w) : (ZMod 2)[X] :=
  ∑ i ∈ Finset.range w, if r.getLsbD i then X ^ (w - 1 - i) else 0

/-- The polynomial of a message. The first bit is the highest coefficient. -/
noncomputable def messagePolynomial : List Bool → (ZMod 2)[X]
  | [] => 0
  | b :: bits => (if b then X ^ bits.length else 0) + messagePolynomial bits

/-- The divisor that belongs to the polynomial of a register. -/
noncomputable def generator (poly : BitVec w) : (ZMod 2)[X] := X ^ w + registerPolynomial poly

/-! ## The polynomial of a register -/

/-- An empty register. -/
@[simp] theorem registerPolynomial_zero : registerPolynomial 0#w = 0 := by
  simp [registerPolynomial]

/-- Registers are added without a carry. -/
theorem registerPolynomial_xor (r s : BitVec w) :
    registerPolynomial (r ^^^ s) = registerPolynomial r + registerPolynomial s := by
  rw [registerPolynomial, registerPolynomial, registerPolynomial, ← Finset.sum_add_distrib]
  apply Finset.sum_congr rfl
  intro i _
  rw [BitVec.getLsbD_xor]
  cases r.getLsbD i <;> cases s.getLsbD i <;> simp [CharTwo.add_self_eq_zero]

/-- A register has a degree below its width. -/
theorem degree_registerPolynomial_lt (r : BitVec w) : (registerPolynomial r).degree < w := by
  rw [← mem_degreeLT]
  apply Submodule.sum_mem
  intro i hi
  rw [Finset.mem_range] at hi
  split_ifs
  · rw [mem_degreeLT, degree_X_pow]
    exact_mod_cast (by omega : w - 1 - i < w)
  · exact Submodule.zero_mem _

/-- The coefficients are the bits, from the highest on. -/
theorem coeff_registerPolynomial (r : BitVec w) {i : ℕ} (hi : i < w) :
    (registerPolynomial r).coeff (w - 1 - i) = if r.getLsbD i then 1 else 0 := by
  rw [registerPolynomial, finsetSum_coeff, Finset.sum_eq_single i]
  · split_ifs <;> simp
  · intro j hj hne
    rw [Finset.mem_range] at hj
    have hplace : w - 1 - i ≠ w - 1 - j := by omega
    split_ifs
    · rw [coeff_X_pow, if_neg hplace]
    · rw [coeff_zero]
  · intro h
    exact absurd (Finset.mem_range.mpr hi) h

/-- A register can be read back from its polynomial. -/
theorem registerPolynomial_injective :
    Function.Injective (registerPolynomial : BitVec w → (ZMod 2)[X]) := by
  intro r s h
  apply BitVec.eq_of_getLsbD_eq
  intro i hi
  have hcoeff := congrArg (fun p => p.coeff (w - 1 - i)) h
  simp only [coeff_registerPolynomial _ hi] at hcoeff
  cases hr : r.getLsbD i <;> cases hs : s.getLsbD i <;> simp_all

/-- One bit in the lowest place. -/
theorem X_mul_registerPolynomial_ofBits (hw : 0 < w) (b : Bool) :
    X * registerPolynomial (ofBits w [b]) = if b then X ^ w else 0 := by
  rw [registerPolynomial, Finset.sum_eq_single 0]
  · rw [getLsbD_ofBits, List.getD_cons_zero, decide_eq_true hw, Bool.true_and, mul_ite, mul_zero,
      ← pow_succ', Nat.sub_zero, Nat.sub_add_cancel hw]
  · intro i _ hne
    have hbit : ([b].getD i false) = false := by
      rw [List.getD_eq_getElem?_getD, List.getElem?_eq_none (by simp; omega), Option.getD_none]
    rw [getLsbD_ofBits, hbit, Bool.and_false, if_neg Bool.false_ne_true]
  · intro h
    exact absurd (Finset.mem_range.mpr hw) h

/-! ## Division -/

variable (poly : BitVec w)

/-- The divisor is monic. -/
theorem generator_monic : (generator poly).Monic :=
  monic_X_pow_add (degree_registerPolynomial_lt poly)

/-- The degree of the divisor is the width. -/
theorem degree_generator : (generator poly).degree = w := by
  rw [generator, degree_add_eq_left_of_degree_lt, degree_X_pow]
  rw [degree_X_pow]
  exact degree_registerPolynomial_lt poly

/-- The places above the lowest one are moved to the next higher coefficients. -/
theorem X_mul_registerPolynomial (r : BitVec w) :
    X * registerPolynomial r =
      registerPolynomial (r >>> 1) + if r.getLsbD 0 then X ^ w else 0 := by
  cases w with
  | zero => simp [registerPolynomial, BitVec.getLsbD_of_ge]
  | succ n =>
    have hlast : r.getLsbD (1 + n) = false := BitVec.getLsbD_of_ge r _ (by omega)
    rw [registerPolynomial, registerPolynomial, Finset.sum_range_succ', Finset.sum_range_succ,
      mul_add, Finset.mul_sum]
    simp only [BitVec.getLsbD_ushiftRight, hlast]
    have hmoved : ∀ i ∈ Finset.range n,
        (X * if r.getLsbD (i + 1) then X ^ (n + 1 - 1 - (i + 1)) else 0 : (ZMod 2)[X]) =
          if r.getLsbD (1 + i) then X ^ (n + 1 - 1 - i) else 0 := by
      intro i hi
      rw [Finset.mem_range] at hi
      rw [Nat.add_comm 1 i, mul_ite, mul_zero, ← pow_succ']
      congr 2
      omega
    rw [Finset.sum_congr rfl hmoved]
    cases r.getLsbD 0 <;> simp [pow_succ']

/-- **One step of the division.** A shift multiplies with `X`, and takes the divisor away when the
degree has become too high. -/
theorem registerPolynomial_shift (r : BitVec w) :
    registerPolynomial (shift poly r) =
      X * registerPolynomial r - if r.getLsbD 0 then generator poly else 0 := by
  rw [shift, registerPolynomial_xor, X_mul_registerPolynomial]
  cases r.getLsbD 0
  · simp only [Bool.false_eq_true, if_false, BitVec.ofNat_eq_ofNat, registerPolynomial_zero,
      add_zero, sub_zero]
  · have htwo := CharTwo.add_self_eq_zero (registerPolynomial poly)
    simp only [if_true, generator]
    linear_combination htwo

/-- One bit is fed in.

**Proof sketch.** The bit is added to the highest coefficient, so it gets the degree `w` in the
product with `X`. -/
theorem generator_dvd_step (hw : 0 < w) (r : BitVec w) (b : Bool) :
    generator poly ∣ X * registerPolynomial r + (if b then X ^ w else 0) -
      registerPolynomial (shift poly (r ^^^ ofBits w [b])) := by
  rw [registerPolynomial_shift, registerPolynomial_xor, mul_add,
    X_mul_registerPolynomial_ofBits hw, sub_sub_cancel]
  split_ifs
  · exact dvd_rfl
  · exact dvd_zero _

/-- A message is fed in: the register stays the same modulo the divisor.

**Proof sketch.** Induction on the message. The part of the difference that the first bit is
responsible for is a multiple of what it is after that bit. -/
theorem generator_dvd_feed (hw : 0 < w) (r : BitVec w) (bits : List Bool) :
    generator poly ∣ X ^ bits.length * registerPolynomial r + X ^ w * messagePolynomial bits -
      registerPolynomial (feed poly r bits) := by
  induction bits generalizing r with
  | nil => simp [feed, messagePolynomial]
  | cons b bits ih =>
    have hstep := generator_dvd_step poly hw r b
    have hrest := ih (shift poly (r ^^^ ofBits w [b]))
    have hsum := dvd_add (dvd_mul_of_dvd_right hstep (X ^ bits.length)) hrest
    have hbit : (X ^ bits.length * if b then X ^ w else 0 : (ZMod 2)[X]) =
        X ^ w * if b then X ^ bits.length else 0 := by
      cases b
      · simp
      · simp [mul_comm]
    convert hsum using 1
    rw [messagePolynomial, List.length_cons, pow_succ]
    show _ - registerPolynomial (feed poly (shift poly (r ^^^ ofBits w [b])) bits) = _
    linear_combination -hbit

/-- **The register is a remainder.** The register behind a message is the remainder of the message,
moved up by the width, with what the register held at the start added to its first bits. -/
theorem registerPolynomial_feed (hw : 0 < w) (r : BitVec w) (bits : List Bool) :
    registerPolynomial (feed poly r bits) =
      (X ^ bits.length * registerPolynomial r + X ^ w * messagePolynomial bits) %ₘ
        generator poly := by
  have hmonic := generator_monic poly
  rw [modByMonic_eq_of_dvd_sub hmonic (generator_dvd_feed poly hw r bits), eq_comm,
    modByMonic_eq_self_iff hmonic, degree_generator]
  exact degree_registerPolynomial_lt _

/-! ## Messages that cannot be told apart -/

variable {poly}

/-- A register that has a highest bit has a place for it. -/
theorem width_pos_of_msb (hpoly : poly.msb = true) : 0 < w := by
  by_contra h
  obtain rfl : w = 0 := by omega
  simp [BitVec.msb_eq_getLsbD_last] at hpoly

/-- With the highest bit set in the polynomial of the register, `X` does not divide the divisor. -/
theorem isCoprime_generator_X_pow (hpoly : poly.msb = true) (n : ℕ) :
    IsCoprime (generator poly) (X ^ n) := by
  have hw := width_pos_of_msb hpoly
  have hconst : (generator poly).coeff 0 = 1 := by
    have hcoeff := coeff_registerPolynomial poly (i := w - 1) (by omega)
    rw [Nat.sub_self, ← BitVec.msb_eq_getLsbD_last, hpoly, if_pos rfl] at hcoeff
    rw [generator, coeff_add, hcoeff, coeff_X_pow, if_neg (by omega), zero_add]
  apply IsCoprime.pow_right
  have hdvd : (X : (ZMod 2)[X]) ∣ generator poly - 1 := by
    rw [X_dvd_iff, coeff_sub, hconst, coeff_one_zero, sub_self]
  obtain ⟨q, hq⟩ := hdvd
  exact ⟨1, -q, by linear_combination hq⟩

/-- **Messages that leave the same register.** Two messages of one length leave the same register
iff the divisor divides their difference.

**Proof sketch.** The remainders are the same iff the divisor divides the difference of the
dividends, and the power of `X` in it has no factor in common with the divisor. -/
theorem feed_eq_feed_iff (hpoly : poly.msb = true) (r : BitVec w) {a b : List Bool}
    (hlength : a.length = b.length) :
    feed poly r a = feed poly r b ↔
      generator poly ∣ messagePolynomial a - messagePolynomial b := by
  have hw := width_pos_of_msb hpoly
  have hdividends :
      X ^ a.length * registerPolynomial r + X ^ w * messagePolynomial a -
          (X ^ b.length * registerPolynomial r + X ^ w * messagePolynomial b) =
        X ^ w * (messagePolynomial a - messagePolynomial b) := by
    rw [hlength]
    ring
  have hmonic := generator_monic poly
  rw [← registerPolynomial_injective.eq_iff, registerPolynomial_feed poly hw,
    registerPolynomial_feed poly hw]
  constructor
  · intro h
    have hzero : (X ^ w * (messagePolynomial a - messagePolynomial b)) %ₘ generator poly = 0 := by
      rw [← hdividends, sub_modByMonic, h, sub_self]
    have hdvd := (modByMonic_eq_zero_iff_dvd hmonic).mp hzero
    exact (isCoprime_generator_X_pow hpoly w).dvd_of_dvd_mul_left hdvd
  · intro h
    apply modByMonic_eq_of_dvd_sub hmonic
    rw [hdividends]
    exact dvd_mul_of_dvd_right h _

end ShiftRegister

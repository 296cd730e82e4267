import Mathlib
import RecoveryMenu.Foundations.ShiftRegister.Remainder

set_option relaxedAutoImplicit false
set_option autoImplicit false

/-!
# The period of a shift register

A register stands for its polynomial modulo the generator, and a shift multiplies by the class of
`X` there. So the number of shifts after which a register comes back is the order of that class,
and it decides which pairs of flipped bits go unnoticed. The order can be computed with registers:
a product is a run of shifts, and a power is a run of squares.

## Main definitions

* `ShiftRegister.residue`: the class of a register.
* `ShiftRegister.mul`: the product of two registers.
* `ShiftRegister.shiftPower`: a power of `X`, from the binary digits of the exponent.
* `ShiftRegister.DifferAt`: two messages differ in two given bits only.

## Main results

* `ShiftRegister.residue_mul`: the product of registers is the product of their classes.
* `ShiftRegister.residue_shiftPower`: the computed power is the power.
* `ShiftRegister.generator_dvd_X_pow_add_iff`: when the generator divides a sum of two powers.
* `ShiftRegister.feed_eq_feed_iff_of_differAt`: when two flipped bits go unnoticed.
-/

namespace ShiftRegister

open Polynomial

variable {w : ℕ}

/-- The class of a register modulo the divisor. -/
noncomputable def residue (poly r : BitVec w) : AdjoinRoot (generator poly) :=
  AdjoinRoot.mk _ (registerPolynomial r)

/-- The class of `X`. -/
noncomputable abbrev root (poly : BitVec w) : AdjoinRoot (generator poly) :=
  AdjoinRoot.root (generator poly)

/-- The register of the constant polynomial `1`. -/
def one (w : ℕ) : BitVec w := BitVec.twoPow w (w - 1)

/-- The first turns of a product: the coefficients of `a` from the highest one on. -/
def mulUpTo (poly a b : BitVec w) : ℕ → BitVec w
  | 0 => 0
  | n + 1 => shift poly (mulUpTo poly a b n) ^^^ if a.getLsbD n then b else 0

/-- The product of two registers. -/
def mul (poly a b : BitVec w) : BitVec w := mulUpTo poly a b w

/-- The number that binary digits stand for, the highest one first. -/
def digitValue (digits : List Bool) : ℕ := digits.foldl (fun n d => 2 * n + d.toNat) 0

/-- The register of a power of `X`. -/
def shiftPower (poly : BitVec w) (digits : List Bool) : BitVec w :=
  digits.foldl (fun r d => if d then shift poly (mul poly r r) else mul poly r r) (one w)

/-- Two messages of one length differ in two bits and nowhere else. -/
def DifferAt {α : Type} (a b : List α) (i j : ℕ) : Prop :=
  a.length = b.length ∧ i < j ∧ j < a.length ∧ ∀ k, a[k]? ≠ b[k]? ↔ k = i ∨ k = j

/-! ## Residues -/

section Residue

variable (poly : BitVec w)

/-- A sum of registers. -/
theorem residue_xor (r s : BitVec w) :
    residue poly (r ^^^ s) = residue poly r + residue poly s := by
  rw [residue, registerPolynomial_xor, map_add]
  rfl

/-- An empty register. -/
@[simp] theorem residue_zero : residue poly 0#w = 0 := by
  rw [residue, registerPolynomial_zero, map_zero]

/-- A shift multiplies by the class of `X`. -/
theorem residue_shift (r : BitVec w) :
    residue poly (shift poly r) = root poly * residue poly r := by
  rw [residue, registerPolynomial_shift, map_sub, map_mul, AdjoinRoot.mk_X]
  cases r.getLsbD 0
  · rw [if_neg Bool.false_ne_true, map_zero, sub_zero]
    rfl
  · rw [if_pos rfl, AdjoinRoot.mk_self, sub_zero]
    rfl

/-- The register of the constant `1`. -/
theorem residue_one (hw : 0 < w) : residue poly (one w) = 1 := by
  have hone : registerPolynomial (one w) = 1 := by
    rw [registerPolynomial, Finset.sum_eq_single (w - 1)]
    · simp [one, hw]
    · intro i hi hne
      rw [Finset.mem_range] at hi
      have hbit : (one w).getLsbD i = false := by
        rw [one, BitVec.getLsbD_twoPow, decide_eq_false hne.symm, Bool.and_false]
      rw [hbit, if_neg Bool.false_ne_true]
    · intro h
      exact absurd (Finset.mem_range.mpr (by omega)) h
  rw [residue, hone, map_one]

/-- A register can be read back from its class.

**Proof sketch.** The polynomials of registers have a degree below that of the divisor. -/
theorem residue_injective : Function.Injective (residue poly) := by
  intro r s h
  apply registerPolynomial_injective
  have hmonic := generator_monic poly
  have hdvd := AdjoinRoot.mk_eq_mk.mp h
  have hmod := modByMonic_eq_of_dvd_sub hmonic hdvd
  rwa [(modByMonic_eq_self_iff hmonic).mpr, (modByMonic_eq_self_iff hmonic).mpr] at hmod
  · rw [degree_generator]
    exact degree_registerPolynomial_lt s
  · rw [degree_generator]
    exact degree_registerPolynomial_lt r

/-- The first turns of a product.

**Proof sketch.** Induction on the number of turns: each one multiplies what is there by `X` and
adds the next coefficient. -/
theorem residue_mulUpTo (a b : BitVec w) (n : ℕ) :
    residue poly (mulUpTo poly a b n) =
      (∑ i ∈ Finset.range n, if a.getLsbD i then root poly ^ (n - 1 - i) else 0) *
        residue poly b := by
  induction n with
  | zero => simp [mulUpTo]
  | succ n ih =>
    have hmoved : ∀ i ∈ Finset.range n,
        root poly * (if a.getLsbD i then root poly ^ (n - 1 - i) else 0) =
          if a.getLsbD i then root poly ^ (n + 1 - 1 - i) else 0 := by
      intro i hi
      rw [Finset.mem_range] at hi
      rw [mul_ite, mul_zero, ← pow_succ', show n - 1 - i + 1 = n + 1 - 1 - i by omega]
    have hlast : residue poly (if a.getLsbD n then b else 0) =
        (if a.getLsbD n then root poly ^ (n + 1 - 1 - n) else 0) * residue poly b := by
      cases a.getLsbD n <;> simp
    rw [mulUpTo, residue_xor, residue_shift, ih, hlast, ← mul_assoc, Finset.mul_sum,
      Finset.sum_congr rfl hmoved, Finset.sum_range_succ, add_mul]

/-- **Products.** The product of two registers is the product of their classes. -/
theorem residue_mul (a b : BitVec w) :
    residue poly (mul poly a b) = residue poly a * residue poly b := by
  have hclass : residue poly a =
      ∑ i ∈ Finset.range w, if a.getLsbD i then root poly ^ (w - 1 - i) else 0 := by
    rw [residue, registerPolynomial, map_sum]
    apply Finset.sum_congr rfl
    intro i _
    cases a.getLsbD i
    · simp
    · simp [AdjoinRoot.mk_X]
  rw [mul, residue_mulUpTo, ← hclass]

/-- **Powers.** The computed power of `X` is the power of its class.

**Proof sketch.** Induction on the digits, from the last one. -/
theorem residue_shiftPower (hw : 0 < w) (digits : List Bool) :
    residue poly (shiftPower poly digits) = root poly ^ digitValue digits := by
  induction digits using List.reverseRecOn with
  | nil => simpa [shiftPower, digitValue] using residue_one poly hw
  | append_singleton digits d ih =>
    rw [shiftPower, digitValue, List.foldl_append, List.foldl_append, ← shiftPower, ← digitValue,
      List.foldl_cons, List.foldl_nil, List.foldl_cons, List.foldl_nil]
    cases d
    · rw [if_neg Bool.false_ne_true, residue_mul, ih, ← pow_add, Bool.toNat_false, add_zero,
        two_mul]
    · rw [if_pos rfl, residue_shift, residue_mul, ih, ← pow_add, ← pow_succ', Bool.toNat_true,
        two_mul]

/-- A computed power is one iff the register is that of the constant `1`. -/
theorem root_pow_eq_one_iff (hw : 0 < w) (digits : List Bool) :
    root poly ^ digitValue digits = 1 ↔ shiftPower poly digits = one w := by
  rw [← residue_shiftPower poly hw, ← residue_one poly hw]
  exact (residue_injective poly).eq_iff

end Residue

/-! ## Two flipped bits -/

/-- The difference of two messages, place by place.

**Proof sketch.** Induction on the messages. -/
theorem messagePolynomial_sub {a b : List Bool} (hlength : a.length = b.length) :
    messagePolynomial a - messagePolynomial b =
      ∑ k ∈ Finset.range a.length, if a[k]? ≠ b[k]? then X ^ (a.length - 1 - k) else 0 := by
  induction a generalizing b with
  | nil =>
    obtain rfl := List.length_eq_zero_iff.mp hlength.symm
    simp [messagePolynomial]
  | cons x a ih =>
    cases b with
    | nil => simp at hlength
    | cons y b =>
      rw [List.length_cons, List.length_cons, Nat.add_right_cancel_iff] at hlength
      have hrest := ih hlength
      have hlater : ∀ k ∈ Finset.range a.length,
          (if (x :: a)[k + 1]? ≠ (y :: b)[k + 1]? then
              X ^ ((x :: a).length - 1 - (k + 1)) else 0 : (ZMod 2)[X]) =
            if a[k]? ≠ b[k]? then X ^ (a.length - 1 - k) else 0 := by
        intro k _
        rw [List.getElem?_cons_succ, List.getElem?_cons_succ, List.length_cons,
          show a.length + 1 - 1 - (k + 1) = a.length - 1 - k by omega]
      have hfirst : (if x then X ^ a.length else 0) - (if y then X ^ a.length else 0) =
          (if (x :: a)[0]? ≠ (y :: b)[0]? then X ^ a.length else 0 : (ZMod 2)[X]) := by
        cases x <;> cases y <;> simp [CharTwo.neg_eq]
      rw [List.length_cons] at hlater ⊢
      rw [Finset.sum_range_succ', Finset.sum_congr rfl hlater, ← hrest, Nat.add_sub_cancel,
        Nat.sub_zero, ← hfirst, messagePolynomial, messagePolynomial, hlength]
      ring

/-- The terms that belong to two places. -/
theorem sum_pair_of_differ {n i j : ℕ} {α : Type} [DecidableEq α] {a b : List α}
    (f : ℕ → (ZMod 2)[X]) (hi : i < n) (hj : j < n) (hij : i ≠ j)
    (h : ∀ k, a[k]? ≠ b[k]? ↔ k = i ∨ k = j) :
    ∑ k ∈ Finset.range n, (if a[k]? ≠ b[k]? then f k else 0) = f i + f j := by
  have hsub : ({i, j} : Finset ℕ) ⊆ Finset.range n := by
    intro k hk
    rw [Finset.mem_insert, Finset.mem_singleton] at hk
    rw [Finset.mem_range]
    omega
  rw [← Finset.sum_subset hsub, Finset.sum_pair hij, if_pos ((h i).mpr (Or.inl rfl)),
    if_pos ((h j).mpr (Or.inr rfl))]
  intro k _ hk
  rw [Finset.mem_insert, Finset.mem_singleton] at hk
  rw [if_neg (mt (h k).mp hk)]

/-- The divisor divides no power of `X`. -/
theorem not_generator_dvd_X_pow {poly : BitVec w} (hpoly : poly.msb = true) (n : ℕ) :
    ¬ generator poly ∣ X ^ n := by
  intro h
  have hunit : IsUnit (generator poly) :=
    (isCoprime_generator_X_pow hpoly n).isUnit_of_dvd' dvd_rfl h
  have hdegree := degree_eq_zero_of_isUnit hunit
  rw [degree_generator] at hdegree
  have hw := width_pos_of_msb hpoly
  rw [Nat.cast_eq_zero] at hdegree
  omega

/-- The divisor divides the sum of two powers of `X` iff the order of the class of `X` divides the
distance of the exponents.

**Proof sketch.** The lower power of `X` has no factor in common with the divisor, and the other
factor is the difference of `X ^ (n - m)` and one. -/
theorem generator_dvd_X_pow_add_iff {poly : BitVec w} (hpoly : poly.msb = true) {m n : ℕ}
    (h : m ≤ n) : generator poly ∣ X ^ m + X ^ n ↔ orderOf (root poly) ∣ n - m := by
  have hcoprime := isCoprime_generator_X_pow hpoly m
  have hclass : generator poly ∣ X ^ (n - m) - 1 ↔ root poly ^ (n - m) = 1 := by
    rw [← AdjoinRoot.mk_eq_mk, map_pow, AdjoinRoot.mk_X, map_one]
  have hfactor : (X ^ m + X ^ n : (ZMod 2)[X]) = X ^ m * (X ^ (n - m) - 1) := by
    rw [CharTwo.sub_eq_add, mul_add, mul_one, ← pow_add, Nat.add_sub_cancel' h, add_comm]
  rw [orderOf_dvd_iff_pow_eq_one, ← hclass, hfactor]
  constructor
  · exact hcoprime.dvd_of_dvd_mul_left
  · exact fun hdvd => dvd_mul_of_dvd_right hdvd _

/-- **Two flipped bits.** Two messages that differ in two bits leave the same register iff the
order of the class of `X` divides the distance of the bits.

**Proof sketch.** The difference of the messages is a sum of two powers of `X`. -/
theorem feed_eq_feed_iff_of_differAt {poly : BitVec w} (hpoly : poly.msb = true) (r : BitVec w)
    {a b : List Bool} {i j : ℕ} (h : DifferAt a b i j) :
    feed poly r a = feed poly r b ↔ orderOf (root poly) ∣ j - i := by
  obtain ⟨hlength, hij, hj, hdiffer⟩ := h
  have hexponents : a.length - 1 - j ≤ a.length - 1 - i := by omega
  rw [feed_eq_feed_iff hpoly r hlength, messagePolynomial_sub hlength,
    sum_pair_of_differ _ (hij.trans hj) hj (Nat.ne_of_lt hij) hdiffer, add_comm,
    generator_dvd_X_pow_add_iff hpoly hexponents,
    show a.length - 1 - i - (a.length - 1 - j) = j - i by omega]

end ShiftRegister

import RecoveryMenu.Foundations.ShiftRegister.Order
import RecoveryMenu.Utils.Crc32.Burst

set_option relaxedAutoImplicit false
set_option autoImplicit false

/-!
# The checksum as a remainder (`ios_mcp/source/utils.c`)

The constant `0xedb88320` holds the coefficients of a polynomial of degree 32, the highest one in
the lowest bit. `crc32` divides by it: the checksum is the remainder of the data, with the seed
added to their first 32 bits. The class of `X` has the order `2 ^ 32 - 1`, which is the highest one
that it could have, so two flipped bits always change the checksum of less than 512 MiB.

## Main definitions

* `RecoveryMenu.Crc32.crcGenerator`: the divisor.

## Main results

* `RecoveryMenu.Crc32.crc32_eq_modByMonic`: the checksum is a remainder.
* `RecoveryMenu.Crc32.orderOf_root_poly`: the period of the register.
* `RecoveryMenu.Crc32.crc32_eq_crc32_iff_of_differAt`: when two flipped bits go unnoticed.

## References

* `ios_mcp/source/utils.c`, lines 205-221.
-/

namespace RecoveryMenu

namespace Crc32

open Polynomial ShiftRegister

/-- The divisor of `crc32`. -/
noncomputable def crcGenerator : (ZMod 2)[X] :=
  X ^ 32 + X ^ 26 + X ^ 23 + X ^ 22 + X ^ 16 + X ^ 12 + X ^ 11 + X ^ 10 + X ^ 8 + X ^ 7 + X ^ 5 +
    X ^ 4 + X ^ 2 + X + 1

/-! ## The remainder -/

/-- The coefficients in the constant of the inner loop. -/
lemma generator_poly : generator poly = crcGenerator := by
  rw [generator, registerPolynomial, crcGenerator]
  simp [Finset.sum_range_succ, poly]
  ring

/-- **The checksum is a remainder.** For every seed, `crc32` is the remainder of the data, moved up
by 32 bits, with the seed added to what would be its first 32 bits.

**Proof sketch.** The checksum is the register behind the bits, which is a remainder. -/
theorem crc32_eq_modByMonic (seed : UInt32) (data : List UInt8) :
    registerPolynomial (crc32 seed data).toBitVec =
      (X ^ (8 * data.length) * registerPolynomial seed.toBitVec +
        X ^ 32 * messagePolynomial (bits data)) %ₘ crcGenerator := by
  rw [toBitVec_crc32, registerPolynomial_feed poly (Nat.succ_pos 31), length_bits, generator_poly]

/-! ## The period -/

/-- The prime factors of the period. -/
def periodFactors : List ℕ := [3, 5, 17, 257, 65537]

/-- The binary digits of a number below `2 ^ 32`, the highest one first. -/
def digits (n : ℕ) : List Bool := (List.range 32).reverse.map n.testBit

/-- They are all of them. -/
lemma prod_periodFactors : periodFactors.prod = 2 ^ 32 - 1 := by decide

/-- They are prime. -/
lemma prime_of_mem_periodFactors {p : ℕ} (hp : p ∈ periodFactors) : p.Prime := by
  simp only [periodFactors, List.mem_cons, List.not_mem_nil, or_false] at hp
  rcases hp with rfl | rfl | rfl | rfl | rfl <;> norm_num

/-- After the period the register is back. -/
lemma root_pow_period : root poly ^ (2 ^ 32 - 1) = 1 := by
  have hdigits : digitValue (digits (2 ^ 32 - 1)) = 2 ^ 32 - 1 := by decide +kernel
  rw [← hdigits, root_pow_eq_one_iff poly (Nat.succ_pos 31)]
  decide +kernel

/-- It is not back any earlier. -/
lemma root_pow_ne_one {p : ℕ} (hp : p ∈ periodFactors) :
    root poly ^ ((2 ^ 32 - 1) / p) ≠ 1 := by
  have hdigits : ∀ q ∈ periodFactors,
      digitValue (digits ((2 ^ 32 - 1) / q)) = (2 ^ 32 - 1) / q ∧
        shiftPower poly (digits ((2 ^ 32 - 1) / q)) ≠ one 32 := by decide +kernel
  obtain ⟨hvalue, hne⟩ := hdigits p hp
  rw [← hvalue, ne_eq, root_pow_eq_one_iff poly (Nat.succ_pos 31)]
  exact hne

/-- **The period.** The class of `X` modulo the divisor has the order `2 ^ 32 - 1`.

**Proof sketch.** The power is one for this number, and for none of its quotients by a prime; these
powers are computed with squares of registers. -/
theorem orderOf_root_poly : orderOf (root poly) = 2 ^ 32 - 1 := by
  apply orderOf_eq_of_pow_and_pow_div_prime (by norm_num) root_pow_period
  intro p hp hdvd
  rw [← prod_periodFactors] at hdvd
  obtain ⟨q, hq, hpq⟩ := (Prime.dvd_prod_iff hp.prime).mp hdvd
  have heq : p = q := (Nat.prime_dvd_prime_iff_eq hp (prime_of_mem_periodFactors hq)).mp hpq
  exact root_pow_ne_one (heq ▸ hq)

/-- **Two flipped bits.** For every seed, two byte strings that differ in two bits only have the
same checksum iff the distance of the bits is a multiple of `2 ^ 32 - 1`. -/
theorem crc32_eq_crc32_iff_of_differAt {a b : List UInt8} {i j : ℕ}
    (h : DifferAt (bits a) (bits b) i j) (seed : UInt32) :
    crc32 seed a = crc32 seed b ↔ 2 ^ 32 - 1 ∣ j - i := by
  have hpoly : poly.msb = true := rfl
  rw [← UInt32.toBitVec_inj, toBitVec_crc32, toBitVec_crc32,
    feed_eq_feed_iff_of_differAt hpoly _ h, orderOf_root_poly]

/-- The lowest bit of a byte, or the one two places above it. -/
theorem crc32_eq_crc32_iff_of_differAt_byte : crc32 0 [0x01] ≠ crc32 0 [0x04] := by
  have hdiffer : DifferAt (bits [0x01]) (bits [0x04]) 0 2 := by
    refine ⟨rfl, by decide, by decide, fun k => ?_⟩
    rcases Nat.lt_or_ge k 8 with hlt | hge
    · have hbits : ∀ k < 8, (bits [0x01])[k]? ≠ (bits [0x04])[k]? ↔ k = 0 ∨ k = 2 := by decide
      exact hbits k hlt
    · rw [List.getElem?_eq_none hge, List.getElem?_eq_none hge]
      simp only [ne_eq, not_true_eq_false, false_iff]
      omega
  intro heq
  exact absurd ((crc32_eq_crc32_iff_of_differAt hdiffer 0).mp heq) (by decide)

/-! ## Single bits -/

/-- The bit of a byte string at a given place. -/
lemma getElem?_bits (data : List UInt8) (m : ℕ) {r : ℕ} (hr : r < 8) :
    (bits data)[8 * m + r]? = data[m]?.map fun b => b.toBitVec.getLsbD r := by
  have hlength (b : UInt8) : (bitsOfByte b).length = 8 := by simp [bitsOfByte]
  induction data generalizing m with
  | nil => simp [bits]
  | cons b data ih =>
    rw [bits, List.flatMap_cons]
    cases m with
    | zero =>
      rw [List.getElem?_append_left (by rw [hlength]; omega)]
      simp [bitsOfByte, hr]
    | succ m =>
      rw [List.getElem?_append_right (by rw [hlength]; omega), hlength,
        show 8 * (m + 1) + r - 8 = 8 * m + r by omega, List.getElem?_cons_succ]
      exact ih m

end Crc32

end RecoveryMenu

import RecoveryMenu.Options.LoadBoot1Payload.Slots
import RecoveryMenu.Utils.Crc32.Remainder

set_option relaxedAutoImplicit false
set_option autoImplicit false

/-!
# Damaged parameter blocks (`ios_mcp/source/options/LoadBoot1Payload.c`)

A block of boot1 parameters holds twelve bytes and their checksum. The checksum is stored with its
highest byte first, while the bits of the data are fed in from the lowest one of each byte, so the
bits of the block stand for powers of `X` in an order of their own. But they stand for different
powers, and two valid blocks differ by a multiple of the divisor. Such a multiple has three terms
at least, so a valid block is not valid any more when one or two of its 128 bits are wrong, those of
the checksum among them.

## Main definitions

* `RecoveryMenu.LoadBoot1Payload.exponent`: the power of `X` that a bit of a block stands for.
* `RecoveryMenu.LoadBoot1Payload.DamagedTo`: one or two bits are wrong.

## Main results

* `RecoveryMenu.LoadBoot1Payload.generator_dvd_of_valid`: the difference of two valid blocks.
* `RecoveryMenu.LoadBoot1Payload.damage_detected`: such a block is not valid any more.

## References

* `ios_mcp/source/options/LoadBoot1Payload.c`, lines 12-20 and 113-140.
* `ios_mcp/source/utils.c`, lines 205-221.
-/

namespace RecoveryMenu

namespace LoadBoot1Payload

open Crc32 Polynomial ShiftRegister

/-- The bit of the checksum that is stored at a place behind the data: the bytes are stored from the
highest one on. -/
def crcPlace (k : ℕ) : ℕ := 8 * (3 - k / 8) + k % 8

/-- The power of `X` that a bit of a block stands for. -/
def exponent (k : ℕ) : ℕ := if k < 96 then 127 - k else 31 - crcPlace (k - 96)

/-- One or two bits of a block are wrong, anywhere in its sixteen bytes. One of them is wrong if
the places are the same. -/
def DamagedTo (p q : Boot1Params) : Prop :=
  ∃ i j : ℕ, ∀ k : ℕ, (bits p.bytes)[k]? ≠ (bits q.bytes)[k]? ↔ k = i ∨ k = j

/-! ## The bits of a block -/

/-- The bits of the checksum, as they are stored. -/
lemma getElem?_bits_crc (p : Boot1Params) {k : ℕ} (hk : k < 32) :
    (bits p.bytes)[96 + k]? = some (p.crc.toBitVec.getLsbD (crcPlace k)) := by
  obtain ⟨words, hwords⟩ := p
  match words, hwords with
  | [a, b, c, d, e, f, g, h], hwords =>
    have hcrc : (⟨[a, b, c, d, e, f, g, h], hwords⟩ : Boot1Params).crc =
        g.toUInt32 <<< 16 ||| h.toUInt32 := rfl
    have hr : k % 8 < 8 := Nat.mod_lt _ (Nat.succ_pos 7)
    have hplace : 96 + k = 8 * (12 + k / 8) + k % 8 := by omega
    rw [hplace, getElem?_bits _ _ hr, hcrc, crcPlace]
    have hm : k / 8 = 0 ∨ k / 8 = 1 ∨ k / 8 = 2 ∨ k / 8 = 3 := by omega
    generalize k % 8 = r at hr
    rcases hm with hm | hm | hm | hm
    · have hlow : h.toBitVec.getLsbD (24 + r) = false := BitVec.getLsbD_of_ge _ _ (by omega)
      simp [hm, Boot1Params.bytes, hr, hlow, show 24 + r - 16 = 8 + r by omega,
        show 24 + r < 32 by omega, show ¬ 24 + r < 16 by omega]
    · simp [hm, Boot1Params.bytes, hr, show 16 + r < 32 by omega]
    · simp [hm, Boot1Params.bytes, hr, show 8 + r < 32 by omega, show 8 + r < 16 by omega]
    · simp [hm, Boot1Params.bytes, hr, show r < 32 by omega, show r < 16 by omega]

/-- The bits of the data. -/
lemma getElem?_bits_take (p : Boot1Params) {k : ℕ} (hk : k < 96) :
    (bits (p.bytes.take 0xc))[k]? = (bits p.bytes)[k]? := by
  have hr : k % 8 < 8 := Nat.mod_lt _ (Nat.succ_pos 7)
  rw [← Nat.div_add_mod k 8, getElem?_bits _ _ hr, getElem?_bits _ _ hr,
    List.getElem?_take_of_lt (by omega)]

/-- A block has 128 bits. -/
lemma length_bits_bytes (p : Boot1Params) : (bits p.bytes).length = 128 := by
  rw [length_bits, p.length_bytes]

/-- The stored bits of the checksum are all of its bits, in another order. -/
lemma crcPlace_crcPlace {k : ℕ} (hk : k < 32) : crcPlace k < 32 ∧ crcPlace (crcPlace k) = k := by
  unfold crcPlace
  omega

/-- Different bits stand for different powers. -/
lemma exponent_injOn {i j : ℕ} (hi : i < 128) (hj : j < 128) (h : exponent i = exponent j) :
    i = j := by
  unfold exponent crcPlace at h
  split_ifs at h <;> omega

/-- The powers are those below 128. -/
lemma exponent_lt (k : ℕ) : exponent k < 128 := by
  unfold exponent
  split_ifs <;> omega

/-! ## The difference of two blocks -/

/-- The difference of two blocks. -/
noncomputable def difference (p q : Boot1Params) : (ZMod 2)[X] :=
  X ^ 32 * (messagePolynomial (bits (p.bytes.take 0xc)) -
    messagePolynomial (bits (q.bytes.take 0xc))) + registerPolynomial (p.crc ^^^ q.crc).toBitVec

/-- The difference of the data. -/
lemma X_pow_mul_messagePolynomial_sub (p q : Boot1Params) :
    X ^ 32 * (messagePolynomial (bits (p.bytes.take 0xc)) -
        messagePolynomial (bits (q.bytes.take 0xc))) =
      ∑ k ∈ Finset.range 96,
        if (bits p.bytes)[k]? ≠ (bits q.bytes)[k]? then X ^ exponent k else 0 := by
  have hlength (p : Boot1Params) : (bits (p.bytes.take 0xc)).length = 96 := by
    rw [length_bits, List.length_take, p.length_bytes]
    rfl
  rw [messagePolynomial_sub ((hlength p).trans (hlength q).symm), hlength, Finset.mul_sum]
  apply Finset.sum_congr rfl
  intro k hk
  rw [Finset.mem_range] at hk
  rw [getElem?_bits_take p hk, getElem?_bits_take q hk, mul_ite, mul_zero, ← pow_add, exponent,
    if_pos hk, show 32 + (96 - 1 - k) = 127 - k by omega]

/-- The difference of the checksums. -/
lemma registerPolynomial_crc_xor (p q : Boot1Params) :
    registerPolynomial (p.crc ^^^ q.crc).toBitVec =
      ∑ k ∈ Finset.range 32,
        if (bits p.bytes)[96 + k]? ≠ (bits q.bytes)[96 + k]? then X ^ exponent (96 + k) else 0 := by
  rw [registerPolynomial]
  apply Finset.sum_nbij' crcPlace crcPlace
  · intro k hk
    rw [Finset.mem_range] at hk ⊢
    exact (crcPlace_crcPlace hk).1
  · intro k hk
    rw [Finset.mem_range] at hk ⊢
    exact (crcPlace_crcPlace hk).1
  · intro k hk
    exact (crcPlace_crcPlace (Finset.mem_range.mp hk)).2
  · intro k hk
    exact (crcPlace_crcPlace (Finset.mem_range.mp hk)).2
  · intro k hk
    obtain ⟨hlt, hback⟩ := crcPlace_crcPlace (Finset.mem_range.mp hk)
    have hexponent : exponent (96 + crcPlace k) = 32 - 1 - k := by
      rw [exponent, if_neg (by omega), Nat.add_sub_cancel_left, hback]
    rw [getElem?_bits_crc p hlt, getElem?_bits_crc q hlt, hback, hexponent, UInt32.toBitVec_xor,
      BitVec.getLsbD_xor]
    cases p.crc.toBitVec.getLsbD k <;> cases q.crc.toBitVec.getLsbD k <;> simp

/-- The difference, bit by bit. -/
lemma difference_eq_sum (p q : Boot1Params) :
    difference p q = ∑ k ∈ Finset.range 128,
      if (bits p.bytes)[k]? ≠ (bits q.bytes)[k]? then X ^ exponent k else 0 := by
  rw [difference, X_pow_mul_messagePolynomial_sub, registerPolynomial_crc_xor,
    show 128 = 96 + 32 from rfl, Finset.sum_range_add]

/-- **Valid blocks.** The divisor divides the difference of two valid blocks.

**Proof sketch.** The stored checksums differ like the computed ones, and these are remainders of
the data. -/
theorem generator_dvd_of_valid {p q : Boot1Params} (hp : p.Valid) (hq : q.Valid) :
    generator poly ∣ difference p q := by
  have hcrc : (p.crc ^^^ q.crc).toBitVec = (crc32 0xffffffff (p.bytes.take 0xc)).toBitVec ^^^
      (crc32 0xffffffff (q.bytes.take 0xc)).toBitVec := by
    rw [← hp, ← hq, UInt32.toBitVec_xor, UInt32.toBitVec_not, UInt32.toBitVec_not]
    apply BitVec.eq_of_getLsbD_eq
    intro i hi
    simp [hi]
  have hlength : (bits (p.bytes.take 0xc)).length = (bits (q.bytes.take 0xc)).length := by
    rw [length_bits, length_bits, List.length_take, List.length_take, p.length_bytes,
      q.length_bytes]
  have hdvd (p : Boot1Params) := generator_dvd_feed poly (Nat.succ_pos 31)
    (0xffffffff : UInt32).toBitVec (bits (p.bytes.take 0xc))
  have hsub := dvd_sub (hdvd p) (hdvd q)
  have htwo := CharTwo.add_self_eq_zero
    (registerPolynomial (crc32 0xffffffff (p.bytes.take 0xc)).toBitVec)
  rw [toBitVec_crc32] at htwo
  rw [hlength] at hsub
  rw [difference, hcrc, registerPolynomial_xor, toBitVec_crc32, toBitVec_crc32]
  convert hsub using 1
  linear_combination htwo

/-! ## Damage -/

/-- The divisor does not divide the sum of two powers below the 128th: their distance is less than
the period of the register. -/
lemma not_generator_dvd_X_pow_add {m n : ℕ} (hlt : m < n) (hn : n < 128) :
    ¬ generator poly ∣ X ^ m + X ^ n := by
  have hpoly : poly.msb = true := rfl
  rw [generator_dvd_X_pow_add_iff hpoly hlt.le, orderOf_root_poly]
  intro hdvd
  have hle := Nat.le_of_dvd (Nat.sub_pos_of_lt hlt) hdvd
  omega

/-- The divisor does not divide the difference of a block and a damaged one.

**Proof sketch.** The difference is a power of `X`, or a sum of two powers below the 128th. -/
lemma DamagedTo.not_generator_dvd {p q : Boot1Params} (h : DamagedTo p q) :
    ¬ generator poly ∣ difference p q := by
  obtain ⟨i, j, hdiffer⟩ := h
  have hpoly : poly.msb = true := rfl
  have hlt {k : ℕ} (hk : (bits p.bytes)[k]? ≠ (bits q.bytes)[k]?) : k < 128 := by
    by_contra hge
    apply hk
    rw [List.getElem?_eq_none, List.getElem?_eq_none]
    · rw [length_bits_bytes]
      omega
    · rw [length_bits_bytes]
      omega
  have hi : i < 128 := hlt ((hdiffer i).mpr (Or.inl rfl))
  have hj : j < 128 := hlt ((hdiffer j).mpr (Or.inr rfl))
  rw [difference_eq_sum]
  by_cases hij : i = j
  · subst hij
    rw [Finset.sum_eq_single i]
    · rw [if_pos ((hdiffer i).mpr (Or.inl rfl))]
      exact not_generator_dvd_X_pow hpoly _
    · intro k _ hk
      rw [if_neg (mt (hdiffer k).mp (by simpa using hk))]
    · intro hout
      exact absurd (Finset.mem_range.mpr hi) hout
  · have hne : exponent i ≠ exponent j := mt (exponent_injOn hi hj) hij
    rw [sum_pair_of_differ _ hi hj hij hdiffer]
    rcases Nat.lt_or_gt_of_ne hne with hlt | hlt
    · exact not_generator_dvd_X_pow_add hlt (exponent_lt j)
    · rw [add_comm]
      exact not_generator_dvd_X_pow_add hlt (exponent_lt i)

/-- **Damage is detected.** A valid block is not valid any more after one or two of its 128 bits
were flipped, in the data or in the checksum, and its slot is not taken, whatever the other block
is.

**Proof sketch.** The divisor divides the difference of two valid blocks, but not that of the block
and the damaged one. -/
theorem damage_detected {p q : Boot1Params} (hp : p.Valid) (h : DamagedTo p q) :
    ¬ q.Valid ∧ ∀ (blocks : Blocks) (slot : Fin 2), blocks.get slot = q →
      determineActiveBoot1Slot blocks ≠ some slot := by
  have hq : ¬ q.Valid := fun hq => h.not_generator_dvd (generator_dvd_of_valid hp hq)
  refine ⟨hq, ?_⟩
  rintro blocks slot rfl hslot
  exact hq (valid_of_determineActiveBoot1Slot hslot)

/-- One bit of the version of a block, and one of its checksum. -/
def blockWithBits (version crcLow : UInt16) : Boot1Params :=
  ⟨[version, 1, 0, 0, 0, 0, 0x5059, crcLow], rfl⟩

/-- A wrong bit in the version, and one in the checksum. -/
theorem damage_detected_version :
    ¬ (blockWithBits 8376 0x49d3).Valid ∧
      determineActiveBoot1Slot ⟨blockWithBits 8376 0x49d3, blockOfSector 1⟩ ≠ some 0 := by
  have hdamaged : DamagedTo (blockWithBits 8377 0x49d2) (blockWithBits 8376 0x49d3) := by
    refine ⟨8, 120, fun k => ?_⟩
    rcases Nat.lt_or_ge k 128 with hlt | hge
    · have hbits : ∀ k < 128, (bits (blockWithBits 8377 0x49d2).bytes)[k]? ≠
          (bits (blockWithBits 8376 0x49d3).bytes)[k]? ↔ k = 8 ∨ k = 120 := by decide +kernel
      exact hbits k hlt
    · rw [List.getElem?_eq_none hge, List.getElem?_eq_none hge]
      simp only [ne_eq, not_true_eq_false, false_iff]
      omega
  have hdetected := damage_detected (by decide +kernel) hdamaged
  exact ⟨hdetected.1, hdetected.2 ⟨blockWithBits 8376 0x49d3, blockOfSector 1⟩ 0 rfl⟩

end LoadBoot1Payload

end RecoveryMenu

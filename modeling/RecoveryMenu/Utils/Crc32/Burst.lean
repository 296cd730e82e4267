import RecoveryMenu.Foundations.ShiftRegister
import RecoveryMenu.Utils.Crc32

set_option relaxedAutoImplicit false
set_option autoImplicit false

/-!
# Burst errors (`ios_mcp/source/utils.c`)

`crc32` is a shift register of 32 bits that the bits of the data are fed into, those of each byte
from the least significant one on. So it tells data apart that only differ within 32 successive
bits.

## Main definitions

* `RecoveryMenu.Crc32.bits`: the bits of the data.
* `RecoveryMenu.Crc32.BurstError`: two byte strings differ, and only within 32 successive bits.

## Main results

* `RecoveryMenu.Crc32.toBitVec_crc32`: the checksum is the register behind the bits.
* `RecoveryMenu.Crc32.crc32_ne_of_burstError`: a burst error changes the checksum.

## References

* `ios_mcp/source/utils.c`, lines 205-221.
-/

namespace RecoveryMenu

namespace Crc32

open ShiftRegister

/-- The polynomial of `crc32`. -/
def poly : BitVec 32 := 0xedb88320

/-- The bits of a byte, the least significant one first. -/
def bitsOfByte (b : UInt8) : List Bool := (List.range 8).map b.toBitVec.getLsbD

/-- The bits of a byte string, those of the first byte first. -/
def bits (data : List UInt8) : List Bool := data.flatMap bitsOfByte

/-- Two byte strings differ, but only within 32 successive bits. -/
def BurstError (a b : List UInt8) : Prop :=
  a ≠ b ∧ ∃ p, ∀ k, (bits a)[k]? ≠ (bits b)[k]? → p ≤ k ∧ k < p + 32

/-! ## The shift register -/

/-- A turn of the inner loop is a shift. -/
lemma toBitVec_crcBit (crc : UInt32) : (crcBit crc).toBitVec = shift poly crc.toBitVec := by
  have hlow : crc &&& 1 ≠ 0 ↔ crc.toBitVec.getLsbD 0 = true := by
    rw [ne_eq, ← UInt32.toBitVec_inj, UInt32.toBitVec_and]
    show ¬ crc.toBitVec &&& 1#32 = 0#32 ↔ _
    rw [BitVec.and_one_eq_setWidth_ofBool_getLsbD]
    cases crc.toBitVec.getLsbD 0 <;> simp
  rw [crcBit, shift, UInt32.toBitVec_xor]
  by_cases h : crc &&& 1 ≠ 0
  · rw [if_pos h, if_pos (hlow.mp h)]
    rfl
  · rw [if_neg h, if_neg (mt hlow.mpr h)]
    rfl

/-- The bits of a byte in a register. -/
lemma ofBits_bitsOfByte (b : UInt8) : ofBits 32 (bitsOfByte b) = b.toUInt32.toBitVec := by
  apply BitVec.eq_of_getLsbD_eq
  intro i hi
  rw [getLsbD_ofBits, UInt8.toBitVec_toUInt32, BitVec.getLsbD_setWidth]
  congr 1
  by_cases hlt : i < 8
  · simp [bitsOfByte, hlt]
  · rw [BitVec.getLsbD_of_ge _ _ (Nat.not_lt.mp hlt)]
    simp [bitsOfByte, hlt]

/-- A turn of the outer loop feeds a byte in. -/
lemma toBitVec_crcByte (crc : UInt32) (b : UInt8) :
    (crcByte crc b).toBitVec = feed poly crc.toBitVec (bitsOfByte b) := by
  have hshifts (n : ℕ) (c : UInt32) : (crcBit^[n] c).toBitVec = (shift poly)^[n] c.toBitVec := by
    induction n generalizing c with
    | zero => rfl
    | succ n ih =>
      rw [Function.iterate_succ_apply, Function.iterate_succ_apply, ih, toBitVec_crcBit]
  have hlength : (bitsOfByte b).length = 8 := by simp [bitsOfByte]
  rw [feed_eq poly _ (by omega), hlength, ofBits_bitsOfByte, crcByte, hshifts, UInt32.toBitVec_xor]

/-- **The checksum as a register.** `crc32` feeds the bits of the data into the register.

**Proof sketch.** Induction on the bytes. -/
theorem toBitVec_crc32 (seed : UInt32) (data : List UInt8) :
    (crc32 seed data).toBitVec = feed poly seed.toBitVec (bits data) := by
  induction data generalizing seed with
  | nil => rfl
  | cons b data ih =>
    rw [bits, List.flatMap_cons, feed_append, ← toBitVec_crcByte]
    exact ih _

/-! ## Bursts -/

/-- A byte string has eight bits for each byte. -/
lemma length_bits (data : List UInt8) : (bits data).length = 8 * data.length := by
  simp [bits, bitsOfByte, List.length_flatMap, Nat.mul_comm]

/-- A byte can be read back from its bits. -/
lemma bitsOfByte_injective : Function.Injective bitsOfByte := by
  intro b c h
  have hword := congrArg (ofBits 32) h
  rw [ofBits_bitsOfByte, ofBits_bitsOfByte, UInt32.toBitVec_inj] at hword
  rw [← UInt8.toUInt8_toUInt32 b, hword, UInt8.toUInt8_toUInt32]

/-- A byte string can be read back from its bits.

**Proof sketch.** Induction on the bytes. -/
lemma bits_injective : Function.Injective bits := by
  intro a b h
  have hlength := congrArg List.length h
  rw [length_bits, length_bits] at hlength
  induction a generalizing b with
  | nil =>
    cases b with
    | nil => rfl
    | cons d b =>
      rw [List.length_nil, List.length_cons] at hlength
      omega
  | cons c a ih =>
    cases b with
    | nil =>
      rw [List.length_nil, List.length_cons] at hlength
      omega
    | cons d b =>
      rw [List.length_cons, List.length_cons] at hlength
      obtain ⟨hfirst, hrest⟩ := List.append_inj h (by simp [bitsOfByte])
      rw [bitsOfByte_injective hfirst, ih hrest (by omega)]

/-- **Burst errors are detected.** Byte strings of the same length that differ, but only within 32
successive bits, have different checksums, for every seed. -/
theorem crc32_ne_of_burstError {a b : List UInt8} (hlength : a.length = b.length)
    (h : BurstError a b) (seed : UInt32) : crc32 seed a ≠ crc32 seed b := by
  have hburst : Burst 32 (bits a) (bits b) := ⟨bits_injective.ne h.1, h.2⟩
  have hbits : (bits a).length = (bits b).length := by
    rw [length_bits, length_bits, hlength]
  have hpoly : poly.msb = true := rfl
  intro heq
  apply feed_ne_of_burst hpoly seed.toBitVec hbits hburst
  rw [← toBitVec_crc32, ← toBitVec_crc32, heq]

end Crc32

end RecoveryMenu

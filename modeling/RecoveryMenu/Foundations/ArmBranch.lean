import Mathlib.Data.BitVec

set_option relaxedAutoImplicit false
set_option autoImplicit false

/-!
# Branch instructions of ARM and Thumb

The relative branches of the 32-bit instruction set, and the pair of halfwords that makes the
long branch with link of the 16-bit one, as the processor decodes them. An encoder puts the
fields of an instruction together with masks; the last sections say when a field of a masked
word is the field that was put there, and when a distance survives being cut to its field.

## Main definitions

* `ArmBranch.decode`, `ArmBranch.Branch.target`: `B` and `BL`.
* `ArmBranch.thumbTarget`: the prefix and the suffix of a Thumb `BL`.
* `ArmBranch.InReach`: a distance fits into a signed field.

## Main results

* `ArmBranch.signExtend_wordOffset`: a word-aligned distance in reach is its 24-bit field.
* `ArmBranch.thumb_offset`: a halfword-aligned distance in reach is its two 11-bit fields.
* `ArmBranch.extract_masked_zero`, `ArmBranch.extract_masked_ones`,
  `ArmBranch.extract_or_ones`: the fields of a masked word.
-/

namespace ArmBranch

/-! ## The 32-bit instruction set -/

/-- A relative branch: the condition, whether the return address is kept, and the offset in
words. -/
structure Branch where
  cond : BitVec 4
  link : Bool
  imm24 : BitVec 24
  deriving DecidableEq, Repr

/-- The condition of an instruction that is always executed. -/
def always : BitVec 4 := 0b1110#4

/-- `B` and `BL`: bits 27 to 25 are `101`. The condition `1111` is another instruction. -/
def decode (w : BitVec 32) : Option Branch :=
  if w.extractLsb' 25 3 = 0b101#3 ∧ w.extractLsb' 28 4 ≠ 0b1111#4 then
    some ⟨w.extractLsb' 28 4, w.getLsbD 24, w.extractLsb' 0 24⟩
  else none

/-- Where a branch at `addr` leads: the word offset, sign-extended, from two instructions on. -/
def Branch.target (b : Branch) (addr : BitVec 32) : BitVec 32 :=
  addr + 8 + (b.imm24 ++ 0#2).signExtend 32

/-! ## The 16-bit instruction set -/

/-- The prefix of a `BL`: the link register after it, where it is executed with `pc` as the
program counter. -/
def thumbHigh (h : BitVec 16) (pc : BitVec 32) : Option (BitVec 32) :=
  if h.extractLsb' 11 5 = 0b11110#5 then
    some (pc + (h.extractLsb' 0 11).signExtend 32 <<< 12)
  else none

/-- The suffix of a `BL`: where it leads, with the link register that the prefix left. -/
def thumbLow (h : BitVec 16) (lr : BitVec 32) : Option (BitVec 32) :=
  if h.extractLsb' 11 5 = 0b11111#5 then
    some (lr + (h.extractLsb' 0 11).setWidth 32 <<< 1)
  else none

/-- Where the pair of halfwords at `addr` leads. -/
def thumbTarget (high low : BitVec 16) (addr : BitVec 32) : Option (BitVec 32) :=
  (thumbHigh high (addr + 4)).bind (thumbLow low)

/-! ## Distances -/

/-- A distance lies in `[-2 ^ k, 2 ^ k)` as a signed number. -/
def InReach (k : ℕ) (d : BitVec 32) : Prop := -2 ^ k ≤ d.toInt ∧ d.toInt < 2 ^ k

/-- Membership in the reach can be decided. -/
instance (k : ℕ) (d : BitVec 32) : Decidable (InReach k d) :=
  inferInstanceAs (Decidable (_ ∧ _))

/-- A distance in reach, as an unsigned number. -/
theorem InReach.toNat {k : ℕ} {d : BitVec 32} (h : InReach k d) :
    d.toNat < 2 ^ k ∨ 2 ^ 32 ≤ d.toNat + 2 ^ k := by
  have hcast : (2 : ℤ) ^ k = (2 ^ k : ℕ) := by push_cast; rfl
  obtain ⟨hlow, hhigh⟩ := h
  rw [hcast, BitVec.toInt_eq_toNat_cond] at hlow hhigh
  split_ifs at hlow hhigh <;> omega

/-- **Word offsets.** A word-aligned distance in the reach of a branch is recovered from the 24
bits that the instruction holds of it.

**Proof sketch.** The field with two zero bits behind it is the distance modulo `2 ^ 26`, and in
reach the sign bit of the distance is that of the field. -/
theorem signExtend_wordOffset {d : BitVec 32} (h4 : d.toNat % 4 = 0) (h : InReach 25 d) :
    (d.extractLsb' 2 24 ++ 0#2).signExtend 32 = d := by
  have hreach := h.toNat
  have hd := d.isLt
  apply BitVec.eq_of_toInt_eq
  rw [BitVec.toInt_signExtend_of_le (by omega), BitVec.toInt_append_zero]
  rw [BitVec.toInt_eq_toNat_cond, BitVec.toInt_eq_toNat_cond, BitVec.extractLsb'_toNat,
    Nat.shiftRight_eq_div_pow]
  split_ifs <;> push_cast <;> omega

/-- **Halfword offsets.** A halfword-aligned distance in the reach of a long branch is recovered
from the two 11-bit fields that the pair holds of it. -/
theorem thumb_offset {d : BitVec 32} (h2 : d.toNat % 2 = 0) (h : InReach 22 d) :
    (d.extractLsb' 12 11).signExtend 32 <<< 12 + (d.extractLsb' 1 11).setWidth 32 <<< 1 = d := by
  have hreach := h.toNat
  have hd := d.isLt
  apply BitVec.eq_of_toNat_eq
  rw [BitVec.toNat_add, BitVec.toNat_shiftLeft, BitVec.toNat_shiftLeft, BitVec.toNat_signExtend,
    BitVec.toNat_setWidth, BitVec.toNat_setWidth, BitVec.extractLsb'_toNat,
    BitVec.extractLsb'_toNat, Nat.shiftRight_eq_div_pow, Nat.shiftRight_eq_div_pow,
    Nat.shiftLeft_eq, Nat.shiftLeft_eq, BitVec.msb_eq_decide, BitVec.extractLsb'_toNat,
    Nat.shiftRight_eq_div_pow]
  simp only [decide_eq_true_eq]
  split_ifs <;> omega

/-! ## Fields of masked words -/

variable {w : ℕ}

/-- A field that the mask leaves out is that of the word underneath. -/
theorem extract_masked_zero {c m : BitVec w} {start len : ℕ} (hm : m.extractLsb' start len = 0)
    (x : BitVec w) : (c ||| (x &&& m)).extractLsb' start len = c.extractLsb' start len := by
  rw [BitVec.extractLsb'_or, BitVec.extractLsb'_and, hm, BitVec.ofNat_eq_ofNat, BitVec.and_zero,
    BitVec.or_zero]

/-- A field that the mask lets through, over a word that has no bit there. -/
theorem extract_masked_ones {c m : BitVec w} {start len : ℕ} (hc : c.extractLsb' start len = 0)
    (hm : m.extractLsb' start len = BitVec.allOnes len) (x : BitVec w) :
    (c ||| (x &&& m)).extractLsb' start len = x.extractLsb' start len := by
  rw [BitVec.extractLsb'_or, BitVec.extractLsb'_and, hc, hm, BitVec.and_allOnes,
    BitVec.ofNat_eq_ofNat, BitVec.zero_or]

/-- A field of ones stays, whatever is put over it. -/
theorem extract_or_ones {c : BitVec w} {start len : ℕ}
    (hc : c.extractLsb' start len = BitVec.allOnes len) (x : BitVec w) :
    (c ||| x).extractLsb' start len = BitVec.allOnes len := by
  rw [BitVec.extractLsb'_or, hc, BitVec.allOnes_or]

/-- A field of a field. -/
theorem extract_extract (x : BitVec w) (off : ℕ) {n start len : ℕ} (h : start + len ≤ n) :
    (x.extractLsb' off n).extractLsb' start len = x.extractLsb' (off + start) len := by
  ext i hi
  rw [BitVec.getElem_extractLsb', BitVec.getElem_extractLsb', BitVec.getLsbD_extractLsb',
    decide_eq_true (by omega), Bool.true_and, Nat.add_assoc]

/-- A field of a word shifted to the right. -/
theorem extract_ushiftRight (x : BitVec w) (k start len : ℕ) :
    (x >>> k).extractLsb' start len = x.extractLsb' (k + start) len := by
  ext i hi
  simp [Nat.add_assoc]

/-- A field of a word shifted to the left. -/
theorem extract_shiftLeft (x : BitVec w) {k start len : ℕ} (hk : k ≤ start)
    (hw : start + len ≤ w) :
    (x <<< k).extractLsb' start len = x.extractLsb' (start - k) len := by
  ext i hi
  rw [BitVec.getElem_extractLsb', BitVec.getElem_extractLsb', BitVec.getLsbD_shiftLeft,
    decide_eq_true (by omega), decide_eq_false (by omega), Nat.sub_add_comm hk]
  rfl

end ArmBranch

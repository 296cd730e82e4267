import Mathlib.Data.Int.Order.Basic
import Mathlib.Data.List.TakeWhile

set_option relaxedAutoImplicit false
set_option autoImplicit false

/-!
# Reading the SEEPROM (`ios_mcp/source/utils.c`)

`EEPROM_Read` reads 16-bit words one by one and stops at the first word that cannot be read.
The words before it have been stored by then.

## Main definitions

* `RecoveryMenu.Eeprom.eepromRead`: the function, on a buffer of words.
* `RecoveryMenu.Eeprom.delivered`: the words read before the first failure.

## Main results

* `RecoveryMenu.Eeprom.eepromRead_eq_zero_iff`: it returns `0` iff all words could be read.
* `RecoveryMenu.Eeprom.eepromRead_buf`: what it leaves in the buffer.

## References

* `ios_mcp/source/utils.c`, lines 90-108.
-/

namespace RecoveryMenu

namespace Eeprom

/-- The loop of `EEPROM_Read` over `num` words from word `i` on: the value returned, and the
words stored. `bspRead i` is the result of `bspRead` for word `i`, and the word. -/
def readWords (bspRead : ℕ → ℤ × UInt16) : ℕ → ℕ → ℤ × List UInt16
  | _, 0 => (0, [])
  | i, num + 1 =>
    let (res, tmp) := bspRead i
    if res < 0 then (res, [])
    else
      let (ret, words) := readWords bspRead (i + 1) num
      (ret, tmp :: words)

/-- `EEPROM_Read(offset, num, buf)`: the value returned and the buffer. -/
def eepromRead (bspRead : ℕ → ℤ × UInt16) (offset num : ℕ) (buf : List UInt16) :
    ℤ × List UInt16 :=
  if offset + num > 0x100 then (-0x1d, buf)
  else
    let (ret, words) := readWords bspRead offset num
    (ret, words ++ buf.drop words.length)

/-- The words from `offset` on that can be read before the first one that cannot, at most
`num`. -/
def delivered (bspRead : ℕ → ℤ × UInt16) (offset num : ℕ) : List UInt16 :=
  ((List.range' offset num).takeWhile fun i => 0 ≤ (bspRead i).1).map fun i => (bspRead i).2

/-- The loop stores the words delivered.

**Proof sketch.** Induction on the number of words. -/
lemma readWords_snd (bspRead : ℕ → ℤ × UInt16) (offset num : ℕ) :
    (readWords bspRead offset num).2 = delivered bspRead offset num := by
  induction num generalizing offset with
  | zero => rfl
  | succ num ih =>
    simp only [readWords, delivered, List.range'_succ, List.takeWhile_cons]
    by_cases h : (bspRead offset).1 < 0
    · simp [h]
    · have hread : 0 ≤ (bspRead offset).1 := not_lt.mp h
      simp only [h, if_false, hread, decide_true, if_true, List.map_cons, ih (offset + 1),
        delivered]

/-- The loop returns `0` iff every word can be read.

**Proof sketch.** Induction on the number of words: a word that cannot be read ends the loop
with its negative result. -/
lemma readWords_fst (bspRead : ℕ → ℤ × UInt16) (offset num : ℕ) :
    (readWords bspRead offset num).1 = 0 ↔
      ∀ i, offset ≤ i → i < offset + num → 0 ≤ (bspRead i).1 := by
  induction num generalizing offset with
  | zero =>
    simp only [readWords, true_iff]
    omega
  | succ num ih =>
    simp only [readWords]
    by_cases h : (bspRead offset).1 < 0
    · simp only [if_pos h]
      exact iff_of_false (Int.ne_of_lt h) fun hall =>
        absurd h (not_lt.mpr (hall offset (Nat.le_refl _) (by omega)))
    · simp only [if_neg h, ih (offset + 1)]
      refine ⟨fun hall i hi hlt => ?_, fun hall i hi hlt => hall i (by omega) (by omega)⟩
      rcases Nat.eq_or_lt_of_le hi with rfl | hi
      · exact not_lt.mp h
      · exact hall i hi (by omega)

/-- No more words are delivered than were asked for. -/
lemma length_delivered_le (bspRead : ℕ → ℤ × UInt16) (offset num : ℕ) :
    (delivered bspRead offset num).length ≤ num := by
  have h := (List.takeWhile_prefix (l := List.range' offset num)
    fun i => decide (0 ≤ (bspRead i).1)).length_le
  simpa [delivered] using h

/-- Where every word can be read, all of them are delivered. -/
lemma delivered_eq {bspRead : ℕ → ℤ × UInt16} {offset num : ℕ}
    (h : ∀ i, offset ≤ i → i < offset + num → 0 ≤ (bspRead i).1) :
    delivered bspRead offset num = (List.range' offset num).map fun i => (bspRead i).2 := by
  rw [delivered, List.takeWhile_eq_self_iff.mpr]
  intro i hi
  rw [List.mem_range'_1] at hi
  exact decide_eq_true (h i hi.1 hi.2)

/-- Inside the SEEPROM, `EEPROM_Read` returns `0` iff every word can be read. -/
lemma eepromRead_eq_zero_iff (bspRead : ℕ → ℤ × UInt16) {offset num : ℕ} (buf : List UInt16)
    (hrange : offset + num ≤ 0x100) :
    (eepromRead bspRead offset num buf).1 = 0 ↔
      ∀ i, offset ≤ i → i < offset + num → 0 ≤ (bspRead i).1 := by
  rw [eepromRead, if_neg (by omega)]
  exact readWords_fst bspRead offset num

/-- The loop returns `0` or a negative result.

**Proof sketch.** Induction on the number of words. -/
lemma readWords_fst_le (bspRead : ℕ → ℤ × UInt16) (offset num : ℕ) :
    (readWords bspRead offset num).1 ≤ 0 := by
  induction num generalizing offset with
  | zero => exact le_refl 0
  | succ num ih =>
    simp only [readWords]
    split_ifs with h
    · exact le_of_lt h
    · exact ih (offset + 1)

/-- Reading the whole SEEPROM fails iff some word cannot be read. -/
lemma eepromRead_lt_zero_iff (bspRead : ℕ → ℤ × UInt16) (buf : List UInt16) :
    (eepromRead bspRead 0 0x100 buf).1 < 0 ↔ ¬ ∀ i < 0x100, 0 ≤ (bspRead i).1 := by
  have hzero := eepromRead_eq_zero_iff bspRead buf (show 0 + 0x100 ≤ 0x100 from le_refl _)
  have hle : (eepromRead bspRead 0 0x100 buf).1 ≤ 0 := by
    rw [eepromRead, if_neg (by omega)]
    exact readWords_fst_le bspRead 0 0x100
  rw [lt_iff_le_and_ne, and_iff_right hle, Ne, hzero]
  simp

/-- Inside the SEEPROM, `EEPROM_Read` overwrites the start of the buffer by the words
delivered. -/
lemma eepromRead_buf (bspRead : ℕ → ℤ × UInt16) {offset num : ℕ} (buf : List UInt16)
    (hrange : offset + num ≤ 0x100) :
    (eepromRead bspRead offset num buf).2 =
      delivered bspRead offset num ++ buf.drop (delivered bspRead offset num).length := by
  rw [eepromRead, if_neg (by omega), ← readWords_snd]

/-- Reading the whole SEEPROM gives all its words. -/
lemma eepromRead_eq_of_readable {bspRead : ℕ → ℤ × UInt16}
    (h : ∀ i < 0x100, 0 ≤ (bspRead i).1) :
    eepromRead bspRead 0 0x100 [] = (0, (List.range' 0 0x100).map fun i => (bspRead i).2) := by
  have hread : ∀ i, 0 ≤ i → i < 0 + 0x100 → 0 ≤ (bspRead i).1 := fun i _ hi => h i (by omega)
  have hfst := (eepromRead_eq_zero_iff bspRead [] (show 0 + 0x100 ≤ 0x100 from le_refl _)).mpr hread
  have hsnd := eepromRead_buf bspRead [] (show 0 + 0x100 ≤ 0x100 from le_refl _)
  rw [delivered_eq hread, List.drop_nil, List.append_nil] at hsnd
  exact Prod.ext hfst hsnd

/-- A buffer that is long enough keeps its length. -/
lemma length_eepromRead (bspRead : ℕ → ℤ × UInt16) (offset : ℕ) {num : ℕ} {buf : List UInt16}
    (h : num ≤ buf.length) : (eepromRead bspRead offset num buf).2.length = buf.length := by
  by_cases hrange : offset + num ≤ 0x100
  · have hle := length_delivered_le bspRead offset num
    rw [eepromRead_buf bspRead buf hrange, List.length_append, List.length_drop]
    omega
  · rw [eepromRead, if_pos (by omega)]

end Eeprom

end RecoveryMenu

import Mathlib.Data.List.Basic

set_option relaxedAutoImplicit false
set_option autoImplicit false

/-!
# Encryption blocks of block type 2

The padding of RFC 2313, section 8.1: an encryption block of type 2 for the data `D` is
`00 ‖ 02 ‖ PS ‖ 00 ‖ D` with a padding string `PS` of at least eight nonzero bytes. A decoder
finds `D` behind the first zero byte after the `02`, so it recovers `D` exactly when no byte
of `PS` is zero.

## Main definitions

* `Pkcs1.block`: the block of a padding string and data.
* `Pkcs1.IsBlockType2`: well-formed blocks of type 2.
* `Pkcs1.strip`: the data of a block, as the decoder finds it.

## Main results

* `Pkcs1.strip_block_eq_iff`: the decoder recovers the data iff the padding string has no
  zero byte.
* `Pkcs1.isBlockType2_block_iff`: a block is well formed for its data iff the padding string
  is long enough and has no zero byte.
-/

namespace Pkcs1

/-- `00 ‖ 02 ‖ PS ‖ 00 ‖ D`. -/
def block (ps d : List UInt8) : List UInt8 := 0 :: 2 :: (ps ++ 0 :: d)

/-- `eb` is an encryption block of type 2 for the data `d`. -/
def IsBlockType2 (eb d : List UInt8) : Prop :=
  ∃ ps, eb = block ps d ∧ 8 ≤ ps.length ∧ 0 ∉ ps

/-- The data of an encryption block of type 2: what follows the first zero byte after
`00 ‖ 02`. -/
def strip : List UInt8 → Option (List UInt8)
  | 0 :: 2 :: rest => (rest.dropWhile (· ≠ 0)).tail?
  | _ => none

/-- Data behind a zero byte starts at the first zero byte. -/
private theorem dropWhile_append_zero {ps : List UInt8} (h : 0 ∉ ps) (d : List UInt8) :
    (ps ++ 0 :: d).dropWhile (· ≠ 0) = 0 :: d := by
  induction ps with
  | nil => simp
  | cons b ps ih =>
    simp only [List.mem_cons, not_or] at h
    rw [List.cons_append, List.dropWhile_cons_of_pos (by simpa using Ne.symm h.1), ih h.2]

/-- A zero byte in the padding string makes the part behind the first zero byte longer than
the data.

**Proof sketch.** Induction on the padding string: at its first zero byte all the rest of the
padding string still precedes the data. -/
private theorem length_lt_of_zero_mem {ps : List UInt8} (h : 0 ∈ ps) (d : List UInt8) :
    d.length + 1 < ((ps ++ 0 :: d).dropWhile (· ≠ 0)).length := by
  induction ps with
  | nil => simp at h
  | cons b ps ih =>
    by_cases hb : b = 0
    · subst hb
      rw [List.cons_append, List.dropWhile_cons_of_neg (by simp), List.length_cons,
        List.length_append, List.length_cons]
      omega
    · rw [List.cons_append, List.dropWhile_cons_of_pos (by simpa using hb)]
      exact ih (by simpa [Ne.symm hb] using h)

/-- The decoder recovers the data of a block iff its padding string has no zero byte.

**Proof sketch.** Without a zero byte in `PS` the first zero byte is the separator. With one,
the recovered string is longer than `D`. -/
theorem strip_block_eq_iff (ps d : List UInt8) : strip (block ps d) = some d ↔ 0 ∉ ps := by
  simp only [strip, block]
  constructor
  · intro h hmem
    have hlen := length_lt_of_zero_mem hmem d
    generalize (ps ++ 0 :: d).dropWhile (· ≠ 0) = found at h hlen
    cases found with
    | nil => simp at h
    | cons b rest =>
      simp only [List.tail?_cons, Option.some.injEq] at h
      simp [h] at hlen
  · intro h
    rw [dropWhile_append_zero h, List.tail?_cons]

/-- Blocks for the same data have the same padding string only. -/
theorem block_left_injective {ps ps' d : List UInt8} (h : block ps d = block ps' d) :
    ps = ps' := by
  simpa [block] using h

/-- A block is well formed for its data iff its padding string has eight or more bytes, none
of them zero. -/
theorem isBlockType2_block_iff (ps d : List UInt8) :
    IsBlockType2 (block ps d) d ↔ 8 ≤ ps.length ∧ 0 ∉ ps := by
  constructor
  · rintro ⟨ps', heq, hlen, hzero⟩
    obtain rfl := block_left_injective heq
    exact ⟨hlen, hzero⟩
  · rintro ⟨hlen, hzero⟩
    exact ⟨ps, rfl, hlen, hzero⟩

end Pkcs1

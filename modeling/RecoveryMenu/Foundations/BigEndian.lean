import Mathlib.Data.List.Induction
import Mathlib.Data.Nat.ModEq
import Mathlib.Tactic.Ring

set_option relaxedAutoImplicit false
set_option autoImplicit false

/-!
# Big-endian numerals

Byte strings read as numbers with the most significant byte first, and numbers written as byte
strings of a fixed length.

## Main definitions

* `BigEndian.toNat`: the number a byte string spells.
* `BigEndian.ofNat`: the last `k` bytes of a number.

## Main results

* `BigEndian.toNat_ofNat`: reading what was written gives the number modulo `256 ^ k`.
* `BigEndian.ofNat_toNat`: writing what was read gives the byte string back.
-/

namespace BigEndian

/-- The number spelled by a byte string, most significant byte first. -/
def toNat (bs : List UInt8) : ℕ := bs.foldl (fun n b => n * 256 + b.toNat) 0

/-- The `k` least significant bytes of `n`, most significant first. -/
def ofNat : ℕ → ℕ → List UInt8
  | 0, _ => []
  | k + 1, n => ofNat k (n / 256) ++ [UInt8.ofNat n]

/-- A last byte is the last digit. -/
@[simp] theorem toNat_append_singleton (bs : List UInt8) (b : UInt8) :
    toNat (bs ++ [b]) = toNat bs * 256 + b.toNat := by
  simp [toNat]

/-- `ofNat k` writes `k` bytes. -/
@[simp] theorem length_ofNat (k n : ℕ) : (ofNat k n).length = k := by
  induction k generalizing n with
  | zero => rfl
  | succ k ih => simp [ofNat, ih]

/-- Reading the `k` last bytes of `n` gives `n` modulo `256 ^ k`.

**Proof sketch.** Induction on `k`: the last byte is `n % 256`, the bytes before it spell
`n / 256` modulo `256 ^ k`. -/
theorem toNat_ofNat (k n : ℕ) : toNat (ofNat k n) = n % 256 ^ k := by
  induction k generalizing n with
  | zero => simp [ofNat, toNat, Nat.mod_one]
  | succ k ih =>
    have hbyte : (UInt8.ofNat n).toNat = n % 256 := by simp
    rw [ofNat, toNat_append_singleton, ih, hbyte, pow_succ, mul_comm (256 ^ k), Nat.mod_mul]
    ring

/-- The number of a byte string is less than `256` to the power of its length. -/
theorem toNat_lt (bs : List UInt8) : toNat bs < 256 ^ bs.length := by
  induction bs using List.reverseRecOn with
  | nil => simp [toNat]
  | append_singleton bs b ih =>
    rw [toNat_append_singleton, List.length_append, List.length_singleton, pow_succ]
    have hb := b.toNat_lt
    omega

/-- Writing what was read gives the byte string back.

**Proof sketch.** Induction on the byte string from its end, where the last digit is. -/
theorem ofNat_toNat (bs : List UInt8) : ofNat bs.length (toNat bs) = bs := by
  induction bs using List.reverseRecOn with
  | nil => rfl
  | append_singleton bs b ih =>
    have hb := b.toNat_lt
    have hdiv : (toNat bs * 256 + b.toNat) / 256 = toNat bs := by omega
    have hmod : UInt8.ofNat (toNat bs * 256 + b.toNat) = b := by
      apply UInt8.toNat_inj.mp
      rw [UInt8.toNat_ofNat']
      omega
    rw [toNat_append_singleton, List.length_append, List.length_singleton, ofNat, hdiv, hmod, ih]

end BigEndian

import Mathlib.Data.Nat.Factorization.Basic
import RecoveryMenu.Rsa

set_option relaxedAutoImplicit false
set_option autoImplicit false

/-!
# The raw RSA step (`ios_mcp/source/rsa.c`)

`rsa2048_raw_encrypt` takes the buffer as a number, raises it to the public exponent modulo the
modulus, and exports the result over the buffer. The export pads short results with zero bytes,
but of a result that is zero it writes nothing at all, so the buffer keeps its input. A number
with the same prime factors as the modulus has such a result.

## Main results

* `RecoveryMenu.Rsa.dvd_pow_iff_forall_prime`: when a power is a multiple of a number.
* `RecoveryMenu.Rsa.rawEncrypt_iff`: the buffer holds the result iff the input is zero or lacks a
  prime factor of the modulus.
* `RecoveryMenu.Rsa.not_rawEncrypt`: of the modulus itself it does not.

## References

* `ios_mcp/source/rsa.c`, lines 70-98.
-/

namespace RecoveryMenu

namespace Rsa

open ByteMemory

/-- A power with a large exponent is a multiple of a number iff its base has all prime factors of
the number.

**Proof sketch.** No prime is in the number more often than the exponent says. -/
theorem dvd_pow_iff_forall_prime {n x e : ℕ} (hn : n ≠ 0) (he : n < 2 ^ e) :
    n ∣ x ^ e ↔ ∀ p, p.Prime → p ∣ n → p ∣ x := by
  have hpos : e ≠ 0 := by
    rintro rfl
    omega
  constructor
  · intro hdvd p hp hpn
    exact hp.dvd_of_dvd_pow (hpn.trans hdvd)
  · intro h
    rcases eq_or_ne x 0 with rfl | hx
    · rw [zero_pow hpos]
      exact dvd_zero n
    · rw [← Nat.factorization_le_iff_dvd hn (pow_ne_zero e hx)]
      intro p
      rw [Nat.factorization_pow, Finsupp.smul_apply, smul_eq_mul]
      by_cases hp : p.Prime ∧ p ∣ n
      · have htwo : 2 ^ e ≤ p ^ e := Nat.pow_le_pow_left hp.1.two_le e
        have hle : n.factorization p ≤ e := Nat.factorization_le_of_le_pow (he.le.trans htwo)
        have hone : 1 ≤ x.factorization p :=
          hp.1.factorization_pos_of_dvd hx (h p hp.1 hp.2)
        exact hle.trans (Nat.le_mul_of_pos_right e hone)
      · have hzero : n.factorization p = 0 := by
          rcases not_and_or.mp hp with hprime | hdvd
          · exact Nat.factorization_eq_zero_of_not_prime n hprime
          · exact Nat.factorization_eq_zero_of_not_dvd hdvd
        rw [hzero]
        exact Nat.zero_le _

/-- The modulus, as a number. -/
def modulus : ℕ := mpzImport rsaPubkey.length rsaPubkey

/-- The modulus has no other bytes than those of the key. -/
lemma modulus_eq : modulus = BigEndian.toNat rsaPubkey := by
  rw [modulus, mpzImport, List.take_length]

/-- The modulus has 2048 bits at most. -/
lemma modulus_lt : modulus < 2 ^ rsaPubexp := by
  have hlt := BigEndian.toNat_lt rsaPubkey
  rw [length_rsaPubkey, show 256 = 2 ^ 8 by rfl, ← Nat.pow_mul, ← modulus_eq] at hlt
  exact hlt.trans_le (Nat.pow_le_pow_right (by decide) (by decide))

/-- The modulus is not zero. -/
lemma modulus_ne_zero : modulus ≠ 0 := by
  decide +kernel

/-- The number of the result. -/
def encrypted (buf : List UInt8) : ℕ := BigEndian.toNat buf ^ rsaPubexp % modulus

/-- The call on a buffer of the right size. -/
lemma rsa2048RawEncrypt_eq {buf : List UInt8} (h : buf.length = 256) :
    rsa2048RawEncrypt buf 256 = (0, mpzExport buf 256 (encrypted buf)) := by
  have himport : mpzImport 256 buf = BigEndian.toNat buf := by
    rw [mpzImport, List.take_of_length_le h.le]
  rw [rsa2048RawEncrypt, if_neg (by rw [length_rsaPubkey, not_not]), himport]
  rfl

/-- The buffer holds the result iff the input is zero or lacks a prime factor of the modulus.

**Proof sketch.** A result that is not zero is exported with all its bytes. If it is zero, the
buffer keeps the input, which is the right one only if it is zero as well. -/
lemma mpzExport_encrypted_iff {buf : List UInt8} (h : buf.length = 256) :
    mpzExport buf 256 (encrypted buf) = BigEndian.ofNat 256 (encrypted buf) ↔
      BigEndian.toNat buf = 0 ∨ ∃ p, p.Prime ∧ p ∣ modulus ∧ ¬ p ∣ BigEndian.toNat buf := by
  have hdvd : encrypted buf = 0 ↔
      ∀ p, p.Prime → p ∣ modulus → p ∣ BigEndian.toNat buf := by
    rw [encrypted, ← Nat.dvd_iff_mod_eq_zero]
    exact dvd_pow_iff_forall_prime modulus_ne_zero modulus_lt
  have hexists : (∃ p, p.Prime ∧ p ∣ modulus ∧ ¬ p ∣ BigEndian.toNat buf) ↔
      encrypted buf ≠ 0 := by
    rw [ne_eq, hdvd]
    push Not
    rfl
  rw [hexists, mpzExport]
  split_ifs with hzero
  · have hspelled : BigEndian.ofNat 256 (BigEndian.toNat buf) = buf := by
      rw [← h, BigEndian.ofNat_toNat]
    have hnum : BigEndian.toNat (BigEndian.ofNat 256 0) = 0 := by
      rw [BigEndian.toNat_ofNat, Nat.zero_mod]
    rw [hzero]
    constructor
    · intro heq
      rw [heq]
      exact Or.inl hnum
    · rintro (hx | hne)
      · rw [← hspelled, hx]
      · exact absurd rfl hne
  · have hover : overwrite buf 0 (BigEndian.ofNat 256 (encrypted buf)) =
        BigEndian.ofNat 256 (encrypted buf) := by
      rw [overwrite, List.take_zero, List.nil_append, BigEndian.length_ofNat,
        List.drop_eq_nil_of_le (by omega), List.append_nil]
    exact iff_of_true hover (Or.inr hzero)

/-- When the call leaves the right number. -/
lemma rawEncrypt_snd_iff {buf : List UInt8} (h : buf.length = 256) :
    (rsa2048RawEncrypt buf 256).2 =
        BigEndian.ofNat 256 (BigEndian.toNat buf ^ rsaPubexp % BigEndian.toNat rsaPubkey) ↔
      BigEndian.toNat buf = 0 ∨
        ∃ p, p.Prime ∧ p ∣ BigEndian.toNat rsaPubkey ∧ ¬ p ∣ BigEndian.toNat buf := by
  rw [rsa2048RawEncrypt_eq h, ← modulus_eq]
  exact mpzExport_encrypted_iff h

/-- **Raw RSA.** For every buffer of 256 bytes the call returns `0`, and it leaves the big-endian
number `x ^ 65537 mod n`, with leading zero bytes, iff the number `x` in the buffer is zero or
is not a multiple of every prime factor of the modulus `n`. -/
theorem rawEncrypt_iff (buf : List.Vector UInt8 256) :
    (rsa2048RawEncrypt buf.toList 256).1 = 0 ∧
      ((rsa2048RawEncrypt buf.toList 256).2 =
          BigEndian.ofNat 256 (BigEndian.toNat buf.toList ^ rsaPubexp %
            BigEndian.toNat rsaPubkey) ↔
        BigEndian.toNat buf.toList = 0 ∨
          ∃ p, p.Prime ∧ p ∣ BigEndian.toNat rsaPubkey ∧ ¬ p ∣ BigEndian.toNat buf.toList) := by
  refine ⟨?_, rawEncrypt_snd_iff buf.toList_length⟩
  rw [rsa2048RawEncrypt_eq buf.toList_length]

/-- The modulus itself is left in the buffer, where zero bytes are expected. -/
theorem not_rawEncrypt :
    ¬ ∀ buf : List.Vector UInt8 256,
      (rsa2048RawEncrypt buf.toList 256).1 = 0 →
        (rsa2048RawEncrypt buf.toList 256).2 =
          BigEndian.ofNat 256 (BigEndian.toNat buf.toList ^ rsaPubexp %
            BigEndian.toNat rsaPubkey) := by
  intro h
  have hkey := h ⟨rsaPubkey, length_rsaPubkey⟩
  rw [List.Vector.toList_mk, rawEncrypt_snd_iff length_rsaPubkey,
    rsa2048RawEncrypt_eq length_rsaPubkey] at hkey
  rcases hkey rfl with hzero | ⟨p, -, hp, hnot⟩
  · exact modulus_ne_zero (modulus_eq.trans hzero)
  · exact hnot hp

end Rsa

end RecoveryMenu

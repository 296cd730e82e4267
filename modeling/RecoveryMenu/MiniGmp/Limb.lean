import Mathlib.Algebra.Group.Nat.Defs
import Mathlib.Algebra.Order.Ring.Int
import Mathlib.Tactic.Linarith
import Mathlib.Tactic.LinearCombination
import Mathlib.Tactic.Ring
import RecoveryMenu.Foundations.Reciprocal

set_option relaxedAutoImplicit false
set_option autoImplicit false

/-!
# Limbs (`ios_mcp/source/mini-gmp.c`)

The macros that the arithmetic of big numbers is made of. A limb is an `unsigned long`, which
has 32 bits on the processor this runs on, so that there is no type of twice the size: the
product of two limbs is put together from products of half limbs, and two limbs are divided by
one, and three by two, with a reciprocal.

## Main definitions

* `RecoveryMenu.MiniGmp.gmpUmulPpmm`, `RecoveryMenu.MiniGmp.gmpAddSsaaaa`,
  `RecoveryMenu.MiniGmp.gmpSubDdmmss`: two limbs as one number.
* `RecoveryMenu.MiniGmp.gmpClz`: the leading zeros.
* `RecoveryMenu.MiniGmp.gmpUdivQrnndPreinv`, `RecoveryMenu.MiniGmp.gmpUdivQr3by2`: the steps of
  a division.

## Main results

* `RecoveryMenu.MiniGmp.pair_gmpUmulPpmm`: no half product is lost.
* `RecoveryMenu.MiniGmp.gmpClz_eq_some`: the loops end, and the limb is normalized.
* `RecoveryMenu.MiniGmp.gmpUdivQrnndPreinv_eq`, `RecoveryMenu.MiniGmp.gmpUdivQr3by2_eq`: both
  steps give the quotient and the remainder.

## References

* `ios_mcp/source/mini-gmp.c`: lines 60 to 206.
-/

namespace RecoveryMenu

namespace MiniGmp

/-! ## The macros -/

/-- `GMP_LIMB_BITS`. -/
def gmpLimbBits : UInt32 := 32

/-- `GMP_LIMB_MAX`. -/
def gmpLimbMax : UInt32 := ~~~0

/-- `GMP_LIMB_HIGHBIT`. -/
def gmpLimbHighbit : UInt32 := 1 <<< (gmpLimbBits - 1)

/-- `GMP_HLIMB_BIT`. -/
def gmpHlimbBit : UInt32 := 1 <<< (gmpLimbBits / 2)

/-- `GMP_LLIMB_MASK`. -/
def gmpLlimbMask : UInt32 := gmpHlimbBit - 1

/-- A comparison where a number is expected. -/
def truth (p : Prop) [Decidable p] : UInt32 := if p then 1 else 0

/-- The first loop of `gmp_clz`, with as many rounds as it may take. -/
def clzBytes : ℕ → UInt32 → UInt32 → Option (UInt32 × UInt32)
  | 0, _, _ => none
  | rounds + 1, x, c =>
    if x &&& (0xff <<< (gmpLimbBits - 8)) = 0 then clzBytes rounds (x <<< 8) (c + 8)
    else some (x, c)

/-- The second one. -/
def clzBits : ℕ → UInt32 → UInt32 → Option UInt32
  | 0, _, _ => none
  | rounds + 1, x, c =>
    if x &&& gmpLimbHighbit = 0 then clzBits rounds (x <<< 1) (c + 1) else some c

/-- `gmp_clz`: there is no count where a loop does not end. -/
def gmpClz (x : UInt32) : Option UInt32 := do
  let (x, c) ← clzBytes gmpLimbBits.toNat x 0
  clzBits gmpLimbBits.toNat x c

/-- `gmp_add_ssaaaa`. -/
def gmpAddSsaaaa (ah al bh bl : UInt32) : UInt32 × UInt32 :=
  let x := al + bl
  (ah + bh + truth (x < al), x)

/-- `gmp_sub_ddmmss`. -/
def gmpSubDdmmss (ah al bh bl : UInt32) : UInt32 × UInt32 :=
  let x := al - bl
  (ah - bh - truth (al < bl), x)

/-- `gmp_umul_ppmm`, the branch for limbs of which no type has twice the size. -/
def gmpUmulPpmm (u v : UInt32) : UInt32 × UInt32 :=
  let ul := u &&& gmpLlimbMask
  let uh := u >>> (gmpLimbBits / 2)
  let vl := v &&& gmpLlimbMask
  let vh := v >>> (gmpLimbBits / 2)
  let x₀ := ul * vl
  let x₁ := ul * vh
  let x₂ := uh * vl
  let x₃ := uh * vh
  let x₁ := x₁ + (x₀ >>> (gmpLimbBits / 2)) -- this can't give carry
  let x₁ := x₁ + x₂ -- but this indeed can
  let x₃ := if x₁ < x₂ then x₃ + gmpHlimbBit else x₃
  (x₃ + (x₁ >>> (gmpLimbBits / 2)), (x₁ <<< (gmpLimbBits / 2)) + (x₀ &&& gmpLlimbMask))

/-- `gmp_udiv_qrnnd_preinv`: the quotient and the remainder. -/
def gmpUdivQrnndPreinv (nh nl d di : UInt32) : UInt32 × UInt32 :=
  let (qh, ql) := gmpUmulPpmm nh di
  let (qh, ql) := gmpAddSsaaaa qh ql (nh + 1) nl
  let r := nl - qh * d
  let mask := -truth (r > ql) -- both > and >= are OK
  let qh := qh + mask
  let r := r + (mask &&& d)
  if r ≥ d then (qh + 1, r - d) else (qh, r)

/-- `gmp_udiv_qr_3by2`: the quotient and the two limbs of the remainder. -/
def gmpUdivQr3by2 (n₂ n₁ n₀ d₁ d₀ dinv : UInt32) : UInt32 × UInt32 × UInt32 :=
  let (q, q₀) := gmpUmulPpmm n₂ dinv
  let (q, q₀) := gmpAddSsaaaa q q₀ n₂ n₁
  let r₁ := n₁ - d₁ * q
  let (r₁, r₀) := gmpSubDdmmss r₁ n₀ d₁ d₀
  let (t₁, t₀) := gmpUmulPpmm d₀ q
  let (r₁, r₀) := gmpSubDdmmss r₁ r₀ t₁ t₀
  let q := q + 1
  let mask := -truth (r₁ ≥ q₀)
  let q := q + mask
  let (r₁, r₀) := gmpAddSsaaaa r₁ r₀ (mask &&& d₁) (mask &&& d₀)
  if r₁ ≥ d₁ then
    if r₁ > d₁ ∨ r₀ ≥ d₀ then (q + 1, gmpSubDdmmss r₁ r₀ d₁ d₀) else (q, r₁, r₀)
  else (q, r₁, r₀)

/-! ## Limbs and their halves -/

/-- Two limbs as one number, the upper one first. -/
def pair (x : UInt32 × UInt32) : ℕ := x.1.toNat * 2 ^ 32 + x.2.toNat

theorem pair_mk (x₁ x₀ : UInt32) : pair (x₁, x₀) = x₁.toNat * 2 ^ 32 + x₀.toNat := rfl

/-- The lower half of a limb. -/
theorem toNat_and_gmpLlimbMask (u : UInt32) : (u &&& gmpLlimbMask).toNat = u.toNat % 2 ^ 16 := by
  rw [UInt32.toNat_and]
  exact Nat.and_two_pow_sub_one_eq_mod u.toNat 16

/-- The upper half. -/
theorem toNat_shiftRight_half (u : UInt32) :
    (u >>> (gmpLimbBits / 2)).toNat = u.toNat / 2 ^ 16 := by
  rw [UInt32.toNat_shiftRight, Nat.shiftRight_eq_div_pow]
  rfl

/-- The lower half as the upper one. -/
theorem toNat_shiftLeft_half (u : UInt32) :
    (u <<< (gmpLimbBits / 2)).toNat = u.toNat * 2 ^ 16 % 2 ^ 32 := by
  rw [UInt32.toNat_shiftLeft, Nat.shiftLeft_eq]
  rfl

/-- A mask of ones leaves a limb, and one of zeros nothing. -/
theorem neg_truth_and (p : Prop) [Decidable p] (d : UInt32) :
    -truth p &&& d = if p then d else 0 := by
  rw [truth]
  split_ifs
  · exact UInt32.neg_one_and
  · exact UInt32.zero_and

/-- As a number a mask of ones is minus one. -/
theorem add_neg_truth (p : Prop) [Decidable p] (q : UInt32) :
    q + -truth p = if p then q - 1 else q := by
  rw [truth]
  split_ifs
  · exact (UInt32.sub_eq_add_neg q 1).symm
  · simp

/-- Two limbs are less than `2 ^ 64`. -/
theorem pair_lt (x : UInt32 × UInt32) : pair x < 2 ^ 64 := by
  have h₁ := x.1.toNat_lt
  have h₂ := x.2.toNat_lt
  rw [pair]
  omega

/-- The comparison of two limbs with two. -/
theorem pair_le_pair_iff (a b : UInt32 × UInt32) :
    pair a ≤ pair b ↔ a.1 ≤ b.1 ∧ (a.1 < b.1 ∨ a.2 ≤ b.2) := by
  have h₁ := a.2.toNat_lt
  have h₂ := b.2.toNat_lt
  rw [UInt32.le_iff_toNat_le, UInt32.lt_iff_toNat_lt, UInt32.le_iff_toNat_le, pair, pair]
  omega

/-- Two limbs are added modulo `2 ^ 64`. -/
theorem pair_gmpAddSsaaaa (ah al bh bl : UInt32) :
    pair (gmpAddSsaaaa ah al bh bl) = (pair (ah, al) + pair (bh, bl)) % 2 ^ 64 := by
  have h₁ := al.toNat_lt
  have h₂ := bl.toNat_lt
  simp only [pair, gmpAddSsaaaa, truth, UInt32.lt_iff_toNat_lt, UInt32.toNat_add,
    apply_ite UInt32.toNat, UInt32.toNat_one, UInt32.toNat_zero]
  split_ifs with h
  · omega
  · omega

/-- And subtracted. -/
theorem pair_gmpSubDdmmss (ah al bh bl : UInt32) :
    (pair (gmpSubDdmmss ah al bh bl) : ℤ) = ((pair (ah, al) : ℤ) - pair (bh, bl)) % 2 ^ 64 := by
  have h₁ := al.toNat_lt
  have h₂ := bl.toNat_lt
  have h₃ := ah.toNat_lt
  have h₄ := bh.toNat_lt
  simp only [pair, gmpSubDdmmss, truth, UInt32.lt_iff_toNat_lt, UInt32.toNat_sub,
    apply_ite UInt32.toNat, UInt32.toNat_one, UInt32.toNat_zero]
  split_ifs with h
  · omega
  · omega

/-- **The product of two limbs.** Of the products of the halves nothing is lost.

**Proof sketch.** With the carry of the second sum, the four products stay what they are; the
rest is linear in them. -/
theorem pair_gmpUmulPpmm (u v : UInt32) : pair (gmpUmulPpmm u v) = u.toNat * v.toNat := by
  have hu := u.toNat_lt
  have hv := v.toNat_lt
  have hmul (a b : ℕ) (ha : a < 2 ^ 16) (hb : b < 2 ^ 16) :
      a * b ≤ (2 ^ 16 - 1) * (2 ^ 16 - 1) := Nat.mul_le_mul (by omega) (by omega)
  have hprod : u.toNat * v.toNat = u.toNat / 2 ^ 16 * (v.toNat / 2 ^ 16) * 2 ^ 32 +
      (u.toNat % 2 ^ 16 * (v.toNat / 2 ^ 16) + u.toNat / 2 ^ 16 * (v.toNat % 2 ^ 16)) * 2 ^ 16 +
      u.toNat % 2 ^ 16 * (v.toNat % 2 ^ 16) := by
    conv_lhs => rw [← Nat.div_add_mod u.toNat (2 ^ 16), ← Nat.div_add_mod v.toNat (2 ^ 16)]
    ring
  have h₀ := hmul (u.toNat % 2 ^ 16) (v.toNat % 2 ^ 16) (by omega) (by omega)
  have h₁ := hmul (u.toNat % 2 ^ 16) (v.toNat / 2 ^ 16) (by omega) (by omega)
  have h₂ := hmul (u.toNat / 2 ^ 16) (v.toNat % 2 ^ 16) (by omega) (by omega)
  have h₃ := hmul (u.toNat / 2 ^ 16) (v.toNat / 2 ^ 16) (by omega) (by omega)
  rw [hprod]
  simp only [pair, gmpUmulPpmm, UInt32.lt_iff_toNat_lt, UInt32.toNat_add, UInt32.toNat_mul,
    toNat_and_gmpLlimbMask, toNat_shiftRight_half, toNat_shiftLeft_half, apply_ite UInt32.toNat,
    show gmpHlimbBit.toNat = 2 ^ 16 from rfl]
  generalize u.toNat % 2 ^ 16 * (v.toNat % 2 ^ 16) = x₀ at *
  generalize u.toNat % 2 ^ 16 * (v.toNat / 2 ^ 16) = x₁ at *
  generalize u.toNat / 2 ^ 16 * (v.toNat % 2 ^ 16) = x₂ at *
  generalize u.toNat / 2 ^ 16 * (v.toNat / 2 ^ 16) = x₃ at *
  split_ifs with hcarry
  · omega
  · omega

/-! ## The leading zeros -/

/-- A mask of the upper bits leaves nothing of a number that is below them. -/
lemma and_eq_zero_iff {x k j : ℕ} (hx : x < 2 ^ k * 2 ^ j) :
    x &&& (2 ^ j - 1) * 2 ^ k = 0 ↔ x < 2 ^ k := by
  constructor
  · intro h
    have hshift : (x &&& (2 ^ j - 1) * 2 ^ k) >>> k = 0 := by rw [h, Nat.zero_shiftRight]
    rw [Nat.shiftRight_and_distrib, Nat.shiftRight_eq_div_pow, Nat.shiftRight_eq_div_pow,
      Nat.mul_div_cancel _ (Nat.two_pow_pos k), Nat.and_two_pow_sub_one_eq_mod,
      Nat.mod_eq_of_lt (Nat.div_lt_of_lt_mul hx)] at hshift
    exact (Nat.div_eq_zero_iff_lt (Nat.two_pow_pos k)).mp hshift
  · intro h
    rw [← Nat.mod_eq_of_lt (Nat.and_le_left.trans_lt h), Nat.and_mod_two_pow,
      Nat.mul_mod_left, Nat.and_zero]

/-- The limb is shifted up by bytes until its highest byte is not zero.

**Proof sketch.** Induction on the rounds, and there are enough of them for the limb. -/
lemma clzBytes_eq_some (rounds : ℕ) (x c : UInt32) (hx : 2 ^ 32 ≤ x.toNat * 2 ^ (8 * rounds)) :
    ∃ e x', clzBytes rounds x c = some (x', c + UInt32.ofNat e) ∧
      x'.toNat = x.toNat * 2 ^ e ∧ 2 ^ 24 ≤ x'.toNat := by
  have hlt := x.toNat_lt
  induction rounds generalizing x c with
  | zero => omega
  | succ rounds ih =>
    have hiff : x &&& (0xff <<< (gmpLimbBits - 8)) = 0 ↔ x.toNat < 2 ^ 24 := by
      rw [← UInt32.toNat_inj, UInt32.toNat_and]
      exact and_eq_zero_iff (k := 24) (j := 8) hlt
    rw [clzBytes]
    split_ifs with htop
    · have hshift : (x <<< 8).toNat = x.toNat * 2 ^ 8 := by
        have := hiff.mp htop
        rw [UInt32.toNat_shiftLeft, Nat.shiftLeft_eq]
        exact Nat.mod_eq_of_lt (by simp; omega)
      obtain ⟨e, x', heq, hval, hge⟩ := ih (x <<< 8) (c + 8)
        (by rw [hshift, Nat.mul_assoc, ← Nat.pow_add, Nat.add_comm 8]; exact hx)
        (x <<< 8).toNat_lt
      refine ⟨8 + e, x', ?_, ?_, hge⟩
      · rw [heq, UInt32.ofNat_add, ← UInt32.add_assoc]
        rfl
      · rw [hval, hshift, Nat.mul_assoc, ← Nat.pow_add]
    · rw [hiff] at htop
      exact ⟨0, x, by simp, by simp, by omega⟩

/-- And by bits until its highest bit is not. -/
lemma clzBits_eq_some (rounds : ℕ) (x c : UInt32) (hx : 2 ^ 32 ≤ x.toNat * 2 ^ rounds) :
    ∃ e, clzBits rounds x c = some (c + UInt32.ofNat e) ∧
      2 ^ 31 ≤ x.toNat * 2 ^ e ∧ x.toNat * 2 ^ e < 2 ^ 32 := by
  have hlt := x.toNat_lt
  induction rounds generalizing x c with
  | zero => omega
  | succ rounds ih =>
    have hiff : x &&& gmpLimbHighbit = 0 ↔ x.toNat < 2 ^ 31 := by
      rw [← UInt32.toNat_inj, UInt32.toNat_and]
      exact and_eq_zero_iff (k := 31) (j := 1) hlt
    rw [clzBits]
    split_ifs with htop
    · have hshift : (x <<< 1).toNat = x.toNat * 2 ^ 1 := by
        have := hiff.mp htop
        rw [UInt32.toNat_shiftLeft, Nat.shiftLeft_eq]
        exact Nat.mod_eq_of_lt (by simp; omega)
      obtain ⟨e, heq, hge, hlt'⟩ := ih (x <<< 1) (c + 1)
        (by rw [hshift, Nat.mul_assoc, ← Nat.pow_add, Nat.add_comm 1]; exact hx)
        (x <<< 1).toNat_lt
      rw [hshift, Nat.mul_assoc, ← Nat.pow_add] at hge hlt'
      refine ⟨1 + e, ?_, hge, hlt'⟩
      rw [heq, UInt32.ofNat_add, ← UInt32.add_assoc]
      rfl
    · rw [hiff] at htop
      exact ⟨0, by simp, by omega, by omega⟩

/-- **The leading zeros.** The loops end for every limb but zero, and the count is the shift that
normalizes it.

**Proof sketch.** One loop leaves a limb for the other, and both have counted what they have
shifted. -/
theorem gmpClz_eq_some {x : UInt32} (hx : x ≠ 0) :
    ∃ c, gmpClz x = some c ∧ c.toNat < 32 ∧
      2 ^ 31 ≤ x.toNat * 2 ^ c.toNat ∧ x.toNat * 2 ^ c.toNat < 2 ^ 32 := by
  have hpos : 0 < x.toNat := by
    rw [Nat.pos_iff_ne_zero]
    exact fun h => hx (UInt32.toNat_inj.mp h)
  obtain ⟨e₁, x', heq₁, hval, hge⟩ := clzBytes_eq_some gmpLimbBits.toNat x 0
    (show 2 ^ 32 ≤ x.toNat * 2 ^ 256 by omega)
  obtain ⟨e₂, heq₂, hlow, hhigh⟩ := clzBits_eq_some gmpLimbBits.toNat x' (0 + UInt32.ofNat e₁)
    (show 2 ^ 32 ≤ x'.toNat * 2 ^ 32 by omega)
  rw [hval, Nat.mul_assoc, ← Nat.pow_add] at hlow hhigh
  have hlt : e₁ + e₂ < 32 := by
    by_contra hge
    have : 2 ^ 32 ≤ 2 ^ (e₁ + e₂) := Nat.pow_le_pow_right (by decide) (by omega)
    have := Nat.le_mul_of_pos_left (2 ^ (e₁ + e₂)) hpos
    omega
  have htoNat : (0 + UInt32.ofNat e₁ + UInt32.ofNat e₂).toNat = e₁ + e₂ := by
    rw [UInt32.zero_add, ← UInt32.ofNat_add]
    exact UInt32.toNat_ofNat_of_lt (show e₁ + e₂ < 2 ^ 32 by omega)
  refine ⟨_, by rw [gmpClz, heq₁]; exact heq₂, ?_⟩
  rw [htoNat]
  exact ⟨hlt, hlow, hhigh⟩

/-! ## The steps of a division -/

/-- A difference of limbs is one modulo `2 ^ 32`. -/
lemma toNat_sub_modEq (a b : UInt32) :
    ((a - b).toNat : ℤ) ≡ a.toNat - b.toNat [ZMOD 2 ^ 32] := by
  have h₁ := a.toNat_lt
  have h₂ := b.toNat_lt
  rw [Int.ModEq, UInt32.toNat_sub]
  omega

/-- And so is a product. -/
lemma toNat_mul_modEq (a b : UInt32) :
    ((a * b).toNat : ℤ) ≡ a.toNat * b.toNat [ZMOD 2 ^ 32] := by
  rw [UInt32.toNat_mul]
  push_cast
  exact Int.mod_modEq _ _

/-- The sum of the product with a reciprocal and the number itself is the estimate with its
lower digit.

**Proof sketch.** The estimate is a digit (`Reciprocal.Estimate.estimate_lt`), so that the sum
has room in two limbs. -/
lemma estimate_of_pair {w d : ℕ} {h l v : UInt32} {t : ℕ} {e : UInt32 × UInt32}
    (hd : Reciprocal.Divisor (2 ^ 32) w d v.toNat) (ht : t < w)
    (hlt : h.toNat * (2 ^ 32 * w) + l.toNat * w + t < 2 ^ 32 * d)
    (he : pair e = (h.toNat * v.toNat + pair (h, l)) % 2 ^ 64) :
    Reciprocal.Estimate (2 ^ 32) w d v.toNat h.toNat l.toNat t e.1.toNat e.2.toNat := by
  have hl := l.toNat_lt
  have hfull : Reciprocal.Estimate (2 ^ 32) w d v.toNat h.toNat l.toNat t
      (((2 ^ 32 + v.toNat) * h.toNat + l.toNat) / 2 ^ 32)
      (((2 ^ 32 + v.toNat) * h.toNat + l.toNat) % 2 ^ 32) :=
    ⟨hl, ht, hlt, Nat.mod_lt _ (by decide), Nat.div_add_mod' _ _⟩
  have hroom := hfull.estimate_lt hd
  have hsum : h.toNat * v.toNat + pair (h, l) = (2 ^ 32 + v.toNat) * h.toNat + l.toNat := by
    rw [pair]
    ring
  rw [hsum] at he
  have he₁ := e.1.toNat_lt
  have he₂ := e.2.toNat_lt
  rw [pair] at he
  exact ⟨hl, ht, hlt, he₂, by omega⟩

/-- The last part of the step: the divisor is taken off where it is still in the remainder. -/
lemma subtract_eq (q r₁ r₀ d₁ d₀ : UInt32) :
    let out := if r₁ ≥ d₁ then
        if r₁ > d₁ ∨ r₀ ≥ d₀ then (q + 1, gmpSubDdmmss r₁ r₀ d₁ d₀) else (q, r₁, r₀)
      else (q, r₁, r₀)
    (out.1.toNat, pair out.2) =
      if pair (d₁, d₀) ≤ pair (r₁, r₀) then
        ((q.toNat + 1) % 2 ^ 32, pair (r₁, r₀) - pair (d₁, d₀))
      else (q.toNat, pair (r₁, r₀)) := by
  have hiff : (r₁ ≥ d₁ ∧ (r₁ > d₁ ∨ r₀ ≥ d₀)) ↔ pair (d₁, d₀) ≤ pair (r₁, r₀) :=
    (pair_le_pair_iff (d₁, d₀) (r₁, r₀)).symm
  rw [← ite_and]
  simp only [hiff]
  split_ifs with hle
  · have hsub := pair_gmpSubDdmmss r₁ r₀ d₁ d₀
    have hlt := pair_lt (r₁, r₀)
    rw [UInt32.toNat_add]
    refine Prod.ext rfl ?_
    change pair (gmpSubDdmmss r₁ r₀ d₁ d₀) = _
    omega
  · rfl

/-- **Three limbs by two.** For a normalized divisor with its reciprocal, and a number of which
the quotient is a limb, the step gives the quotient and the remainder.

**Proof sketch.** The two limbs that are left of the remainder are right modulo `2 ^ 64`, so the
rest of the step is what is done to an estimate (`Reciprocal.fixUp_eq`). -/
theorem gmpUdivQr3by2_eq {n₂ n₁ n₀ d₁ d₀ dinv : UInt32}
    (hd : Reciprocal.Divisor (2 ^ 32) (2 ^ 32) (pair (d₁, d₀)) dinv.toNat)
    (hlt : pair (n₂, n₁) < pair (d₁, d₀)) :
    ((gmpUdivQr3by2 n₂ n₁ n₀ d₁ d₀ dinv).1.toNat, pair (gmpUdivQr3by2 n₂ n₁ n₀ d₁ d₀ dinv).2) =
      ((pair (n₂, n₁) * 2 ^ 32 + n₀.toNat) / pair (d₁, d₀),
        (pair (n₂, n₁) * 2 ^ 32 + n₀.toNat) % pair (d₁, d₀)) := by
  have hn₀ := n₀.toNat_lt
  have hquot : (pair (n₂, n₁) * 2 ^ 32 + n₀.toNat) / pair (d₁, d₀) < 2 ^ 32 := by
    rw [Nat.div_lt_iff_lt_mul (by omega)]
    omega
  have hnum : n₂.toNat * (2 ^ 32 * 2 ^ 32) + n₁.toNat * 2 ^ 32 + n₀.toNat =
      pair (n₂, n₁) * 2 ^ 32 + n₀.toNat := by
    rw [pair]
    ring
  have hbelow : n₂.toNat * (2 ^ 32 * 2 ^ 32) + n₁.toNat * 2 ^ 32 + n₀.toNat <
      2 ^ 32 * pair (d₁, d₀) := by
    rw [hnum]
    omega
  rcases hu : gmpUmulPpmm n₂ dinv with ⟨u₁, u₀⟩
  rcases hs : gmpAddSsaaaa u₁ u₀ n₂ n₁ with ⟨q, q₀⟩
  rcases hr : gmpSubDdmmss (n₁ - d₁ * q) n₀ d₁ d₀ with ⟨s₁, s₀⟩
  rcases ht : gmpUmulPpmm d₀ q with ⟨t₁, t₀⟩
  rcases hr' : gmpSubDdmmss s₁ s₀ t₁ t₀ with ⟨r₁, r₀⟩
  have he : Reciprocal.Estimate (2 ^ 32) (2 ^ 32) (pair (d₁, d₀)) dinv.toNat n₂.toNat n₁.toNat
      n₀.toNat q.toNat q₀.toNat := estimate_of_pair (e := (q, q₀)) hd hn₀ hbelow
    (by rw [← hs, pair_gmpAddSsaaaa, ← hu, pair_gmpUmulPpmm])
  have hmod : (pair (r₁, r₀) : ℤ) ≡
      (n₂.toNat * (2 ^ 32 * 2 ^ 32) + n₁.toNat * 2 ^ 32 + n₀.toNat : ℕ) -
        (q.toNat + 1) * pair (d₁, d₀) [ZMOD (2 ^ 32 * 2 ^ 32 : ℕ)] := by
    obtain ⟨k₁, hk₁⟩ := ((toNat_sub_modEq n₁ (d₁ * q)).trans
      ((Int.ModEq.refl _).sub (toNat_mul_modEq d₁ q))).dvd
    have hpr := pair_gmpSubDdmmss s₁ s₀ t₁ t₀
    have hps := pair_gmpSubDdmmss (n₁ - d₁ * q) n₀ d₁ d₀
    have hpt := pair_gmpUmulPpmm d₀ q
    rw [hr'] at hpr
    rw [hr] at hps
    rw [ht] at hpt
    rw [hpr, hps, hpt, Int.emod_def, Int.emod_def, pair_mk, pair_mk]
    refine Int.modEq_iff_dvd.mpr ?_
    generalize (_ : ℤ) / 2 ^ 64 = k₂
    generalize (_ : ℤ) / 2 ^ 64 = k₃
    push_cast
    exact ⟨n₂.toNat + k₁ + k₂ + k₃, by linear_combination 2 ^ 32 * hk₁⟩
  have hr₀ := r₀.toNat_lt
  have hfix := @Reciprocal.fixUp_eq _ _ _ _ _ _ _ _ _ hd he (r₁ ≥ q₀) _ _ (pair_lt _) hmod
    (by rw [ge_iff_le, UInt32.le_iff_toNat_le, pair_mk]; omega)
    (by rw [ge_iff_le, UInt32.le_iff_toNat_le, pair_mk]; omega)
  rw [hnum] at hfix
  rw [← hfix]
  replace hfix := congrArg Prod.fst hfix
  simp only at hfix
  rw [← hfix] at hquot
  have hsum := pair_gmpAddSsaaaa r₁ r₀ d₁ d₀
  have hzero : gmpAddSsaaaa r₁ r₀ 0 0 = (r₁, r₀) := by simp [gmpAddSsaaaa, truth]
  simp only [gmpUdivQr3by2, hu, hs, hr, ht, hr', neg_truth_and, add_neg_truth]
  by_cases hbig : r₁ ≥ q₀
  · simp only [Reciprocal.fixUp, if_pos hbig, Nat.add_sub_cancel] at hquot ⊢
    rw [UInt32.add_sub_cancel]
    refine (subtract_eq q _ _ d₁ d₀).trans ?_
    rw [hsum, ← Nat.pow_add]
    rw [← Nat.pow_add] at hquot
    split_ifs at hquot ⊢ with hle
    · rw [Nat.mod_eq_of_lt hquot]
    · rfl
  · simp only [Reciprocal.fixUp, if_neg hbig, hzero] at hquot ⊢
    refine (subtract_eq (q + 1) _ _ d₁ d₀).trans ?_
    rw [UInt32.toNat_add, UInt32.toNat_one, Nat.mod_add_mod]
    split_ifs at hquot ⊢ with hle
    · rw [Nat.mod_eq_of_lt hquot]
    · rw [Nat.mod_eq_of_lt hquot]

/-- With the upper limb two limbs become bigger by `2 ^ 32`, modulo `2 ^ 64`. -/
lemma pair_add_one (x₁ x₀ : UInt32) : pair (x₁ + 1, x₀) ≡ pair (x₁, x₀) + 2 ^ 32 [MOD 2 ^ 64] := by
  rw [pair_mk, pair_mk, UInt32.toNat_add, UInt32.toNat_one, ← Nat.mul_mod_mul_right,
    ← Nat.pow_add, Nat.add_right_comm, Nat.add_mul, Nat.one_mul]
  exact (Nat.mod_modEq _ _).add_right _

/-- **Two limbs by one.** The same for a divisor of one limb.

**Proof sketch.** The sum is the estimate with its digit made bigger by one, and the limb that is
left of the remainder is right modulo `2 ^ 32`. -/
theorem gmpUdivQrnndPreinv_eq {nh nl d di : UInt32}
    (hd : Reciprocal.Divisor (2 ^ 32) 1 d.toNat di.toNat) (hlt : nh < d) :
    ((gmpUdivQrnndPreinv nh nl d di).1.toNat, (gmpUdivQrnndPreinv nh nl d di).2.toNat) =
      (pair (nh, nl) / d.toNat, pair (nh, nl) % d.toNat) := by
  rw [UInt32.lt_iff_toNat_lt] at hlt
  have hnl := nl.toNat_lt
  have hquot : pair (nh, nl) / d.toNat < 2 ^ 32 := by
    rw [Nat.div_lt_iff_lt_mul (by omega), pair_mk]
    omega
  rcases hu : gmpUmulPpmm nh di with ⟨u₁, u₀⟩
  rcases hs : gmpAddSsaaaa u₁ u₀ (nh + 1) nl with ⟨qh, ql⟩
  obtain ⟨q, rfl⟩ : ∃ q, qh = q + 1 := ⟨qh - 1, (UInt32.sub_add_cancel qh 1).symm⟩
  have hpair : pair (q, ql) = (nh.toNat * di.toNat + pair (nh, nl)) % 2 ^ 64 := by
    have hsum := pair_gmpAddSsaaaa u₁ u₀ (nh + 1) nl
    rw [hs, ← hu, pair_gmpUmulPpmm] at hsum
    rw [← Nat.mod_eq_of_lt (pair_lt (q, ql))]
    refine Nat.ModEq.add_right_cancel' (2 ^ 32) ?_
    calc pair (q, ql) + 2 ^ 32
        ≡ pair (q + 1, ql) [MOD 2 ^ 64] := (pair_add_one q ql).symm
      _ = (nh.toNat * di.toNat + pair (nh + 1, nl)) % 2 ^ 64 := hsum
      _ ≡ nh.toNat * di.toNat + pair (nh + 1, nl) [MOD 2 ^ 64] := Nat.mod_modEq _ _
      _ ≡ nh.toNat * di.toNat + (pair (nh, nl) + 2 ^ 32) [MOD 2 ^ 64] :=
        (pair_add_one nh nl).add_left _
      _ = nh.toNat * di.toNat + pair (nh, nl) + 2 ^ 32 := (Nat.add_assoc _ _ _).symm
  have hbelow : nh.toNat * (2 ^ 32 * 1) + nl.toNat * 1 + 0 < 2 ^ 32 * d.toNat := by omega
  have he : Reciprocal.Estimate (2 ^ 32) 1 d.toNat di.toNat nh.toNat nl.toNat 0
      q.toNat ql.toNat := estimate_of_pair (e := (q, ql)) hd Nat.one_pos hbelow hpair
  have hmod : ((nl - (q + 1) * d).toNat : ℤ) ≡
      (nh.toNat * (2 ^ 32 * 1) + nl.toNat * 1 + 0 : ℕ) -
        (q.toNat + 1) * d.toNat [ZMOD (2 ^ 32 * 1 : ℕ)] := by
    obtain ⟨k₁, hk₁⟩ := ((toNat_sub_modEq nl ((q + 1) * d)).trans
      ((Int.ModEq.refl _).sub (toNat_mul_modEq (q + 1) d))).dvd
    have hk₂ := Nat.div_add_mod (q.toNat + 1) (2 ^ 32)
    rw [UInt32.toNat_add, UInt32.toNat_one] at hk₁
    refine Int.modEq_iff_dvd.mpr ⟨nh.toNat + k₁ - ((q.toNat + 1) / 2 ^ 32 : ℕ) * d.toNat, ?_⟩
    zify at hk₂
    push_cast at hk₁ hk₂ ⊢
    linear_combination hk₁ + d.toNat * hk₂
  have hfix := @Reciprocal.fixUp_eq _ _ _ _ _ _ _ _ _ hd he (nl - (q + 1) * d > ql) _ _
    (by rw [Nat.mul_one]; exact (nl - (q + 1) * d).toNat_lt) hmod
    (by rw [gt_iff_lt, UInt32.lt_iff_toNat_lt, Nat.mul_one]; exact id)
    (by rw [gt_iff_lt, UInt32.lt_iff_toNat_lt, Nat.mul_one]; exact Nat.le_of_lt)
  have hnum : nh.toNat * (2 ^ 32 * 1) + nl.toNat * 1 + 0 = pair (nh, nl) := by
    rw [pair_mk]
    ring
  rw [hnum] at hfix
  rw [← hfix]
  replace hfix := congrArg Prod.fst hfix
  simp only at hfix
  rw [← hfix] at hquot
  simp only [gmpUdivQrnndPreinv, hu, hs, neg_truth_and, add_neg_truth]
  clear hfix hmod he hbelow hpair
  have hstep (q r : UInt32) (hq : (if d.toNat ≤ r.toNat then (q.toNat + 1, r.toNat - d.toNat)
        else (q.toNat, r.toNat)).1 < 2 ^ 32) :
      ((if r ≥ d then (q + 1, r - d) else (q, r)).1.toNat,
        (if r ≥ d then (q + 1, r - d) else (q, r)).2.toNat) =
      if d.toNat ≤ r.toNat then (q.toNat + 1, r.toNat - d.toNat) else (q.toNat, r.toNat) := by
    simp only [ge_iff_le, UInt32.le_iff_toNat_le]
    split_ifs at hq ⊢ with hle
    · rw [UInt32.toNat_add, UInt32.toNat_one, Nat.mod_eq_of_lt hq,
        UInt32.toNat_sub_of_le _ _ hle]
    · rfl
  by_cases hbig : nl - (q + 1) * d > ql
  · have hr : (nl - (q + 1) * d + d).toNat =
        ((nl - (q + 1) * d).toNat + d.toNat) % (2 ^ 32 * 1) := by
      rw [UInt32.toNat_add, Nat.mul_one]
    simp only [Reciprocal.fixUp, if_pos hbig, Nat.add_sub_cancel, ← hr] at hquot ⊢
    rw [UInt32.add_sub_cancel]
    exact hstep _ _ hquot
  · simp only [Reciprocal.fixUp, if_neg hbig, UInt32.add_zero] at hquot ⊢
    have hlt' : q.toNat + 1 < 2 ^ 32 := by
      split_ifs at hquot with hle
      · exact (Nat.lt_succ_self _).trans hquot
      · exact hquot
    have hone : (q + 1).toNat = q.toNat + 1 := by
      rw [UInt32.toNat_add, UInt32.toNat_one, Nat.mod_eq_of_lt hlt']
    rw [← hone] at hquot ⊢
    exact hstep _ _ hquot

end MiniGmp

end RecoveryMenu

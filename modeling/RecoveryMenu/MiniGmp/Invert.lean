import Mathlib.Data.Nat.Prime.Basic
import RecoveryMenu.MiniGmp.Limb

set_option relaxedAutoImplicit false
set_option autoImplicit false

/-!
# The reciprocal of two limbs (`ios_mcp/source/mini-gmp.c`)

`mpn_invert_3by2` has no division of two limbs by one to begin with, only one of half limbs. It
first makes the reciprocal of the upper limb from two halves: the upper half is what the division
of half limbs gives, put right, and it is itself a reciprocal, by which the lower half is found.
Then the lower limb of the divisor is brought in.

## Main definitions

* `RecoveryMenu.MiniGmp.invertHigh`, `RecoveryMenu.MiniGmp.invertLow`,
  `RecoveryMenu.MiniGmp.invertCarry`, `RecoveryMenu.MiniGmp.invertBoth`: the parts of it.
* `RecoveryMenu.MiniGmp.mpnInvert3by2`: the function.

## Main results

* `RecoveryMenu.MiniGmp.mpnInvert3by2_isReciprocal`: the result is the reciprocal of the divisor.
* `RecoveryMenu.MiniGmp.mpnInvert3by2_eq`: it is the quotient that the comment above the function
  states.

## References

* `ios_mcp/source/mini-gmp.c`: lines 784 to 905.
-/

namespace RecoveryMenu

namespace MiniGmp

/-! ## The function -/

/-- The upper half of the quotient and the remainder. -/
def invertHigh (u₁ : UInt32) : UInt32 × UInt32 :=
  let ul := u₁ &&& gmpLlimbMask
  let uh := u₁ >>> (gmpLimbBits / 2)
  let qh := (u₁ ^^^ gmpLimbMax) / uh
  let r := ((~~~u₁ - qh * uh) <<< (gmpLimbBits / 2)) ||| gmpLlimbMask
  let p := qh * ul
  -- Adjustment steps taken from udiv_qrnnd_c
  if r < p then
    let qh := qh - 1
    let r := r + u₁
    if r ≥ u₁ then -- i.e. we didn't get carry when adding to r
      if r < p then (qh - 1, r + u₁ - p) else (qh, r - p)
    else (qh, r - p)
  else (qh, r - p)

/-- The quotient with its lower half, and the remainder. -/
def invertLow (u₁ qh r : UInt32) : UInt32 × UInt32 :=
  let p := (r >>> (gmpLimbBits / 2)) * qh + r
  let ql := (p >>> (gmpLimbBits / 2)) + 1
  let r := (r <<< (gmpLimbBits / 2)) + gmpLlimbMask - ql * u₁
  let (ql, r) :=
    if r ≥ gmpLimbMax &&& (p <<< (gmpLimbBits / 2)) then (ql - 1, r + u₁) else (ql, r)
  let m := (qh <<< (gmpLimbBits / 2)) + ql
  if r ≥ u₁ then (m + 1, r - u₁) else (m, r)

/-- The adjustment for the lower limb of the divisor, as far as the lower limb itself goes. -/
def invertCarry (u₁ u₀ m r : UInt32) : UInt32 × UInt32 :=
  let r := ~~~r
  let r := r + u₀
  if r < u₀ then
    let m := m - 1
    let (m, r) := if r ≥ u₁ then (m - 1, r - u₁) else (m, r)
    (m, r - u₁)
  else (m, r)

/-- And its product with the reciprocal. -/
def invertBoth (u₁ u₀ m r : UInt32) : UInt32 :=
  let (m, r) := invertCarry u₁ u₀ m r
  let (th, tl) := gmpUmulPpmm u₀ m
  let r := r + th
  if r < th then
    let m := m - 1
    m - (truth (r > u₁) ||| (truth (r = u₁) &&& truth (tl > u₀)))
  else m

/-- `mpn_invert_3by2`. -/
def mpnInvert3by2 (u₁ u₀ : UInt32) : UInt32 :=
  let (qh, r) := invertHigh u₁
  let (m, r) := invertLow u₁ qh r
  if u₀ > 0 then invertBoth u₁ u₀ m r else m

/-! ## The upper half -/

/-- A half limb on top of a half of ones. -/
lemma toNat_shiftLeft_or_mask {x : UInt32} (hx : x.toNat < 2 ^ 16) :
    ((x <<< (gmpLimbBits / 2)) ||| gmpLlimbMask).toNat = x.toNat * 2 ^ 16 + (2 ^ 16 - 1) := by
  have hshift : (x <<< (gmpLimbBits / 2)).toNat = x.toNat <<< 16 := by
    rw [toNat_shiftLeft_half, Nat.shiftLeft_eq, Nat.mod_eq_of_lt (by omega)]
  rw [UInt32.toNat_or, hshift, ← Nat.shiftLeft_eq,
    Nat.shiftLeft_add_eq_or_of_lt (show 2 ^ 16 - 1 < 2 ^ 16 by decide)]
  rfl

/-- What the division of half limbs gives: a quotient by the upper half of the divisor, with the
remainder and the product of the quotient with the lower half. -/
lemma invertHigh_start {u₁ : UInt32} (hu : 2 ^ 31 ≤ u₁.toNat) :
    let uh := u₁ >>> (gmpLimbBits / 2)
    let qh := (u₁ ^^^ gmpLimbMax) / uh
    let r := ((~~~u₁ - qh * uh) <<< (gmpLimbBits / 2)) ||| gmpLlimbMask
    let p := qh * (u₁ &&& gmpLlimbMask)
    qh.toNat < 2 ^ 16 ∧ r.toNat < u₁.toNat ∧ p.toNat ≤ qh.toNat * (2 ^ 16 - 1) ∧
      qh.toNat * u₁.toNat + r.toNat + 1 = (2 ^ 32 - u₁.toNat) * 2 ^ 16 + p.toNat := by
  intro uh qh r p
  have hlt := u₁.toNat_lt
  have hc : (~~~u₁).toNat = 2 ^ 32 - 1 - u₁.toNat := UInt32.toNat_not u₁
  have huh : uh.toNat = u₁.toNat / 2 ^ 16 := toNat_shiftRight_half u₁
  have hdiv := Nat.div_add_mod (2 ^ 32 - 1 - u₁.toNat) uh.toNat
  have hmod := Nat.mod_lt (2 ^ 32 - 1 - u₁.toNat) (show 0 < uh.toNat by omega)
  have hq : qh.toNat = (2 ^ 32 - 1 - u₁.toNat) / uh.toNat := by
    rw [← hc, ← UInt32.toNat_div]
    exact congrArg (fun c => (c / uh).toNat) UInt32.xor_neg_one
  have hq' : qh.toNat < 2 ^ 16 := by
    rw [hq, Nat.div_lt_iff_lt_mul (by omega)]
    omega
  rw [← hq] at hdiv
  have hprod : (qh * uh).toNat = uh.toNat * qh.toNat := by
    rw [UInt32.toNat_mul, Nat.mul_comm, Nat.mod_eq_of_lt (by omega)]
  have hrest : (~~~u₁ - qh * uh).toNat = (2 ^ 32 - 1 - u₁.toNat) % uh.toNat := by
    rw [UInt32.toNat_sub_of_le _ _ (by rw [UInt32.le_iff_toNat_le, hprod, hc]; omega), hprod, hc]
    omega
  have hr : r.toNat = (2 ^ 32 - 1 - u₁.toNat) % uh.toNat * 2 ^ 16 + (2 ^ 16 - 1) := by
    rw [← hrest]
    exact toNat_shiftLeft_or_mask (by rw [hrest]; omega)
  have hp : p.toNat = qh.toNat * (u₁.toNat % 2 ^ 16) := by
    have hle : qh.toNat * (u₁.toNat % 2 ^ 16) ≤ (2 ^ 16 - 1) * (2 ^ 16 - 1) :=
      Nat.mul_le_mul (by omega) (by omega)
    rw [UInt32.toNat_mul, toNat_and_gmpLlimbMask, Nat.mod_eq_of_lt (by omega)]
  refine ⟨hq', by omega, ?_, ?_⟩
  · rw [hp]
    exact Nat.mul_le_mul_left _ (by omega)
  · have hsplit : qh.toNat * u₁.toNat = uh.toNat * qh.toNat * 2 ^ 16 + p.toNat := by
      conv_lhs => rw [← Nat.div_add_mod u₁.toNat (2 ^ 16), ← huh]
      rw [hp]
      ring
    omega

/-- The upper half is a quotient, with its remainder.

**Proof sketch.** What the division of half limbs gives is too big by two at most, since the
divisor is normalized. -/
lemma invertHigh_eq {u₁ : UInt32} (hu : 2 ^ 31 ≤ u₁.toNat) :
    (invertHigh u₁).1.toNat < 2 ^ 16 ∧
      (2 ^ 16 + (invertHigh u₁).1.toNat) * u₁.toNat + (invertHigh u₁).2.toNat = 2 ^ 48 - 1 ∧
      (invertHigh u₁).2.toNat < u₁.toNat := by
  have hlt := u₁.toNat_lt
  obtain ⟨hq, hr, hp, heq⟩ := invertHigh_start hu
  rw [invertHigh]
  generalize (u₁ ^^^ gmpLimbMax) / (u₁ >>> (gmpLimbBits / 2)) = qh at *
  generalize qh * (u₁ &&& gmpLlimbMask) = p at *
  generalize ((~~~u₁ - qh * (u₁ >>> (gmpLimbBits / 2))) <<< (gmpLimbBits / 2)) |||
    gmpLlimbMask = r at *
  -- the quotient made smaller once and twice
  have hone (hpos : 1 ≤ qh.toNat) : (qh - 1).toNat = qh.toNat - 1 := by
    rw [UInt32.toNat_sub, UInt32.toNat_one]
    omega
  have hmul (k : ℕ) : (qh.toNat - k) * u₁.toNat = qh.toNat * u₁.toNat - k * u₁.toNat :=
    Nat.sub_mul _ _ _
  simp only [UInt32.lt_iff_toNat_lt, ge_iff_le, UInt32.le_iff_toNat_le]
  split_ifs with h₁ h₂ h₃
  · have htwo : 2 ≤ qh.toNat := by
      rw [UInt32.toNat_add] at h₂ h₃
      omega
    have hq₂ : (qh - 1 - 1).toNat = qh.toNat - 2 := by
      rw [UInt32.toNat_sub, hone (by omega), UInt32.toNat_one]
      omega
    rw [hq₂, Nat.add_mul, hmul 2]
    have hle : 2 * u₁.toNat ≤ qh.toNat * u₁.toNat := Nat.mul_le_mul_right _ htwo
    generalize qh.toNat * u₁.toNat = x at *
    simp only [UInt32.toNat_add, UInt32.toNat_sub] at h₂ h₃ ⊢
    omega
  · rw [hone (by omega), Nat.add_mul, hmul 1]
    have hle : 1 * u₁.toNat ≤ qh.toNat * u₁.toNat := Nat.mul_le_mul_right _ (by omega)
    generalize qh.toNat * u₁.toNat = x at *
    simp only [UInt32.toNat_add, UInt32.toNat_sub] at h₂ h₃ ⊢
    omega
  · rw [hone (by omega), Nat.add_mul, hmul 1]
    have hle : 1 * u₁.toNat ≤ qh.toNat * u₁.toNat := Nat.mul_le_mul_right _ (by omega)
    generalize qh.toNat * u₁.toNat = x at *
    simp only [UInt32.toNat_add, UInt32.toNat_sub] at h₂ ⊢
    omega
  · rw [Nat.add_mul]
    simp only [UInt32.toNat_sub]
    omega

/-! ## The lower half -/

/-- The last comparison: the quotient of the lower half comes behind the upper one. -/
lemma invertLow_last {u₁ qh r q' r' : UInt32} (hq : qh.toNat < 2 ^ 16)
    (heq : (2 ^ 16 + qh.toNat) * u₁.toNat + r.toNat = 2 ^ 48 - 1) (hr : r.toNat < u₁.toNat)
    (hfix : (if u₁.toNat ≤ r'.toNat then (q'.toNat + 1, r'.toNat - u₁.toNat)
        else (q'.toNat, r'.toNat)) =
      ((r.toNat * 2 ^ 16 + (2 ^ 16 - 1)) / u₁.toNat,
        (r.toNat * 2 ^ 16 + (2 ^ 16 - 1)) % u₁.toNat)) :
    let out := if r' ≥ u₁ then ((qh <<< (gmpLimbBits / 2)) + q' + 1, r' - u₁)
      else ((qh <<< (gmpLimbBits / 2)) + q', r')
    (2 ^ 32 + out.1.toNat) * u₁.toNat + out.2.toNat = 2 ^ 64 - 1 ∧ out.2.toNat < u₁.toNat := by
  have hpos : 0 < u₁.toNat := by omega
  have hquot : (r.toNat * 2 ^ 16 + (2 ^ 16 - 1)) / u₁.toNat < 2 ^ 16 := by
    rw [Nat.div_lt_iff_lt_mul hpos]
    omega
  have hdiv := Nat.div_add_mod' (r.toNat * 2 ^ 16 + (2 ^ 16 - 1)) u₁.toNat
  have hrest := Nat.mod_lt (r.toNat * 2 ^ 16 + (2 ^ 16 - 1)) hpos
  have hm (x : UInt32) (hx : x.toNat < 2 ^ 16) :
      (2 ^ 32 + ((qh <<< (gmpLimbBits / 2)) + x).toNat) * u₁.toNat + r.toNat * 2 ^ 16 =
        (2 ^ 48 - 1) * 2 ^ 16 + x.toNat * u₁.toNat := by
    have htop : (qh <<< (gmpLimbBits / 2)).toNat = qh.toNat * 2 ^ 16 := by
      rw [toNat_shiftLeft_half, Nat.mod_eq_of_lt (by omega)]
    rw [UInt32.toNat_add, htop, Nat.mod_eq_of_lt (by omega), ← heq]
    ring
  generalize (r.toNat * 2 ^ 16 + (2 ^ 16 - 1)) / u₁.toNat = q at *
  generalize (r.toNat * 2 ^ 16 + (2 ^ 16 - 1)) % u₁.toNat = rest at *
  simp only [ge_iff_le, UInt32.le_iff_toNat_le]
  split_ifs at hfix ⊢ with hle
  · obtain ⟨hq', hr'⟩ := Prod.mk.inj hfix
    have hq'' : (q' + 1).toNat = q := by
      rw [UInt32.toNat_add, UInt32.toNat_one, hq']
      exact Nat.mod_eq_of_lt (by omega)
    have := hm (q' + 1) (by rw [hq'']; exact hquot)
    rw [UInt32.toNat_sub_of_le _ _ hle, UInt32.add_assoc, hr']
    rw [hq''] at this
    dsimp only
    omega
  · obtain ⟨hq', hr'⟩ := Prod.mk.inj hfix
    have := hm q' (by rw [hq']; exact hquot)
    rw [hq'] at this
    rw [hr']
    dsimp only
    omega

/-- With the lower half the quotient is the reciprocal of the upper limb.

**Proof sketch.** The upper half is a reciprocal itself, of two half limbs, and the remainder with
a half limb of ones is divided by it (`Reciprocal.fixUp_eq`). -/
lemma invertLow_eq {u₁ qh r : UInt32} (hu : 2 ^ 31 ≤ u₁.toNat) (hq : qh.toNat < 2 ^ 16)
    (heq : (2 ^ 16 + qh.toNat) * u₁.toNat + r.toNat = 2 ^ 48 - 1) (hr : r.toNat < u₁.toNat) :
    (2 ^ 32 + (invertLow u₁ qh r).1.toNat) * u₁.toNat + (invertLow u₁ qh r).2.toNat = 2 ^ 64 - 1 ∧
      (invertLow u₁ qh r).2.toNat < u₁.toNat := by
  have hlt := u₁.toNat_lt
  have hd : Reciprocal.Divisor (2 ^ 16) (2 ^ 16) u₁.toNat qh.toNat := by
    refine ⟨by decide, by decide, by omega, by omega, by omega, ?_⟩
    rw [Nat.succ_mul]
    omega
  have hbelow : r.toNat / 2 ^ 16 * (2 ^ 16 * 2 ^ 16) + r.toNat % 2 ^ 16 * 2 ^ 16 + (2 ^ 16 - 1) <
      2 ^ 16 * u₁.toNat := by omega
  have hP : r.toNat / 2 ^ 16 * qh.toNat + r.toNat =
      (2 ^ 16 + qh.toNat) * (r.toNat / 2 ^ 16) + r.toNat % 2 ^ 16 := by
    have := Nat.div_add_mod r.toNat (2 ^ 16)
    rw [Nat.add_mul, Nat.mul_comm (r.toNat / 2 ^ 16)]
    omega
  -- the estimate, with its two half limbs
  obtain ⟨p, hp⟩ : ∃ p, p = (r >>> (gmpLimbBits / 2)) * qh + r := ⟨_, rfl⟩
  have he : Reciprocal.Estimate (2 ^ 16) (2 ^ 16) u₁.toNat qh.toNat (r.toNat / 2 ^ 16)
      (r.toNat % 2 ^ 16) (2 ^ 16 - 1) (p.toNat / 2 ^ 16) (p.toNat % 2 ^ 16) := by
    have hfull : Reciprocal.Estimate (2 ^ 16) (2 ^ 16) u₁.toNat qh.toNat (r.toNat / 2 ^ 16)
        (r.toNat % 2 ^ 16) (2 ^ 16 - 1) ((r.toNat / 2 ^ 16 * qh.toNat + r.toNat) / 2 ^ 16)
        ((r.toNat / 2 ^ 16 * qh.toNat + r.toNat) % 2 ^ 16) :=
      ⟨Nat.mod_lt _ (by decide), by decide, hbelow, Nat.mod_lt _ (by decide),
        by rw [← hP, Nat.div_add_mod']⟩
    have hroom := hfull.estimate_lt hd
    have hval : p.toNat = r.toNat / 2 ^ 16 * qh.toNat + r.toNat := by
      rw [hp, UInt32.toNat_add, UInt32.toNat_mul, Nat.mod_add_mod, toNat_shiftRight_half]
      exact Nat.mod_eq_of_lt (by omega)
    rw [hval]
    exact hfull
  have hplt := p.toNat_lt
  have hql : ((p >>> (gmpLimbBits / 2)) + 1).toNat = p.toNat / 2 ^ 16 + 1 := by
    rw [UInt32.toNat_add, toNat_shiftRight_half, UInt32.toNat_one]
    omega
  have hlow : (gmpLimbMax &&& (p <<< (gmpLimbBits / 2))).toNat = p.toNat % 2 ^ 16 * 2 ^ 16 := by
    rw [show gmpLimbMax = -1 from rfl, UInt32.neg_one_and, toNat_shiftLeft_half]
    omega
  have hmask : ((r <<< (gmpLimbBits / 2)) + gmpLlimbMask).toNat =
      (r.toNat * 2 ^ 16 + (2 ^ 16 - 1)) % 2 ^ 32 := by
    rw [UInt32.toNat_add, toNat_shiftLeft_half, Nat.mod_add_mod]
    rfl
  simp only [invertLow, ← hp]
  generalize p >>> (gmpLimbBits / 2) + 1 = ql at *
  generalize (r <<< (gmpLimbBits / 2)) + gmpLlimbMask = s at *
  generalize gmpLimbMax &&& (p <<< (gmpLimbBits / 2)) = low at *
  have hnum : r.toNat / 2 ^ 16 * (2 ^ 16 * 2 ^ 16) + r.toNat % 2 ^ 16 * 2 ^ 16 + (2 ^ 16 - 1) =
      r.toNat * 2 ^ 16 + (2 ^ 16 - 1) := by omega
  rw [hnum] at hbelow
  have hmod : ((s - ql * u₁).toNat : ℤ) ≡
      (r.toNat / 2 ^ 16 * (2 ^ 16 * 2 ^ 16) + r.toNat % 2 ^ 16 * 2 ^ 16 + (2 ^ 16 - 1) : ℕ) -
        ((p.toNat / 2 ^ 16 : ℕ) + 1) * u₁.toNat [ZMOD (2 ^ 16 * 2 ^ 16 : ℕ)] := by
    have hprod := toNat_mul_modEq ql u₁
    rw [hql] at hprod
    have hs : (s.toNat : ℤ) ≡ (r.toNat * 2 ^ 16 + (2 ^ 16 - 1) : ℕ) [ZMOD 2 ^ 32] := by
      rw [hmask]
      push_cast
      exact Int.mod_modEq _ _
    rw [hnum]
    exact (toNat_sub_modEq s (ql * u₁)).trans (hs.sub hprod)
  have hfix := @Reciprocal.fixUp_eq _ _ _ _ _ _ _ _ _ hd he (s - ql * u₁ ≥ low) _ _
    (s - ql * u₁).toNat_lt hmod
    (by rw [ge_iff_le, UInt32.le_iff_toNat_le, hlow]; exact Nat.le_of_lt)
    (by rw [ge_iff_le, UInt32.le_iff_toNat_le, hlow]; exact id)
  rw [hnum, ← hql] at hfix
  by_cases hbig : s - ql * u₁ ≥ low
  · have hq' : (ql - 1).toNat = ql.toNat - 1 := by
      have := ql.toNat_lt
      rw [UInt32.toNat_sub, UInt32.toNat_one, hql]
      omega
    have hr' : (s - ql * u₁ + u₁).toNat = ((s - ql * u₁).toNat + u₁.toNat) % (2 ^ 16 * 2 ^ 16) :=
      UInt32.toNat_add _ _
    simp only [Reciprocal.fixUp, if_pos hbig, ← hq', ← hr'] at hfix
    simp only [if_pos hbig]
    exact invertLow_last hq heq hr hfix
  · simp only [Reciprocal.fixUp, if_neg hbig] at hfix
    simp only [if_neg hbig]
    exact invertLow_last hq heq hr hfix

/-! ## Both limbs -/

/-- The lower limb is counted in, and the reciprocal is made smaller for what does not fit. -/
lemma invertCarry_eq {u₁ u₀ m r : UInt32} (hu : 2 ^ 31 ≤ u₁.toNat)
    (hm : (2 ^ 32 + m.toNat) * u₁.toNat + r.toNat = 2 ^ 64 - 1) (hr : r.toNat < u₁.toNat) :
    (2 ^ 32 + (invertCarry u₁ u₀ m r).1.toNat) * u₁.toNat + u₀.toNat =
        2 ^ 64 - 2 ^ 32 + (invertCarry u₁ u₀ m r).2.toNat ∧
      2 ^ 32 ≤ (invertCarry u₁ u₀ m r).2.toNat + u₁.toNat := by
  have hlt := u₁.toNat_lt
  have hlt' := u₀.toNat_lt
  have hmlt := m.toNat_lt
  have hnot : (~~~r).toNat + r.toNat = 2 ^ 32 - 1 := by
    have : (~~~r).toNat = 2 ^ 32 - 1 - r.toNat := UInt32.toNat_not r
    omega
  have hsum : (~~~r + u₀).toNat = ((~~~r).toNat + u₀.toNat) % 2 ^ 32 := UInt32.toNat_add _ _
  have hzero : m.toNat = 0 → (2 ^ 32 + m.toNat) * u₁.toNat = 2 ^ 32 * u₁.toNat :=
    fun h => by rw [h, Nat.add_zero]
  have hone : m.toNat = 1 → (2 ^ 32 + m.toNat) * u₁.toNat = (2 ^ 32 + 1) * u₁.toNat :=
    fun h => by rw [h]
  have hsub (k : ℕ) (hk : k ≤ m.toNat) : (2 ^ 32 + (m.toNat - k)) * u₁.toNat =
      (2 ^ 32 + m.toNat) * u₁.toNat - k * u₁.toNat := by
    rw [← Nat.sub_mul, Nat.add_sub_assoc hk]
  simp only [invertCarry, UInt32.lt_iff_toNat_lt, ge_iff_le, UInt32.le_iff_toNat_le]
  generalize ~~~r + u₀ = s at *
  split_ifs with h₁ h₂
  · have hm' : (m - 1 - 1).toNat = m.toNat - 2 := by
      rw [UInt32.toNat_sub, UInt32.toNat_sub, UInt32.toNat_one]
      omega
    dsimp only
    rw [hm', hsub 2 (by omega), UInt32.toNat_sub, UInt32.toNat_sub]
    generalize (2 ^ 32 + m.toNat) * u₁.toNat = x at *
    omega
  · have hm' : (m - 1).toNat = m.toNat - 1 := by
      rw [UInt32.toNat_sub, UInt32.toNat_one]
      omega
    dsimp only
    rw [hm', hsub 1 (by omega), UInt32.toNat_sub]
    generalize (2 ^ 32 + m.toNat) * u₁.toNat = x at *
    omega
  · dsimp only
    omega

/-- The bits of a comparison of two limbs with two. -/
lemma truth_or_and (p q r : Prop) [Decidable p] [Decidable q] [Decidable r] :
    truth p ||| (truth q &&& truth r) = truth (p ∨ q ∧ r) := by
  by_cases p <;> by_cases q <;> by_cases r <;> simp [truth, *]

/-- A power of two is no multiple of a divisor with a lower limb. -/
lemma mul_pair_ne {u₁ u₀ : UInt32} (hu : 2 ^ 31 ≤ u₁.toNat) (hu₀ : 0 < u₀) (k : ℕ) :
    k * pair (u₁, u₀) ≠ 2 ^ 96 := by
  intro h
  have hlt := u₁.toNat_lt
  have hlt' := u₀.toNat_lt
  rw [UInt32.lt_iff_toNat_lt] at hu₀
  have hpair := pair_mk u₁ u₀
  obtain ⟨e, -, he⟩ := (Nat.dvd_prime_pow Nat.prime_two).mp (Dvd.intro_left k h)
  have h₁ : 63 ≤ e := by
    by_contra hlt
    have : 2 ^ e < 2 ^ 63 := Nat.pow_lt_pow_right (by decide) (by omega)
    omega
  have h₂ : e ≤ 63 := by
    by_contra hlt
    have : 2 ^ 64 ≤ 2 ^ e := Nat.pow_le_pow_right (by decide) (by omega)
    omega
  obtain rfl : e = 63 := by omega
  rw [UInt32.toNat_zero] at hu₀
  omega

/-- Both limbs of the divisor are counted in.

**Proof sketch.** With the product the reciprocal is too big by two at most, and the comparison
tells which. The case that it lacks, that the product is by the divisor too big exactly, would
make a power of two a multiple of the divisor. -/
lemma invertBoth_eq {u₁ u₀ m r : UInt32} (hu : 2 ^ 31 ≤ u₁.toNat) (hu₀ : 0 < u₀)
    (hm : (2 ^ 32 + m.toNat) * u₁.toNat + r.toNat = 2 ^ 64 - 1) (hr : r.toNat < u₁.toNat) :
    Reciprocal.IsReciprocal (2 ^ 32) (2 ^ 64) (pair (u₁, u₀)) (invertBoth u₁ u₀ m r).toNat := by
  obtain ⟨hcarry, hp⟩ := @invertCarry_eq u₁ u₀ m r hu hm hr
  rcases hc : invertCarry u₁ u₀ m r with ⟨m', p⟩
  rcases hprod : gmpUmulPpmm u₀ m' with ⟨th, tl⟩
  rw [hc] at hcarry hp
  dsimp only at hcarry hp
  have hall : (2 ^ 32 + m'.toNat) * pair (u₁, u₀) + 2 ^ 64 =
      2 ^ 96 + 2 ^ 32 * (p.toNat + th.toNat) + tl.toNat := by
    have ht := pair_gmpUmulPpmm u₀ m'
    have hsplit : (2 ^ 32 + m'.toNat) * pair (u₁, u₀) =
        2 ^ 32 * ((2 ^ 32 + m'.toNat) * u₁.toNat + u₀.toNat) + u₀.toNat * m'.toNat := by
      rw [pair_mk]
      ring
    rw [hprod, pair_mk] at ht
    rw [hsplit, hcarry, ← ht]
    omega
  clear hcarry
  have hne (k : ℕ) := mul_pair_ne hu hu₀ k
  have hD := pair_mk u₁ u₀
  have hu₁lt := u₁.toNat_lt
  have hu₀lt := u₀.toNat_lt
  have hplt := p.toNat_lt
  have hthlt := th.toNat_lt
  have htllt := tl.toNat_lt
  have hmlt := m'.toNat_lt
  simp only [invertBoth, hc, hprod, truth_or_and]
  have hsub (k : ℕ) (hk : k ≤ m'.toNat) : (2 ^ 32 + (m'.toNat - k)) * pair (u₁, u₀) =
      (2 ^ 32 + m'.toNat) * pair (u₁, u₀) - k * pair (u₁, u₀) := by
    rw [← Nat.sub_mul, Nat.add_sub_assoc hk]
  have hone (k : ℕ) : (k + 1) * pair (u₁, u₀) = k * pair (u₁, u₀) + pair (u₁, u₀) :=
    Nat.succ_mul _ _
  generalize pair (u₁, u₀) = d at *
  by_cases hwrap : p + th < th
  · rw [if_pos hwrap]
    rw [UInt32.lt_iff_toNat_lt, UInt32.toNat_add] at hwrap
    have hρ : (p + th).toNat + 2 ^ 32 = p.toNat + th.toNat := by
      rw [UInt32.toNat_add]
      omega
    have hsmall (k : ℕ) (hk : m'.toNat ≤ k) :
        (2 ^ 32 + m'.toNat) * d ≤ (2 ^ 32 + k) * d := Nat.mul_le_mul_right d (by omega)
    have hiff : (p + th > u₁ ∨ p + th = u₁ ∧ tl > u₀) ↔
        d < 2 ^ 32 * (p + th).toNat + tl.toNat := by
      rw [gt_iff_lt, gt_iff_lt, UInt32.lt_iff_toNat_lt, UInt32.lt_iff_toNat_lt,
        ← UInt32.toNat_inj, hD]
      omega
    rw [truth]
    split_ifs with hmore
    · rw [hiff] at hmore
      have htwo : 2 ≤ m'.toNat := by
        by_contra hlt
        have := hsmall 1 (by omega)
        omega
      have hm' : (m' - 1 - 1).toNat = m'.toNat - 2 := by
        rw [UInt32.toNat_sub, UInt32.toNat_sub, UInt32.toNat_one]
        omega
      refine ⟨?_, ?_⟩
      · rw [hm', hsub 2 htwo]
        omega
      · rw [hm', hone, hsub 2 htwo]
        omega
    · rw [hiff] at hmore
      have hpos : 1 ≤ m'.toNat := by
        by_contra hlt
        have := hsmall 0 (by omega)
        omega
      have hm' : (m' - 1 - 0).toNat = m'.toNat - 1 := by
        rw [UInt32.sub_zero, UInt32.toNat_sub, UInt32.toNat_one]
        omega
      -- the product is not too big by the divisor exactly
      have hexact := hne (2 ^ 32 + (m'.toNat - 1))
      rw [hsub 1 hpos] at hexact
      refine ⟨?_, ?_⟩
      · rw [hm', hsub 1 hpos]
        omega
      · rw [hm', hone, hsub 1 hpos]
        omega
  · rw [if_neg hwrap]
    rw [UInt32.lt_iff_toNat_lt, UInt32.toNat_add] at hwrap
    refine ⟨?_, ?_⟩
    · omega
    · rw [hone]
      omega

/-- **The reciprocal.** For a normalized divisor of two limbs, `mpn_invert_3by2` gives its
reciprocal.

**Proof sketch.** The three parts, and where the lower limb is zero the reciprocal of the upper
one is that of both. -/
theorem mpnInvert3by2_isReciprocal {u₁ : UInt32} (u₀ : UInt32) (hu : 2 ^ 31 ≤ u₁.toNat) :
    Reciprocal.IsReciprocal (2 ^ 32) (2 ^ 64) (pair (u₁, u₀)) (mpnInvert3by2 u₁ u₀).toNat := by
  obtain ⟨hq, hhigh, hr⟩ := invertHigh_eq hu
  obtain ⟨hm, hr'⟩ := invertLow_eq hu hq hhigh hr
  simp only [mpnInvert3by2]
  split_ifs with hu₀
  · exact invertBoth_eq hu hu₀ hm hr'
  · have hzero : u₀.toNat = 0 := by
      rw [gt_iff_lt, UInt32.lt_iff_toNat_lt, UInt32.toNat_zero] at hu₀
      omega
    rw [pair_mk, hzero, Nat.add_zero]
    refine ⟨?_, ?_⟩
    · rw [← Nat.mul_assoc]
      omega
    · rw [← Nat.mul_assoc, Nat.succ_mul]
      omega

/-- **The reciprocal, as stated.** It is `floor((B ^ 3 - 1) / (B * u₁ + u₀)) - B`, as the comment
above `mpn_invert_3by2` says, for every divisor that is normalized.

**Proof sketch.** There is one reciprocal, and it is this quotient. -/
theorem mpnInvert3by2_eq {u₁ : UInt32} (u₀ : UInt32) (hu : 2 ^ 31 ≤ u₁.toNat) :
    (mpnInvert3by2 u₁ u₀).toNat =
      ((2 ^ 32) ^ 3 - 1) / (2 ^ 32 * u₁.toNat + u₀.toNat) - 2 ^ 32 := by
  have hrecip := mpnInvert3by2_isReciprocal u₀ hu
  have hpair : pair (u₁, u₀) = 2 ^ 32 * u₁.toNat + u₀.toNat := by rw [pair_mk, Nat.mul_comm]
  rw [Reciprocal.isReciprocal_iff (by decide) (pair_lt _) (by rw [hpair]; omega), hpair] at hrecip
  rw [hrecip, show (2 ^ 32) ^ 3 = 2 ^ 32 * 2 ^ 64 from rfl]

/-- The smallest divisor for which the lower limb counts. -/
theorem mpnInvert3by2_highbit : (mpnInvert3by2 0x80000000 1).toNat =
    ((2 ^ 32) ^ 3 - 1) / (2 ^ 32 * (0x80000000 : UInt32).toNat + (1 : UInt32).toNat) - 2 ^ 32 :=
  mpnInvert3by2_eq 1 (by decide)

end MiniGmp

end RecoveryMenu

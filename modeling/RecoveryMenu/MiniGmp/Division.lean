import Mathlib.Data.List.GetD
import RecoveryMenu.MiniGmp.Invert
import RecoveryMenu.MiniGmp.Mpn

set_option relaxedAutoImplicit false
set_option autoImplicit false

/-!
# Division of big numbers (`ios_mcp/source/mini-gmp.c`)

A divisor is prepared once: it is shifted up until its highest bit is set, and the reciprocal of
its highest one or two limbs is taken. Then a number of any length is divided by it, one limb of
the quotient at a time, from the high end. For a divisor of more than two limbs the digit comes
from the highest two and may still be too big by one.

A division leaves the remainder in the lowest limbs of the number. What it leaves in the limbs
above is not read again, and is not part of the result here.

## Main definitions

* `RecoveryMenu.MiniGmp.GmpDivInverse`: a divisor that is prepared.
* `RecoveryMenu.MiniGmp.mpnDivQrInvert`: how it is.
* `RecoveryMenu.MiniGmp.mpnDivQr1Preinv`, `RecoveryMenu.MiniGmp.mpnDivQr2Preinv`,
  `RecoveryMenu.MiniGmp.mpnDivQrPi1`: the divisions by one, two and more limbs.
* `RecoveryMenu.MiniGmp.mpnDivQrPreinv`, `RecoveryMenu.MiniGmp.mpnDivQr`: the divisions by any
  number.

## Main results

* `RecoveryMenu.MiniGmp.pi1Round_eq`: one round of a division by more than two limbs.
* `RecoveryMenu.MiniGmp.mpnDivQr_eq`: the quotient and the remainder.

## References

* `ios_mcp/source/mini-gmp.c`: lines 905 to 1155.
-/

namespace RecoveryMenu

namespace MiniGmp

/-! ## The functions -/

/-- `mpn_invert_limb`. -/
def mpnInvertLimb (x : UInt32) : UInt32 := mpnInvert3by2 x 0

/-- `struct gmp_div_inverse`. -/
structure GmpDivInverse where
  /-- Normalization shift count. -/
  shift : UInt32
  /-- The highest limb of the normalized divisor. -/
  d1 : UInt32
  /-- The limb below it, which a divisor of one limb does not have. -/
  d0 : UInt32
  /-- Inverse, for 2/1 or 3/2. -/
  di : UInt32
  deriving DecidableEq, Repr

/-- `mpn_div_qr_1_invert`. -/
def mpnDivQr1Invert (d : UInt32) : Option GmpDivInverse := do
  let shift ← gmpClz d
  let d1 := d <<< shift
  some { shift, d1, d0 := 0, di := mpnInvertLimb d1 }

/-- `mpn_div_qr_2_invert`. -/
def mpnDivQr2Invert (d1 d0 : UInt32) : Option GmpDivInverse := do
  let shift ← gmpClz d1
  let (d1, d0) :=
    if shift > 0 then ((d1 <<< shift) ||| (d0 >>> (gmpLimbBits - shift)), d0 <<< shift)
    else (d1, d0)
  some { shift, d1, d0, di := mpnInvert3by2 d1 d0 }

/-- `mpn_div_qr_invert`: there is nothing for a number that has no limbs. -/
def mpnDivQrInvert (dp : List UInt32) : Option GmpDivInverse :=
  match dp.reverse with
  | [] => none
  | [d] => mpnDivQr1Invert d
  | [d1, d0] => mpnDivQr2Invert d1 d0
  | d1 :: d0 :: dl :: _ => do
    let shift ← gmpClz d1
    let (d1, d0) :=
      if shift > 0 then
        ((d1 <<< shift) ||| (d0 >>> (gmpLimbBits - shift)),
          (d0 <<< shift) ||| (dl >>> (gmpLimbBits - shift)))
      else (d1, d0)
    some { shift, d1, d0, di := mpnInvert3by2 d1 d0 }

/-- The shift before a division: the limbs, and the one above them. -/
def shiftUp (np : List UInt32) (shift : UInt32) : List UInt32 × UInt32 :=
  if shift > 0 then mpnLshift np shift else (np, 0)

/-- The shift of the remainder behind it. -/
def shiftDown (rp : List UInt32) (shift : UInt32) : List UInt32 :=
  if shift > 0 then (mpnRshift rp shift).1 else rp

/-- `mpn_div_qr_1_preinv`: the quotient and the remainder. -/
def mpnDivQr1Preinv (np : List UInt32) (inv : GmpDivInverse) : List UInt32 × UInt32 :=
  let (np, r) := shiftUp np inv.shift
  let (qp, r) := Positional.divided (fun n r => gmpUdivQrnndPreinv r n inv.d1 inv.di) r np
  (qp, r >>> inv.shift)

/-- `mpn_div_qr_2_preinv`: the quotient and the limbs of the remainder, the lower one first. -/
def mpnDivQr2Preinv (np : List UInt32) (inv : GmpDivInverse) :
    List UInt32 × UInt32 × UInt32 :=
  let (np, r1) := shiftUp np inv.shift
  let r0 := np.getLastD 0
  let (qp, r1, r0) := Positional.divided
    (fun n r => gmpUdivQr3by2 r.1 r.2 n inv.d1 inv.d0 inv.di) (r1, r0) np.dropLast
  if inv.shift > 0 then
    (qp, (r0 >>> inv.shift) ||| (r1 <<< (gmpLimbBits - inv.shift)), r1 >>> inv.shift)
  else (qp, r0, r1)

/-- The round of `mpn_div_qr_pi1` for the limb `n` of the number, with `n1` and the limbs `w`
above it: the limb of the quotient, and what is left. -/
def pi1Round (dp : List UInt32) (dinv n : UInt32) (s : UInt32 × List UInt32) :
    UInt32 × UInt32 × List UInt32 :=
  let (n1, w) := s
  let np := n :: w
  let dn := dp.length
  let d1 := dp.getD (dn - 1) 0
  let d0 := dp.getD (dn - 2) 0
  let n0 := np.getD (dn - 1) 0
  if n1 = d1 ∧ n0 = d0 then
    let q := gmpLimbMax
    let (np, _) := mpnSubmul1 np dp q
    (q, np.getD (dn - 1) 0, np.take (dn - 1))
  else
    let (q, n1, n0) := gmpUdivQr3by2 n1 n0 (np.getD (dn - 2) 0) d1 d0 dinv
    let (low, cy) := mpnSubmul1 (np.take (dn - 2)) (dp.take (dn - 2)) q
    let cy1 := truth (n0 < cy)
    let n0 := n0 - cy
    let cy := truth (n1 < cy1)
    let n1 := n1 - cy1
    let np := low ++ [n0]
    if cy ≠ 0 then
      let (np, cy) := mpnAddN np (dp.take (dn - 1))
      (q - 1, n1 + (d1 + cy), np)
    else (q, n1, np)

/-- `mpn_div_qr_pi1`: the quotient and the limbs of the remainder. -/
def mpnDivQrPi1 (np : List UInt32) (n1 : UInt32) (dp : List UInt32) (dinv : UInt32) :
    List UInt32 × List UInt32 :=
  let i := np.length - dp.length
  let (qp, n1, w) := Positional.divided (pi1Round dp dinv) (n1, np.drop (i + 1)) (np.take (i + 1))
  (qp, w ++ [n1])

/-- `mpn_div_qr_preinv`: the quotient and the limbs of the remainder. -/
def mpnDivQrPreinv (np dp : List UInt32) (inv : GmpDivInverse) : List UInt32 × List UInt32 :=
  if dp.length = 1 then
    let (qp, r) := mpnDivQr1Preinv np inv
    (qp, [r])
  else if dp.length = 2 then
    let (qp, r0, r1) := mpnDivQr2Preinv np inv
    (qp, [r0, r1])
  else
    let (np, nh) := shiftUp np inv.shift
    let (qp, np) := mpnDivQrPi1 np nh dp inv.di
    (qp, shiftDown np inv.shift)

/-- `mpn_div_qr`. -/
def mpnDivQr (np dp : List UInt32) : Option (List UInt32 × List UInt32) := do
  let inv ← mpnDivQrInvert dp
  let dp := if dp.length > 2 ∧ inv.shift > 0 then (mpnLshift dp inv.shift).1 else dp
  some (mpnDivQrPreinv np dp inv)

/-! ## The limbs at the high end -/

/-- Limbs with two more at the high end. -/
lemma num_append_pair (lo : List UInt32) (a b : UInt32) :
    num (lo ++ [a, b]) = num lo + (2 ^ 32) ^ lo.length * pair (b, a) := by
  rw [num_append, num_cons, num_cons, num_nil, pair_mk]
  push_cast
  ring

/-- Limbs with one more. -/
lemma num_append_one (lo : List UInt32) (a : UInt32) :
    num (lo ++ [a]) = num lo + (2 ^ 32) ^ lo.length * a.toNat := by
  rw [num_append, num_cons, num_nil]
  ring

section HighEnd

variable {lo : List UInt32} {n : ℕ} (h : lo.length = n) (a b : UInt32)

include h in
lemma getD_append_pair_high : (lo ++ [a, b]).getD (n + 1) 0 = b := by
  subst h
  simp

include h in
lemma getD_append_pair_low : (lo ++ [a, b]).getD n 0 = a := by
  subst h
  simp

include h in
lemma take_append_pair_low : (lo ++ [a, b]).take n = lo := by
  subst h
  simp

include h in
lemma take_append_pair_high : (lo ++ [a, b]).take (n + 1) = lo ++ [a] := by
  subst h
  rw [List.take_append, List.take_of_length_le (by omega)]
  simp

end HighEnd

/-- There are two limbs at the high end of at least as many. -/
lemma exists_append_pair {xs : List UInt32} {n : ℕ} (h : xs.length = n + 2) :
    ∃ lo a b, xs = lo ++ [a, b] ∧ lo.length = n := by
  refine ⟨xs.take n, xs.getD n 0, xs.getD (n + 1) 0, ?_, by simp [h]⟩
  conv_lhs => rw [← List.take_append_drop n xs]
  congr 1
  rw [List.drop_eq_getElem_cons (by omega), List.drop_eq_getElem_cons (by omega),
    List.drop_eq_nil_of_le (by omega), List.getD_eq_getElem _ _ (by omega),
    List.getD_eq_getElem _ _ (by omega)]

/-! ## One round -/

section Round

variable {dl : List UInt32} {d1 d0 dinv : UInt32}

/-- Two numbers below a bound that differ by a multiple of it. -/
lemma eq_zero_of_add_mul {x y M z : ℤ} (hx : 0 ≤ x ∧ x < M) (hy : 0 ≤ y ∧ y < M)
    (h : x = y + M * z) : z = 0 := by
  have h₁ : M * z < M * 1 := by linarith
  have h₂ : M * -1 < M * z := by linarith
  have hM : 0 < M := by linarith
  have := lt_of_mul_lt_mul_left h₁ hM.le
  have := lt_of_mul_lt_mul_left h₂ hM.le
  omega

/-- The round where the highest limbs are those of the divisor: the limb of the quotient is the
highest one there is. -/
lemma pi1Round_max (hd : 2 ^ 63 ≤ pair (d1, d0)) {lo : List UInt32} {m : UInt32}
    (hlo : lo.length = dl.length)
    (hlt : num lo + (2 ^ 32) ^ dl.length * (m.toNat + 2 ^ 32 * pair (d1, d0)) <
      2 ^ 32 * num (dl ++ [d0, d1])) :
    let out := (mpnSubmul1 (lo ++ [m, d0]) (dl ++ [d0, d1]) gmpLimbMax).1
    out.length = dl.length + 2 ∧ num out < num (dl ++ [d0, d1]) ∧
      (2 ^ 32 - 1) * num (dl ++ [d0, d1]) + num out =
        num lo + (2 ^ 32) ^ dl.length * (m.toNat + 2 ^ 32 * pair (d1, d0)) := by
  have hlen : (lo ++ [m, d0]).length = (dl ++ [d0, d1]).length := by simp [hlo]
  have hsub := num_mpnSubmul1 (lo ++ [m, d0]) (dl ++ [d0, d1]) gmpLimbMax hlen
  have hout : (mpnSubmul1 (lo ++ [m, d0]) (dl ++ [d0, d1]) gmpLimbMax).1.length =
      dl.length + 2 := by
    rw [length_mpnSubmul1 _ _ _ hlen]
    simp
  have hbound := num_lt (mpnSubmul1 (lo ++ [m, d0]) (dl ++ [d0, d1]) gmpLimbMax).1
  have hdl := num_lt dl
  have hlo₀ := num_lt lo
  have hd' := num_lt (dl ++ [d0, d1])
  have hlen' : (dl ++ [d0, d1]).length = dl.length + 2 := by simp
  rw [hlen, num_append_pair, hlo, pair_mk, show gmpLimbMax.toNat = 2 ^ 32 - 1 from rfl,
    hlen'] at hsub
  rw [hout] at hbound
  rw [hlo] at hlo₀
  rw [hlen'] at hd'
  have hP : (0 : ℤ) < (2 ^ 32) ^ dl.length := by positivity
  have hpair := pair_mk d1 d0
  zify at hpair hd
  obtain ⟨hge, hlt'⟩ := Reciprocal.remainder_of_max (β := 2 ^ 32) (d := pair (d1, d0)) hP
    (by linarith) hdl hlo₀ (by rw [← num_append_pair]; exact hlt) (by linarith [m.toNat.zero_le])
  rw [← num_append_pair] at hge hlt'
  have heq : num (mpnSubmul1 (lo ++ [m, d0]) (dl ++ [d0, d1]) gmpLimbMax).1 =
      num lo + (2 ^ 32) ^ dl.length * (m.toNat + 2 ^ 32 * pair (d1, d0)) -
        (2 ^ 32 - 1) * num (dl ++ [d0, d1]) + (2 ^ 32) ^ (dl.length + 2) *
          ((mpnSubmul1 (lo ++ [m, d0]) (dl ++ [d0, d1]) gmpLimbMax).2.toNat - d1.toNat) := by
    rw [pow_add] at hsub ⊢
    push_cast at hsub
    rw [hpair]
    linear_combination hsub
  -- nothing is left of the highest limb, since what is left is below the divisor
  have hz := eq_zero_of_add_mul hbound ⟨hge, hlt'.trans hd'.2⟩ heq
  rw [hz, mul_zero, add_zero] at heq
  exact ⟨hout, by rw [heq]; exact hlt', by rw [heq]; ring⟩

/-- The other round: the limb of the quotient comes from the highest three limbs, and the divisor
is added once where it was too big.

**Proof sketch.** The remainder of the highest three limbs, with what the limb of the quotient
takes off below them, is above minus the divisor and below it (`Reciprocal.remainder_of_upper`),
and the borrow tells whether it is negative. -/
lemma pi1Round_other (hd : Reciprocal.Divisor (2 ^ 32) (2 ^ 32) (pair (d1, d0)) dinv.toNat)
    {lo : List UInt32} {m n1 n0 : UInt32} (hlo : lo.length = dl.length)
    (hlt : pair (n1, n0) < pair (d1, d0)) :
    let r := gmpUdivQr3by2 n1 n0 m d1 d0 dinv
    let low := mpnSubmul1 lo dl r.1
    let cy1 := truth (r.2.2 < low.2)
    let cy := truth (r.2.1 < cy1)
    let sum := mpnAddN (low.1 ++ [r.2.2 - low.2]) (dl ++ [d0])
    let out := if cy ≠ 0 then (r.1 - 1, r.2.1 - cy1 + (d1 + sum.2), sum.1)
      else (r.1, r.2.1 - cy1, low.1 ++ [r.2.2 - low.2])
    out.2.2.length = dl.length + 1 ∧ num (out.2.2 ++ [out.2.1]) < num (dl ++ [d0, d1]) ∧
      out.1.toNat * num (dl ++ [d0, d1]) + num (out.2.2 ++ [out.2.1]) =
        num lo + (2 ^ 32) ^ dl.length * (m.toNat + 2 ^ 32 * pair (n1, n0)) := by
  intro r low cy1 cy sum
  have hD := pair_mk d1 d0
  have hd63 := hd.le
  have hr : (r.1.toNat, pair r.2) = _ := @gmpUdivQr3by2_eq n1 n0 m d1 d0 dinv hd hlt
  have hsub : num low.1 - (2 ^ 32) ^ lo.length * low.2.toNat = _ := num_mpnSubmul1 lo dl r.1 hlo
  have hlow : low.1.length = dl.length := length_mpnSubmul1 _ _ _ hlo
  have hq := r.1.toNat_lt
  obtain ⟨hquot, hrest⟩ := Prod.mk.inj hr
  have hdiv := Nat.div_add_mod' (pair (n1, n0) * 2 ^ 32 + m.toNat) (pair (d1, d0))
  have hmod := Nat.mod_lt (pair (n1, n0) * 2 ^ 32 + m.toNat) (show 0 < pair (d1, d0) by omega)
  rw [← hquot, ← hrest] at hdiv
  rw [← hrest] at hmod
  -- what is left, and how far it is above and below
  have hP : (0 : ℤ) < (2 ^ 32) ^ dl.length := by positivity
  have hlo₀ := num_lt lo
  rw [hlo] at hsub hlo₀
  obtain ⟨hlower, hupper⟩ := Reciprocal.remainder_of_upper (β := 2 ^ 32) (d := pair (d1, d0))
    (h := m.toNat + 2 ^ 32 * pair (n1, n0)) (q := r.1.toNat) (r := pair r.2) hP (by omega)
    (num_lt dl) hlo₀ ⟨by omega, by omega⟩ ⟨by omega, by exact_mod_cast hmod⟩
    (by zify at hdiv; linear_combination (-1 : ℤ) * hdiv)
  rw [← num_append_pair] at hlower hupper
  -- what the limbs are, with the borrows
  have hleft : num (low.1 ++ [r.2.2 - low.2, r.2.1 - cy1]) =
      num lo + (2 ^ 32) ^ dl.length * (m.toNat + 2 ^ 32 * pair (n1, n0)) -
        r.1.toNat * num (dl ++ [d0, d1]) + (2 ^ 32) ^ (dl.length + 2) * cy.toNat := by
    have hb₀ : ((r.2.2 - low.2).toNat : ℤ) + 2 ^ 32 * -cy1.toNat = r.2.2.toNat + -low.2.toNat :=
      sub1Round_eq r.2.2 low.2
    have hb₁ : ((r.2.1 - cy1).toNat : ℤ) + 2 ^ 32 * -cy.toNat = r.2.1.toNat + -cy1.toNat :=
      sub1Round_eq r.2.1 cy1
    have hpair : pair r.2 = r.2.1.toNat * 2 ^ 32 + r.2.2.toNat := pair_mk _ _
    rw [hpair] at hdiv
    zify at hdiv
    rw [num_append_pair, num_append_pair, hlow, pow_add, pair_mk]
    push_cast
    linear_combination hsub + (2 ^ 32) ^ dl.length * (hb₀ + 2 ^ 32 * hb₁ + hdiv)
  have hbound := num_lt (low.1 ++ [r.2.2 - low.2, r.2.1 - cy1])
  have hdlt := num_lt (dl ++ [d0, d1])
  have hlen : (low.1 ++ [r.2.2 - low.2, r.2.1 - cy1]).length = dl.length + 2 := by simp [hlow]
  have hlen' : (dl ++ [d0, d1]).length = dl.length + 2 := by simp
  rw [hlen] at hbound
  rw [hlen'] at hdlt
  split_ifs with hborrow
  · have hcy : cy.toNat = 1 := by
      have hne : cy.toNat ≠ 0 := fun h => hborrow (UInt32.toNat_inj.mp h)
      have hle : cy.toNat ≤ 1 := by
        change (truth _).toNat ≤ 1
        rw [truth]
        split_ifs <;> decide
      omega
    rw [hcy, Nat.cast_one, mul_one] at hleft
    have hneg : num lo + (2 ^ 32) ^ dl.length * (m.toNat + 2 ^ 32 * pair (n1, n0)) -
        r.1.toNat * num (dl ++ [d0, d1]) < 0 := by linarith
    -- the divisor is added, and what goes over the limbs makes up for the borrow
    have hsum : num sum.1 + (2 ^ 32) ^ (low.1 ++ [r.2.2 - low.2]).length * sum.2.toNat = _ :=
      num_mpnAddN (low.1 ++ [r.2.2 - low.2]) (dl ++ [d0]) (by simp [hlow])
    have hsumlen : sum.1.length = dl.length + 1 := by
      rw [length_mpnAddN _ _ (by simp [hlow])]
      simp
    obtain ⟨e, he⟩ : ∃ e : ℤ, ((r.2.1 - cy1 + (d1 + sum.2)).toNat : ℤ) + 2 ^ 32 * e =
        (r.2.1 - cy1).toNat + d1.toNat + sum.2.toNat := by
      refine ⟨((r.2.1 - cy1).toNat + (d1.toNat + sum.2.toNat)) / 2 ^ 32, ?_⟩
      rw [UInt32.toNat_add, UInt32.toNat_add, Nat.add_mod_mod]
      push_cast
      omega
    have hback : num (sum.1 ++ [r.2.1 - cy1 + (d1 + sum.2)]) =
        num lo + (2 ^ 32) ^ dl.length * (m.toNat + 2 ^ 32 * pair (n1, n0)) -
          r.1.toNat * num (dl ++ [d0, d1]) + num (dl ++ [d0, d1]) +
          (2 ^ 32) ^ (dl.length + 2) * (1 - e) := by
      rw [List.length_append, List.length_singleton, hlow, num_append_one, num_append_one,
        hlow] at hsum
      rw [num_append_pair, hlow, pair_mk] at hleft
      have hdd := num_append_pair dl d0 d1
      rw [hD] at hdd
      rw [num_append_one, hsumlen]
      push_cast [pow_add] at hleft hsum hdd ⊢
      linear_combination hleft + hsum + (2 ^ 32) ^ dl.length * 2 ^ 32 * he - hdd
    have hbound' := num_lt (sum.1 ++ [r.2.1 - cy1 + (d1 + sum.2)])
    rw [List.length_append, List.length_singleton, hsumlen] at hbound'
    have hz := eq_zero_of_add_mul hbound' ⟨by linarith, by linarith [hdlt.2]⟩ hback
    rw [hz, mul_zero, add_zero] at hback
    have hq₁ : (r.1 - 1).toNat + 1 = r.1.toNat := by
      have hne : r.1.toNat ≠ 0 := by
        intro h
        have hx : (0 : ℤ) ≤ (2 ^ 32) ^ dl.length * (m.toNat + 2 ^ 32 * pair (n1, n0)) :=
          mul_nonneg hP.le (by omega)
        rw [h, Nat.cast_zero, zero_mul, sub_zero] at hneg
        linarith
      rw [UInt32.toNat_sub, UInt32.toNat_one]
      omega
    refine ⟨hsumlen, by rw [hback]; linarith, ?_⟩
    zify at hq₁
    rw [hback]
    linear_combination num (dl ++ [d0, d1]) * hq₁
  · have hcy : cy.toNat = 0 := by rw [not_not.mp hborrow]; rfl
    rw [hcy, Nat.cast_zero, mul_zero, add_zero] at hleft
    refine ⟨by simp [hlow], ?_, ?_⟩
    · rw [List.append_assoc, List.singleton_append, hleft]
      exact hupper
    · rw [List.append_assoc, List.singleton_append, hleft]
      ring

/-- The highest limb comes behind those below it. -/
lemma take_append_getD {xs : List UInt32} {n : ℕ} (h : xs.length = n + 1) :
    xs.take n ++ [xs.getD n 0] = xs := by
  conv_rhs => rw [← List.take_append_drop n xs]
  rw [List.drop_eq_getElem_cons (by omega), List.drop_eq_nil_of_le (by omega),
    List.getD_eq_getElem _ _ (by omega)]

/-- **One round.** What is left of the limbs above, with the limb that comes behind it, is divided
by the divisor.

**Proof sketch.** What is left is below the divisor, so its highest two limbs are not above those
of the divisor: they are the same, or the highest three limbs can be divided by them. -/
theorem pi1Round_eq (hd : Reciprocal.Divisor (2 ^ 32) (2 ^ 32) (pair (d1, d0)) dinv.toNat)
    (n : UInt32) {s : UInt32 × List UInt32} (hw : s.2.length = dl.length + 1)
    (hlt : num (s.2 ++ [s.1]) < num (dl ++ [d0, d1])) :
    let out := pi1Round (dl ++ [d0, d1]) dinv n s
    out.2.2.length = dl.length + 1 ∧ num (out.2.2 ++ [out.2.1]) < num (dl ++ [d0, d1]) ∧
      out.1.toNat * num (dl ++ [d0, d1]) + num (out.2.2 ++ [out.2.1]) =
        num (s.2 ++ [s.1]) * 2 ^ 32 + n.toNat := by
  obtain ⟨n1, w⟩ := s
  obtain ⟨lo, m, n0, hnp, hlo⟩ : ∃ lo m n0, n :: w = lo ++ [m, n0] ∧ lo.length = dl.length :=
    exists_append_pair (by simpa using hw)
  dsimp only at hw hlt ⊢
  have hwindow : num (w ++ [n1]) * 2 ^ 32 + n.toNat =
      num lo + (2 ^ 32) ^ dl.length * (m.toNat + 2 ^ 32 * pair (n1, n0)) := by
    have hnum : n.toNat + 2 ^ 32 * num w = num lo + (2 ^ 32) ^ lo.length * pair (n0, m) := by
      rw [← num_append_pair, ← hnp, num_cons]
    rw [hlo, pair_mk] at hnum
    rw [num_append_one, hw, pair_mk]
    push_cast [pow_add] at hnum ⊢
    linear_combination hnum
  rw [hwindow]
  have hlt' : num lo + (2 ^ 32) ^ dl.length * (m.toNat + 2 ^ 32 * pair (n1, n0)) <
      2 ^ 32 * num (dl ++ [d0, d1]) := by
    have := n.toNat_lt
    rw [← hwindow]
    omega
  have hlen : (dl ++ [d0, d1]).length = dl.length + 2 := by simp
  simp only [pi1Round, hnp, hlen, Nat.add_sub_cancel,
    show dl.length + 2 - 1 = dl.length + 1 from rfl,
    getD_append_pair_high hlo, getD_append_pair_low hlo, take_append_pair_low hlo,
    @getD_append_pair_high dl _ rfl, @getD_append_pair_low dl _ rfl,
    @take_append_pair_low dl _ rfl, @take_append_pair_high dl _ rfl]
  by_cases hmax : n1 = d1 ∧ n0 = d0
  · obtain ⟨rfl, rfl⟩ := hmax
    obtain ⟨hlength, hbelow, hval⟩ := pi1Round_max (by have := hd.le; omega) hlo hlt'
    simp only [and_self, if_true, take_append_getD hlength]
    refine ⟨by simp [hlength], hbelow, ?_⟩
    rw [← hval]
    rfl
  · rw [if_neg hmax]
    refine pi1Round_other hd hlo (lt_of_le_of_ne ?_ ?_)
    · have hP : (0 : ℤ) < 2 ^ 32 * (2 ^ 32) ^ dl.length := by positivity
      have hm : (0 : ℤ) ≤ (2 ^ 32) ^ dl.length * m.toNat := by positivity
      have hdl := (num_lt dl).2
      have hlo₀ := (num_lt lo).1
      rw [num_append_pair] at hlt'
      have : 2 ^ 32 * (2 ^ 32) ^ dl.length * (pair (n1, n0) : ℤ) <
          2 ^ 32 * (2 ^ 32) ^ dl.length * (pair (d1, d0) + 1) := by linarith
      exact Nat.le_of_lt_succ (by exact_mod_cast lt_of_mul_lt_mul_left this hP.le)
    · intro heq
      have h₁ := n0.toNat_lt
      have h₂ := d0.toNat_lt
      rw [pair_mk, pair_mk] at heq
      exact hmax ⟨UInt32.toNat_inj.mp (by omega), UInt32.toNat_inj.mp (by omega)⟩

end Round

/-! ## The shifts around a division -/

/-- The number that is divided is shifted up, and the limb above it is small. -/
lemma shiftUp_eq (np : List UInt32) {shift : UInt32} (hs : shift.toNat < 32) :
    num (shiftUp np shift).1 + (2 ^ 32) ^ np.length * (shiftUp np shift).2.toNat =
        2 ^ shift.toNat * num np ∧
      (shiftUp np shift).1.length = np.length ∧ (shiftUp np shift).2.toNat < 2 ^ shift.toNat := by
  have hnp := num_lt np
  rw [shiftUp]
  split_ifs with hpos
  · have hpos' : 0 < shift.toNat := UInt32.lt_iff_toNat_lt.mp hpos
    obtain ⟨hnum, hlength⟩ := num_mpnLshift hpos' hs np
    refine ⟨hnum, hlength, ?_⟩
    have hout := (num_lt (mpnLshift np shift).1).1
    have hlt : (2 ^ 32) ^ np.length * ((mpnLshift np shift).2.toNat : ℤ) <
        (2 ^ 32) ^ np.length * 2 ^ shift.toNat := by
      have : 2 ^ shift.toNat * num np < 2 ^ shift.toNat * (2 ^ 32) ^ np.length :=
        mul_lt_mul_of_pos_left hnp.2 (by positivity)
      linarith
    exact_mod_cast lt_of_mul_lt_mul_left hlt (by positivity)
  · have hzero : shift.toNat = 0 := by
      rw [gt_iff_lt, UInt32.lt_iff_toNat_lt, UInt32.toNat_zero] at hpos
      omega
    rw [hzero]
    simp

/-- The remainder is shifted down. -/
lemma num_shiftDown (rp : List UInt32) {shift : UInt32} (hs : shift.toNat < 32) :
    num (shiftDown rp shift) = num rp / 2 ^ shift.toNat ∧
      (shiftDown rp shift).length = rp.length := by
  rw [shiftDown]
  split_ifs with hpos
  · exact num_mpnRshift (UInt32.lt_iff_toNat_lt.mp hpos) hs rp
  · have hzero : shift.toNat = 0 := by
      rw [gt_iff_lt, UInt32.lt_iff_toNat_lt, UInt32.toNat_zero] at hpos
      omega
    rw [hzero]
    simp

/-- The quotient and the remainder of numbers that have both been shifted up. -/
lemma eq_of_shifted {q d r n m : ℤ} {k : ℕ} (hdiv : q * d + r = 2 ^ k * n) (hr : 0 ≤ r ∧ r < d)
    (hd : d = 2 ^ k * m) : q = n / m ∧ r / 2 ^ k = n % m := by
  have hk : (0 : ℤ) < 2 ^ k := by positivity
  obtain rfl : r = 2 ^ k * (n - q * m) := by
    rw [hd] at hdiv
    linear_combination hdiv
  have h₀ : 0 ≤ n - q * m := nonneg_of_mul_nonneg_right hr.1 hk
  have h₁ : n - q * m < m := lt_of_mul_lt_mul_left (by rw [← hd]; exact hr.2) hk.le
  have hmod : n % m = n - q * m := by
    rw [← Int.emod_eq_of_lt h₀ h₁, Int.sub_mul_emod_self_right]
  rw [Int.mul_ediv_cancel_left _ hk.ne', hmod]
  refine ⟨?_, rfl⟩
  rw [← Int.sub_add_cancel n (q * m), Int.add_mul_ediv_right _ _ (by omega),
    Int.ediv_eq_zero_of_lt h₀ h₁, zero_add]

/-! ## Whole divisions -/

/-- A divisor that is normalized, with its reciprocal. -/
inductive Prepared (inv : GmpDivInverse) : List UInt32 → Prop
  | one (h : Reciprocal.Divisor (2 ^ 32) 1 inv.d1.toNat inv.di.toNat) : Prepared inv [inv.d1]
  | more (dl : List UInt32)
    (h : Reciprocal.Divisor (2 ^ 32) (2 ^ 32) (pair (inv.d1, inv.d0)) inv.di.toNat) :
    Prepared inv (dl ++ [inv.d0, inv.d1])

section Whole

variable {inv : GmpDivInverse} (np : List UInt32) (hs : inv.shift.toNat < 32)

include hs in
/-- The division by one limb. -/
lemma mpnDivQr1Preinv_eq (hd : Reciprocal.Divisor (2 ^ 32) 1 inv.d1.toNat inv.di.toNat) {m : ℤ}
    (hm : (inv.d1.toNat : ℤ) = 2 ^ inv.shift.toNat * m) :
    num (mpnDivQr1Preinv np inv).1 = num np / m ∧
      ((mpnDivQr1Preinv np inv).2.toNat : ℤ) = num np % m := by
  obtain ⟨hnum, hlength, hnh⟩ := shiftUp_eq np hs
  simp only [mpnDivQr1Preinv]
  generalize shiftUp np inv.shift = s at *
  have hstep (n r : UInt32) (hr : r < inv.d1) :
      (gmpUdivQrnndPreinv r n inv.d1 inv.di).2 < inv.d1 ∧
        unit (gmpUdivQrnndPreinv r n inv.d1 inv.di).1 * unit inv.d1 +
          unit (gmpUdivQrnndPreinv r n inv.d1 inv.di).2 = unit r * 2 ^ 32 + unit n := by
    obtain ⟨hq, hr'⟩ := Prod.mk.inj (@gmpUdivQrnndPreinv_eq r n _ _ hd hr)
    have hdiv := Nat.div_add_mod' (pair (r, n)) inv.d1.toNat
    have hmod := Nat.mod_lt (pair (r, n)) (show 0 < inv.d1.toNat by have := hd.le; omega)
    rw [← hq, ← hr', pair_mk] at hdiv
    rw [← hr'] at hmod
    zify at hdiv
    exact ⟨UInt32.lt_iff_toNat_lt.mpr hmod, hdiv⟩
  obtain ⟨hgood, hrun⟩ := Positional.value_divided (2 ^ 32) (unit inv.d1) unit unit unit
    (fun r => r < inv.d1) hstep s.1 (s := s.2) (by
      have hpow : 2 ^ inv.shift.toNat ≤ 2 ^ 31 := Nat.pow_le_pow_right (by decide) (by omega)
      have := hd.le
      exact UInt32.lt_iff_toNat_lt.mpr (by omega))
  rw [hlength] at hrun
  obtain ⟨hquot, hrest⟩ := eq_of_shifted (n := num np) (k := inv.shift.toNat) (by
      refine hrun.trans ?_
      rw [← hnum, add_comm, mul_comm]
      rfl)
    ⟨Int.natCast_nonneg _, Int.ofNat_lt.mpr (UInt32.lt_iff_toNat_lt.mp hgood)⟩ hm
  refine ⟨hquot, ?_⟩
  rw [toNat_shiftRight_cnt hs, ← hrest]
  push_cast
  rfl

include hs in
/-- The division by two limbs. -/
lemma mpnDivQr2Preinv_eq (hlen : 2 ≤ np.length)
    (hd : Reciprocal.Divisor (2 ^ 32) (2 ^ 32) (pair (inv.d1, inv.d0)) inv.di.toNat) {m : ℤ}
    (hm : (pair (inv.d1, inv.d0) : ℤ) = 2 ^ inv.shift.toNat * m) :
    num (mpnDivQr2Preinv np inv).1 = num np / m ∧
      num [(mpnDivQr2Preinv np inv).2.1, (mpnDivQr2Preinv np inv).2.2] = num np % m := by
  obtain ⟨hnum, hlength, hnh⟩ := shiftUp_eq np hs
  rcases hc : shiftUp np inv.shift with ⟨xs, nh⟩
  rw [hc] at hnum hlength hnh
  dsimp only at hnum hlength hnh
  have hstep (n : UInt32) (r : UInt32 × UInt32) (hr : pair r < pair (inv.d1, inv.d0)) :
      pair (gmpUdivQr3by2 r.1 r.2 n inv.d1 inv.d0 inv.di).2 < pair (inv.d1, inv.d0) ∧
        unit (gmpUdivQr3by2 r.1 r.2 n inv.d1 inv.d0 inv.di).1 * pair (inv.d1, inv.d0) +
          pair (gmpUdivQr3by2 r.1 r.2 n inv.d1 inv.d0 inv.di).2 = pair r * 2 ^ 32 + unit n := by
    obtain ⟨hq, hr'⟩ := Prod.mk.inj (@gmpUdivQr3by2_eq r.1 r.2 n _ _ _ hd hr)
    have hdiv := Nat.div_add_mod' (pair (r.1, r.2) * 2 ^ 32 + n.toNat) (pair (inv.d1, inv.d0))
    have hmod := Nat.mod_lt (pair (r.1, r.2) * 2 ^ 32 + n.toNat)
      (show 0 < pair (inv.d1, inv.d0) by omega)
    rw [← hq, ← hr'] at hdiv
    rw [← hr'] at hmod
    zify at hdiv
    exact ⟨hmod, hdiv⟩
  obtain ⟨lo, top, rfl⟩ : ∃ lo top, xs = lo ++ [top] :=
    ⟨xs.dropLast, xs.getLast (by rintro rfl; simp at hlength; omega),
      (List.dropLast_append_getLast _).symm⟩
  rw [List.length_append, List.length_singleton] at hlength
  obtain ⟨hgood, hrun⟩ := Positional.value_divided (2 ^ 32 : ℤ) (pair (inv.d1, inv.d0)) unit unit
    (fun r : UInt32 × UInt32 => (pair r : ℤ)) (fun r => pair r < pair (inv.d1, inv.d0)) hstep lo
    (s := (nh, top)) (by
      have hpow : 2 ^ inv.shift.toNat ≤ 2 ^ 31 := Nat.pow_le_pow_right (by decide) (by omega)
      have := hd.le
      have := top.toNat_lt
      rw [pair_mk nh top]
      omega)
  simp only [mpnDivQr2Preinv, hc, List.dropLast_concat, List.getLastD_concat]
  generalize Positional.divided (fun n r => gmpUdivQr3by2 r.1 r.2 n inv.d1 inv.d0 inv.di) (nh, top)
    lo = out at *
  obtain ⟨qp, r1, r0⟩ := out
  dsimp only at hgood hrun ⊢
  have hpair : num [r0, r1] = pair (r1, r0) := by
    rw [pair_mk, num_cons, num_cons, num_nil]
    push_cast
    ring
  obtain ⟨hquot, hrest⟩ := eq_of_shifted (n := num np) (k := inv.shift.toNat) (by
      refine hrun.trans ?_
      rw [← hnum, num_append_one, ← hlength, pair_mk, num]
      push_cast [pow_succ]
      ring)
    ⟨Int.natCast_nonneg _, Int.ofNat_lt.mpr hgood⟩ hm
  have hdown := (num_shiftDown [r0, r1] hs).1
  rw [hpair, hrest] at hdown
  rw [← hdown, shiftDown]
  split_ifs
  · exact ⟨hquot, rfl⟩
  · exact ⟨hquot, rfl⟩

/-- The division by more limbs, of a number that has a small limb above it. -/
lemma mpnDivQrPi1_eq {dl : List UInt32} {d1 d0 dinv n1 : UInt32}
    (hd : Reciprocal.Divisor (2 ^ 32) (2 ^ 32) (pair (d1, d0)) dinv.toNat)
    (hlen : dl.length + 2 ≤ np.length) (hn1 : n1.toNat < 2 ^ 31) :
    let out := mpnDivQrPi1 np n1 (dl ++ [d0, d1]) dinv
    num out.1 * num (dl ++ [d0, d1]) + num out.2 = num (np ++ [n1]) ∧
      num out.2 < num (dl ++ [d0, d1]) ∧ out.2.length = dl.length + 2 := by
  have hdlen : (dl ++ [d0, d1]).length = dl.length + 2 := by simp
  have hhigh : (np.drop (np.length - (dl.length + 2) + 1)).length = dl.length + 1 := by
    rw [List.length_drop]
    omega
  have hbelow : num (np.drop (np.length - (dl.length + 2) + 1) ++ [n1]) < num (dl ++ [d0, d1]) := by
    have hw := (num_lt (np.drop (np.length - (dl.length + 2) + 1))).2
    have hdl := (num_lt dl).1
    have hP : (0 : ℤ) < (2 ^ 32) ^ dl.length := by positivity
    rw [hhigh, pow_succ] at hw
    rw [num_append_one, num_append_pair, hhigh, pow_succ]
    have hD : (2 ^ 32 * 2 ^ 32 : ℤ) ≤ 2 * pair (d1, d0) := by exact_mod_cast hd.le
    have hn1' : (n1.toNat : ℤ) + 1 ≤ 2 ^ 31 := by exact_mod_cast hn1
    nlinarith
  have hstep (n : UInt32) (s : UInt32 × List UInt32)
      (hs : s.2.length = dl.length + 1 ∧ num (s.2 ++ [s.1]) < num (dl ++ [d0, d1])) :
      ((pi1Round (dl ++ [d0, d1]) dinv n s).2.2.length = dl.length + 1 ∧
          num ((pi1Round (dl ++ [d0, d1]) dinv n s).2.2 ++
            [(pi1Round (dl ++ [d0, d1]) dinv n s).2.1]) < num (dl ++ [d0, d1])) ∧
        unit (pi1Round (dl ++ [d0, d1]) dinv n s).1 * num (dl ++ [d0, d1]) +
            num ((pi1Round (dl ++ [d0, d1]) dinv n s).2.2 ++
              [(pi1Round (dl ++ [d0, d1]) dinv n s).2.1]) =
          num (s.2 ++ [s.1]) * 2 ^ 32 + unit n := by
    obtain ⟨h₁, h₂, h₃⟩ := pi1Round_eq hd n hs.1 hs.2
    exact ⟨⟨h₁, h₂⟩, h₃⟩
  obtain ⟨⟨hlength, hlt⟩, hrun⟩ := Positional.value_divided (2 ^ 32 : ℤ) (num (dl ++ [d0, d1])) unit
    unit (fun s : UInt32 × List UInt32 => num (s.2 ++ [s.1]))
    (fun s => s.2.length = dl.length + 1 ∧ num (s.2 ++ [s.1]) < num (dl ++ [d0, d1])) hstep
    (np.take (np.length - (dl.length + 2) + 1))
    (s := (n1, np.drop (np.length - (dl.length + 2) + 1))) ⟨hhigh, hbelow⟩
  simp only [mpnDivQrPi1, hdlen]
  refine ⟨hrun.trans ?_, hlt, by simp [hlength]⟩
  conv_rhs => rw [← List.take_append_drop (np.length - (dl.length + 2) + 1) np]
  rw [List.append_assoc, add_comm, mul_comm]
  exact (num_append _ _).symm

end Whole

/-- **Division.** With a divisor that is prepared, the quotient and the remainder of any number
that has as many limbs.

**Proof sketch.** The number is shifted up as the divisor was, the rounds divide it, and the
remainder is shifted down. -/
theorem mpnDivQrPreinv_spec {inv : GmpDivInverse} {np dp : List UInt32} (hp : Prepared inv dp)
    (hs : inv.shift.toNat < 32) (hlen : dp.length ≤ np.length) {m : ℤ}
    (hm : num dp = 2 ^ inv.shift.toNat * m) :
    num (mpnDivQrPreinv np dp inv).1 = num np / m ∧
      num (mpnDivQrPreinv np dp inv).2 = num np % m ∧
      (mpnDivQrPreinv np dp inv).2.length = dp.length := by
  cases hp with
  | one hd =>
    have hm' : (inv.d1.toNat : ℤ) = 2 ^ inv.shift.toNat * m := by
      rw [← hm, num_cons, num_nil, mul_zero, add_zero]
    obtain ⟨hquot, hrest⟩ := mpnDivQr1Preinv_eq np hs hd hm'
    simp only [mpnDivQrPreinv, List.length_singleton, if_true, num_cons, num_nil, hquot, hrest]
    simp
  | more dl hd =>
    have hdlen : (dl ++ [inv.d0, inv.d1]).length = dl.length + 2 := by simp
    rw [hdlen] at hlen
    rw [mpnDivQrPreinv, hdlen, if_neg (by omega)]
    by_cases hdl : dl = []
    · subst hdl
      have hm' : (pair (inv.d1, inv.d0) : ℤ) = 2 ^ inv.shift.toNat * m := by
        rw [← hm, num_append_pair]
        simp
      obtain ⟨hquot, hrest⟩ := mpnDivQr2Preinv_eq np hs (by simpa using hlen) hd hm'
      exact ⟨hquot, hrest, rfl⟩
    · have hpos : 0 < dl.length := List.length_pos_iff.mpr hdl
      rw [if_neg (by omega)]
      obtain ⟨hnum, hlength, hnh⟩ := shiftUp_eq np hs
      have hpow : 2 ^ inv.shift.toNat ≤ 2 ^ 31 := Nat.pow_le_pow_right (by decide) (by omega)
      obtain ⟨hdiv, hlt, hlength'⟩ := @mpnDivQrPi1_eq (shiftUp np inv.shift).1 dl _ _ _ _ hd
        (by rw [hlength]; exact hlen) (show (shiftUp np inv.shift).2.toNat < 2 ^ 31 by omega)
      rw [num_append_one, hlength, hnum] at hdiv
      obtain ⟨hquot, hrest⟩ := eq_of_shifted hdiv ⟨(num_lt _).1, hlt⟩ hm
      obtain ⟨hdown, hlength''⟩ := num_shiftDown
        (mpnDivQrPi1 (shiftUp np inv.shift).1 (shiftUp np inv.shift).2 (dl ++ [inv.d0, inv.d1])
          inv.di).2 hs
      exact ⟨hquot, hdown.trans hrest, hlength''.trans hlength'⟩

/-! ## The preparation -/

section Preparation

variable {d1 shift : UInt32}

/-- The highest limb, shifted up with what comes up from below it. -/
def topLimb (shift high low : UInt32) : UInt32 :=
  (high <<< shift) ||| (low >>> (gmpLimbBits - shift))

/-- It is normalized, whatever comes up. -/
lemma le_topLimb (hs : 0 < shift.toNat) (hlt : shift.toNat < 32)
    (hd : 2 ^ 31 ≤ d1.toNat * 2 ^ shift.toNat) (hd' : d1.toNat * 2 ^ shift.toNat < 2 ^ 32)
    (low : UInt32) : 2 ^ 31 ≤ (topLimb shift d1 low).toNat := by
  rw [topLimb, or_shiftRight hs hlt low (dvd_shiftLeft hlt d1), toNat_shiftLeft_cnt hlt,
    Nat.mod_eq_of_lt hd']
  omega

/-- Two limbs with their reciprocal. -/
lemma divisor_of_two {d1 : UInt32} (d0 : UInt32) (hd : 2 ^ 31 ≤ d1.toNat) :
    Reciprocal.Divisor (2 ^ 32) (2 ^ 32) (pair (d1, d0)) (mpnInvert3by2 d1 d0).toNat := by
  refine ⟨by decide, by decide, pair_lt (d1, d0), ?_, mpnInvert3by2_isReciprocal d0 hd⟩
  rw [pair_mk]
  omega

/-- One limb with its reciprocal. -/
lemma divisor_of_one {d1 : UInt32} (hd : 2 ^ 31 ≤ d1.toNat) :
    Reciprocal.Divisor (2 ^ 32) 1 d1.toNat (mpnInvertLimb d1).toNat := by
  have hlt := d1.toNat_lt
  obtain ⟨h₁, h₂⟩ := mpnInvert3by2_isReciprocal 0 hd
  have hpair : pair (d1, 0) = d1.toNat * 2 ^ 32 := by
    rw [pair_mk]
    exact Nat.add_zero _
  rw [hpair, ← Nat.mul_assoc] at h₁ h₂
  refine ⟨by decide, by decide, by omega, by omega, ?_, ?_⟩
  · rw [mpnInvertLimb]
    omega
  · rw [mpnInvertLimb]
    omega

end Preparation

/-- The divisor is shifted up until its highest limb is normalized, nothing is shifted out, and
the reciprocal is taken of what it then begins with. -/
theorem mpnDivQrInvert_spec {dp : List UInt32} (h : dp ≠ []) (htop : dp.getLast h ≠ 0) :
    ∃ inv, mpnDivQrInvert dp = some inv ∧ inv.shift.toNat < 32 ∧
      Prepared inv (shiftUp dp inv.shift).1 ∧
      num (shiftUp dp inv.shift).1 = 2 ^ inv.shift.toNat * num dp := by
  rcases hrev : dp.reverse with _ | ⟨d1, rest⟩
  · exact absurd (List.reverse_eq_nil_iff.mp hrev) h
  · have hdp : dp = rest.reverse ++ [d1] := by
      rw [← List.reverse_reverse dp, hrev, List.reverse_cons]
    have hd1 : d1 ≠ 0 := by simpa [hdp] using htop
    obtain ⟨shift, hclz, hs, hlow, hhigh⟩ := gmpClz_eq_some hd1
    have hout : num (shiftUp dp shift).1 = 2 ^ shift.toNat * num dp := by
      obtain ⟨hnum, -, -⟩ := shiftUp_eq dp hs
      have hge := (num_lt (shiftUp dp shift).1).1
      have hrest := (num_lt rest.reverse).2
      have hroom : (d1.toNat + 1) * 2 ^ shift.toNat ≤ (2 ^ 32 : ℤ) := by
        have hpow : 2 ^ 32 = 2 ^ (32 - shift.toNat) * 2 ^ shift.toNat := by
          rw [← Nat.pow_add, Nat.sub_add_cancel hs.le]
        rw [hpow] at hhigh
        have := Nat.mul_le_mul_right (2 ^ shift.toNat)
          (lt_of_mul_lt_mul_right hhigh (Nat.zero_le _))
        rw [← hpow] at this
        exact_mod_cast this
      have hval := num_append_one rest.reverse d1
      rw [← hdp] at hval
      have hP : (0 : ℤ) < (2 ^ 32) ^ rest.reverse.length := by positivity
      have hlen : dp.length = rest.reverse.length + 1 := by rw [hdp]; simp
      rw [hlen, pow_succ] at hnum
      have hzero : ((shiftUp dp shift).2.toNat : ℤ) < 1 := by
        have : (2 ^ 32) ^ rest.reverse.length * 2 ^ 32 * ((shiftUp dp shift).2.toNat : ℤ) <
            (2 ^ 32) ^ rest.reverse.length * 2 ^ 32 * 1 := by
          calc _ ≤ 2 ^ shift.toNat * num dp := by linarith
            _ < 2 ^ shift.toNat * ((2 ^ 32) ^ rest.reverse.length * (d1.toNat + 1)) :=
              mul_lt_mul_of_pos_left (by rw [hval]; linarith) (by positivity)
            _ = (2 ^ 32) ^ rest.reverse.length * ((d1.toNat + 1) * 2 ^ shift.toNat) := by ring
            _ ≤ (2 ^ 32) ^ rest.reverse.length * 2 ^ 32 := mul_le_mul_of_nonneg_left hroom hP.le
            _ = (2 ^ 32) ^ rest.reverse.length * 2 ^ 32 * 1 := by ring
        exact lt_of_mul_lt_mul_left this (by positivity)
      rw [show (shiftUp dp shift).2.toNat = 0 by omega] at hnum
      rw [← hnum]
      simp
    by_cases hpos : shift > 0
    · have hpos' : 0 < shift.toNat := UInt32.lt_iff_toNat_lt.mp hpos
      have hup : (shiftUp dp shift).1 = (lshiftLoop shift (d1 <<< shift) rest).reverse := by
        rw [shiftUp, if_pos hpos, mpnLshift, hrev]
      have htop := le_topLimb hpos' hs hlow hhigh
      obtain _ | ⟨d0, _ | ⟨dl, rest⟩⟩ := rest
      · refine ⟨{ shift, d1 := d1 <<< shift, d0 := 0, di := mpnInvertLimb (d1 <<< shift) },
          ?_, hs, ?_, hout⟩
        · rw [mpnDivQrInvert, hrev]
          simp only [mpnDivQr1Invert, hclz]
          rfl
        · rw [hup]
          refine @Prepared.one { shift, d1 := d1 <<< shift, .. } (divisor_of_one ?_)
          rw [toNat_shiftLeft_cnt hs, Nat.mod_eq_of_lt hhigh]
          exact hlow
      · refine ⟨{ shift, d1 := topLimb shift d1 d0, d0 := d0 <<< shift,
                  di := mpnInvert3by2 (topLimb shift d1 d0) (d0 <<< shift) }, ?_, hs, ?_, hout⟩
        · rw [mpnDivQrInvert, hrev]
          simp only [mpnDivQr2Invert, hclz, Option.bind_eq_bind, Option.bind_some, if_pos hpos]
          rfl
        · rw [hup]
          exact Prepared.more [] (divisor_of_two _ (htop d0))
      · refine ⟨{ shift, d1 := topLimb shift d1 d0, d0 := topLimb shift d0 dl,
                  di := mpnInvert3by2 (topLimb shift d1 d0) (topLimb shift d0 dl) },
          ?_, hs, ?_, hout⟩
        · rw [mpnDivQrInvert, hrev]
          simp only [hclz, Option.bind_eq_bind, Option.bind_some, if_pos hpos]
          rfl
        · have hloop : (lshiftLoop shift (d1 <<< shift) (d0 :: dl :: rest)).reverse =
              (lshiftLoop shift (dl <<< shift) rest).reverse ++
                [topLimb shift d0 dl, topLimb shift d1 d0] := by
            simp [lshiftLoop, topLimb]
          rw [hup, hloop]
          exact Prepared.more _ (divisor_of_two _ (htop d0))
    · have hzero : shift.toNat = 0 := by
        rw [gt_iff_lt, UInt32.lt_iff_toNat_lt, UInt32.toNat_zero] at hpos
        omega
      have hnone : shiftUp dp shift = (dp, 0) := by rw [shiftUp, if_neg hpos]
      rw [hzero, Nat.pow_zero, Nat.mul_one] at hlow
      obtain _ | ⟨d0, _ | ⟨dl, rest⟩⟩ := rest
      · have hsame : d1 <<< shift = d1 := by
          rw [← UInt32.toNat_inj, toNat_shiftLeft_cnt hs, hzero, Nat.pow_zero, Nat.mul_one]
          exact Nat.mod_eq_of_lt d1.toNat_lt
        refine ⟨{ shift, d1, d0 := 0, di := mpnInvertLimb d1 }, ?_, hs, ?_, hout⟩
        · rw [mpnDivQrInvert, hrev]
          simp only [mpnDivQr1Invert, hclz, Option.bind_eq_bind, Option.bind_some, hsame]
        · rw [hnone, hdp]
          exact Prepared.one (divisor_of_one hlow)
      · refine ⟨{ shift, d1, d0, di := mpnInvert3by2 d1 d0 }, ?_, hs, ?_, hout⟩
        · rw [mpnDivQrInvert, hrev]
          simp only [mpnDivQr2Invert, hclz, Option.bind_eq_bind, Option.bind_some, if_neg hpos]
        · rw [hnone, hdp]
          exact Prepared.more [] (divisor_of_two _ hlow)
      · refine ⟨{ shift, d1, d0, di := mpnInvert3by2 d1 d0 }, ?_, hs, ?_, hout⟩
        · rw [mpnDivQrInvert, hrev]
          simp only [hclz, Option.bind_eq_bind, Option.bind_some, if_neg hpos]
        · have happ : (d0 :: dl :: rest).reverse ++ [d1] = (dl :: rest).reverse ++ [d0, d1] := by
            simp
          rw [hnone, hdp, happ]
          exact Prepared.more _ (divisor_of_two _ hlow)

/-- For a divisor of one or two limbs only the preparation is used. -/
lemma mpnDivQrPreinv_congr (np : List UInt32) {dp dp' : List UInt32} (inv : GmpDivInverse)
    (h : dp.length = dp'.length) (hle : dp.length ≤ 2) :
    mpnDivQrPreinv np dp inv = mpnDivQrPreinv np dp' inv := by
  rw [mpnDivQrPreinv, mpnDivQrPreinv, ← h]
  split_ifs with h₁ h₂
  · rfl
  · rfl
  · have hnil : dp = [] := List.length_eq_zero_iff.mp (by omega)
    have hnil' : dp' = [] := List.length_eq_zero_iff.mp (by omega)
    rw [hnil, hnil']

/-- **Division of any two numbers.** The quotient and the remainder, with as many limbs as the
divisor, for a divisor with a highest limb that is not zero.

**Proof sketch.** The divisor is prepared, and shifted as the preparation was. -/
theorem mpnDivQr_eq {np dp : List UInt32} (h : dp ≠ []) (htop : dp.getLast h ≠ 0)
    (hlen : dp.length ≤ np.length) :
    ∃ qp rp, mpnDivQr np dp = some (qp, rp) ∧ num qp = num np / num dp ∧
      num rp = num np % num dp ∧ rp.length = dp.length := by
  obtain ⟨inv, hinv, hs, hprep, hnum⟩ := mpnDivQrInvert_spec h htop
  have hlength := (shiftUp_eq dp hs).2.1
  obtain ⟨hquot, hrest, hrlen⟩ :=
    @mpnDivQrPreinv_spec inv np _ hprep hs (by rw [hlength]; exact hlen) _ hnum
  have hsame : mpnDivQr np dp = some (mpnDivQrPreinv np (shiftUp dp inv.shift).1 inv) := by
    simp only [mpnDivQr, hinv, Option.bind_eq_bind, Option.bind_some, Option.some.injEq]
    split_ifs with hcond
    · rw [shiftUp, if_pos hcond.2]
    · by_cases hpos : inv.shift > 0
      · exact mpnDivQrPreinv_congr np inv hlength.symm (by
          by_contra hgt
          exact hcond ⟨by omega, hpos⟩)
      · rw [shiftUp, if_neg hpos]
  exact ⟨_, _, hsame, hquot, hrest, hrlen.trans hlength⟩

/-- A number of four limbs by one of three. -/
theorem mpnDivQr_threeLimbs :
    ∃ qp rp, mpnDivQr [1, 2, 3, 4] [5, 6, 7] = some (qp, rp) ∧
      num qp = num [1, 2, 3, 4] / num [5, 6, 7] ∧ num rp = num [1, 2, 3, 4] % num [5, 6, 7] ∧
        rp.length = [5, 6, 7].length :=
  @mpnDivQr_eq [1, 2, 3, 4] [5, 6, 7] (by decide) (by decide) (by decide)

end MiniGmp

end RecoveryMenu

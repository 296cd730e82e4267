import Mathlib.Data.Nat.Bitwise
import RecoveryMenu.Foundations.PowerLoop
import RecoveryMenu.MiniGmp.Mpz

set_option relaxedAutoImplicit false
set_option autoImplicit false

/-!
# Powers modulo a number (`ios_mcp/source/mini-gmp.c`)

The exponent is gone through bit by bit, from the highest one: what has been reached is squared,
multiplied by the base where the bit is set, and divided by the modulus where it has more limbs.
All these divisions are by the modulus that is shifted up, so that nothing has to be shifted, and
only the last one is by the modulus itself. A base that is negative is first taken from the
modulus that is shifted up.

In this build `abort` does nothing, so that `gmp_die` returns and the function goes on behind its
two checks. The inverse that a negative exponent asks for is a parameter here (`mpz_invert`).

## Main definitions

* `RecoveryMenu.MiniGmp.powmBits`: the loop over the bits of a limb.
* `RecoveryMenu.MiniGmp.mpzPowm`, `RecoveryMenu.MiniGmp.mpzPowmUi`: the functions.

## Main results

* `RecoveryMenu.MiniGmp.powmBits_extends`: what the loop does.
* `RecoveryMenu.MiniGmp.mpzPowm_eq`: the power.

## References

* `ios_mcp/source/mini-gmp.c`: lines 3094 to 3206.
-/

namespace RecoveryMenu

namespace MiniGmp

/-! ## The functions -/

/-- The bit after `bit`. -/
lemma toNat_shiftRight_one (bit : UInt32) : (bit >>> 1).toNat = bit.toNat / 2 := by
  rw [UInt32.toNat_shiftRight]
  rfl

section Loops

variable (base : Mpz) (mp : List UInt32) (minv : GmpDivInverse)

/-- The division in the loop. -/
def powmReduce (tr : Mpz) : Mpz :=
  if tr.mpSize > mp.length then .ofLimbs (mpnDivQrPreinv tr.limbs mp minv).2 else tr

/-- The body of the loop over the bits. -/
def powmBit (w bit : UInt32) (tr : Mpz) : Mpz :=
  let tr := mpzMul tr tr
  let tr := if w &&& bit ≠ 0 then mpzMul tr base else tr
  powmReduce mp minv tr

/-- The loop over the bits of the limb `w`, from `bit` down. -/
def powmBits (w bit : UInt32) (tr : Mpz) : Mpz :=
  let tr := powmBit base mp minv w bit tr
  if bit >>> 1 > 0 then powmBits w (bit >>> 1) tr else tr
termination_by bit.toNat
decreasing_by
  rename_i h
  rw [gt_iff_lt, UInt32.lt_iff_toNat_lt, toNat_shiftRight_one, UInt32.toNat_zero] at h
  rw [toNat_shiftRight_one]
  omega

/-- The loop over the limbs of the exponent, the highest one first. -/
def powmLimbs (tr : Mpz) : List UInt32 → Mpz
  | [] => tr
  | w :: ep => powmLimbs (powmBits base mp minv w gmpLimbHighbit tr) ep

end Loops

/-- The base of a power with an exponent that is not negative. -/
def powmBase (b : Mpz) (mp : List UInt32) (minv : GmpDivInverse) : Mpz :=
  let bp := (mpzAbs b).limbs
  let bp := if bp.length ≥ mp.length then (mpnDivQrPreinv bp mp minv).2 else bp
  let bp := if b.mpSize < 0 then (mpnSub mp bp).1 else bp
  .ofLimbs bp

/-- The division behind the loop. -/
def powmFinal (tr : Mpz) (mp : List UInt32) (minv : GmpDivInverse) : Mpz :=
  if tr.mpSize ≥ mp.length then .ofLimbs (mpnDivQrPreinv tr.limbs mp minv).2 else tr

/-- `mpz_powm`. Both calls of `gmp_die` return: a modulus of zero is gone on with, and a base
without an inverse is the zero that `base` was initialized with. There is no result where a limb
in front of the modulus is read. -/
def mpzPowm (mpzInvert : Mpz → Mpz → Option Mpz) (b e m : Mpz) : Option Mpz :=
  if e.limbs.length = 0 then some (mpzSetUi (UInt32.ofInt (mpzCmpabsUi m 1)))
  else do
    let minv ← mpnDivQrInvert m.limbs
    let shift := minv.shift
    let (mp, minv) :=
      if shift > 0 then ((mpnLshift m.limbs shift).1, { minv with shift := 0 })
      else (m.limbs, minv)
    let base := if e.mpSize < 0 then (mpzInvert b m).getD mpzInit else powmBase b mp minv
    let tr := powmLimbs base mp minv (mpzSetUi 1) e.limbs.reverse
    some (powmFinal tr mp { minv with shift })

/-- `mpz_powm_ui`. -/
def mpzPowmUi (mpzInvert : Mpz → Mpz → Option Mpz) (b : Mpz) (elimb : UInt32) (m : Mpz) :
    Option Mpz := mpzPowm mpzInvert b (mpzSetUi elimb) m

/-! ## The loops -/

section Loops

variable {base : Mpz} {mp : List UInt32} {minv : GmpDivInverse} {b : ℤ}
variable (hp : Prepared minv mp) (hs : minv.shift = 0)

include hp hs in
/-- With a shift of zero the division is by the modulus that is shifted up. -/
lemma num_powmRest {np : List UInt32} (hlen : mp.length ≤ np.length) :
    num (mpnDivQrPreinv np mp minv).2 = num np % num mp ∧
      (mpnDivQrPreinv np mp minv).2.length = mp.length := by
  obtain ⟨-, hrest, hlength⟩ := @mpnDivQrPreinv_spec minv np mp hp (by rw [hs]; decide) hlen
    (num mp) (by rw [hs, UInt32.toNat_zero, pow_zero, one_mul])
  exact ⟨hrest, hlength⟩

include hp hs in
/-- The division in the loop changes nothing modulo the modulus. -/
lemma powmReduce_modEq {tr : Mpz} (htr : 0 ≤ tr.value) :
    0 ≤ (powmReduce mp minv tr).value ∧
      (powmReduce mp minv tr).value ≡ tr.value [ZMOD num mp] := by
  rw [powmReduce]
  split_ifs with hsize
  · rw [tr.mpSize_of_nonneg htr] at hsize
    obtain ⟨hrest, -⟩ := @num_powmRest _ _ hp hs tr.limbs (by omega)
    rw [Mpz.value_ofLimbs, hrest, ← tr.value_of_nonneg htr]
    refine ⟨?_, Int.mod_modEq _ _⟩
    rw [tr.value_of_nonneg htr, ← hrest]
    exact (num_lt _).1
  · exact ⟨htr, Int.ModEq.refl _⟩

variable (hbase : 0 ≤ base.value) (hb : base.value ≡ b [ZMOD num mp])

include hp hs hbase hb in
/-- What is done for one bit. -/
lemma powmBit_extends (w bit : UInt32) {tr : Mpz} (htr : 0 ≤ tr.value) :
    0 ≤ (powmBit base mp minv w bit tr).value ∧
      PowerLoop.Extends (num mp) b 2 (if w &&& bit ≠ 0 then 1 else 0) tr.value
        (powmBit base mp minv w bit tr).value := by
  have hsquare : (mpzMul tr tr).value = tr.value * tr.value := value_mpzMul tr tr
  have hprod : (mpzMul (mpzMul tr tr) base).value = tr.value * tr.value * base.value := by
    rw [value_mpzMul, hsquare]
  simp only [powmBit]
  split_ifs
  · obtain ⟨hge, hmod⟩ := @powmReduce_modEq _ _ hp hs (mpzMul (mpzMul tr tr) base)
      (by rw [hprod]; positivity)
    rw [hprod] at hmod
    exact ⟨hge, .of_square_mul hb hmod⟩
  · obtain ⟨hge, hmod⟩ := @powmReduce_modEq _ _ hp hs (mpzMul tr tr) (by rw [hsquare]; positivity)
    rw [hsquare] at hmod
    exact ⟨hge, .of_square hmod⟩

/-- Whether the bit is set. -/
lemma toNat_testBit {w bit : UInt32} {k : ℕ} (hbit : bit.toNat = 2 ^ k) :
    (if w &&& bit ≠ 0 then 1 else 0) = (w.toNat.testBit k).toNat := by
  have hand : (w &&& bit).toNat = (w.toNat.testBit k).toNat * 2 ^ k := by
    rw [UInt32.toNat_and, hbit, Nat.and_two_pow]
  have hpow := Nat.two_pow_pos k
  cases hset : w.toNat.testBit k
  · rw [hset, Bool.toNat_false, Nat.zero_mul] at hand
    rw [if_neg (not_not.mpr (UInt32.toNat_inj.mp hand))]
    rfl
  · rw [hset, Bool.toNat_true, Nat.one_mul] at hand
    refine if_pos fun hzero => ?_
    rw [hzero, UInt32.toNat_zero] at hand
    omega

/-- The bits from bit `k` down are that bit and those below it. -/
lemma mod_two_pow_succ (w k : ℕ) :
    w % 2 ^ (k + 1) = (w.testBit k).toNat * 2 ^ k + w % 2 ^ k := by
  rw [Nat.pow_succ, Nat.mod_mul, Nat.toNat_testBit]
  ring

include hp hs hbase hb in
/-- **The loop over the bits.** The bits from `bit` down are those of a number.

**Proof sketch.** By induction on the bit: it counts for as much as all the values that the bits
below it have. -/
theorem powmBits_extends (w : UInt32) (k : ℕ) {bit : UInt32} (hbit : bit.toNat = 2 ^ k) {tr : Mpz}
    (htr : 0 ≤ tr.value) :
    0 ≤ (powmBits base mp minv w bit tr).value ∧
      PowerLoop.Extends (num mp) b (2 ^ (k + 1)) (w.toNat % 2 ^ (k + 1)) tr.value
        (powmBits base mp minv w bit tr).value := by
  induction k generalizing bit tr with
  | zero =>
    obtain ⟨hge, hone⟩ := powmBit_extends hp hs hbase hb w bit htr
    rw [toNat_testBit hbit] at hone
    have hlast : ¬ bit >>> 1 > 0 := by
      rw [gt_iff_lt, UInt32.lt_iff_toNat_lt, toNat_shiftRight_one, hbit]
      decide
    rw [powmBits, if_neg hlast, mod_two_pow_succ, Nat.pow_zero, Nat.mul_one, Nat.mod_one,
      Nat.add_zero]
    exact ⟨hge, hone⟩
  | succ k ih =>
    obtain ⟨hge, hone⟩ := powmBit_extends hp hs hbase hb w bit htr
    rw [toNat_testBit hbit] at hone
    have hnext : (bit >>> 1).toNat = 2 ^ k := by
      rw [toNat_shiftRight_one, hbit, Nat.pow_succ, Nat.mul_div_cancel _ (by decide)]
    have hmore : bit >>> 1 > 0 := by
      rw [gt_iff_lt, UInt32.lt_iff_toNat_lt, hnext]
      exact Nat.two_pow_pos k
    obtain ⟨hge', hrest⟩ := ih hnext hge
    rw [powmBits, if_pos hmore, mod_two_pow_succ, Nat.pow_succ']
    exact ⟨hge', hone.trans hrest⟩

include hp hs hbase hb in
/-- The loop over the limbs. -/
theorem powmLimbs_extends (ep : List UInt32) {tr : Mpz} (htr : 0 ≤ tr.value) :
    0 ≤ (powmLimbs base mp minv tr ep).value ∧
      PowerLoop.Extends (num mp) b ((2 ^ 32) ^ ep.length) (num ep.reverse).toNat tr.value
        (powmLimbs base mp minv tr ep).value := by
  induction ep generalizing tr with
  | nil => exact ⟨htr, .refl _ _ _⟩
  | cons w ep ih =>
    obtain ⟨hge, hlimb⟩ := powmBits_extends hp hs hbase hb w 31
      (show gmpLimbHighbit.toNat = 2 ^ 31 from rfl) htr
    obtain ⟨hge', hrest⟩ := ih hge
    rw [Nat.mod_eq_of_lt w.toNat_lt] at hlimb
    have hexp : (num (w :: ep).reverse).toNat =
        w.toNat * (2 ^ 32) ^ ep.length + (num ep.reverse).toNat := by
      have hlow := (num_lt ep.reverse).1
      zify
      rw [List.reverse_cons, num_append_one, List.length_reverse, Int.toNat_of_nonneg hlow,
        Int.toNat_of_nonneg (by positivity)]
      ring
    rw [powmLimbs, hexp, List.length_cons, Nat.pow_succ']
    exact ⟨hge', hlimb.trans hrest⟩

end Loops

/-! ## The base -/

/-- A difference that is not negative is the number that is written. -/
lemma num_mpnSub_of_le {ap bp : List UInt32} (hlen : bp.length ≤ ap.length)
    (hle : num bp ≤ num ap) : num (mpnSub ap bp).1 = num ap - num bp := by
  have hsub := num_mpnSub ap bp hlen
  have hout := num_lt (mpnSub ap bp).1
  rw [length_mpnSub _ _ hlen] at hout
  have hap := (num_lt ap).2
  have hbp := (num_lt bp).1
  have hz := eq_zero_of_add_mul hout (y := num ap - num bp) ⟨by omega, by omega⟩
    (z := (mpnSub ap bp).2.toNat) (by linear_combination hsub)
  rw [hz] at hsub
  linear_combination hsub

/-- A base stands for the number that it is, modulo the modulus that is shifted up, and is not
negative.

**Proof sketch.** With as many limbs as the modulus it is divided by it, and with fewer it is
smaller anyway, so that a negative one can be taken from the modulus. -/
lemma powmBase_modEq {mp : List UInt32} {minv : GmpDivInverse} (hp : Prepared minv mp)
    (hs : minv.shift = 0) (h : mp ≠ []) (htop : mp.getLast h ≠ 0) (b : Mpz) :
    0 ≤ (powmBase b mp minv).value ∧ (powmBase b mp minv).value ≡ b.value [ZMOD num mp] := by
  have hpos : 0 < num mp := lt_of_lt_of_le (by positivity) (le_num h htop)
  -- the absolute value
  obtain ⟨bp, hbp, hlen, hlt, hmod⟩ : ∃ bp,
      bp = (if (mpzAbs b).limbs.length ≥ mp.length then
        (mpnDivQrPreinv (mpzAbs b).limbs mp minv).2 else (mpzAbs b).limbs) ∧
      bp.length ≤ mp.length ∧ num bp < num mp ∧ num bp ≡ |b.value| [ZMOD num mp] := by
    refine ⟨_, rfl, ?_⟩
    rw [show (mpzAbs b).limbs = b.limbs from rfl, ← b.num_limbs]
    split_ifs with hsize
    · obtain ⟨hrest, hlength⟩ := num_powmRest hp hs hsize
      rw [hrest]
      exact ⟨hlength.le, Int.emod_lt_of_pos _ hpos, Int.mod_modEq _ _⟩
    · push Not at hsize
      exact ⟨hsize.le, num_lt_of_length_lt h htop hsize, .refl _⟩
  simp only [powmBase, ← hbp]
  split_ifs with hneg
  · rw [b.mpSize_neg_iff] at hneg
    rw [Mpz.value_ofLimbs, num_mpnSub_of_le hlen hlt.le]
    refine ⟨by omega, ?_⟩
    have := (Int.ModEq.refl (num mp)).sub hmod
    rw [abs_of_neg hneg, sub_neg_eq_add] at this
    exact this.trans (by simp [Int.ModEq])
  · rw [b.mpSize_neg_iff, not_lt] at hneg
    rw [abs_of_nonneg hneg] at hmod
    rw [Mpz.value_ofLimbs]
    exact ⟨(num_lt _).1, hmod⟩

/-! ## The power -/

/-- A divisor that is prepared has a highest limb that is not zero. -/
lemma Prepared.top_ne_zero {inv : GmpDivInverse} {dp : List UInt32} (hp : Prepared inv dp) :
    ∃ h : dp ≠ [], dp.getLast h ≠ 0 := by
  cases hp with
  | one hd =>
    refine ⟨by simp, fun hzero => ?_⟩
    have hle := hd.le
    rw [List.getLast_singleton] at hzero
    rw [hzero, UInt32.toNat_zero] at hle
    omega
  | more dl hd =>
    refine ⟨by simp, fun hzero => ?_⟩
    have hle := hd.le
    have hlow := inv.d0.toNat_lt
    have hd1 : inv.d1 = 0 := by simpa using hzero
    rw [pair_mk, hd1, UInt32.toNat_zero] at hle
    omega

/-- The shift is not looked at. -/
lemma Prepared.set_shift {inv : GmpDivInverse} {dp : List UInt32} (hp : Prepared inv dp)
    (shift : UInt32) : Prepared { inv with shift } dp := by
  cases hp with
  | one hd => exact @Prepared.one { inv with shift } hd
  | more dl hd => exact @Prepared.more { inv with shift } dl hd

/-- The division behind the loop, by the modulus itself. -/
lemma powmFinal_eq {tr : Mpz} {mp : List UInt32} {inv : GmpDivInverse} (hp : Prepared inv mp)
    (hs : inv.shift.toNat < 32) {m : List UInt32} (h : m ≠ []) (htop : m.getLast h ≠ 0)
    (hlen : mp.length = m.length) (hm : num mp = 2 ^ inv.shift.toNat * num m)
    (htr : 0 ≤ tr.value) : (powmFinal tr mp inv).value = tr.value % num m := by
  rw [powmFinal, tr.mpSize_of_nonneg htr, tr.value_of_nonneg htr]
  split_ifs with hsize
  · obtain ⟨-, hrest, -⟩ := @mpnDivQrPreinv_spec inv tr.limbs mp hp hs (by omega) _ hm
    rw [Mpz.value_ofLimbs, hrest]
  · have hlt := @num_lt_of_length_lt tr.limbs m h htop (by omega)
    rw [tr.value_of_nonneg htr, Int.emod_eq_of_lt (num_lt _).1 hlt]

/-- The power with an exponent of zero. -/
lemma mpzSetUi_cmpabs {m : Mpz} (hm : m.value ≠ 0) :
    (mpzSetUi (UInt32.ofInt (mpzCmpabsUi m 1))).value = 1 % m.value := by
  have hpos := abs_pos.mpr hm
  rw [mpzCmpabsUi_eq, Mpz.value_mpzSetUi, ← Int.emod_abs, UInt32.toNat_one, Nat.cast_one]
  rcases (show |m.value| = 1 ∨ 1 < |m.value| by omega) with hone | hmore
  · rw [hone]
    rfl
  · rw [Int.sign_eq_one_of_pos (by omega), Int.emod_eq_of_lt (by decide) hmore]
    rfl

/-- What is done with an exponent that is not zero: there is a base, and the rest raises any number
that stands for another one to the absolute value of the exponent.

**Proof sketch.** The loops leave a number that is the power modulo the modulus that is shifted up
(`powmLimbs_extends`), which is a multiple of the modulus, and the last division is by the modulus
itself. -/
lemma mpzPowm_cases (mpzInvert : Mpz → Mpz → Option Mpz) (b e m : Mpz) (hm : m.value ≠ 0)
    (he : e.value ≠ 0) :
    ∃ (mp : List UInt32) (base : Mpz) (rest : Mpz → Mpz),
      mpzPowm mpzInvert b e m =
        some (rest (if e.mpSize < 0 then (mpzInvert b m).getD mpzInit else base)) ∧
      (0 ≤ base.value ∧ base.value ≡ b.value [ZMOD num mp]) ∧
      ∀ (x : Mpz) (c : ℤ), 0 ≤ x.value → x.value ≡ c [ZMOD num mp] →
        (rest x).value = c ^ (num e.limbs).toNat % m.value := by
  have hne : m.limbs ≠ [] := fun h => hm ((m.limbs_eq_nil_iff).mp h)
  have hen : e.limbs.length ≠ 0 := fun h =>
    he ((e.limbs_eq_nil_iff).mp (List.length_eq_zero_iff.mp h))
  obtain ⟨inv, hinv, hs, hprep, hnum⟩ := mpnDivQrInvert_spec hne (m.top_ne_zero hne)
  obtain ⟨hmp, htop⟩ := hprep.top_ne_zero
  have hlength := (shiftUp_eq m.limbs hs).2.1
  have hzero : (if inv.shift > 0 then ((mpnLshift m.limbs inv.shift).1, { inv with shift := 0 })
      else (m.limbs, inv)) = ((shiftUp m.limbs inv.shift).1, { inv with shift := 0 }) := by
    rw [shiftUp]
    split_ifs with hpos
    · rfl
    · have hshift : inv.shift = 0 := by
        rw [gt_iff_lt, UInt32.lt_iff_toNat_lt, UInt32.toNat_zero] at hpos
        exact UInt32.toNat_inj.mp (by rw [UInt32.toNat_zero]; omega)
      rw [← hshift]
  refine ⟨(shiftUp m.limbs inv.shift).1,
    powmBase b (shiftUp m.limbs inv.shift).1 { inv with shift := 0 },
    fun base => powmFinal (powmLimbs base (shiftUp m.limbs inv.shift).1 { inv with shift := 0 }
      (mpzSetUi 1) e.limbs.reverse) (shiftUp m.limbs inv.shift).1 inv, ?_,
    powmBase_modEq (hprep.set_shift 0) rfl hmp htop b, fun x c hx hc => ?_⟩
  · rw [mpzPowm, if_neg hen]
    simp only [hinv, Option.bind_eq_bind, Option.bind_some, hzero]
  · obtain ⟨hge, hrun⟩ := powmLimbs_extends (hprep.set_shift 0) rfl hx hc e.limbs.reverse
      (show 0 ≤ (mpzSetUi 1).value by rw [Mpz.value_mpzSetUi]; decide)
    rw [List.reverse_reverse, Mpz.value_mpzSetUi, UInt32.toNat_one, Nat.cast_one] at hrun
    rw [powmFinal_eq hprep hs hne (m.top_ne_zero hne) hlength hnum hge, m.num_limbs,
      ← Int.emod_abs (c ^ (num e.limbs).toNat)]
    have hpow := hrun.modEq_pow
    rw [hnum, m.num_limbs] at hpow
    exact Int.ModEq.of_mul_left _ hpow

/-- An exponent that is not negative: the power modulo the modulus. -/
theorem mpzPowm_of_nonneg (mpzInvert : Mpz → Mpz → Option Mpz) (b e m : Mpz) (hm : m.value ≠ 0)
    (he : 0 ≤ e.value) :
    ∃ r, mpzPowm mpzInvert b e m = some r ∧ r.value = b.value ^ e.value.toNat % m.value := by
  rcases eq_or_ne e.value 0 with hzero | hne
  · have hen : e.limbs.length = 0 := by rw [(e.limbs_eq_nil_iff).mpr hzero, List.length_nil]
    refine ⟨_, by rw [mpzPowm, if_pos hen], ?_⟩
    rw [hzero, Int.toNat_zero, pow_zero]
    exact mpzSetUi_cmpabs hm
  · obtain ⟨mp, base, rest, heq, ⟨hbase, hmod⟩, hrest⟩ := mpzPowm_cases mpzInvert b e m hm hne
    have hsize : ¬ e.mpSize < 0 := (e.mpSize_neg_iff).not.mpr (not_lt.mpr he)
    rw [if_neg hsize] at heq
    refine ⟨_, heq, ?_⟩
    rw [hrest base b.value hbase hmod, ← e.value_of_nonneg he]

/-- **Powers.** For a base and an exponent of any length and with any sign, and a modulus that is
not zero, the result is the power modulo the modulus. With a negative exponent it is the inverse of
the power of the absolute value, or zero where there is no inverse. For a modulus and an exponent of
zero it is the highest value of a limb.

**Proof sketch.** The exponent is zero, or the base or its inverse is raised to the absolute value
(`mpzPowm_cases`). Where there is no inverse that is a power of zero. -/
theorem mpzPowm_eq (mpzInvert : Mpz → Mpz → Option Mpz) (b e m : Mpz)
    (hinvert : ∀ x, mpzInvert b m = some x → 0 ≤ x.value ∧ x.value * b.value ≡ 1 [ZMOD m.value]) :
    (m.value ≠ 0 → 0 ≤ e.value → ∃ r, mpzPowm mpzInvert b e m = some r ∧
      r.value = b.value ^ e.value.natAbs % m.value) ∧
    (m.value ≠ 0 → e.value < 0 → ∃ r, mpzPowm mpzInvert b e m = some r ∧
      ((mpzInvert b m).isSome → 0 ≤ r.value ∧ r.value < |m.value| ∧
        r.value * b.value ^ e.value.natAbs ≡ 1 [ZMOD m.value]) ∧
      (mpzInvert b m = none → r.value = 0)) ∧
    (m.value = 0 → e.value = 0 → ∃ r, mpzPowm mpzInvert b e m = some r ∧
      r.value = 2 ^ 32 - 1) := by
  refine ⟨fun hm he => ?_, fun hm he => ?_, fun hm he => ?_⟩
  · obtain ⟨r, hr, hvalue⟩ := mpzPowm_of_nonneg mpzInvert b e m hm he
    refine ⟨r, hr, ?_⟩
    rw [hvalue, show e.value.toNat = e.value.natAbs by omega]
  · obtain ⟨mp, base, rest, heq, -, hrest⟩ := mpzPowm_cases mpzInvert b e m hm he.ne
    rw [if_pos ((e.mpSize_neg_iff).mpr he)] at heq
    have hexp : (num e.limbs).toNat = e.value.natAbs := by
      rw [e.num_limbs, abs_of_neg he]
      omega
    refine ⟨_, heq, fun hsome => ?_, fun hnone => ?_⟩
    · obtain ⟨x, hx⟩ := Option.isSome_iff_exists.mp hsome
      obtain ⟨hge, hinverse⟩ := hinvert x hx
      rw [hx, Option.getD_some, hrest x x.value hge (.refl _), hexp]
      refine ⟨Int.emod_nonneg _ hm, Int.emod_lt_abs _ hm, ?_⟩
      have hpow := hinverse.pow e.value.natAbs
      rw [mul_pow, one_pow] at hpow
      exact ((Int.mod_modEq _ _).mul_right _).trans hpow
    · have hinit : mpzInit.value = 0 := rfl
      have hpos : e.value.natAbs ≠ 0 := Int.natAbs_ne_zero.mpr he.ne
      rw [hnone, Option.getD_none, hrest mpzInit 0 hinit.ge (by rw [hinit]), hexp, zero_pow hpos,
        Int.zero_emod]
  · have hen : e.limbs.length = 0 := by rw [(e.limbs_eq_nil_iff).mpr he, List.length_nil]
    refine ⟨_, by rw [mpzPowm, if_pos hen], ?_⟩
    rw [mpzCmpabsUi_eq, hm]
    decide

/-- Three to the power of minus two, modulo minus seven. -/
theorem mpzPowm_negative :
    ∃ r, mpzPowm (fun _ _ => some (mpzSetUi 5)) (mpzSetUi 3) ⟨true, [2], by decide, by decide⟩
        ⟨true, [7], by decide, by decide⟩ = some r ∧ r.value * 3 ^ 2 ≡ 1 [ZMOD -7] := by
  obtain ⟨r, hr, hinverse, -⟩ := (mpzPowm_eq (fun _ _ => some (mpzSetUi 5)) (mpzSetUi 3)
    ⟨true, [2], by decide, by decide⟩ ⟨true, [7], by decide, by decide⟩ (by
      intro x hx
      obtain rfl := Option.some.inj hx
      decide)).2.1 (by decide) (by decide)
  exact ⟨r, hr, (hinverse rfl).2.2⟩

end MiniGmp

end RecoveryMenu

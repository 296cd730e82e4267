import RecoveryMenu.MiniGmp.Division

set_option relaxedAutoImplicit false
set_option autoImplicit false

/-!
# Signed numbers (`ios_mcp/source/mini-gmp.c`)

A number with a sign is an array of limbs and a size, of which the sign is that of the number.
The highest limb is never zero. The array may be longer than the size says, and what is in it
above is not read, so that only the limbs up to the size are kept here.

## Main definitions

* `RecoveryMenu.MiniGmp.Mpz`: a number with a sign.
* `RecoveryMenu.MiniGmp.Mpz.value`: which one it is.
* `RecoveryMenu.MiniGmp.mpzMul`, `RecoveryMenu.MiniGmp.mpzCmpabsUi`: the functions.

## Main results

* `RecoveryMenu.MiniGmp.value_mpzMul`: a product.
* `RecoveryMenu.MiniGmp.mpzCmpabsUi_eq`: a comparison of absolute values.

## References

* `ios_mcp/source/mini-gmp.c`: lines 1433 to 1650, 1914 to 1940 and 2080 to 2115.
-/

namespace RecoveryMenu

namespace MiniGmp

/-! ## Numbers -/

/-- `mpz_t`. -/
structure Mpz where
  /-- Whether `_mp_size` is negative. -/
  neg : Bool
  /-- The limbs of `_mp_d`, as many as `_mp_size` says. -/
  limbs : List UInt32
  top_ne_zero : ∀ h : limbs ≠ [], limbs.getLast h ≠ 0
  neg_of_nil : limbs = [] → neg = false

namespace Mpz

/-- `_mp_size`. -/
def mpSize (x : Mpz) : ℤ := if x.neg then -x.limbs.length else x.limbs.length

/-- The number. -/
def value (x : Mpz) : ℤ := if x.neg then -num x.limbs else num x.limbs

end Mpz

/-- There is no limb that is zero at the high end. -/
lemma top_mpnNormalizedSize (xp : List UInt32) (h : mpnNormalizedSize xp ≠ []) :
    (mpnNormalizedSize xp).getLast h ≠ 0 := by
  intro htop
  exact List.rdropWhile_last_not _ xp h (beq_iff_eq.mpr htop)

/-- A number that is not negative: the limbs up to the highest one that is not zero. -/
def Mpz.ofLimbs (xp : List UInt32) : Mpz where
  neg := false
  limbs := mpnNormalizedSize xp
  top_ne_zero := top_mpnNormalizedSize xp
  neg_of_nil _ := rfl

/-! ## The functions -/

/-- `mpz_init`. -/
def mpzInit : Mpz where
  neg := false
  limbs := []
  top_ne_zero h := absurd rfl h
  neg_of_nil _ := rfl

/-- `mpz_set_ui`. An `unsigned long` has one limb. -/
def mpzSetUi (x : UInt32) : Mpz :=
  if h : x > 0 then
    { neg := false
      limbs := [x]
      top_ne_zero _ hx := by
        subst hx
        exact absurd h (by decide)
      neg_of_nil _ := rfl }
  else mpzInit

/-- `mpz_abs`. -/
def mpzAbs (x : Mpz) : Mpz where
  neg := false
  limbs := x.limbs
  top_ne_zero := x.top_ne_zero
  neg_of_nil _ := rfl

/-- `mpn_absfits_ulong_p`: `ulongsize` is one, and `ulongrem` is zero. -/
def mpnAbsfitsUlongP (up : List UInt32) : Bool :=
  up.length ≤ 1 || (up.getD 1 0 < 0 && up.length == 2)

/-- `mpz_get_ui`. -/
def mpzGetUi (u : Mpz) : UInt32 := if u.mpSize = 0 then 0 else u.limbs.headD 0

/-- `GMP_CMP`. -/
def gmpCmp (a b : UInt32) : ℤ := (if a > b then 1 else 0) - (if a < b then 1 else 0)

/-- `mpz_cmpabs_ui`. -/
def mpzCmpabsUi (u : Mpz) (v : UInt32) : ℤ :=
  if !mpnAbsfitsUlongP u.limbs then 1 else gmpCmp (mpzGetUi u) v

/-- What `mpz_mul` writes: the number with more limbs comes first. -/
def mulLimbs (up vp : List UInt32) : List UInt32 :=
  if up.length ≥ vp.length then mpnMul up vp else mpnMul vp up

/-- The size that `mpz_mul` leaves: one limb less where the highest one is zero. -/
def dropTop (tp : List UInt32) : List UInt32 :=
  if tp.getLastD 0 = 0 then tp.dropLast else tp

/-! ## Limbs and numbers -/

/-- Zeros at the high end count for nothing. -/
@[simp] theorem num_mpnNormalizedSize (xp : List UInt32) : num (mpnNormalizedSize xp) = num xp := by
  induction xp using List.reverseRecOn with
  | nil => rfl
  | append_singleton xs x ih =>
    rw [mpnNormalizedSize, List.rdropWhile_concat]
    split_ifs with hx
    · rw [beq_iff_eq] at hx
      rw [hx, num_append_one, UInt32.toNat_zero]
      simpa [mpnNormalizedSize] using ih
    · rfl

/-- What a number whose highest limb is not zero is at least. -/
lemma le_num {xs : List UInt32} (h : xs ≠ []) (htop : xs.getLast h ≠ 0) :
    (2 ^ 32) ^ (xs.length - 1) ≤ num xs := by
  have hsplit := num_append_one xs.dropLast (xs.getLast h)
  rw [List.dropLast_append_getLast, List.length_dropLast] at hsplit
  have hlow := (num_lt xs.dropLast).1
  have hone : (1 : ℤ) ≤ (xs.getLast h).toNat := by
    have hne : (xs.getLast h).toNat ≠ 0 := fun hz => htop (UInt32.toNat_inj.mp hz)
    omega
  have hpow : (0 : ℤ) < (2 ^ 32) ^ (xs.length - 1) := by positivity
  nlinarith

/-- With fewer limbs a number is smaller. -/
lemma num_lt_of_length_lt {xs ys : List UInt32} (h : ys ≠ []) (htop : ys.getLast h ≠ 0)
    (hlen : xs.length < ys.length) : num xs < num ys :=
  (num_lt xs).2.trans_le ((pow_le_pow_right₀ (by norm_num) (by omega)).trans (le_num h htop))

namespace Mpz

variable (x : Mpz)

@[simp] theorem value_ofLimbs (xp : List UInt32) : (ofLimbs xp).value = num xp :=
  num_mpnNormalizedSize xp

@[simp] theorem value_mpzInit : mpzInit.value = 0 := rfl

@[simp] theorem value_mpzSetUi (v : UInt32) : (mpzSetUi v).value = v.toNat := by
  rw [mpzSetUi]
  split_ifs with h
  · exact num_cons v [] |>.trans (by simp)
  · rw [gt_iff_lt, UInt32.lt_iff_toNat_lt, UInt32.toNat_zero] at h
    rw [value_mpzInit]
    omega

/-- The limbs are those of the absolute value. -/
theorem num_limbs : num x.limbs = |x.value| := by
  have h := (num_lt x.limbs).1
  rw [value]
  split_ifs
  · rw [abs_neg, abs_of_nonneg h]
  · rw [abs_of_nonneg h]

/-- Only zero has no limbs. -/
theorem limbs_eq_nil_iff : x.limbs = [] ↔ x.value = 0 := by
  constructor
  · intro h
    rw [value, h, num_nil]
    split_ifs <;> rfl
  · intro h
    by_contra hne
    have hpos := le_num hne (x.top_ne_zero hne)
    rw [num_limbs, h, abs_zero] at hpos
    exact absurd hpos (not_le.mpr (by positivity))

/-- The sign of the size is that of the number. -/
theorem mpSize_neg_iff : x.mpSize < 0 ↔ x.value < 0 := by
  have hnum := (num_lt x.limbs).1
  rw [mpSize, value]
  split_ifs with hneg
  · have hne : x.limbs ≠ [] := fun h => absurd (x.neg_of_nil h) (by simp [hneg])
    have hpos := le_num hne (x.top_ne_zero hne)
    have hlen : 0 < x.limbs.length := List.length_pos_iff.mpr hne
    have hpow : (0 : ℤ) < (2 ^ 32) ^ (x.limbs.length - 1) := by positivity
    constructor <;> intro _ <;> omega
  · omega

/-- A number that is not negative is what its limbs are. -/
theorem value_of_nonneg (h : 0 ≤ x.value) : x.value = num x.limbs := by
  rw [num_limbs, abs_of_nonneg h]

/-- A size that is not negative is the number of the limbs. -/
theorem mpSize_of_nonneg (h : 0 ≤ x.value) : x.mpSize = x.limbs.length := by
  have hneg := x.mpSize_neg_iff.not.mpr (not_lt.mpr h)
  rw [mpSize] at hneg ⊢
  split_ifs with hn
  · rw [if_pos hn] at hneg
    omega
  · rfl

end Mpz

/-! ## Products -/

/-- The highest limb of a product is zero, or the one below it is not.

**Proof sketch.** The product is at least what the limb below the highest two counts for, twice
over, and without both of them it would be less. -/
lemma top_dropTop {tp : List UInt32} (hlen : 2 ≤ tp.length)
    (hnum : (2 ^ 32) ^ (tp.length - 2) ≤ num tp) (h : dropTop tp ≠ []) :
    (dropTop tp).getLast h ≠ 0 := by
  obtain ⟨lo, a, b, rfl, -⟩ := exists_append_pair (show tp.length = tp.length - 2 + 2 by omega)
  have hdrop : (lo ++ [a, b]).dropLast = lo ++ [a] := by
    rw [show lo ++ [a, b] = lo ++ [a] ++ [b] by simp, List.dropLast_concat]
  have htop : (lo ++ [a, b]).getLastD 0 = b := by simp [List.getLastD_eq_getLast?]
  by_cases hb : b = 0
  · have heq : dropTop (lo ++ [a, b]) = lo ++ [a] := by rw [dropTop, htop, if_pos hb, hdrop]
    intro hzero
    have ha : a = 0 := by simpa [heq] using hzero
    have hlt := (num_lt lo).2
    rw [show (lo ++ [a, b]).length - 2 = lo.length by simp, num_append_pair, ha, hb,
      show pair (0, 0) = 0 from rfl, Nat.cast_zero, mul_zero, add_zero] at hnum
    exact absurd hlt (not_lt.mpr hnum)
  · have heq : dropTop (lo ++ [a, b]) = lo ++ [a, b] := by rw [dropTop, htop, if_neg hb]
    simpa [heq] using hb

/-- One limb at most is left out. -/
lemma dropTop_ne_nil {tp : List UInt32} (hlen : 2 ≤ tp.length) : dropTop tp ≠ [] := by
  rw [dropTop]
  split_ifs
  · refine List.length_pos_iff.mp ?_
    rw [List.length_dropLast]
    omega
  · exact List.length_pos_iff.mp (by omega)

/-- A highest limb that is zero counts for nothing. -/
lemma num_dropTop (tp : List UInt32) : num (dropTop tp) = num tp := by
  rw [dropTop]
  split_ifs with htop
  · obtain rfl | ⟨lo, a, rfl⟩ := tp.eq_nil_or_concat
    · rfl
    · have ha : a = 0 := by simpa using htop
      rw [List.concat_eq_append, List.dropLast_concat, num_append_one, ha, UInt32.toNat_zero]
      simp
  · rfl

/-- The limbs of a product, whichever number comes first. -/
lemma num_mulLimbs {up vp : List UInt32} (hu : up ≠ []) (hv : vp ≠ []) :
    num (mulLimbs up vp) = num up * num vp ∧ (mulLimbs up vp).length = up.length + vp.length := by
  rw [mulLimbs]
  split_ifs
  · exact num_mpnMul up vp hv
  · obtain ⟨hnum, hlength⟩ := num_mpnMul vp up hu
    exact ⟨hnum.trans (mul_comm _ _), hlength.trans (Nat.add_comm _ _)⟩

/-- Two numbers that are not zero have two limbs together. -/
lemma two_le_length_mulLimbs {up vp : List UInt32} (h : ¬(up = [] ∨ vp = [])) :
    2 ≤ (mulLimbs up vp).length := by
  push Not at h
  have hu := List.length_pos_iff.mpr h.1
  have hv := List.length_pos_iff.mpr h.2
  rw [(num_mulLimbs h.1 h.2).2]
  omega

/-- The product of two numbers that are not zero has a highest limb that is not zero, when one limb
at most is left out. -/
lemma top_mulLimbs (u v : Mpz) (hne : ¬(u.limbs = [] ∨ v.limbs = []))
    (h : dropTop (mulLimbs u.limbs v.limbs) ≠ []) :
    (dropTop (mulLimbs u.limbs v.limbs)).getLast h ≠ 0 := by
  have htwo := two_le_length_mulLimbs hne
  push Not at hne
  obtain ⟨hu, hv⟩ := hne
  obtain ⟨hnum, hlength⟩ := num_mulLimbs hu hv
  have hu₁ := List.length_pos_iff.mpr hu
  have hv₁ := List.length_pos_iff.mpr hv
  refine top_dropTop htwo ?_ h
  rw [hnum, hlength, show u.limbs.length + v.limbs.length - 2 =
    (u.limbs.length - 1) + (v.limbs.length - 1) by omega, pow_add]
  exact mul_le_mul (le_num hu (u.top_ne_zero hu)) (le_num hv (v.top_ne_zero hv)) (by positivity)
    (num_lt _).1

/-- `mpz_mul`. -/
def mpzMul (u v : Mpz) : Mpz :=
  if h : u.limbs = [] ∨ v.limbs = [] then mpzInit
  else
    { neg := u.neg != v.neg
      limbs := dropTop (mulLimbs u.limbs v.limbs)
      top_ne_zero := top_mulLimbs u v h
      neg_of_nil hnil := absurd hnil (dropTop_ne_nil (two_le_length_mulLimbs h)) }

/-- **Products.** The product of any two numbers, whatever their signs are. -/
theorem value_mpzMul (u v : Mpz) : (mpzMul u v).value = u.value * v.value := by
  rw [mpzMul]
  split_ifs with h
  · rcases h with h | h
    · rw [(u.limbs_eq_nil_iff).mp h, zero_mul, Mpz.value_mpzInit]
    · rw [(v.limbs_eq_nil_iff).mp h, mul_zero, Mpz.value_mpzInit]
  · push Not at h
    have hnum := (num_dropTop _).trans (num_mulLimbs h.1 h.2).1
    rw [Mpz.value, Mpz.value, Mpz.value]
    dsimp only
    rw [hnum]
    by_cases hu : u.neg = true <;> by_cases hv : v.neg = true <;> simp [hu, hv]

/-! ## Comparisons -/

/-- One number is bigger, or the other one, or none of them. -/
lemma gmpCmp_eq (a b : UInt32) : gmpCmp a b = Int.sign (a.toNat - b.toNat) := by
  simp only [gmpCmp, gt_iff_lt, UInt32.lt_iff_toNat_lt]
  split_ifs
  · omega
  · rw [Int.sign_eq_one_of_pos (by omega)]
    rfl
  · rw [Int.sign_eq_neg_one_of_neg (by omega)]
    rfl
  · rw [show (a.toNat : ℤ) - b.toNat = 0 by omega]
    rfl

/-- **Comparisons.** An absolute value and a number of one limb. -/
theorem mpzCmpabsUi_eq (u : Mpz) (v : UInt32) :
    mpzCmpabsUi u v = Int.sign (|u.value| - v.toNat) := by
  have hv := v.toNat_lt
  rw [mpzCmpabsUi, ← u.num_limbs]
  rcases hlimbs : u.limbs with _ | ⟨x, _ | ⟨y, rest⟩⟩
  · have hget : mpzGetUi u = 0 := by simp [mpzGetUi, hlimbs]
    simp [mpnAbsfitsUlongP, hget, gmpCmp_eq]
  · have hget : mpzGetUi u = x := by
      rw [mpzGetUi, Mpz.mpSize, hlimbs]
      split_ifs <;> simp_all
    simp [mpnAbsfitsUlongP, hget, gmpCmp_eq]
  · -- two limbs are more than an `unsigned long` has
    have hne : u.limbs ≠ [] := by simp [hlimbs]
    have hle := le_num hne (u.top_ne_zero hne)
    have hpow : (2 ^ 32 : ℤ) ≤ (2 ^ 32) ^ (u.limbs.length - 1) :=
      le_self_pow₀ (by norm_num) (by simp [hlimbs])
    rw [hlimbs] at hle hpow
    have hfits : mpnAbsfitsUlongP (x :: y :: rest) = false := by
      simp [mpnAbsfitsUlongP, UInt32.lt_iff_toNat_lt]
    rw [hfits, Int.sign_eq_one_of_pos (by omega)]
    rfl

end MiniGmp

end RecoveryMenu

import Mathlib.Algebra.Ring.Int.Defs
import Mathlib.Data.List.DropRight
import Mathlib.Data.Nat.Digits.Defs
import RecoveryMenu.Foundations.Positional
import RecoveryMenu.MiniGmp.Limb

set_option relaxedAutoImplicit false
set_option autoImplicit false

/-!
# Numbers of limbs (`ios_mcp/source/mini-gmp.c`)

The arithmetic of natural numbers that are given by their limbs, the lowest one first. The
functions write as many limbs as they read, and give back what does not fit: a carry, a borrow,
or the bits that are shifted out.

## Main definitions

* `RecoveryMenu.MiniGmp.num`: the number that limbs are.
* `RecoveryMenu.MiniGmp.mpnAddN`, `RecoveryMenu.MiniGmp.mpnSub`,
  `RecoveryMenu.MiniGmp.mpnMul1`, `RecoveryMenu.MiniGmp.mpnAddmul1`,
  `RecoveryMenu.MiniGmp.mpnSubmul1`, `RecoveryMenu.MiniGmp.mpnMul`,
  `RecoveryMenu.MiniGmp.mpnLshift`, `RecoveryMenu.MiniGmp.mpnRshift`: the functions.

## Main results

* `RecoveryMenu.MiniGmp.num_mpnAddN` and the like: the equation of each function.
* `RecoveryMenu.MiniGmp.mpnMul_ofDigits`: the limbs of a product.

## References

* `ios_mcp/source/mini-gmp.c`: lines 428 to 715.
-/

namespace RecoveryMenu

namespace MiniGmp

/-! ## The functions -/

/-- `mpn_normalized_size`: the limbs up to the highest one that is not zero. -/
def mpnNormalizedSize (xp : List UInt32) : List UInt32 := xp.rdropWhile (· == 0)

/-- The round of `mpn_add_n`. -/
def addNRound (x : UInt32 × UInt32) (cy : UInt32) : UInt32 × UInt32 :=
  let (a, b) := x
  let r := a + cy
  let cy := truth (r < cy)
  let r := r + b
  (r, cy + truth (r < b))

/-- `mpn_add_n`. -/
def mpnAddN (ap bp : List UInt32) : List UInt32 × UInt32 :=
  Positional.carried addNRound (ap.zip bp) 0

/-- The round of `mpn_sub_1`. -/
def sub1Round (a b : UInt32) : UInt32 × UInt32 :=
  (a - b, truth (a < b))

/-- `mpn_sub_1`. -/
def mpnSub1 (ap : List UInt32) (b : UInt32) : List UInt32 × UInt32 :=
  Positional.carried sub1Round ap b

/-- The round of `mpn_sub_n`. -/
def subNRound (x : UInt32 × UInt32) (cy : UInt32) : UInt32 × UInt32 :=
  let (a, b) := x
  let b := b + cy
  let cy := truth (b < cy)
  (a - b, cy + truth (a < b))

/-- `mpn_sub_n`. -/
def mpnSubN (ap bp : List UInt32) : List UInt32 × UInt32 :=
  Positional.carried subNRound (ap.zip bp) 0

/-- `mpn_sub`. -/
def mpnSub (ap bp : List UInt32) : List UInt32 × UInt32 :=
  let (low, cy) := mpnSubN (ap.take bp.length) bp
  if bp.length < ap.length then
    let (high, cy) := mpnSub1 (ap.drop bp.length) cy
    (low ++ high, cy)
  else (low, cy)

/-- The round of `mpn_mul_1`. -/
def mul1Round (vl ul cl : UInt32) : UInt32 × UInt32 :=
  let (hpl, lpl) := gmpUmulPpmm ul vl
  let lpl := lpl + cl
  (lpl, truth (lpl < cl) + hpl)

/-- `mpn_mul_1`. -/
def mpnMul1 (up : List UInt32) (vl : UInt32) : List UInt32 × UInt32 :=
  Positional.carried (mul1Round vl) up 0

/-- The round of `mpn_addmul_1`. -/
def addmul1Round (vl : UInt32) (x : UInt32 × UInt32) (cl : UInt32) : UInt32 × UInt32 :=
  let (rl, ul) := x
  let (lpl, cl) := mul1Round vl ul cl
  let lpl := rl + lpl
  (lpl, cl + truth (lpl < rl))

/-- `mpn_addmul_1`. -/
def mpnAddmul1 (rp up : List UInt32) (vl : UInt32) : List UInt32 × UInt32 :=
  Positional.carried (addmul1Round vl) (rp.zip up) 0

/-- The round of `mpn_submul_1`. -/
def submul1Round (vl : UInt32) (x : UInt32 × UInt32) (cl : UInt32) : UInt32 × UInt32 :=
  let (rl, ul) := x
  let (lpl, cl) := mul1Round vl ul cl
  let lpl := rl - lpl
  (lpl, cl + truth (lpl > rl))

/-- `mpn_submul_1`. -/
def mpnSubmul1 (rp up : List UInt32) (vl : UInt32) : List UInt32 × UInt32 :=
  Positional.carried (submul1Round vl) (rp.zip up) 0

/-- The loop of `mpn_mul`, with what is written from `rp` on: the pointer goes on by one limb,
and the product with the next limb is added from there. -/
def mulLoop (up : List UInt32) : List UInt32 → List UInt32 → List UInt32
  | [], rp => rp
  | _ :: _, [] => []
  | v :: vp, r :: rp =>
    let (rp, high) := mpnAddmul1 rp up v
    r :: mulLoop up vp (rp ++ [high])

/-- `mpn_mul`. -/
def mpnMul (up : List UInt32) : List UInt32 → List UInt32
  | [] => []
  | v :: vp =>
    let (rp, high) := mpnMul1 up v
    mulLoop up vp (rp ++ [high])

/-- The loop of `mpn_lshift`, from the highest limb down. -/
def lshiftLoop (cnt : UInt32) (highLimb : UInt32) : List UInt32 → List UInt32
  | [] => [highLimb]
  | lowLimb :: up =>
    (highLimb ||| (lowLimb >>> (gmpLimbBits - cnt))) :: lshiftLoop cnt (lowLimb <<< cnt) up

/-- `mpn_lshift`: the limbs, and the bits that are shifted out. -/
def mpnLshift (up : List UInt32) (cnt : UInt32) : List UInt32 × UInt32 :=
  match up.reverse with
  | [] => ([], 0)
  | lowLimb :: up =>
    ((lshiftLoop cnt (lowLimb <<< cnt) up).reverse, lowLimb >>> (gmpLimbBits - cnt))

/-- The loop of `mpn_rshift`, from the lowest limb up. -/
def rshiftLoop (cnt : UInt32) (lowLimb : UInt32) : List UInt32 → List UInt32
  | [] => [lowLimb]
  | highLimb :: up =>
    (lowLimb ||| (highLimb <<< (gmpLimbBits - cnt))) :: rshiftLoop cnt (highLimb >>> cnt) up

/-- `mpn_rshift`. -/
def mpnRshift (up : List UInt32) (cnt : UInt32) : List UInt32 × UInt32 :=
  match up with
  | [] => ([], 0)
  | highLimb :: up => (rshiftLoop cnt (highLimb >>> cnt) up, highLimb <<< (gmpLimbBits - cnt))

/-! ## Numbers -/

/-- What a limb counts for. -/
def unit (x : UInt32) : ℤ := x.toNat

/-- The number that limbs are. -/
def num (xs : List UInt32) : ℤ := Positional.value (2 ^ 32) unit xs

@[simp] theorem num_nil : num [] = 0 := rfl

@[simp] theorem num_cons (x : UInt32) (xs : List UInt32) :
    num (x :: xs) = x.toNat + 2 ^ 32 * num xs := rfl

/-- The limbs behind others count for that much more. -/
theorem num_append (xs ys : List UInt32) :
    num (xs ++ ys) = num xs + (2 ^ 32) ^ xs.length * num ys := Positional.value_append _ _ _ _

/-- What limbs can count for. -/
theorem num_lt (xs : List UInt32) : 0 ≤ num xs ∧ num xs < (2 ^ 32) ^ xs.length := by
  refine Positional.value_lt (fun x => ?_) xs
  have := x.toNat_lt
  rw [unit]
  omega

/-! ## Carries and borrows -/

/-- The round of an addition. -/
lemma addNRound_eq (x : UInt32 × UInt32) (cy : UInt32) :
    unit (addNRound x cy).1 + 2 ^ 32 * unit (addNRound x cy).2 =
      unit x.1 + unit x.2 + unit cy := by
  have h₁ := x.1.toNat_lt
  have h₂ := x.2.toNat_lt
  have h₃ := cy.toNat_lt
  simp only [unit, addNRound, truth, UInt32.lt_iff_toNat_lt, UInt32.toNat_add,
    apply_ite UInt32.toNat, UInt32.toNat_one, UInt32.toNat_zero]
  split_ifs <;> omega

/-- The round of a subtraction of one limb. -/
lemma sub1Round_eq (a b : UInt32) :
    unit (sub1Round a b).1 + 2 ^ 32 * -unit (sub1Round a b).2 = unit a + -unit b := by
  have h₁ := a.toNat_lt
  have h₂ := b.toNat_lt
  simp only [unit, sub1Round, truth, UInt32.lt_iff_toNat_lt, UInt32.toNat_sub,
    apply_ite UInt32.toNat, UInt32.toNat_one, UInt32.toNat_zero]
  split_ifs <;> omega

/-- The round of a subtraction. -/
lemma subNRound_eq (x : UInt32 × UInt32) (cy : UInt32) :
    unit (subNRound x cy).1 + 2 ^ 32 * -unit (subNRound x cy).2 =
      unit x.1 + unit x.2 * -1 + -unit cy := by
  have h₁ := x.1.toNat_lt
  have h₂ := x.2.toNat_lt
  have h₃ := cy.toNat_lt
  simp only [unit, subNRound, truth, UInt32.lt_iff_toNat_lt, UInt32.toNat_add, UInt32.toNat_sub,
    apply_ite UInt32.toNat, UInt32.toNat_one, UInt32.toNat_zero]
  split_ifs <;> omega

/-- The product of two limbs. -/
lemma unit_mul_le (u v : UInt32) : u.toNat * v.toNat ≤ (2 ^ 32 - 1) * (2 ^ 32 - 1) := by
  have h₁ := u.toNat_lt
  have h₂ := v.toNat_lt
  exact Nat.mul_le_mul (by omega) (by omega)

/-- The round of a product with one limb. The carry always has room in a limb. -/
lemma mul1Round_eq (vl ul cl : UInt32) :
    unit (mul1Round vl ul cl).1 + 2 ^ 32 * unit (mul1Round vl ul cl).2 =
      unit ul * unit vl + unit cl := by
  have hprod := pair_gmpUmulPpmm ul vl
  have hle := unit_mul_le ul vl
  have hcl := cl.toNat_lt
  simp only [unit, mul1Round]
  rcases hc : gmpUmulPpmm ul vl with ⟨hpl, lpl⟩
  rw [hc] at hprod
  have h₁ := lpl.toNat_lt
  rw [← hprod, pair_mk] at hle
  rw [← Int.natCast_mul, ← hprod, pair_mk]
  simp only [truth, UInt32.lt_iff_toNat_lt, UInt32.toNat_add, apply_ite UInt32.toNat,
    UInt32.toNat_one, UInt32.toNat_zero]
  split_ifs <;> omega

/-- The round of a product that is added. -/
lemma addmul1Round_eq (vl : UInt32) (x : UInt32 × UInt32) (cl : UInt32) :
    unit (addmul1Round vl x cl).1 + 2 ^ 32 * unit (addmul1Round vl x cl).2 =
      unit x.1 + unit x.2 * unit vl + unit cl := by
  have hround := mul1Round_eq vl x.2 cl
  have hle := unit_mul_le x.2 vl
  have hcl := cl.toNat_lt
  have hrl := x.1.toNat_lt
  simp only [unit, addmul1Round] at hround ⊢
  rcases hc : mul1Round vl x.2 cl with ⟨lpl, c⟩
  rw [hc] at hround
  have h₁ := lpl.toNat_lt
  have h₂ := c.toNat_lt
  rw [← Int.natCast_mul] at hround ⊢
  generalize x.2.toNat * vl.toNat = m at *
  simp only [truth, UInt32.lt_iff_toNat_lt, UInt32.toNat_add, apply_ite UInt32.toNat,
    UInt32.toNat_one, UInt32.toNat_zero] at *
  split_ifs <;> omega

/-- The round of a product that is subtracted. -/
lemma submul1Round_eq (vl : UInt32) (x : UInt32 × UInt32) (cl : UInt32) :
    unit (submul1Round vl x cl).1 + 2 ^ 32 * -unit (submul1Round vl x cl).2 =
      unit x.1 + unit x.2 * -unit vl + -unit cl := by
  have hround := mul1Round_eq vl x.2 cl
  have hle := unit_mul_le x.2 vl
  have hcl := cl.toNat_lt
  have hrl := x.1.toNat_lt
  simp only [unit, submul1Round, mul_neg] at hround ⊢
  rcases hc : mul1Round vl x.2 cl with ⟨lpl, c⟩
  rw [hc] at hround
  have h₁ := lpl.toNat_lt
  have h₂ := c.toNat_lt
  rw [← Int.natCast_mul] at hround ⊢
  generalize x.2.toNat * vl.toNat = m at *
  simp only [truth, gt_iff_lt, UInt32.lt_iff_toNat_lt, UInt32.toNat_add, UInt32.toNat_sub,
    apply_ite UInt32.toNat, UInt32.toNat_one, UInt32.toNat_zero] at *
  split_ifs <;> omega

/-- A walk over two numbers next to each other. -/
lemma length_zip_left {ap bp : List UInt32} (h : ap.length = bp.length) :
    (ap.zip bp).length = ap.length := by
  rw [List.length_zip, ← h, Nat.min_self]

/-- A sum of two numbers. -/
theorem num_mpnAddN (ap bp : List UInt32) (h : ap.length = bp.length) :
    num (mpnAddN ap bp).1 + (2 ^ 32) ^ ap.length * (mpnAddN ap bp).2.toNat =
      num ap + num bp := by
  have hrun := Positional.value_carried (2 ^ 32) _ unit unit addNRound_eq (ap.zip bp) 0
  rw [Positional.value_add, Positional.value_zip_left _ _ _ _ h,
    Positional.value_zip_right _ _ _ _ h, length_zip_left h] at hrun
  exact hrun.trans (add_zero _)

/-- A difference of a number and a limb. -/
theorem num_mpnSub1 (ap : List UInt32) (b : UInt32) :
    num (mpnSub1 ap b).1 - (2 ^ 32) ^ ap.length * (mpnSub1 ap b).2.toNat =
      num ap - b.toNat := by
  have hrun := Positional.value_carried (2 ^ 32) _ unit (fun b => -unit b) sub1Round_eq ap b
  rw [mul_neg, ← sub_eq_add_neg] at hrun
  exact hrun

/-- A difference of two numbers. -/
theorem num_mpnSubN (ap bp : List UInt32) (h : ap.length = bp.length) :
    num (mpnSubN ap bp).1 - (2 ^ 32) ^ ap.length * (mpnSubN ap bp).2.toNat =
      num ap - num bp := by
  have hrun := Positional.value_carried (2 ^ 32) _ unit (fun b => -unit b) subNRound_eq
    (ap.zip bp) 0
  rw [Positional.value_add, Positional.value_mul, Positional.value_zip_left _ _ _ _ h,
    Positional.value_zip_right _ _ _ _ h, length_zip_left h] at hrun
  change num (mpnSubN ap bp).1 + (2 ^ 32) ^ ap.length * -((mpnSubN ap bp).2.toNat : ℤ) =
    num ap + num bp * -1 + 0 at hrun
  linear_combination hrun

/-- A product with a limb. -/
theorem num_mpnMul1 (up : List UInt32) (vl : UInt32) :
    num (mpnMul1 up vl).1 + (2 ^ 32) ^ up.length * (mpnMul1 up vl).2.toNat =
      num up * vl.toNat := by
  have hrun := Positional.value_carried (2 ^ 32) _ unit unit (mul1Round_eq vl) up 0
  rw [Positional.value_mul] at hrun
  exact hrun.trans (add_zero _)

/-- A product with a limb that is added. -/
theorem num_mpnAddmul1 (rp up : List UInt32) (vl : UInt32) (h : rp.length = up.length) :
    num (mpnAddmul1 rp up vl).1 + (2 ^ 32) ^ rp.length * (mpnAddmul1 rp up vl).2.toNat =
      num rp + num up * vl.toNat := by
  have hrun := Positional.value_carried (2 ^ 32) _ unit unit (addmul1Round_eq vl) (rp.zip up) 0
  rw [Positional.value_add, Positional.value_mul, Positional.value_zip_left _ _ _ _ h,
    Positional.value_zip_right _ _ _ _ h, length_zip_left h] at hrun
  exact hrun.trans (add_zero _)

/-- A product with a limb that is subtracted. -/
theorem num_mpnSubmul1 (rp up : List UInt32) (vl : UInt32) (h : rp.length = up.length) :
    num (mpnSubmul1 rp up vl).1 - (2 ^ 32) ^ rp.length * (mpnSubmul1 rp up vl).2.toNat =
      num rp - num up * vl.toNat := by
  have hrun := Positional.value_carried (2 ^ 32) _ unit (fun b => -unit b) (submul1Round_eq vl)
    (rp.zip up) 0
  rw [Positional.value_add, Positional.value_mul, Positional.value_zip_left _ _ _ _ h,
    Positional.value_zip_right _ _ _ _ h, length_zip_left h] at hrun
  change num (mpnSubmul1 rp up vl).1 +
      (2 ^ 32) ^ rp.length * -((mpnSubmul1 rp up vl).2.toNat : ℤ) =
    num rp + num up * -(vl.toNat : ℤ) + 0 at hrun
  linear_combination hrun

/-- As many limbs are written as are read. -/
@[simp] theorem length_mpnAddmul1 (rp up : List UInt32) (vl : UInt32)
    (h : rp.length = up.length) : (mpnAddmul1 rp up vl).1.length = up.length := by
  rw [mpnAddmul1, Positional.length_carried, length_zip_left h, h]

@[simp] theorem length_mpnSubmul1 (rp up : List UInt32) (vl : UInt32)
    (h : rp.length = up.length) : (mpnSubmul1 rp up vl).1.length = up.length := by
  rw [mpnSubmul1, Positional.length_carried, length_zip_left h, h]

@[simp] theorem length_mpnAddN (ap bp : List UInt32) (h : ap.length = bp.length) :
    (mpnAddN ap bp).1.length = bp.length := by
  rw [mpnAddN, Positional.length_carried, length_zip_left h, h]

@[simp] theorem length_mpnSubN (ap bp : List UInt32) (h : ap.length = bp.length) :
    (mpnSubN ap bp).1.length = bp.length := by
  rw [mpnSubN, Positional.length_carried, length_zip_left h, h]

@[simp] theorem length_mpnMul1 (up : List UInt32) (vl : UInt32) :
    (mpnMul1 up vl).1.length = up.length := Positional.length_carried _ _

/-- A difference of two numbers of different lengths. -/
theorem num_mpnSub (ap bp : List UInt32) (h : bp.length ≤ ap.length) :
    num (mpnSub ap bp).1 - (2 ^ 32) ^ ap.length * (mpnSub ap bp).2.toNat =
      num ap - num bp := by
  have hlow := num_mpnSubN (ap.take bp.length) bp (by simp [h])
  have hlen := length_mpnSubN (ap.take bp.length) bp (by simp [h])
  have hsplit : num ap = num (ap.take bp.length) + (2 ^ 32) ^ bp.length *
      num (ap.drop bp.length) := by
    conv_lhs => rw [← List.take_append_drop bp.length ap]
    rw [num_append, List.length_take_of_le h]
  rw [List.length_take_of_le h] at hlow
  simp only [mpnSub]
  split_ifs with hlt
  · have hhigh := num_mpnSub1 (ap.drop bp.length) (mpnSubN (ap.take bp.length) bp).2
    have hpow : ((2 ^ 32) ^ ap.length : ℤ) =
        (2 ^ 32) ^ bp.length * (2 ^ 32) ^ (ap.drop bp.length).length := by
      rw [← pow_add, List.length_drop, Nat.add_sub_cancel' h]
    rw [num_append, hlen, hsplit, hpow]
    linear_combination hlow + (2 ^ 32) ^ bp.length * hhigh
  · have hnil : ap.drop bp.length = [] := List.drop_eq_nil_of_le (by omega)
    rw [hnil, num_nil, mul_zero, add_zero] at hsplit
    rw [hsplit, show ap.length = bp.length by omega]
    exact hlow

@[simp] theorem length_mpnSub (ap bp : List UInt32) (h : bp.length ≤ ap.length) :
    (mpnSub ap bp).1.length = ap.length := by
  have hlow := length_mpnSubN (ap.take bp.length) bp (by simp [h])
  simp only [mpnSub]
  split_ifs with hlt
  · rw [List.length_append, hlow, mpnSub1, Positional.length_carried, List.length_drop]
    omega
  · exact hlow.trans (by omega)

/-! ## Products -/

/-- The loop adds the product with the limbs that it reads. -/
lemma num_mulLoop (up vp rp : List UInt32) (h : rp.length = up.length + 1) :
    num (mulLoop up vp rp) = num rp + 2 ^ 32 * (num up * num vp) ∧
      (mulLoop up vp rp).length = rp.length + vp.length := by
  induction vp generalizing rp with
  | nil => simp [mulLoop]
  | cons v vp ih =>
    obtain _ | ⟨r, rp⟩ := rp
    · simp at h
    · have hlen : rp.length = up.length := by simpa using h
      have hadd := num_mpnAddmul1 rp up v hlen
      obtain ⟨hnum, hlength⟩ := ih ((mpnAddmul1 rp up v).1 ++ [(mpnAddmul1 rp up v).2])
        (by simp [hlen])
      simp only [mulLoop, num_cons, hnum, List.length_cons, hlength]
      constructor
      · rw [num_append, num_cons, num_nil, length_mpnAddmul1 _ _ _ hlen, ← hlen]
        linear_combination 2 ^ 32 * hadd
      · simp [hlen]
        omega

/-- **Products.** The limbs of a product.

**Proof sketch.** The lowest limb is multiplied by without a sum, and the others by the loop. -/
theorem num_mpnMul (up vp : List UInt32) (h : vp ≠ []) :
    num (mpnMul up vp) = num up * num vp ∧ (mpnMul up vp).length = up.length + vp.length := by
  obtain _ | ⟨v, vp⟩ := vp
  · exact absurd rfl h
  · have hfirst := num_mpnMul1 up v
    obtain ⟨hnum, hlength⟩ := num_mulLoop up vp ((mpnMul1 up v).1 ++ [(mpnMul1 up v).2]) (by simp)
    simp only [mpnMul, hnum, hlength]
    constructor
    · rw [num_append, num_cons, num_nil, num_cons, length_mpnMul1]
      linear_combination hfirst
    · simp
      omega

/-- The number is the one that the limbs are the digits of. -/
lemma num_eq_ofDigits (xs : List UInt32) :
    num xs = (Nat.ofDigits (2 ^ 32) (xs.map UInt32.toNat) : ℕ) := by
  induction xs with
  | nil => rfl
  | cons x xs ih =>
    rw [num_cons, ih, List.map_cons, Nat.ofDigits_cons]
    push_cast
    rfl

/-- **Products, as digits.** The limbs of the product of two numbers of any lengths are its digits
in the base `2 ^ 32`, and there are as many as both numbers have. -/
theorem mpnMul_ofDigits (up vp : List UInt32) (h : vp ≠ []) :
    Nat.ofDigits (2 ^ 32) ((mpnMul up vp).map UInt32.toNat) =
        Nat.ofDigits (2 ^ 32) (up.map UInt32.toNat) *
          Nat.ofDigits (2 ^ 32) (vp.map UInt32.toNat) ∧
      (mpnMul up vp).length = up.length + vp.length := by
  obtain ⟨hnum, hlength⟩ := num_mpnMul up vp h
  rw [num_eq_ofDigits, num_eq_ofDigits, num_eq_ofDigits] at hnum
  exact ⟨by exact_mod_cast hnum, hlength⟩

/-- Two limbs by two, all of them the highest ones. -/
theorem mpnMul_max :
    Nat.ofDigits (2 ^ 32) ((mpnMul [gmpLimbMax, gmpLimbMax] [gmpLimbMax, gmpLimbMax]).map
        UInt32.toNat) =
        Nat.ofDigits (2 ^ 32) ([gmpLimbMax, gmpLimbMax].map UInt32.toNat) *
          Nat.ofDigits (2 ^ 32) ([gmpLimbMax, gmpLimbMax].map UInt32.toNat) ∧
      (mpnMul [gmpLimbMax, gmpLimbMax] [gmpLimbMax, gmpLimbMax]).length = 4 :=
  mpnMul_ofDigits [gmpLimbMax, gmpLimbMax] [gmpLimbMax, gmpLimbMax] (by decide)

/-! ## Shifts -/

section Shifts

variable {cnt : UInt32} (hpos : 0 < cnt.toNat) (hlt : cnt.toNat < 32)

include hlt in
/-- A limb that is shifted up, modulo `2 ^ 32`. -/
lemma toNat_shiftLeft_cnt (x : UInt32) :
    (x <<< cnt).toNat = x.toNat * 2 ^ cnt.toNat % 2 ^ 32 := by
  rw [UInt32.toNat_shiftLeft, Nat.mod_eq_of_lt hlt, Nat.shiftLeft_eq]

include hlt in
/-- A limb that is shifted down. -/
lemma toNat_shiftRight_cnt (x : UInt32) : (x >>> cnt).toNat = x.toNat / 2 ^ cnt.toNat := by
  rw [UInt32.toNat_shiftRight, Nat.mod_eq_of_lt hlt, Nat.shiftRight_eq_div_pow]

include hpos hlt in
/-- The count for the other direction. -/
lemma toNat_limbBits_sub : (gmpLimbBits - cnt).toNat = 32 - cnt.toNat := by
  rw [UInt32.toNat_sub, show gmpLimbBits.toNat = 32 from rfl]
  omega

/-- Bits on top of others. -/
lemma or_eq_add {k x y : ℕ} (hx : 2 ^ k ∣ x) (hy : y < 2 ^ k) : x ||| y = x + y := by
  obtain ⟨z, rfl⟩ := hx
  rw [Nat.mul_comm, ← Nat.shiftLeft_eq, Nat.shiftLeft_add_eq_or_of_lt hy]

include hpos hlt in
/-- What is shifted up is in the limb and in the bits that are shifted out of it. -/
lemma shiftLeft_add (x : UInt32) :
    x.toNat * 2 ^ cnt.toNat =
      (x >>> (gmpLimbBits - cnt)).toNat * 2 ^ 32 + (x <<< cnt).toNat := by
  have hc := toNat_limbBits_sub hpos hlt
  have hdiv := Nat.div_add_mod' (x.toNat * 2 ^ cnt.toNat) (2 ^ 32)
  have hpow : 2 ^ 32 = 2 ^ (32 - cnt.toNat) * 2 ^ cnt.toNat := by
    rw [← Nat.pow_add, Nat.sub_add_cancel hlt.le]
  rw [toNat_shiftLeft_cnt hlt, toNat_shiftRight_cnt (by rw [hc]; omega), hc,
    ← Nat.mul_div_mul_right x.toNat (2 ^ (32 - cnt.toNat)) (Nat.two_pow_pos cnt.toNat), ← hpow]
  exact hdiv.symm

include hpos hlt in
/-- The bits that are shifted out have room below those that stay. -/
lemma or_shiftRight {high : UInt32} (x : UInt32) (hhigh : 2 ^ cnt.toNat ∣ high.toNat) :
    (high ||| (x >>> (gmpLimbBits - cnt))).toNat =
      high.toNat + (x >>> (gmpLimbBits - cnt)).toNat := by
  have hc := toNat_limbBits_sub hpos hlt
  have hx := x.toNat_lt
  rw [UInt32.toNat_or, toNat_shiftRight_cnt (by rw [hc]; omega), hc]
  refine or_eq_add hhigh ((Nat.div_lt_iff_lt_mul (Nat.two_pow_pos _)).mpr ?_)
  rw [← Nat.pow_add, Nat.add_sub_cancel' hlt.le]
  exact hx

include hlt in
/-- A limb that has been shifted up ends with zeros. -/
lemma dvd_shiftLeft (x : UInt32) : 2 ^ cnt.toNat ∣ (x <<< cnt).toNat := by
  rw [toNat_shiftLeft_cnt hlt]
  exact (Nat.dvd_mod_iff (pow_dvd_pow 2 hlt.le)).mpr (Nat.dvd_mul_left _ _)

include hpos hlt in
/-- The loop shifts the limbs that are left, below the one that it has. -/
lemma num_lshiftLoop (highLimb : UInt32) (up : List UInt32)
    (hhigh : 2 ^ cnt.toNat ∣ highLimb.toNat) :
    num (lshiftLoop cnt highLimb up).reverse =
        highLimb.toNat * (2 ^ 32) ^ up.length + 2 ^ cnt.toNat * num up.reverse ∧
      (lshiftLoop cnt highLimb up).length = up.length + 1 := by
  induction up generalizing highLimb with
  | nil => simp [lshiftLoop]
  | cons lowLimb up ih =>
    obtain ⟨hnum, hlength⟩ := ih (lowLimb <<< cnt) (dvd_shiftLeft hlt lowLimb)
    have hshift := shiftLeft_add hpos hlt lowLimb
    have hor := or_shiftRight hpos hlt lowLimb hhigh
    zify at hshift hor
    rw [lshiftLoop, List.reverse_cons, List.reverse_cons, num_append, num_append, hnum,
      List.length_reverse, List.length_reverse, hlength, List.length_cons, List.length_cons]
    refine ⟨?_, by rw [hlength]⟩
    rw [num_cons, num_cons, num_nil, hor, pow_succ]
    linear_combination (-(2 ^ 32 : ℤ) ^ up.length) * hshift

include hpos hlt in
/-- A number that is shifted up. -/
theorem num_mpnLshift (up : List UInt32) :
    num (mpnLshift up cnt).1 + (2 ^ 32) ^ up.length * (mpnLshift up cnt).2.toNat =
        2 ^ cnt.toNat * num up ∧
      (mpnLshift up cnt).1.length = up.length := by
  rcases hrev : up.reverse with _ | ⟨lowLimb, rest⟩
  · rw [List.reverse_eq_nil_iff] at hrev
    subst hrev
    simp [mpnLshift]
  · obtain ⟨hnum, hlength⟩ := num_lshiftLoop hpos hlt (lowLimb <<< cnt) rest
      (dvd_shiftLeft hlt lowLimb)
    have hup : up = rest.reverse ++ [lowLimb] := by
      rw [← List.reverse_reverse up, hrev, List.reverse_cons]
    have hshift := shiftLeft_add hpos hlt lowLimb
    zify at hshift
    rw [mpnLshift, hrev, List.length_reverse, hlength, hnum, hup, num_append, num_cons, num_nil,
      List.length_append, List.length_reverse, List.length_singleton, pow_succ]
    refine ⟨?_, rfl⟩
    linear_combination (-(2 ^ 32 : ℤ) ^ rest.length) * hshift

include hpos hlt in
/-- The loop for the other direction. -/
lemma num_rshiftLoop (lowLimb : UInt32) (up : List UInt32)
    (hlow : lowLimb.toNat < 2 ^ (32 - cnt.toNat)) :
    num (rshiftLoop cnt lowLimb up) = lowLimb.toNat + 2 ^ (32 - cnt.toNat) * num up ∧
      (rshiftLoop cnt lowLimb up).length = up.length + 1 := by
  have hc := toNat_limbBits_sub hpos hlt
  have hpos' : 0 < (gmpLimbBits - cnt).toNat := by rw [hc]; omega
  have hlt' : (gmpLimbBits - cnt).toNat < 32 := by rw [hc]; omega
  have hback : gmpLimbBits - (gmpLimbBits - cnt) = cnt := by
    rw [← UInt32.toNat_inj, toNat_limbBits_sub hpos' hlt', hc]
    omega
  induction up generalizing lowLimb with
  | nil => simp [rshiftLoop]
  | cons highLimb up ih =>
    have hbits : (highLimb >>> cnt).toNat < 2 ^ (32 - cnt.toNat) := by
      have hx := highLimb.toNat_lt
      rw [toNat_shiftRight_cnt hlt, Nat.div_lt_iff_lt_mul (Nat.two_pow_pos _), ← Nat.pow_add,
        Nat.sub_add_cancel hlt.le]
      exact hx
    obtain ⟨hnum, hlength⟩ := ih (highLimb >>> cnt) hbits
    have hor : (lowLimb ||| (highLimb <<< (gmpLimbBits - cnt))).toNat =
        (highLimb <<< (gmpLimbBits - cnt)).toNat + lowLimb.toNat := by
      have hdvd := dvd_shiftLeft hlt' highLimb
      rw [hc] at hdvd
      rw [UInt32.toNat_or, Nat.or_comm, or_eq_add hdvd hlow]
    have hshift := shiftLeft_add hpos' hlt' highLimb
    rw [hback, hc] at hshift
    zify at hshift hor
    rw [rshiftLoop, num_cons, num_cons, hnum, List.length_cons, List.length_cons, hlength, hor]
    refine ⟨?_, rfl⟩
    linear_combination (-1 : ℤ) * hshift

include hpos hlt in
/-- A number that is shifted down. -/
theorem num_mpnRshift (up : List UInt32) :
    num (mpnRshift up cnt).1 = num up / 2 ^ cnt.toNat ∧
      (mpnRshift up cnt).1.length = up.length := by
  obtain _ | ⟨highLimb, up⟩ := up
  · simp [mpnRshift]
  · have hx := highLimb.toNat_lt
    have hdiv := toNat_shiftRight_cnt hlt highLimb
    have hbits : (highLimb >>> cnt).toNat < 2 ^ (32 - cnt.toNat) := by
      rw [hdiv, Nat.div_lt_iff_lt_mul (Nat.two_pow_pos _), ← Nat.pow_add,
        Nat.sub_add_cancel hlt.le]
      exact hx
    obtain ⟨hnum, hlength⟩ := num_rshiftLoop hpos hlt (highLimb >>> cnt) up hbits
    have hpow : (2 ^ 32 : ℤ) = 2 ^ cnt.toNat * 2 ^ (32 - cnt.toNat) := by
      rw [← pow_add, Nat.add_sub_cancel' hlt.le]
    refine ⟨?_, hlength⟩
    rw [mpnRshift, hnum, num_cons, hpow, mul_assoc, Int.add_mul_ediv_left _ _ (by positivity), hdiv]
    push_cast
    rfl

end Shifts

end MiniGmp

end RecoveryMenu

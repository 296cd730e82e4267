import Mathlib.Data.List.Basic
import Mathlib.Logic.Function.Iterate

set_option relaxedAutoImplicit false
set_option autoImplicit false

/-!
# Shift registers with feedback

A register of `w` bits is shifted down by one place at a time, and when a `1` leaves it, a
polynomial is added. A message is fed in bit by bit at the place that is shifted out next. If the
polynomial has its highest bit set, a shift loses nothing: the bit that left can be seen in the
highest place. So messages that only differ within `w` successive bits leave different registers.

## Main definitions

* `ShiftRegister.shift`: one shift.
* `ShiftRegister.feed`: the register behind a message.
* `ShiftRegister.Burst`: two messages differ, and only within `w` successive bits.

## Main results

* `ShiftRegister.feed_eq`: up to `w` bits can be added at once, before the shifts.
* `ShiftRegister.feed_ne_of_burst`: a burst changes the register.
-/

namespace ShiftRegister

variable {w : ℕ} (poly : BitVec w)

/-- The register after one shift. -/
def shift (r : BitVec w) : BitVec w := (r >>> 1) ^^^ if r.getLsbD 0 then poly else 0

/-- A word with the given bits, the first one in the lowest place. -/
def ofBits (w : ℕ) (bits : List Bool) : BitVec w := (BitVec.ofBoolListLE bits).setWidth w

/-- The register after a message has been fed in. -/
def feed (r : BitVec w) (bits : List Bool) : BitVec w :=
  bits.foldl (fun r b => shift poly (r ^^^ ofBits w [b])) r

/-- Two messages differ, but only within `w` successive bits. -/
def Burst (w : ℕ) (a b : List Bool) : Prop :=
  a ≠ b ∧ ∃ p, ∀ k, a[k]? ≠ b[k]? → p ≤ k ∧ k < p + w

/-! ## Words of bits -/

/-- The bits of such a word. -/
@[simp] theorem getLsbD_ofBits (bits : List Bool) (i : ℕ) :
    (ofBits w bits).getLsbD i = (decide (i < w) && bits.getD i false) := by
  rw [ofBits, BitVec.getLsbD_setWidth, BitVec.getLsbD_ofBoolListLE]

/-- No bits. -/
@[simp] theorem ofBits_nil : ofBits w [] = 0 := by
  apply BitVec.eq_of_getLsbD_eq
  intro i hi
  simp

/-- A first bit and the others behind it. -/
theorem ofBits_cons (b : Bool) (bits : List Bool) :
    ofBits w (b :: bits) = ofBits w [b] ^^^ (ofBits w bits <<< 1) := by
  apply BitVec.eq_of_getLsbD_eq
  intro i hi
  rw [BitVec.getLsbD_xor, BitVec.getLsbD_shiftLeft, getLsbD_ofBits, getLsbD_ofBits, getLsbD_ofBits]
  cases i with
  | zero => simp
  | succ i =>
    have hi' : i < w := Nat.lt_of_succ_lt hi
    simp [hi, hi']

/-- Up to `w` bits can be read back from their word. -/
theorem ofBits_inj {a b : List Bool} (hlength : a.length = b.length) (hle : a.length ≤ w) :
    ofBits w a = ofBits w b ↔ a = b := by
  refine ⟨fun h => List.ext_getElem hlength fun i ha hb => ?_, congrArg _⟩
  have hbit := congrArg (fun x => x.getLsbD i) h
  have hi : i < w := Nat.lt_of_lt_of_le ha hle
  simp only [getLsbD_ofBits, hi, decide_true, Bool.true_and] at hbit
  simpa [ha, hb] using hbit

/-! ## Shifts -/

/-- What stands above the lowest place is moved down. -/
theorem shift_xor_shiftLeft (r : BitVec w) {x : BitVec w} (hx : x.getLsbD (w - 1) = false) :
    shift poly (r ^^^ (x <<< 1)) = shift poly r ^^^ x := by
  have hlow : (r ^^^ (x <<< 1)).getLsbD 0 = r.getLsbD 0 := by simp
  have hback : (x <<< 1) >>> 1 = x := by
    apply BitVec.eq_of_getLsbD_eq
    intro i hi
    rw [BitVec.getLsbD_ushiftRight, BitVec.getLsbD_shiftLeft]
    by_cases hlast : i = w - 1
    · simp [hlast, hx]
    · have hin : 1 + i < w := by omega
      simp [hin]
  rw [shift, shift, hlow, BitVec.ushiftRight_xor_distrib, hback, BitVec.xor_assoc, BitVec.xor_assoc,
    BitVec.xor_comm x]

/-- **Feeding a word.** Up to `w` bits can be added to the register at once, before it is shifted.

**Proof sketch.** Induction on the bits: those behind the first one are moved down by the first
shift. -/
theorem feed_eq (r : BitVec w) {bits : List Bool} (h : bits.length ≤ w) :
    feed poly r bits = (shift poly)^[bits.length] (r ^^^ ofBits w bits) := by
  induction bits generalizing r with
  | nil => simp [feed]
  | cons b bits ih =>
    rw [List.length_cons] at h
    have hlast : (ofBits w bits).getLsbD (w - 1) = false := by
      rw [getLsbD_ofBits, List.getD_eq_getElem?_getD,
        List.getElem?_eq_none (by omega), Option.getD_none, Bool.and_false]
    calc
      feed poly r (b :: bits) = feed poly (shift poly (r ^^^ ofBits w [b])) bits := rfl
      _ = (shift poly)^[bits.length] (shift poly (r ^^^ ofBits w [b]) ^^^ ofBits w bits) :=
        ih _ (by omega)
      _ = (shift poly)^[bits.length] (shift poly (r ^^^ ofBits w (b :: bits))) := by
        rw [ofBits_cons b bits, ← BitVec.xor_assoc, shift_xor_shiftLeft poly _ hlast]
      _ = (shift poly)^[(b :: bits).length] (r ^^^ ofBits w (b :: bits)) := by
        rw [List.length_cons, Function.iterate_succ_apply]

/-- One message behind another. -/
theorem feed_append (r : BitVec w) (a b : List Bool) :
    feed poly r (a ++ b) = feed poly (feed poly r a) b :=
  List.foldl_append

/-! ## Nothing is lost -/

variable {poly}

/-- With the highest bit set in the polynomial, the register before a shift can be found again.

**Proof sketch.** The highest bit of the shifted register is the bit that left it. -/
theorem shift_injective (hpoly : poly.msb = true) : Function.Injective (shift poly) := by
  intro r s h
  have hout (x : BitVec w) : (shift poly x).msb = x.getLsbD 0 := by
    rw [shift, BitVec.msb_xor, BitVec.msb_ushiftRight]
    cases x.getLsbD 0 <;> simp [hpoly]
  have hlow : r.getLsbD 0 = s.getLsbD 0 := by rw [← hout r, ← hout s, h]
  have hhigh : r >>> 1 = s >>> 1 := by
    rw [shift, shift, hlow] at h
    exact (BitVec.xor_left_inj _).mp h
  apply BitVec.eq_of_getLsbD_eq
  intro i _
  cases i with
  | zero => exact hlow
  | succ i =>
    have hbit := congrArg (fun x => x.getLsbD i) hhigh
    simpa [Nat.add_comm] using hbit

/-- The register before a message can be found again. -/
theorem feed_injective (hpoly : poly.msb = true) (bits : List Bool) :
    Function.Injective fun r => feed poly r bits := by
  induction bits with
  | nil => exact Function.injective_id
  | cons b bits ih =>
    intro r s h
    exact (BitVec.xor_left_inj _).mp (shift_injective hpoly (ih h))

/-- Messages that only differ within `w` successive bits have the same bits before and behind
them. -/
theorem Burst.exists_append {a b : List Bool} (h : Burst w a b) (hlength : a.length = b.length) :
    ∃ x u v y, a = x ++ u ++ y ∧ b = x ++ v ++ y ∧ u.length = v.length ∧ u.length ≤ w ∧ u ≠ v := by
  obtain ⟨hne, p, hwindow⟩ := h
  have hsame {k : ℕ} (hk : ¬ (p ≤ k ∧ k < p + w)) : a[k]? = b[k]? :=
    not_not.mp (mt (hwindow k) hk)
  have hbefore : a.take p = b.take p := by
    apply List.ext_getElem?
    intro k
    rw [List.getElem?_take, List.getElem?_take]
    split_ifs with hk
    · exact hsame fun hin => absurd hin.1 (Nat.not_le.mpr hk)
    · rfl
  have hbehind : a.drop (p + w) = b.drop (p + w) := by
    apply List.ext_getElem?
    intro k
    rw [List.getElem?_drop, List.getElem?_drop]
    exact hsame fun hin => absurd hin.2 (by omega)
  have hsplit (l : List Bool) : l = l.take p ++ (l.drop p).take w ++ l.drop (p + w) := by
    rw [List.append_assoc, ← List.drop_drop, List.take_append_drop, List.take_append_drop]
  refine ⟨a.take p, (a.drop p).take w, (b.drop p).take w, a.drop (p + w), hsplit a, ?_, ?_, ?_, ?_⟩
  · rw [hbefore, hbehind]
    exact hsplit b
  · simp [hlength]
  · exact List.length_take_le _ _
  · intro heq
    apply hne
    rw [hsplit a, hsplit b, hbefore, hbehind, heq]

/-- **Bursts are detected.** Messages of the same length that differ, but only within `w` successive
bits, leave different registers, whatever the register has been before them.

**Proof sketch.** The register is the same before the burst. The bits of the burst are added to it
at once (`feed_eq`), which gives different registers, and they stay different. -/
theorem feed_ne_of_burst (hpoly : poly.msb = true) (r : BitVec w) {a b : List Bool}
    (hlength : a.length = b.length) (h : Burst w a b) : feed poly r a ≠ feed poly r b := by
  obtain ⟨x, u, v, y, rfl, rfl, huv, hle, hne⟩ := h.exists_append hlength
  rw [feed_append, feed_append, feed_append, feed_append]
  intro heq
  have hburst := feed_injective hpoly y heq
  have hv : v.length ≤ w := huv ▸ hle
  rw [feed_eq poly _ hle, feed_eq poly _ hv, huv] at hburst
  have hword := (BitVec.xor_right_inj _).mp ((shift_injective hpoly).iterate _ hburst)
  exact hne ((ofBits_inj huv hle).mp hword)

end ShiftRegister

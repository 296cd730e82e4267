import Mathlib.Algebra.Group.Nat.Defs
import Mathlib.Data.Nat.Bits

set_option relaxedAutoImplicit false
set_option autoImplicit false

/-!
# Frames of a serial line

A character on a serial line with eight data bits, no parity and one stop bit: the line is low
for one bit, then at the levels of the character's bits, the lowest one first, and then high. A
sender may shift the bits out of a word until the word is zero; a bit set above the others then
marks where it stops.

## Main definitions

* `SerialFrame.frame`: the levels of a character.
* `SerialFrame.receive`: the characters of a sequence of levels.

## Main results

* `SerialFrame.receive_flatMap_frame`: frames are received as their characters.
* `SerialFrame.bits_marked`: the bits below a marker bit.
-/

namespace SerialFrame

/-- The lowest `n` bits of a number, the lowest one first. -/
def lowBits : ℕ → ℕ → List Bool
  | 0, _ => []
  | n + 1, x => decide (x % 2 = 1) :: lowBits n (x / 2)

/-- The number of some bits, the lowest one first. -/
def ofBits : List Bool → ℕ
  | [] => 0
  | b :: bits => b.toNat + 2 * ofBits bits

/-- The levels of a character: the start bit, the data bits, and the stop bit. -/
def frame (c : UInt8) : List Bool := false :: (lowBits 8 c.toNat ++ [true])

/-- The characters of a sequence of levels, one level a bit. A high line without a start bit is
idle; a frame that is cut off or has no stop bit is an error. -/
def receive : List Bool → Option (List UInt8)
  | [] => some []
  | true :: levels => receive levels
  | false :: b₀ :: b₁ :: b₂ :: b₃ :: b₄ :: b₅ :: b₆ :: b₇ :: true :: levels =>
    (receive levels).map (UInt8.ofNat (ofBits [b₀, b₁, b₂, b₃, b₄, b₅, b₆, b₇]) :: ·)
  | _ => none

example (c : UInt8) : (frame c).length = 10 := rfl

/-- The number of the lowest bits of a number.

**Proof sketch.** Induction on the number of bits. -/
theorem ofBits_lowBits (n x : ℕ) : ofBits (lowBits n x) = x % 2 ^ n := by
  induction n generalizing x with
  | zero => rw [lowBits, ofBits, Nat.pow_zero, Nat.mod_one]
  | succ n ih =>
    have hlow : (decide (x % 2 = 1)).toNat = x % 2 := by
      rcases Nat.mod_two_eq_zero_or_one x with h | h <;> rw [h] <;> rfl
    rw [lowBits, ofBits, ih, hlow, Nat.pow_succ', Nat.mod_mul]

/-- A frame is received as its character. -/
theorem receive_frame_append (c : UInt8) (levels : List Bool) :
    receive (frame c ++ levels) = (receive levels).map (c :: ·) := by
  have hbyte : UInt8.ofNat (ofBits (lowBits 8 c.toNat)) = c := by
    rw [ofBits_lowBits, Nat.mod_eq_of_lt c.toNat_lt, UInt8.ofNat_toNat]
  simp only [lowBits] at hbyte
  simp only [frame, lowBits, List.cons_append, List.nil_append, receive, hbyte]

/-- **Frames.** Frames behind one another are received as their characters.

**Proof sketch.** Induction on the characters. -/
theorem receive_flatMap_frame (cs : List UInt8) : receive (cs.flatMap frame) = some cs := by
  induction cs with
  | nil => rfl
  | cons c cs ih => rw [List.flatMap_cons, receive_frame_append, ih, Option.map_some]

/-- **The marker bit.** Below a marker bit, the bits of a number that is shifted out are its
lowest ones, also where they are zero.

**Proof sketch.** Induction on the number of bits: the lowest one is shifted out first. -/
theorem bits_marked {n x : ℕ} (h : x < 2 ^ n) : (2 ^ n + x).bits = lowBits n x ++ [true] := by
  induction n generalizing x with
  | zero =>
    obtain rfl : x = 0 := Nat.lt_one_iff.mp h
    rfl
  | succ n ih =>
    have hhalf : x / 2 < 2 ^ n := by omega
    have hbit : 2 ^ (n + 1) + x = Nat.bit (decide (x % 2 = 1)) (2 ^ n + x / 2) := by
      rw [Nat.bit_val]
      rcases Nat.mod_two_eq_zero_or_one x with hx | hx <;> simp [hx] <;> omega
    have hpos : 2 ^ n + x / 2 ≠ 0 := Nat.ne_of_gt (Nat.add_pos_left (Nat.two_pow_pos n) _)
    rw [hbit, Nat.bits_append_bit _ _ fun hzero => absurd hzero hpos, ih hhalf, lowBits,
      List.cons_append]

end SerialFrame

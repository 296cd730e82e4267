import RecoveryMenu.Foundations.CString
import RecoveryMenu.Foundations.SerialFrame

set_option relaxedAutoImplicit false
set_option autoImplicit false

/-!
# The serial output of the kernel part (`ios_kernel/source/lolserial.c`)

The kernel part has a serial line on one pin of the GPIO block, which it drives bit by bit. The
pin is set up anew for every message. The end of a message is given as a pointer, which is in
front of the string when there is no limit, and behind the buffer when a formatted message did
not fit: the string then ends at its NUL. The waits between the bits do not touch the output
register; they are in `Kernel/LolSerial/Wait.lean`.

## Main definitions

* `RecoveryMenu.Kernel.lolserialLprint`, `RecoveryMenu.Kernel.lolserialPrintf`, over
  `RecoveryMenu.Kernel.Console`: the registers, the values written to `LT_GPIO_OUT` and the
  addresses read from the string.

## Main results

* `RecoveryMenu.Kernel.lolserial_roundTrip`: the line carries the frames of the characters, and
  a formatted message is not read behind its NUL.

## References

* `ios_kernel/source/lolserial.c`, lines 22-64.
-/

namespace RecoveryMenu

namespace Kernel

open ByteMemory

/-! ## The functions -/

/-- `LOLSERIAL_PIN`. -/
def lolserialPin : UInt32 := 0x00010000

/-- The registers `LT_GPIO_ENABLE`, `LT_GPIO_OUT`, `LT_GPIO_DIR` and `LT_GPIO_OWNER`. -/
structure Gpio where
  enable : UInt32
  out : UInt32
  dir : UInt32
  owner : UInt32
  deriving DecidableEq, Repr

/-- The registers, with the values written to `LT_GPIO_OUT` so far. -/
structure Port where
  gpio : Gpio
  written : List UInt32
  deriving DecidableEq, Repr

/-- The port, with the addresses at which the string was read so far. -/
structure Console where
  port : Port
  reads : List UInt32
  deriving DecidableEq, Repr

/-- A write to `LT_GPIO_OUT`. -/
def Port.writeOut (p : Port) (v : UInt32) : Port :=
  { gpio := { p.gpio with out := v }, written := p.written ++ [v] }

/-- A read of the string. -/
def Console.read (c : Console) (str : UInt32) : Console := { c with reads := c.reads ++ [str] }

/-- The output pin is set up. -/
def setupPin (p : Port) : Port :=
  let p := { p with gpio := { p.gpio with
    owner := p.gpio.owner &&& ~~~lolserialPin
    enable := p.gpio.enable ||| lolserialPin
    dir := p.gpio.dir ||| lolserialPin } }
  p.writeOut (p.gpio.out ||| lolserialPin)

/-- The level of the pin is set. -/
def setLevel (p : Port) (b : Bool) : Port :=
  p.writeOut ((p.gpio.out &&& ~~~lolserialPin) ||| if b then lolserialPin else 0)

/-- A shift takes the bits of a word towards zero. -/
lemma toNat_shiftRight_one_lt {bits : UInt32} (h : bits ≠ 0) :
    (bits >>> 1).toNat < bits.toNat := by
  have hpos : bits.toNat ≠ 0 := fun hzero => h (UInt32.toNat_inj.mp hzero)
  rw [UInt32.toNat_shiftRight, Nat.shiftRight_eq_div_pow]
  exact Nat.div_lt_self (Nat.pos_of_ne_zero hpos) (by decide)

/-- The inner loop: the bits are shifted out until none is set. -/
def sendBits (bits : UInt32) (p : Port) : Port :=
  if bits = 0 then p else sendBits (bits >>> 1) (setLevel p (bits &&& 1 ≠ 0))
termination_by bits.toNat
decreasing_by
  rename_i h
  exact toNat_shiftRight_one_lt h

/-- How many characters there are before the end. -/
lemma toNat_stop_sub (stop str : UInt32) (h : str ≠ stop) :
    (stop - str).toNat = (stop - (str + 1)).toNat + 1 := by
  have hne : str.toNat ≠ stop.toNat := fun heq => h (UInt32.toNat_inj.mp heq)
  have hstr := str.toNat_lt
  have hstop := stop.toNat_lt
  have hone : (1 : UInt32).toNat = 1 := rfl
  rw [UInt32.toNat_sub, UInt32.toNat_sub, UInt32.toNat_add]
  omega

/-- The outer loop, with `stop` for the pointer `end`. The string is read for the test, and
again for the bits. -/
def lprintLoop (m : Memory) (stop str : UInt32) (c : Console) : Console :=
  if m str ≠ 0 ∧ str ≠ stop then
    let c := (c.read str).read str
    lprintLoop m stop (str + 1)
      { c with port := sendBits ((0x200 : UInt32) ||| ((m str).toUInt32 <<< 1)) c.port }
  else c.read str
termination_by (stop - str).toNat
decreasing_by
  rename_i h
  rw [toNat_stop_sub stop str h.2]
  exact Nat.lt_succ_self _

/-- `lolserial_lprint`. -/
def lolserialLprint (m : Memory) (str : UInt32) (len : Int32) (g : Gpio) : Console :=
  lprintLoop m (str + len.toUInt32) str ⟨setupPin ⟨g, []⟩, []⟩

/-- `lolserial_print`. -/
def lolserialPrint (m : Memory) (str : UInt32) (g : Gpio) : Console := lolserialLprint m str (-1) g

/-- `vsnprintf`, with the message that the format and its arguments spell: what fits of it is
stored with a NUL, and the length of all of it is returned, if it is an `int`. -/
def vsnprintf (m : Memory) (buffer : UInt32) (size : ℕ) (message : List UInt8) : Memory × Int32 :=
  (m.store buffer (message.take (size - 1) ++ [0]),
    if message.length < 2 ^ 31 then Int32.ofNat message.length else -1)

/-- `lolserial_printf`, with the local array at `buffer`. -/
def lolserialPrintf (m : Memory) (buffer : UInt32) (message : List UInt8) (g : Gpio) : Console :=
  let (m, len) := vsnprintf m buffer 0x100 message
  lolserialLprint m buffer len g

/-! ## Levels -/

/-- The level of the pin in a value of `LT_GPIO_OUT`. -/
def pinLevel (v : UInt32) : Bool := v &&& lolserialPin ≠ 0

/-- The other bits of a value of `LT_GPIO_OUT`. -/
def otherBits (v : UInt32) : UInt32 := v &&& ~~~lolserialPin

/-- A mask takes its bits of both words. -/
lemma or_and_mask (v x mask : UInt32) : (v ||| x) &&& mask = (v &&& mask) ||| (x &&& mask) :=
  UInt32.toBitVec_inj.mp BitVec.and_or_distrib_right

/-- Bits put under a mask are the ones there. -/
lemma masked_and (v x mask : UInt32) : ((v &&& ~~~mask) ||| x) &&& mask = x &&& mask := by
  rw [or_and_mask, UInt32.and_assoc, UInt32.not_and_self, UInt32.and_zero, UInt32.zero_or]

/-- Bits put under a mask leave the others alone. -/
lemma masked_and_not {v x mask : UInt32} (h : x &&& ~~~mask = 0) :
    ((v &&& ~~~mask) ||| x) &&& ~~~mask = v &&& ~~~mask := by
  rw [or_and_mask, UInt32.and_assoc, UInt32.and_self, h, UInt32.or_zero]

/-- How a port got from one state to another: the pin was driven to some levels, one after
another, and the other bits of `LT_GPIO_OUT` were left alone. -/
structure Driven (p q : Port) (levels : List Bool) : Prop where
  other : otherBits q.gpio.out = otherBits p.gpio.out
  written : ∃ vs, q.written = p.written ++ vs ∧ vs.map pinLevel = levels ∧
    ∀ v ∈ vs, otherBits v = otherBits p.gpio.out

/-- Nothing was driven. -/
lemma Driven.refl (p : Port) : Driven p p [] := ⟨rfl, [], (List.append_nil _).symm, rfl, by simp⟩

/-- Levels after levels. -/
lemma Driven.trans {p q r : Port} {a b : List Bool} (hpq : Driven p q a) (hqr : Driven q r b) :
    Driven p r (a ++ b) := by
  obtain ⟨vs, hvs, ha, hother⟩ := hpq.written
  obtain ⟨ws, hws, hb, hother'⟩ := hqr.written
  refine ⟨hqr.other.trans hpq.other, vs ++ ws, ?_, ?_, ?_⟩
  · rw [hws, hvs, List.append_assoc]
  · rw [List.map_append, ha, hb]
  · intro v hv
    rcases List.mem_append.mp hv with hv | hv
    · exact hother v hv
    · exact (hother' v hv).trans hpq.other

/-- A write that leaves the other bits alone. -/
lemma Driven.of_writeOut {p : Port} {v : UInt32} (h : otherBits v = otherBits p.gpio.out) :
    Driven p (p.writeOut v) [pinLevel v] :=
  ⟨h, [v], rfl, rfl, by simpa using h⟩

/-- Setting the level of the pin. -/
lemma driven_setLevel (p : Port) (b : Bool) : Driven p (setLevel p b) [b] := by
  have hlevel : pinLevel ((p.gpio.out &&& ~~~lolserialPin) ||| if b then lolserialPin else 0) =
      b := by
    rw [pinLevel, masked_and]
    cases b <;> decide
  have hother : (if b then lolserialPin else 0) &&& ~~~lolserialPin = 0 := by
    cases b <;> decide
  have hdriven := Driven.of_writeOut (p := p) (masked_and_not (v := p.gpio.out) hother)
  rwa [hlevel] at hdriven

/-- Setting the pin up drives it to its idle level. -/
lemma driven_setupPin (p : Port) : Driven p (setupPin p) [true] := by
  have hset : p.gpio.out ||| lolserialPin =
      (p.gpio.out &&& ~~~lolserialPin) ||| lolserialPin := by
    apply UInt32.toBitVec_inj.mp
    ext i hi
    simp only [UInt32.toBitVec_and, UInt32.toBitVec_or, UInt32.toBitVec_not, BitVec.getElem_and,
      BitVec.getElem_or, BitVec.getElem_not]
    cases lolserialPin.toBitVec[i] <;> simp
  obtain ⟨hother, vs, hwritten, hlevels, hothers⟩ := driven_setLevel p true
  rw [setLevel, if_pos rfl, ← hset] at hother hwritten
  exact ⟨hother, vs, hwritten, hlevels, hothers⟩

/-- The lowest bit of a word is the first one that is shifted out. -/
lemma bits_toNat {w : UInt32} (h : w ≠ 0) :
    w.toNat.bits = decide (w &&& 1 ≠ 0) :: (w >>> 1).toNat.bits := by
  have hpos : w.toNat ≠ 0 := fun hzero => h (UInt32.toNat_inj.mp hzero)
  have hlow : decide (w &&& 1 ≠ 0) = decide (w.toNat % 2 = 1) := by
    rw [decide_eq_decide, ne_eq, ← UInt32.toNat_inj, UInt32.toNat_and]
    change ¬ w.toNat &&& 1 = 0 ↔ _
    rw [Nat.and_one_is_mod]
    omega
  have hshift : (w >>> 1).toNat = w.toNat / 2 := by
    rw [UInt32.toNat_shiftRight, Nat.shiftRight_eq_div_pow]
    rfl
  have hbit : w.toNat = Nat.bit (decide (w.toNat % 2 = 1)) (w.toNat / 2) := by
    rw [Nat.bit_val]
    rcases Nat.mod_two_eq_zero_or_one w.toNat with hw | hw <;> simp [hw] <;> omega
  rw [hlow, hshift]
  conv_lhs => rw [hbit]
  refine Nat.bits_append_bit _ _ fun hzero => ?_
  rw [decide_eq_true_eq]
  omega

/-- The inner loop drives the pin to the bits of its word, up to the highest one that is set.

**Proof sketch.** Induction on the word, along the loop. -/
lemma driven_sendBits (bits : UInt32) (p : Port) : Driven p (sendBits bits p) bits.toNat.bits := by
  induction bits, p using sendBits.induct with
  | case1 p =>
    rw [sendBits, if_pos rfl]
    exact .refl p
  | case2 bits p hne ih =>
    rw [sendBits, if_neg hne, bits_toNat hne]
    exact (driven_setLevel p _).trans ih

/-- A character is sent as its frame: the lowest bit of the word is the start bit, and the bit
set above the character is the stop bit. -/
lemma driven_char (c : UInt8) (p : Port) :
    Driven p (sendBits ((0x200 : UInt32) ||| (c.toUInt32 <<< 1)) p) (SerialFrame.frame c) := by
  have hword : ((0x200 : UInt32) ||| (c.toUInt32 <<< 1)).toNat = 2 * (2 ^ 8 + c.toNat) := by
    have hc := c.toNat_lt
    have hshift : (c.toUInt32 <<< 1).toNat = 2 * c.toNat := by
      rw [UInt32.toNat_shiftLeft, UInt8.toNat_toUInt32, Nat.shiftLeft_eq]
      change c.toNat * 2 % 2 ^ 32 = _
      omega
    have hmarker := Nat.two_pow_add_eq_or_of_lt (show 2 * c.toNat < 2 ^ 9 by omega) 1
    rw [UInt32.toNat_or, hshift]
    change 2 ^ 9 * 1 ||| 2 * c.toNat = _
    omega
  have hbits := driven_sendBits ((0x200 : UInt32) ||| (c.toUInt32 <<< 1)) p
  rw [hword, Nat.bit0_bits _ (by omega), SerialFrame.bits_marked c.toNat_lt] at hbits
  exact hbits

/-! ## Messages -/

/-- The outer loop drives the pin to the frames of the characters before the end.

**Proof sketch.** Induction on the string: the loop ends at its NUL or at the end, and otherwise
sends a character. -/
lemma driven_lprintLoop {m : Memory} (stop : UInt32) {str : UInt32} {cs : List UInt8}
    (h : m.IsString str cs) (c : Console) :
    Driven c.port (lprintLoop m stop str c).port
      ((cs.take (stop - str).toNat).flatMap SerialFrame.frame) := by
  induction cs generalizing str c with
  | nil =>
    have hnul : m str = 0 := h
    rw [lprintLoop, if_neg fun hgo => hgo.1 hnul, List.take_nil]
    exact .refl c.port
  | cons x cs ih =>
    obtain ⟨hx, hne, hcs⟩ := h
    by_cases hstop : str = stop
    · rw [lprintLoop, if_neg fun hgo => hgo.2 hstop, hstop, UInt32.sub_self]
      exact .refl c.port
    · rw [lprintLoop, if_pos ⟨hx ▸ hne, hstop⟩, hx, toNat_stop_sub stop str hstop,
        List.take_succ_cons, List.flatMap_cons]
      exact (driven_char x c.port).trans (ih hcs ⟨_, _⟩)

/-- The string is read no further than its NUL.

**Proof sketch.** Induction on the string. -/
lemma mem_reads_lprintLoop {m : Memory} {stop str : UInt32} {cs : List UInt8}
    (h : m.IsString str cs) {c : Console} {a : UInt32}
    (ha : a ∈ (lprintLoop m stop str c).reads) :
    a ∈ c.reads ∨ ∃ i ≤ cs.length, a = str + UInt32.ofNat i := by
  have hfirst : str = str + UInt32.ofNat 0 := (UInt32.add_zero str).symm
  induction cs generalizing str c with
  | nil =>
    have hnul : m str = 0 := h
    rw [lprintLoop, if_neg fun hgo => hgo.1 hnul, Console.read, List.mem_append,
      List.mem_singleton] at ha
    exact ha.imp_right fun heq => ⟨0, Nat.zero_le _, heq.trans hfirst⟩
  | cons x cs ih =>
    obtain ⟨hx, hne, hcs⟩ := h
    by_cases hstop : str = stop
    · rw [lprintLoop, if_neg fun hgo => hgo.2 hstop, Console.read, List.mem_append,
        List.mem_singleton] at ha
      exact ha.imp_right fun heq => ⟨0, Nat.zero_le _, heq.trans hfirst⟩
    · rw [lprintLoop, if_pos ⟨hx ▸ hne, hstop⟩] at ha
      rcases ih hcs ha (UInt32.add_zero _).symm with hread | ⟨i, hi, heq⟩
      · simp only [Console.read, List.mem_append, List.mem_singleton, or_assoc, or_self] at hread
        exact hread.imp_right fun heq => ⟨0, Nat.zero_le _, heq.trans hfirst⟩
      · exact Or.inr ⟨i + 1, Nat.succ_le_succ hi, heq.trans (Memory.add_ofNat_succ str i).symm⟩

/-- The characters of a message with a limit of `-1` for none: all of them, or the first ones. -/
def limited (cs : List UInt8) (len : Int32) : List UInt8 :=
  if len = -1 then cs else cs.take len.toNatClampNeg

/-- The characters before the end that a limit sets.

**Proof sketch.** Without a limit the end is one byte in front of the string, further behind it
than any NUL. -/
lemma take_stop_sub {m : Memory} {str : UInt32} {cs : List UInt8} (h : m.IsString str cs)
    {len : Int32} (hlen : len = -1 ∨ 0 ≤ len) :
    cs.take (str + len.toUInt32 - str).toNat = limited cs len := by
  rw [UInt32.add_comm, UInt32.add_sub_cancel, limited]
  split_ifs with hnone
  · have hlt := h.length_lt
    have hmax : (-1 : Int32).toUInt32.toNat = 2 ^ 32 - 1 := by decide
    rw [hnone, hmax, List.take_of_length_le (by omega)]
  · rw [Int32.toNat_toUInt32_of_le (hlen.resolve_left hnone)]

/-- **Serial output.** For every string and every limit, the pin is driven to its idle level and
then to the frames of the characters, which are received as the characters up to the first NUL
or up to the limit; the other bits of `LT_GPIO_OUT` keep their values. For every formatted
message, whatever length `vsnprintf` returns, the local array is read up to its NUL at most.

**Proof sketch.** Both are properties of the outer loop on a string. The local array holds a
string in any case, since its NUL is inside. -/
theorem lolserial_roundTrip :
    (∀ (m : Memory) (str : UInt32) (cs : List UInt8) (len : Int32) (g : Gpio),
      m.IsString str cs → (len = -1 ∨ 0 ≤ len) →
      let written := (lolserialLprint m str len g).port.written
      written.map pinLevel = true :: (limited cs len).flatMap SerialFrame.frame ∧
        SerialFrame.receive (written.map pinLevel) = some (limited cs len) ∧
        ∀ v ∈ written, otherBits v = otherBits g.out) ∧
    ∀ (m : Memory) (buffer : UInt32) (message : List UInt8) (g : Gpio),
      ∀ a ∈ (lolserialPrintf m buffer message g).reads,
        (a - buffer).toNat ≤ min message.length 0xFF := by
  refine ⟨fun m str cs len g hstring hlen => ?_, fun m buffer message g a ha => ?_⟩
  · have hsetup := driven_setupPin ⟨g, []⟩
    have hloop := driven_lprintLoop (str + len.toUInt32) hstring ⟨setupPin ⟨g, []⟩, []⟩
    rw [take_stop_sub hstring hlen] at hloop
    obtain ⟨vs, hvs, hlevels, hother⟩ := (hsetup.trans hloop).written
    have hwritten : (lolserialLprint m str len g).port.written = vs := hvs
    refine ⟨?_, ?_, ?_⟩
    · rw [hwritten]
      exact hlevels
    · rw [hwritten, hlevels]
      exact SerialFrame.receive_flatMap_frame _
    · rw [hwritten]
      exact hother
  · have hlength : (message.take 0xFF ++ [0]).length ≤ 2 ^ 32 := by
      rw [List.length_append, List.length_take, List.length_singleton]
      omega
    have hstring := Memory.isString_of_load (Memory.load_store_self m buffer hlength)
      (List.mem_append_right _ List.mem_cons_self)
    rcases mem_reads_lprintLoop hstring ha with hnone | ⟨i, hi, rfl⟩
    · exact absurd hnone List.not_mem_nil
    · have hnul : ((message.take 0xFF ++ [0]).takeWhile (· ≠ 0)).length ≤
          (message.take 0xFF).length := by
        rw [List.takeWhile_append]
        split_ifs
        · simp
        · exact (List.takeWhile_sublist _).length_le
      rw [List.length_take] at hnul
      rw [Memory.toNat_add_sub buffer (by omega)]
      omega

/-- Of a string of two letters, both are sent without a limit, and the first one with a limit of
one. -/
theorem lolserial_roundTrip_letters :
    let m : Memory := fun a => if a = 0x1000 then 0x4F else if a = 0x1001 then 0x4B else 0
    let g : Gpio := ⟨0, 0x300, 0, 0xFFFFFFFF⟩
    SerialFrame.receive ((lolserialPrint m 0x1000 g).port.written.map pinLevel) =
        some [0x4F, 0x4B] ∧
      SerialFrame.receive ((lolserialLprint m 0x1000 1 g).port.written.map pinLevel) =
        some [0x4F] := by
  intro m g
  have hstring : m.IsString 0x1000 [0x4F, 0x4B] :=
    ⟨by decide, by decide, by decide, by decide, show m 0x1002 = 0 by decide⟩
  exact ⟨(lolserial_roundTrip.1 m 0x1000 _ (-1) g hstring (by decide)).2.1,
    (lolserial_roundTrip.1 m 0x1000 _ 1 g hstring (by decide)).2.1⟩

end Kernel

end RecoveryMenu

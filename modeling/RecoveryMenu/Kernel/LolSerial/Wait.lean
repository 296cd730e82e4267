import RecoveryMenu.Foundations.Polling
import RecoveryMenu.Kernel.LolSerial

set_option relaxedAutoImplicit false
set_option autoImplicit false

/-!
# The waits between the bits (`ios_kernel/source/lolserial.c`)

After each bit `lolserial_lprint` polls `LT_TIMER` until `LOLSERIAL_WAIT_TICKS` have gone by. The
timer has 32 bits and wraps around, and so does the sum that gives the deadline. The first of the
two loops waits for the timer to wrap around if the deadline has, and the second one waits for
the deadline.

The loops compare values of the timer as numbers. If the deadline is just below the wrap, the
timer may wrap around between two samples and the second loop never sees it past the deadline;
if the deadline is just behind the wrap, the first loop may find the timer past it already and
take it for one that has not wrapped around. In both cases the wait goes on for as long as it
takes the timer to come round again.

## Main definitions

* `RecoveryMenu.Kernel.waitTicks`: the two loops.
* `RecoveryMenu.Kernel.OnTime`: the wait ends at the first sample that is due.
* `RecoveryMenu.Kernel.Sighted`: a sample is taken between the deadline and the wrap, or between
  the wrap and the deadline.
* `RecoveryMenu.Kernel.sendBitsTimed`: the loop over the bits, with its waits.

## Main results

* `RecoveryMenu.Kernel.onTime_iff_sighted`: when a wait is on time.
* `RecoveryMenu.Kernel.not_onTime`: a wait that is not.
* `RecoveryMenu.Kernel.sendBitsTimed_spec`: no bit is cut short, in any case.

## References

* `ios_kernel/source/lolserial.c`, lines 14 and 30-41.
-/

namespace RecoveryMenu

namespace Kernel

open Polling

/-! ## The wait -/

/-- `LOLSERIAL_WAIT_TICKS`. -/
def lolserialWaitTicks : ℕ := 200

/-- `LT_TIMER` at sample `k`. -/
def ltTimer (s : Samples lolserialWaitTicks) (k : ℕ) : UInt32 := UInt32.ofNat (s.count k)

/-- The variable `then` of the wait that reads `now` at sample `i`. -/
def deadline (s : Samples lolserialWaitTicks) (i : ℕ) : UInt32 :=
  ltTimer s i + UInt32.ofNat lolserialWaitTicks

/-- The wait that reads `now` at sample `i`, run for a number of samples: the sample at which it
ends. -/
def waitTicks (s : Samples lolserialWaitTicks) (fuel i : ℕ) : Option ℕ :=
  (poll (fun k => deadline s i < ltTimer s k) fuel i).bind
    (poll (fun k => ltTimer s k < deadline s i) fuel)

/-- The wait ends at the first sample that is due, and so after less than twice the ticks. -/
structure OnTime (s : Samples lolserialWaitTicks) (i : ℕ) : Prop where
  ends : ∀ k, (∃ fuel, waitTicks s fuel i = some k) ↔ s.DueAt i k
  count_lt : ∀ fuel k, waitTicks s fuel i = some k →
    s.count k < s.count i + 2 * lolserialWaitTicks

/-! ## What the timer reaches -/

/-- The ticks from sample `i` to sample `k`, on top of what the timer shows at sample `i`. -/
def reached (s : Samples lolserialWaitTicks) (i k : ℕ) : ℕ :=
  (ltTimer s i).toNat + (s.count k - s.count i)

/-- Sample `k` is taken where the loops look for it: with the deadline in front of the wrap, from
the deadline on and before the wrap, and otherwise behind the wrap and up to the deadline. -/
def InSight (s : Samples lolserialWaitTicks) (i k : ℕ) : Prop :=
  if (ltTimer s i).toNat + lolserialWaitTicks < 2 ^ 32 then
    (ltTimer s i).toNat + lolserialWaitTicks ≤ reached s i k ∧ reached s i k < 2 ^ 32
  else
    2 ^ 32 ≤ reached s i k ∧ reached s i k ≤ (ltTimer s i).toNat + lolserialWaitTicks

/-- If any sample is due, then one is taken in sight. -/
def Sighted (s : Samples lolserialWaitTicks) (i : ℕ) : Prop :=
  (∃ k, i ≤ k ∧ s.count i + lolserialWaitTicks ≤ s.count k) → ∃ k, i ≤ k ∧ InSight s i k

/-! ## The loops on numbers -/

section Wait

variable {s : Samples lolserialWaitTicks} {i k : ℕ}

/-- What the timer shows is what was reached, wrapped around. -/
lemma toNat_ltTimer (h : i ≤ k) : (ltTimer s k).toNat = reached s i k % 2 ^ 32 := by
  have hmono := s.count_mono h
  simp only [reached, ltTimer, UInt32.toNat_ofNat']
  omega

/-- The deadline is the sum, wrapped around. -/
lemma toNat_deadline :
    (deadline s i).toNat = ((ltTimer s i).toNat + lolserialWaitTicks) % 2 ^ 32 := by
  rw [deadline, UInt32.toNat_add]
  rfl

/-- When the first loop goes on. -/
lemma deadline_lt_iff (h : i ≤ k) : deadline s i < ltTimer s k ↔
    ((ltTimer s i).toNat + lolserialWaitTicks) % 2 ^ 32 < reached s i k % 2 ^ 32 := by
  rw [UInt32.lt_iff_toNat_lt, toNat_deadline, toNat_ltTimer h]

/-- When the second loop goes on. -/
lemma ltTimer_lt_iff (h : i ≤ k) : ltTimer s k < deadline s i ↔
    reached s i k % 2 ^ 32 < ((ltTimer s i).toNat + lolserialWaitTicks) % 2 ^ 32 := by
  rw [UInt32.lt_iff_toNat_lt, toNat_deadline, toNat_ltTimer h]

/-- Later samples have reached more. -/
lemma reached_mono (s : Samples lolserialWaitTicks) (i : ℕ) {j k : ℕ} (h : j ≤ k) :
    reached s i j ≤ reached s i k :=
  Nat.add_le_add_left (Nat.sub_le_sub_right (s.count_mono h) _) _

/-- The two loops, one after the other. -/
lemma exists_waitTicks_iff : (∃ fuel, waitTicks s fuel i = some k) ↔
    ∃ j, IsLeast {j | i ≤ j ∧ ¬ deadline s i < ltTimer s j} j ∧
      IsLeast {k | j ≤ k ∧ ¬ ltTimer s k < deadline s i} k :=
  exists_poll_bind_iff

/-- A wait is never too short.

**Proof sketch.** Suppose that it is. If the deadline has not wrapped around, then the timer has
not either, and the second loop goes on. Otherwise the first loop has seen the timer wrapped
around, and the second one goes on, since the timer is behind the wrap but not at the
deadline. -/
theorem due_of_waitTicks {fuel : ℕ} (h : waitTicks s fuel i = some k) :
    i ≤ k ∧ s.count i + lolserialWaitTicks ≤ s.count k := by
  obtain ⟨j, ⟨⟨hij, hfirst⟩, -⟩, ⟨hjk, hsecond⟩, -⟩ := exists_waitTicks_iff.mp ⟨fuel, h⟩
  have hik : i ≤ k := hij.trans hjk
  refine ⟨hik, ?_⟩
  by_contra hearly
  have hticks : lolserialWaitTicks = 200 := rfl
  have hstart := (ltTimer s i).toNat_lt
  have hmono := reached_mono s i hjk
  have hstep := s.count_mono hik
  have hreached : reached s i k = (ltTimer s i).toNat + (s.count k - s.count i) := rfl
  have hle : (ltTimer s i).toNat ≤ reached s i j := Nat.le_add_right _ _
  rw [deadline_lt_iff hij] at hfirst
  rw [ltTimer_lt_iff hik] at hsecond
  omega

/-- With the deadline in front of the wrap, the wait ends at the first due sample if that one is
in front of the wrap too.

**Proof sketch.** The first loop ends at once. Before the due sample the timer has not reached
the deadline, and at the due sample it has. -/
lemma waitTicks_of_lt (hdue : s.DueAt i k)
    (hdeadline : (ltTimer s i).toNat + lolserialWaitTicks < 2 ^ 32)
    (hsight : reached s i k < 2 ^ 32) : ∃ fuel, waitTicks s fuel i = some k := by
  have hself : reached s i i = (ltTimer s i).toNat := by rw [reached, Nat.sub_self, Nat.add_zero]
  have hreached : reached s i k = (ltTimer s i).toNat + (s.count k - s.count i) := rfl
  have hlate := hdue.1.2
  refine exists_waitTicks_iff.mpr ⟨i, ⟨⟨le_rfl, ?_⟩, fun j hj => hj.1⟩, ⟨hdue.1.1, ?_⟩, ?_⟩
  · rw [deadline_lt_iff le_rfl, hself]
    omega
  · rw [ltTimer_lt_iff hdue.1.1]
    omega
  · rintro j ⟨hij, hend⟩
    by_contra hjk
    have hstep := s.count_mono hij
    have hearly := hdue.count_lt_of_lt hij (Nat.lt_of_not_le hjk)
    have hbefore : reached s i j = (ltTimer s i).toNat + (s.count j - s.count i) := rfl
    rw [ltTimer_lt_iff hij] at hend
    omega

/-- With the deadline behind the wrap, the wait ends at the first due sample if some sample is
taken between the two.

**Proof sketch.** The first loop ends at the first sample between the wrap and the deadline. It is
the due one at the latest. From there on the timer counts up to the deadline, and does not wrap
around again before the due sample, since that one is not late. -/
lemma waitTicks_of_ge (hdue : s.DueAt i k)
    (hdeadline : 2 ^ 32 ≤ (ltTimer s i).toNat + lolserialWaitTicks) {w : ℕ} (hw : i ≤ w)
    (hwrapped : 2 ^ 32 ≤ reached s i w)
    (hsight : reached s i w ≤ (ltTimer s i).toNat + lolserialWaitTicks) :
    ∃ fuel, waitTicks s fuel i = some k := by
  have hticks : lolserialWaitTicks = 200 := rfl
  have hstart := (ltTimer s i).toNat_lt
  have hlate := hdue.1.2
  have hlt := hdue.count_lt
  have hreached : reached s i k = (ltTimer s i).toNat + (s.count k - s.count i) := rfl
  have hends : ¬ deadline s i < ltTimer s w := by
    rw [deadline_lt_iff hw]
    omega
  obtain ⟨j, ⟨hij, hfirst⟩, hleast⟩ := exists_first (p := fun j => ¬ deadline s i < ltTimer s j)
    ⟨w, hw, hends⟩
  have hjw := reached_mono s i (hleast ⟨hw, hends⟩)
  have hle : (ltTimer s i).toNat ≤ reached s i j := Nat.le_add_right _ _
  have hj := (deadline_lt_iff hij).not.mp hfirst
  have hjk : j ≤ k := by
    by_contra hkj
    have hkj' := reached_mono s i (Nat.le_of_not_le hkj)
    refine absurd (hleast ⟨hdue.1.1, ?_⟩) hkj
    rw [deadline_lt_iff hdue.1.1]
    omega
  refine exists_waitTicks_iff.mpr ⟨j, ⟨⟨hij, hfirst⟩, hleast⟩, ⟨hjk, ?_⟩, ?_⟩
  · rw [ltTimer_lt_iff hdue.1.1]
    omega
  · rintro l ⟨hjl, hend⟩
    by_contra hlk
    have hil := hij.trans hjl
    have hearly := hdue.count_lt_of_lt hil (Nat.lt_of_not_le hlk)
    have hbefore : reached s i l = (ltTimer s i).toNat + (s.count l - s.count i) := rfl
    have hjl' := reached_mono s i hjl
    rw [ltTimer_lt_iff hil] at hend
    omega

/-- A wait that ends has had a sample in sight, or has lasted for a whole round of the timer.

**Proof sketch.** With the deadline in front of the wrap, the sample in sight is the one at which
the second loop ends. Otherwise it is the one at which the first loop ends. If they are not in
sight, then the timer has wrapped around once more. -/
lemma inSight_or_round {fuel : ℕ} (h : waitTicks s fuel i = some k) :
    (∃ j, i ≤ j ∧ InSight s i j) ∨ s.count i + 2 ^ 32 ≤ s.count k := by
  obtain ⟨hik, hlate⟩ := due_of_waitTicks h
  obtain ⟨j, ⟨⟨hij, hfirst⟩, -⟩, ⟨hjk, hsecond⟩, -⟩ := exists_waitTicks_iff.mp ⟨fuel, h⟩
  have hticks : lolserialWaitTicks = 200 := rfl
  have hstart := (ltTimer s i).toNat_lt
  have hreached : reached s i k = (ltTimer s i).toNat + (s.count k - s.count i) := rfl
  refine or_iff_not_imp_right.mpr fun hround => ?_
  by_cases hdeadline : (ltTimer s i).toNat + lolserialWaitTicks < 2 ^ 32
  · refine ⟨k, hik, ?_⟩
    rw [InSight, if_pos hdeadline]
    rw [ltTimer_lt_iff hik] at hsecond
    omega
  · have hmono := reached_mono s i hjk
    have hle : (ltTimer s i).toNat ≤ reached s i j := Nat.le_add_right _ _
    refine ⟨j, hij, ?_⟩
    rw [InSight, if_neg hdeadline]
    rw [deadline_lt_iff hij] at hfirst
    omega

/-- A sighted wait is on time.

**Proof sketch.** No wait is too short, so one that ends has a first due sample. A sighted wait
ends there, and a wait ends only once. -/
lemma onTime_of_sighted (h : Sighted s i) : OnTime s i := by
  have hends : ∀ k, s.DueAt i k → ∃ fuel, waitTicks s fuel i = some k := by
    intro k hk
    obtain ⟨w, hw, hsight⟩ := h ⟨k, hk.1⟩
    rw [InSight] at hsight
    split_ifs at hsight with hdeadline
    · have hreached : reached s i w = (ltTimer s i).toNat + (s.count w - s.count i) := rfl
      have hstep := s.count_mono hw
      have hmono := reached_mono s i (hk.2 ⟨hw, by omega⟩)
      exact waitTicks_of_lt hk hdeadline (hmono.trans_lt hsight.2)
    · exact waitTicks_of_ge hk (Nat.le_of_not_lt hdeadline) hw hsight.1 hsight.2
  have hdue : ∀ fuel k, waitTicks s fuel i = some k → s.DueAt i k := by
    intro fuel k hfuel
    obtain ⟨l, hl⟩ : ∃ l, s.DueAt i l := exists_first ⟨k, due_of_waitTicks hfuel⟩
    obtain ⟨j, hj, hk⟩ := exists_waitTicks_iff.mp ⟨fuel, hfuel⟩
    obtain ⟨j', hj', hl'⟩ := exists_waitTicks_iff.mp (hends l hl)
    obtain rfl : j = j' := hj.unique hj'
    obtain rfl : k = l := hk.unique hl'
    exact hl
  exact ⟨fun k => ⟨fun ⟨fuel, hfuel⟩ => hdue fuel k hfuel, hends k⟩,
    fun fuel k hfuel => (hdue fuel k hfuel).count_lt⟩

/-- **Bit delay.** For every sequence of samples, the wait ends at the first sample that is due,
and so after less than twice the ticks, if and only if it is sighted.

**Proof sketch.** If a sample is due and the wait ends at the first one, then it has not lasted
for a whole round of the timer, and so it has had a sample in sight. -/
theorem onTime_iff_sighted (s : Samples lolserialWaitTicks) (i : ℕ) : OnTime s i ↔ Sighted s i := by
  refine ⟨fun h hdue => ?_, onTime_of_sighted⟩
  obtain ⟨k, hk⟩ : ∃ k, s.DueAt i k := exists_first hdue
  obtain ⟨fuel, hfuel⟩ := (h.ends k).mpr hk
  rcases inSight_or_round hfuel with hsight | hround
  · exact hsight
  · have hlt := h.count_lt fuel k hfuel
    have hticks : lolserialWaitTicks = 200 := rfl
    omega

/-- A wait that is not sighted lasts for a whole round of the timer, if it ends at all. -/
theorem round_of_not_sighted (hs : ¬ Sighted s i) {fuel : ℕ} (h : waitTicks s fuel i = some k) :
    s.count i + 2 ^ 32 ≤ s.count k := by
  rcases inSight_or_round h with hsight | hround
  · exact absurd (fun _ => hsight) hs
  · exact hround

end Wait

/-! ## A wait that is not on time -/

/-- Samples every three ticks, with the first deadline on the last value of the timer. -/
def everyThirdTick : Samples lolserialWaitTicks where
  count k := 0xFFFFFF37 + 3 * k
  count_le_succ k := by omega
  count_succ_lt k := by
    change 0xFFFFFF37 + 3 * (k + 1) < 0xFFFFFF37 + 3 * k + 200
    omega

/-- The sample before the deadline is taken two ticks early, and the one after it is `0`. -/
theorem not_onTime : ¬ OnTime everyThirdTick 0 := by
  intro h
  have hticks : lolserialWaitTicks = 200 := rfl
  have hcount : ∀ k, everyThirdTick.count k = 0xFFFFFF37 + 3 * k := fun k => rfl
  have hstart : (ltTimer everyThirdTick 0).toNat = 0xFFFFFF37 := rfl
  have hdue : everyThirdTick.DueAt 0 67 := by
    refine ⟨⟨Nat.zero_le _, ?_⟩, fun k hk => ?_⟩
    · rw [hcount, hcount, hticks]
      omega
    · have hlate := hk.2
      rw [hcount, hcount, hticks] at hlate
      omega
  obtain ⟨fuel, hfuel⟩ := (h.ends 67).mpr hdue
  have hlt := h.count_lt fuel 67 hfuel
  rcases inSight_or_round hfuel with ⟨k, -, hsight⟩ | hround
  · rw [InSight, reached, hstart, hcount, hcount, hticks, if_pos (by omega)] at hsight
    omega
  · rw [hcount, hcount, hticks] at hlt
    rw [hcount, hcount] at hround
    omega

/-! ## The bits and their waits -/

/-- The inner loop with its waits, from sample `i` on: the port, and the first and the last sample
of each wait. -/
def sendBitsTimed (s : Samples lolserialWaitTicks) (fuel : ℕ) (bits : UInt32) (p : Port) (i : ℕ) :
    Option (Port × List (ℕ × ℕ)) :=
  if bits = 0 then some (p, [])
  else
    let p := setLevel p (bits &&& 1 ≠ 0)
    (waitTicks s fuel i).bind fun k =>
      (sendBitsTimed s fuel (bits >>> 1) p (k + 1)).map fun r => (r.1, (i, k) :: r.2)
termination_by bits.toNat
decreasing_by
  rename_i h
  exact toNat_shiftRight_one_lt h

/-- **Bits and waits.** The waits leave the port as the bits make it. There is one for each bit,
and it is long enough; if it is sighted, then it is not too long either.

**Proof sketch.** Induction on the word, along the loop: a bit is sent, its wait ends, and the
other bits are sent from the next sample on. -/
theorem sendBitsTimed_spec {s : Samples lolserialWaitTicks} {fuel : ℕ} {bits : UInt32} {p q : Port}
    {i : ℕ} {waits : List (ℕ × ℕ)} (h : sendBitsTimed s fuel bits p i = some (q, waits)) :
    q = sendBits bits p ∧ waits.length = bits.toNat.bits.length ∧
      ∀ w ∈ waits, s.count w.1 + lolserialWaitTicks ≤ s.count w.2 ∧
        (Sighted s w.1 → s.count w.2 < s.count w.1 + 2 * lolserialWaitTicks) := by
  induction bits, p using sendBits.induct generalizing i waits with
  | case1 p =>
    rw [sendBitsTimed, if_pos rfl] at h
    cases h
    rw [sendBits, if_pos rfl]
    exact ⟨rfl, rfl, fun w hw => absurd hw List.not_mem_nil⟩
  | case2 bits p hne ih =>
    rw [sendBitsTimed, if_neg hne] at h
    obtain ⟨k, hk, hrest⟩ := Option.bind_eq_some_iff.mp h
    obtain ⟨⟨q', waits'⟩, hsend, heq⟩ := Option.map_eq_some_iff.mp hrest
    cases heq
    obtain ⟨hport, hlength, hwaits⟩ := ih hsend
    rw [sendBits, if_neg hne, bits_toNat hne]
    refine ⟨hport, congrArg (· + 1) hlength, fun w hw => ?_⟩
    rcases List.mem_cons.mp hw with rfl | hw
    · exact ⟨(due_of_waitTicks hk).2,
        fun hs => ((onTime_of_sighted hs).count_lt fuel k hk)⟩
    · exact hwaits w hw

end Kernel

end RecoveryMenu

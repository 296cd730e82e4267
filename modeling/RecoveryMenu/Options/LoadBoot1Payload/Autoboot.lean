import RecoveryMenu.Foundations.TransitionSystem
import RecoveryMenu.Options.DumpSyslogs

set_option relaxedAutoImplicit false
set_option autoImplicit false

/-!
# Booting without a choice (`ios_mcp/source/options/LoadBoot1Payload.c`)

If there is a file `boot1now.img`, `handleBoot1Autoboot` loads it after some seconds, unless a
button is pressed before. Each turn of its loop reads the event flag of the system and then the
time. The buttons are only looked at if the flag byte is another than the last one, and the time
that has passed is counted in seconds of 32 bits.

## Main definitions

* `RecoveryMenu.Autoboot.turn`: a turn of the loop.
* `RecoveryMenu.Autoboot.Call.system`: a call, as a transition system over its samples.

## Main results

* `RecoveryMenu.Autoboot.loads_safe`: the payload is only loaded if no button has been seen, and not
  before five seconds have passed.

## References

* `ios_mcp/source/options/LoadBoot1Payload.c`, lines 310-375.
-/

namespace RecoveryMenu

namespace Autoboot

open DumpSyslogs Interleaving Menu

/-- `autobootFile`. -/
def autobootFile : String := "/vol/storage_recovsd/boot1now.img"

/-- `timeoutSecs`. -/
def timeoutSecs : UInt32 := 5

/-- The calls of `handleBoot1Autoboot`. -/
inductive AutobootCall
  | getStat (filePath : String) (res : ℤ)
  /-- `loadBoot1Payload(index, filePath)`. -/
  | loadBoot1Payload (filePath : String)
  deriving DecidableEq, Repr

/-- The results of the calls before the loop, where `flags` are those of `stat`. -/
structure Call where
  getStat : ℤ
  flags : UInt32
  startTime : UInt64

/-- What a turn of the loop reads, the time in microseconds. -/
structure Sample where
  flag : UInt8
  curTime : UInt64

/-- The flag has the bit of a button. -/
def Button (flag : UInt8) : Prop :=
  flag &&& systemEventFlagEjectButton ≠ 0 ∨ flag &&& systemEventFlagPowerButton ≠ 0

instance : DecidablePred Button := fun _ => inferInstanceAs (Decidable (_ ∨ _))

/-- The variables of the loop, whether the call is still in it, and what was shown and called. -/
structure State where
  lastDraw : UInt32
  curFlag : UInt8
  running : Bool
  events : List (Event AutobootCall)

/-- `secondsPassed`. -/
def secondsPassed (startTime curTime : UInt64) : UInt32 :=
  ((curTime - startTime) / 1000 / 1000).toUInt32

/-- What the call does before the loop, whose `lastDraw` starts as `-1`. -/
def Call.start (c : Call) : State :=
  let running : Bool := ¬ c.getStat < 0 ∧ c.flags &&& dirEntryIsDirectory = 0
  { lastDraw := 0xFFFFFFFF
    curFlag := 0
    running := running
    events := .call (.getStat autobootFile c.getStat) ::
      if running then [.drawTopBar "Autobooting...", .print "Detected boot1now.img" []] else [] }

/-- The first half of a turn, which returns from the call for a button. -/
def readFlag (s : State) (flag : UInt8) : Option State :=
  if s.curFlag ≠ flag then
    if Button flag then none else some { s with curFlag := flag }
  else some s

/-- The second half of a turn. -/
def checkTime (startTime : UInt64) (s : State) (curTime : UInt64) : State :=
  let secondsPassed := secondsPassed startTime curTime
  if timeoutSecs < secondsPassed then
    { s with
      running := false
      events := s.events ++ [.call (.loadBoot1Payload autobootFile)] }
  else if s.lastDraw ≠ secondsPassed then
    { s with
      lastDraw := secondsPassed
      events := s.events ++
        [.print "Autobooting boot1now.img in %ld seconds...\nPress any button to cancel"
          [.int (timeoutSecs - secondsPassed).toNat]] }
  else s

/-- A turn of the loop. -/
def turn (startTime : UInt64) (s : State) (p : Sample) : State :=
  match readFlag s p.flag with
  | none => { s with running := false }
  | some s => checkTime startTime s p.curTime

/-- A call, which goes on while the loop runs. -/
def Call.system (c : Call) : System State Sample where
  init s := s = c.start
  next s p := if s.running then some (turn c.startTime s p) else none

/-- The payload has been loaded. -/
def State.Loads (s : State) : Prop := .call (.loadBoot1Payload autobootFile) ∈ s.events

instance : DecidablePred State.Loads := fun _ => inferInstanceAs (Decidable (_ ∈ _))

/-! ## Turns -/

/-- A turn behind a flag without a button returns for every flag with one. -/
lemma turn_eq {s : State} (hs : ¬ Button s.curFlag) (startTime : UInt64) (p : Sample) :
    turn startTime s p =
      if Button p.flag then { s with running := false }
      else checkTime startTime { s with curFlag := p.flag } p.curTime := by
  by_cases hne : s.curFlag ≠ p.flag
  · rw [turn, readFlag, if_pos hne]
    split_ifs <;> rfl
  · rw [not_ne_iff] at hne
    rw [turn, readFlag, if_neg (not_not.mpr hne), ← hne, if_neg hs]

/-- The second half of a turn does not change the flag. -/
@[simp] lemma checkTime_curFlag (startTime curTime : UInt64) (s : State) :
    (checkTime startTime s curTime).curFlag = s.curFlag := by
  unfold checkTime
  dsimp only
  split_ifs <;> rfl

/-- The second half of a turn ends the loop if the time is over. -/
lemma checkTime_running {startTime curTime : UInt64} (s : State)
    (h : timeoutSecs < secondsPassed startTime curTime) :
    (checkTime startTime s curTime).running = false := by
  unfold checkTime
  dsimp only
  rw [if_pos h]

/-- Before the time is over, the payload is not loaded. -/
lemma checkTime_loads {startTime curTime : UInt64} {s : State}
    (h : ¬ timeoutSecs < secondsPassed startTime curTime) :
    (checkTime startTime s curTime).Loads ↔ s.Loads := by
  unfold checkTime State.Loads
  dsimp only
  rw [if_neg h]
  split_ifs with hdraw
  · simp
  · rfl

/-- A call that is no longer in the loop reads nothing. -/
lemma run_of_not_running {c : Call} {s t : State} {samples : List Sample}
    (hs : s.running = false) (hrun : c.system.run s samples = some t) : samples = [] ∧ t = s := by
  cases samples with
  | nil => exact ⟨rfl, (System.run_nil_iff.mp hrun).symm⟩
  | cons p samples =>
    obtain ⟨u, hnext, -⟩ := System.run_cons_iff.mp hrun
    simp [Call.system, hs] at hnext

/-- **The runs of the loop.** Either the last sample has a button, and the call has returned without
the payload, or no sample has one, and if the payload is loaded then the last time is over.

**Proof sketch.** Induction on the samples. The flag that is kept never has a button, so that a
sample with one differs from it. -/
theorem run_cases (c : Call) {s t : State} {samples : List Sample} (hs : ¬ Button s.curFlag)
    (hnot : ¬ s.Loads) (hrun : c.system.run s samples = some t) :
    ((∃ p ∈ samples, Button p.flag) ∧ ¬ t.Loads ∧ t.running = false) ∨
    ((∀ p ∈ samples, ¬ Button p.flag) ∧ (t.Loads →
      ∃ p ∈ samples.getLast?, timeoutSecs < secondsPassed c.startTime p.curTime)) := by
  induction samples generalizing s with
  | nil =>
    obtain rfl := System.run_nil_iff.mp hrun
    exact .inr ⟨fun p hp => absurd hp List.not_mem_nil, fun hload => absurd hload hnot⟩
  | cons p samples ih =>
    obtain ⟨u, hnext, hrest⟩ := System.run_cons_iff.mp hrun
    simp only [Call.system, Option.ite_none_right_eq_some, Option.some.injEq] at hnext
    obtain rfl := hnext.2
    rw [turn_eq hs] at hrest
    by_cases hbutton : Button p.flag
    · rw [if_pos hbutton] at hrest
      obtain ⟨-, rfl⟩ := run_of_not_running rfl hrest
      exact .inl ⟨⟨p, List.mem_cons_self, hbutton⟩, hnot, rfl⟩
    rw [if_neg hbutton] at hrest
    by_cases hover : timeoutSecs < secondsPassed c.startTime p.curTime
    · obtain ⟨rfl, -⟩ := run_of_not_running (checkTime_running _ hover) hrest
      refine .inr ⟨fun q hq => ?_, fun _ => ⟨p, rfl, hover⟩⟩
      rwa [List.mem_singleton.mp hq]
    have hnot' : ¬ (checkTime c.startTime { s with curFlag := p.flag } p.curTime).Loads := by
      rw [checkTime_loads hover]
      exact hnot
    obtain ⟨⟨q, hq, hqbutton⟩, hend⟩ | ⟨hquiet, hload⟩ :=
      ih (by rwa [checkTime_curFlag]) hnot' hrest
    · exact .inl ⟨⟨q, List.mem_cons_of_mem p hq, hqbutton⟩, hend⟩
    · refine .inr ⟨List.forall_mem_cons.mpr ⟨hbutton, hquiet⟩, fun ht => ?_⟩
      obtain ⟨q, hq, hlast⟩ := hload ht
      refine ⟨q, ?_, hlast⟩
      rw [List.getLast?_cons, hq]
      rfl

/-- Behind the end of the time, five seconds have passed. -/
lemma le_of_secondsPassed {startTime curTime : UInt64} (hle : startTime ≤ curTime)
    (h : timeoutSecs < secondsPassed startTime curTime) :
    startTime.toNat + 5 * 1000000 ≤ curTime.toNat := by
  have hsub : (curTime - startTime).toNat = curTime.toNat - startTime.toNat :=
    UInt64.toNat_sub_of_le _ _ hle
  rw [UInt32.lt_iff_toNat_lt, secondsPassed, UInt64.toNat_toUInt32, UInt64.toNat_div,
    UInt64.toNat_div, hsub] at h
  have hthousand : (1000 : UInt64).toNat = 1000 := rfl
  have htimeout : timeoutSecs.toNat = 5 := rfl
  rw [UInt64.le_iff_toNat_le] at hle
  rw [hthousand, htimeout] at h
  omega

/-- **Booting can be cancelled.** If the times do not decrease, the payload is only loaded if no
sample that was read has a button and five seconds have passed since the start. Once a sample has a
button, the call has returned without the payload. -/
theorem loads_safe (c : Call) {samples : List Sample} {s : State}
    (hrun : c.system.run c.start samples = some s)
    (htimes : List.IsChain (· ≤ ·) (c.startTime :: samples.map Sample.curTime)) :
    (s.Loads → (∀ p ∈ samples, ¬ Button p.flag) ∧
      ∃ p ∈ samples.getLast?, c.startTime.toNat + 5 * 1000000 ≤ p.curTime.toNat) ∧
    ((∃ p ∈ samples, Button p.flag) → ¬ s.Loads ∧ s.running = false) := by
  have hstart : ¬ Button c.start.curFlag := by
    show ¬ Button 0
    decide
  have hnot : ¬ c.start.Loads := by
    unfold State.Loads Call.start
    dsimp only
    split_ifs <;> simp
  obtain ⟨⟨p, hp, hbutton⟩, hend⟩ | ⟨hquiet, hload⟩ := run_cases c hstart hnot hrun
  · exact ⟨fun hload => absurd hload hend.1, fun _ => hend⟩
  · refine ⟨fun ht => ⟨hquiet, ?_⟩, fun ⟨p, hp, hbutton⟩ => absurd hbutton (hquiet p hp)⟩
    obtain ⟨p, hp, hover⟩ := hload ht
    refine ⟨p, hp, le_of_secondsPassed ?_ hover⟩
    have hpairwise := List.isChain_iff_pairwise.mp htimes
    exact (List.pairwise_cons.mp hpairwise).1 _
      (List.mem_map.mpr ⟨p, List.mem_of_getLast? hp, rfl⟩)

/-- A call that finds the file at the time `0`. -/
def found : Call where
  getStat := 0
  flags := 0
  startTime := 0

/-- Six seconds in which only the timer changes the flag. -/
def sixSeconds : List Sample := [⟨0, 0⟩, ⟨0x08, 3000000⟩, ⟨0, 6000000⟩]

/-- Behind six seconds without a button, the payload is loaded. -/
theorem loads_safe_sixSeconds :
    ∃ s, found.system.run found.start sixSeconds = some s ∧ s.Loads ∧
      ∀ p ∈ sixSeconds, ¬ Button p.flag :=
  have hrun : ∃ s, found.system.run found.start sixSeconds = some s ∧ s.Loads :=
    ⟨_, rfl, by decide +kernel⟩
  hrun.imp fun _ hs => ⟨hs.1, hs.2, ((loads_safe found hs.1 (by decide)).1 hs.2).1⟩

end Autoboot

end RecoveryMenu

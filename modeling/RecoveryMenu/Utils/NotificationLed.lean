import RecoveryMenu.Foundations.TransitionSystem
import RecoveryMenu.Menu

set_option relaxedAutoImplicit false
set_option autoImplicit false

/-!
# The notification LED (`ios_mcp/source/utils.c`)

`setNotificationLED(mask, duration)` changes the LED of the console, either for good
(`duration = 0`) or for `duration` milliseconds, after which `ledTimer` sends a message to
`asyncThread`, which writes `currentLedMask` to the SMC again. The calling thread and
`asyncThread` share `currentLedMask`, the timer and the LED.

The model is the transition system `ledSystem`: a call is entered by `Label.call` and advances
by `Label.caller`, one access to the shared state at a time; `Label.async` advances
`asyncThread` in the same way; `Label.timerExpires` is the timer sending its message. SMC
writes succeed, a stopped timer does not fire and an expired timer queues one message.

## Main definitions

* `RecoveryMenu.NotificationLed.ledSystem`: the two threads and the timer.
* `RecoveryMenu.NotificationLed.LedShown`: what the LED shows in a state between calls.
* `RecoveryMenu.NotificationLed.RestoreKept`: the steps that do not lose a pending restore.

## Main results

* `RecoveryMenu.NotificationLed.move_of_next`: what a step can do.
* `RecoveryMenu.NotificationLed.ledShown_of_restoreKept`: in every run of such steps
  `LedShown` holds between calls, and after any other step it can fail.
* `RecoveryMenu.NotificationLed.not_ledShown`: it fails in some run, since a call for the
  stored mask cancels the timer before it returns early.
* `RecoveryMenu.NotificationLed.ledShown_of_atomic`: where calls and message handling do not
  overlap, only that early return can break it.

## References

* `ios_mcp/source/utils.c`, lines 9-42 and 185-203.
-/

namespace RecoveryMenu

namespace NotificationLed

open Interleaving
open Menu (notifLedPurple)

/-! ## The model -/

/-- The messages sent to `asyncMessageQueue`. -/
inductive AsyncMessage
  | stopThread
  | setLed
  deriving DecidableEq, Repr

/-- Where the thread calling `setNotificationLED` stands. -/
inductive CallerPc
  /-- Between calls; `last` are the arguments of the last call that returned. -/
  | between (last : Option (UInt8 × UInt32))
  /-- At `IOS_StopTimer(ledTimer)`. -/
  | stopTimer (mask : UInt8) (duration : UInt32)
  /-- At `if (currentLedMask == mask) return`. -/
  | compare (mask : UInt8) (duration : UInt32)
  /-- At `SMC_SetNotificationLED(mask)`. -/
  | writeLed (mask : UInt8) (duration : UInt32)
  /-- At `if (duration)`: restart the timer or store the mask. -/
  | finish (mask : UInt8) (duration : UInt32)
  deriving DecidableEq, Repr

/-- Where `asyncThread` stands. -/
inductive AsyncPc
  /-- At `IOS_ReceiveMessage`. -/
  | receive
  /-- At `switch (message)`. -/
  | dispatch (message : AsyncMessage)
  /-- Inside `SMC_SetNotificationLED(mask)`, its argument evaluated. -/
  | writeLed (mask : UInt8)
  /-- The thread has returned. -/
  | stopped
  deriving DecidableEq, Repr

/-- The state shared by the two threads, and where they stand. -/
structure State where
  /-- The mask last written to the SMC. -/
  smcLedMask : UInt8
  currentLedMask : UInt8
  /-- The delay in microseconds `ledTimer` was last started with, while it is armed. -/
  ledTimer : Option UInt32
  asyncMessageQueue : List AsyncMessage
  caller : CallerPc
  asyncThread : AsyncPc
  deriving DecidableEq, Repr

/-- The steps of the system. -/
inductive Label
  /-- `setNotificationLED(mask, duration)` is called. -/
  | call (mask : UInt8) (duration : UInt32)
  /-- The call in progress advances. -/
  | caller
  /-- `ledTimer` expires. -/
  | timerExpires
  /-- `asyncThread` advances. -/
  | async
  /-- `IOS_ReceiveMessage` fails and `asyncThread` returns. -/
  | receiveFails
  deriving DecidableEq, Repr

/-- One step of `setNotificationLED`. The delay is computed in 32 bits. -/
def setNotificationLED (s : State) : Option State :=
  match s.caller with
  | .between _ => none
  | .stopTimer mask duration =>
    some { s with ledTimer := none, caller := .compare mask duration }
  | .compare mask duration =>
    if s.currentLedMask = mask then some { s with caller := .between (some (mask, duration)) }
    else some { s with caller := .writeLed mask duration }
  | .writeLed mask duration =>
    some { s with smcLedMask := mask, caller := .finish mask duration }
  | .finish mask duration =>
    if duration ≠ 0 then
      some { s with ledTimer := some (duration * 1000),
                    caller := .between (some (mask, duration)) }
    else some { s with currentLedMask := mask, caller := .between (some (mask, duration)) }

/-- One step of `asyncThread`. -/
def asyncThread (s : State) : Option State :=
  match s.asyncThread with
  | .receive =>
    match s.asyncMessageQueue with
    | [] => none
    | message :: rest =>
      some { s with asyncMessageQueue := rest, asyncThread := .dispatch message }
  | .dispatch .stopThread => some { s with asyncThread := .stopped }
  | .dispatch .setLed => some { s with asyncThread := .writeLed s.currentLedMask }
  | .writeLed mask => some { s with smcLedMask := mask, asyncThread := .receive }
  | .stopped => none

/-- The state after a label, where it is enabled. The timer is one-shot: it is always started
with period `0`. -/
def next (s : State) : Label → Option State
  | .call mask duration =>
    match s.caller with
    | .between _ => some { s with caller := .stopTimer mask duration }
    | _ => none
  | .caller => setNotificationLED s
  | .timerExpires =>
    if s.ledTimer.isSome then
      some { s with ledTimer := none, asyncMessageQueue := s.asyncMessageQueue ++ [.setLed] }
    else none
  | .async => asyncThread s
  | .receiveFails =>
    if s.asyncThread = .receive then some { s with asyncThread := .stopped } else none

/-- The calling thread, `asyncThread` and `ledTimer`, from any state in which the LED shows
`currentLedMask` and both threads are between their actions. -/
def ledSystem : System State Label where
  init s := s.smcLedMask = s.currentLedMask ∧ s.caller = .between none ∧
    s.asyncThread = .receive
  next := next

/-- What a step of the system can do, with the steps of a call listed one by one. -/
inductive Move (s : State) : Label → State → Prop
  | call {mask : UInt8} {duration : UInt32} {last : Option (UInt8 × UInt32)}
    (hc : s.caller = .between last) :
    Move s (.call mask duration) { s with caller := .stopTimer mask duration }
  | stopTimer {mask : UInt8} {duration : UInt32} (hc : s.caller = .stopTimer mask duration) :
    Move s .caller { s with ledTimer := none, caller := .compare mask duration }
  /-- The early return. -/
  | same {mask : UInt8} {duration : UInt32} (hc : s.caller = .compare mask duration)
    (hmask : s.currentLedMask = mask) :
    Move s .caller { s with caller := .between (some (mask, duration)) }
  | differs {mask : UInt8} {duration : UInt32} (hc : s.caller = .compare mask duration)
    (hmask : s.currentLedMask ≠ mask) :
    Move s .caller { s with caller := .writeLed mask duration }
  | writeLed {mask : UInt8} {duration : UInt32} (hc : s.caller = .writeLed mask duration) :
    Move s .caller { s with smcLedMask := mask, caller := .finish mask duration }
  | restartTimer {mask : UInt8} {duration : UInt32} (hc : s.caller = .finish mask duration)
    (hd : duration ≠ 0) :
    Move s .caller { s with
      ledTimer := some (duration * 1000), caller := .between (some (mask, duration)) }
  | store {mask : UInt8} {duration : UInt32} (hc : s.caller = .finish mask duration)
    (hd : duration = 0) :
    Move s .caller { s with
      currentLedMask := mask, caller := .between (some (mask, duration)) }
  | timerExpires (harmed : s.ledTimer.isSome) :
    Move s .timerExpires { s with
      ledTimer := none, asyncMessageQueue := s.asyncMessageQueue ++ [.setLed] }
  | async {t : State} (hasync : asyncThread s = some t) : Move s .async t
  | receiveFails (hpc : s.asyncThread = .receive) :
    Move s .receiveFails { s with asyncThread := .stopped }

/-- Every step of the system is a `Move`. -/
lemma move_of_next {s t : State} {a : Label} (h : next s a = some t) : Move s a t := by
  cases a with
  | call mask duration =>
    simp only [next] at h
    split at h
    · next hc =>
      obtain rfl := Option.some.inj h
      exact .call hc
    · cases h
  | caller =>
    simp only [next, setNotificationLED] at h
    split at h
    · cases h
    · next hc =>
      obtain rfl := Option.some.inj h
      exact .stopTimer hc
    · next hc =>
      split_ifs at h with hmask <;> obtain rfl := Option.some.inj h
      · exact .same hc hmask
      · exact .differs hc hmask
    · next hc =>
      obtain rfl := Option.some.inj h
      exact .writeLed hc
    · next hc =>
      split_ifs at h with hd <;> obtain rfl := Option.some.inj h
      · exact .restartTimer hc hd
      · exact .store hc (not_not.mp hd)
  | timerExpires =>
    obtain ⟨harmed, ht⟩ := Option.ite_none_right_eq_some.mp h
    obtain rfl := Option.some.inj ht
    exact .timerExpires harmed
  | async => exact .async h
  | receiveFails =>
    obtain ⟨hpc, ht⟩ := Option.ite_none_right_eq_some.mp h
    obtain rfl := Option.some.inj ht
    exact .receiveFails hpc

/-! ## What the LED shows -/

/-- A `SET_LED` message is queued, or received and not yet acted on. -/
def State.RestoreQueued (s : State) : Prop :=
  .setLed ∈ s.asyncMessageQueue ∨ s.asyncThread = .dispatch .setLed

/-- A `SET_LED` message is queued or being handled. -/
def State.RestorePending (s : State) : Prop :=
  s.RestoreQueued ∨ ∃ mask, s.asyncThread = .writeLed mask

/-- The mask the LED shows once an SMC write that `asyncThread` has begun is done. -/
def State.shownMask (s : State) : UInt8 :=
  match s.asyncThread with
  | .writeLed mask => mask
  | _ => s.smcLedMask

/-- Between calls the LED shows the stored mask, unless the timer or a message will still
restore it; after a permanent change with nothing pending it shows the new mask. -/
structure LedShown (s : State) : Prop where
  shown : s.smcLedMask = s.currentLedMask ∨ s.ledTimer.isSome ∨ s.RestorePending
  permanent : ∀ mask, s.caller = .between (some (mask, 0)) → s.ledTimer = none →
    ¬ s.RestorePending → s.smcLedMask = mask

/-- A temporary mask is showing that only the armed timer would take back. -/
def State.FlashOnTimer (s : State) : Prop :=
  s.ledTimer.isSome ∧ s.shownMask ≠ s.currentLedMask ∧ ¬ s.RestoreQueued

/-- `asyncThread` has written another mask over `mask`, or is about to, and no message is
queued that would write again. -/
def State.Overwritten (s : State) (mask : UInt8) : Prop :=
  s.shownMask ≠ mask ∧ ¬ s.RestoreQueued

/-- A call for the stored mask does not stop the timer of a flash. -/
def FlashKept (s : State) : Label → Prop
  | .caller =>
    match s.caller with
    | .stopTimer mask _ => mask = s.currentLedMask → ¬ s.FlashOnTimer
    | _ => True
  | _ => True

/-- A permanent change is stored before a restore of the older mask falls between its SMC
write and the store. -/
def StoreKept (s : State) : Label → Prop
  | .caller =>
    match s.caller with
    | .finish mask duration => duration = 0 → ¬ s.Overwritten mask
    | _ => True
  | _ => True

/-- The steps that lose no restore. -/
def RestoreKept (s : State) (a : Label) : Prop := FlashKept s a ∧ StoreKept s a

/-! ## Runs that lose no restore -/

/-- The stored mask is showing, or a queued message will show it. -/
def State.Restored (s : State) : Prop :=
  s.shownMask = s.currentLedMask ∨ s.RestoreQueued

/-- What holds at each point of the calling thread in a run that loses no restore. -/
def Inv (s : State) : Prop :=
  match s.caller with
  | .between last =>
    (s.Restored ∨ s.ledTimer.isSome) ∧ ∀ mask, last = some (mask, 0) → s.currentLedMask = mask
  | .stopTimer _ _ => s.Restored ∨ s.ledTimer.isSome
  | .compare mask _ => mask = s.currentLedMask → s.Restored
  | _ => True

/-- A step of `asyncThread` touches neither the caller's state nor the timer, and does not
undo a restore.

**Proof sketch.** Receiving `SET_LED` keeps it in `RestoreQueued`; acting on it loads
`currentLedMask`, which becomes the mask about to show; writing it makes it the shown mask. -/
lemma asyncThread_spec {s t : State} (h : asyncThread s = some t) :
    t.caller = s.caller ∧ t.currentLedMask = s.currentLedMask ∧ t.ledTimer = s.ledTimer ∧
      (s.Restored → t.Restored) := by
  obtain ⟨smc, cur, timer, queue, caller, pc⟩ := s
  cases pc with
  | receive =>
    cases queue with
    | nil => simp [asyncThread] at h
    | cons message rest =>
      simp only [asyncThread, Option.some.injEq] at h
      subst h
      refine ⟨rfl, rfl, rfl, ?_⟩
      cases message <;> simp [State.Restored, State.shownMask, State.RestoreQueued]
  | dispatch message =>
    cases message with
    | stopThread =>
      simp only [asyncThread, Option.some.injEq] at h
      subst h
      exact ⟨rfl, rfl, rfl, by simp [State.Restored, State.shownMask, State.RestoreQueued]⟩
    | setLed =>
      simp only [asyncThread, Option.some.injEq] at h
      subst h
      exact ⟨rfl, rfl, rfl, fun _ => .inl rfl⟩
  | writeLed mask =>
    simp only [asyncThread, Option.some.injEq] at h
    subst h
    exact ⟨rfl, rfl, rfl, by simp [State.Restored, State.shownMask, State.RestoreQueued]⟩
  | stopped => simp [asyncThread] at h

/-- `Inv` depends on the caller's position, the stored mask, and what is still restored. -/
lemma Inv.of_environment {s t : State} (hs : Inv s) (hcaller : t.caller = s.caller)
    (hcur : t.currentLedMask = s.currentLedMask) (hrestored : s.Restored → t.Restored)
    (htimer : s.ledTimer.isSome → t.Restored ∨ t.ledTimer.isSome) : Inv t := by
  have hcover : s.Restored ∨ s.ledTimer.isSome → t.Restored ∨ t.ledTimer.isSome := by
    rintro (h | h)
    · exact .inl (hrestored h)
    · exact htimer h
  unfold Inv at hs ⊢
  rw [hcaller]
  cases hc : s.caller with
  | between last =>
    simp only [hc] at hs ⊢
    exact ⟨hcover hs.1, fun mask h => hcur.trans (hs.2 mask h)⟩
  | stopTimer mask duration =>
    simp only [hc] at hs ⊢
    exact hcover hs
  | compare mask duration =>
    simp only [hc] at hs ⊢
    exact fun h => hrestored (hs (h.trans hcur))
  | writeLed mask duration => trivial
  | finish mask duration => trivial

/-- Every step that loses no restore preserves `Inv`.

**Proof sketch.** Stopping the timer leaves `Restored` for a call of the stored mask, by the
guard; the early return then needs no timer. Restarting the timer covers any shown mask, and
storing the mask is covered by the guard. -/
lemma Inv.next {s t : State} {a : Label} (hs : Inv s) (hkept : RestoreKept s a)
    (h : next s a = some t) : Inv t := by
  obtain ⟨hflash, hstore⟩ := hkept
  cases move_of_next h with
  | call hc =>
    simp only [Inv, hc] at hs
    exact hs.1
  | stopTimer hc =>
    simp only [Inv, hc] at hs
    intro hmask
    simp only [FlashKept, hc] at hflash
    have hflash := hflash hmask
    simp only [State.FlashOnTimer, not_and, not_not] at hflash
    by_cases hshown : s.shownMask = s.currentLedMask
    · exact .inl hshown
    · rcases hs with hs | hs
      · exact hs
      · exact .inr (hflash hs hshown)
  | same hc hmask =>
    simp only [Inv, hc] at hs
    refine ⟨.inl (hs hmask.symm), fun m hm => ?_⟩
    simp only [Option.some.injEq, Prod.mk.injEq] at hm
    exact hmask.trans hm.1
  | differs | writeLed => trivial
  | restartTimer hc hd =>
    refine ⟨.inr rfl, fun m hm => ?_⟩
    simp only [Option.some.injEq, Prod.mk.injEq] at hm
    exact absurd hm.2 hd
  | @store mask duration hc hd =>
    simp only [StoreKept, hc] at hstore
    have hover := hstore hd
    simp only [State.Overwritten, not_and, not_not] at hover
    refine ⟨.inl ?_, fun m hm => ?_⟩
    · by_cases hshown : s.shownMask = mask
      · exact .inl hshown
      · exact .inr (hover hshown)
    · simp only [Option.some.injEq, Prod.mk.injEq] at hm
      exact hm.1
  | timerExpires =>
    refine hs.of_environment rfl rfl ?_ fun _ => .inl (.inr (.inl (by simp)))
    rintro (h | h | h)
    · exact .inl h
    · exact .inr (.inl (by simp [h]))
    · exact .inr (.inr h)
  | async hasync =>
    obtain ⟨hcaller, hcur, htimer, hrestored⟩ := asyncThread_spec hasync
    exact hs.of_environment hcaller hcur hrestored fun ht => .inr (htimer ▸ ht)
  | receiveFails hpc =>
    refine hs.of_environment rfl rfl ?_ .inr
    simp [State.Restored, State.shownMask, State.RestoreQueued, hpc]

/-- Between calls, `Inv` gives the property of the LED. -/
lemma Inv.ledShown {s : State} (hs : Inv s) {last : Option (UInt8 × UInt32)}
    (hc : s.caller = .between last) : LedShown s := by
  simp only [Inv, hc] at hs
  obtain ⟨hcover, hlast⟩ := hs
  have hshown : s.smcLedMask = s.currentLedMask ∨ s.ledTimer.isSome ∨ s.RestorePending := by
    rcases hcover with (h | h) | h
    · cases hpc : s.asyncThread with
      | writeLed mask => exact .inr (.inr (.inr ⟨mask, hpc⟩))
      | _ => exact .inl (by simpa [State.shownMask, hpc] using h)
    · exact .inr (.inr (.inl h))
    · exact .inr (.inl h)
  refine ⟨hshown, fun mask hm htimer hpending => ?_⟩
  have hcur : s.currentLedMask = mask := hlast mask (by simpa [hc] using hm)
  rcases hshown with h | h | h
  · exact h.trans hcur
  · simp [htimer] at h
  · exact absurd h hpending

/-- The initial states satisfy `Inv`. -/
lemma inv_init {s : State} (h : ledSystem.init s) : Inv s := by
  obtain ⟨hmask, hcaller, hasync⟩ := h
  simp only [Inv, hcaller]
  exact ⟨.inl (.inl (by simp [State.shownMask, hasync, hmask])), by simp⟩

/-- The invariant holds in all runs whose steps lose no restore. -/
lemma Inv.of_reachable {s : State} (h : ledSystem.ReachableVia RestoreKept s) : Inv s :=
  h.invariant (fun _ => inv_init) fun _ _ _ => Inv.next

/-! ## Losing a restore -/

/-- In a call that has stopped the timer and not returned. -/
def CallerPc.TimerStopped : CallerPc → Prop
  | .between _ | .stopTimer _ _ => False
  | _ => True

/-- A call that has stopped the timer finds it stopped until it returns. -/
lemma ledTimer_eq_none {G : State → Label → Prop} {s : State} (h : ledSystem.ReachableVia G s)
    (hc : s.caller.TimerStopped) : s.ledTimer = none := by
  refine h.invariant (I := fun s => s.caller.TimerStopped → s.ledTimer = none) ?_ ?_ hc
  · rintro s ⟨-, hcaller, -⟩ hc
    rw [hcaller] at hc
    exact hc.elim
  · intro s a t hs _ hnext hc
    cases move_of_next hnext with
    | call | same | restartTimer | store => exact hc.elim
    | stopTimer | timerExpires => rfl
    | differs hpc | writeLed hpc => exact hs (by rw [hpc]; trivial)
    | async hasync =>
      obtain ⟨hcaller, -, htimer, -⟩ := asyncThread_spec hasync
      rw [hcaller] at hc
      exact htimer.trans (hs hc)
    | receiveFails => exact hs hc

/-- Another mask is showing than the one stored, or about to, and nothing will restore it. -/
def State.Lost (s : State) : Prop :=
  s.ledTimer = none ∧ s.shownMask ≠ s.currentLedMask ∧ ¬ s.RestoreQueued

/-- Between calls a lost restore shows as soon as an SMC write that `asyncThread` has begun is
done. -/
lemma State.Lost.canReach {s : State} (hs : s.Lost) {last : Option (UInt8 × UInt32)}
    (hc : s.caller = .between last) :
    ∃ u last, ledSystem.CanReach s u ∧ u.caller = .between last ∧ ¬ LedShown u := by
  obtain ⟨htimer, hshown, hqueued⟩ := hs
  cases hpc : s.asyncThread with
  | writeLed mask =>
    have hnext : next s .async = some { s with smcLedMask := mask, asyncThread := .receive } := by
      simp [next, NotificationLed.asyncThread, hpc]
    refine ⟨_, last, .head (a := .async) hnext (.refl _), hc, fun hled => ?_⟩
    rcases hled.shown with heq | harmed | (hset | hdispatch) | ⟨mask', hwrite⟩
    · exact hshown (by simpa [State.shownMask, hpc] using heq)
    · simp [htimer] at harmed
    · exact hqueued (.inl hset)
    · cases hdispatch
    · cases hwrite
  | _ =>
    refine ⟨s, last, .refl s, hc, fun hled => ?_⟩
    rcases hled.shown with heq | harmed | hset | ⟨mask', hwrite⟩
    · exact hshown (by simpa [State.shownMask, hpc] using heq)
    · simp [htimer] at harmed
    · exact hqueued hset
    · simp [hpc] at hwrite

/-- A call for the stored mask that stops the timer of a flash returns with the restore lost. -/
lemma canReach_of_not_flashKept {s t : State} {a : Label} (hflash : ¬ FlashKept s a)
    (h : next s a = some t) :
    ∃ u last, ledSystem.CanReach t u ∧ u.caller = .between last ∧ ¬ LedShown u := by
  unfold FlashKept at hflash
  split at hflash
  · split at hflash
    · next mask duration hpc =>
      simp only [not_forall, not_not] at hflash
      obtain ⟨rfl, -, hshown, hqueued⟩ := hflash
      simp only [next, setNotificationLED, hpc, Option.some.injEq] at h
      subst h
      have hlost : State.Lost { s with
          ledTimer := none, caller := .between (some (s.currentLedMask, duration)) } :=
        ⟨rfl, hshown, hqueued⟩
      obtain ⟨u, last, hu, hled⟩ := hlost.canReach rfl
      exact ⟨u, last, .head (a := .caller) (by simp [ledSystem, next, setNotificationLED]) hu, hled⟩
    · exact absurd trivial hflash
  · exact absurd trivial hflash

/-- A permanent change that is stored after the LED was overwritten returns with the new mask
lost. -/
lemma canReach_of_not_storeKept {G : State → Label → Prop} {s t : State} {a : Label}
    (hs : ledSystem.ReachableVia G s) (hstore : ¬ StoreKept s a) (h : next s a = some t) :
    ∃ u last, ledSystem.CanReach t u ∧ u.caller = .between last ∧ ¬ LedShown u := by
  unfold StoreKept at hstore
  split at hstore
  · split at hstore
    · next mask duration hpc =>
      simp only [not_forall, not_not] at hstore
      obtain ⟨rfl, hshown, hqueued⟩ := hstore
      have htimer := ledTimer_eq_none hs (by rw [hpc]; trivial)
      simp only [next, setNotificationLED, hpc, ne_eq, not_true_eq_false, if_false,
        Option.some.injEq] at h
      subst h
      exact State.Lost.canReach ⟨htimer, hshown, hqueued⟩ rfl
    · exact absurd trivial hstore
  · exact absurd trivial hstore

/-- **The LED invariant.** In every run whose steps lose no restore, every state between calls
has `LedShown`. After the first other step, the run can go on to a state between calls without
it.

**Proof sketch.** `Inv` holds initially (`inv_init`), every such step preserves it
(`Inv.next`), and between calls it implies `LedShown` (`Inv.ledShown`). Any other step leads to a
state between calls in which the restore is lost (`State.Lost.canReach`). -/
theorem ledShown_of_restoreKept {s : State} (h : ledSystem.ReachableVia RestoreKept s) :
    (∀ last, s.caller = .between last → LedShown s) ∧
      ∀ a t, ¬ RestoreKept s a → next s a = some t →
        ∃ u last, ledSystem.CanReach t u ∧ u.caller = .between last ∧ ¬ LedShown u := by
  refine ⟨fun last hc => (Inv.of_reachable h).ledShown hc, fun a t hkept hnext => ?_⟩
  by_cases hflash : FlashKept s a
  · exact canReach_of_not_storeKept h (fun hstore => hkept ⟨hflash, hstore⟩) hnext
  · exact canReach_of_not_flashKept hflash hnext

/-- The LED shows purple, nothing is pending. -/
def purpleIdle : State := ⟨notifLedPurple, notifLedPurple, none, [], .between none, .receive⟩

/-- A flash of 250 ms from `purpleIdle` that ends with the restore of purple. -/
def restoredFlash : List Label :=
  [.call 0 250, .caller, .caller, .caller, .caller, .timerExpires, .async, .async, .async]

/-- `restoredFlash` loses no restore, and the LED shows purple again after it. -/
theorem ledShown_restoredFlash :
    ledSystem.run purpleIdle restoredFlash = some
        ⟨notifLedPurple, notifLedPurple, none, [], .between (some (0, 250)), .receive⟩ ∧
      LedShown ⟨notifLedPurple, notifLedPurple, none, [], .between (some (0, 250)), .receive⟩ := by
  have hrun : ledSystem.run purpleIdle restoredFlash = some
      ⟨notifLedPurple, notifLedPurple, none, [], .between (some (0, 250)), .receive⟩ := by decide
  refine ⟨hrun, (ledShown_of_restoreKept (.run (.init ⟨rfl, rfl, rfl⟩) _ hrun ?_)).1 _ rfl⟩
  simp [restoredFlash, System.Meets, RestoreKept, FlashKept, StoreKept, ledSystem, next,
    setNotificationLED, purpleIdle, notifLedPurple]

/-! ## Calls and message handling that do not overlap -/

/-- `asyncThread` advances only between calls, and calls only while it waits or has stopped. -/
def Atomic (s : State) : Label → Prop
  | .call _ _ | .caller => s.asyncThread = .receive ∨ s.asyncThread = .stopped
  | .async | .receiveFails => ∃ last, s.caller = .between last
  | .timerExpires => True

/-- During a call `asyncThread` is not acting, and after its SMC write the LED shows the mask
of the call. -/
def AtomicInv (s : State) : Prop :=
  (∃ last, s.caller = .between last) ∨
    (s.asyncThread = .receive ∨ s.asyncThread = .stopped) ∧
      ∀ mask duration, s.caller = .finish mask duration → s.smcLedMask = mask

/-- Steps that do not overlap preserve `AtomicInv`. -/
lemma AtomicInv.next {s t : State} {a : Label} (hs : AtomicInv s) (hatomic : Atomic s a)
    (h : next s a = some t) : AtomicInv t := by
  cases move_of_next h with
  | call | stopTimer | differs | writeLed => exact .inr ⟨hatomic, by simp⟩
  | same | restartTimer | store => exact .inl ⟨_, rfl⟩
  | timerExpires => exact hs
  | async hasync =>
    obtain ⟨last, hc⟩ := hatomic
    obtain ⟨hcaller, -⟩ := asyncThread_spec hasync
    exact .inl ⟨last, hcaller.trans hc⟩
  | receiveFails =>
    obtain ⟨last, hc⟩ := hatomic
    exact .inl ⟨last, hc⟩

/-- **The LED invariant for atomic calls.** Where no call overlaps the handling of a message,
`LedShown` holds between calls as soon as no call for the stored mask stops the timer of a
flash.

**Proof sketch.** By `AtomicInv` the LED shows the mask of the call when it is stored, so such
steps meet `StoreKept`, and `Inv` holds. -/
theorem ledShown_of_atomic {s : State} {last : Option (UInt8 × UInt32)}
    (h : ledSystem.ReachableVia (fun s a => Atomic s a ∧ FlashKept s a) s)
    (hc : s.caller = .between last) : LedShown s := by
  refine (Inv.of_reachable (h.mono_of_invariant (I := AtomicInv) ?_ ?_ ?_)).ledShown hc
  · exact fun s hs => .inl ⟨none, hs.2.1⟩
  · exact fun s a t hs hg hn => hs.next hg.1 hn
  · rintro s a hs ⟨hatomic, hflash⟩
    refine ⟨hflash, ?_⟩
    unfold StoreKept
    split
    · split
      · next mask duration hfinish =>
        rintro - hover
        rcases hs with ⟨last, hlast⟩ | ⟨-, hsmc⟩
        · simp [hfinish] at hlast
        · have hshown : s.shownMask = s.smcLedMask := by
            rcases hatomic with hpc | hpc <;> simp [State.shownMask, hpc]
          exact hover.1 (hshown.trans (hsmc mask duration hfinish))
      · trivial
    · trivial

/-! ## The lost restore -/

/-- A flash of 250 ms and, before it ends, a call for the stored purple. -/
def lostRestore : List Label :=
  [.call 0 250, .caller, .caller, .caller, .caller, .call notifLedPurple 0, .caller, .caller]

/-- The LED stays off after `lostRestore`: the second call stopped the timer and returned. -/
theorem not_ledShown :
    ¬ ∀ s last, ledSystem.Reachable s → s.caller = .between last → LedShown s := by
  intro h
  have hrun : ledSystem.run purpleIdle lostRestore =
      some ⟨0, notifLedPurple, none, [], .between (some (notifLedPurple, 0)), .receive⟩ := by decide
  have hreach := System.Reachable.of_run (S := ledSystem) ⟨rfl, rfl, rfl⟩ _ hrun
  have hshown := (h _ _ hreach rfl).permanent notifLedPurple rfl rfl (by
    simp [State.RestorePending, State.RestoreQueued])
  exact absurd hshown (by decide)

end NotificationLed

end RecoveryMenu

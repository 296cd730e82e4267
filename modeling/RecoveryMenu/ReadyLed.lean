import RecoveryMenu.Options.DumpOtpAndSeeprom
import RecoveryMenu.Options.DumpSyslogs
import RecoveryMenu.Options.InstallWUP
import RecoveryMenu.Options.PairDRC
import RecoveryMenu.Utils.NotificationLed

set_option relaxedAutoImplicit false
set_option autoImplicit false

/-!
# The LED of the main menu (`ios_mcp/source/menu.c`)

While the main menu is shown, the LED is to be purple: the menu is ready. An option that takes
longer sets another colour first, and relies on each of its ends to set purple again. Most ends
are errors, and `print_error` sets purple; a success does it in the option; but when the user
cancels the installation of a title, the option returns without.

What an option does to `currentLedMask` is read off the calls of `setNotificationLED` in its run.
That the calls made one after the other leave this mask holds in every interleaving with
`asyncThread` and the timer.

## Main definitions

* `RecoveryMenu.ReadyLed.Request`: a call of `setNotificationLED`; `RecoveryMenu.ReadyLed.Asks`:
  the calls made in a run.
* `RecoveryMenu.ReadyLed.ledAfter`: `currentLedMask` after a run.
* `RecoveryMenu.ReadyLed.OptionRun`: a run of an option of the main menu.
* `RecoveryMenu.ReadyLed.menuThread`: `currentLedMask` whenever the main menu is shown;
  `RecoveryMenu.ReadyLed.Ready`: it is always purple.

## Main results

* `RecoveryMenu.ReadyLed.currentLedMask_of_run`: the mask after calls to `setNotificationLED`, in
  any interleaving; `RecoveryMenu.ReadyLed.currentLedMask_of_asks`: the same for a run.
* `RecoveryMenu.ReadyLed.ready_iff`: the runs of the main menu in which the LED always is purple.

## References

* `ios_mcp/source/menu.c`: `drawMenu`, `waitButtonInput`, `print_error`, `menuThread`.
* `README.md`, lines 11-14.
-/

namespace RecoveryMenu

namespace ReadyLed

open Menu Interleaving NotificationLed

/-! ## Calls to `setNotificationLED` -/

/-- A call `setNotificationLED(mask, duration)`. -/
structure Request where
  mask : UInt8
  duration : UInt32
  deriving DecidableEq, Repr

/-- `currentLedMask` after the call. -/
def Request.apply (current : UInt8) (r : Request) : UInt8 :=
  if current = r.mask then current else if r.duration ≠ 0 then current else r.mask

/-- A temporary change does not store the mask. -/
@[simp] lemma Request.apply_of_ne_zero (current mask : UInt8) {duration : UInt32}
    (h : duration ≠ 0) : Request.apply current ⟨mask, duration⟩ = current := by
  unfold Request.apply
  rw [if_pos h, ite_self]

/-- A permanent change stores the mask. -/
@[simp] lemma Request.apply_zero (current mask : UInt8) :
    Request.apply current ⟨mask, 0⟩ = mask := by
  unfold Request.apply
  split_ifs with heq hzero
  · exact heq
  · exact absurd rfl hzero
  · rfl

/-- `currentLedMask` once the call in progress has returned. -/
def settledMask (s : State) : UInt8 :=
  match s.caller with
  | .between _ => s.currentLedMask
  | .stopTimer mask duration => Request.apply s.currentLedMask ⟨mask, duration⟩
  | .compare mask duration => Request.apply s.currentLedMask ⟨mask, duration⟩
  | .writeLed mask duration => Request.apply s.currentLedMask ⟨mask, duration⟩
  | .finish mask duration => Request.apply s.currentLedMask ⟨mask, duration⟩

/-- The call a step enters. -/
def callOf : Label → List Request
  | .call mask duration => [⟨mask, duration⟩]
  | _ => []

/-- A step changes the settled mask only by entering a call.

**Proof sketch.** Case split over the steps: the call in progress leaves the mask at its last
step, as `Request.apply` says, and the other actors leave the mask and the call. -/
lemma settledMask_of_next {s t : State} {a : Label} (h : ledSystem.next s a = some t) :
    settledMask t = (callOf a).foldl Request.apply (settledMask s) := by
  cases move_of_next h with
  | call hc => simp [settledMask, callOf, hc]
  | stopTimer hc => simp [settledMask, callOf, hc]
  | same hc hmask => simp [settledMask, callOf, hc, Request.apply, hmask]
  | differs hc hmask => simp [settledMask, callOf, hc]
  | writeLed hc => simp [settledMask, callOf, hc]
  | restartTimer hc hd => simp [settledMask, callOf, hc, hd]
  | store hc hd => simp [settledMask, callOf, hc, hd]
  | timerExpires harmed => rfl
  | async hasync =>
    obtain ⟨hcaller, hmask, -⟩ := asyncThread_spec hasync
    simp only [settledMask, hmask, hcaller, callOf, List.foldl_nil]
  | receiveFails hpc => rfl

/-- **The mask after calls.** However the calls interleave with `asyncThread` and the timer,
between calls `currentLedMask` is what they make of it one after the other.

**Proof sketch.** Induction on the schedule, for the settled mask. -/
theorem currentLedMask_of_run {s t : State} {schedule : List Label}
    (h : ledSystem.run s schedule = some t) {last last' : Option (UInt8 × UInt32)}
    (hs : s.caller = .between last) (ht : t.caller = .between last') :
    t.currentLedMask = (schedule.flatMap callOf).foldl Request.apply s.currentLedMask := by
  have hsettled : settledMask t =
      (schedule.flatMap callOf).foldl Request.apply (settledMask s) := by
    clear hs ht
    induction schedule generalizing s with
    | nil =>
      rw [← System.run_nil_iff.mp h]
      rfl
    | cons a schedule ih =>
      obtain ⟨u, hu, hrun⟩ := System.run_cons_iff.mp h
      rw [List.flatMap_cons, List.foldl_append, ← settledMask_of_next hu]
      exact ih hrun
  simpa [settledMask, hs, ht] using hsettled

/-! ## The calls of a run -/

/-- `NOTIF_LED_OFF`. -/
def notifLedOff : UInt8 := 0

/-- `NOTIF_LED_RED`. -/
def notifLedRed : UInt8 := 0x08

/-- `NOTIF_LED_PURPLE_BLINKING | NOTIF_LED_ORANGE`. -/
def notifLedPurpleOrange : UInt8 := 0x3E

/-- The LED is off for a moment after a button was pressed. -/
def flash : Request := ⟨notifLedOff, 250⟩

section

variable {Call : Type}

/-- The calls to `setNotificationLED` for what is shown, where the user presses EJECT `presses`
times before choosing an item of a menu. -/
def eventRequests (presses : ℕ) : Event Call → List Request
  | .printError _ _ => [⟨notifLedRed, 0⟩, flash, ⟨notifLedPurple, 0⟩]
  | .setNotificationLED mask => [⟨mask, 0⟩]
  | .drawMenu _ _ => List.replicate presses flash ++ [flash]
  | .waitButtonInput => [flash]
  | _ => []

/-- The calls to `setNotificationLED` in a run that shows and calls what is in the list. -/
inductive Asks : List (Event Call) → List Request → Prop
  | nil : Asks [] []
  | cons (presses : ℕ) (e : Event Call) {es : List (Event Call)} {rs : List Request} :
    Asks es rs → Asks (e :: es) (eventRequests presses e ++ rs)

/-- `currentLedMask` after what is shown. -/
@[simp] def eventLed (mask : UInt8) : Event Call → UInt8
  | .printError _ _ => notifLedPurple
  | .setNotificationLED stored => stored
  | _ => mask

/-- `currentLedMask` after a run. -/
def ledAfter (mask : UInt8) (events : List (Event Call)) : UInt8 := events.foldl eventLed mask

/-- A flash does not store its mask. -/
@[simp] lemma apply_flash (mask : UInt8) : Request.apply mask flash = mask :=
  Request.apply_of_ne_zero mask notifLedOff (by decide)

/-- Flashes do not store their masks. -/
@[simp] lemma foldl_replicate_flash (mask : UInt8) (n : ℕ) :
    (List.replicate n flash).foldl Request.apply mask = mask := by
  induction n with
  | zero => rfl
  | succ n ih => rw [List.replicate_succ, List.foldl_cons, apply_flash, ih]

/-- The calls for what is shown leave its mask, however a user gets to an item of a menu. -/
lemma foldl_eventRequests (mask : UInt8) (presses : ℕ) (e : Event Call) :
    (eventRequests presses e).foldl Request.apply mask = eventLed mask e := by
  cases e with
  | printError format args => simp [eventRequests]
  | setNotificationLED stored => simp [eventRequests]
  | drawMenu title items => simp [eventRequests]
  | waitButtonInput => simp [eventRequests]
  | drawTopBar title => rfl
  | print format args => rfl
  | call c => rfl

/-- **The mask after the calls of a run** is `ledAfter`.

**Proof sketch.** Induction on the run. -/
theorem Asks.foldl_apply {events : List (Event Call)} {rs : List Request} (h : Asks events rs)
    (mask : UInt8) : rs.foldl Request.apply mask = ledAfter mask events := by
  induction h generalizing mask with
  | nil => rfl
  | cons presses e _ ih =>
    rw [List.foldl_append, foldl_eventRequests, ih]
    rfl

/-- After a run whose calls interleave with `asyncThread` and the timer, `currentLedMask` is what
`ledAfter` says. -/
theorem currentLedMask_of_asks {events : List (Event Call)} {s t : State} {schedule : List Label}
    (hasks : Asks events (schedule.flatMap callOf)) (hrun : ledSystem.run s schedule = some t)
    {last last' : Option (UInt8 × UInt32)} (hs : s.caller = .between last)
    (ht : t.caller = .between last') : t.currentLedMask = ledAfter s.currentLedMask events := by
  rw [currentLedMask_of_run hrun hs ht, hasks.foldl_apply]

@[simp] lemma ledAfter_nil (mask : UInt8) : ledAfter mask ([] : List (Event Call)) = mask := rfl

@[simp] lemma ledAfter_cons (mask : UInt8) (e : Event Call) (es : List (Event Call)) :
    ledAfter mask (e :: es) = ledAfter (eventLed mask e) es := rfl

@[simp] lemma ledAfter_append (mask : UInt8) (a b : List (Event Call)) :
    ledAfter mask (a ++ b) = ledAfter (ledAfter mask a) b := List.foldl_append

/-- A run that sets no colour itself leaves the LED purple.

**Proof sketch.** Induction on the run: an error leaves it purple, the rest does not set it. -/
lemma ledAfter_purple {es : List (Event Call)} (h : ∀ mask, .setNotificationLED mask ∉ es) :
    ledAfter notifLedPurple es = notifLedPurple := by
  induction es with
  | nil => rfl
  | cons e es ih =>
    have hes : ∀ mask, .setNotificationLED mask ∉ es :=
      fun mask hmem => h mask (List.mem_cons_of_mem e hmem)
    have he : eventLed notifLedPurple e = notifLedPurple := by
      cases e with
      | setNotificationLED mask => exact absurd List.mem_cons_self (h mask)
      | printError format args => rfl
      | drawTopBar title => rfl
      | print format args => rfl
      | drawMenu title items => rfl
      | waitButtonInput => rfl
      | call c => rfl
    rw [ledAfter_cons, he]
    exact ih hes

end

/-! ## The options that set a colour -/

/-- The loop over the entries ends in purple.

**Proof sketch.** Induction on the entries read. -/
lemma ledAfter_copyLogs (mask : UInt8) (dirHandle lastRead : ℤ)
    (reads : List DumpSyslogs.Read) :
    ledAfter mask (DumpSyslogs.copyLogs dirHandle lastRead reads) = notifLedPurple := by
  induction reads generalizing mask with
  | nil => simp [DumpSyslogs.copyLogs, DumpSyslogs.done]
  | cons e reads ih =>
    rw [DumpSyslogs.copyLogs]
    split_ifs with hdir hres
    · rw [ledAfter_cons]
      exact ih _
    · simp
    · rw [ledAfter_cons, ledAfter_append]
      exact ih _

/-- `option_DumpSyslogs` ends in purple. -/
theorem ledAfter_optionDumpSyslogs (mask : UInt8) {endOfDirectory : ℤ}
    {listing : List DumpSyslogs.Entry} (r : DumpSyslogs.Results endOfDirectory listing) :
    ledAfter mask (DumpSyslogs.optionDumpSyslogs r) = notifLedPurple := by
  unfold DumpSyslogs.optionDumpSyslogs
  split_ifs with hmake hopen
  · simp
  · simp
  · rw [ledAfter_append]
    exact ledAfter_copyLogs _ _ _ _

/-- `write_file_to_sd` shows an error where it does not return `0`. -/
lemma ledAfter_writeFileToSd (mask : UInt8) {size : ℕ} (w : DumpOtpAndSeeprom.WriteResults size)
    (filename : String) (buf : List UInt8)
    (h : (DumpOtpAndSeeprom.writeFileToSd w filename buf).res ≠ 0) :
    ledAfter mask (DumpOtpAndSeeprom.writeFileToSd w filename buf).events = notifLedPurple := by
  unfold DumpOtpAndSeeprom.writeFileToSd at h ⊢
  split_ifs at h ⊢ with hopen hwrite
  · simp
  · simp
  · exact absurd rfl h

/-- The second half of `option_DumpOtpAndSeeprom` ends in purple. -/
lemma ledAfter_dumpSeeprom (mask : UInt8) (r : DumpOtpAndSeeprom.Results) (buf : List UInt8) :
    ledAfter mask (DumpOtpAndSeeprom.dumpSeeprom r buf).1 = notifLedPurple := by
  unfold DumpOtpAndSeeprom.dumpSeeprom
  dsimp only
  split_ifs with hread hfile
  · simp
  · rw [ledAfter_append, ledAfter_append, ledAfter_writeFileToSd _ _ _ _ hfile]
    rfl
  · simp

/-- `option_DumpOtpAndSeeprom` ends in purple. -/
theorem ledAfter_optionDumpOtpAndSeeprom (mask : UInt8) (r : DumpOtpAndSeeprom.Results) :
    ledAfter mask (DumpOtpAndSeeprom.optionDumpOtpAndSeeprom r).events = notifLedPurple := by
  unfold DumpOtpAndSeeprom.optionDumpOtpAndSeeprom
  dsimp only
  split_ifs with halloc hread hfile
  · simp
  · rw [ledAfter_append, ledAfter_append, ledAfter_writeFileToSd _ _ _ _ hfile]
    rfl
  · rw [ledAfter_append]
    exact ledAfter_dumpSeeprom _ _ _
  · simp

/-- A loop that returns from the option has shown an error; the others leave the LED.

**Proof sketch.** Induction on the timeout. -/
lemma ledAfter_pollStatus (mask : UInt8) (wpsStatus : ℕ → ℤ × UInt32) (i : ℕ) (res : ℤ)
    (status : UInt32) (timeout : ℕ) :
    ledAfter mask (PairDRC.pollStatus wpsStatus i res status timeout).events =
      if (PairDRC.pollStatus wpsStatus i res status timeout).returns then notifLedPurple
      else mask := by
  induction timeout generalizing i res status with
  | zero => rfl
  | succ timeout ih =>
    unfold PairDRC.pollStatus
    dsimp only
    by_cases hres : (wpsStatus i).1 < 0
    · rw [if_pos hres]
      rfl
    · rw [if_neg hres]
      generalize (if (wpsStatus i).1 = 0 then (wpsStatus i).2 else status) = shown
      by_cases hstatus : shown = 2 ∨ shown = 1
      · rw [if_pos hstatus]
        exact (ledAfter_append _ _ _).trans (ih (i + 1) _ shown)
      · rw [if_neg hstatus]
        rfl

/-- `option_PairDRC` ends in purple.

**Proof sketch.** An error sets it, and so does the end of a successful pairing. -/
theorem ledAfter_optionPairDRC (mask : UInt8) (r : PairDRC.Results) :
    ledAfter mask (PairDRC.optionPairDRC r) = notifLedPurple := by
  have hwait (mask : UInt8) : ledAfter mask (PairDRC.waitForPairing r) = notifLedPurple := by
    unfold PairDRC.waitForPairing PairDRC.waitWithTimeout
    rw [ledAfter_append, ledAfter_pollStatus]
    split_ifs
    · rfl
    · simp
    · simp
  unfold PairDRC.optionPairDRC
  dsimp only
  split_ifs <;> simp [hwait]

/-- The rounds of the loop leave the LED.

**Proof sketch.** Induction on the rounds. -/
lemma ledAfter_progress (mask : UInt8) (ps : List InstallWUP.Progress) :
    ledAfter mask (ps.flatMap InstallWUP.Progress.events) = mask := by
  have hround (p : InstallWUP.Progress) : ledAfter mask p.events = mask := by
    unfold InstallWUP.Progress.events
    split_ifs <;> rfl
  induction ps with
  | nil => rfl
  | cons p ps ih => rw [List.flatMap_cons, ledAfter_append, hround, ih]

/-- An installation that the user has confirmed ends in purple. -/
lemma ledAfter_startInstall (mask : UInt8) (r : InstallWUP.Results) :
    ledAfter mask (InstallWUP.startInstall r) = notifLedPurple := by
  have hfinish (mask : UInt8) : ledAfter mask (InstallWUP.finishInstall r) = notifLedPurple := by
    unfold InstallWUP.finishInstall
    rw [ledAfter_append, ledAfter_append, ledAfter_progress]
    split_ifs <;> simp
  unfold InstallWUP.startInstall
  split_ifs <;> simp [hfinish]

/-- **What `option_InstallWUP` leaves:** purple, but the warning colour after a cancelled
installation. -/
theorem ledAfter_optionInstallWUP (mask : UInt8) (r : InstallWUP.Results) :
    ledAfter mask (InstallWUP.optionInstallWUP r) =
      if r.Cancelled then notifLedRedBlinking else notifLedPurple := by
  unfold InstallWUP.optionInstallWUP
  by_cases hopen : r.mcpHandle < 0
  · rw [if_pos hopen, if_neg fun h => absurd hopen (not_lt.mpr h.1)]
    rfl
  · by_cases hinfo : r.getInfo < 0
    · rw [if_neg hopen, if_pos hinfo, if_neg fun h => absurd hinfo (not_lt.mpr h.2.1)]
      rfl
    · by_cases hselected : r.selected = 0
      · rw [if_neg hopen, if_neg hinfo, if_pos hselected,
          if_pos ⟨not_lt.mp hopen, not_lt.mp hinfo, hselected⟩]
        rfl
      · rw [if_neg hopen, if_neg hinfo, if_neg hselected, if_neg fun h => hselected h.2.2,
          ledAfter_append, ledAfter_append, ledAfter_append]
        exact ledAfter_startInstall _ _

/-! ## The main menu -/

/-- A run of code that sets no colour itself, as the options other than the four and
`handleBoot1Autoboot` do. -/
structure PlainRun where
  Call : Type
  events : List (Event Call)
  plain : ∀ mask, .setNotificationLED mask ∉ events

/-- A run of an option of the main menu that returns. -/
inductive OptionRun
  | dumpSyslogs {endOfDirectory : ℤ} {listing : List DumpSyslogs.Entry}
    (r : DumpSyslogs.Results endOfDirectory listing)
  | dumpOtpAndSeeprom (r : DumpOtpAndSeeprom.Results)
  | pairDRC (r : PairDRC.Results)
  | installWUP (r : InstallWUP.Results)
  | other (r : PlainRun)

/-- `currentLedMask` after the run, from `mask`. -/
def OptionRun.ledAfter (mask : UInt8) : OptionRun → UInt8
  | .dumpSyslogs r => ReadyLed.ledAfter mask (DumpSyslogs.optionDumpSyslogs r)
  | .dumpOtpAndSeeprom r =>
    ReadyLed.ledAfter mask (DumpOtpAndSeeprom.optionDumpOtpAndSeeprom r).events
  | .pairDRC r => ReadyLed.ledAfter mask (PairDRC.optionPairDRC r)
  | .installWUP r => ReadyLed.ledAfter mask (InstallWUP.optionInstallWUP r)
  | .other r => ReadyLed.ledAfter mask r.events

/-- The run is an installation of a title that the user cancels. -/
def OptionRun.CancelsInstall : OptionRun → Prop
  | .installWUP r => r.Cancelled
  | _ => False

/-- `currentLedMask` whenever the main menu is shown: from `mask`, between the runs of options. -/
def shownMasks (mask : UInt8) : List OptionRun → List UInt8
  | [] => [mask]
  | o :: runs => mask :: shownMasks (o.ledAfter mask) runs

/-- `currentLedMask` whenever `menuThread` shows the main menu, where the user chooses the given
runs of options. The mask is `NOTIF_LED_PURPLE` at first. -/
def menuThread (autoboot : PlainRun) (runs : List OptionRun) : List UInt8 :=
  let running := Request.apply notifLedPurple ⟨notifLedPurpleOrange, 0⟩
  let ready := Request.apply running ⟨notifLedPurple, 0⟩
  shownMasks (ledAfter ready autoboot.events) runs

/-- Each run of an option that begins with a purple LED ends with one, and the main menu is always
shown in purple. -/
structure Ready (autoboot : PlainRun) (runs : List OptionRun) : Prop where
  restored : ∀ o ∈ runs, o.ledAfter notifLedPurple = notifLedPurple
  shown : ∀ mask ∈ menuThread autoboot runs, mask = notifLedPurple

/-- An installation that is cancelled leaves the warning colour, any other run leaves the LED
purple. -/
lemma OptionRun.ledAfter_purple_iff (o : OptionRun) :
    o.ledAfter notifLedPurple = notifLedPurple ↔ ¬ o.CancelsInstall := by
  cases o with
  | dumpSyslogs r => exact iff_of_true (ledAfter_optionDumpSyslogs _ r) not_false
  | dumpOtpAndSeeprom r => exact iff_of_true (ledAfter_optionDumpOtpAndSeeprom _ r) not_false
  | pairDRC r => exact iff_of_true (ledAfter_optionPairDRC _ r) not_false
  | installWUP r =>
    show ReadyLed.ledAfter notifLedPurple (InstallWUP.optionInstallWUP r) = notifLedPurple ↔
      ¬ r.Cancelled
    rw [ledAfter_optionInstallWUP]
    split_ifs with hcancelled
    · exact iff_of_false (by decide) (not_not.mpr hcancelled)
    · exact iff_of_true rfl hcancelled
  | other r => exact iff_of_true (ledAfter_purple r.plain) not_false

/-- The first mask shown is the one before the runs. -/
lemma mem_shownMasks (mask : UInt8) (runs : List OptionRun) : mask ∈ shownMasks mask runs := by
  cases runs with
  | nil => exact List.mem_singleton_self mask
  | cons o runs => exact List.mem_cons_self

/-- From purple, the main menu is always purple iff no installation is cancelled.

**Proof sketch.** Induction on the runs: a run that leaves purple is followed by such a menu, and
after one that does not the menu shows another mask. -/
lemma shownMasks_purple_iff (runs : List OptionRun) :
    (∀ mask ∈ shownMasks notifLedPurple runs, mask = notifLedPurple) ↔
      ∀ o ∈ runs, ¬ o.CancelsInstall := by
  induction runs with
  | nil => simp [shownMasks]
  | cons o runs ih =>
    rw [shownMasks, List.forall_mem_cons, List.forall_mem_cons, and_iff_right rfl]
    by_cases ho : o.CancelsInstall
    · refine iff_of_false (fun hshown => ?_) fun h => h.1 ho
      exact o.ledAfter_purple_iff.mp (hshown _ (mem_shownMasks _ runs)) ho
    · rw [and_iff_right ho, o.ledAfter_purple_iff.mpr ho]
      exact ih

/-- **The LED of the main menu.** In a run of `menuThread` every option restores the purple LED and
the main menu is always shown in purple, iff no installation is cancelled. -/
theorem ready_iff (autoboot : PlainRun) (runs : List OptionRun) :
    Ready autoboot runs ↔ ∀ o ∈ runs, ¬ o.CancelsInstall := by
  constructor
  · intro h o ho
    exact o.ledAfter_purple_iff.mp (h.restored o ho)
  · intro h
    refine ⟨fun o ho => o.ledAfter_purple_iff.mpr (h o ho), ?_⟩
    unfold menuThread
    dsimp only
    rw [Request.apply_zero, ledAfter_purple autoboot.plain]
    exact (shownMasks_purple_iff runs).mpr h

/-- The title is found, and the user chooses the first item of the menu. -/
def cancelled : InstallWUP.Results where
  mcpHandle := 5
  getInfo := 0
  titleId := 0x0005001010040100
  selected := 0
  setTargetDevice := 0
  setTargetUsb := 0
  createMessageQueue := 0
  createThread := 0
  startThread := 0
  installTitleAsync := 0
  progress := []
  asyncResult := 0

/-- The main menu is shown in the warning colour. -/
theorem not_ready : ¬ ∀ (autoboot : PlainRun) (runs : List OptionRun), Ready autoboot runs := by
  intro h
  have hrun := h ⟨Unit, [], fun _ => List.not_mem_nil⟩ [.installWUP cancelled]
  have hpurple : ledAfter notifLedPurple (InstallWUP.optionInstallWUP cancelled) =
      notifLedPurple := hrun.restored _ List.mem_cons_self
  revert hpurple
  decide

end ReadyLed

end RecoveryMenu

import RecoveryMenu.Foundations.Cursor
import RecoveryMenu.Menu.DrawMenu

set_option relaxedAutoImplicit false
set_option autoImplicit false

/-!
# Menus that come back (`ios_mcp/source/menu.c`)

The main menu and two of the options call `drawMenu` again and again: what it returns is done, and
is the selection the next call starts with, until something is chosen that ends the loop. Each call
of `drawMenu` starts with `cur_flag = 0`, so that a button that is still held when the call starts
counts as pressed once more.

## Main definitions

* `RecoveryMenu.MenuLoop`: a loop around `drawMenu`; `RecoveryMenu.MenuLoop.system`: the loop, as a
  transition system over the flags it reads and what the calls of a choice return.
* `RecoveryMenu.MenuLoop.presses`: what the flags say, read by read.
* `RecoveryMenu.MenuLoop.mainMenu`: the loop of `menuThread`.

## Main results

* `RecoveryMenu.MenuLoop.chosen_of_run`: what a run has chosen are the choices of a cursor.
* `RecoveryMenu.MenuLoop.mainMenu_of_run`: the options that a run of the main menu calls.

## References

* `ios_mcp/source/menu.c`, lines 40-54, 121-186 and 420-433.
-/

namespace RecoveryMenu

open Cursor DrawMenu Interleaving Menu

/-! ## The loop -/

/-- A loop around `drawMenu`, where `ρ` is what the calls of a turn return, and `ε` what it shows
and calls. -/
structure MenuLoop (ρ ε : Type) where
  menu : List Item
  flags : UInt32
  y : UInt32
  /-- What is shown before the menu. -/
  before : ρ → List ε
  /-- What is done with a choice, or `none` where the loop ends. -/
  act : ℤ → ρ → Option (List ε)
  /-- What is on the screen behind that. -/
  leave : ρ → Screen → Screen

namespace MenuLoop

variable {ρ ε : Type}

/-- What a turn reads: the event flag, and what the calls return. -/
structure Reading (ρ : Type) where
  flag : UInt8
  value : ρ

/-- A loop within a call of `drawMenu`, with what it has shown and called, and what has been chosen
so far. -/
structure State (ρ ε : Type) where
  call : Call
  drawn : DrawMenu.State
  events : List ε
  chosen : List (ℤ × ρ)
  returned : Bool

variable (l : MenuLoop ρ ε)

/-- The arguments of `drawMenu`. -/
def call (selected : ℤ) (screen : Screen) : Call where
  menu := l.menu
  selected := selected
  flags := l.flags
  y := l.y
  screen := screen

/-- The loop up to the first read of the flag. -/
def start (screen : Screen) (r : ρ) : State ρ ε where
  call := l.call 0 screen
  drawn := (l.call 0 screen).drawFirst
  events := l.before r
  chosen := []
  returned := false

/-- A turn of the loop in `drawMenu`, with what is done if it returns, up to the next read. -/
def turn (s : State ρ ε) (r : Reading ρ) : State ρ ε :=
  let drawn := s.call.turn s.drawn r.flag
  match drawn.result with
  | none => { s with drawn := drawn }
  | some selected =>
    let chosen := s.chosen ++ [(selected, r.value)]
    match l.act selected r.value with
    | none => { s with drawn := drawn, chosen := chosen, returned := true }
    | some events =>
      let call := l.call selected (l.leave r.value drawn.screen)
      { call := call
        drawn := call.drawFirst
        events := s.events ++ events ++ l.before r.value
        chosen := chosen
        returned := false }

/-- The loop, which goes on until it has returned. -/
def system (screen : Screen) (r : ρ) : System (State ρ ε) (Reading ρ) where
  init s := s = l.start screen r
  next s r := if s.returned then none else some (l.turn s r)

/-! ## Presses -/

/-- What `drawMenu` takes a flag for, behind the flag it has kept. -/
def press (curFlag flag : UInt8) : Option Press :=
  if curFlag = flag then none
  else if flag &&& systemEventFlagEjectButton ≠ 0 then some .next
  else if flag &&& systemEventFlagPowerButton ≠ 0 then some .choose
  else none

/-- What the loop takes the flags for: a choice starts a new call, which has kept no flag. -/
def presses (curFlag : UInt8) : List UInt8 → List Press
  | [] => []
  | flag :: flags =>
    match press curFlag flag with
    | none => presses flag flags
    | some .next => .next :: presses flag flags
    | some .choose => .choose :: presses 0 flags

section Turn

/-- A flag that moves the selection. -/
lemma press_eq_next_iff (curFlag flag : UInt8) :
    press curFlag flag = some .next ↔
      curFlag ≠ flag ∧ flag &&& systemEventFlagEjectButton ≠ 0 := by
  unfold press
  split_ifs <;> simp_all

/-- A flag that ends a call. -/
lemma press_eq_choose_iff (curFlag flag : UInt8) :
    press curFlag flag = some .choose ↔
      curFlag ≠ flag ∧ flag &&& systemEventFlagEjectButton = 0 ∧
        flag &&& systemEventFlagPowerButton ≠ 0 := by
  unfold press
  split_ifs <;> simp_all

/-- A flag that does nothing. -/
lemma press_eq_none_iff (curFlag flag : UInt8) :
    press curFlag flag = none ↔
      curFlag = flag ∨ flag &&& systemEventFlagEjectButton = 0 ∧
        flag &&& systemEventFlagPowerButton = 0 := by
  unfold press
  split_ifs <;> simp_all

variable (c : Call) {s : DrawMenu.State} {flag : UInt8}

/-- A turn of `drawMenu` that reads EJECT moves the selection. -/
lemma turn_next (hresult : s.result = none) (h : press s.curFlag flag = some .next) :
    (c.turn s flag).result = none ∧ (c.turn s flag).curFlag = flag ∧
      (c.turn s flag).selected = if s.selected + 1 = c.menu.length then 0 else s.selected + 1 := by
  obtain ⟨hne, heject⟩ := (press_eq_next_iff _ _).mp h
  have hread : c.readFlag s flag = { s with
      prevSelected := s.selected
      selected := if s.selected + 1 = c.menu.length then 0 else s.selected + 1
      redraw := true
      moves := s.moves + 1
      curFlag := flag } := by
    rw [Call.readFlag, if_pos hne, if_pos heject]
  rw [Call.turn_of_result c (by rw [hread, hresult]), hread]
  simp [hresult]

/-- A turn of `drawMenu` that reads POWER ends the call with the selection. -/
lemma turn_choose (h : press s.curFlag flag = some .choose) :
    c.turn s flag = { s with result := some s.selected } := by
  obtain ⟨hne, heject, hpower⟩ := (press_eq_choose_iff _ _).mp h
  have hread : c.readFlag s flag = { s with result := some s.selected } := by
    rw [Call.readFlag, if_pos hne, if_neg (not_not.mpr heject), if_pos hpower]
  rw [Call.turn_of_result_some c (by rw [hread]), hread]

/-- Any other turn of `drawMenu` keeps the flag only. -/
lemma turn_none (hresult : s.result = none) (h : press s.curFlag flag = none) :
    (c.turn s flag).result = none ∧ (c.turn s flag).curFlag = flag ∧
      (c.turn s flag).selected = s.selected := by
  have hread : c.readFlag s flag = { s with curFlag := flag } := by
    by_cases hkept : s.curFlag = flag
    · rw [Call.readFlag, if_neg (not_not.mpr hkept), ← hkept]
    · obtain hkept' | ⟨heject, hpower⟩ := (press_eq_none_iff _ _).mp h
      · exact absurd hkept' hkept
      · rw [Call.readFlag, if_pos hkept, if_neg (not_not.mpr heject),
          if_neg (not_not.mpr hpower)]
  rw [Call.turn_of_result c (by rw [hread, hresult]), hread]
  simp [hresult]

end Turn

/-! ## Runs -/

/-- What a choice shows and calls, up to the next read of the flag. -/
def effect (c : ℤ × ρ) : List ε :=
  match l.act c.1 c.2 with
  | none => []
  | some events => events ++ l.before c.2

/-- A choice that ends the loop. -/
lemma effect_of_act_none {i : ℤ} {v : ρ} (h : l.act i v = none) : l.effect (i, v) = [] := by
  rw [effect, h]

/-- Any other choice. -/
lemma effect_of_act {i : ℤ} {v : ρ} {events : List ε} (h : l.act i v = some events) :
    l.effect (i, v) = events ++ l.before v := by
  rw [effect, h]

/-- In every state of the loop the menu shows its selection; the loop has done what has been chosen,
and has returned behind a choice that ends it. -/
structure Invariant (r : ρ) (s : State ρ ε) : Prop where
  call : ∃ selected screen, s.call = l.call selected screen
  shows : s.drawn.ShowsSelected s.call
  result : s.returned = false → s.drawn.result = none
  events : s.events = l.before r ++ s.chosen.flatMap l.effect
  returned : s.returned = true ↔ ∃ c ∈ s.chosen, l.act c.1 c.2 = none

variable {l} {r₀ : ρ}

/-- The menu of a call of the loop. -/
lemma Invariant.menu {s : State ρ ε} (hs : l.Invariant r₀ s) : s.call.menu = l.menu := by
  obtain ⟨selected, screen, hcall⟩ := hs.call
  rw [hcall]
  rfl

/-- A turn that chooses nothing. -/
lemma turn_of_result {s : State ρ ε} {r : Reading ρ}
    (h : (s.call.turn s.drawn r.flag).result = none) :
    l.turn s r = { s with drawn := s.call.turn s.drawn r.flag } := by
  rw [turn, h]

/-- A turn that chooses what ends the loop. -/
lemma turn_of_act_none {s : State ρ ε} {r : Reading ρ} {selected : ℤ}
    (h : (s.call.turn s.drawn r.flag).result = some selected)
    (hact : l.act selected r.value = none) :
    l.turn s r = { s with
      drawn := s.call.turn s.drawn r.flag
      chosen := s.chosen ++ [(selected, r.value)]
      returned := true } := by
  rw [turn, h]
  dsimp only
  rw [hact]

/-- A turn that chooses something else. -/
lemma turn_of_act {s : State ρ ε} {r : Reading ρ} {selected : ℤ} {events : List ε}
    (h : (s.call.turn s.drawn r.flag).result = some selected)
    (hact : l.act selected r.value = some events) :
    l.turn s r =
      let call := l.call selected (l.leave r.value (s.call.turn s.drawn r.flag).screen)
      { call := call
        drawn := call.drawFirst
        events := s.events ++ events ++ l.before r.value
        chosen := s.chosen ++ [(selected, r.value)]
        returned := false } := by
  rw [turn, h]
  dsimp only
  rw [hact]

/-- The loop starts in the invariant. -/
lemma invariant_start (hmenu : l.menu ≠ []) (screen : Screen) (r : ρ) :
    l.Invariant r (l.start screen r) where
  call := ⟨0, screen, rfl⟩
  shows := (l.call 0 screen).showsSelected_drawFirst (List.length_pos_iff.mpr hmenu)
  result _ := rfl
  events := (List.append_nil _).symm
  returned := by simp [start]

/-- **A turn.** A turn of a loop that has not returned keeps the invariant.

**Proof sketch.** The menu shows its selection behind a turn of `drawMenu`, and at the start of the
next call; a choice adds its own effect. -/
lemma Invariant.turn {s : State ρ ε} (hs : l.Invariant r₀ s) (hreturned : s.returned = false)
    (hmenu : l.menu ≠ []) (r : Reading ρ) : l.Invariant r₀ (l.turn s r) := by
  have hshows := (s.call.showsSelected_turn hs.shows (hs.result hreturned) r.flag).1
  have hnone : ¬ ∃ c ∈ s.chosen, l.act c.1 c.2 = none := by
    rw [← hs.returned, hreturned]
    exact Bool.false_ne_true
  cases hresult : (s.call.turn s.drawn r.flag).result with
  | none =>
    rw [turn_of_result hresult]
    exact ⟨hs.call, hshows, fun _ => hresult, hs.events, hs.returned⟩
  | some selected =>
    cases hact : l.act selected r.value with
    | none =>
      rw [turn_of_act_none hresult hact]
      refine ⟨hs.call, hshows, fun h => (Bool.noConfusion h), ?_, iff_of_true rfl ?_⟩
      · rw [hs.events, List.flatMap_append, List.flatMap_singleton, effect_of_act_none l hact,
          List.append_nil]
      · exact ⟨(selected, r.value), List.mem_append_right _ (List.mem_singleton_self _), hact⟩
    | some events =>
      rw [turn_of_act hresult hact]
      refine ⟨⟨_, _, rfl⟩, Call.showsSelected_drawFirst _ (List.length_pos_iff.mpr hmenu),
        fun _ => rfl, ?_, iff_of_false Bool.false_ne_true ?_⟩
      · rw [hs.events, List.flatMap_append, List.flatMap_singleton, effect_of_act l hact]
        simp only [List.append_assoc]
      · rintro ⟨c, hc, hend⟩
        rcases List.mem_append.mp hc with hc | hc
        · exact hnone ⟨c, hc, hend⟩
        · obtain rfl := List.mem_singleton.mp hc
          rw [hact] at hend
          cases hend

/-- A turn of a loop that has not returned. -/
lemma eq_turn_of_next {screen : Screen} {s t : State ρ ε} {r : Reading ρ}
    (h : (l.system screen r₀).next s r = some t) : s.returned = false ∧ t = l.turn s r := by
  simp only [system] at h
  split_ifs at h with hreturned
  exact ⟨Bool.eq_false_iff.mpr hreturned, (Option.some.inj h).symm⟩

/-- A run that starts in the invariant ends in it.

**Proof sketch.** Induction on what is read. -/
lemma Invariant.run {screen : Screen} {s t : State ρ ε} (hs : l.Invariant r₀ s)
    (hmenu : l.menu ≠ []) {rs : List (Reading ρ)}
    (hrun : (l.system screen r₀).run s rs = some t) : l.Invariant r₀ t := by
  induction rs generalizing s with
  | nil => exact System.run_nil_iff.mp hrun ▸ hs
  | cons r rs ih =>
    obtain ⟨u, hnext, hrest⟩ := System.run_cons_iff.mp hrun
    obtain ⟨hreturned, rfl⟩ := eq_turn_of_next hnext
    exact ih (hs.turn hreturned hmenu r) hrest

/-- A loop that has returned reads nothing more. -/
lemma run_of_returned {screen : Screen} {s t : State ρ ε} {rs : List (Reading ρ)}
    (hreturned : s.returned = true) (hrun : (l.system screen r₀).run s rs = some t) :
    rs = [] ∧ t = s := by
  cases rs with
  | nil => exact ⟨rfl, (System.run_nil_iff.mp hrun).symm⟩
  | cons r rs =>
    obtain ⟨u, hnext, -⟩ := System.run_cons_iff.mp hrun
    rw [(eq_turn_of_next hnext).1] at hreturned
    cases hreturned

/-- The next call starts with the selection. -/
lemma drawFirst_selected {selected : ℤ} (hnonneg : 0 ≤ selected) (hlt : selected < l.menu.length)
    (screen : Screen) : (l.call selected screen).drawFirst.selected = selected := by
  have hin : ¬ (selected < 0 ∨ (l.menu.length : ℤ) ≤ selected) := by omega
  exact if_neg hin

/-- **The choices of a run.** The selection goes round the items like a cursor that the presses
move, and what has been chosen are the choices of this cursor.

**Proof sketch.** Induction on what is read. A turn of `drawMenu` moves the selection, chooses it or
does neither, as the flag says (`press`); behind a choice the next call starts with the selection,
and with no flag. -/
theorem chosen_of_run {screen : Screen} {s t : State ρ ε} (hs : l.Invariant r₀ s)
    (hmenu : l.menu ≠ []) {rs : List (Reading ρ)}
    (hrun : (l.system screen r₀).run s rs = some t) {i : ℕ} (hi : s.drawn.selected = i)
    (hreturned : s.returned = false) :
    t.drawn.selected =
        (place l.menu.length i (presses s.drawn.curFlag (rs.map Reading.flag)) : ℕ) ∧
      t.chosen.map Prod.fst = s.chosen.map Prod.fst ++
        (choices l.menu.length i (presses s.drawn.curFlag (rs.map Reading.flag))).map
          ((↑) : ℕ → ℤ) := by
  induction rs generalizing s i with
  | nil =>
    obtain rfl := System.run_nil_iff.mp hrun
    exact ⟨hi, (List.append_nil _).symm⟩
  | cons r rs ih =>
    obtain ⟨u, hnext, hrest⟩ := System.run_cons_iff.mp hrun
    obtain ⟨-, rfl⟩ := eq_turn_of_next hnext
    have hinv := hs.turn hreturned hmenu r
    have hresult := hs.result hreturned
    rw [List.map_cons, presses]
    rcases hpress : press s.drawn.curFlag r.flag with _ | _ | _
    · -- nothing happens
      obtain ⟨hnone, hcurFlag, hselected⟩ := turn_none s.call hresult hpress
      rw [turn_of_result hnone] at hinv hrest
      have hih := ih hinv hrest (hselected.trans hi) hreturned
      rw [hcurFlag] at hih
      exact hih
    · -- the selection moves
      obtain ⟨hnone, hcurFlag, hselected⟩ := turn_next s.call hresult hpress
      rw [turn_of_result hnone] at hinv hrest
      have hmove : (s.call.turn s.drawn r.flag).selected = (move l.menu.length i .next : ℕ) := by
        rw [hselected, hs.menu, hi, move]
        split_ifs <;> omega
      have hih := ih hinv hrest hmove hreturned
      rw [hcurFlag] at hih
      exact hih
    · -- the selection is chosen
      have hturn := turn_choose s.call hpress
      have hsome : (s.call.turn s.drawn r.flag).result = some (i : ℤ) := by
        rw [hturn, ← hi]
      cases hact : l.act i r.value with
      | none =>
        rw [turn_of_act_none hsome hact] at hrest
        obtain ⟨rfl, rfl⟩ := run_of_returned rfl hrest
        refine ⟨?_, ?_⟩
        · show (s.call.turn s.drawn r.flag).selected = i
          rw [hturn]
          exact hi
        · exact List.map_append
      | some events =>
        rw [turn_of_act hsome hact] at hinv hrest
        have hselected : (l.call i (l.leave r.value
            (s.call.turn s.drawn r.flag).screen)).drawFirst.selected = i := by
          have hnonneg := hs.shows.nonneg
          have hlt := hs.shows.lt
          rw [hs.menu] at hlt
          exact drawFirst_selected (hi ▸ hnonneg) (hi ▸ hlt) _
        obtain ⟨hplace, hchosen⟩ := ih hinv hrest hselected rfl
        refine ⟨hplace, hchosen.trans ?_⟩
        rw [List.map_append, List.append_assoc]
        rfl

/-- **A run.** In a run from the start, the menu shows its selection, which has gone on once for
each move; the choices are those of a cursor, and the loop has done what has been chosen. -/
theorem run_spec (hmenu : l.menu ≠ []) {screen : Screen} {t : State ρ ε} {rs : List (Reading ρ)}
    (hrun : (l.system screen r₀).run (l.start screen r₀) rs = some t) :
    t.drawn.ShowsSelected t.call ∧
      t.drawn.selected =
        ((presses 0 (rs.map Reading.flag)).count .next % l.menu.length : ℕ) ∧
      t.chosen.map Prod.fst =
        (choices l.menu.length 0 (presses 0 (rs.map Reading.flag))).map ((↑) : ℕ → ℤ) ∧
      t.events = l.before r₀ ++ t.chosen.flatMap l.effect ∧
      (t.returned = true ↔ ∃ c ∈ t.chosen, l.act c.1 c.2 = none) := by
  have hpos : 0 < l.menu.length := List.length_pos_iff.mpr hmenu
  have hstart := invariant_start hmenu screen r₀
  have ht := hstart.run hmenu hrun
  have hselected : (l.start screen r₀).drawn.selected = (0 : ℕ) :=
    drawFirst_selected le_rfl (Int.natCast_pos.mpr hpos) screen
  obtain ⟨hplace, hchosen⟩ := chosen_of_run hstart hmenu hrun hselected rfl
  refine ⟨ht.shows, ?_, hchosen, ht.events, ht.returned⟩
  rw [hplace, place_eq hpos, Nat.zero_add]
  rfl

/-! ## The calls of a run -/

/-- The call of an event, if it is one. -/
def callOfEvent {Call : Type} : Event Call → Option Call
  | .call c => some c
  | _ => none

/-- The calls among what is shown and called. -/
def calls {Call : Type} (events : List (Event Call)) : List Call := events.filterMap callOfEvent

/-- The calls of what is shown and called one after the other. -/
lemma calls_append {Call : Type} (a b : List (Event Call)) :
    calls (a ++ b) = calls a ++ calls b :=
  List.filterMap_append

/-- The calls of what only calls. -/
lemma calls_map_call {Call : Type} (cs : List Call) : calls (cs.map Event.call) = cs := by
  induction cs with
  | nil => rfl
  | cons c cs ih => exact congrArg (c :: ·) ih

/-- A text that depends on something calls nothing. -/
lemma calls_print {Call : Type} (p : Prop) [Decidable p] (format format' : String)
    (args args' : List Arg) :
    calls [if p then (.print format args : Event Call) else .print format' args'] = [] := by
  split_ifs <;> rfl

/-- The calls of what has been chosen, one choice after the other.

**Proof sketch.** Induction on the choices. -/
lemma calls_flatMap {Call : Type} (f : ℤ × ρ → List (Event Call)) (chosen : List (ℤ × ρ)) :
    calls (chosen.flatMap f) = chosen.flatMap fun c => calls (f c) := by
  induction chosen with
  | nil => rfl
  | cons c chosen ih =>
    rw [List.flatMap_cons, List.flatMap_cons, ← ih, calls_append]

/-! ## The main menu -/

/-- The options of the main menu. -/
inductive MainOption
  | setColdbootTitle
  | dumpSyslogs
  | dumpOtpAndSeeprom
  | loadNetConf
  | startWupserver
  | pairDRC
  | installWUP
  | editParental
  | debugSystemRegion
  | systemInformation
  | submitSystemData
  | loadBoot1Payload
  | shutdown
  deriving DecidableEq, Repr

/-- `mainMenuOptions`. -/
def mainMenuOptions : List (String × MainOption) :=
  [("Set Coldboot Title", .setColdbootTitle),
    ("Dump Syslogs", .dumpSyslogs),
    ("Dump OTP + SEEPROM", .dumpOtpAndSeeprom),
    ("Load Network Configuration", .loadNetConf),
    ("Start wupserver", .startWupserver),
    ("Pair Gamepad", .pairDRC),
    ("Install WUP", .installWUP),
    ("Edit Parental Controls", .editParental),
    ("Debug System Region", .debugSystemRegion),
    ("System Information", .systemInformation),
    ("Submit System Data", .submitSystemData),
    ("Load BOOT1 payload", .loadBoot1Payload),
    ("Shutdown", .shutdown)]

/-- The loop of `menuThread`, where an option leaves anything on the screen. -/
def mainMenu : MenuLoop Screen (Event MainOption) where
  menu := mainMenuOptions.map fun o => ⟨o.1, 0⟩
  flags := menuFlagShowGitHubLink
  y := 16 + 8 + 2 + 8
  before _ := [.drawMenu "Wii U Recovery Menu v0.6 by GaryOderNichts" (mainMenuOptions.map (·.1))]
  act selected _ :=
    if 0 ≤ selected ∧ selected < mainMenuOptions.length then
      some ((mainMenuOptions[selected.toNat]?.map fun o => .call o.2).toList)
    else some []
  leave screen _ := screen

/-- What the main menu does with an item. -/
lemma mainMenu_calls {i : ℕ} (hi : i < mainMenuOptions.length) (screen : Screen) :
    mainMenu.act i screen ≠ none ∧
      calls (mainMenu.effect (i, screen)) = [mainMenuOptions[i].2] := by
  have hact : mainMenu.act i screen = some [.call mainMenuOptions[i].2] := by
    have hin : (0 : ℤ) ≤ i ∧ (i : ℤ) < mainMenuOptions.length := by omega
    show (if _ then _ else _) = _
    rw [if_pos hin, Int.toNat_natCast, List.getElem?_eq_getElem hi]
    rfl
  rw [effect_of_act mainMenu hact, hact]
  exact ⟨Option.some_ne_none _, rfl⟩

/-- The calls of some choices of the main menu.

**Proof sketch.** Induction on the choices. -/
lemma mainMenu_calls_flatMap {chosen : List (ℤ × Screen)} {is : List ℕ}
    (h : chosen.map Prod.fst = is.map ((↑) : ℕ → ℤ))
    (his : ∀ i ∈ is, i < mainMenuOptions.length) :
    (∀ c ∈ chosen, mainMenu.act c.1 c.2 ≠ none) ∧
      calls (chosen.flatMap mainMenu.effect) =
        is.filterMap fun i => mainMenuOptions[i]?.map Prod.snd := by
  rw [calls_flatMap]
  induction is generalizing chosen with
  | nil =>
    obtain rfl := List.map_eq_nil_iff.mp h
    exact ⟨fun c hc => absurd hc List.not_mem_nil, rfl⟩
  | cons i is ih =>
    obtain ⟨⟨j, screen⟩, chosen, rfl, rfl, hrest⟩ := List.map_eq_cons_iff.mp h
    have hi := his i List.mem_cons_self
    obtain ⟨hact, hcalls⟩ := mainMenu_calls hi screen
    obtain ⟨hacts, hrests⟩ := ih hrest fun j hj => his j (List.mem_cons_of_mem i hj)
    refine ⟨List.forall_mem_cons.mpr ⟨hact, hacts⟩, ?_⟩
    rw [List.flatMap_cons, hrests, List.filterMap_cons, List.getElem?_eq_getElem hi]
    exact congrArg (· ++ _) hcalls

/-- **The main menu.** In every run of the main menu, whatever the options leave on the screen, the
highlighted item is the one that EJECT has moved to, and the options called are the items that were
highlighted when POWER was pressed, in this order. The main menu never ends. -/
theorem mainMenu_of_run {screen r : Screen} {rs : List (Reading Screen)}
    {t : State Screen (Event MainOption)}
    (hrun : (mainMenu.system screen r).run (mainMenu.start screen r) rs = some t) :
    t.drawn.ShowsSelected t.call ∧
      t.drawn.selected =
        ((presses 0 (rs.map Reading.flag)).count .next % mainMenuOptions.length : ℕ) ∧
      calls t.events =
        (choices mainMenuOptions.length 0 (presses 0 (rs.map Reading.flag))).filterMap
          (fun i => mainMenuOptions[i]?.map Prod.snd) ∧
      t.returned = false := by
  have hmenu : mainMenu.menu ≠ [] := List.cons_ne_nil _ _
  obtain ⟨hshows, hselected, hchosen, hevents, hreturned⟩ := run_spec hmenu hrun
  have hlt : ∀ i ∈ choices mainMenuOptions.length 0 (presses 0 (rs.map Reading.flag)),
      i < mainMenuOptions.length := fun i => lt_of_mem_choices (Nat.zero_lt_succ _)
  obtain ⟨hacts, hcalls⟩ := mainMenu_calls_flatMap hchosen hlt
  refine ⟨hshows, hselected, ?_, ?_⟩
  · rw [hevents, calls_append]
    exact hcalls
  · rw [← Bool.not_eq_true, hreturned]
    rintro ⟨c, hc, hact⟩
    exact hacts c hc hact

/-- EJECT is pressed once, and then POWER. -/
theorem mainMenu_dumpSyslogs :
    ∃ t, (mainMenu.system (fun _ => none) fun _ => none).run
        (mainMenu.start (fun _ => none) fun _ => none)
        [⟨0x20, fun _ => none⟩, ⟨0, fun _ => none⟩, ⟨0x40, fun _ => none⟩] = some t ∧
      calls t.events = [.dumpSyslogs] :=
  have hrun : (mainMenu.system (fun _ => none) fun _ => none).run
      (mainMenu.start (fun _ => none) fun _ => none)
      [⟨0x20, fun _ => none⟩, ⟨0, fun _ => none⟩, ⟨0x40, fun _ => none⟩] = some _ := rfl
  ⟨_, hrun, (mainMenu_of_run hrun).2.2.1.trans (by decide)⟩

end MenuLoop

end RecoveryMenu

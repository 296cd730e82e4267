import RecoveryMenu.Menu.MenuLoop

set_option relaxedAutoImplicit false
set_option autoImplicit false

/-!
# The coldboot title (`ios_mcp/source/options/SetColdbootTitle.c`)

The option shows a menu of titles again and again, and sets the title that is chosen, until "Back"
is. The last three titles of the table are shown in debug mode only.

## Main definitions

* `RecoveryMenu.SetColdbootTitle.optionSetColdbootTitle`: the option, as a loop around `drawMenu`.

## Main results

* `RecoveryMenu.SetColdbootTitle.setDefaultTitleId_of_run`: the titles that a run sets.

## References

* `ios_mcp/source/options/SetColdbootTitle.c`.
-/

namespace RecoveryMenu

namespace SetColdbootTitle

open Cursor DrawMenu Interleaving Menu MenuLoop

/-- `coldbootTitleOptions`. -/
def coldbootTitleOptions : List Item :=
  [⟨"Back", 0⟩,
    ⟨"Wii U Menu (JPN)", 0x0005001010040000⟩,
    ⟨"Wii U Menu (USA)", 0x0005001010040100⟩,
    ⟨"Wii U Menu (EUR)", 0x0005001010040200⟩,
    -- non-retail systems only
    ⟨"System Config Tool", 0x000500101F700500⟩,
    ⟨"DEVMENU (pre-2.09)", 0x000500101F7001FF⟩,
    ⟨"Kiosk Menu        ", 0x000500101FA81000⟩]

/-- `option_count`, with the result of `IOS_CheckDebugMode`. -/
def optionCount (checkDebugMode : ℤ) : ℕ := if checkDebugMode = 0 then 7 else 4

/-- What a turn of the loop reads. -/
structure Values where
  /-- What `setDefaultTitleId` returns. -/
  rval : ℤ
  /-- `currentColdbootTitle`, when it is shown next. -/
  currentColdbootTitle : UInt64
  /-- `currentColdbootOS`, when it is shown next. -/
  currentColdbootOS : UInt64

/-- The call of the option. -/
inductive Call
  | setDefaultTitleId (tid : UInt64)
  deriving DecidableEq

/-- `coldbootTitleOptions[selected].tid`. -/
def newtid (selected : ℤ) : UInt64 := (coldbootTitleOptions.getD selected.toNat default).tid

/-- `option_SetColdbootTitle`, with the result of `IOS_CheckDebugMode`. -/
def optionSetColdbootTitle (checkDebugMode : ℤ) : MenuLoop Values (Event Call) where
  menu := coldbootTitleOptions.take (optionCount checkDebugMode)
  flags := menuFlagShowTID ||| menuFlagNoClearScreen
  y := 16 + 8 + 2 + 8 + (16 + 4) + (16 + 4) * 2
  before v :=
    [.print "Current coldboot title:    %08lx-%08lx" (titleArgs v.currentColdbootTitle),
      .print "Current coldboot os:       %08lx-%08lx" (titleArgs v.currentColdbootOS),
      .drawMenu "Set Coldboot Title"
        ((coldbootTitleOptions.take (optionCount checkDebugMode)).map Item.name)]
  act selected v :=
    if newtid selected = 0 then none
    else
      some [.call (.setDefaultTitleId (newtid selected)),
        .print "Setting coldboot title id to %08lx-%08lx, rval %d  "
          (titleArgs (newtid selected) ++ [.int v.rval]),
        if v.rval < 0 then .print "Error! Make sure title is installed correctly." []
        else .print "Success!                                      " []]
  leave _ screen := screen

/-- The titles of the Wii U Menu, in the three regions. -/
def wiiUMenuTitles : List UInt64 := [0x0005001010040000, 0x0005001010040100, 0x0005001010040200]

variable (checkDebugMode : ℤ)

/-- The menu has as many items as `option_count` says. -/
lemma length_menu : (optionSetColdbootTitle checkDebugMode).menu.length =
    optionCount checkDebugMode := by
  show (coldbootTitleOptions.take (optionCount checkDebugMode)).length = _
  unfold optionCount
  split_ifs <;> rfl

/-- Only "Back" has no title. -/
lemma newtid_eq_zero_iff : ∀ i < coldbootTitleOptions.length, newtid (i : ℕ) = 0 ↔ i = 0 := by
  decide

/-- The other items of the menu of a retail console have the titles of the Wii U Menu. -/
lemma newtid_mem : ∀ i < 4, i ≠ 0 → newtid (i : ℕ) ∈ wiiUMenuTitles := by
  decide

/-- What a choice does. -/
lemma act_eq (i : ℤ) (v : Values) :
    (newtid i = 0 ∧ (optionSetColdbootTitle checkDebugMode).act i v = none ∨
      newtid i ≠ 0 ∧ (optionSetColdbootTitle checkDebugMode).act i v ≠ none) ∧
    calls ((optionSetColdbootTitle checkDebugMode).effect (i, v)) =
      if newtid i = 0 then [] else [.setDefaultTitleId (newtid i)] := by
  by_cases hzero : newtid i = 0
  · have hact : (optionSetColdbootTitle checkDebugMode).act i v = none := if_pos hzero
    rw [effect_of_act_none _ hact, if_pos hzero]
    exact ⟨.inl ⟨hzero, hact⟩, rfl⟩
  · have hact : (optionSetColdbootTitle checkDebugMode).act i v = some _ := if_neg hzero
    rw [effect_of_act _ hact, if_neg hzero, hact]
    refine ⟨.inr ⟨hzero, Option.some_ne_none _⟩, ?_⟩
    split_ifs <;> rfl

/-- The menu of a console does not go beyond the table. -/
lemma optionCount_pos_le : 0 < optionCount checkDebugMode ∧
    optionCount checkDebugMode ≤ coldbootTitleOptions.length := by
  unfold optionCount
  split_ifs <;> exact ⟨by decide, by decide⟩

/-- The calls of some choices, and when they end the loop.

**Proof sketch.** Induction on the choices. -/
lemma calls_of_chosen {chosen : List (ℤ × Values)} {is : List ℕ}
    (h : chosen.map Prod.fst = is.map ((↑) : ℕ → ℤ))
    (his : ∀ i ∈ is, i < coldbootTitleOptions.length) :
    calls (chosen.flatMap (optionSetColdbootTitle checkDebugMode).effect) =
        (is.filter (· ≠ 0)).map (fun i : ℕ => .setDefaultTitleId (newtid i)) ∧
      ((∃ c ∈ chosen, (optionSetColdbootTitle checkDebugMode).act c.1 c.2 = none) ↔ 0 ∈ is) := by
  rw [calls_flatMap]
  induction is generalizing chosen with
  | nil =>
    obtain rfl := List.map_eq_nil_iff.mp h
    exact ⟨rfl, by simp⟩
  | cons i is ih =>
    obtain ⟨⟨j, v⟩, chosen, rfl, rfl, hrest⟩ := List.map_eq_cons_iff.mp h
    have hzero := newtid_eq_zero_iff i (his i List.mem_cons_self)
    obtain ⟨hact, hcalls⟩ := act_eq checkDebugMode i v
    obtain ⟨hrests, hend⟩ := ih hrest fun j hj => his j (List.mem_cons_of_mem i hj)
    simp only [List.flatMap_cons, hrests, hcalls, List.mem_cons, exists_eq_or_imp, hend]
    obtain ⟨hnewtid, hnone⟩ | ⟨hnewtid, hsome⟩ := hact
    · rw [if_pos hnewtid, hzero.mp hnewtid]
      exact ⟨rfl, iff_of_true (.inl (hzero.mp hnewtid ▸ hnone)) (.inl rfl)⟩
    · have hi : i ≠ 0 := fun h => hnewtid (hzero.mpr h)
      have hfilter : (i :: is).filter (· ≠ 0) = i :: is.filter (· ≠ 0) :=
        List.filter_cons_of_pos (decide_eq_true hi)
      rw [if_neg hnewtid, hfilter]
      exact ⟨rfl, or_congr (iff_of_false hsome (Ne.symm hi)) Iff.rfl⟩

/-- **The titles that are set.** In every run of the option, whatever the calls return, the
highlighted item is the one that EJECT has moved to. The titles that are set are those of the items
that were highlighted when POWER was pressed, in this order, and the option returns when this is
"Back". Unless the console is in debug mode, no other title is set than one of the Wii U Menu. -/
theorem setDefaultTitleId_of_run {screen : Screen} {v : Values} {rs : List (Reading Values)}
    {t : State Values (Event Call)}
    (hrun : ((optionSetColdbootTitle checkDebugMode).system screen v).run
      ((optionSetColdbootTitle checkDebugMode).start screen v) rs = some t) :
    t.drawn.ShowsSelected t.call ∧
      t.drawn.selected =
        ((presses 0 (rs.map Reading.flag)).count .next % optionCount checkDebugMode : ℕ) ∧
      calls t.events =
        ((choices (optionCount checkDebugMode) 0 (presses 0 (rs.map Reading.flag))).filter
          (· ≠ 0)).map (fun i : ℕ => .setDefaultTitleId (newtid i)) ∧
      (t.returned = true ↔
        0 ∈ choices (optionCount checkDebugMode) 0 (presses 0 (rs.map Reading.flag))) ∧
      (checkDebugMode ≠ 0 →
        ∀ c ∈ calls t.events, ∃ tid ∈ wiiUMenuTitles, c = .setDefaultTitleId tid) := by
  obtain ⟨hpos, hle⟩ := optionCount_pos_le checkDebugMode
  have hmenu : (optionSetColdbootTitle checkDebugMode).menu ≠ [] := by
    rw [← List.length_pos_iff, length_menu]
    exact hpos
  obtain ⟨hshows, hselected, hchosen, hevents, hreturned⟩ := run_spec hmenu hrun
  rw [length_menu] at hselected hchosen
  have hlt : ∀ i ∈ choices (optionCount checkDebugMode) 0 (presses 0 (rs.map Reading.flag)),
      i < optionCount checkDebugMode := fun i => lt_of_mem_choices hpos
  obtain ⟨hcalls, hend⟩ := calls_of_chosen checkDebugMode hchosen
    fun i hi => (hlt i hi).trans_le hle
  -- nothing is called before the first choice
  have hevents' : calls t.events = calls (t.chosen.flatMap
      (optionSetColdbootTitle checkDebugMode).effect) := by
    rw [hevents, calls_append]
    rfl
  refine ⟨hshows, hselected, hevents'.trans hcalls, hreturned.trans hend, fun hdebug c hc => ?_⟩
  rw [hevents', hcalls] at hc
  obtain ⟨i, hi, rfl⟩ := List.mem_map.mp hc
  obtain ⟨hi, hi0⟩ := List.mem_filter.mp hi
  have hretail : optionCount checkDebugMode = 4 := if_neg hdebug
  exact ⟨newtid i, newtid_mem i (hretail ▸ hlt i hi) (of_decide_eq_true hi0), rfl⟩

/-- On a retail console EJECT is pressed four times, which is once round the menu, then once more,
and then POWER, which is held for one read more. -/
theorem setDefaultTitleId_held :
    ∃ t, ((optionSetColdbootTitle 1).system (fun _ => none) ⟨0, 0, 0⟩).run
        ((optionSetColdbootTitle 1).start (fun _ => none) ⟨0, 0, 0⟩)
        ([0x20, 0, 0x20, 0, 0x20, 0, 0x20, 0, 0x20, 0x40, 0x40].map fun flag => ⟨flag, 0, 0, 0⟩) =
          some t ∧
      calls t.events =
        [.setDefaultTitleId 0x0005001010040000, .setDefaultTitleId 0x0005001010040000] :=
  have hrun : ((optionSetColdbootTitle 1).system (fun _ => none) ⟨0, 0, 0⟩).run
      ((optionSetColdbootTitle 1).start (fun _ => none) ⟨0, 0, 0⟩)
      ([0x20, 0, 0x20, 0, 0x20, 0, 0x20, 0, 0x20, 0x40, 0x40].map fun flag => ⟨flag, 0, 0, 0⟩) =
        some _ := rfl
  ⟨_, hrun, (setDefaultTitleId_of_run 1 hrun).2.2.1.trans (by decide)⟩

end SetColdbootTitle

end RecoveryMenu

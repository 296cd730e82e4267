import RecoveryMenu.Foundations.Ledger
import RecoveryMenu.Menu.MenuLoop

set_option relaxedAutoImplicit false
set_option autoImplicit false

/-!
# Parental controls (`ios_mcp/source/options/EditParental.c`)

The option shows the parental controls and a menu with the items "Back" and "Disable", again and
again, until "Back" is chosen. It reads and writes them through `/dev/usr_cfg`, which `sci.c` opens
and closes for each access.

## Main definitions

* `RecoveryMenu.EditParental.sciReadSysConfig`, `RecoveryMenu.EditParental.sciWriteSysConfig`: an
  access.
* `RecoveryMenu.EditParental.optionEditParental`: the option, as a loop around `drawMenu`.

## Main results

* `RecoveryMenu.EditParental.writes_of_run`: what a run writes, and that each of its handles is
  closed.

## References

* `ios_mcp/source/options/EditParental.c`; `ios_mcp/source/sci.c`, lines 4-75.
* `ios_mcp/source/imports.h`: `UC_DATA_TYPE_U8`, `UC_DATA_TYPE_STRING`.
-/

namespace RecoveryMenu

namespace EditParental

open Cursor DrawMenu Interleaving Lifetime Menu MenuLoop

/-! ## Accesses -/

/-- `UC_DATA_TYPE_U8`. -/
def ucDataTypeU8 : UInt32 := 1

/-- `UC_DATA_TYPE_STRING`. -/
def ucDataTypeString : UInt32 := 6

/-- A call of the user configuration, with the handle that it returns or is given. -/
inductive Call
  | ucOpen (ucHandle : ℤ)
  | ucReadSysConfig (ucHandle : ℤ) (name : String) (type size : UInt32)
  | ucWriteSysConfig (ucHandle : ℤ) (name : String) (type : UInt32) (data : List UInt8)
  | close (ucHandle : ℤ)
  deriving DecidableEq

/-- What the calls of an access return. -/
structure Access where
  ucHandle : ℤ
  res : ℤ

/-- The result of an access to a configuration that could be opened. -/
def sciResult (res : ℤ) : ℤ :=
  if res = 0 then 1 else if res = -0x200009 then -4 else if res = -0x200015 then -3 else -1

/-- `_SCIReadSysConfig`. -/
def sciReadSysConfig (name : String) (type size : UInt32) (a : Access) : ℤ × List Call :=
  if a.ucHandle < 0 then (0, [.ucOpen a.ucHandle])
  else
    (sciResult a.res,
      [.ucOpen a.ucHandle, .ucReadSysConfig a.ucHandle name type size, .close a.ucHandle])

/-- `_SCIWriteSysConfig`. -/
def sciWriteSysConfig (name : String) (type : UInt32) (data : List UInt8) (a : Access) :
    ℤ × List Call :=
  if a.ucHandle < 0 then (0, [.ucOpen a.ucHandle])
  else
    (sciResult a.res,
      [.ucOpen a.ucHandle, .ucWriteSysConfig a.ucHandle name type data, .close a.ucHandle])

/-- `SCISetParentalEnable`. -/
def sciSetParentalEnable (enable : UInt8) : Access → ℤ × List Call :=
  sciWriteSysConfig "parent.enable" ucDataTypeU8 [enable]

/-- `SCIGetParentalEnable`. -/
def sciGetParentalEnable : Access → ℤ × List Call :=
  sciReadSysConfig "parent.enable" ucDataTypeU8 1

/-- `SCIGetParentalPinCode`. -/
def sciGetParentalPinCode (pinSize : UInt32) : Access → ℤ × List Call :=
  sciReadSysConfig "parent.pin_code" ucDataTypeString pinSize

/-! ## The option -/

/-- `parentalControlOptions`. -/
def parentalControlOptions : List Item := [⟨"Back", 0⟩, ⟨"Disable", 0⟩]

/-- What a turn of the loop reads. -/
structure Values where
  /-- The write, if "Disable" is chosen. -/
  write : Access
  /-- `SCIGetParentalEnable`, when the parental controls are shown next, and what it reads. -/
  enable : Access
  enabled : UInt8
  /-- `SCIGetParentalPinCode`, when the parental controls are shown next, and what it reads. -/
  pinCode : Access
  pin : List UInt8

/-- What is shown of the parental controls. -/
def showControls (v : Values) : List (Event Call) :=
  let enable := sciGetParentalEnable v.enable
  let pinCode := sciGetParentalPinCode 5 v.pinCode
  enable.2.map .call ++
    [if enable.1 = 1 then
        .print "Parental Controls: %s" [.str (if v.enabled ≠ 0 then "Enabled" else "Disabled")]
      else .print "SCIGetParentalEnable failed: %d" [.int enable.1]] ++
    pinCode.2.map .call ++
    [if pinCode.1 = 1 then .print "Parental Pin Code: %s" [.chars v.pin]
      else .print "SCIGetParentalPinCode failed: %d" [.int pinCode.1]]

/-- Option 1: disable the parental controls. -/
def disable (a : Access) : List (Event Call) :=
  let write := sciSetParentalEnable 0 a
  write.2.map .call ++
    [.print "SCISetParentalEnable(false): %d  " [.int write.1],
      if write.1 ≠ 1 then .print "Error!  " [] else .print "Success!" []]

/-- `option_EditParental`. -/
def optionEditParental : MenuLoop Values (Event Call) where
  menu := parentalControlOptions
  flags := menuFlagNoClearScreen
  y := 16 + 8 + 2 + 8 + (16 + 4) + (16 + 4) * 2
  before v :=
    showControls v ++
      [.drawMenu "Edit Parental Controls" (parentalControlOptions.map Item.name)]
  act selected v := if selected = 0 then none else some (disable v.write)
  leave _ screen := screen

/-! ## What is called -/

/-- What a call does with a handle. -/
def ops : Call → List (Op ℤ)
  | .ucOpen ucHandle => if ucHandle < 0 then [] else [.acquire ucHandle]
  | .ucReadSysConfig ucHandle _ _ _ => [.use ucHandle]
  | .ucWriteSysConfig ucHandle _ _ _ => [.use ucHandle]
  | .close ucHandle => [.release ucHandle]

/-- A call writes. -/
def Call.Writes : Call → Bool
  | .ucWriteSysConfig .. => true
  | _ => false

/-- A read writes nothing, and closes what it opens. -/
lemma sciReadSysConfig_calls (name : String) (type size : UInt32) (a : Access) :
    (sciReadSysConfig name type size a).2.filter Call.Writes = [] ∧
      ∀ s : Multiset ℤ, hold s ((sciReadSysConfig name type size a).2.flatMap ops) = some s := by
  unfold sciReadSysConfig
  split_ifs with hopen
  · refine ⟨rfl, fun s => ?_⟩
    simp [ops, hopen]
  · refine ⟨rfl, fun s => ?_⟩
    simp [ops, hopen, hold_use]

/-- A write writes once if it can open the configuration, and closes what it opens. -/
lemma sciWriteSysConfig_calls (name : String) (type : UInt32) (data : List UInt8) (a : Access) :
    (sciWriteSysConfig name type data a).2.filter Call.Writes =
        (if a.ucHandle < 0 then [] else [.ucWriteSysConfig a.ucHandle name type data]) ∧
      ∀ s : Multiset ℤ, hold s ((sciWriteSysConfig name type data a).2.flatMap ops) = some s := by
  unfold sciWriteSysConfig
  split_ifs with hopen
  · refine ⟨rfl, fun s => ?_⟩
    simp [ops, hopen]
  · refine ⟨rfl, fun s => ?_⟩
    simp [ops, hopen, hold_use]

/-- What is shown of the parental controls writes nothing, and closes what it opens. -/
lemma calls_before (v : Values) :
    (calls (optionEditParental.before v)).filter Call.Writes = [] ∧
      ∀ s : Multiset ℤ, hold s ((calls (optionEditParental.before v)).flatMap ops) = some s := by
  have hcalls : calls (optionEditParental.before v) =
      (sciGetParentalEnable v.enable).2 ++ (sciGetParentalPinCode 5 v.pinCode).2 := by
    show calls (showControls v ++ [_]) = _
    unfold showControls
    simp only [calls_append, calls_map_call, calls_print, List.append_nil]
    exact List.append_nil _
  obtain ⟨henable, henables⟩ := sciReadSysConfig_calls "parent.enable" ucDataTypeU8 1 v.enable
  obtain ⟨hpin, hpins⟩ := sciReadSysConfig_calls "parent.pin_code" ucDataTypeString 5 v.pinCode
  rw [hcalls]
  refine ⟨?_, fun s => ?_⟩
  · rw [List.filter_append]
    exact List.append_eq_nil_iff.mpr ⟨henable, hpin⟩
  · rw [List.flatMap_append]
    exact (hold_append_of_eq (henables s) _).trans (hpins s)

/-- What a choice writes: "Disable" writes once, if it can open the configuration. -/
def written (c : ℤ × Values) : List Call :=
  if c.1 = 0 ∨ c.2.write.ucHandle < 0 then []
  else [.ucWriteSysConfig c.2.write.ucHandle "parent.enable" ucDataTypeU8 [0]]

/-- A choice writes that, and closes what it opens. -/
lemma calls_effect (c : ℤ × Values) :
    (calls (optionEditParental.effect c)).filter Call.Writes = written c ∧
      ∀ s : Multiset ℤ, hold s ((calls (optionEditParental.effect c)).flatMap ops) = some s := by
  obtain ⟨i, v⟩ := c
  by_cases hi : i = 0
  · have hact : optionEditParental.act i v = none := if_pos hi
    rw [effect_of_act_none _ hact, written, if_pos (.inl hi)]
    exact ⟨rfl, fun s => rfl⟩
  · have hact : optionEditParental.act i v = some (disable v.write) := if_neg hi
    have hdisable : calls (disable v.write) = (sciSetParentalEnable 0 v.write).2 := by
      unfold disable
      dsimp only
      rw [calls_append, calls_map_call]
      split_ifs <;> exact List.append_nil _
    obtain ⟨hwrite, hwrites⟩ := sciWriteSysConfig_calls "parent.enable" ucDataTypeU8 [0] v.write
    obtain ⟨hbefore, hbefores⟩ := calls_before v
    rw [effect_of_act _ hact, calls_append, hdisable]
    refine ⟨?_, fun s => ?_⟩
    · rw [List.filter_append, hbefore, List.append_nil, written]
      refine hwrite.trans ?_
      simp only [hi, false_or]
    · rw [List.flatMap_append]
      exact (hold_append_of_eq (hwrites s) _).trans (hbefores s)

/-- What some choices write, one after the other.

**Proof sketch.** Induction on the choices. -/
lemma calls_chosen (chosen : List (ℤ × Values)) :
    (calls (chosen.flatMap optionEditParental.effect)).filter Call.Writes =
        chosen.flatMap written ∧
      ∀ s : Multiset ℤ,
        hold s ((calls (chosen.flatMap optionEditParental.effect)).flatMap ops) = some s := by
  rw [calls_flatMap]
  induction chosen with
  | nil => exact ⟨rfl, fun s => rfl⟩
  | cons c chosen ih =>
    obtain ⟨hwrite, hwrites⟩ := calls_effect c
    rw [List.flatMap_cons, List.flatMap_cons]
    refine ⟨?_, fun s => ?_⟩
    · rw [List.filter_append, hwrite, ih.1]
    · rw [List.flatMap_append]
      exact (hold_append_of_eq (hwrites s) _).trans (ih.2 s)

/-- **What a run writes.** In every run of the option, whatever the calls return, the items that are
chosen are those that EJECT has moved to when POWER is pressed, and the option returns when this is
"Back". All that is written is that the parental controls are disabled, once for each other choice
for which the configuration could be opened. Every handle is closed, and none is used but one that
is open. -/
theorem writes_of_run {screen : Screen} {v : Values} {rs : List (Reading Values)}
    {t : State Values (Event Call)}
    (hrun : (optionEditParental.system screen v).run (optionEditParental.start screen v) rs =
      some t) :
    t.drawn.ShowsSelected t.call ∧
      t.chosen.map Prod.fst =
        (choices 2 0 (presses 0 (rs.map Reading.flag))).map ((↑) : ℕ → ℤ) ∧
      (t.returned = true ↔ 0 ∈ choices 2 0 (presses 0 (rs.map Reading.flag))) ∧
      (calls t.events).filter Call.Writes = t.chosen.flatMap written ∧
      Disciplined ((calls t.events).flatMap ops) := by
  have hmenu : optionEditParental.menu ≠ [] := List.cons_ne_nil _ _
  obtain ⟨hshows, -, hchosen, hevents, hreturned⟩ := run_spec hmenu hrun
  have hlength : optionEditParental.menu.length = 2 := rfl
  rw [hlength] at hchosen
  obtain ⟨hbefore, hbefores⟩ := calls_before v
  obtain ⟨hwrite, hwrites⟩ := calls_chosen t.chosen
  have hcalls : calls t.events = calls (optionEditParental.before v) ++
      calls (t.chosen.flatMap optionEditParental.effect) := by
    rw [hevents, calls_append]
  refine ⟨hshows, hchosen, hreturned.trans ?_, ?_, disciplined_of_hold ?_⟩
  · have hzero : (∃ c ∈ t.chosen, optionEditParental.act c.1 c.2 = none) ↔
        0 ∈ t.chosen.map Prod.fst := by
      simp [optionEditParental]
    rw [hzero, hchosen]
    simp
  · rw [hcalls, List.filter_append, hbefore, hwrite, List.nil_append]
  · rw [hcalls, List.flatMap_append]
    exact (hold_append_of_eq (hbefores 0) _).trans (hwrites 0)

/-- Every access succeeds, with the same handle. -/
def allSucceed : Values where
  write := ⟨7, 0⟩
  enable := ⟨7, 0⟩
  enabled := 1
  pinCode := ⟨7, 0⟩
  pin := []

/-- "Disable" is chosen, and then "Back". -/
theorem writes_disable :
    ∃ t, (optionEditParental.system (fun _ => none) allSucceed).run
        (optionEditParental.start (fun _ => none) allSucceed)
        ([0x20, 0x40, 0x20, 0x40].map fun flag => ⟨flag, allSucceed⟩) = some t ∧
      (calls t.events).filter Call.Writes =
        [.ucWriteSysConfig 7 "parent.enable" ucDataTypeU8 [0]] :=
  have hrun : (optionEditParental.system (fun _ => none) allSucceed).run
      (optionEditParental.start (fun _ => none) allSucceed)
      ([0x20, 0x40, 0x20, 0x40].map fun flag => ⟨flag, allSucceed⟩) = some _ := rfl
  ⟨_, hrun, (writes_of_run hrun).2.2.2.1.trans rfl⟩

end EditParental

end RecoveryMenu

import Mathlib.Data.List.GetD
import Mathlib.Logic.Function.Basic
import Mathlib.Tactic.Ring
import RecoveryMenu.Foundations.TransitionSystem
import RecoveryMenu.Gfx
import RecoveryMenu.Menu

set_option relaxedAutoImplicit false
set_option autoImplicit false

/-!
# The menu (`ios_mcp/source/menu.c`)

`drawMenu` draws every item once. Then it reads the event flag of the system again and again: EJECT
selects the next item and POWER ends the call. Of the items only the one that was selected and the
one that is now selected are drawn again. A flag that is the same as the last one is not looked at.

## Main definitions

* `RecoveryMenu.DrawMenu.State`: the variables of `drawMenu`, and the items on the screen.
* `RecoveryMenu.DrawMenu.Call.readFlag`, `RecoveryMenu.DrawMenu.Call.redrawItems`: the two halves of
  a turn of the loop.
* `RecoveryMenu.DrawMenu.Call.system`: a call, as a transition system over the flags it reads.
* `RecoveryMenu.DrawMenu.risingEdges`: how often EJECT is pressed.

## Main results

* `RecoveryMenu.DrawMenu.showsSelected_of_reachable`: the selected item is the one that is drawn
  highlighted.
* `RecoveryMenu.DrawMenu.moves_eq_risingEdges_iff`: when the selection moves once for each press.

## References

* `ios_mcp/source/menu.c`, lines 78-186.
* `ios_mcp/source/menu.h`: `MenuFlags`, `Menu`.
-/

namespace RecoveryMenu

namespace DrawMenu

open Interleaving Menu

/-! ## The items on the screen -/

/-- `Menu`, an item of a menu, whose `tid` is only used with `MenuFlag_ShowTID`. -/
structure Item where
  name : String
  tid : UInt64
  deriving Inhabited

/-- `MenuFlag_ShowTID`. -/
def menuFlagShowTID : UInt32 := 1

/-- `MenuFlag_NoClearScreen`. -/
def menuFlagNoClearScreen : UInt32 := 2

/-- `MenuFlag_ShowGitHubLink`. -/
def menuFlagShowGitHubLink : UInt32 := 4

/-- `CHAR_SIZE_DRC_Y + 4`, from one item to the next one. -/
def rowHeight : ℤ := (Gfx.charSizeDrcY + 4).toNat

/-- In numbers. -/
lemma rowHeight_eq : rowHeight = 20 := rfl

/-- The text of an item, its format and its arguments. -/
def itemText (menuItem : Item) (flags : UInt32) : String × List Arg :=
  if flags &&& menuFlagShowTID = 0 then (menuItem.name, [])
  else if menuItem.tid ≠ 0 then
    ("%s - %08lx-%08lx", .str menuItem.name :: titleArgs menuItem.tid)
  else (menuItem.name, [])

/-- An item on the screen, and whether it is highlighted. -/
structure DrawnItem where
  text : String × List Arg
  selected : Bool

/-- The item that was drawn last at each height. -/
abbrev Screen := ℤ → Option DrawnItem

/-- `drawMenuItem(menuItem, selected, flags, x, y)`. -/
def drawMenuItem (screen : Screen) (menuItem : Item) (selected : Bool) (flags : UInt32) (y : ℤ) :
    Screen :=
  Function.update screen y (some ⟨itemText menuItem flags, selected⟩)

/-! ## A call -/

/-- The arguments of `drawMenu`, and what is on the screen before. -/
structure Call where
  menu : List Item
  selected : ℤ
  flags : UInt32
  y : UInt32
  screen : Screen

/-- The variables of `drawMenu`, the items on the screen, how often the selection has moved, and
what the call has returned. -/
structure State where
  selected : ℤ
  prevSelected : ℤ
  redraw : Bool
  curFlag : UInt8
  screen : Screen
  moves : ℕ
  result : Option ℤ

namespace Call

/-- `y + ((CHAR_SIZE_DRC_Y + 4) * i)`. -/
def row (c : Call) (i : ℤ) : ℤ := c.y.toNat + rowHeight * i

/-- `menu[i]`. -/
def item (c : Call) (i : ℤ) : Item := c.menu.getD i.toNat default

/-- The loop that draws the items from item `i` at the height `index` on. -/
def drawItems (c : Call) (selected : ℤ) : List Item → ℤ → ℤ → Screen → Screen
  | [], _, _, screen => screen
  | menuItem :: menu, i, index, screen =>
    c.drawItems selected menu (i + 1) (index + rowHeight)
      (drawMenuItem screen menuItem (selected = i) c.flags index)

/-- What `drawMenu` does before the loop. -/
def drawFirst (c : Call) : State :=
  let selected := if c.selected < 0 ∨ c.menu.length ≤ c.selected then 0 else c.selected
  let screen := if c.flags &&& menuFlagNoClearScreen = 0 then fun _ => none else c.screen
  { selected := selected
    prevSelected := -1
    redraw := true
    curFlag := 0
    screen := c.drawItems selected c.menu 0 c.y.toNat screen
    moves := 0
    result := none }

/-- The first half of a turn, with the flag that is read. -/
def readFlag (c : Call) (s : State) (flag : UInt8) : State :=
  if s.curFlag ≠ flag then
    if flag &&& systemEventFlagEjectButton ≠ 0 then
      let selected := s.selected + 1
      { s with
        prevSelected := s.selected
        selected := if selected = c.menu.length then 0 else selected
        redraw := true
        moves := s.moves + 1
        curFlag := flag }
    else if flag &&& systemEventFlagPowerButton ≠ 0 then { s with result := some s.selected }
    else { s with curFlag := flag }
  else s

/-- The second half of a turn. -/
def redrawItems (c : Call) (s : State) : State :=
  if s.redraw then
    let screen :=
      if s.prevSelected ≠ s.selected then
        let screen :=
          if 0 ≤ s.prevSelected then
            drawMenuItem s.screen (c.item s.prevSelected) false c.flags (c.row s.prevSelected)
          else s.screen
        drawMenuItem screen (c.item s.selected) true c.flags (c.row s.selected)
      else s.screen
    { s with screen := screen, redraw := false }
  else s

/-- A turn of the loop. -/
def turn (c : Call) (s : State) (flag : UInt8) : State :=
  let s := c.readFlag s flag
  match s.result with
  | some _ => s
  | none => c.redrawItems s

/-- A call, which goes on until it has returned. -/
def system (c : Call) : System State UInt8 where
  init s := s = c.drawFirst
  next s flag := if s.result = none then some (c.turn s flag) else none

end Call

/-! ## The highlighted item -/

/-- The selection is an item of the menu, and of the items of the menu, each of which is shown, it
is the one that is highlighted. -/
structure State.ShowsSelected (c : Call) (s : State) : Prop where
  nonneg : 0 ≤ s.selected
  lt : s.selected < c.menu.length
  shown : ∀ (i : ℕ) (h : i < c.menu.length),
    s.screen (c.row i) = some ⟨itemText c.menu[i] c.flags, decide (s.selected = i)⟩

namespace Call

variable (c : Call)

/-- Different items have different heights. -/
lemma row_ne {i j : ℤ} (h : i ≠ j) : c.row i ≠ c.row j := by
  rw [row, row, rowHeight_eq]
  omega

/-- The next item is one row further down. -/
lemma row_succ (i : ℤ) : c.row i + rowHeight = c.row (i + 1) := by
  unfold row
  ring

/-- An item of the menu. -/
lemma item_eq {i : ℕ} (h : i < c.menu.length) : c.item i = c.menu[i] := by
  rw [item, Int.toNat_natCast, List.getD_eq_getElem _ _ h]

/-- A height at which an item is drawn, and any other one. -/
lemma drawMenuItem_row (screen : Screen) (menuItem : Item) (selected : Bool) (i j : ℤ) :
    drawMenuItem screen menuItem selected c.flags (c.row j) (c.row i) =
      if i = j then some ⟨itemText menuItem c.flags, selected⟩ else screen (c.row i) := by
  split_ifs with h
  · rw [h]
    exact Function.update_self _ _ _
  · exact Function.update_of_ne (c.row_ne h) _ _

/-- The loop that draws the items does not draw above the first one.

**Proof sketch.** Induction on the items. -/
lemma drawItems_of_lt (selected : ℤ) (menu : List Item) {i j : ℤ} (h : i < j) (screen : Screen) :
    c.drawItems selected menu j (c.row j) screen (c.row i) = screen (c.row i) := by
  induction menu generalizing j screen with
  | nil => rfl
  | cons menuItem menu ih =>
    rw [drawItems, row_succ, ih (by omega), drawMenuItem_row, if_neg h.ne]

/-- The loop draws each of the items at its height.

**Proof sketch.** Induction on the items; those behind one do not draw over it. -/
lemma drawItems_row (selected : ℤ) (menu : List Item) (j : ℤ) (screen : Screen) {k : ℕ}
    (h : k < menu.length) :
    c.drawItems selected menu j (c.row j) screen (c.row (j + k)) =
      some ⟨itemText menu[k] c.flags, decide (selected = j + k)⟩ := by
  induction menu generalizing j k screen with
  | nil => cases h
  | cons menuItem menu ih =>
    rw [drawItems, row_succ]
    cases k with
    | zero =>
      rw [Nat.cast_zero, add_zero, drawItems_of_lt _ _ _ (by omega), drawMenuItem_row, if_pos rfl]
      rfl
    | succ k =>
      have hk : j + ((k + 1 : ℕ) : ℤ) = j + 1 + k := by
        push_cast
        ring
      rw [hk, ih _ _ (Nat.lt_of_succ_lt_succ h)]
      rfl

/-- The menu shows its selection before the loop. -/
lemma showsSelected_drawFirst (h : 1 ≤ c.menu.length) : c.drawFirst.ShowsSelected c := by
  have hselected : 0 ≤ c.drawFirst.selected ∧ c.drawFirst.selected < c.menu.length := by
    unfold drawFirst
    dsimp only
    split_ifs with hout <;> omega
  refine ⟨hselected.1, hselected.2, fun i hi => ?_⟩
  have hfirst : (c.y.toNat : ℤ) = c.row 0 := by
    unfold row
    ring
  show c.drawItems _ c.menu 0 c.y.toNat _ (c.row i) = _
  rw [hfirst, ← zero_add (i : ℤ), drawItems_row c _ c.menu 0 _ hi, zero_add]
  rfl

/-- An item that is shown is still shown after an item has been drawn. -/
lemma drawMenuItem_shown {screen : Screen} {i : ℕ} (hi : i < c.menu.length) {b : Bool}
    (h : screen (c.row i) = some ⟨itemText c.menu[i] c.flags, b⟩) (j : ℤ) (selected : Bool) :
    drawMenuItem screen (c.item j) selected c.flags (c.row j) (c.row i) =
      some ⟨itemText c.menu[i] c.flags, if (i : ℤ) = j then selected else b⟩ := by
  rw [drawMenuItem_row]
  split_ifs with hj
  · rw [← hj, item_eq c hi]
  · exact h

/-- The second half of a turn highlights the selection, if it was highlighted, or if the item that
was selected before was and is drawn again. -/
lemma redrawItems_shown (s : State) {i : ℕ} (hi : i < c.menu.length) {b : Bool}
    (h : s.screen (c.row i) = some ⟨itemText c.menu[i] c.flags, b⟩)
    (hb : b = decide (s.selected = i) ∨
      s.redraw ∧ 0 ≤ s.prevSelected ∧ b = decide (s.prevSelected = i)) :
    (c.redrawItems s).screen (c.row i) =
      some ⟨itemText c.menu[i] c.flags, decide (s.selected = i)⟩ := by
  unfold redrawItems
  dsimp only
  split_ifs with hredraw hprev hnonneg
  · refine (drawMenuItem_shown c hi (drawMenuItem_shown c hi h _ false) _ true).trans ?_
    congr 2
    grind
  · refine (drawMenuItem_shown c hi h _ true).trans ?_
    congr 2
    grind
  · refine h.trans ?_
    congr 2
    grind
  · refine h.trans ?_
    congr 2
    grind

/-- The second half of a turn does not change the selection. -/
@[simp] lemma redrawItems_selected (s : State) : (c.redrawItems s).selected = s.selected := by
  unfold redrawItems
  split_ifs <;> rfl

/-- The second half of a turn shows the selection. -/
lemma showsSelected_redrawItems {s : State}
    (hselected : 0 ≤ s.selected ∧ s.selected < c.menu.length)
    (hshown : ∀ (i : ℕ) (hi : i < c.menu.length), ∃ b,
      s.screen (c.row i) = some ⟨itemText c.menu[i] c.flags, b⟩ ∧
        (b = decide (s.selected = i) ∨
          s.redraw ∧ 0 ≤ s.prevSelected ∧ b = decide (s.prevSelected = i))) :
    (c.redrawItems s).ShowsSelected c := by
  refine ⟨?_, ?_, fun i hi => ?_⟩
  · rw [redrawItems_selected]
    exact hselected.1
  · rw [redrawItems_selected]
    exact hselected.2
  · obtain ⟨b, hb, hdraw⟩ := hshown i hi
    rw [redrawItems_selected]
    exact c.redrawItems_shown s hi hb hdraw

/-- The second half of a turn does not end the call. -/
@[simp] lemma redrawItems_result (s : State) : (c.redrawItems s).result = s.result := by
  unfold redrawItems
  split_ifs <;> rfl

/-- The second half of a turn does not move the selection. -/
@[simp] lemma redrawItems_moves (s : State) : (c.redrawItems s).moves = s.moves := by
  unfold redrawItems
  split_ifs <;> rfl

/-- The second half of a turn does not change the flag. -/
@[simp] lemma redrawItems_curFlag (s : State) : (c.redrawItems s).curFlag = s.curFlag := by
  unfold redrawItems
  split_ifs <;> rfl

/-- What the first half of a turn can do: a move, the end of the call, or nothing. -/
lemma readFlag_cases (s : State) (flag : UInt8) :
    (s.curFlag ≠ flag ∧ flag &&& systemEventFlagEjectButton ≠ 0 ∧
      c.readFlag s flag =
        { s with
          prevSelected := s.selected
          selected := if s.selected + 1 = c.menu.length then 0 else s.selected + 1
          redraw := true
          moves := s.moves + 1
          curFlag := flag }) ∨
    (s.curFlag ≠ flag ∧ flag &&& systemEventFlagEjectButton = 0 ∧
      flag &&& systemEventFlagPowerButton ≠ 0 ∧
      c.readFlag s flag = { s with result := some s.selected }) ∨
    ((s.curFlag = flag ∨ flag &&& systemEventFlagEjectButton = 0) ∧
      c.readFlag s flag = { s with curFlag := flag }) := by
  by_cases hne : s.curFlag ≠ flag
  · by_cases heject : flag &&& systemEventFlagEjectButton ≠ 0
    · exact .inl ⟨hne, heject, by rw [readFlag, if_pos hne, if_pos heject]⟩
    · rw [not_ne_iff] at heject
      by_cases hpower : flag &&& systemEventFlagPowerButton ≠ 0
      · refine .inr (.inl ⟨hne, heject, hpower, ?_⟩)
        rw [readFlag, if_pos hne, if_neg (not_not.mpr heject), if_pos hpower]
      · refine .inr (.inr ⟨.inr heject, ?_⟩)
        rw [readFlag, if_pos hne, if_neg (not_not.mpr heject), if_neg hpower]
  · refine .inr (.inr ⟨.inl (not_ne_iff.mp hne), ?_⟩)
    rw [readFlag, if_neg hne, ← not_ne_iff.mp hne]

/-- The selection is an item in the middle of a turn as well. -/
lemma readFlag_selected {s : State} (hs : s.ShowsSelected c) (flag : UInt8) :
    0 ≤ (c.readFlag s flag).selected ∧ (c.readFlag s flag).selected < c.menu.length := by
  have hnonneg := hs.nonneg
  have hlt := hs.lt
  obtain ⟨-, -, h⟩ | ⟨-, -, -, h⟩ | ⟨-, h⟩ := c.readFlag_cases s flag
  · rw [h]
    dsimp only
    split_ifs <;> omega
  · rw [h]
    exact ⟨hnonneg, hlt⟩
  · rw [h]
    exact ⟨hnonneg, hlt⟩

/-- A turn that does not end the call. -/
lemma turn_of_result {s : State} {flag : UInt8} (h : (c.readFlag s flag).result = none) :
    c.turn s flag = c.redrawItems (c.readFlag s flag) := by
  rw [turn, h]

/-- A turn that ends the call. -/
lemma turn_of_result_some {s : State} {flag : UInt8} {selected : ℤ}
    (h : (c.readFlag s flag).result = some selected) : c.turn s flag = c.readFlag s flag := by
  rw [turn, h]

/-- **A turn.** A turn of a call that has not returned still shows the selection, which is what it
returns if it does.

**Proof sketch.** A move draws the item that was selected, and then the one that is. -/
lemma showsSelected_turn {s : State} (hs : s.ShowsSelected c) (hresult : s.result = none)
    (flag : UInt8) :
    (c.turn s flag).ShowsSelected c ∧
      ∀ selected, (c.turn s flag).result = some selected → selected = (c.turn s flag).selected := by
  have hselected := c.readFlag_selected hs flag
  obtain ⟨-, -, h⟩ | ⟨-, -, -, h⟩ | ⟨-, h⟩ := c.readFlag_cases s flag
  · rw [turn_of_result c (by rw [h, hresult])]
    refine ⟨c.showsSelected_redrawItems hselected fun i hi => ?_, fun selected hsome => ?_⟩
    · rw [h]
      exact ⟨_, hs.shown i hi, .inr ⟨rfl, hs.nonneg, rfl⟩⟩
    · rw [redrawItems_result, h, hresult] at hsome
      cases hsome
  · rw [turn_of_result_some c (by rw [h]), h]
    exact ⟨⟨hs.nonneg, hs.lt, hs.shown⟩, fun selected hsome => (Option.some.inj hsome).symm⟩
  · rw [turn_of_result c (by rw [h, hresult])]
    refine ⟨c.showsSelected_redrawItems hselected fun i hi => ?_, fun selected hsome => ?_⟩
    · rw [h]
      exact ⟨_, hs.shown i hi, .inl rfl⟩
    · rw [redrawItems_result, h, hresult] at hsome
      cases hsome

end Call

/-- A turn of a call that has not returned. -/
lemma eq_turn_of_next {c : Call} {s t : State} {flag : UInt8} (h : c.system.next s flag = some t) :
    s.result = none ∧ t = c.turn s flag := by
  simp only [Call.system, Option.ite_none_right_eq_some, Option.some.injEq] at h
  exact ⟨h.1, h.2.symm⟩

/-- **The highlighted item.** In every turn the selection is an item of the menu, whatever flag is
read. Behind every turn the menu shows its selection, and a call that has returned has returned it.

**Proof sketch.** The invariant rule, with what one turn preserves. -/
theorem showsSelected_of_reachable (c : Call) (hcount : 1 ≤ c.menu.length) {s : State}
    (h : c.system.Reachable s) :
    s.ShowsSelected c ∧ (∀ selected, s.result = some selected → selected = s.selected) ∧
      ∀ flag, 0 ≤ (c.readFlag s flag).selected ∧
        (c.readFlag s flag).selected < c.menu.length := by
  have hshows : s.ShowsSelected c ∧ ∀ selected, s.result = some selected →
      selected = s.selected := by
    refine h.invariant (I := fun s => s.ShowsSelected c ∧ ∀ selected, s.result = some selected →
      selected = s.selected) ?_ ?_
    · rintro _ rfl
      exact ⟨c.showsSelected_drawFirst hcount, fun selected hsome => by cases hsome⟩
    · intro s flag t hs _ hnext
      obtain ⟨hresult, rfl⟩ := eq_turn_of_next hnext
      exact c.showsSelected_turn hs.1 hresult flag
  exact ⟨hshows.1, hshows.2, c.readFlag_selected hshows.1⟩

/-! ## Presses -/

/-- How often EJECT is pressed, that is, how many of the flags have its bit and come behind one that
has not. -/
def risingEdges (prev : UInt8) : List UInt8 → ℕ
  | [] => 0
  | flag :: flags =>
    (if prev &&& systemEventFlagEjectButton = 0 ∧ flag &&& systemEventFlagEjectButton ≠ 0 then 1
      else 0) + risingEdges flag flags

/-- While EJECT is held from one flag to the next, no other bit changes. -/
def Steady (prev flag : UInt8) : Prop :=
  prev &&& systemEventFlagEjectButton ≠ 0 → flag &&& systemEventFlagEjectButton ≠ 0 → prev = flag

instance : DecidableRel Steady := fun prev flag => by
  unfold Steady
  infer_instance

/-- How often another bit changes while EJECT is held. -/
def disturbances (prev : UInt8) : List UInt8 → ℕ
  | [] => 0
  | flag :: flags => (if Steady prev flag then 0 else 1) + disturbances flag flags

/-- Nothing changes while EJECT is held exactly if the flags are steady. -/
lemma disturbances_eq_zero_iff (prev : UInt8) (flags : List UInt8) :
    disturbances prev flags = 0 ↔ List.IsChain Steady (prev :: flags) := by
  induction flags generalizing prev with
  | nil => exact iff_of_true rfl (.singleton prev)
  | cons flag flags ih =>
    rw [disturbances, List.isChain_cons_cons, ← ih, Nat.add_eq_zero_iff]
    simp

namespace Call

/-- How far one turn moves the selection: once if EJECT is pressed, and once if another bit changes
while it is held. -/
lemma turn_moves (c : Call) {s : State} (hresult : s.result = none) (flag : UInt8) :
    (c.turn s flag).moves =
        s.moves + (risingEdges s.curFlag [flag] + disturbances s.curFlag [flag]) ∧
      ((c.turn s flag).result = none → (c.turn s flag).curFlag = flag) := by
  simp only [risingEdges, disturbances, Nat.add_zero]
  obtain ⟨hne, heject, h⟩ | ⟨-, heject, -, h⟩ | ⟨hkept, h⟩ := c.readFlag_cases s flag
  · rw [turn_of_result c (by rw [h, hresult]), redrawItems_moves, redrawItems_curFlag, h]
    refine ⟨?_, fun _ => rfl⟩
    show s.moves + 1 = _
    by_cases hprev : s.curFlag &&& systemEventFlagEjectButton = 0
    · have hsteady : Steady s.curFlag flag := fun hheld => absurd hprev hheld
      rw [if_pos ⟨hprev, heject⟩, if_pos hsteady]
    · have hsteady : ¬ Steady s.curFlag flag := fun hsteady => hne (hsteady hprev heject)
      rw [if_neg fun hand => hprev hand.1, if_neg hsteady]
  · have hsteady : Steady s.curFlag flag := fun _ hflag => absurd heject hflag
    rw [turn_of_result_some c (by rw [h]), h]
    refine ⟨?_, fun hnone => by cases hnone⟩
    rw [if_neg fun hand => hand.2 heject, if_pos hsteady]
    rfl
  · have hquiet : ¬ (s.curFlag &&& systemEventFlagEjectButton = 0 ∧
          flag &&& systemEventFlagEjectButton ≠ 0) ∧ Steady s.curFlag flag := by
      rcases hkept with rfl | heject
      · exact ⟨fun hand => hand.2 hand.1, fun _ _ => rfl⟩
      · exact ⟨fun hand => hand.2 heject, fun _ hflag => absurd heject hflag⟩
    rw [turn_of_result c (by rw [h, hresult]), redrawItems_moves, redrawItems_curFlag, h]
    refine ⟨?_, fun _ => rfl⟩
    rw [if_neg hquiet.1, if_pos hquiet.2]
    rfl

/-- **The moves of a call.** The selection moves once for each press of EJECT, and once for each
change of another bit while EJECT is held.

**Proof sketch.** Induction on the flags: behind each turn that does not end the call, the flag that
is kept is the one that was read last. -/
lemma run_moves (c : Call) {s t : State} {flags : List UInt8}
    (hrun : c.system.run s flags = some t) :
    t.moves = s.moves + (risingEdges s.curFlag flags + disturbances s.curFlag flags) := by
  induction flags generalizing s with
  | nil =>
    obtain rfl := System.run_nil_iff.mp hrun
    rfl
  | cons flag flags ih =>
    obtain ⟨u, hnext, hrest⟩ := System.run_cons_iff.mp hrun
    obtain ⟨hresult, rfl⟩ := eq_turn_of_next hnext
    obtain ⟨hmoves, hcurFlag⟩ := c.turn_moves hresult flag
    simp only [risingEdges, disturbances, Nat.add_zero] at hmoves ⊢
    have hih := ih hrest
    rw [hmoves] at hih
    cases flags with
    | nil => exact hih
    | cons flag' flags =>
      -- the call goes on, so that it has not returned
      obtain ⟨v, hnext', -⟩ := System.run_cons_iff.mp hrest
      rw [hcurFlag (eq_turn_of_next hnext').1] at hih
      omega

end Call

/-- **One move for each press.** In a call that reads the given flags, the selection moves exactly
as often as EJECT is pressed if no other bit changes while EJECT is held, and only then. -/
theorem moves_eq_risingEdges_iff (c : Call) {flags : List UInt8} {s : State}
    (hrun : c.system.run c.drawFirst flags = some s) :
    s.moves = risingEdges 0 flags ↔ List.IsChain Steady flags := by
  have hmoves : s.moves = 0 + (risingEdges 0 flags + disturbances 0 flags) := c.run_moves hrun
  have hchain : List.IsChain Steady (0 :: flags) ↔ List.IsChain Steady flags := by
    cases flags with
    | nil => exact iff_of_true (.singleton 0) .nil
    | cons flag flags =>
      rw [List.isChain_cons_cons, and_iff_right]
      exact fun hheld => absurd rfl hheld
  rw [← hchain, ← disturbances_eq_zero_iff]
  omega

/-- The items of a menu, drawn at the top of a cleared screen. -/
def callOf (menu : List Item) (selected : ℤ) : Call where
  menu := menu
  selected := selected
  flags := 0
  y := 0
  screen _ := none

/-- A menu with the two items "Back" and "Load". -/
def backAndLoad : Call := callOf [⟨"Back", 0⟩, ⟨"Load", 0⟩] 0

/-- A press of EJECT that selects the second item. -/
theorem showsSelected_backAndLoad :
    ∃ s, backAndLoad.system.Reachable s ∧ s.selected = 1 ∧ s.ShowsSelected backAndLoad :=
  have hreachable : backAndLoad.system.Reachable _ := .of_run rfl [0x20] rfl
  ⟨_, hreachable, rfl, (showsSelected_of_reachable backAndLoad (by decide) hreachable).1⟩

/-- Two presses of EJECT, and then POWER. -/
theorem moves_backAndLoad :
    ∃ s, backAndLoad.system.run backAndLoad.drawFirst [0x20, 0x20, 0, 0x21, 0x40] = some s ∧
      (s.moves = risingEdges 0 [0x20, 0x20, 0, 0x21, 0x40] ↔
        List.IsChain Steady [0x20, 0x20, 0, 0x21, 0x40]) :=
  ⟨_, rfl, moves_eq_risingEdges_iff backAndLoad rfl⟩

/-- A timer signal while EJECT is held moves the selection once more. -/
theorem not_moves_eq_risingEdges :
    ¬ ∀ (c : Call) (flags : List UInt8) (s : State),
      c.system.run c.drawFirst flags = some s → s.moves = risingEdges 0 flags := by
  intro h
  have hmoves := h backAndLoad [0x20, 0x28] _ rfl
  exact absurd hmoves (by decide)

end DrawMenu

end RecoveryMenu

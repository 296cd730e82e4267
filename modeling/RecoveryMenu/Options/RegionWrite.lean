import Mathlib.Data.Finset.Card
import RecoveryMenu.Options.DebugSystemRegion

set_option relaxedAutoImplicit false
set_option autoImplicit false

/-!
# When the region repair writes (`ios_mcp/source/options/DebugSystemRegion.c`)

The option refuses to repair a console on which it finds several Wii U Menus. It counts them
only when the menu of the console's own region is missing, so on a console with that menu and
another one it offers the repair, and writes.

## Main definitions

* `RecoveryMenu.DebugSystemRegion.titlesOf`: the files on a console with the given menus.
* `RecoveryMenu.DebugSystemRegion.Run.WriteSafe`: a run writes the region of the only menu, and
  only if the user chose to.

## Main results

* `RecoveryMenu.DebugSystemRegion.searchMenus_eq`: what the search finds.
* `RecoveryMenu.DebugSystemRegion.writeSafe_iff`: the runs that write safely.

## References

* `ios_mcp/source/options/DebugSystemRegion.c`, lines 66-134 and 151-186.
-/

namespace RecoveryMenu

namespace DebugSystemRegion

open Menu RegionInfo

/-! ## What the search finds -/

/-- The regions other than that of the console whose menu can be opened. -/
def otherMenus (titles : String → Bool) (productAreaId : ℕ) (l : List ℕ) : List ℕ :=
  l.filter fun i => i ≠ productAreaId ∧ titles (menuPath i)

/-- A turn of the loop, by whether it finds a menu. -/
lemma searchTurn_eq (titles : String → Bool) (productAreaId : ℕ) (st : Search) (i : ℕ) :
    searchTurn titles productAreaId st i =
      { st with
        menuProductAreaId :=
          if i ≠ productAreaId ∧ titles (menuPath i) then (i : ℤ) else st.menuProductAreaId
        menuCount :=
          st.menuCount + if i ≠ productAreaId ∧ titles (menuPath i) then 1 else 0
        opened := st.opened ++ if i ≠ productAreaId then [menuPath i] else [] } := by
  by_cases hsame : i = productAreaId
  · simp [searchTurn, hsame]
  · by_cases hopen : titles (menuPath i)
    · simp [searchTurn, hsame, hopen]
    · simp [searchTurn, hsame, hopen]

/-- The last of a list with one more element at the front. -/
lemma getLast?_cons_getD (i : ℕ) (l : List ℕ) (id : ℤ) :
    ((i :: l).getLast?.map (Nat.cast (R := ℤ))).getD id =
      (l.getLast?.map (Nat.cast (R := ℤ))).getD i := by
  rw [List.getLast?_cons]
  cases l.getLast? <;> rfl

/-- The loop over other regions counts the menus it finds and keeps the last one.

**Proof sketch.** Induction on the regions left, for every state of the search. -/
lemma foldl_searchTurn_eq (titles : String → Bool) (productAreaId : ℕ) (l : List ℕ)
    (st : Search) :
    l.foldl (searchTurn titles productAreaId) st =
      { st with
        menuProductAreaId := ((otherMenus titles productAreaId l).getLast?.map Nat.cast).getD
          st.menuProductAreaId
        menuCount := st.menuCount + (otherMenus titles productAreaId l).length
        opened := st.opened ++ (l.filter (· ≠ productAreaId)).map fun i : ℕ => menuPath i } := by
  induction l generalizing st with
  | nil => simp [otherMenus]
  | cons i l ih =>
    rw [List.foldl_cons, ih, searchTurn_eq]
    by_cases hsame : i = productAreaId
    · simp [otherMenus, hsame]
    · by_cases hopen : titles (menuPath i)
      · have hcons : otherMenus titles productAreaId (i :: l) =
            i :: otherMenus titles productAreaId l :=
          List.filter_cons_of_pos (by simp [hsame, hopen])
        rw [hcons, getLast?_cons_getD]
        simp only [hsame, hopen, ne_eq, not_false_eq_true, and_self, if_true, List.length_cons,
          decide_true, List.filter_cons_of_pos, List.map_cons, List.append_assoc,
          List.singleton_append]
        rw [Nat.add_assoc, Nat.add_comm 1]
      · simp [otherMenus, hsame, hopen]

/-- What the search finds. -/
lemma searchMenus_eq (titles : String → Bool) (productAreaId : ℕ) :
    searchMenus titles productAreaId =
      if titles (menuPath productAreaId) then ⟨true, productAreaId, 1, [menuPath productAreaId]⟩
      else
        let others := otherMenus titles productAreaId (List.range regionTbl.length)
        ⟨false, (others.getLast?.map Nat.cast).getD (-1), others.length,
          menuPath productAreaId ::
            ((List.range regionTbl.length).filter (· ≠ productAreaId)).map
              fun i : ℕ => menuPath i⟩ := by
  rw [searchMenus]
  split_ifs
  · rfl
  · simp only [foldl_searchTurn_eq, Nat.zero_add, List.singleton_append]

/-! ## The installed menus -/

/-- The files that can be opened on a console with the menus of the given regions. -/
def titlesOf (installed : Finset (Fin regionTbl.length)) (path : String) : Bool :=
  decide (∃ i ∈ installed, path = menuPath (i : ℕ))

/-- The character of a region in its path. -/
lemma menuPath_getElem? (n : ℕ) : (menuPath n).toList[43]? = some (Char.ofNat (n + 48)) := by
  have hlength :
      43 < "/vol/storage_mlc01/sys/title/00050010/10040x00/code/app.xml".toList.length := by
    decide
  have hchar : ((n : ℤ) + 48).toNat = n + 48 := by omega
  rw [menuPath, String.toList_ofList, List.getElem?_set_self hlength, hchar]

/-- The code of a character below the surrogates. -/
lemma toNat_charOfNat {n : ℕ} (h : n < 0xd800) : (Char.ofNat n).toNat = n := by
  rw [Char.ofNat, dif_pos (Or.inl h)]
  rfl

/-- Two regions below 32 have different paths. -/
lemma menuPath_inj {n m : ℕ} (hn : n < 32) (hm : m < 32) (h : menuPath n = menuPath m) :
    n = m := by
  have hchar : Char.ofNat (n + 48) = Char.ofNat (m + 48) := by
    apply Option.some_injective
    rw [← menuPath_getElem?, ← menuPath_getElem?, h]
  have hnat := congrArg Char.toNat hchar
  rw [toNat_charOfNat (by omega), toNat_charOfNat (by omega)] at hnat
  omega

/-- The menu of a region can be opened if it is installed. -/
lemma titlesOf_menuPath (installed : Finset (Fin regionTbl.length)) {n : ℕ} (hn : n < 32) :
    titlesOf installed (menuPath n) = true ↔ ∃ i ∈ installed, (i : ℕ) = n := by
  rw [titlesOf, decide_eq_true_eq]
  constructor
  · rintro ⟨i, hi, hpath⟩
    have hlt : (i : ℕ) < 7 := i.isLt
    exact ⟨i, hi, (menuPath_inj hn (by omega) hpath).symm⟩
  · rintro ⟨i, hi, rfl⟩
    exact ⟨i, hi, rfl⟩

/-- A console with the menu of its own region: the search does not look further. -/
lemma searchMenus_of_installed {installed : Finset (Fin regionTbl.length)}
    {i : Fin regionTbl.length} (hi : i ∈ installed) :
    searchMenus (titlesOf installed) i = ⟨true, (i : ℕ), 1, [menuPath (i : ℕ)]⟩ := by
  have hlt : (i : ℕ) < 7 := i.isLt
  rw [searchMenus_eq, if_pos ((titlesOf_menuPath installed (by omega)).mpr ⟨i, hi, rfl⟩)]

/-- A console without the menu of its own region: if the search counts one menu, it is the only
one, and the search has its region.

**Proof sketch.** The regions the loop finds are the installed ones, so if it finds one then
every installed region is that one. -/
lemma searchMenus_of_not_installed {installed : Finset (Fin regionTbl.length)} {id : ℕ}
    (hid : id < 32) (hnot : ∀ i ∈ installed, (i : ℕ) ≠ id)
    (hcount : (searchMenus (titlesOf installed) id).menuCount = 1) :
    ∃ i, installed = {i} ∧ (searchMenus (titlesOf installed) id).menuProductAreaId = (i : ℕ) := by
  have hclosed : ¬ titlesOf installed (menuPath id) = true := by
    rw [titlesOf_menuPath installed hid]
    rintro ⟨i, hi, h⟩
    exact hnot i hi h
  rw [searchMenus_eq, if_neg hclosed] at hcount ⊢
  obtain ⟨n, hothers⟩ := List.length_eq_one_iff.mp hcount
  have hmem (m : ℕ) (hm : m < regionTbl.length) :
      m = n ↔ m ≠ id ∧ ∃ i ∈ installed, (i : ℕ) = m := by
    have hlt : m < 32 := by
      have : m < 7 := hm
      omega
    rw [← titlesOf_menuPath installed hlt, ← List.mem_singleton, ← hothers, otherMenus,
      List.mem_filter, List.mem_range, decide_eq_true_eq]
    exact and_iff_right hm
  have hn : n < regionTbl.length := by
    have : n ∈ otherMenus (titlesOf installed) id (List.range regionTbl.length) := by
      rw [hothers]
      exact List.mem_singleton_self n
    exact List.mem_range.mp (List.mem_filter.mp this).1
  refine ⟨⟨n, hn⟩, ?_, ?_⟩
  · ext i
    rw [Finset.mem_singleton, Fin.ext_iff, hmem i i.isLt]
    constructor
    · intro hi
      exact ⟨hnot i hi, i, hi, rfl⟩
    · rintro ⟨-, j, hj, hji⟩
      rwa [← Fin.ext hji]
  · rw [hothers]
    rfl

/-! ## When a run writes -/

/-- What a run writes, and when.

**Proof sketch.** `MCP_SetSysProdSettings` is called by `repair` only, after the tests of
`checkRegion`. -/
lemma set_mem_checkRegion_iff {r : Results} {search : Search} {gameRegion : UInt32}
    {s new : MCPSysProdSettings} {res : ℤ} :
    Event.call (.setSysProdSettings new res) ∈ (checkRegion r search gameRegion s).events ↔
      ¬ (search.menuMatchesRegion ∧ gameRegion &&& regionBit search.menuProductAreaId ≠ 0) ∧
      search.menuCount = 1 ∧ 0 ≤ search.menuProductAreaId ∧
      r.selected ≠ 0 ∧ 0 ≤ r.mcpHandle ∧ 0 ≤ r.get ∧ res = r.set ∧
      new = { s with
        productArea := regionBit search.menuProductAreaId
        gameRegion := regionBit search.menuProductAreaId } := by
  simp only [checkRegion]
  split_ifs with hcorrect hnone hmany hcancel
  · simp [hcorrect]
  · simp only [List.mem_singleton, reduceCtorEq, false_iff]
    omega
  · simp only [List.mem_singleton, reduceCtorEq, false_iff]
    omega
  · simp [set_not_mem_offerRepair, hcancel]
  · have hone : search.menuCount = 1 ∧ 0 ≤ search.menuProductAreaId := by omega
    simp only [List.mem_append, set_not_mem_offerRepair, false_or, repair]
    split_ifs with hhandle hget hset
    · simp [not_le.mpr hhandle]
    · simp [not_le.mpr hget]
    all_goals simp [hcorrect, hone, hcancel, not_lt.mp hhandle, not_lt.mp hget, and_comm]

/-- Every write of the run is one of the region of the only installed menu to both fields, after
the user chose to fix the region; with several installed menus nothing is written. -/
structure Run.WriteSafe (installed : Finset (Fin regionTbl.length)) (selected : ℕ)
    (run : Run) : Prop where
  only : ∀ new res, Event.call (.setSysProdSettings new res) ∈ run.events →
    ∃ i, installed = {i} ∧ selected ≠ 0 ∧
      new.productArea = regionBit (i : ℕ) ∧ new.gameRegion = regionBit (i : ℕ)
  several : 1 < installed.card → ∀ new res, Event.call (.setSysProdSettings new res) ∉ run.events

/-- The console has the menu of its own region and another one, does not list that region among
those of its games, and nothing stops the repair before the write. -/
structure OwnMenuAmongSeveral (installed : Finset (Fin regionTbl.length)) (r : Results)
    (s : MCPSysProdSettings) : Prop where
  regionHandle : 0 ≤ r.regionHandle
  regionGet : 0 ≤ r.regionGet
  productArea : s.productArea ≠ 0
  own : ∃ i ∈ installed, (i : ℕ) = ctz s.productArea
  several : 1 < installed.card
  mismatch : s.gameRegion &&& regionBit (ctz s.productArea) = 0
  selected : r.selected ≠ 0
  mcpHandle : 0 ≤ r.mcpHandle
  get : 0 ≤ r.get

/-- A run that cannot read the region of the console writes nothing. -/
lemma set_not_mem_of_error {titles : String → Bool} {r : Results} {s : MCPSysProdSettings}
    (h : ¬ (0 ≤ r.regionHandle ∧ 0 ≤ r.regionGet ∧ s.productArea ≠ 0))
    (new : MCPSysProdSettings) (res : ℤ) :
    Event.call (.setSysProdSettings new res) ∉ (optionDebugSystemRegion titles r s).events := by
  simp only [optionDebugSystemRegion, getRegionInfo]
  split_ifs with hhandle hget harea
  · simp
  · simp
  · simp
  · exact absurd ⟨not_lt.mp hhandle, not_lt.mp hget, harea⟩ h

/-- A run that reads the region of the console writes what `checkRegion` does. -/
lemma set_mem_iff_checkRegion {titles : String → Bool} {r : Results} {s : MCPSysProdSettings}
    (hhandle : 0 ≤ r.regionHandle) (hget : 0 ≤ r.regionGet) (harea : s.productArea ≠ 0)
    {new : MCPSysProdSettings} {res : ℤ} :
    Event.call (.setSysProdSettings new res) ∈ (optionDebugSystemRegion titles r s).events ↔
      Event.call (.setSysProdSettings new res) ∈
        (checkRegion r (searchMenus titles (ctz s.productArea)) s.gameRegion s).events := by
  simp only [optionDebugSystemRegion, getRegionInfo, if_neg (not_lt.mpr hhandle),
    if_neg (not_lt.mpr hget), if_neg harea]
  rw [List.mem_append, or_iff_right]
  exact fun hshown => not_isRepair_shown hshown trivial

/-- A run that writes without the own menu among several writes the region of the only installed
menu, and the user has chosen so.

**Proof sketch.** If the menu of the console's own region is installed, it is the only one. If it
is not, the search counts all menus (`searchMenus_of_not_installed`). -/
lemma only_of_not_ownMenuAmongSeveral {installed : Finset (Fin regionTbl.length)} {r : Results}
    {s new : MCPSysProdSettings} {res : ℤ} (hnot : ¬ OwnMenuAmongSeveral installed r s)
    (hset : Event.call (.setSysProdSettings new res) ∈
      (optionDebugSystemRegion (titlesOf installed) r s).events) :
    ∃ i, installed = {i} ∧ r.selected ≠ 0 ∧
      new.productArea = regionBit (i : ℕ) ∧ new.gameRegion = regionBit (i : ℕ) := by
  by_cases hread : 0 ≤ r.regionHandle ∧ 0 ≤ r.regionGet ∧ s.productArea ≠ 0
  swap
  · exact absurd hset (set_not_mem_of_error hread new res)
  obtain ⟨hhandle, hget, harea⟩ := hread
  rw [set_mem_iff_checkRegion hhandle hget harea, set_mem_checkRegion_iff] at hset
  obtain ⟨hmismatch, hcount, -, hselected, hmcp, hget', -, rfl⟩ := hset
  by_cases hown : ∃ i ∈ installed, (i : ℕ) = ctz s.productArea
  · obtain ⟨i, hi, hid⟩ := hown
    rw [← hid, searchMenus_of_installed hi] at hmismatch ⊢
    refine ⟨i, ?_, hselected, rfl, rfl⟩
    have hsingle : ¬ 1 < installed.card := by
      intro hseveral
      refine hnot ⟨hhandle, hget, harea, ⟨i, hi, hid⟩, hseveral, ?_, hselected, hmcp, hget'⟩
      rw [← hid]
      exact not_not.mp fun h => hmismatch ⟨rfl, h⟩
    exact Finset.eq_singleton_iff_unique_mem.mpr
      ⟨hi, fun j hj => Finset.card_le_one.mp (not_lt.mp hsingle) j hj i hi⟩
  · push Not at hown
    obtain ⟨i, hone, hid⟩ := searchMenus_of_not_installed (ctz_lt harea) hown hcount
    exact ⟨i, hone, hselected, by rw [hid], by rw [hid]⟩

/-- **When the repair writes safely.** For all region fields, all installed menus and all
results of the calls of a run: the run writes nothing but the region of the only installed
menu, and only if the user chose so, exactly if it is not the case that the console has the menu
of its own region and another one, its own region is missing in `game_region`, and the user and
the calls let the repair pass.

**Proof sketch.** If the menu of the console's own region is installed, the search counts one
menu (`searchMenus_of_installed`), so the run writes although another menu may be there. In all
other cases it writes the only one (`only_of_not_ownMenuAmongSeveral`). -/
theorem writeSafe_iff (installed : Finset (Fin regionTbl.length)) (r : Results)
    (s : MCPSysProdSettings) :
    (optionDebugSystemRegion (titlesOf installed) r s).WriteSafe installed r.selected ↔
      ¬ OwnMenuAmongSeveral installed r s := by
  constructor
  · -- with several menus, that of the console among them, the settings are written
    intro hsafe hown
    obtain ⟨i, hi, hid⟩ := hown.own
    refine hsafe.several hown.several
      { s with productArea := regionBit (i : ℕ), gameRegion := regionBit (i : ℕ) } r.set ?_
    rw [set_mem_iff_checkRegion hown.regionHandle hown.regionGet hown.productArea,
      set_mem_checkRegion_iff, ← hid, searchMenus_of_installed hi]
    refine ⟨fun h => h.2 ?_, rfl, Int.natCast_nonneg _, hown.selected, hown.mcpHandle, hown.get,
      rfl, rfl⟩
    rw [hid]
    exact hown.mismatch
  · intro hnot
    refine ⟨fun new res => only_of_not_ownMenuAmongSeveral hnot, fun hseveral new res hset => ?_⟩
    obtain ⟨i, hone, -⟩ := only_of_not_ownMenuAmongSeveral hnot hset
    rw [hone, Finset.card_singleton] at hseveral
    exact lt_irrefl 1 hseveral

/-- A console of region 1 with the menus of the regions 1 and 2 whose games are those of region
2: the user chooses to fix the region, and it is written. -/
theorem not_writeSafe :
    ¬ ∀ (installed : Finset (Fin regionTbl.length)) (r : Results) (s : MCPSysProdSettings),
      (optionDebugSystemRegion (titlesOf installed) r s).WriteSafe installed r.selected := by
  intro h
  have hsafe := h {⟨1, by decide⟩, ⟨2, by decide⟩} ⟨0, 0, 1, 0, 0, 0⟩
    { mismatched with gameRegion := 0x04 }
  refine hsafe.several (by decide)
    { mismatched with productArea := 0x02, gameRegion := 0x02 } 0 ?_
  decide +kernel

end DebugSystemRegion

end RecoveryMenu

import RecoveryMenu.Menu

set_option relaxedAutoImplicit false
set_option autoImplicit false

/-!
# Repairing the system region (`ios_mcp/source/options/DebugSystemRegion.c`)

The option compares the region of the console with the Wii U Menu that is installed, one title
for each region. Where they differ and exactly one other menu is installed it offers to set both
region fields of the production settings to the region of that menu.

A run returns what it showed and called, in order, and the production settings after it. Handles
that are closed are left out.

## Main definitions

* `RecoveryMenu.DebugSystemRegion.searchMenus`: the search for an installed menu.
* `RecoveryMenu.DebugSystemRegion.optionDebugSystemRegion`: a run of the option.

## Main results

* `RecoveryMenu.DebugSystemRegion.repair_converges`: a repair changes the two region fields
  only, and the next run finds nothing to repair.

## References

* `ios_mcp/source/options/DebugSystemRegion.c`.
-/

namespace RecoveryMenu

namespace DebugSystemRegion

open Menu RegionInfo

/-! ## The model -/

/-- A call of the option. -/
inductive Call
  /-- `FSA_OpenFile(fsaHandle, path, "r", ..)`. -/
  | openFile (path : String)
  /-- `MCP_SetSysProdSettings` and its result. -/
  | setSysProdSettings (settings : MCPSysProdSettings) (res : ℤ)
  deriving DecidableEq, Repr

/-- The results of the calls made in a run, and the item the user selects in the menu. -/
structure Results where
  /-- `IOS_Open` and `MCP_GetSysProdSettings` in `getRegionInfo`. -/
  regionHandle : ℤ
  regionGet : ℤ
  selected : ℕ
  mcpHandle : ℤ
  get : ℤ
  set : ℤ

/-- What a run showed and called, and the production settings after it. -/
structure Run where
  events : List (Event Call)
  settings : MCPSysProdSettings

/-- `path`, with the character of a region at index 43. -/
def menuPath (id : ℤ) : String :=
  String.ofList ("/vol/storage_mlc01/sys/title/00050010/10040x00/code/app.xml".toList.set 43
    (Char.ofNat (id + 48).toNat))

/-- The variables of the search for an installed menu, and the files it tried to open. -/
structure Search where
  menuMatchesRegion : Bool
  menuProductAreaId : ℤ
  menuCount : ℕ
  opened : List String
  deriving DecidableEq, Repr

/-- A turn of the loop over the other regions, for region `i`. -/
def searchTurn (titles : String → Bool) (productAreaId : ℕ) (st : Search) (i : ℕ) : Search :=
  if i = productAreaId then st
  else
    let st := { st with opened := st.opened ++ [menuPath i] }
    if titles (menuPath i) then
      { st with menuCount := st.menuCount + 1, menuProductAreaId := i }
    else st

/-- The search for an installed menu, where `titles` are the files that can be opened: first of
the region of the console, and then of all other regions. -/
def searchMenus (titles : String → Bool) (productAreaId : ℕ) : Search :=
  let path := menuPath productAreaId
  if titles path then ⟨true, productAreaId, 1, [path]⟩
  else (List.range regionTbl.length).foldl (searchTurn titles productAreaId) ⟨false, -1, 0, [path]⟩

/-- The two region codes, as shown first. -/
def showRegions (productAreaId : ℕ) (gameRegion : UInt32) : List (Event Call) :=
  [if productAreaId < regionTbl.length then
      .print "System region code:   %s" [.region productAreaId]
    else .print "System region code:   %d" [.int productAreaId],
    .print "Game region code:     %s %s %s %s %s %s" (gameRegionArgs gameRegion)]

/-- `menu_region_str`. -/
def menuRegionStr (search : Search) : Arg :=
  if search.menuCount = 0 ∨ search.menuProductAreaId < 0 then .str "NONE"
  else if search.menuCount > 1 then .str "MANY"
  else .region search.menuProductAreaId

/-- The offer to repair the region, shown below what does not match. -/
def offerRepair (search : Search) (isInGameRegion : Prop) [Decidable isInGameRegion] :
    List (Event Call) :=
  (if search.menuMatchesRegion then []
    else [.print "The %s region does not match the installed Wii U Menu." [.str "system"]]) ++
  (if isInGameRegion then []
    else [.print "The %s region does not match the installed Wii U Menu." [.str "game"]]) ++
  [.print "Repair the system by setting the region code to %s?" [menuRegionStr search],
    .drawMenu "Debug System Region" ["Cancel", "Fix Region"]]

/-- The repair itself, once the user has chosen it. -/
def repair (r : Results) (search : Search) (settings : MCPSysProdSettings) : Run :=
  if r.mcpHandle < 0 then
    ⟨[.printError "IOS_Open(\"/dev/mcp\") failed: %x" [.int r.mcpHandle]], settings⟩
  else if r.get < 0 then
    ⟨[.printError "MCP_GetSysProdSettings() failed: %x" [.int r.get]], settings⟩
  else
    let new := { settings with
      productArea := regionBit search.menuProductAreaId
      gameRegion := regionBit search.menuProductAreaId }
    if r.set < 0 then
      ⟨[.call (.setSysProdSettings new r.set),
        .printError "MCP_SetSysProdSettings() failed: %x" [.int r.set]], settings⟩
    else
      ⟨[.call (.setSysProdSettings new r.set),
        .print "System region set to %s successfully." [menuRegionStr search], .waitButtonInput],
        new⟩

/-- The rest of the option, once the menus have been searched. -/
def checkRegion (r : Results) (search : Search) (gameRegion : UInt32)
    (settings : MCPSysProdSettings) : Run :=
  let isInGameRegion := gameRegion &&& regionBit search.menuProductAreaId ≠ 0
  if search.menuMatchesRegion ∧ isInGameRegion then
    ⟨[.print "The system region appears to be set correctly." [], .waitButtonInput], settings⟩
  else if search.menuCount = 0 ∨ search.menuProductAreaId < 0 then
    ⟨[.printError "Could not find a Wii U Menu title installed on this system." []], settings⟩
  else if search.menuCount > 1 then
    ⟨[.printError "Multiple Wii U Menus were found. Someone dun goofed..." []], settings⟩
  else if r.selected = 0 then ⟨offerRepair search isInGameRegion, settings⟩
  else
    let done := repair r search settings
    ⟨offerRepair search isInGameRegion ++ done.events, done.settings⟩

/-- `option_DebugSystemRegion()`, on a console with the given titles and production settings. -/
def optionDebugSystemRegion (titles : String → Bool) (r : Results)
    (settings : MCPSysProdSettings) : Run :=
  match getRegionInfo r.regionHandle r.regionGet settings with
  | .error res =>
    ⟨[.drawTopBar "Debug System Region",
      .printError "Failed to get the system region code: %x" [.int res]], settings⟩
  | .ok (productAreaId, gameRegion) =>
    let search := searchMenus titles productAreaId
    let shown := .drawTopBar "Debug System Region" :: showRegions productAreaId gameRegion ++
      search.opened.map (fun path => .call (.openFile path)) ++
      [.print "Installed Wii U Menu:" [], .print "%s" [menuRegionStr search]]
    let done := checkRegion r search gameRegion settings
    ⟨shown ++ done.events, done.settings⟩

/-- The index of the character of the region in the path. -/
example : menuPath 2 = "/vol/storage_mlc01/sys/title/00050010/10040200/code/app.xml" := by
  decide

/-! ## What a repair writes -/

/-- The run called `MCP_SetSysProdSettings` successfully. -/
def Run.Repaired (run : Run) : Prop :=
  ∃ new res, .call (.setSysProdSettings new res) ∈ run.events ∧ 0 ≤ res

/-- The event offers or performs a repair. -/
def IsRepair : Event Call → Prop
  | .print format _ => format = "Repair the system by setting the region code to %s?"
  | .drawMenu _ _ => True
  | .call (.setSysProdSettings _ _) => True
  | _ => False

/-- The run reports the region as set correctly, and neither offers nor performs a repair. -/
structure Run.ReportsCorrect (run : Run) : Prop where
  reported : Event.print "The system region appears to be set correctly." [] ∈ run.events
  noRepair : ∀ e ∈ run.events, ¬ IsRepair e

/-- A menu that was counted is a title that can be opened, of a region with a bit. -/
def Search.Found (titles : String → Bool) (st : Search) : Prop :=
  st.menuCount ≠ 0 → ∃ n : ℕ, n < 32 ∧ st.menuProductAreaId = n ∧ titles (menuPath n)

/-- Every menu the search counts was found.

**Proof sketch.** For the region of the console this is the first test; for the others it is
preserved by every turn of the loop. -/
lemma searchMenus_found (titles : String → Bool) {productAreaId : ℕ} (h : productAreaId < 32) :
    (searchMenus titles productAreaId).Found titles := by
  have hloop (l : List ℕ) (st : Search) (hl : ∀ i ∈ l, i < 32) (hst : st.Found titles) :
      (l.foldl (searchTurn titles productAreaId) st).Found titles := by
    induction l generalizing st with
    | nil => exact hst
    | cons i l ih =>
      refine ih _ (fun j hj => hl j (List.mem_cons_of_mem _ hj)) ?_
      simp only [searchTurn]
      split_ifs with hsame hopen
      · exact hst
      · exact fun _ => ⟨i, hl i List.mem_cons_self, rfl, hopen⟩
      · exact hst
  rw [searchMenus]
  split_ifs with hopen
  · exact fun _ => ⟨productAreaId, h, rfl, hopen⟩
  · refine hloop _ _ (fun i hi => ?_) (fun h => absurd rfl h)
    have : i < regionTbl.length := List.mem_range.mp hi
    simp only [regionTbl, List.length_cons, List.length_nil] at this
    omega

/-- Nothing shown before the search is a repair. -/
lemma not_isRepair_shown {productAreaId : ℕ} {gameRegion : UInt32} {opened : List String}
    {menuRegion : Arg} {e : Event Call}
    (he : e ∈ .drawTopBar "Debug System Region" :: showRegions productAreaId gameRegion ++
      opened.map (fun path => .call (.openFile path)) ++
      [.print "Installed Wii U Menu:" [], .print "%s" [menuRegion]]) : ¬ IsRepair e := by
  simp only [showRegions, List.mem_append, List.mem_cons, List.not_mem_nil, or_false,
    List.mem_map] at he
  rcases he with ((rfl | rfl | rfl) | ⟨path, -, rfl⟩) | rfl | rfl
  · simp [IsRepair]
  · split_ifs <;> simp [IsRepair]
  all_goals simp [IsRepair]

/-- The offer does not write anything. -/
lemma set_not_mem_offerRepair (search : Search) (p : Prop) [Decidable p]
    (new : MCPSysProdSettings) (res : ℤ) :
    Event.call (.setSysProdSettings new res) ∉ offerRepair search p := by
  simp only [offerRepair]
  split_ifs <;> simp

/-- A repair that writes successfully leaves the region of the menu in both fields. -/
lemma settings_of_set {r : Results} {search : Search} {s new : MCPSysProdSettings} {res : ℤ}
    (h : .call (.setSysProdSettings new res) ∈ (repair r search s).events) (hres : 0 ≤ res) :
    (repair r search s).settings = { s with
      productArea := regionBit search.menuProductAreaId
      gameRegion := regionBit search.menuProductAreaId } := by
  simp only [repair] at h ⊢
  split_ifs at h ⊢ with hhandle hget hset
  · simp at h
  · simp at h
  · simp only [List.mem_cons, Event.call.injEq, Call.setSysProdSettings.injEq, reduceCtorEq,
      List.not_mem_nil, or_false] at h
    exact absurd (h.2 ▸ hset) (not_lt.mpr hres)
  · rfl

/-- A successful write comes after a menu was found. -/
lemma menuCount_ne_zero_of_set {r : Results} {search : Search} {gameRegion : UInt32}
    {s new : MCPSysProdSettings} {res : ℤ}
    (h : .call (.setSysProdSettings new res) ∈ (checkRegion r search gameRegion s).events)
    (hres : 0 ≤ res) :
    search.menuCount ≠ 0 ∧ (checkRegion r search gameRegion s).settings = { s with
      productArea := regionBit search.menuProductAreaId
      gameRegion := regionBit search.menuProductAreaId } := by
  simp only [checkRegion] at h ⊢
  split_ifs at h ⊢ with hcorrect hnone hmany hcancel
  · simp at h
  · simp at h
  · simp at h
  · exact absurd h (set_not_mem_offerRepair _ _ _ _)
  · rcases List.mem_append.mp h with h | h
    · exact absurd h (set_not_mem_offerRepair _ _ _ _)
    · exact ⟨fun hzero => hnone (.inl hzero), settings_of_set h hres⟩

/-- **What a repair writes.** A run with a successful `MCP_SetSysProdSettings` leaves the bit of
an installed menu in both region fields, and all other fields as they were. -/
lemma settings_of_repaired {titles : String → Bool} {r : Results} {s : MCPSysProdSettings}
    (h : (optionDebugSystemRegion titles r s).Repaired) :
    ∃ n : ℕ, n < 32 ∧ titles (menuPath n) ∧ (optionDebugSystemRegion titles r s).settings =
      { s with productArea := regionBit n, gameRegion := regionBit n } := by
  obtain ⟨new, res, hmem, hres⟩ := h
  simp only [optionDebugSystemRegion, getRegionInfo] at hmem ⊢
  split_ifs at hmem ⊢ with hhandle hget harea
  · simp at hmem
  · simp at hmem
  · simp at hmem
  · rcases List.mem_append.mp hmem with hmem | hmem
    · exact absurd trivial (not_isRepair_shown hmem)
    · obtain ⟨hcount, hsettings⟩ := menuCount_ne_zero_of_set hmem hres
      obtain ⟨n, hn, hid, htitle⟩ := searchMenus_found titles (ctz_lt harea) hcount
      rw [hid] at hsettings
      exact ⟨n, hn, htitle, hsettings⟩

/-- **The repair converges.** For all production settings, all installed titles and all results
of the calls of two runs of the option, where the first one repairs the system and the second
one gets the settings: the repair kept all fields but the two region fields, and the second run
reports the region as set correctly and neither offers nor performs another repair.

**Proof sketch.** The repair writes the bit of an installed menu (`settings_of_repaired`). The
second run reads the index of that menu back from the bit (`ctz_regionBit`), so its first test
finds the menu, and the game region has its bit. -/
theorem repair_converges (titles : String → Bool) (r r' : Results) (s : MCPSysProdSettings)
    (hrepaired : (optionDebugSystemRegion titles r s).Repaired)
    (hopen : 0 ≤ r'.regionHandle) (hget : 0 ≤ r'.regionGet) :
    let t := (optionDebugSystemRegion titles r s).settings
    t = { s with productArea := t.productArea, gameRegion := t.gameRegion } ∧
      (optionDebugSystemRegion titles r' t).ReportsCorrect := by
  obtain ⟨n, hn, htitle, hsettings⟩ := settings_of_repaired hrepaired
  have hinfo : getRegionInfo r'.regionHandle r'.regionGet
      { s with productArea := regionBit n, gameRegion := regionBit n } = .ok (n, regionBit n) := by
    rw [getRegionInfo, if_neg (not_lt.mpr hopen), if_neg (not_lt.mpr hget),
      if_neg (regionBit_ne_zero hn), ctz_regionBit hn]
  have hsearch : searchMenus titles n = ⟨true, n, 1, [menuPath n]⟩ := by
    rw [searchMenus, if_pos htitle]
  have hbit : regionBit n &&& regionBit n ≠ 0 := by
    rw [UInt32.and_self]
    exact regionBit_ne_zero hn
  have hcheck (t : MCPSysProdSettings) :
      checkRegion r' ⟨true, n, 1, [menuPath n]⟩ (regionBit n) t =
        ⟨[.print "The system region appears to be set correctly." [], .waitButtonInput], t⟩ :=
    if_pos ⟨rfl, hbit⟩
  rw [hsettings]
  refine ⟨rfl, ?_⟩
  simp only [optionDebugSystemRegion, hinfo, hsearch, hcheck]
  refine ⟨List.mem_append_right _ List.mem_cons_self, fun e he => ?_⟩
  rcases List.mem_append.mp he with he | he
  · exact not_isRepair_shown he
  · simp only [List.mem_cons, List.not_mem_nil, or_false] at he
    rcases he with rfl | rfl
    all_goals simp [IsRepair]

/-- A console of region 1 whose only menu is that of region 2. -/
def mismatched : MCPSysProdSettings where
  productArea := 0x02
  eepromVersion := 1
  pad1 := #v[0, 0]
  gameRegion := 0x77
  unknown1 := #v[0, 0, 0, 0]
  ntscPal := #v[0, 0, 0, 0, 0]
  wifi5ghzCountryCode := #v[0, 0, 0, 0]
  wifi5ghzCountryCodeRevision := 0
  codeId := #v[0, 0, 0, 0, 0, 0, 0, 0]
  serialId := #v[0, 0, 0, 0, 0, 0, 0, 0, 0, 0, 0, 0]
  unknown2 := #v[0, 0, 0, 0]
  modelNumber := #v[0, 0, 0, 0, 0, 0, 0, 0, 0, 0, 0, 0, 0, 0, 0, 0]
  version := 5

/-- The repair of `mismatched` sets region 2, and the run after it finds it correct. -/
theorem repair_mismatched :
    (optionDebugSystemRegion (· == menuPath 2) ⟨0, 0, 1, 0, 0, 0⟩ mismatched).Repaired ∧
      (optionDebugSystemRegion (· == menuPath 2) ⟨0, 0, 1, 0, 0, 0⟩
        (optionDebugSystemRegion (· == menuPath 2) ⟨0, 0, 1, 0, 0, 0⟩
          mismatched).settings).ReportsCorrect := by
  have hrepaired :
      (optionDebugSystemRegion (· == menuPath 2) ⟨0, 0, 1, 0, 0, 0⟩ mismatched).Repaired :=
    ⟨{ mismatched with productArea := 0x04, gameRegion := 0x04 }, 0, by decide +kernel, by decide⟩
  exact ⟨hrepaired, (repair_converges _ _ ⟨0, 0, 1, 0, 0, 0⟩ _ hrepaired (by decide)
    (by decide)).2⟩

end DebugSystemRegion

end RecoveryMenu

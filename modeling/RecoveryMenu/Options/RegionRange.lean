import RecoveryMenu.Options.RegionWrite
import RecoveryMenu.Options.SystemInformation

set_option relaxedAutoImplicit false
set_option autoImplicit false

/-!
# The range of the region index (`ios_mcp/source/menu.c` and two options)

The index of the region is the lowest set bit of a 32-bit field. Two options use it as an index
into `region_tbl`, as a digit in a path and as the amount of a shift. The region repair tests it
against the length of the table before it uses it as an index; the system information does not,
and neither does before the index becomes a character of a path.

## Main definitions

* `RecoveryMenu.RegionRange.DebugInRange`, `RecoveryMenu.RegionRange.SystemInRange`: what a run
  of each option does with the index of a region is in range.

## Main results

* `RecoveryMenu.RegionRange.inRange_iff`: the runs of the two options for which it is.

## References

* `ios_mcp/source/menu.c`, lines 303-333, and `ios_mcp/source/menu.h`, lines 85-89.
* `ios_mcp/source/options/SystemInformation.c`, lines 191-231.
* `ios_mcp/source/options/DebugSystemRegion.c`, lines 44-113.
-/

namespace RecoveryMenu

namespace RegionRange

open Menu RegionInfo

/-! ## The uses of an index -/

section Texts

variable {Call : Type}

/-- The arguments of a text. -/
def textArgs : Event Call → List Arg
  | .print _ args => args
  | .printError _ args => args
  | _ => []

/-- All indices into `region_tbl` among the arguments are in range. -/
def InTable (e : Event Call) : Prop := ∀ id, Arg.region id ∈ textArgs e → 0 ≤ id ∧ id ≤ 6

@[simp] lemma inTable_print {format : String} {args : List Arg} :
    InTable (.print format args : Event Call) ↔
      ∀ id, Arg.region id ∈ args → 0 ≤ id ∧ id ≤ 6 :=
  Iff.rfl

@[simp] lemma inTable_printError {format : String} {args : List Arg} :
    InTable (.printError format args : Event Call) ↔
      ∀ id, Arg.region id ∈ args → 0 ≤ id ∧ id ≤ 6 :=
  Iff.rfl

@[simp] lemma inTable_call (c : Call) : InTable (.call c) :=
  fun _ hid => absurd hid List.not_mem_nil

@[simp] lemma inTable_drawTopBar (title : String) : InTable (.drawTopBar title : Event Call) :=
  fun _ hid => absurd hid List.not_mem_nil

@[simp] lemma inTable_drawMenu (title : String) (items : List String) :
    InTable (.drawMenu title items : Event Call) :=
  fun _ hid => absurd hid List.not_mem_nil

@[simp] lemma inTable_waitButtonInput : InTable (.waitButtonInput : Event Call) :=
  fun _ hid => absurd hid List.not_mem_nil

/-- The six regions of `gameRegion` are shown with indices in range. -/
lemma inTable_gameRegionArgs (format : String) (gameRegion : UInt32) :
    InTable (.print format (gameRegionArgs gameRegion) : Event Call) := by
  rw [inTable_print]
  intro id hid
  simp only [gameRegionArgs, List.mem_map, gameRegionArg] at hid
  obtain ⟨n, hn, hid⟩ := hid
  split_ifs at hid
  obtain rfl := Arg.region.inj hid
  simp only [List.mem_cons, List.not_mem_nil, or_false] at hn
  omega

end Texts

/-- The character of the region in a path is one of the digits `0` to `6`. -/
def PathDigit (path : String) : Prop :=
  ∃ c, path.toList[43]? = some c ∧ '0'.toNat ≤ c.toNat ∧ c.toNat ≤ '6'.toNat

/-- A path with the character of a region has a digit iff the region is one of the seven. -/
lemma pathDigit_iff {path : String} {n : ℕ} (hn : n < 32)
    (h : path.toList[43]? = some (Char.ofNat (n + 48))) : PathDigit path ↔ n ≤ 6 := by
  have hcode : (Char.ofNat (n + 48)).toNat = n + 48 :=
    DebugSystemRegion.toNat_charOfNat (by omega)
  constructor
  · rintro ⟨c, hc, -, hle⟩
    obtain rfl := Option.some_injective _ (h.symm.trans hc)
    rw [hcode] at hle
    exact Nat.le_of_add_le_add_right hle
  · intro hle
    refine ⟨_, h, ?_, ?_⟩
    · rw [hcode]
      exact Nat.le_add_left 48 n
    · rw [hcode]
      exact Nat.add_le_add_right hle 48

/-- The paths of the menus have a digit for the seven regions. -/
lemma pathDigit_menuPath {n : ℕ} (hn : n < 32) :
    PathDigit (DebugSystemRegion.menuPath n) ↔ n ≤ 6 :=
  pathDigit_iff hn (DebugSystemRegion.menuPath_getElem? n)

/-- The paths of `version.bin` have a digit for the seven regions. -/
lemma pathDigit_versionPath {n : ℕ} (hn : n < 32) :
    PathDigit (SystemInformation.versionPath n) ↔ n ≤ 6 := by
  refine pathDigit_iff hn ?_
  have hlength :
      43 < "/vol/storage_mlc01/sys/title/00050010/10041x00/content/version.bin".toList.length := by
    decide
  have hchar : ((n : ℤ) + 48).toNat = n + 48 := by omega
  rw [SystemInformation.versionPath, String.toList_ofList, List.getElem?_set_self hlength, hchar]

/-! ## The region repair -/

section Debug

open DebugSystemRegion

/-- The amounts by which a run shifts `1U`: once for the test of the game region, and twice for
the fields that are written. -/
def shiftAmounts (titles : String → Bool) (r : Results) (s : MCPSysProdSettings) : List ℤ :=
  match getRegionInfo r.regionHandle r.regionGet s with
  | .error _ => []
  | .ok (productAreaId, _) =>
    let id := (searchMenus titles productAreaId).menuProductAreaId
    id :: (optionDebugSystemRegion titles r s).events.flatMap fun e =>
      match e with
      | .call (.setSysProdSettings _ _) => [id, id]
      | _ => []

/-- What a run of the region repair does with the index of a region is in range. -/
structure DebugInRange (titles : String → Bool) (r : Results) (s : MCPSysProdSettings) :
    Prop where
  success : ∀ id gameRegion,
    getRegionInfo r.regionHandle r.regionGet s = .ok (id, gameRegion) → id ≤ 6
  index : ∀ e ∈ (optionDebugSystemRegion titles r s).events, InTable e
  path : ∀ path, .call (.openFile path) ∈ (optionDebugSystemRegion titles r s).events →
    PathDigit path
  shift : ∀ n ∈ shiftAmounts titles r s, 0 ≤ n ∧ n ≤ 31

/-- The region repair reads the region of the console. -/
def DebugReads (r : Results) (s : MCPSysProdSettings) : Prop :=
  0 ≤ r.regionHandle ∧ 0 ≤ r.regionGet ∧ s.productArea ≠ 0

/-- The search tries the files of the seven regions and that of the console's region. -/
lemma opened_subset (titles : String → Bool) (id : ℕ) {path : String}
    (h : path ∈ (searchMenus titles id).opened) :
    ∃ n : ℕ, (n = id ∨ n ≤ 6) ∧ path = menuPath n := by
  rw [searchMenus_eq] at h
  split_ifs at h
  · exact ⟨id, Or.inl rfl, List.mem_singleton.mp h⟩
  · rcases List.mem_cons.mp h with rfl | h
    · exact ⟨id, Or.inl rfl, rfl⟩
    · obtain ⟨n, hn, rfl⟩ := List.mem_map.mp h
      have hlt : n < 7 := List.mem_range.mp (List.mem_of_mem_filter hn)
      exact ⟨n, Or.inr (by omega), rfl⟩

/-- Where some menu is installed, the search ends with one of the seven regions.

**Proof sketch.** Either the menu of the console's region is installed, or the loop finds the
installed one. -/
lemma searchMenus_id_range {installed : Finset (Fin regionTbl.length)} {id : ℕ} (hid : id ≤ 6)
    (hne : installed.Nonempty) :
    0 ≤ (searchMenus (titlesOf installed) id).menuProductAreaId ∧
      (searchMenus (titlesOf installed) id).menuProductAreaId ≤ 6 := by
  rw [searchMenus_eq]
  split_ifs with hown
  · refine ⟨Int.natCast_nonneg _, ?_⟩
    show (id : ℤ) ≤ 6
    omega
  · obtain ⟨i, hi⟩ := hne
    have hlt : (i : ℕ) < 7 := i.isLt
    have hopen : titlesOf installed (menuPath (i : ℕ)) = true :=
      (titlesOf_menuPath installed (by omega)).mpr ⟨i, hi, rfl⟩
    have hother : (i : ℕ) ≠ id := fun h => hown (h ▸ hopen)
    have hmem : (i : ℕ) ∈ otherMenus (titlesOf installed) id (List.range regionTbl.length) :=
      List.mem_filter.mpr ⟨List.mem_range.mpr i.isLt, decide_eq_true ⟨hother, hopen⟩⟩
    have hlast := List.getLast?_eq_some_getLast (List.ne_nil_of_mem hmem)
    have hrange := List.mem_range.mp (List.mem_of_mem_filter (List.getLast_mem
      (List.ne_nil_of_mem hmem)))
    have hsmall : (otherMenus (titlesOf installed) id (List.range regionTbl.length)).getLast
        (List.ne_nil_of_mem hmem) < 7 := hrange
    simp only [hlast, Option.map_some, Option.getD_some]
    omega

/-- The text for the menu that was found has an index in range. -/
lemma menuRegionStr_inTable {search : Search} (h : search.menuProductAreaId ≤ 6) (id : ℤ)
    (hid : Arg.region id = menuRegionStr search) : 0 ≤ id ∧ id ≤ 6 := by
  rw [menuRegionStr] at hid
  split_ifs at hid with hnone hmany
  rw [Arg.region.injEq] at hid
  omega

/-- The two region codes are shown with indices in range. -/
lemma inTable_showRegions {productAreaId : ℕ} {gameRegion : UInt32} :
    ∀ e ∈ showRegions productAreaId gameRegion, InTable e := by
  have hsystem : InTable (if productAreaId < regionTbl.length then
      .print "System region code:   %s" [.region productAreaId]
      else .print "System region code:   %d" [.int productAreaId] : Event Call) := by
    split_ifs with hlt
    · have hseven : productAreaId < 7 := hlt
      rw [inTable_print]
      intro id hid
      obtain rfl := Arg.region.inj (List.mem_singleton.mp hid)
      omega
    · simp
  exact List.forall_mem_cons.mpr
    ⟨hsystem, List.forall_mem_singleton.mpr (inTable_gameRegionArgs _ _)⟩

/-- The offer to repair shows indices in range. -/
lemma inTable_offerRepair {search : Search} (h : search.menuProductAreaId ≤ 6) (p : Prop)
    [Decidable p] : ∀ e ∈ offerRepair search p, InTable e := by
  have hmenu := menuRegionStr_inTable h
  unfold offerRepair
  split_ifs
  all_goals simpa using hmenu

/-- The repair shows indices in range. -/
lemma inTable_repair {r : Results} {search : Search} {s : MCPSysProdSettings}
    (h : search.menuProductAreaId ≤ 6) : ∀ e ∈ (repair r search s).events, InTable e := by
  have hmenu := menuRegionStr_inTable h
  simp only [repair]
  split_ifs with hhandle hget hset
  · simp
  · simp
  · simp
  · simpa using hmenu

/-- What follows the search shows indices in range. -/
lemma inTable_checkRegion {r : Results} {search : Search} {gameRegion : UInt32}
    {s : MCPSysProdSettings} (h : search.menuProductAreaId ≤ 6) :
    ∀ e ∈ (checkRegion r search gameRegion s).events, InTable e := by
  simp only [checkRegion]
  split_ifs with hcorrect hnone hmany hcancel
  · simp
  · simp
  · simp
  · exact inTable_offerRepair h _
  · exact List.forall_mem_append.mpr ⟨inTable_offerRepair h _, inTable_repair h⟩

/-- No file is opened after the search. -/
lemma openFile_not_mem_checkRegion {r : Results} {search : Search} {gameRegion : UInt32}
    {s : MCPSysProdSettings} (path : String) :
    Event.call (.openFile path) ∉ (checkRegion r search gameRegion s).events := by
  simp only [checkRegion, offerRepair, repair]
  split_ifs <;> simp

/-- The region read is the lowest bit of `product_area`. -/
lemma getRegionInfo_eq {handle get : ℤ} {s : MCPSysProdSettings} (hhandle : 0 ≤ handle)
    (hget : 0 ≤ get) (harea : s.productArea ≠ 0) :
    getRegionInfo handle get s = .ok (ctz s.productArea, s.gameRegion) := by
  rw [getRegionInfo, if_neg (not_lt.mpr hhandle), if_neg (not_lt.mpr hget), if_neg harea]

/-- Otherwise there is an error. -/
lemma getRegionInfo_error {handle get : ℤ} {s : MCPSysProdSettings}
    (h : ¬ (0 ≤ handle ∧ 0 ≤ get ∧ s.productArea ≠ 0)) :
    ∃ res, getRegionInfo handle get s = .error res := by
  rw [getRegionInfo]
  split_ifs with hhandle hget harea
  · exact ⟨_, rfl⟩
  · exact ⟨_, rfl⟩
  · exact ⟨_, rfl⟩
  · exact absurd ⟨not_lt.mp hhandle, not_lt.mp hget, harea⟩ h

/-- The amounts of all shifts are the region the search ends with. -/
lemma eq_of_mem_shiftAmounts {titles : String → Bool} {r : Results} {s : MCPSysProdSettings}
    (hreads : DebugReads r s) {n : ℤ} (hn : n ∈ shiftAmounts titles r s) :
    n = (searchMenus titles (ctz s.productArea)).menuProductAreaId := by
  obtain ⟨hhandle, hget, harea⟩ := hreads
  rw [shiftAmounts, getRegionInfo_eq hhandle hget harea, List.mem_cons, List.mem_flatMap] at hn
  rcases hn with hn | ⟨e, -, hn⟩
  · exact hn
  · split at hn
    · rcases List.mem_pair.mp hn with hn | hn
      all_goals exact hn
    · cases hn

/-- Without any menu, the region the search ends with is the initial `-1`. -/
lemma searchMenus_id_empty (id : ℕ) :
    (searchMenus (titlesOf ∅) id).menuProductAreaId = -1 := by
  have hnone (path : String) : titlesOf ∅ path = false := by simp [titlesOf]
  rw [searchMenus_eq, if_neg (by rw [hnone]; exact Bool.false_ne_true)]
  simp [otherMenus, hnone]

/-- A run that reads a region and shifts in range finds a menu. -/
lemma nonempty_of_shift_inRange {installed : Finset (Fin regionTbl.length)} {r : Results}
    {s : MCPSysProdSettings} (hreads : DebugReads r s)
    (h : ∀ n ∈ shiftAmounts (titlesOf installed) r s, 0 ≤ n ∧ n ≤ 31) : installed.Nonempty := by
  rw [Finset.nonempty_iff_ne_empty]
  rintro rfl
  have hmem : (-1 : ℤ) ∈ shiftAmounts (titlesOf ∅) r s := by
    rw [shiftAmounts, getRegionInfo_eq hreads.1 hreads.2.1 hreads.2.2]
    exact searchMenus_id_empty (ctz s.productArea) ▸ List.mem_cons_self
  exact absurd (h _ hmem).1 (by omega)

/-- The run of a console whose region is read. -/
lemma events_of_reads {titles : String → Bool} {r : Results} {s : MCPSysProdSettings}
    (hreads : DebugReads r s) :
    (optionDebugSystemRegion titles r s).events =
      .drawTopBar "Debug System Region" :: showRegions (ctz s.productArea) s.gameRegion ++
        (searchMenus titles (ctz s.productArea)).opened.map (fun path => .call (.openFile path)) ++
        [.print "Installed Wii U Menu:" [],
          .print "%s" [menuRegionStr (searchMenus titles (ctz s.productArea))]] ++
        (checkRegion r (searchMenus titles (ctz s.productArea)) s.gameRegion s).events := by
  simp only [optionDebugSystemRegion, getRegionInfo_eq hreads.1 hreads.2.1 hreads.2.2]

/-- A run that reads no region is in range: it shows the error only. -/
lemma debugInRange_of_not_reads {titles : String → Bool} {r : Results} {s : MCPSysProdSettings}
    (hreads : ¬ DebugReads r s) : DebugInRange titles r s := by
  obtain ⟨res, herror⟩ := getRegionInfo_error hreads
  have hevents : (optionDebugSystemRegion titles r s).events =
      [.drawTopBar "Debug System Region",
        .printError "Failed to get the system region code: %x" [.int res]] := by
    simp only [optionDebugSystemRegion, herror]
  constructor
  · intro id gameRegion hok
    cases herror.symm.trans hok
  · rw [hevents]
    simp
  · rw [hevents]
    simp
  · intro n hn
    rw [shiftAmounts, herror] at hn
    cases hn

/-- A run that reads one of the seven regions and finds a menu is in range. -/
lemma debugInRange_of_reads {installed : Finset (Fin regionTbl.length)} {r : Results}
    {s : MCPSysProdSettings} (hreads : DebugReads r s) (hid : ctz s.productArea ≤ 6)
    (hne : installed.Nonempty) : DebugInRange (titlesOf installed) r s := by
  have hsearch := searchMenus_id_range hid hne
  constructor
  · intro id gameRegion hok
    rw [getRegionInfo_eq hreads.1 hreads.2.1 hreads.2.2] at hok
    obtain ⟨rfl, -⟩ := Prod.mk.inj (Except.ok.inj hok)
    exact hid
  · have hopened (path : String) (_ : path ∈ (searchMenus (titlesOf installed)
        (ctz s.productArea)).opened) : InTable (.call (.openFile path) : Event Call) :=
      inTable_call _
    have hmenu := menuRegionStr_inTable hsearch.2
    rw [events_of_reads hreads]
    refine List.forall_mem_append.mpr ⟨List.forall_mem_append.mpr
      ⟨List.forall_mem_append.mpr ⟨List.forall_mem_cons.mpr
        ⟨inTable_drawTopBar _, inTable_showRegions⟩, List.forall_mem_map.mpr hopened⟩, ?_⟩,
      inTable_checkRegion hsearch.2⟩
    simpa using hmenu
  · intro path hpath
    rw [events_of_reads hreads] at hpath
    have hopened : path ∈ (searchMenus (titlesOf installed) (ctz s.productArea)).opened := by
      simpa [showRegions, openFile_not_mem_checkRegion, apply_ite] using hpath
    obtain ⟨n, hn, rfl⟩ := opened_subset _ _ hopened
    have hle : n ≤ 6 := by omega
    exact (pathDigit_menuPath (by omega)).mpr hle
  · intro n hn
    rw [eq_of_mem_shiftAmounts hreads hn]
    omega

/-- The region repair keeps the index in range iff it does not read a region, or the lowest bit
of `product_area` is one of the low seven and some menu is installed.

**Proof sketch.** A region from 7 on is not among the digits of the path, and without a menu
the shift is by `-1`. Otherwise the regions tried and found are among the seven. -/
lemma debugInRange_iff (installed : Finset (Fin regionTbl.length)) (r : Results)
    (s : MCPSysProdSettings) :
    DebugInRange (titlesOf installed) r s ↔
      (DebugReads r s → s.productArea &&& 0x7F ≠ 0 ∧ installed.Nonempty) := by
  constructor
  · intro hrange hreads
    have hinfo := getRegionInfo_eq hreads.1 hreads.2.1 hreads.2.2
    exact ⟨(ctz_le_six_iff hreads.2.2).mp (hrange.success _ _ hinfo),
      nonempty_of_shift_inRange hreads hrange.shift⟩
  · intro h
    by_cases hreads : DebugReads r s
    · obtain ⟨hlow, hne⟩ := h hreads
      exact debugInRange_of_reads hreads ((ctz_le_six_iff hreads.2.2).mpr hlow) hne
    · exact debugInRange_of_not_reads hreads

end Debug

/-! ## The system information -/

section System

open ByteMemory Fsa SystemInformation
open DumpOtpAndSeeprom (ReadOutcome readOtpSeeprom readOtpSeeprom_res_eq_zero_iff)

/-- The option gets to the regions: the buffer is allocated and filled. -/
def SystemStarts (q : Results) : Prop :=
  q.heapAlloc = true ∧ 0 ≤ q.readOTP ∧ ∀ i < 0x100, 0 ≤ (q.bspRead i).1

/-- The option gets to the regions and reads that of the console. -/
def SystemReads (q : Results) : Prop :=
  SystemStarts q ∧ 0 ≤ q.regionHandle ∧ 0 ≤ q.regionGet ∧ q.settings.productArea ≠ 0

/-- What a run of the system information does with the index of a region is in range. It shifts
nothing by the index. -/
structure SystemInRange (q : Results) : Prop where
  success : SystemStarts q → ∀ id gameRegion,
    getRegionInfo q.regionHandle q.regionGet q.settings = .ok (id, gameRegion) → id ≤ 6
  index : ∀ e ∈ optionSystemInformation q, InTable e
  path : ∀ path mode res handle,
    .call (.openFile path mode res handle) ∈ optionSystemInformation q → PathDigit path

/-- The event shows no region and opens no file. -/
def Plain (e : Event Call) : Prop :=
  (∀ id, Arg.region id ∉ textArgs e) ∧
    ∀ path mode res handle, e ≠ .call (.openFile path mode res handle)

@[simp] lemma plain_print {format : String} {args : List Arg} :
    Plain (.print format args) ↔ ∀ id, Arg.region id ∉ args := by
  simp [Plain, textArgs]

@[simp] lemma plain_printError {format : String} {args : List Arg} :
    Plain (.printError format args) ↔ ∀ id, Arg.region id ∉ args := by
  simp [Plain, textArgs]

@[simp] lemma plain_call {c : Call} :
    Plain (.call c) ↔ ∀ path mode res handle, c ≠ .openFile path mode res handle := by
  simp [Plain, textArgs]

@[simp] lemma plain_drawTopBar (title : String) : Plain (.drawTopBar title) := by
  simp [Plain, textArgs]

@[simp] lemma plain_waitButtonInput : Plain .waitButtonInput := by
  simp [Plain, textArgs]

/-- The first column shows no region. -/
lemma plain_showColumn1 (q : Results) (buf : Frame) : ∀ e ∈ showColumn1 q buf, Plain e := by
  unfold showColumn1
  refine List.forall_mem_append.mpr ⟨?_, ?_⟩
  · split_ifs
    all_goals simp
  · split
    · simp
    · simp

/-- A number shows no region. -/
lemma plain_showNamed (format formatNamed : String) (tbl : List (Option String)) (id : UInt16) :
    Plain (showNamed format formatNamed tbl id) := by
  unfold showNamed
  split
  · simp
  · simp

/-- The second column shows no region. -/
lemma plain_showColumn2 (buf : Frame) : ∀ e ∈ showColumn2 buf, Plain e := by
  simp [showColumn2, plain_showNamed]

/-- A register shows no region. -/
lemma plain_showRegister (format : String) (register : ℤ × Vector UInt32 4) :
    ∀ e ∈ showRegister format register, Plain e := by
  unfold showRegister
  split_ifs
  · simp
  · simp

/-- A memory device shows no region. -/
lemma plain_showDevice (q : Results) (i : ℕ) : ∀ e ∈ showDevice q i, Plain e := by
  simp only [showDevice]
  split_ifs
  · simp
  all_goals
    refine List.forall_mem_append.mpr ⟨List.forall_mem_append.mpr
      ⟨?_, plain_showRegister _ _⟩, plain_showRegister _ _⟩
    simp

/-- The memory devices show no region. -/
lemma plain_showDevices (q : Results) : ∀ e ∈ showDevices q, Plain e := by
  unfold showDevices
  split_ifs
  · simp
  · refine List.forall_mem_append.mpr ⟨List.forall_mem_flatMap.mpr ?_, by simp⟩
    exact fun i _ => plain_showDevice q i

/-- The version of a menu is read from the path of its region, and shows no region. -/
lemma showMenuVersion_cases (q : Results) (buf : Frame) (id : ℕ) :
    ∀ e ∈ showMenuVersion q buf id,
      e = .call (.openFile (versionPath id) "r" q.openVersion q.verHandle) ∨ Plain e := by
  simp only [showMenuVersion]
  split_ifs
  · simp
  · simp
  · simp

/-- An event that shows no region and opens no file is in range. -/
lemma Plain.inTable {e : Event Call} (h : Plain e) : InTable e :=
  fun id hid => absurd hid (h.1 id)

/-- The version of the menu of one of the seven regions is in range. -/
lemma showMenuVersion_inRange {q : Results} {buf : Frame} {id : ℕ} (hid : id ≤ 6) :
    (∀ e ∈ showMenuVersion q buf id, InTable e) ∧
      ∀ path mode res handle,
        .call (.openFile path mode res handle) ∈ showMenuVersion q buf id → PathDigit path := by
  constructor
  · intro e he
    rcases showMenuVersion_cases _ _ _ e he with rfl | hplain
    · exact inTable_call _
    · exact hplain.inTable
  · intro path mode res handle he
    rcases showMenuVersion_cases _ _ _ _ he with hopen | hplain
    · obtain ⟨rfl, -⟩ := Call.openFile.inj (Event.call.inj hopen)
      exact (pathDigit_versionPath (by omega)).mpr hid
    · exact absurd rfl (hplain.2 path mode res handle)

/-- The third column is in range for one of the seven regions. -/
lemma showColumn3_inRange {q : Results} {buf : Frame}
    (h : ∀ id gameRegion, getRegionInfo q.regionHandle q.regionGet q.settings =
      .ok (id, gameRegion) → id ≤ 6) :
    (∀ e ∈ showColumn3 q buf, InTable e) ∧
      ∀ path mode res handle,
        .call (.openFile path mode res handle) ∈ showColumn3 q buf → PathDigit path := by
  unfold showColumn3
  split
  next id gameRegion hok =>
    have hid := h _ _ hok
    constructor
    · intro e he
      rcases List.mem_append.mp he with he | he
      · rcases List.mem_pair.mp he with rfl | rfl
        · intro n hn
          obtain rfl := Arg.region.inj (List.mem_singleton.mp hn)
          omega
        · exact inTable_gameRegionArgs _ _
      · exact (showMenuVersion_inRange hid).1 e he
    · intro path mode res handle he
      rcases List.mem_append.mp he with he | he
      · rcases List.mem_pair.mp he with he | he
        all_goals cases he
      · exact (showMenuVersion_inRange hid).2 path mode res handle he
  next => exact showMenuVersion_inRange (by omega)

/-- What a failed read of OTP and SEEPROM shows is no region. -/
lemma plain_readOtpSeeprom (q : Results) :
    ∀ e ∈ (readOtpSeeprom q.readOTP q.otp q.bspRead q.heap : ReadOutcome Call).events,
      Plain e := by
  unfold readOtpSeeprom
  simp only
  split_ifs
  all_goals simp

/-- What the option shows outside of the third column shows no region.

**Proof sketch.** The branches of the option in turn: no buffer, a failed read, and the three
columns with the memory devices. -/
lemma plain_or_showColumn3 (q : Results) :
    ∀ e ∈ optionSystemInformation q,
      Plain e ∨ SystemStarts q ∧ ∃ buf, e ∈ showColumn3 q buf := by
  have hplain {l : List (Event Call)} (h : ∀ e ∈ l, Plain e) :
      ∀ e ∈ l, Plain e ∨ SystemStarts q ∧ ∃ buf, e ∈ showColumn3 q buf :=
    fun e he => Or.inl (h e he)
  have hstart : ∀ e ∈ [.drawTopBar "System Information", .call (.heapAlloc 0x800 q.heapAlloc)],
      Plain e := by simp
  have hfree : ∀ e ∈ [(.call .heapFree : Event Call)], Plain e := by simp
  unfold optionSystemInformation
  split
  next =>
    refine hplain (List.forall_mem_append.mpr ⟨hstart, ?_⟩)
    simp
  next halloc =>
    simp only
    split
    next =>
      exact hplain (List.forall_mem_append.mpr
        ⟨List.forall_mem_append.mpr ⟨hstart, plain_readOtpSeeprom q⟩, hfree⟩)
    next hread =>
      have hstarts : SystemStarts q :=
        ⟨not_not.mp halloc, readOtpSeeprom_res_eq_zero_iff.mp (not_not.mp hread)⟩
      intro e he
      simp only [List.mem_append] at he
      rcases he with ((((he | he) | he) | he) | he) | he
      · exact hplain hstart e he
      · exact hplain (plain_showColumn1 q _) e he
      · exact hplain (plain_showColumn2 _) e he
      · exact Or.inr ⟨hstarts, _, he⟩
      · exact hplain hfree e he
      · exact hplain (plain_showDevices q) e he

/-- The system information keeps the index in range iff it does not read a region, or the lowest
bit of `product_area` is one of the low seven.

**Proof sketch.** The region read is the index of the product area shown, and the digit of the
path of `version.bin`; without one, the path has the digit `0`. -/
lemma systemInRange_iff (q : Results) :
    SystemInRange q ↔ (SystemReads q → q.settings.productArea &&& 0x7F ≠ 0) := by
  constructor
  · rintro hrange ⟨hstarts, hhandle, hget, harea⟩
    exact (ctz_le_six_iff harea).mp
      (hrange.success hstarts _ _ (getRegionInfo_eq hhandle hget harea))
  · intro h
    have hid (hstarts : SystemStarts q) (id : ℕ) (gameRegion : UInt32)
        (hok : getRegionInfo q.regionHandle q.regionGet q.settings = .ok (id, gameRegion)) :
        id ≤ 6 := by
      by_cases hreads : 0 ≤ q.regionHandle ∧ 0 ≤ q.regionGet ∧ q.settings.productArea ≠ 0
      · rw [getRegionInfo_eq hreads.1 hreads.2.1 hreads.2.2] at hok
        obtain ⟨rfl, -⟩ := Prod.mk.inj (Except.ok.inj hok)
        exact (ctz_le_six_iff hreads.2.2).mpr (h ⟨hstarts, hreads⟩)
      · obtain ⟨res, herror⟩ := getRegionInfo_error hreads
        cases herror.symm.trans hok
    refine ⟨hid, ?_, ?_⟩
    · intro e he
      rcases plain_or_showColumn3 q _ he with hplain | ⟨hstarts, buf, he⟩
      · exact hplain.inTable
      · exact (showColumn3_inRange (hid hstarts)).1 e he
    · intro path mode res handle he
      rcases plain_or_showColumn3 q _ he with hplain | ⟨hstarts, buf, he⟩
      · exact absurd rfl (hplain.2 path mode res handle)
      · exact (showColumn3_inRange (hid hstarts)).2 path mode res handle he

end System

/-! ## Both options -/

/-- **The range of the region index.** For all region fields and results of the calls of a run of
each option, and all installed menus: every index into `region_tbl`, every digit in a path and
every shift amount is in range in both runs, and `getRegionInfo` succeeds only with a region of
the table, exactly if in each run that reads a region the lowest bit of `product_area` is one of
the low seven, and in the run of the region repair some menu is installed. -/
theorem inRange_iff (installed : Finset (Fin regionTbl.length))
    (r : DebugSystemRegion.Results) (s : MCPSysProdSettings) (q : SystemInformation.Results) :
    DebugInRange (DebugSystemRegion.titlesOf installed) r s ∧ SystemInRange q ↔
      (DebugReads r s → s.productArea &&& 0x7F ≠ 0 ∧ installed.Nonempty) ∧
        (SystemReads q → q.settings.productArea &&& 0x7F ≠ 0) :=
  and_congr (debugInRange_iff installed r s) (systemInRange_iff q)

/-- A console whose `product_area` has bit 7 only: `getRegionInfo` succeeds with region 7. -/
theorem not_inRange :
    ¬ ∀ (installed : Finset (Fin regionTbl.length)) (r : DebugSystemRegion.Results)
        (s : MCPSysProdSettings) (q : SystemInformation.Results),
      DebugInRange (DebugSystemRegion.titlesOf installed) r s ∧ SystemInRange q := by
  intro h
  have q : SystemInformation.Results :=
    ⟨false, fun _ => 0, 0, Vector.replicate _ 0, fun _ => (0, 0), 0, 0, 0, 0,
      DebugSystemRegion.mismatched, 0, 0, 0, [], 0,
      fun _ => ⟨0, ⟨0, 0, 0, 0, Vector.replicate _ 0⟩, 0⟩, fun _ => (0, Vector.replicate _ 0),
      fun _ => (0, Vector.replicate _ 0)⟩
  have hrange := (h ∅ ⟨0, 0, 0, 0, 0, 0⟩
    { DebugSystemRegion.mismatched with productArea := 0x80 } q).1
  exact absurd (hrange.success 7 0x77 (by decide +kernel)) (by decide)

end RegionRange

end RecoveryMenu

import RecoveryMenu.Menu
import RecoveryMenu.Utils.CopyFile

set_option relaxedAutoImplicit false
set_option autoImplicit false

/-!
# Dumping the system logs (`ios_mcp/source/options/DumpSyslogs.c`)

The option copies every file of the directory of the system logs to the SD card. It reads the
entries one by one, and ends the loop at the first negative result, whether that is the end of
the directory or an error; so after an error it reports success, too.

## Main definitions

* `RecoveryMenu.DumpSyslogs.Results`: the results of the calls, for a given listing.
* `RecoveryMenu.DumpSyslogs.optionDumpSyslogs`: a run of the option.
* `RecoveryMenu.DumpSyslogs.Complete`: success is reported for complete dumps only, and failures
  are reported as errors.

## Main results

* `RecoveryMenu.DumpSyslogs.done_mem_copyLogs_iff`: when the loop reports success.
* `RecoveryMenu.DumpSyslogs.complete_iff`: the runs that are `Complete`.

## References

* `ios_mcp/source/options/DumpSyslogs.c`, and `ios_mcp/source/fsa.h`, lines 5-23.
-/

namespace RecoveryMenu

namespace DumpSyslogs

open CopyFile Menu

/-! ## The directory -/

/-- What is used of an `FSDirectoryEntry`, and the content of the file it is for. -/
structure Entry where
  flags : UInt32
  name : String
  content : List UInt8
  deriving DecidableEq, Repr

/-- `DIR_ENTRY_IS_DIRECTORY`. -/
def dirEntryIsDirectory : UInt32 := 0x80000000

/-- The entry is a directory. -/
def Entry.IsDirectory (e : Entry) : Prop := e.flags &&& dirEntryIsDirectory ≠ 0

instance (e : Entry) : Decidable e.IsDirectory := inferInstanceAs (Decidable (_ ≠ _))

/-- `src_path`. -/
def Entry.srcPath (e : Entry) : String := "/vol/system/logs/" ++ e.name

/-- `dst_path`. -/
def Entry.dstPath (e : Entry) : String := "/vol/storage_recovsd/logs/" ++ e.name

/-- A successful `FSA_ReadDir`, and the results of the calls that copy the file. -/
structure Read where
  res : ℤ
  entry : Entry
  copy : CopyFile.Results entry.content
  res_nonneg : 0 ≤ res

/-- The copy of the file. -/
def Read.outcome (e : Read) : Outcome := copyFile e.copy e.entry.srcPath e.entry.dstPath

/-- The results of the calls of a run for a directory with the given listing: the entries are read
in order, until the end of the directory or an error. -/
structure Results (endOfDirectory : ℤ) (listing : List Entry) where
  makeDir : ℤ
  openDir : ℤ
  dirHandle : ℤ
  reads : List Read
  lastRead : ℤ
  unread : List Entry
  lastRead_lt : lastRead < 0
  listing_eq : listing = reads.map Read.entry ++ unread
  unread_eq : lastRead = endOfDirectory → unread = []

/-! ## The option -/

/-- The calls of the option. -/
inductive Call
  | makeDir (path : String) (flags : ℕ) (res : ℤ)
  | openDir (path : String) (res handle : ℤ)
  | readDir (handle res : ℤ)
  | copyFile (src dst : String) (outcome : Outcome)
  | closeDir (handle : ℤ)
  deriving DecidableEq, Repr

/-- The text that reports success. -/
def done : Event Call := .print "Done!" []

/-- The loop over the entries, and what follows it. -/
def copyLogs (dirHandle lastRead : ℤ) : List Read → List (Event Call)
  | [] =>
    [.call (.readDir dirHandle lastRead), .setNotificationLED notifLedPurple, done,
      .waitButtonInput, .call (.closeDir dirHandle)]
  | e :: reads =>
    .call (.readDir dirHandle e.res) ::
    if e.entry.IsDirectory then copyLogs dirHandle lastRead reads
    else
      [.print "Copying %s..." [.str e.entry.name],
        .call (.copyFile e.entry.srcPath e.entry.dstPath e.outcome)] ++
      if e.outcome.res < 0 then
        [.call (.closeDir dirHandle),
          .printError "Failed to copy %s: %x" [.str e.entry.name, .int e.outcome.res]]
      else copyLogs dirHandle lastRead reads

/-- `option_DumpSyslogs()`. -/
def optionDumpSyslogs {endOfDirectory : ℤ} {listing : List Entry}
    (r : Results endOfDirectory listing) : List (Event Call) :=
  let start := [.drawTopBar "Dumping Syslogs...", .setNotificationLED notifLedRedBlinking,
    .print "Creating 'logs' directory..." [],
    .call (.makeDir "/vol/storage_recovsd/logs" 0x600 r.makeDir)]
  if r.makeDir < 0 ∧ ¬ r.makeDir = -0x30016 then
    start ++ [.printError "Failed to create directory: %x" [.int r.makeDir]]
  else
    let opening := start ++ [.print "Opening system 'logs' directory..." [],
      .call (.openDir "/vol/system/logs" r.openDir r.dirHandle)]
    if r.openDir < 0 then
      opening ++ [.printError "Failed to open system logs: %x" [.int r.openDir]]
    else opening ++ copyLogs r.dirHandle r.lastRead r.reads

/-! ## What is reported -/

/-- The enumeration stops on an error. -/
def EnumerationFails (endOfDirectory : ℤ) (events : List (Event Call)) : Prop :=
  ∃ handle res, .call (.readDir handle res) ∈ events ∧ res < 0 ∧ res ≠ endOfDirectory

/-- A copy fails. -/
def CopyFails (events : List (Event Call)) : Prop :=
  ∃ src dst outcome, .call (.copyFile src dst outcome) ∈ events ∧ outcome.res ≠ 0

/-- A run reports success only if it read the listing to its end and copied every file of it, and
it reports an error instead if the enumeration stops on one or a copy fails. -/
structure Complete (endOfDirectory : ℤ) (listing : List Entry) (events : List (Event Call)) :
    Prop where
  enumerated : done ∈ events → ∃ handle, .call (.readDir handle endOfDirectory) ∈ events
  copied : done ∈ events → ∀ e ∈ listing, ¬ e.IsDirectory →
    ∃ outcome, .call (.copyFile e.srcPath e.dstPath outcome) ∈ events ∧ outcome.res = 0
  error : EnumerationFails endOfDirectory events ∨ CopyFails events →
    done ∉ events ∧ ∃ format args, .printError format args ∈ events

/-- Every file that was read can be copied. -/
def CopiesAll (reads : List Read) : Prop :=
  ∀ e ∈ reads, ¬ e.entry.IsDirectory → e.outcome.res = 0

/-- A copy that is not reported as failed returns `0`. -/
lemma Read.outcome_res_eq_zero {e : Read} (h : ¬ e.outcome.res < 0) : e.outcome.res = 0 :=
  le_antisymm (copyFile_res_le e.copy e.entry.srcPath e.entry.dstPath) (not_lt.mp h)

/-- The entries after one that is skipped or copied. -/
lemma copiesAll_cons {e : Read} {reads : List Read} :
    CopiesAll (e :: reads) ↔
      (¬ e.entry.IsDirectory → e.outcome.res = 0) ∧ CopiesAll reads :=
  List.forall_mem_cons

/-- **The loop reports success** iff every file that was read can be copied.

**Proof sketch.** Induction on the entries read. -/
theorem done_mem_copyLogs_iff (dirHandle lastRead : ℤ) (reads : List Read) :
    done ∈ copyLogs dirHandle lastRead reads ↔ CopiesAll reads := by
  induction reads with
  | nil => simp [copyLogs, CopiesAll]
  | cons e reads ih =>
    rw [copiesAll_cons, ← ih, copyLogs]
    by_cases hdir : e.entry.IsDirectory
    · simp [hdir, done]
    · by_cases hres : e.outcome.res < 0
      · simp [hdir, hres, ne_of_lt hres, done]
      · simp [hdir, Read.outcome_res_eq_zero hres, done]

/-- A loop that does not report success shows an error.

**Proof sketch.** Induction on the entries read. -/
lemma exists_printError_mem_copyLogs {dirHandle lastRead : ℤ} {reads : List Read}
    (h : ¬ CopiesAll reads) :
    ∃ format args, .printError format args ∈ copyLogs dirHandle lastRead reads := by
  induction reads with
  | nil => exact absurd (fun e he => absurd he List.not_mem_nil) h
  | cons e reads ih =>
    rw [copyLogs]
    by_cases hdir : e.entry.IsDirectory
    · have hrest : ¬ CopiesAll reads := fun hall =>
        h (copiesAll_cons.mpr ⟨fun hnot => absurd hdir hnot, hall⟩)
      obtain ⟨format, args, hmem⟩ := ih hrest
      rw [if_pos hdir]
      exact ⟨format, args, List.mem_cons_of_mem _ hmem⟩
    · rw [if_neg hdir]
      by_cases hres : e.outcome.res < 0
      · rw [if_pos hres]
        exact ⟨_, _, List.mem_cons_of_mem _ (List.mem_append_right _
          (List.mem_cons_of_mem _ List.mem_cons_self))⟩
      · have hrest : ¬ CopiesAll reads := fun hall =>
          h (copiesAll_cons.mpr ⟨fun _ => Read.outcome_res_eq_zero hres, hall⟩)
        obtain ⟨format, args, hmem⟩ := ih hrest
        rw [if_neg hres]
        exact ⟨format, args, List.mem_cons_of_mem _ (List.mem_append_right _ hmem)⟩

/-- A loop that copies all files gets to the last result of `FSA_ReadDir`, and the copies are
among its calls.

**Proof sketch.** Induction on the entries read. -/
lemma mem_copyLogs_of_copiesAll {dirHandle lastRead : ℤ} {reads : List Read}
    (h : CopiesAll reads) :
    .call (.readDir dirHandle lastRead) ∈ copyLogs dirHandle lastRead reads ∧
      ∀ e ∈ reads, ¬ e.entry.IsDirectory →
        .call (.copyFile e.entry.srcPath e.entry.dstPath e.outcome) ∈
          copyLogs dirHandle lastRead reads := by
  induction reads with
  | nil => simp [copyLogs]
  | cons e reads ih =>
    obtain ⟨hres, hall⟩ := copiesAll_cons.mp h
    obtain ⟨hlast, hcopies⟩ := ih hall
    rw [copyLogs]
    by_cases hdir : e.entry.IsDirectory
    · rw [if_pos hdir]
      refine ⟨List.mem_cons_of_mem _ hlast, fun e' he' hfile => List.mem_cons_of_mem _ ?_⟩
      rcases List.mem_cons.mp he' with rfl | he'
      · exact absurd hdir hfile
      · exact hcopies e' he' hfile
    · rw [if_neg hdir, if_neg (by rw [hres hdir]; exact lt_irrefl 0)]
      refine ⟨List.mem_cons_of_mem _ (List.mem_append_right _ hlast),
        fun e' he' hfile => List.mem_cons_of_mem _ ?_⟩
      rcases List.mem_cons.mp he' with rfl | he'
      · exact List.mem_append_left _ (List.mem_cons_of_mem _ List.mem_cons_self)
      · exact List.mem_append_right _ (hcopies e' he' hfile)

/-- A negative result of `FSA_ReadDir` is the last one, and is got to after copying all files.

**Proof sketch.** Induction on the entries read. -/
lemma readDir_mem_copyLogs {dirHandle lastRead handle res : ℤ} {reads : List Read}
    (h : .call (.readDir handle res) ∈ copyLogs dirHandle lastRead reads) (hneg : res < 0) :
    CopiesAll reads ∧ res = lastRead := by
  induction reads with
  | nil =>
    simp only [copyLogs, done, List.mem_cons, Event.call.injEq, Call.readDir.injEq, reduceCtorEq,
      List.not_mem_nil, or_false] at h
    exact ⟨fun e he => absurd he List.not_mem_nil, h.2⟩
  | cons e reads ih =>
    have hne : ¬ res = e.res := fun heq => absurd e.res_nonneg (not_le.mpr (heq ▸ hneg))
    rw [copyLogs] at h
    rw [copiesAll_cons]
    by_cases hdir : e.entry.IsDirectory
    · simp only [if_pos hdir, List.mem_cons, Event.call.injEq, Call.readDir.injEq, hne, and_false,
        false_or] at h
      obtain ⟨hall, hlast⟩ := ih h
      exact ⟨⟨fun hnot => absurd hdir hnot, hall⟩, hlast⟩
    · simp only [if_neg hdir, List.mem_cons, List.mem_append, Event.call.injEq,
        Call.readDir.injEq, reduceCtorEq, hne, and_false, false_or, List.not_mem_nil] at h
      by_cases hres : e.outcome.res < 0
      · simp [hres] at h
      · rw [if_neg hres] at h
        obtain ⟨hall, hlast⟩ := ih h
        exact ⟨⟨fun _ => Read.outcome_res_eq_zero hres, hall⟩, hlast⟩

/-- A copy that fails is one of a file that was read.

**Proof sketch.** Induction on the entries read. -/
lemma copyFile_mem_copyLogs {dirHandle lastRead : ℤ} {reads : List Read} {src dst : String}
    {outcome : Outcome} (h : .call (.copyFile src dst outcome) ∈ copyLogs dirHandle lastRead reads)
    (hres : outcome.res ≠ 0) : ¬ CopiesAll reads := by
  induction reads with
  | nil => simp [copyLogs, done] at h
  | cons e reads ih =>
    rw [copyLogs] at h
    rw [copiesAll_cons, not_and_or]
    by_cases hdir : e.entry.IsDirectory
    · simp only [if_pos hdir, List.mem_cons, Event.call.injEq, reduceCtorEq, false_or] at h
      exact Or.inr (ih h)
    · simp only [if_neg hdir, List.mem_cons, List.mem_append, Event.call.injEq,
        Call.copyFile.injEq, reduceCtorEq, false_or, List.not_mem_nil, or_false] at h
      rcases h with ⟨-, -, rfl⟩ | h
      · exact Or.inl fun hzero => hres (hzero hdir)
      · by_cases hneg : e.outcome.res < 0
        · exact Or.inl fun hzero => absurd (hzero hdir) (ne_of_lt hneg)
        · rw [if_neg hneg] at h
          exact Or.inr (ih h)

/-- The loop is complete iff, in case every file that was read can be copied, the last result of
`FSA_ReadDir` is the end of the directory. -/
lemma complete_copyLogs_iff {endOfDirectory : ℤ} {listing : List Entry}
    (r : Results endOfDirectory listing) :
    Complete endOfDirectory listing (copyLogs r.dirHandle r.lastRead r.reads) ↔
      (CopiesAll r.reads → r.lastRead = endOfDirectory) := by
  constructor
  · intro h hall
    by_contra hne
    have hfails : EnumerationFails endOfDirectory (copyLogs r.dirHandle r.lastRead r.reads) :=
      ⟨_, _, (mem_copyLogs_of_copiesAll hall).1, r.lastRead_lt, hne⟩
    exact (h.error (Or.inl hfails)).1 ((done_mem_copyLogs_iff _ _ _).mpr hall)
  · intro h
    refine ⟨fun hdone => ?_, fun hdone e he hfile => ?_, fun hfails => ?_⟩
    · have hall := (done_mem_copyLogs_iff _ _ _).mp hdone
      have hcall := congrArg (fun res => Event.call (Call.readDir r.dirHandle res)) (h hall)
      exact ⟨r.dirHandle, hcall ▸ (mem_copyLogs_of_copiesAll hall).1⟩
    · have hall := (done_mem_copyLogs_iff _ _ _).mp hdone
      rw [r.listing_eq, r.unread_eq (h hall), List.append_nil] at he
      obtain ⟨read, hread, rfl⟩ := List.mem_map.mp he
      exact ⟨read.outcome, (mem_copyLogs_of_copiesAll hall).2 read hread hfile,
        hall read hread hfile⟩
    · have hnot : ¬ CopiesAll r.reads := by
        rcases hfails with ⟨handle, res, hmem, hneg, hne⟩ | ⟨src, dst, outcome, hmem, hres⟩
        · obtain ⟨hall, rfl⟩ := readDir_mem_copyLogs hmem hneg
          exact absurd (h hall) hne
        · exact copyFile_mem_copyLogs hmem hres
      exact ⟨mt (done_mem_copyLogs_iff _ _ _).mp hnot, exists_printError_mem_copyLogs hnot⟩

/-- An event that reports neither success nor an error, and neither reads the directory nor
copies. -/
def Quiet : Event Call → Prop
  | .print format _ => format ≠ "Done!"
  | .printError _ _ => False
  | .call (.readDir _ _) => False
  | .call (.copyFile _ _ _) => False
  | _ => True

/-- Quiet events at the front do not matter. -/
lemma complete_append_iff {endOfDirectory : ℤ} {listing : List Entry} {a l : List (Event Call)}
    (h : ∀ e ∈ a, Quiet e) :
    Complete endOfDirectory listing (a ++ l) ↔ Complete endOfDirectory listing l := by
  have hmem {e : Event Call} (he : ¬ Quiet e) : e ∈ a ++ l ↔ e ∈ l :=
    List.mem_append.trans (or_iff_right fun hea => he (h e hea))
  have hdone : done ∈ a ++ l ↔ done ∈ l := hmem fun hne => hne rfl
  have hread (handle res : ℤ) : Event.call (.readDir handle res) ∈ a ++ l ↔
      Event.call (.readDir handle res) ∈ l := hmem id
  have hcopy (src dst : String) (outcome : Outcome) :
      Event.call (.copyFile src dst outcome) ∈ a ++ l ↔
        Event.call (.copyFile src dst outcome) ∈ l := hmem id
  have herror (format : String) (args : List Arg) : Event.printError format args ∈ a ++ l ↔
      Event.printError format args ∈ l := hmem id
  have hfails : EnumerationFails endOfDirectory (a ++ l) ∨ CopyFails (a ++ l) ↔
      EnumerationFails endOfDirectory l ∨ CopyFails l := by
    simp only [EnumerationFails, CopyFails, hread, hcopy]
  constructor
  all_goals
    rintro ⟨henumerated, hcopied, hreported⟩
    refine ⟨?_, ?_, ?_⟩
    · simpa only [hdone, hread] using henumerated
    · simpa only [hdone, hcopy] using hcopied
    · simpa only [hdone, hfails, herror] using hreported

/-- **When a dump of the logs is complete.** For every listing, every code that means the end of
the directory, and all results of the calls of a run: the run is `Complete` iff, in case the
directories can be created and opened and every file that was read can be copied, the last result
of `FSA_ReadDir` is the end of the directory.

**Proof sketch.** The loop reports success iff every file that was read can be copied
(`done_mem_copyLogs_iff`), and then it gets to the last result of `FSA_ReadDir`. -/
theorem complete_iff {endOfDirectory : ℤ} {listing : List Entry}
    (r : Results endOfDirectory listing) :
    Complete endOfDirectory listing (optionDumpSyslogs r) ↔
      (0 ≤ r.makeDir ∨ r.makeDir = -0x30016 → 0 ≤ r.openDir → CopiesAll r.reads →
        r.lastRead = endOfDirectory) := by
  simp only [optionDumpSyslogs]
  split_ifs with hmake hopen
  · refine iff_of_true ⟨by simp [done], by simp [done], fun h => ?_⟩ fun h => ?_
    · simp [EnumerationFails, CopyFails] at h
    · omega
  · refine iff_of_true ⟨by simp [done], by simp [done], fun h => ?_⟩ fun _ h => ?_
    · simp [EnumerationFails, CopyFails] at h
    · exact absurd h (not_le.mpr hopen)
  · have hmade : 0 ≤ r.makeDir ∨ r.makeDir = -0x30016 := by omega
    rw [complete_append_iff (by simp [Quiet]), complete_copyLogs_iff, forall_prop_of_true hmade,
      forall_prop_of_true (not_lt.mp hopen)]

/-- Results of a run for a directory with one file, whose first `FSA_ReadDir` fails. -/
def failedRead : Results (-0x30004) [⟨0, "00_system.log", [0x41]⟩] where
  makeDir := 0
  openDir := 0
  dirHandle := 1
  reads := []
  lastRead := -0x30002
  unread := [⟨0, "00_system.log", [0x41]⟩]
  lastRead_lt := by decide
  listing_eq := rfl
  unread_eq := by decide

/-- The enumeration fails at once and the run reports success. -/
theorem not_complete :
    ¬ ∀ (endOfDirectory : ℤ) (listing : List Entry) (r : Results endOfDirectory listing),
      Complete endOfDirectory listing (optionDumpSyslogs r) := by
  intro h
  obtain ⟨handle, hmem⟩ := (h _ _ failedRead).enumerated (by decide)
  simp [optionDumpSyslogs, failedRead, copyLogs, done] at hmem

end DumpSyslogs

end RecoveryMenu

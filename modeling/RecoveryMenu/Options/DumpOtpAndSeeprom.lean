import RecoveryMenu.Foundations.ByteMemory
import RecoveryMenu.Fsa
import RecoveryMenu.Menu
import RecoveryMenu.Utils.Eeprom

set_option relaxedAutoImplicit false
set_option autoImplicit false

/-!
# Dumping the OTP and the SEEPROM (`ios_mcp/source/options/DumpOtpAndSeeprom.c`)

`read_otp_seeprom` reads both into a buffer, for the options that report on the console. The
option of this file reads them one after the other and writes each to a file on the SD card.

A write that stores nothing returns `0`, which is not the size of the file, and
`write_file_to_sd` reports it; but it returns that `0`, which its caller takes for success.

## Main definitions

* `RecoveryMenu.DumpOtpAndSeeprom.readOtpSeeprom`, `RecoveryMenu.DumpOtpAndSeeprom.writeFileToSd`.
* `RecoveryMenu.DumpOtpAndSeeprom.optionDumpOtpAndSeeprom`: a run of the option.
* `RecoveryMenu.DumpOtpAndSeeprom.Run.Honest`: success is reported for complete files only.

## Main results

* `RecoveryMenu.DumpOtpAndSeeprom.readOtpSeeprom_eq`: what a successful read leaves.
* `RecoveryMenu.DumpOtpAndSeeprom.honest_iff`: the runs that report success honestly.

## References

* `ios_mcp/source/options/DumpOtpAndSeeprom.c`.
-/

namespace RecoveryMenu

namespace DumpOtpAndSeeprom

open ByteMemory Eeprom Fsa Menu

/-! ## Reading both -/

/-- The bytes of a SEEPROM that gives these words. -/
def seepromBytes (bspRead : ℕ → ℤ × UInt16) : List UInt8 :=
  ((List.range' 0 0x100).map fun i => (bspRead i).2).flatMap bytesOfHalf

/-- `seeprom[i]`, where `seeprom` is the second part of the buffer. -/
def seepromWord (buf : Frame) (i : ℕ) : UInt16 :=
  UInt16.ofNat (BigEndian.toNat (buf.load (0x400 + 2 * i) 2))

/-- The value returned, the buffer, and what was shown. -/
structure ReadOutcome (Call : Type) where
  res : ℤ
  buf : Frame
  events : List (Event Call)

/-- `read_otp_seeprom(buf, index)`, where `IOS_ReadOTP` returns `readOTP` and the OTP is
`otp`. -/
def readOtpSeeprom {Call : Type} (readOTP : ℤ) (otp : Vector UInt8 0x400)
    (bspRead : ℕ → ℤ × UInt16) (buf : Frame) : ReadOutcome Call :=
  if readOTP < 0 then ⟨readOTP, buf, [.printError "Failed to read OTP: %x" [.int readOTP]]⟩
  else
    let buf := buf.store 0 otp.toList
    let (res, words) := eepromRead bspRead 0 0x100 []
    let buf := buf.store 0x400 (words.flatMap bytesOfHalf)
    if res < 0 then ⟨res, buf, [.printError "Failed to read EEPROM: %x" [.int res]]⟩
    else ⟨0, buf, []⟩

/-- `read_otp_seeprom` returns `0` iff the OTP and every word of the SEEPROM can be read. -/
lemma readOtpSeeprom_res_eq_zero_iff {Call : Type} {readOTP : ℤ} {otp : Vector UInt8 0x400}
    {bspRead : ℕ → ℤ × UInt16} {buf : Frame} :
    (readOtpSeeprom readOTP otp bspRead buf : ReadOutcome Call).res = 0 ↔
      0 ≤ readOTP ∧ ∀ i < 0x100, 0 ≤ (bspRead i).1 := by
  have hfail := eepromRead_lt_zero_iff bspRead []
  simp only [readOtpSeeprom]
  split_ifs with hotp heeprom
  · simp only [not_le.mpr hotp, false_and, iff_false]
    omega
  · simp only [hfail.mp heeprom, and_false, iff_false]
    omega
  · have hall := not_not.mp (mt hfail.mpr heeprom)
    simp only [true_iff]
    exact ⟨not_lt.mp hotp, hall⟩

/-- What a successful `read_otp_seeprom` leaves in the buffer. -/
theorem readOtpSeeprom_eq {Call : Type} {readOTP : ℤ} {otp : Vector UInt8 0x400}
    {bspRead : ℕ → ℤ × UInt16} {buf : Frame} (hotp : 0 ≤ readOTP)
    (hread : ∀ i < 0x100, 0 ≤ (bspRead i).1) :
    (readOtpSeeprom readOTP otp bspRead buf : ReadOutcome Call) =
      ⟨0, (buf.store 0 otp.toList).store 0x400 (seepromBytes bspRead), []⟩ := by
  simp only [readOtpSeeprom, if_neg (not_lt.mpr hotp), eepromRead_eq_of_readable hread,
    lt_irrefl, if_false, seepromBytes]

/-! ## The option -/

/-- The results of the calls of `write_file_to_sd` for a file of the given size. The result
`n ≥ 0` of the write means that the first `n` bytes were stored. -/
structure WriteResults (size : ℕ) where
  openFile : ℤ
  fileHandle : ℤ
  writeFile : ℤ
  writeFile_le : writeFile ≤ size

/-- The outcome of `write_file_to_sd`: the value returned, the content of the file if it was
created, and what was shown and called. -/
structure Written where
  res : ℤ
  file : Option (List UInt8)
  events : List (Event Call)
  deriving DecidableEq, Repr

/-- `write_file_to_sd(&index, fsaHandle, filename, buf, size)`. In `res != size` the comparison
is one of unsigned numbers, which a negative `res` fails too. -/
def writeFileToSd {size : ℕ} (w : WriteResults size) (filename : String) (buf : List UInt8) :
    Written :=
  let created := [.print "Creating %s..." [.str filename],
    .call (.openFile ("/vol/storage_recovsd/" ++ filename) "w" w.openFile w.fileHandle)]
  if w.openFile < 0 then
    ⟨w.openFile, none, created ++
      [.printError "Failed to create %s: %x" [.str filename, .int w.openFile]]⟩
  else
    let stored := buf.take w.writeFile.toNat
    let wrote := created ++ [.call (.writeFile size w.fileHandle w.writeFile),
      .call (.closeFile w.fileHandle)]
    if w.writeFile ≠ size then
      ⟨w.writeFile, some stored, wrote ++
        [.printError "Failed to write %s: %x" [.str filename, .int w.writeFile]]⟩
    else ⟨0, some stored, wrote⟩

/-- The results of the calls made in a run. -/
structure Results where
  heapAlloc : Bool
  readOTP : ℤ
  otp : Vector UInt8 0x400
  bspRead : ℕ → ℤ × UInt16
  otpBin : WriteResults 0x400
  seepromBin : WriteResults 0x200

/-- A run: what it shows and calls, and the outcome of `write_file_to_sd` for each file it got
to. -/
structure Run where
  events : List (Event Call)
  otpBin : Option Written
  seepromBin : Option Written

/-- The second half of the option, with `buf` the data buffer. -/
def dumpSeeprom (r : Results) (buf : List UInt8) : List (Event Call) × Option Written :=
  let (res, words) := eepromRead r.bspRead 0 0x100 []
  let buf := overwrite buf 0 (words.flatMap bytesOfHalf)
  let reading := [.print "Reading SEEPROM..." []]
  if res < 0 then
    (reading ++ [.call .heapFree, .printError "Failed to read EEPROM: %x" [.int res]], none)
  else
    let file := writeFileToSd r.seepromBin "seeprom.bin" buf
    if file.res ≠ 0 then (reading ++ file.events ++ [.call .heapFree], some file)
    else
      (reading ++ file.events ++ [.setNotificationLED notifLedPurple, .print "Done!" [],
        .waitButtonInput, .call .heapFree], some file)

/-- `option_DumpOtpAndSeeprom()`. -/
def optionDumpOtpAndSeeprom (r : Results) : Run :=
  let start := [.drawTopBar "Dumping OTP + SEEPROM...", .setNotificationLED notifLedRedBlinking,
    .call (.heapAlloc 0x400 r.heapAlloc)]
  if ¬ r.heapAlloc then ⟨start ++ [.printError "Out of memory!" []], none, none⟩
  else
    let reading := start ++ [.print "Reading OTP..." []]
    if r.readOTP < 0 then
      ⟨reading ++ [.call .heapFree, .printError "Failed to read OTP: %x" [.int r.readOTP]],
        none, none⟩
    else
      let buf := r.otp.toList
      let file := writeFileToSd r.otpBin "otp.bin" buf
      if file.res ≠ 0 then ⟨reading ++ file.events ++ [.call .heapFree], some file, none⟩
      else
        let rest := dumpSeeprom r buf
        ⟨reading ++ file.events ++ rest.1, some file, rest.2⟩

/-! ## What is reported -/

/-- `write_file_to_sd` returns `0` iff the file was created and the write stored all of it or
nothing. -/
lemma writeFileToSd_res_eq_zero_iff {size : ℕ} (w : WriteResults size) (filename : String)
    (buf : List UInt8) : (writeFileToSd w filename buf).res = 0 ↔
      0 ≤ w.openFile ∧ (w.writeFile = 0 ∨ w.writeFile = size) := by
  simp only [writeFileToSd]
  split_ifs with hopen hwrite
  · exact iff_of_false hopen.ne fun h => absurd h.1 (not_le.mpr hopen)
  · rw [and_iff_right (not_lt.mp hopen), or_iff_left hwrite]
  · exact iff_of_true rfl ⟨not_lt.mp hopen, Or.inr (not_not.mp hwrite)⟩

/-- The file has all bytes iff it was created and the write stored all of them. -/
lemma writeFileToSd_file_eq_iff {size : ℕ} (w : WriteResults size) (filename : String)
    (buf : List UInt8) (hpos : 0 < size) (hsize : size ≤ buf.length) :
    (writeFileToSd w filename buf).file = some (buf.take size) ↔
      0 ≤ w.openFile ∧ w.writeFile = size := by
  have hstored : buf.take w.writeFile.toNat = buf.take size ↔ w.writeFile.toNat = size := by
    constructor
    · intro htake
      have hle : w.writeFile.toNat ≤ size := Int.toNat_le.mpr w.writeFile_le
      have hlength := congrArg List.length htake
      rwa [List.length_take, List.length_take, Nat.min_eq_left (hle.trans hsize),
        Nat.min_eq_left hsize] at hlength
    · exact fun htoNat => by rw [htoNat]
  simp only [writeFileToSd]
  split_ifs with hopen hwrite
  · exact iff_of_false (by simp) fun h => absurd h.1 (not_le.mpr hopen)
  · rw [Option.some_inj, hstored]
    omega
  · rw [Option.some_inj, hstored]
    omega

/-- `write_file_to_sd` returns `0` exactly for a complete file, but where a write stores
nothing. -/
lemma writeFileToSd_exact_iff {size : ℕ} (w : WriteResults size) (filename : String)
    (buf : List UInt8) (hpos : 0 < size) (hsize : size ≤ buf.length) :
    ((writeFileToSd w filename buf).res = 0 ↔
        (writeFileToSd w filename buf).file = some (buf.take size)) ↔
      ¬ (0 ≤ w.openFile ∧ w.writeFile = 0) := by
  rw [writeFileToSd_res_eq_zero_iff, writeFileToSd_file_eq_iff w filename buf hpos hsize]
  omega

/-- The text that reports success. -/
def done : Event Call := .print "Done!" []

/-- `write_file_to_sd` does not report success for the option. -/
lemma done_not_mem_writeFileToSd {size : ℕ} (w : WriteResults size) (filename : String)
    (buf : List UInt8) : done ∉ (writeFileToSd w filename buf).events := by
  simp only [writeFileToSd]
  split_ifs
  all_goals simp [done]

/-- A run reports honestly: it ends with success only if both files are complete, and
`write_file_to_sd` returns `0` for a file iff it is complete. -/
structure Run.Honest (r : Results) (run : Run) : Prop where
  complete : done ∈ run.events → run.otpBin.bind Written.file = some r.otp.toList ∧
    run.seepromBin.bind Written.file = some (seepromBytes r.bspRead)
  otpBin : ∀ w ∈ run.otpBin, w.res = 0 ↔ w.file = some r.otp.toList
  seepromBin : ∀ w ∈ run.seepromBin, w.res = 0 ↔ w.file = some (seepromBytes r.bspRead)

/-- A write that the run gets to stores nothing, without an error. -/
def ZeroWrite (r : Results) : Prop :=
  r.heapAlloc = true ∧ 0 ≤ r.readOTP ∧ 0 ≤ r.otpBin.openFile ∧
    (r.otpBin.writeFile = 0 ∨ r.otpBin.writeFile = 0x400 ∧ (∀ i < 0x100, 0 ≤ (r.bspRead i).1) ∧
      0 ≤ r.seepromBin.openFile ∧ r.seepromBin.writeFile = 0)

/-- The second half of the option after a successful read: the buffer starts with the SEEPROM. -/
lemma dumpSeeprom_eq {r : Results} (hread : ∀ i < 0x100, 0 ≤ (r.bspRead i).1) (buf : List UInt8) :
    dumpSeeprom r buf =
      let file := writeFileToSd r.seepromBin "seeprom.bin"
        (seepromBytes r.bspRead ++ buf.drop (seepromBytes r.bspRead).length)
      if file.res ≠ 0 then
        ([.print "Reading SEEPROM..." []] ++ file.events ++ [.call .heapFree], some file)
      else
        ([.print "Reading SEEPROM..." []] ++ file.events ++
          [.setNotificationLED notifLedPurple, done, .waitButtonInput, .call .heapFree],
          some file) := by
  simp only [dumpSeeprom, eepromRead_eq_of_readable hread, lt_irrefl, if_false]
  rw [← seepromBytes, overwrite, List.take_zero, List.nil_append, Nat.zero_add]
  rfl

/-- The second half of the option after a failed read. -/
lemma dumpSeeprom_of_not {r : Results} (hread : ¬ ∀ i < 0x100, 0 ≤ (r.bspRead i).1)
    (buf : List UInt8) : (dumpSeeprom r buf).2 = none ∧ done ∉ (dumpSeeprom r buf).1 := by
  have hfail := (eepromRead_lt_zero_iff r.bspRead []).mpr hread
  simp only [dumpSeeprom, if_pos hfail]
  exact ⟨trivial, by simp [done]⟩

/-- A SEEPROM has `0x200` bytes. -/
lemma length_seepromBytes (bspRead : ℕ → ℤ × UInt16) :
    (seepromBytes bspRead).length = 0x200 := by
  rw [seepromBytes, length_flatMap_bytesOfHalf, List.length_map, List.length_range']

/-- The second half of the option reports success only after the SEEPROM was written. -/
lemma exists_of_done_mem_dumpSeeprom {r : Results} {buf : List UInt8}
    (h : done ∈ (dumpSeeprom r buf).1) : ∃ w ∈ (dumpSeeprom r buf).2, w.res = 0 := by
  by_cases hread : ∀ i < 0x100, 0 ≤ (r.bspRead i).1
  · rw [dumpSeeprom_eq hread] at h ⊢
    have hdone := done_not_mem_writeFileToSd r.seepromBin "seeprom.bin"
      (seepromBytes r.bspRead ++ buf.drop (seepromBytes r.bspRead).length)
    simp only at h ⊢
    split_ifs at h ⊢ with hres
    · simp only [List.mem_append, hdone, or_false] at h
      simp [done] at h
    · exact ⟨_, rfl, not_not.mp hres⟩
  · exact absurd h (dumpSeeprom_of_not hread buf).2

/-- In the second half of the option, `write_file_to_sd` returns `0` for a complete file only,
but where it gets to a write that stores nothing. -/
lemma dumpSeeprom_exact_iff (r : Results) (buf : List UInt8) :
    (∀ w ∈ (dumpSeeprom r buf).2, w.res = 0 ↔ w.file = some (seepromBytes r.bspRead)) ↔
      ¬ ((∀ i < 0x100, 0 ≤ (r.bspRead i).1) ∧ 0 ≤ r.seepromBin.openFile ∧
        r.seepromBin.writeFile = 0) := by
  by_cases hread : ∀ i < 0x100, 0 ≤ (r.bspRead i).1
  · have hlength := length_seepromBytes r.bspRead
    have hexact := writeFileToSd_exact_iff r.seepromBin "seeprom.bin"
      (seepromBytes r.bspRead ++ buf.drop (seepromBytes r.bspRead).length)
      (by omega) (by rw [List.length_append]; omega)
    rw [List.take_left' hlength] at hexact
    have hfile : (dumpSeeprom r buf).2 = some (writeFileToSd r.seepromBin "seeprom.bin"
        (seepromBytes r.bspRead ++ buf.drop (seepromBytes r.bspRead).length)) := by
      rw [dumpSeeprom_eq hread]
      simp only
      split_ifs
      · rfl
      · rfl
    simp only [hfile, Option.mem_def, Option.some_inj, forall_eq']
    rw [hexact, and_iff_right hread]
  · rw [(dumpSeeprom_of_not hread buf).1]
    exact iff_of_true (fun w hw => absurd hw (Option.not_mem_none w)) fun h => hread h.1

/-- Where success is reported only after both files were written, a run is honest iff
`write_file_to_sd` returns `0` for complete files only. -/
lemma honest_iff_exact {r : Results} {run : Run}
    (hdone : done ∈ run.events →
      (∃ w ∈ run.otpBin, w.res = 0) ∧ ∃ w ∈ run.seepromBin, w.res = 0) :
    run.Honest r ↔ (∀ w ∈ run.otpBin, w.res = 0 ↔ w.file = some r.otp.toList) ∧
      ∀ w ∈ run.seepromBin, w.res = 0 ↔ w.file = some (seepromBytes r.bspRead) := by
  refine ⟨fun h => ⟨h.otpBin, h.seepromBin⟩,
    fun ⟨hotp, hseeprom⟩ => ⟨fun hmem => ?_, hotp, hseeprom⟩⟩
  obtain ⟨⟨w, hw, hres⟩, ⟨w', hw', hres'⟩⟩ := hdone hmem
  rw [Option.mem_def.mp hw, Option.mem_def.mp hw']
  exact ⟨(hotp w hw).mp hres, (hseeprom w' hw').mp hres'⟩

/-- **When a dump is honest.** For every OTP and SEEPROM and all results of the calls of a run: the
run reports honestly iff it gets to no write that stores nothing.

**Proof sketch.** `write_file_to_sd` returns `0` for a file iff it is complete, but where a write
stores nothing (`writeFileToSd_exact_iff`); and success is reported only after it returned `0`
for both files. -/
theorem honest_iff (r : Results) :
    (optionDumpOtpAndSeeprom r).Honest r ↔ ¬ ZeroWrite r := by
  have hotp := writeFileToSd_exact_iff r.otpBin "otp.bin" r.otp.toList (by omega)
    Vector.length_toList.ge
  rw [List.take_of_length_le Vector.length_toList.le] at hotp
  have hotpDone := done_not_mem_writeFileToSd r.otpBin "otp.bin" r.otp.toList
  have hotpRes := writeFileToSd_res_eq_zero_iff r.otpBin "otp.bin" r.otp.toList
  simp only [optionDumpOtpAndSeeprom, ZeroWrite]
  by_cases halloc : r.heapAlloc = true
  swap
  · rw [if_pos halloc, honest_iff_exact (by simp [done])]
    simp [halloc]
  by_cases hread : r.readOTP < 0
  · rw [if_neg (not_not.mpr halloc), if_pos hread, honest_iff_exact (by simp [done])]
    simp [not_le.mpr hread]
  rw [if_neg (not_not.mpr halloc), if_neg hread, and_iff_right halloc,
    and_iff_right (not_lt.mp hread)]
  by_cases hres : (writeFileToSd r.otpBin "otp.bin" r.otp.toList).res = 0
  · -- the option goes on to the second file
    obtain ⟨hopen, hwrite⟩ := hotpRes.mp hres
    rw [if_neg (not_not.mpr hres), honest_iff_exact, dumpSeeprom_exact_iff]
    · simp only [Option.mem_def, Option.some_inj, forall_eq', hotp]
      rw [← not_or, and_iff_right hopen, and_iff_right hopen]
      rcases hwrite with hzero | hall
      · simp [hzero]
      · simp [hall]
    · intro hdone
      refine ⟨⟨_, rfl, hres⟩, ?_⟩
      rcases List.mem_append.mp hdone with hdone | hdone
      · simp only [List.mem_append, hotpDone, or_false] at hdone
        simp [done] at hdone
      · exact exists_of_done_mem_dumpSeeprom hdone
  · -- the option ends after the first file
    rw [if_pos hres, honest_iff_exact (by simpa [done] using hotpDone)]
    have hnot : ¬ (0 ≤ r.otpBin.openFile ∧ r.otpBin.writeFile = 0) := fun h =>
      hres (hotpRes.mpr ⟨h.1, Or.inl h.2⟩)
    simp only [Option.mem_def, Option.some_inj, forall_eq', reduceCtorEq, false_implies,
      implies_true, and_true, hotp]
    exact iff_of_true hnot fun h => hres (hotpRes.mpr ⟨h.1, h.2.imp_right And.left⟩)

/-- Results of a run whose first write stores nothing. -/
def emptyOtp : Results where
  heapAlloc := true
  readOTP := 0
  otp := Vector.replicate 0x400 0
  bspRead := fun _ => (0, 0)
  otpBin := ⟨0, 1, 0, by decide⟩
  seepromBin := ⟨0, 2, 0x200, by decide⟩

/-- With an empty `otp.bin` the run reports success. -/
theorem not_honest : ¬ ∀ r : Results, (optionDumpOtpAndSeeprom r).Honest r := by
  intro h
  have hexact := (h emptyOtp).otpBin _ rfl
  exact absurd (hexact.mp (by decide)) (by decide)

end DumpOtpAndSeeprom

end RecoveryMenu

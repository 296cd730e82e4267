import RecoveryMenu.Options.SubmitSystemData.Serial
import RecoveryMenu.Options.SystemInformation

set_option relaxedAutoImplicit false
set_option autoImplicit false

/-!
# The two readers of the serial number

`option_SystemInformation` shows the code id and the serial number, too, but copies each out of
its field first and ends it by a NUL. `option_SubmitSystemData` formats them where they are. A
code id of eight characters has no NUL in its field, and then the submitted string runs on into
the serial number and has it twice.

## Main definitions

* `RecoveryMenu.SubmitSystemData.SerialsAgree`: the two options read the same serial number.

## Main results

* `ByteMemory.Frame.take_cString_append_eq_iff`: when the bound of the first of two adjacent
  fields does not matter.
* `RecoveryMenu.SubmitSystemData.serialsAgree_iff`: when the two options agree.

## References

* `ios_mcp/source/options/SubmitSystemData.c`, lines 257-260.
* `ios_mcp/source/options/SystemInformation.c`, lines 97-112.
-/

namespace ByteMemory

namespace Frame

/-- Cutting off later does not change the characters up to an earlier limit, behind any string. -/
theorem take_append_cString (f : Frame) (cs : List UInt8) (off : ℕ) {n l l' : ℕ} (hl : n ≤ l)
    (hl' : n ≤ l') :
    (cs ++ f.cString off l).take n = (cs ++ f.cString off l').take n := by
  have hle : n - cs.length ≤ n := Nat.sub_le n cs.length
  rw [List.take_append, List.take_append, take_cString f off (hle.trans hl),
    take_cString f off (hle.trans hl')]

/-- **Two adjacent fields.** The first `n + m` characters of their strings are the same with and
without the bound of `n` bytes of the first field iff it has a NUL, or the second field starts
with one, or the second field has none in its first `m` bytes.

**Proof sketch.** Without a NUL in the first field its string runs on over the first `m`
characters `t` of the second field, and these come again behind it. What comes again is cut off
iff there is nothing of it or `t` has `m` characters already. -/
theorem take_cString_append_eq_iff (f : Frame) (off n m : ℕ) {l l' : ℕ} (hpos : 0 < l)
    (hl : n + m ≤ l) (hl' : n + m ≤ l') :
    (f.cString off (n + m) ++ f.cString (off + n) l).take (n + m) =
        (f.cString off n ++ f.cString (off + n) l').take (n + m) ↔
      0 ∈ f.load off n ∨ f (off + n) = 0 ∨ 0 ∉ f.load (off + n) m := by
  rw [cString_add]
  by_cases hnul : 0 ∈ f.load off n
  · rw [if_pos hnul]
    exact iff_of_true (take_append_cString f _ _ hl hl') (Or.inl hnul)
  · obtain ⟨k, rfl⟩ := Nat.exists_eq_succ_of_ne_zero hpos.ne'
    have hfirst (cs : List UInt8) :
        (f.load off n ++ cs).take (n + m) = f.load off n ++ cs.take m := by
      rw [List.take_append, length_load, Nat.add_sub_cancel_left, List.take_of_length_le]
      rw [length_load]
      exact Nat.le_add_right n m
    have ht : (f.cString (off + n) m).length ≤ m := by
      rw [cString]
      exact (List.takeWhile_prefix _).length_le.trans (length_load f _ _).le
    rw [if_neg hnul, cString_of_not_mem hnul, List.append_assoc, hfirst, hfirst,
      List.append_right_inj, take_cString f _ (by omega), List.take_append,
      List.take_of_length_le ht, List.append_right_eq_self, List.take_eq_nil_iff,
      Nat.sub_eq_zero_iff_le, cString_succ_eq_nil_iff, or_iff_right hnul, or_comm,
      ← length_cString_eq_iff, ht.ge_iff_eq]

end Frame

end ByteMemory

namespace RecoveryMenu

namespace SubmitSystemData

open ByteMemory DumpOtpAndSeeprom Menu

/-- The string in an array that was filled with it and has room for its NUL. -/
lemma takeWhile_charArray {n : ℕ} {cs : List UInt8} (hne : ∀ c ∈ cs, c ≠ 0)
    (hlength : cs.length < n) : (charArray n cs).toList.takeWhile (· ≠ 0) = cs := by
  obtain ⟨k, rfl⟩ := Nat.exists_eq_add_of_lt hlength
  have hlist : (charArray (cs.length + k + 1) cs).toList = cs ++ List.replicate (k + 1) 0 := by
    apply List.ext_getElem
    · simp
      omega
    · intro i h₁ h₂
      rw [Vector.getElem_toList, getElem_charArray, List.getD_eq_getElem?_getD,
        List.getElem_append]
      split_ifs with hi
      · rw [List.getElem?_eq_getElem hi, Option.getD_some]
      · rw [List.getElem?_eq_none (not_lt.mp hi), List.getElem_replicate, Option.getD_none]
  rw [hlist, List.takeWhile_append_of_pos fun c hc => decide_eq_true (hne c hc),
    List.replicate_succ, List.takeWhile_cons_of_neg (by decide), List.append_nil]

/-- The serial number that an event shows. -/
def shownBy : Event Fsa.Call → Option (List UInt8)
  | .print format [.chars code, .chars serial] =>
    if format = "Serial:   %s%s" then some (code ++ serial) else none
  | _ => none

/-- The serial number that the system information shows. -/
def shownSerial (events : List (Event Fsa.Call)) : Option (List UInt8) :=
  events.findSome? shownBy

/-- The system information gets to the serial number: the OTP and the SEEPROM are read. -/
def ShowsSerial (q : SystemInformation.Results) : Prop :=
  q.heapAlloc = true ∧ 0 ≤ q.readOTP ∧ ∀ i < 0x100, 0 ≤ (q.bspRead i).1

/-- The serial number before it is masked is the first 15 characters of the one shown. -/
def SerialsAgree (r : Results) (q : SystemInformation.Results) : Prop :=
  ∃ shown, shownSerial (SystemInformation.optionSystemInformation q) = some shown ∧
    (systemSerial (recordBuffer r)).toList.takeWhile (· ≠ 0) = shown.take 15

/-- The string that is submitted. -/
lemma takeWhile_systemSerial (buf : Frame) :
    (systemSerial buf).toList.takeWhile (· ≠ 0) =
      (buf.cString 0x558 15 ++ buf.cString 0x560 15).take 15 := by
  rw [systemSerial, takeWhile_charArray]
  · intro c hc
    rcases List.mem_append.mp (List.mem_of_mem_take hc) with hc | hc
    · exact Frame.ne_zero_of_mem_cString hc
    · exact Frame.ne_zero_of_mem_cString hc
  · rw [List.length_take]
    omega

/-- The string that is shown. -/
lemma shownSerial_eq {q : SystemInformation.Results} (h : ShowsSerial q) :
    shownSerial (SystemInformation.optionSystemInformation q) =
      some (((q.heap.store 0 q.otp.toList).store 0x400 (seepromBytes q.bspRead)).cString 0x558 8 ++
        ((q.heap.store 0 q.otp.toList).store 0x400 (seepromBytes q.bspRead)).cString 0x560 16) := by
  obtain ⟨halloc, hotp, hread⟩ := h
  simp only [SystemInformation.optionSystemInformation, readOtpSeeprom_eq hotp hread, halloc]
  rfl

/-- A byte of the SEEPROM in the buffer of the record. -/
lemma recordBuffer_eq_zero_iff (r : Results) {off : ℕ} (h : off + 1 ≤ 0x200) :
    recordBuffer r (0x400 + off) = 0 ↔ (seepromBytes r.bspRead)[off]? = some 0 := by
  have hload : [recordBuffer r (0x400 + off)] = (seepromBytes r.bspRead)[off]?.toList := by
    rw [← List.head?_drop, ← List.take_one, ← load_recordBuffer r h]
    rfl
  cases hbyte : (seepromBytes r.bspRead)[off]? with
  | none =>
    rw [hbyte] at hload
    cases hload
  | some byte =>
    rw [hbyte] at hload
    rw [List.head_eq_of_cons_eq hload, Option.some_inj]

/-- The two options agree iff the bound of the code id does not matter in the buffer. -/
lemma serialsAgree_iff_load {r : Results} {q : SystemInformation.Results} (hq : ShowsSerial q)
    (hsame : seepromBytes q.bspRead = seepromBytes r.bspRead) :
    SerialsAgree r q ↔
      0 ∈ (recordBuffer r).load 0x558 8 ∨ recordBuffer r 0x560 = 0 ∨
        0 ∉ (recordBuffer r).load 0x560 7 := by
  have hload (off n : ℕ) (h : off + n ≤ 0x200) :
      ((q.heap.store 0 q.otp.toList).store 0x400 (seepromBytes q.bspRead)).load (0x400 + off) n =
        (recordBuffer r).load (0x400 + off) n := by
    rw [load_seeprom _ _ h, load_recordBuffer r h, hsame]
  have hshown : shownSerial (SystemInformation.optionSystemInformation q) =
      some ((recordBuffer r).cString 0x558 8 ++ (recordBuffer r).cString 0x560 16) := by
    rw [shownSerial_eq hq]
    simp only [Frame.cString]
    rw [hload 0x158 8 (by omega), hload 0x160 16 (by omega)]
  rw [SerialsAgree, hshown, takeWhile_systemSerial]
  simp only [Option.some_inj, exists_eq_left']
  exact Frame.take_cString_append_eq_iff (recordBuffer r) 0x558 8 7 (by omega) (by omega)
    (by omega)

/-- **The two readers of the serial number.** For every SEEPROM `S` that both options read: the
string that is submitted, before it is masked, is the first 15 characters of the one shown iff
the code id has a NUL among its eight bytes, or the serial number starts with a NUL, or it has
none among its first seven bytes.

**Proof sketch.** Both read the same two adjacent fields, one of them without the bound of the
first (`ByteMemory.Frame.take_cString_append_eq_iff`). -/
theorem serialsAgree_iff {r : Results} {q : SystemInformation.Results} (hq : ShowsSerial q)
    (hsame : seepromBytes q.bspRead = seepromBytes r.bspRead) :
    SerialsAgree r q ↔
      0 ∈ ((seepromBytes r.bspRead).drop 0x158).take 8 ∨
        (seepromBytes r.bspRead)[0x160]? = some 0 ∨
        0 ∉ ((seepromBytes r.bspRead).drop 0x160).take 7 := by
  rw [serialsAgree_iff_load hq hsame, load_recordBuffer r (show 0x158 + 8 ≤ 0x200 by omega),
    recordBuffer_eq_zero_iff r (show 0x160 + 1 ≤ 0x200 by omega),
    load_recordBuffer r (show 0x160 + 7 ≤ 0x200 by omega)]

/-- A SEEPROM with the code id `ABCDEFGH`, which fills its field, and the serial number `123`. -/
def longCode (i : ℕ) : ℤ × UInt16 :=
  (0, if i = 0xAC then 0x4142 else if i = 0xAD then 0x4344 else if i = 0xAE then 0x4546
    else if i = 0xAF then 0x4748 else if i = 0xB0 then 0x3132 else if i = 0xB1 then 0x3300 else 0)

/-- Results of a run of the system information on a console with the given SEEPROM. -/
def shownSystem (bspRead : ℕ → ℤ × UInt16) : SystemInformation.Results where
  heapAlloc := true
  heap := fun _ => 0
  readOTP := 0
  otp := Vector.replicate 0x400 0
  bspRead := bspRead
  hardwareVersion := 0
  bspRev := 0x26100028
  regionHandle := -1
  regionGet := 0
  settings := sent.settings
  openVersion := -1
  verHandle := 0
  readVersion := 0
  versionBin := []
  mdReadInfo := 0
  blkDrv := sent.blkDrv
  getCID := sent.getCID
  getCSD := sent.getCID

/-- On a console with an empty SEEPROM the two options agree. -/
theorem serialsAgree_empty : SerialsAgree sent (shownSystem sent.bspRead) :=
  (serialsAgree_iff ⟨rfl, le_refl 0, fun _ _ => le_refl 0⟩ rfl).mpr
    (Or.inl (by decide +kernel))

/-- A code id of eight characters: the serial number is submitted twice. -/
theorem not_serialsAgree :
    ¬ ∀ (r : Results) (q : SystemInformation.Results), FillsRecord r → ShowsSerial q →
      seepromBytes q.bspRead = seepromBytes r.bspRead → SerialsAgree r q := by
  intro h
  have hshows : ShowsSerial (shownSystem longCode) := ⟨rfl, le_refl 0, fun _ _ => le_refl 0⟩
  have hfills : FillsRecord { sent with bspRead := longCode } :=
    ⟨by decide, rfl, le_refl 0, fun _ _ => le_refl 0⟩
  have hagree := h { sent with bspRead := longCode } (shownSystem longCode) hfills hshows rfl
  rw [serialsAgree_iff_load (r := { sent with bspRead := longCode }) hshows rfl] at hagree
  exact absurd hagree (by decide +kernel)

end SubmitSystemData

end RecoveryMenu

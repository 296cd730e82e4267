import RecoveryMenu.Options.SubmitSystemData.Submit

set_option relaxedAutoImplicit false
set_option autoImplicit false

/-!
# The layout of the data buffer (`ios_mcp/source/options/SubmitSystemData.c`)

A comment divides the data buffer into four regions: the OTP, the SEEPROM, the encrypted key and,
from byte `0x700` on, the record. The pointer to the record adds `0x700` to a pointer to records,
which moves it by `0x700` records. It stands at byte `0x10A000`, far behind the buffer, so every
run that gets to the record leaves the buffer.

## Main definitions

* `RecoveryMenu.SubmitSystemData.LayoutSafe`: the accesses of a run keep to the layout.

## Main results

* `RecoveryMenu.SubmitSystemData.layoutSafe_iff`: the runs that do are those that end before the
  record.

## References

* `ios_mcp/source/options/SubmitSystemData.c`, lines 38-81, 198-220 and 240-332.
-/

namespace RecoveryMenu

namespace SubmitSystemData

open ByteMemory DumpOtpAndSeeprom Menu

/-- The number of bytes that a pointer points to. -/
def View.size : View → ℕ
  | .dataBuffer => dataBufferSize
  | .otp => 0x400
  | .seeprom => 0x200
  | .encKey => rsa2048BufSize
  | .pdh => 0x260

/-- The four regions of the buffer. -/
def regions : List View := [.otp, .seeprom, .encKey, .pdh]

/-- The accesses of a run keep to the layout of the buffer: each is inside the buffer, the record
is at byte `0x700`, the regions are disjoint, and filling the record leaves the OTP and the
SEEPROM as they are. -/
structure LayoutSafe (events : List (Event Call)) : Prop where
  inside : ∀ view ∈ regions, ∀ off len, .call (.access view off len) ∈ events →
    view.offset + off + len ≤ dataBufferSize
  string : ∀ view ∈ regions, ∀ off nul, .call (.accessString view off nul) ∈ events → nul ≠ none
  placed : ∀ off len, .call (.access .pdh off len) ∈ events → View.pdh.offset = 0x700
  disjoint : ∀ u ∈ regions, ∀ v ∈ regions, u ≠ v →
    u.offset + u.size ≤ v.offset ∨ v.offset + v.size ≤ u.offset
  kept : ∀ (buf : Frame) (off : ℕ) (bytes : List UInt8),
    ∀ i < View.seeprom.offset + View.seeprom.size,
      buf.store (View.pdh.offset + off) bytes i = buf i

/-- The regions are disjoint, wherever the record is. -/
lemma regions_disjoint : ∀ u ∈ regions, ∀ v ∈ regions, u ≠ v →
    u.offset + u.size ≤ v.offset ∨ v.offset + v.size ≤ u.offset := by
  decide

/-- A store to the record leaves the OTP and the SEEPROM as they are. -/
lemma store_pdh_eq (buf : Frame) (off : ℕ) (bytes : List UInt8) {i : ℕ}
    (hi : i < View.seeprom.offset + View.seeprom.size) :
    buf.store (View.pdh.offset + off) bytes i = buf i := by
  have hbefore : ¬ View.pdh.offset + off ≤ i := by
    simp only [View.offset, View.size] at hi ⊢
    omega
  rw [Frame.store, if_neg hbefore]

/-- The record is zeroed first. -/
lemma access_pdh_mem_submitCollect (r : Results) (buf : Frame) :
    .call (.access .pdh 0 0x240) ∈ (submitCollect r buf).events := by
  simp only [submitCollect]
  split_ifs
  · exact List.mem_append_left _ List.mem_cons_self
  · exact List.mem_append_left _ (List.mem_append_left _ List.mem_cons_self)
  · split
    · exact List.mem_append_left _ (List.mem_append_left _ (List.mem_append_left _
        List.mem_cons_self))
    · exact List.mem_append_left _ (List.mem_append_left _ (List.mem_append_left _
        (List.mem_append_left _ List.mem_cons_self)))

/-- A run that gets to the record accesses it. -/
lemma access_pdh_mem {r : Results} (h : FillsRecord r) :
    .call (.access .pdh 0 0x240) ∈ (optionSubmitSystemData r).events := by
  obtain ⟨hselected, halloc, hotp, hread⟩ := h
  have hres : (readOtpSeeprom r.readOTP r.otp r.bspRead r.heap : ReadOutcome Call).res = 0 :=
    readOtpSeeprom_res_eq_zero_iff.mpr ⟨hotp, hread⟩
  simp only [optionSubmitSystemData, if_neg hselected, halloc, not_true_eq_false, if_false,
    hres, ne_eq]
  exact List.mem_append_right _ (access_pdh_mem_submitCollect r _)

/-- The event is an access inside the region of the OTP or the SEEPROM, or no access. -/
def ReadsInside : Event Call → Prop
  | .call (.access view off len) =>
    view = .otp ∧ off + len ≤ 0x400 ∨ view = .seeprom ∧ off + len ≤ 0x200
  | .call (.accessString _ _ _) => False
  | _ => True

/-- A failed read of the OTP and the SEEPROM shows an error. -/
lemma readsInside_readEvents (r : Results) :
    ∀ e ∈ (readOtpSeeprom r.readOTP r.otp r.bspRead r.heap : ReadOutcome Call).events,
      ReadsInside e := by
  simp only [readOtpSeeprom]
  split_ifs
  all_goals simp [ReadsInside]

/-- `EEPROM_Read` stores no more words than the SEEPROM has. -/
lemma length_eepromRead_le (bspRead : ℕ → ℤ × UInt16) :
    (Eeprom.eepromRead bspRead 0 0x100 []).2.length ≤ 0x100 := by
  rw [Eeprom.eepromRead_buf bspRead [] (show 0 + 0x100 ≤ 0x100 from le_refl _), List.drop_nil,
    List.append_nil]
  exact Eeprom.length_delivered_le bspRead 0 0x100

/-- The read of the OTP and the SEEPROM stores inside of their regions. -/
lemma readsInside_reads (r : Results) :
    ∀ e ∈ if r.readOTP < 0 then [] else [.call (.access .seeprom 0
      (2 * (Eeprom.eepromRead r.bspRead 0 0x100 []).2.length))], ReadsInside e := by
  have hle := length_eepromRead_le r.bspRead
  split_ifs
  · exact List.forall_mem_nil _
  · refine List.forall_mem_singleton.mpr (Or.inr ⟨rfl, ?_⟩)
    omega

/-- A run that ends before the record only accesses the OTP and the SEEPROM, inside.

**Proof sketch.** The ways in which the run can end before the record, in turn. -/
lemma readsInside_of_not_fillsRecord {r : Results} (h : ¬ FillsRecord r) :
    ∀ e ∈ (optionSubmitSystemData r).events, ReadsInside e := by
  have hoffered : ∀ e ∈ ([.drawTopBar "Submit System Data", .print desc [],
      .drawMenu "Submit System Data" ["Cancel", "Submit Data"]] : List (Event Call)),
      ReadsInside e := by
    simp [ReadsInside]
  have hallocated : ∀ e ∈ ([.drawTopBar "Submit System Data",
      .call (.heapAlloc r.heapAlloc)] : List (Event Call)), ReadsInside e := by
    simp [ReadsInside]
  have hotp : ∀ e ∈ [.call (.access .otp 0 0x400)], ReadsInside e := by
    simp [ReadsInside]
  have hfree : ∀ e ∈ [(.call .heapFree : Event Call)], ReadsInside e := by
    simp [ReadsInside]
  by_cases hselected : r.selected = 0
  · simp only [optionSubmitSystemData, if_pos hselected, stop]
    exact hoffered
  by_cases halloc : r.heapAlloc = true
  · have hres : (readOtpSeeprom r.readOTP r.otp r.bspRead r.heap : ReadOutcome Call).res ≠ 0 :=
      fun hzero => h ⟨hselected, halloc, readOtpSeeprom_res_eq_zero_iff.mp hzero⟩
    simp only [optionSubmitSystemData, if_neg hselected, if_neg (not_not.mpr halloc), if_pos hres,
      stop, List.forall_mem_append]
    exact ⟨⟨⟨⟨⟨hoffered, hallocated⟩, hotp⟩, readsInside_reads r⟩, readsInside_readEvents r⟩,
      hfree⟩
  · simp only [optionSubmitSystemData, if_neg hselected, if_pos halloc, stop,
      List.forall_mem_append]
    exact ⟨⟨hoffered, hallocated⟩, List.forall_mem_singleton.mpr trivial⟩

/-- A run that ends before the record keeps to the layout. -/
lemma layoutSafe_of_not_fillsRecord {r : Results} (h : ¬ FillsRecord r) :
    LayoutSafe (optionSubmitSystemData r).events := by
  constructor
  · intro view _ off len he
    rcases readsInside_of_not_fillsRecord h _ he with ⟨rfl, hle⟩ | ⟨rfl, hle⟩
    · simp only [View.offset, dataBufferSize]
      omega
    · simp only [View.offset, dataBufferSize]
      omega
  · intro view _ off nul he
    exact absurd (readsInside_of_not_fillsRecord h _ he) not_false
  · intro off len he
    rcases readsInside_of_not_fillsRecord h _ he with ⟨hview, -⟩ | ⟨hview, -⟩
    all_goals cases hview
  · exact regions_disjoint
  · exact fun buf off bytes i hi => store_pdh_eq buf off bytes hi

/-- **When the layout holds.** For all results of the calls of a run: the run keeps to the layout
of the buffer iff the user cancels, or the buffer cannot be allocated, or the OTP or some word of
the SEEPROM cannot be read.

**Proof sketch.** Every other run zeroes the record first, at byte `0x10A000`. -/
theorem layoutSafe_iff (r : Results) :
    LayoutSafe (optionSubmitSystemData r).events ↔
      r.selected = 0 ∨ r.heapAlloc = false ∨ r.readOTP < 0 ∨ ∃ i < 0x100, (r.bspRead i).1 < 0 := by
  have hfills : ¬ FillsRecord r ↔
      r.selected = 0 ∨ r.heapAlloc = false ∨ r.readOTP < 0 ∨ ∃ i < 0x100, (r.bspRead i).1 < 0 := by
    simp only [FillsRecord, not_and_or, not_not, not_le, not_forall, Bool.not_eq_true, exists_prop]
  rw [← hfills]
  constructor
  · intro hsafe hrecord
    have hinside := hsafe.inside .pdh (by decide) 0 0x240 (access_pdh_mem hrecord)
    exact absurd hinside (by decide)
  · exact layoutSafe_of_not_fillsRecord

/-- A run in which all calls succeed writes the record outside of the buffer. -/
theorem not_layoutSafe : ¬ ∀ r : Results, LayoutSafe (optionSubmitSystemData r).events := by
  intro h
  have hfills : FillsRecord sent := ⟨by decide, rfl, le_refl 0, fun _ _ => le_refl 0⟩
  exact absurd ((h sent).inside .pdh (by decide) 0 0x240 (access_pdh_mem hfills)) (by decide)

end SubmitSystemData

end RecoveryMenu

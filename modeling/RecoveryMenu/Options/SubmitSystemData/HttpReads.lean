import RecoveryMenu.Foundations.Reading
import RecoveryMenu.Options.SubmitSystemData.StatusLine

set_option relaxedAutoImplicit false
set_option autoImplicit false

/-!
# What the parser reads and writes (`ios_mcp/source/options/SubmitSystemData.c`)

`parse_http_response`, loop by loop and with each byte that it reads. One cursor goes through both
loops: the first one stops at the end of the buffer, and the second one three bytes before it, so
that it can compare four bytes.

## Main definitions

* `RecoveryMenu.SubmitSystemData.parseReading`: the function, with the indices it reads.

## Main results

* `RecoveryMenu.SubmitSystemData.val_parseReading`: it is `parseHttpResponse`.
* `RecoveryMenu.SubmitSystemData.parseReading_frame`: the bounds of what is read, written and
  returned.

## References

* `ios_mcp/source/options/SubmitSystemData.c`, lines 95-153.
-/

namespace RecoveryMenu

namespace SubmitSystemData

open ByteMemory

/-! ## The function -/

/-- The test of a character of the response code. -/
def digitTest (buf : Frame) (i : ℕ) : Reading Bool :=
  (buf.test i (· < 0x30)).and (buf.test i (· > 0x39))

/-- The first loop, for the cursor `p` and the number of bytes from it to the end. -/
def crLoop (buf : Frame) : ℕ → ℕ → Reading (Option ℕ)
  | 0, _ => pure none
  | n + 1, p => do
    if ← buf.test p (· = 0x0D) then pure (some p)
    else crLoop buf n (p + 1)

/-- The second loop, for the cursor `p` and the number of places from it on. -/
def headerLoop (buf : Frame) : ℕ → ℕ → Reading (Option ℕ)
  | 0, _ => pure none
  | n + 1, p => do
    if ← buf.test p (· = 0x0D) then
      if ← buf.compare p headerEnd then pure (some p)
      else headerLoop buf n (p + 1)
    else headerLoop buf n (p + 1)

/-- The part of `parse_http_response` from the first loop on, with what it reads. -/
def findParts (buf : Frame) (len : ℕ) : Reading Parsed := do
  match ← crLoop buf (len - 13) 13 with
  | none => pure ⟨-3, buf, none, none⟩
  | some p =>
    let buf := buf.store p [0]
    if p + 1 = len then pure ⟨-3, buf, some 9, none⟩
    else
      match ← headerLoop buf (len - 3 - (p + 1)) (p + 1) with
      | none => pure ⟨0, buf, some 9, none⟩
      | some p => pure ⟨0, buf, some 9, if p + 4 < len then some (p + 4) else none⟩

/-- `parse_http_response(buf, len, &resp, &body)`, with what it reads. -/
def parseReading (buf : Frame) (len : ℕ) : Reading Parsed := do
  if len < 64 then pure ⟨-1, buf, none, none⟩
  else if !(← buf.compare 0 httpPrefix) then pure ⟨-1, buf, none, none⟩
  else if ← (buf.test 7 (· ≠ 0x30)).and (buf.test 7 (· ≠ 0x31)) then
    pure ⟨-1, buf, none, none⟩
  else if ← (buf.test 8 (· ≠ 0x20)).or ((buf.test 12 (· ≠ 0x20)).or
      ((digitTest buf 9).or ((digitTest buf 10).or (digitTest buf 11)))) then
    pure ⟨-2, buf, none, none⟩
  else findParts buf len

/-! ## Its value -/

/-- The first loop finds the first carriage return.

**Proof sketch.** Induction on the number of bytes. -/
lemma val_crLoop (buf : Frame) (n p : ℕ) :
    (crLoop buf n p).val = (List.range' p n).find? fun p => buf p = 0x0D := by
  induction n generalizing p with
  | zero => rfl
  | succ n ih =>
    rw [List.range'_succ, List.find?_cons, crLoop, Reading.val_bind, Reading.val_ite,
      Reading.val_pure, Frame.val_test, ih]
    by_cases hcr : buf p = 0x0D <;> simp [hcr]

/-- The second loop finds the first empty line.

**Proof sketch.** Induction on the number of places: an empty line starts with a carriage return. -/
lemma val_headerLoop (buf : Frame) (n p : ℕ) :
    (headerLoop buf n p).val = (List.range' p n).find? fun p => buf.load p 4 = headerEnd := by
  induction n generalizing p with
  | zero => rfl
  | succ n ih =>
    have hfour : headerEnd.length = 4 := rfl
    rw [List.range'_succ, List.find?_cons, headerLoop, Reading.val_bind, Reading.val_ite,
      Reading.val_bind, Reading.val_ite, Reading.val_pure, Frame.val_test, Frame.val_compare, ih,
      hfour]
    by_cases hcr : buf p = 0x0D
    · by_cases hend : buf.load p 4 = headerEnd <;> simp [hcr, hend]
    · have hend : buf.load p 4 ≠ headerEnd := by
        rw [Frame.load_succ]
        exact fun heq => hcr (List.cons.inj heq).1
      simp [hcr, hend]

/-- The value of the test of a character. -/
@[simp] lemma val_digitTest (buf : Frame) (i : ℕ) :
    (digitTest buf i).val = decide (notDigit (buf i)) := by
  simp [digitTest, notDigit]

/-- The value of the part from the first loop on. -/
lemma val_findParts (buf : Frame) (len : ℕ) :
    (findParts buf len).val =
      match findCr buf len with
      | none => ⟨-3, buf, none, none⟩
      | some p =>
        if p + 1 = len then ⟨-3, buf.store p [0], some 9, none⟩
        else ⟨0, buf.store p [0], some 9, findBody (buf.store p [0]) (p + 1) len⟩ := by
  rw [findParts, Reading.val_bind, val_crLoop, ← findCr]
  cases findCr buf len with
  | none => rfl
  | some p =>
    dsimp only
    rw [Reading.val_ite, Reading.val_bind, val_headerLoop, ← findHeaderEnd, findBody]
    cases findHeaderEnd (buf.store p [0]) (p + 1) len <;> rfl

/-- **The value.** With what it reads left out, this is `parseHttpResponse`. -/
theorem val_parseReading (buf : Frame) (len : ℕ) :
    (parseReading buf len).val = parseHttpResponse buf len := by
  have hseven : httpPrefix.length = 7 := rfl
  simp only [parseReading, parseHttpResponse, Reading.val_bind, Reading.val_ite, Reading.val_pure]
  simp only [Reading.val_and, Reading.val_or, Frame.val_test, Frame.val_compare, val_digitTest,
    hseven, Bool.not_eq_true', decide_eq_false_iff_not, Bool.and_eq_true, Bool.or_eq_true,
    decide_eq_true_eq]
  congr 4
  exact val_findParts buf len

/-! ## Bounds -/

/-- The first loop reads the bytes from the cursor on.

**Proof sketch.** Induction on the number of bytes. -/
lemma below_crLoop (buf : Frame) {n p len : ℕ} (h : p + n ≤ len) : (crLoop buf n p).Below len := by
  induction n generalizing p with
  | zero => exact .pure none
  | succ n ih =>
    refine .bind (Frame.below_test (by omega)) (.ite (fun _ => .pure (some p)) fun _ => ?_)
    exact ih (by omega)

/-- The second loop reads the bytes from the cursor on, and three more.

**Proof sketch.** Induction on the number of places. -/
lemma below_headerLoop (buf : Frame) {n p len : ℕ} (h : n ≠ 0 → p + n + 3 ≤ len) :
    (headerLoop buf n p).Below len := by
  induction n generalizing p with
  | zero => exact .pure none
  | succ n ih =>
    have hfour : headerEnd.length = 4 := rfl
    refine .bind (Frame.below_test (by omega)) (.ite (fun _ => ?_) fun _ => ih (by omega))
    refine .bind (Frame.below_compare (by omega)) (.ite (fun _ => .pure (some p)) fun _ => ?_)
    exact ih (by omega)

/-- What the part from the first loop on reads. -/
lemma below_findParts (buf : Frame) {len : ℕ} (hlen : 64 ≤ len) :
    (findParts buf len).Below len := by
  refine .bind (below_crLoop buf (by omega)) ?_
  rw [val_crLoop, ← findCr]
  cases hcr : findCr buf len with
  | none => exact .pure _
  | some p =>
    refine .ite (fun _ => .pure _) fun _ => .bind (below_headerLoop _ (by omega)) ?_
    cases (headerLoop (buf.store p [0]) (len - 3 - (p + 1)) (p + 1)).val with
    | none => exact .pure _
    | some q => exact .pure _

/-- What is read. -/
lemma below_parseReading (buf : Frame) (len : ℕ) : (parseReading buf len).Below len := by
  have hseven : httpPrefix.length = 7 := rfl
  have hdigit {i : ℕ} (hi : i < len) : (digitTest buf i).Below len :=
    .and (Frame.below_test hi) (Frame.below_test hi)
  refine .ite (fun _ => .pure _) fun hlen => ?_
  refine .bind (Frame.below_compare (by omega)) (.ite (fun _ => .pure _) fun _ => ?_)
  refine .bind (.and (Frame.below_test (by omega)) (Frame.below_test (by omega)))
    (.ite (fun _ => .pure _) fun _ => ?_)
  refine .bind ?_ (.ite (fun _ => .pure _) fun _ => below_findParts buf (not_lt.mp hlen))
  exact .or (Frame.below_test (by omega)) (.or (Frame.below_test (by omega))
    (.or (hdigit (by omega)) (.or (hdigit (by omega)) (hdigit (by omega)))))

/-- What is written: if anything, a NUL over the carriage return that ends the status line. -/
lemma parseHttpResponse_buf (buf : Frame) (len : ℕ) :
    (parseHttpResponse buf len).buf = buf ∨
      ∃ cr, EndsStatusLine buf len cr ∧ (parseHttpResponse buf len).buf = buf.store cr [0] := by
  by_cases hframes : 64 ≤ len ∧ FramesStatus buf
  · rw [parseHttpResponse_eq hframes.1 hframes.2]
    cases hcr : findCr buf len with
    | none => exact .inl rfl
    | some p =>
      refine .inr ⟨p, findCr_eq_some_iff.mp hcr, ?_⟩
      dsimp only
      split_ifs <;> rfl
  · obtain ⟨res, -, heq⟩ := exists_parseHttpResponse_eq hframes
    rw [heq]
    exact .inl rfl

/-- **Frame and bounds.** Only bytes of the response are read. A byte that is changed is the
carriage return that ends the status line, and becomes a NUL. If `0` is returned, the status starts
at index 9, a NUL is written behind it, and the body starts behind that one, if there is one. -/
theorem parseReading_frame (buf : Frame) (len : ℕ) :
    (∀ i ∈ (parseReading buf len).reads, i < len) ∧
    (∀ i, (parseReading buf len).val.buf i ≠ buf i →
      EndsStatusLine buf len i ∧ (parseReading buf len).val.buf i = 0) ∧
    ((parseReading buf len).val.res = 0 →
      (parseReading buf len).val.resp = some 9 ∧
        ∃ nul, EndsStatusLine buf len nul ∧ 9 < nul ∧ nul < len ∧
          (parseReading buf len).val.buf nul = 0 ∧
          ∀ b ∈ (parseReading buf len).val.body, nul < b ∧ b < len) := by
  rw [val_parseReading]
  refine ⟨below_parseReading buf len, fun i hi => ?_, fun hres => ?_⟩
  · obtain heq | ⟨cr, hends, heq⟩ := parseHttpResponse_buf buf len
    · exact absurd (congrFun heq i) hi
    · rw [heq] at hi ⊢
      by_cases hcr : i = cr
      · rw [hcr]
        exact ⟨hends, Frame.store_singleton_self buf cr 0⟩
      · exact absurd (Frame.store_singleton_of_ne buf 0 hcr) hi
  · obtain ⟨-, -, cr, hends, hlt, heq⟩ := exists_of_parseHttpResponse_res hres
    have hle := hends.le
    rw [heq]
    refine ⟨rfl, cr, hends, by omega, hends.lt, Frame.store_singleton_self buf cr 0, fun b hb => ?_⟩
    obtain ⟨p, rfl, hp, hheader, -⟩ := findBody_eq_some_iff.mp hb
    have hin := hheader.2
    omega

end SubmitSystemData

end RecoveryMenu

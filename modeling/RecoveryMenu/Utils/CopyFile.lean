import Mathlib.Data.Int.Order.Basic
import Mathlib.Tactic.Push
import RecoveryMenu.Fsa
import RecoveryMenu.Foundations.ChunkedTransfer

set_option relaxedAutoImplicit false
set_option autoImplicit false

/-!
# Copying a file (`ios_mcp/source/utils.c`)

`copy_file` reads the source in chunks of at most 1024 bytes and writes each chunk to the
destination. One variable carries the byte count of a read, the result of the write and the
final status; a write that stores fewer bytes than it was given is not noticed.

## Main definitions

* `RecoveryMenu.CopyFile.Turn`, `RecoveryMenu.CopyFile.Results`: the results of the calls, for
  a given content of the source.
* `RecoveryMenu.CopyFile.copyFile`: the function, with the bytes stored in the destination and
  the calls made.
* `RecoveryMenu.CopyFile.Lossless`: a copy reported as successful is complete, and a failed
  call is reported.

## Main results

* `RecoveryMenu.CopyFile.lossless_iff`: a copy is `Lossless` iff some call fails or no write is
  short.
* `RecoveryMenu.CopyFile.not_lossless`: a short write loses bytes without an error.

## References

* `ios_mcp/source/utils.c`, lines 5 and 120-153.
-/

namespace RecoveryMenu

namespace CopyFile

open Fsa

/-! ## The model -/

/-- `COPY_BUFFER_SIZE`. -/
def copyBufferSize : ℕ := 1024

/-- A read that returned data, and the write of that data. The result `n ≥ 0` of the write
means that the first `n` bytes were stored. -/
structure Turn where
  chunk : List UInt8
  written : ℤ
  chunk_ne_nil : chunk ≠ []
  chunk_le : chunk.length ≤ copyBufferSize
  written_le : written ≤ chunk.length

/-- The results of the calls `copy_file` makes on a source file with the given content: reads
return the content in order, and the last one returns `0` at the end of the file or an error. -/
structure Results (content : List UInt8) where
  openSrc : ℤ
  readHandle : ℤ
  openDst : ℤ
  writeHandle : ℤ
  heapAlloc : Bool
  turns : List Turn
  lastRead : ℤ
  unread : List UInt8
  lastRead_le : lastRead ≤ 0
  content_eq : content = (turns.map Turn.chunk).flatten ++ unread
  unread_eq : lastRead = 0 → unread = []

/-- The outcome of a copy: the value returned, the bytes stored in the destination, and the
calls made. -/
structure Outcome where
  res : ℤ
  stored : List UInt8
  calls : List Call
  deriving DecidableEq, Repr

/-- The copy loop. `stored` and `calls` are what was stored and called before. -/
def copyLoop (readHandle writeHandle lastRead : ℤ) :
    List Turn → List UInt8 → List Call → Outcome
  | [], stored, calls => ⟨lastRead, stored, calls ++ [.readFile copyBufferSize readHandle lastRead]⟩
  | t :: ts, stored, calls =>
    let calls := calls ++ [.readFile copyBufferSize readHandle t.chunk.length,
      .writeFile t.chunk.length writeHandle t.written]
    if t.written < 0 then ⟨t.written, stored, calls⟩
    else copyLoop readHandle writeHandle lastRead ts
      (stored ++ t.chunk.take t.written.toNat) calls

/-- `copy_file(fsaFd, src, dst)`. -/
def copyFile {content : List UInt8} (f : Results content) (src dst : String) : Outcome :=
  let openSrc := Call.openFile src "r" f.openSrc f.readHandle
  if f.openSrc < 0 then ⟨f.openSrc, [], [openSrc]⟩
  else
    let openDst := Call.openFile dst "w" f.openDst f.writeHandle
    if f.openDst < 0 then ⟨f.openDst, [], [openSrc, openDst, .closeFile f.readHandle]⟩
    else if ¬ f.heapAlloc then
      ⟨-1, [], [openSrc, openDst, .heapAlloc copyBufferSize false, .closeFile f.readHandle,
        .closeFile f.writeHandle]⟩
    else
      let o := copyLoop f.readHandle f.writeHandle f.lastRead f.turns []
        [openSrc, openDst, .heapAlloc copyBufferSize true]
      ⟨if o.res > 0 then 0 else o.res, o.stored,
        o.calls ++ [.heapFree, .closeFile f.writeHandle, .closeFile f.readHandle]⟩

/-- A copy reported as successful stored the content of the source, and a failed open, read
or write is reported by a negative result. -/
structure Lossless (content : List UInt8) (o : Outcome) : Prop where
  complete : o.res = 0 → o.stored = content
  reported : ∀ c ∈ o.calls, c.Failed → o.res < 0

/-! ## The copy loop -/

/-- A chunk and how much of it was stored. -/
def Turn.transfer (t : Turn) : List UInt8 × ℕ := (t.chunk, t.written.toNat)

/-- What a run of turns stores. -/
def keptOf (ts : List Turn) : List UInt8 := ChunkedTransfer.kept (ts.map Turn.transfer)

/-- Without a failed write the loop ends with the result of the last read, and has appended
what the writes stored.

**Proof sketch.** Induction on the turns. -/
lemma copyLoop_of_written_nonneg (rh wh last : ℤ) {ts : List Turn}
    (h : ∀ t ∈ ts, 0 ≤ t.written) (stored : List UInt8) (calls : List Call) :
    (copyLoop rh wh last ts stored calls).res = last ∧
      (copyLoop rh wh last ts stored calls).stored = stored ++ keptOf ts := by
  induction ts generalizing stored calls with
  | nil => simp [copyLoop, keptOf]
  | cons t ts ih =>
    have ht : ¬ t.written < 0 := not_lt.mpr (h t List.mem_cons_self)
    obtain ⟨hres, hstored⟩ := ih (fun u hu => h u (List.mem_cons_of_mem _ hu))
      (stored ++ t.chunk.take t.written.toNat) (calls ++
        [.readFile copyBufferSize rh t.chunk.length, .writeFile t.chunk.length wh t.written])
    simp only [copyLoop, if_neg ht]
    refine ⟨hres, hstored.trans ?_⟩
    simp [keptOf, Turn.transfer]

/-- A failed write makes the result of the loop negative.

**Proof sketch.** Induction on the turns: the loop ends at the first failed write, with its
result. -/
lemma copyLoop_res_neg (rh wh last : ℤ) {ts : List Turn} (h : ∃ t ∈ ts, t.written < 0)
    (stored : List UInt8) (calls : List Call) :
    (copyLoop rh wh last ts stored calls).res < 0 := by
  induction ts generalizing stored calls with
  | nil => simp at h
  | cons t ts ih =>
    simp only [copyLoop]
    split_ifs with ht
    · exact ht
    · refine ih ?_ _ _
      obtain ⟨u, hu, hneg⟩ := h
      rcases List.mem_cons.mp hu with rfl | hu
      · exact absurd hneg ht
      · exact ⟨u, hu, hneg⟩

/-- The loop returns the result of the last read or a negative result. -/
lemma copyLoop_res_le (rh wh last : ℤ) (ts : List Turn) (stored : List UInt8)
    (calls : List Call) (hlast : last ≤ 0) : (copyLoop rh wh last ts stored calls).res ≤ 0 := by
  by_cases h : ∃ t ∈ ts, t.written < 0
  · exact Int.le_of_lt (copyLoop_res_neg rh wh last h stored calls)
  · push Not at h
    rw [(copyLoop_of_written_nonneg rh wh last h stored calls).1]
    exact hlast

/-- A call that failed during the loop makes its result negative.

**Proof sketch.** Induction on the turns: reads with data do not fail, a failed write ends the
loop with its result, and so does the last read. -/
lemma copyLoop_reported (rh wh last : ℤ) (ts : List Turn) (stored : List UInt8)
    (calls : List Call) {c : Call} (hc : c ∈ (copyLoop rh wh last ts stored calls).calls)
    (hfail : c.Failed) : c ∈ calls ∨ (copyLoop rh wh last ts stored calls).res < 0 := by
  induction ts generalizing stored calls with
  | nil =>
    simp only [copyLoop, List.mem_append, List.mem_singleton] at hc ⊢
    rcases hc with hc | rfl
    · exact .inl hc
    · exact .inr hfail
  | cons t ts ih =>
    simp only [copyLoop] at hc ⊢
    split_ifs at hc ⊢ with ht
    · exact .inr ht
    · rcases ih _ _ hc with h | h
      · simp only [List.mem_append, List.mem_cons, List.not_mem_nil, or_false] at h
        rcases h with h | rfl | rfl
        · exact .inl h
        · simp only [Call.Failed] at hfail
          omega
        · exact absurd hfail ht
      · exact .inr h

/-! ## The copy -/

/-- No call of the copy fails: both files open, the buffer is allocated, the reads reach the
end of the file and no write returns an error. -/
structure Results.NoFailure {content : List UInt8} (f : Results content) : Prop where
  openSrc : 0 ≤ f.openSrc
  openDst : 0 ≤ f.openDst
  heapAlloc : f.heapAlloc
  lastRead : f.lastRead = 0
  written : ∀ t ∈ f.turns, 0 ≤ t.written

/-- Where no call fails the copy returns `0` and has stored what the writes stored. -/
lemma copyFile_of_noFailure {content : List UInt8} {f : Results content} (h : f.NoFailure)
    (src dst : String) :
    (copyFile f src dst).res = 0 ∧ (copyFile f src dst).stored = keptOf f.turns := by
  obtain ⟨hres, hstored⟩ := copyLoop_of_written_nonneg f.readHandle f.writeHandle f.lastRead
    h.written [] [.openFile src "r" f.openSrc f.readHandle,
      .openFile dst "w" f.openDst f.writeHandle, .heapAlloc copyBufferSize true]
  rw [h.lastRead] at hres hstored
  simp [copyFile, not_lt.mpr h.openSrc, not_lt.mpr h.openDst, h.heapAlloc, h.lastRead, hres,
    hstored]

/-- Where some call fails the copy returns a negative result. -/
lemma copyFile_res_neg {content : List UInt8} {f : Results content} (h : ¬ f.NoFailure)
    (src dst : String) : (copyFile f src dst).res < 0 := by
  simp only [copyFile]
  split_ifs with hsrc hdst halloc hpos
  · exact hsrc
  · exact hdst
  · have := copyLoop_res_le f.readHandle f.writeHandle f.lastRead f.turns []
      [.openFile src "r" f.openSrc f.readHandle, .openFile dst "w" f.openDst f.writeHandle,
        .heapAlloc copyBufferSize true] f.lastRead_le
    exact absurd hpos (not_lt.mpr this)
  · by_cases hw : ∃ t ∈ f.turns, t.written < 0
    · exact copyLoop_res_neg _ _ _ hw _ _
    · push Not at hw
      have hlast : f.lastRead ≠ 0 := fun hzero =>
        h ⟨not_lt.mp hsrc, not_lt.mp hdst, halloc, hzero, hw⟩
      have hle := f.lastRead_le
      have hres := (copyLoop_of_written_nonneg f.readHandle f.writeHandle f.lastRead hw []
        [.openFile src "r" f.openSrc f.readHandle, .openFile dst "w" f.openDst f.writeHandle,
          .heapAlloc copyBufferSize true]).1
      simp only [hres]
      omega
  · simp

/-- The copy returns `0` or a negative result. -/
lemma copyFile_res_le {content : List UInt8} (f : Results content) (src dst : String) :
    (copyFile f src dst).res ≤ 0 := by
  by_cases h : f.NoFailure
  · exact le_of_eq (copyFile_of_noFailure h src dst).1
  · exact le_of_lt (copyFile_res_neg h src dst)

/-- Every failed open, read or write makes the copy return a negative result.

**Proof sketch.** The opens and the allocation return at once; inside the loop this is
`copyLoop_reported`, and the value returned is that of the loop. -/
lemma copyFile_reported {content : List UInt8} (f : Results content) (src dst : String)
    {c : Call} (hc : c ∈ (copyFile f src dst).calls) (hfail : c.Failed) :
    (copyFile f src dst).res < 0 := by
  by_cases hno : f.NoFailure
  · exfalso
    simp only [copyFile, if_neg (not_lt.mpr hno.openSrc), if_neg (not_lt.mpr hno.openDst),
      hno.heapAlloc, not_true_eq_false, if_false, List.mem_append, List.mem_cons,
      List.not_mem_nil, or_false] at hc
    have hopen := hno.openSrc
    have hdst := hno.openDst
    rcases hc with hc | rfl | rfl | rfl
    · rcases copyLoop_reported _ _ _ _ _ _ hc hfail with h | h
      · simp only [List.mem_cons, List.not_mem_nil, or_false] at h
        rcases h with rfl | rfl | rfl
        · exact absurd hfail (not_lt.mpr hopen)
        · exact absurd hfail (not_lt.mpr hdst)
        · exact hfail
      · rw [(copyLoop_of_written_nonneg _ _ _ hno.written _ _).1, hno.lastRead] at h
        exact absurd h (lt_irrefl 0)
    all_goals exact hfail
  · exact copyFile_res_neg hno src dst

/-- The turns of a read to the end of the file offer the content. -/
lemma offered_eq_content {content : List UInt8} {f : Results content} (h : f.lastRead = 0) :
    ChunkedTransfer.offered (f.turns.map Turn.transfer) = content := by
  calc ChunkedTransfer.offered (f.turns.map Turn.transfer)
      = (f.turns.map Turn.chunk).flatten ++ f.unread := by
        simp [ChunkedTransfer.offered, Turn.transfer, Function.comp_def, f.unread_eq h]
    _ = content := f.content_eq.symm

/-- **When a copy is lossless.** For every content and all results of the calls, the copy is
`Lossless` iff, in case no call fails, no write is short.

**Proof sketch.** Failed calls are always reported (`copyFile_reported`). The value is `0` only
if no call failed, and then the destination holds what the writes kept of the chunks, which is
all of the content iff every chunk was kept entirely (`ChunkedTransfer.kept_eq_offered_iff`). -/
theorem lossless_iff {content : List UInt8} (f : Results content) (src dst : String) :
    Lossless content (copyFile f src dst) ↔
      (f.NoFailure → ∀ t ∈ f.turns, t.written = t.chunk.length) := by
  have hkept (hno : f.NoFailure) :
      keptOf f.turns = content ↔ ∀ t ∈ f.turns, t.written = t.chunk.length := by
    have hle : ∀ u ∈ f.turns.map Turn.transfer, u.2 ≤ u.1.length := by
      simp only [List.forall_mem_map, Turn.transfer]
      intro t _
      have := t.written_le
      omega
    have hkept := ChunkedTransfer.kept_eq_offered_iff hle
    simp only [offered_eq_content hno.lastRead, List.forall_mem_map, Turn.transfer] at hkept
    refine hkept.trans (forall₂_congr fun t ht => ?_)
    have := hno.written t ht
    omega
  constructor
  · rintro ⟨hcomplete, -⟩ hno
    obtain ⟨hres, hstored⟩ := copyFile_of_noFailure hno src dst
    exact (hkept hno).mp (hstored ▸ hcomplete hres)
  · intro hfull
    refine ⟨fun hres => ?_, fun c hc hfail => copyFile_reported f src dst hc hfail⟩
    have hno : f.NoFailure := by
      by_contra hno
      exact absurd hres (Int.ne_of_lt (copyFile_res_neg hno src dst))
    exact (copyFile_of_noFailure hno src dst).2.trans ((hkept hno).mpr (hfull hno))

/-- The results of copying two bytes of which the write stores one. -/
def shortWrite : Results [0x41, 0x42] where
  openSrc := 0
  readHandle := 1
  openDst := 0
  writeHandle := 2
  heapAlloc := true
  turns := [⟨[0x41, 0x42], 1, by decide, by decide, by decide⟩]
  lastRead := endOfFile
  unread := []
  lastRead_le := Int.le_refl endOfFile
  content_eq := rfl
  unread_eq := fun _ => rfl

/-- A short write loses a byte and the copy returns `0`. -/
theorem not_lossless :
    ¬ ∀ (content : List UInt8) (f : Results content) (src dst : String),
      Lossless content (copyFile f src dst) := by
  intro h
  have hstored := (h _ shortWrite "a" "b").complete (by decide)
  exact absurd hstored (by decide)

end CopyFile

end RecoveryMenu

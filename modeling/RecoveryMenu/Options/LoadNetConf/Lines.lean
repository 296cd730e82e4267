import Mathlib.Data.List.DropRight
import RecoveryMenu.Options.LoadNetConf.ConfigValue

set_option relaxedAutoImplicit false
set_option autoImplicit false

/-!
# The lines of `network.cfg`

What the lines of a text say, without a buffer: every line that ends with a line feed gives an
entry, and the rest behind the last line feed gives one if there is a `'='` in it.

## Main definitions

* `RecoveryMenu.LoadNetConf.entryOf`: the entry of a line.
* `RecoveryMenu.LoadNetConf.entries`: the entries of a text.

## Main results

* `RecoveryMenu.LoadNetConf.entriesFrom_line`: the entries of a text that starts with a line.
* `RecoveryMenu.LoadNetConf.entriesFrom_crlf`: a carriage return before each line feed.

## References

* `ios_mcp/source/options/LoadNetConf.c`, lines 120-149.
-/

namespace RecoveryMenu

namespace LoadNetConf

/-- `'='`. -/
def equals : UInt8 := 0x3D

/-- `'\n'`. -/
def lineFeed : UInt8 := 0x0A

/-- `'\r'`. -/
def carriageReturn : UInt8 := 0x0D

/-- The characters behind the last `'='`. -/
def afterEquals (line : List UInt8) : List UInt8 := line.rtakeWhile (· ≠ equals)

/-- The entry of a line: the key ends at the first `'='` or NUL, and the value starts behind the
last `'='`. -/
def entryOf (line : List UInt8) : Entry where
  key := line.takeWhile fun b => b ≠ equals ∧ b ≠ 0
  value := if equals ∈ line then some (afterEquals line) else none

/-- A line without the carriage return at its end. -/
def stripCr (line : List UInt8) : List UInt8 :=
  if line.getLast? = some carriageReturn then line.dropLast else line

/-- The entries of a text whose first line has started with the given characters. -/
def entriesFrom (line : List UInt8) : List UInt8 → List Entry
  | [] => if equals ∈ line then [entryOf line] else []
  | b :: bs =>
    if b = lineFeed then entryOf (stripCr line) :: entriesFrom [] bs
    else entriesFrom (line ++ [b]) bs

/-- The entries of a text. -/
def entries (text : List UInt8) : List Entry := entriesFrom [] text

/-! ## Small facts -/

/-- A line that ends with a carriage return. -/
@[simp] lemma stripCr_concat_cr (line : List UInt8) :
    stripCr (line ++ [carriageReturn]) = line := by
  simp [stripCr]

/-- A line that ends with another character. -/
lemma stripCr_concat_of_ne (line : List UInt8) {b : UInt8} (h : b ≠ carriageReturn) :
    stripCr (line ++ [b]) = line ++ [b] := by
  simp [stripCr, h]

/-- A line without carriage returns. -/
lemma stripCr_of_not_mem {line : List UInt8} (h : carriageReturn ∉ line) : stripCr line = line :=
  if_neg fun hlast => h (List.mem_of_getLast? hlast)

/-- The end of a line. -/
lemma entriesFrom_lineFeed (line bs : List UInt8) :
    entriesFrom line (lineFeed :: bs) = entryOf (stripCr line) :: entriesFrom [] bs :=
  if_pos rfl

/-- A character within a line. -/
lemma entriesFrom_cons_of_ne (line : List UInt8) {b : UInt8} (bs : List UInt8)
    (h : b ≠ lineFeed) : entriesFrom line (b :: bs) = entriesFrom (line ++ [b]) bs :=
  if_neg h

/-- The characters behind the last `'='` are none. -/
lemma not_mem_afterEquals (line : List UInt8) : equals ∉ afterEquals line := by
  intro hmem
  have hpos := List.mem_rtakeWhile_imp (p := fun b => decide (b ≠ equals)) hmem
  exact of_decide_eq_true hpos rfl

/-- One character more behind the last `'='`. -/
lemma afterEquals_concat (line : List UInt8) {b : UInt8} (h : b ≠ equals) :
    afterEquals (line ++ [b]) = afterEquals line ++ [b] :=
  List.rtakeWhile_concat_pos _ _ _ (decide_eq_true h)

/-- Nothing is behind a `'='` at the end. -/
lemma afterEquals_concat_equals (line : List UInt8) : afterEquals (line ++ [equals]) = [] :=
  List.rtakeWhile_concat_neg _ _ _ (by simp)

/-- A line is what comes up to its last `'='` and what comes behind it. -/
lemma exists_append_afterEquals (line : List UInt8) :
    ∃ before, line = before ++ afterEquals line := by
  obtain ⟨before, h⟩ := List.rtakeWhile_suffix (· ≠ equals) line
  exact ⟨before, h.symm⟩

/-! ## Texts by their lines -/

/-- A text that starts with a line.

**Proof sketch.** Induction on the characters of the line. -/
theorem entriesFrom_line {line : List UInt8} (start bs : List UInt8) (h : lineFeed ∉ line) :
    entriesFrom start (line ++ lineFeed :: bs) =
      entryOf (stripCr (start ++ line)) :: entriesFrom [] bs := by
  induction line generalizing start with
  | nil => rw [List.nil_append, entriesFrom_lineFeed, List.append_nil]
  | cons b line ih =>
    obtain ⟨hb, hline⟩ := not_or.mp (mt List.mem_cons.mpr h)
    rw [List.cons_append, entriesFrom_cons_of_ne _ _ (Ne.symm hb), ih _ hline,
      List.append_assoc, List.singleton_append]

/-- The entries of a text of complete lines.

**Proof sketch.** Induction on the lines. -/
theorem entries_flatMap {lines : List (List UInt8)} (h : ∀ line ∈ lines, lineFeed ∉ line) :
    entries (lines.flatMap (· ++ [lineFeed])) = lines.map fun line => entryOf (stripCr line) := by
  induction lines with
  | nil => rfl
  | cons line lines ih =>
    have htail := ih fun l hl => h l (List.mem_cons_of_mem line hl)
    rw [entries] at htail
    rw [entries, List.flatMap_cons, List.append_assoc, List.singleton_append,
      entriesFrom_line [] _ (h line List.mem_cons_self), List.nil_append, htail, List.map_cons]

/-- A text with a carriage return before each line feed. -/
def toCrlf (text : List UInt8) : List UInt8 :=
  text.flatMap fun b => if b = lineFeed then [carriageReturn, lineFeed] else [b]

/-- **Line endings.** A carriage return before each line feed does not change the entries.

**Proof sketch.** Induction on the text: at a line feed the line has got a carriage return at its
end, which is taken off again. -/
theorem entriesFrom_toCrlf {line text : List UInt8} (hline : carriageReturn ∉ line)
    (htext : carriageReturn ∉ text) : entriesFrom line (toCrlf text) = entriesFrom line text := by
  induction text generalizing line with
  | nil => rfl
  | cons b text ih =>
    obtain ⟨hb, htext⟩ := not_or.mp (mt List.mem_cons.mpr htext)
    rw [toCrlf, List.flatMap_cons]
    by_cases hlf : b = lineFeed
    · rw [hlf, if_pos rfl, List.cons_append, entriesFrom_cons_of_ne _ _ (by decide),
        List.singleton_append, entriesFrom_lineFeed, entriesFrom_lineFeed, stripCr_concat_cr,
        stripCr_of_not_mem hline]
      exact congrArg _ (ih List.not_mem_nil htext)
    · rw [if_neg hlf, List.singleton_append, entriesFrom_cons_of_ne _ _ hlf,
        entriesFrom_cons_of_ne _ _ hlf]
      have hnext := List.not_mem_append hline (mt List.mem_singleton.mp hb)
      exact ih hnext htext

/-- What the entries of a text stand for, one after another. -/
def storesFrom (line text : List UInt8) : List ByteMemory.Store :=
  (entriesFrom line text).flatMap Entry.stores

/-- **The final newline.** One more line feed at the end does not change what the entries stand
for.

**Proof sketch.** Induction on the text: at its end the line either has a `'='` and the same entry,
or has none and stands for nothing. -/
theorem storesFrom_concat_lineFeed {line text : List UInt8} (hline : carriageReturn ∉ line)
    (htext : carriageReturn ∉ text) :
    storesFrom line (text ++ [lineFeed]) = storesFrom line text := by
  unfold storesFrom
  induction text generalizing line with
  | nil =>
    rw [List.nil_append, entriesFrom_lineFeed, stripCr_of_not_mem hline, entriesFrom, entriesFrom,
      if_neg List.not_mem_nil]
    split_ifs with hmem
    · rfl
    · simp [Entry.stores, entryOf, hmem]
  | cons b text ih =>
    obtain ⟨hb, htext⟩ := not_or.mp (mt List.mem_cons.mpr htext)
    rw [List.cons_append]
    by_cases hlf : b = lineFeed
    · rw [hlf, entriesFrom_lineFeed, entriesFrom_lineFeed, List.flatMap_cons, List.flatMap_cons,
        ih List.not_mem_nil htext]
    · rw [entriesFrom_cons_of_ne _ _ hlf, entriesFrom_cons_of_ne _ _ hlf]
      have hnext := List.not_mem_append hline (mt List.mem_singleton.mp hb)
      exact ih hnext htext

end LoadNetConf

end RecoveryMenu

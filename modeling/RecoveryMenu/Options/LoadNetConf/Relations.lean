import RecoveryMenu.Options.LoadNetConf.Fields

set_option relaxedAutoImplicit false
set_option autoImplicit false

/-!
# Texts with the same configuration

Two texts give the same `NetConfCfg` if their entries stand for the same stores up to an order
that does not matter. This is so for other line endings, for a final newline, and for the lines in
another order, if no two of them name the same field.

## Main definitions

* `RecoveryMenu.LoadNetConf.lineEntry`: the entry of a line with its carriage return.
* `RecoveryMenu.LoadNetConf.textOf`: the text of some lines.

## Main results

* `RecoveryMenu.LoadNetConf.netConfCfg_lineEndings`: line endings and the final newline.
* `RecoveryMenu.LoadNetConf.netConfCfg_perm`: the order of the lines.

## References

* `ios_mcp/source/options/LoadNetConf.c`, lines 120-149.
-/

namespace RecoveryMenu

namespace LoadNetConf

open ByteMemory NetConf

/-- Entries one after another are their stores one after another. -/
lemma foldl_storeAll (es : List Entry) (cfg : Frame) :
    es.foldl (fun cfg e => cfg.storeAll e.stores) cfg = cfg.storeAll (es.flatMap Entry.stores) := by
  induction es generalizing cfg with
  | nil => rfl
  | cons e es ih => rw [List.foldl_cons, ih, List.flatMap_cons, Frame.storeAll_append]

/-- The configuration by what the entries of the text stand for. -/
lemma parsedCfg_eq_storeAll (m : Machine) (text : List UInt8) :
    m.parsedCfg text = (zeroed m.stack).storeAll (storesFrom [] text) := by
  rw [parsedCfg_eq, foldl_storeAll]
  rfl

/-- The bytes of the configuration do not depend on the stack before. -/
lemma zeroed_eq (stack stack' : Frame) {i : ℕ} (h : i < sizeofCfg) :
    zeroed stack i = zeroed stack' i :=
  Frame.store_of_writes stack stack' (s := ⟨0, List.replicate sizeofCfg 0⟩)
    ⟨Nat.zero_le i, by rwa [Nat.zero_add, List.length_replicate]⟩

/-- Texts whose entries have the same effect on every configuration. -/
lemma netConfCfg_eq {m m' : Machine} {text text' : List UInt8}
    (h : m.parsedCfg text' = (zeroed m.stack).storeAll (storesFrom [] text)) :
    m.netConfCfg text' = m'.netConfCfg text := by
  rw [Machine.netConfCfg, Machine.netConfCfg, h, parsedCfg_eq_storeAll m' text]
  refine Frame.load_congr fun i _ hi => Frame.storeAll_congr (zeroed_eq _ _ ?_) _
  rwa [Nat.zero_add] at hi

/-- **Line endings and the final newline.** For every text without carriage returns, on whatever
machines: with a carriage return before every line feed, and with one more line feed at the end,
it gives the same `NetConfCfg`.

**Proof sketch.** The entries are the same with the carriage returns (`entriesFrom_toCrlf`), and
stand for the same with the line feed (`storesFrom_concat_lineFeed`). -/
theorem netConfCfg_lineEndings {text : List UInt8} (h : carriageReturn ∉ text)
    (m mCrlf mNewline : Machine) :
    mCrlf.netConfCfg (toCrlf text) = m.netConfCfg text ∧
      mNewline.netConfCfg (text ++ [lineFeed]) = m.netConfCfg text := by
  constructor
  · refine netConfCfg_eq ?_
    rw [parsedCfg_eq_storeAll, storesFrom, storesFrom, entriesFrom_toCrlf List.not_mem_nil h]
  · refine netConfCfg_eq ?_
    rw [parsedCfg_eq_storeAll, storesFrom_concat_lineFeed List.not_mem_nil h]

/-- `ssid=a`, without a newline. -/
theorem netConfCfg_lineEndings_ssid :
    Machine.empty.netConfCfg (toCrlf (ssidKey ++ [equals, 0x61])) =
        Machine.empty.netConfCfg (ssidKey ++ [equals, 0x61]) ∧
      Machine.empty.netConfCfg (ssidKey ++ [equals, 0x61] ++ [lineFeed]) =
        Machine.empty.netConfCfg (ssidKey ++ [equals, 0x61]) :=
  netConfCfg_lineEndings (by decide) Machine.empty Machine.empty Machine.empty

/-! ## The order of the lines -/

/-- The entry of a line, with or without a carriage return at its end. -/
def lineEntry (line : List UInt8) : Entry := entryOf (stripCr line)

/-- The text of some lines. -/
def textOf (lines : List (List UInt8)) : List UInt8 := lines.flatMap (· ++ [lineFeed])

/-- The line gives a value to a key. -/
def GivesValue (key line : List UInt8) : Prop :=
  (lineEntry line).key = key ∧ (lineEntry line).value.isSome

instance (key line : List UInt8) : Decidable (GivesValue key line) :=
  inferInstanceAs (Decidable (_ ∧ _))

/-- A list with at most one element. -/
lemma eq_of_length_le_one {α : Type*} {l : List α} (h : l.length ≤ 1) {a b : α} (ha : a ∈ l)
    (hb : b ∈ l) : a = b := by
  obtain ⟨c, rfl⟩ := List.length_eq_one_iff.mp (le_antisymm h (List.length_pos_of_mem ha))
  rw [List.mem_singleton.mp ha, List.mem_singleton.mp hb]

/-- A field that an entry names belongs to one of the four keys, and the entry has a value. -/
lemma isSome_of_mem_fields {e : Entry} {f : Field} (h : f ∈ e.fields) : e.value.isSome := by
  unfold Entry.fields at h
  cases hvalue : e.value with
  | none =>
    rw [hvalue] at h
    cases h
  | some v => rfl

/-- Two lines that fit, and do not give values to the same key, can be exchanged.

**Proof sketch.** A byte that both write would be one of two disjoint fields. -/
lemma storeAll_lines_comm {e e' : Entry} (h : e.Fits) (h' : e'.Fits)
    (hne : ∀ f ∈ e.fields, ∀ g ∈ e'.fields, e.key ≠ e'.key) (cfg : Frame) :
    (cfg.storeAll e.stores).storeAll e'.stores = (cfg.storeAll e'.stores).storeAll e.stores := by
  refine Frame.storeAll_comm cfg fun i => ?_
  by_contra hboth
  push Not at hboth
  obtain ⟨⟨s, hs, hi⟩, s', hs', hi'⟩ := hboth
  obtain ⟨f, hf, hcontains⟩ := h.within s hs
  obtain ⟨g, hg, hcontains'⟩ := h'.within s' hs'
  exact hcontains.not_writes (disjoint_fields (hne f hf g hg) hf hg) (hcontains'.has hi') hi

/-- **The order of the lines.** For every list of lines, each ended by a line feed, in which each
of the four keys is given a value at most once and the values of `ssid` and `key` fit, every
permutation of the lines gives the same `NetConfCfg`, on whatever machines.

**Proof sketch.** Two different lines store to different fields, so they can be exchanged
(`storeAll_lines_comm`), and a permutation is a sequence of exchanges. -/
theorem netConfCfg_perm {lines lines' : List (List UInt8)} (hperm : lines.Perm lines')
    (hline : ∀ line ∈ lines, lineFeed ∉ line)
    (honce : ∀ key ∈ [typeKey, ssidKey, keyKey, keyTypeKey], lines.countP (GivesValue key) ≤ 1)
    (hfits : ∀ line ∈ lines, (lineEntry line).Fits) (m m' : Machine) :
    m.netConfCfg (textOf lines') = m'.netConfCfg (textOf lines) := by
  have hline' : ∀ line ∈ lines', lineFeed ∉ line := fun line hmem =>
    hline line (hperm.mem_iff.mpr hmem)
  refine netConfCfg_eq ?_
  rw [parsedCfg_eq, storesFrom, ← foldl_storeAll, ← entries, textOf, textOf,
    entries_flatMap hline, entries_flatMap hline', List.foldl_map, List.foldl_map]
  refine (hperm.foldl_eq' (fun x hx y hy cfg => ?_) _).symm
  by_cases heq : x = y
  · rw [heq]
  refine storeAll_lines_comm (hfits x hx) (hfits y hy) (fun f hf g hg hkey => heq ?_) cfg
  -- both lines give a value to the same key
  obtain ⟨row, hrow, hrowKey, -⟩ := exists_keyFields hf
  have hfour : row.1 ∈ [typeKey, ssidKey, keyKey, keyTypeKey] :=
    List.mem_map_of_mem (f := Prod.fst) hrow
  have hcount := honce row.1 hfour
  rw [List.countP_eq_length_filter] at hcount
  refine eq_of_length_le_one hcount (List.mem_filter.mpr ⟨hx, ?_⟩) (List.mem_filter.mpr ⟨hy, ?_⟩)
  · exact decide_eq_true ⟨hrowKey, isSome_of_mem_fields hf⟩
  · exact decide_eq_true ⟨hkey ▸ hrowKey, isSome_of_mem_fields hg⟩

/-- `ssid=a` and `key=b`. -/
theorem netConfCfg_perm_ssid_key :
    Machine.empty.netConfCfg (textOf [keyKey ++ [equals, 0x62], ssidKey ++ [equals, 0x61]]) =
      Machine.empty.netConfCfg (textOf [ssidKey ++ [equals, 0x61], keyKey ++ [equals, 0x62]]) :=
  netConfCfg_perm (List.Perm.swap _ _ _) (by decide) (by decide +kernel) (by decide +kernel)
    Machine.empty Machine.empty

end LoadNetConf

end RecoveryMenu

import RecoveryMenu.Options.LoadNetConf.Scan

set_option relaxedAutoImplicit false
set_option autoImplicit false

/-!
# The configuration that is read (`ios_mcp/source/options/LoadNetConf.c`)

The calls of the scan store into a `NetConfCfg` on the stack that starts out zeroed, one after
another. A value of `ssid` or `key` is copied with the length it has in the file.

## Main definitions

* `RecoveryMenu.LoadNetConf.parsedCfg`: the stack from the start of the configuration on.
* `RecoveryMenu.LoadNetConf.Entry.Fits`: a value is not longer than its field.
* `RecoveryMenu.LoadNetConf.FieldsInBounds`: the calls write the fields that their keys name.

## Main results

* `RecoveryMenu.LoadNetConf.parsedCfg_eq`: the configuration as a function of the text.
* `RecoveryMenu.LoadNetConf.fieldsInBounds_iff`: when all writes stay in their fields.

## References

* `ios_mcp/source/options/LoadNetConf.c`, lines 117-149.
-/

namespace RecoveryMenu

namespace LoadNetConf

open ByteMemory NetConf

/-- What a run meets besides the text: the address of `cfgBuffer`, the bytes around it, and the
stack from the start of `cfg` on. -/
structure Machine where
  base : ℤ
  heap : Buffer
  stack : Frame

/-- `memset(&cfg, 0, sizeof(cfg))`. -/
def zeroed (stack : Frame) : Frame := stack.store 0 (List.replicate sizeofCfg 0)

/-- The stack from the start of `cfg` on, after some calls. -/
def Machine.cfgAfter (m : Machine) (calls : List Call) : Frame :=
  calls.foldl (fun cfg c => cfg.storeAll c.effect.stores) (zeroed m.stack)

/-- The calls for a text. -/
def Machine.calls (m : Machine) (text : List UInt8) : List Call := scan m.base m.heap text

/-- The stack from the start of `cfg` on, when a text has been parsed. -/
def Machine.parsedCfg (m : Machine) (text : List UInt8) : Frame := m.cfgAfter (m.calls text)

/-- `cfg` when a text has been parsed. -/
def Machine.netConfCfg (m : Machine) (text : List UInt8) : List UInt8 :=
  (m.parsedCfg text).load 0 sizeofCfg

/-! ## The configuration by the entries -/

/-- The calls for a text, in order, get its entries. -/
lemma forall₂_calls (m : Machine) (text : List UInt8) :
    List.Forall₂ Call.Gets (m.calls text) (entries text) :=
  ((List.forall₂_and_left _ _).mp (forall₂_scan m.base m.heap text)).2

/-- Calls that get some entries store what these stand for. -/
lemma cfgAfter_eq (m : Machine) {calls : List Call} {es : List Entry}
    (h : List.Forall₂ Call.Gets calls es) :
    m.cfgAfter calls = es.foldl (fun cfg e => cfg.storeAll e.stores) (zeroed m.stack) := by
  unfold Machine.cfgAfter
  generalize zeroed m.stack = cfg
  induction h generalizing cfg with
  | nil => rfl
  | @cons c e calls es hgets _ ih =>
    rw [List.foldl_cons, List.foldl_cons, Call.effect, hgets.stores_eq]
    exact ih _

/-- **The configuration that is read.** It only depends on the entries of the text. -/
theorem parsedCfg_eq (m : Machine) (text : List UInt8) :
    m.parsedCfg text =
      (entries text).foldl (fun cfg e => cfg.storeAll e.stores) (zeroed m.stack) :=
  cfgAfter_eq m (forall₂_calls m text)

/-! ## The fields of a key -/

/-- The fields that a value of `type` names. -/
def typeFields (name : List UInt8) : List Field :=
  if name = ascii ['w', 'i', 'f', 'i'] then [interface wl0, configMethod]
  else if name = ascii ['e', 't', 'h'] then [interface eth0, negotiation]
  else []

/-- The fields that a key with a value names. -/
def fieldsOf (key value : List UInt8) : List Field :=
  if key = typeKey then typeFields (value.takeWhile (· ≠ 0))
  else if key = ssidKey then [ssid, ssidlength]
  else if key = keyKey then [aesKey, aesKeyLen]
  else if key = keyTypeKey then [privacyMode]
  else []

/-- The fields that an entry names. -/
def Entry.fields (e : Entry) : List Field := (e.value.map (fieldsOf e.key)).getD []

/-- The value of an entry is not longer than the field it is copied to. -/
def Entry.Fits (e : Entry) : Prop :=
  ∀ v ∈ e.value, (e.key = ssidKey → v.length ≤ 32) ∧ (e.key = keyKey → v.length ≤ 64)

instance (e : Entry) : Decidable e.Fits := inferInstanceAs (Decidable (∀ v ∈ e.value, _ ∧ _))

/-- Every store is in one of some fields. -/
def Within (ss : List Store) (fs : List Field) : Prop := ∀ s ∈ ss, ∃ f ∈ fs, f.Contains s

instance (ss : List Store) (fs : List Field) : Decidable (Within ss fs) :=
  inferInstanceAs (Decidable (∀ s ∈ ss, ∃ f ∈ fs, f.Contains s))

/-- What the row of a name stores is in the fields of that name. -/
lemma within_named {table : List (List UInt8 × List Store)} {F : List UInt8 → List Field}
    (h : ∀ row ∈ table, Within row.2 (F row.1)) (name : List UInt8) :
    Within (named table name) (F name) := by
  unfold named
  cases hfind : table.find? fun row => name = row.1 with
  | none =>
    intro s hs
    cases hs
  | some row =>
    obtain rfl : name = row.1 := by simpa using List.find?_some hfind
    exact h row (List.mem_of_find?_eq_some hfind)

/-- A value that fits is stored in its field, and its length behind it in another one. -/
lemma within_copy {f g : Field} {v : List UInt8} (w : UInt16) (hf : v.length ≤ f.size)
    (hg : 2 ≤ g.size) : Within [⟨f.off, v⟩, g.half w] [f, g] := by
  intro s hs
  rcases List.mem_pair.mp hs with rfl | rfl
  · exact ⟨f, List.mem_cons_self, le_refl _, Nat.add_le_add_left hf _⟩
  · exact ⟨g, by simp, le_refl _, Nat.add_le_add_left hg _⟩

/-- **What fits stays in its fields.**

**Proof sketch.** One case for each key; the stores of `type` and `key_type` are rows of their
tables. -/
lemma Entry.Fits.within {e : Entry} (h : e.Fits) : Within e.stores e.fields := by
  unfold Entry.stores Entry.fields
  cases hvalue : e.value with
  | none =>
    intro s hs
    cases hs
  | some v =>
    obtain ⟨hssid, hkey⟩ := h v hvalue
    rw [Option.map_some, Option.map_some, Option.getD_some, Option.getD_some, valueStores, fieldsOf]
    split_ifs with htype hssidKey hkeyKey hkeyType
    · exact within_named (by decide) _
    · exact within_copy _ (hssid hssidKey) (by decide)
    · exact within_copy _ (hkey hkeyKey) (by decide)
    · exact within_named (F := fun _ => [privacyMode]) (by decide) _
    · intro s hs
      cases hs

/-! ## Fields of different keys -/

/-- All fields that the values of a key name. -/
def keyFields : List (List UInt8 × List Field) :=
  [(typeKey, [interface wl0, configMethod, interface eth0, negotiation]),
   (ssidKey, [ssid, ssidlength]),
   (keyKey, [aesKey, aesKeyLen]),
   (keyTypeKey, [privacyMode])]

/-- A key that names a field is one of the four. -/
lemma exists_keyFields {e : Entry} {f : Field} (h : f ∈ e.fields) :
    ∃ row ∈ keyFields, e.key = row.1 ∧ f ∈ row.2 := by
  unfold Entry.fields at h
  cases hvalue : e.value with
  | none =>
    rw [hvalue] at h
    cases h
  | some v =>
    rw [hvalue, Option.map_some, Option.getD_some, fieldsOf] at h
    split_ifs at h with htype hssid hkey hkeyType
    · refine ⟨_, List.mem_cons_self, htype, ?_⟩
      unfold typeFields at h
      split_ifs at h
      · rcases List.mem_pair.mp h with rfl | rfl <;> decide
      · rcases List.mem_pair.mp h with rfl | rfl <;> decide
      · cases h
    · exact ⟨(ssidKey, _), by simp [keyFields], hssid, h⟩
    · exact ⟨(keyKey, _), by simp [keyFields], hkey, h⟩
    · exact ⟨(keyTypeKey, _), by simp [keyFields], hkeyType, h⟩
    · cases h

/-- Fields of different keys are disjoint. -/
lemma disjoint_keyFields : ∀ a ∈ keyFields, ∀ b ∈ keyFields, a.1 ≠ b.1 →
    ∀ f ∈ a.2, ∀ g ∈ b.2, Field.Disjoint f g := by
  decide

/-- Entries with different keys name disjoint fields. -/
lemma disjoint_fields {e e' : Entry} (h : e.key ≠ e'.key) {f g : Field} (hf : f ∈ e.fields)
    (hg : g ∈ e'.fields) : f.Disjoint g := by
  obtain ⟨a, ha, hkey, hf⟩ := exists_keyFields hf
  obtain ⟨b, hb, hkey', hg⟩ := exists_keyFields hg
  exact disjoint_keyFields a ha b hb (hkey ▸ hkey' ▸ h) f hf g hg

/-- An entry that fits does not write the fields of the other keys. -/
lemma Entry.Fits.not_writes {e : Entry} (h : e.Fits) {row : List UInt8 × List Field}
    (hrow : row ∈ keyFields) (hkey : e.key ≠ row.1) {f : Field} (hf : f ∈ row.2) {s : Store}
    (hs : s ∈ e.stores) {i : ℕ} (hi : f.Has i) : ¬ s.Writes i := by
  obtain ⟨g, hg, hcontains⟩ := h.within s hs
  obtain ⟨row', hrow', hkey', hg⟩ := exists_keyFields hg
  exact hcontains.not_writes (disjoint_keyFields row' hrow' row hrow (hkey' ▸ hkey) g hg f hf) hi

/-- An entry that fits leaves the fields of the other keys alone. -/
lemma Entry.Fits.value_storeAll {e : Entry} (h : e.Fits) {row : List UInt8 × List Field}
    (hrow : row ∈ keyFields) (hkey : e.key ≠ row.1) {f : Field} (hf : f ∈ row.2) (cfg : Frame) :
    f.value (cfg.storeAll e.stores) = f.value cfg := by
  rw [Field.value, Field.value, Field.load_storeAll cfg]
  exact fun s hs i hi => h.not_writes hrow hkey hf hs hi

/-! ## Bounds -/

/-- What a value of `ssid` stores. -/
lemma stores_ssid {e : Entry} {v : List UInt8} (hkey : e.key = ssidKey)
    (hvalue : e.value = some v) :
    e.stores = [⟨ssid.off, v⟩, ssidlength.half (UInt16.ofNat v.length)] := by
  rw [Entry.stores, hvalue, hkey, Option.map_some, Option.getD_some, valueStores,
    if_neg (by decide), if_pos rfl]

/-- What a value of `key` stores. -/
lemma stores_key {e : Entry} {v : List UInt8} (hkey : e.key = keyKey) (hvalue : e.value = some v) :
    e.stores = [⟨aesKey.off, v⟩, aesKeyLen.half (UInt16.ofNat v.length)] := by
  rw [Entry.stores, hvalue, hkey, Option.map_some, Option.getD_some, valueStores,
    if_neg (by decide), if_neg (by decide), if_pos rfl]

/-- The length that is stored behind a value. -/
lemma value_storeAll_copy {f g : Field} (hg : g.size = 2) (cfg : Frame) {v : List UInt8}
    (hv : v.length < 2 ^ 16) :
    g.value (cfg.storeAll [⟨f.off, v⟩, g.half (UInt16.ofNat v.length)]) = v.length := by
  rw [Frame.storeAll_cons, Frame.storeAll_cons, Frame.storeAll_nil, Field.value_store_half hg,
    UInt16.toNat_ofNat', Nat.mod_eq_of_lt hv]

/-- The lengths of the two values are not more than their fields hold. -/
structure LengthsInBounds (cfg : Frame) : Prop where
  ssid : ssidlength.value cfg ≤ 32
  key : aesKeyLen.value cfg ≤ 64

/-- The lengths start out as `0`. -/
lemma lengthsInBounds_zeroed (stack : Frame) : LengthsInBounds (zeroed stack) := by
  have hload {off n : ℕ} (h : off + n ≤ sizeofCfg) :
      (zeroed stack).load off n = List.replicate n 0 := by
    rw [zeroed, Frame.load_store_zero stack (by rwa [List.length_replicate]), List.drop_replicate,
      List.take_replicate, Nat.min_eq_left (by omega)]
  constructor
  · rw [Field.value, hload (by decide)]
    decide
  · rw [Field.value, hload (by decide)]
    decide

/-- A value that fits keeps the lengths within their bounds. -/
lemma Entry.Fits.lengthsInBounds {e : Entry} (h : e.Fits) {cfg : Frame}
    (hcfg : LengthsInBounds cfg) : LengthsInBounds (cfg.storeAll e.stores) := by
  cases hvalue : e.value with
  | none =>
    have hstores : e.stores = [] := by rw [Entry.stores, hvalue]; rfl
    rwa [hstores]
  | some v =>
    obtain ⟨hssid, hkey⟩ := h v hvalue
    constructor
    · by_cases heq : e.key = ssidKey
      · have hlen := hssid heq
        rw [stores_ssid heq hvalue, value_storeAll_copy rfl cfg (by omega)]
        exact hlen
      · have hrow : (ssidKey, [NetConf.ssid, ssidlength]) ∈ keyFields := by simp [keyFields]
        rw [h.value_storeAll hrow heq (by simp) cfg]
        exact hcfg.ssid
    · by_cases heq : e.key = keyKey
      · have hlen := hkey heq
        rw [stores_key heq hvalue, value_storeAll_copy rfl cfg (by omega)]
        exact hlen
      · have hrow : (keyKey, [aesKey, aesKeyLen]) ∈ keyFields := by simp [keyFields]
        rw [h.value_storeAll hrow heq (by simp) cfg]
        exact hcfg.key

/-- The calls for a text write the fields that their keys name, nothing else, and the lengths that
they store stay within their bounds. -/
structure FieldsInBounds (m : Machine) (text : List UInt8) : Prop where
  writes : ∀ c ∈ m.calls text, ∀ e, c.Gets e → ∀ s ∈ c.effect.stores, ∀ i, s.Writes i →
    ∃ f ∈ e.fields, f.Has i
  frame : ∀ before c after, m.calls text = before ++ c :: after → ∀ e, c.Gets e →
    ∀ i, (∀ f ∈ e.fields, ¬ f.Has i) → m.cfgAfter (before ++ [c]) i = m.cfgAfter before i
  lengths : ∀ before after, m.calls text = before ++ after → LengthsInBounds (m.cfgAfter before)

/-- Where an entry of a text is passed on. -/
lemma exists_call (m : Machine) {text : List UInt8} {e : Entry} (he : e ∈ entries text) :
    ∃ before c after, m.calls text = before ++ c :: after ∧ c.Gets e := by
  have hcalls := forall₂_calls m text
  obtain ⟨es, es', hes⟩ := List.append_of_mem he
  rw [hes] at hcalls
  have hdrop := List.forall₂_drop_append _ _ _ hcalls
  rw [List.forall₂_cons_right_iff] at hdrop
  obtain ⟨c, after, hgets, -, hafter⟩ := hdrop
  refine ⟨(m.calls text).take es.length, c, after, ?_, hgets⟩
  rw [← hafter, List.take_append_drop]

/-- Every call gets an entry of the text. -/
lemma exists_entry (m : Machine) {text : List UInt8} {c : Call} (hc : c ∈ m.calls text) :
    ∃ e ∈ entries text, c.Gets e := by
  have hcalls := forall₂_calls m text
  obtain ⟨i, hi, rfl⟩ := List.getElem_of_mem hc
  have hi' : i < (entries text).length := hcalls.length_eq ▸ hi
  exact ⟨(entries text)[i], List.getElem_mem hi', hcalls.get hi hi'⟩

/-- The configuration after one call more. -/
lemma cfgAfter_concat (m : Machine) (calls : List Call) {c : Call} {e : Entry} (h : c.Gets e) :
    m.cfgAfter (calls ++ [c]) = (m.cfgAfter calls).storeAll e.stores := by
  rw [Machine.cfgAfter, List.foldl_append, List.foldl_cons, List.foldl_nil, Call.effect,
    h.stores_eq]
  rfl

/-- Calls with values that fit keep the lengths within their bounds.

**Proof sketch.** Induction on the calls from the last one on. -/
lemma lengthsInBounds_cfgAfter (m : Machine) {calls : List Call}
    (h : ∀ c ∈ calls, ∃ e : Entry, c.Gets e ∧ e.Fits) : LengthsInBounds (m.cfgAfter calls) := by
  induction calls using List.reverseRecOn with
  | nil => exact lengthsInBounds_zeroed m.stack
  | append_singleton calls c ih =>
    obtain ⟨e, hgets, hfits⟩ := h c (by simp)
    rw [cfgAfter_concat m calls hgets]
    exact hfits.lengthsInBounds (ih fun c hc => h c (List.mem_append_left _ hc))

/-- What an entry of the text stores is written to the fields of its key. -/
lemma FieldsInBounds.has {m : Machine} {text : List UInt8} (h : FieldsInBounds m text) {e : Entry}
    (he : e ∈ entries text) {s : Store} (hs : s ∈ e.stores) {i : ℕ} (hi : s.Writes i) :
    ∃ f ∈ e.fields, f.Has i := by
  obtain ⟨before, c, after, hcalls, hgets⟩ := exists_call m he
  have hc : c ∈ m.calls text := by simp [hcalls]
  have hstores : c.effect.stores = e.stores := hgets.stores_eq
  exact h.writes c hc e hgets s (hstores ▸ hs) i hi

/-- A value of `ssid` that is too long goes on behind its length, or the length is too large. -/
lemma FieldsInBounds.length_ssid_le {m : Machine} {text : List UInt8} (h : FieldsInBounds m text)
    {e : Entry} (he : e ∈ entries text) {v : List UInt8} (hvalue : e.value = some v)
    (hkey : e.key = ssidKey) : v.length ≤ 32 := by
  have hstores := stores_ssid hkey hvalue
  by_contra hlong
  by_cases hshort : v.length ≤ 34
  · -- the length is stored as it is
    obtain ⟨before, c, after, hcalls, hgets⟩ := exists_call m he
    have hlengths := (h.lengths (before ++ [c]) after (by simp [hcalls])).ssid
    rw [cfgAfter_concat m before hgets, hstores, value_storeAll_copy rfl _ (by omega)] at hlengths
    exact hlong hlengths
  · have hwrites : Store.Writes ⟨ssid.off, v⟩ 0x46 := by
      show 0x24 ≤ 0x46 ∧ 0x46 < 0x24 + v.length
      omega
    have hfields : e.fields = [ssid, ssidlength] := by
      rw [Entry.fields, hvalue, hkey]
      rfl
    have hhas := h.has he (hstores ▸ List.mem_cons_self) hwrites
    rw [hfields] at hhas
    revert hhas
    decide

/-- A value of `key` that is too long goes on behind its field. -/
lemma FieldsInBounds.length_key_le {m : Machine} {text : List UInt8} (h : FieldsInBounds m text)
    {e : Entry} (he : e ∈ entries text) {v : List UInt8} (hvalue : e.value = some v)
    (hkey : e.key = keyKey) : v.length ≤ 64 := by
  by_contra hlong
  have hwrites : Store.Writes ⟨aesKey.off, v⟩ 0x8E := by
    show 0x4E ≤ 0x8E ∧ 0x8E < 0x4E + v.length
    omega
  have hfields : e.fields = [aesKey, aesKeyLen] := by
    rw [Entry.fields, hvalue, hkey]
    rfl
  have hhas := h.has he (stores_key hkey hvalue ▸ List.mem_cons_self) hwrites
  rw [hfields] at hhas
  revert hhas
  decide

/-- **When all writes stay in their fields.** For every text and every machine, the calls write
only bytes of the fields their keys name and the stored lengths stay within `32` and `64`, iff no
value of `ssid` has more than 32 bytes and no value of `key` more than 64.

**Proof sketch.** What fits stays in its fields (`Entry.Fits.within`), call by call. A value that
does not fit is copied over the byte behind them, unless it is one of 33 or 34 bytes for `ssid`,
which only reaches into the length and makes that too large. -/
theorem fieldsInBounds_iff (m : Machine) (text : List UInt8) :
    FieldsInBounds m text ↔ ∀ e ∈ entries text, e.Fits := by
  constructor
  · intro h e he v hvalue
    exact ⟨h.length_ssid_le he hvalue, h.length_key_le he hvalue⟩
  · intro h
    have hfits {c : Call} (hc : c ∈ m.calls text) {e : Entry} (hgets : c.Gets e) : e.Fits := by
      obtain ⟨e', he', hgets'⟩ := exists_entry m hc
      obtain rfl : e = e' := Passes.eq hgets hgets'
      exact h e he'
    have hhas {c : Call} (hc : c ∈ m.calls text) {e : Entry} (hgets : c.Gets e) {s : Store}
        (hs : s ∈ c.effect.stores) {i : ℕ} (hi : s.Writes i) : ∃ f ∈ e.fields, f.Has i := by
      have hstores : c.effect.stores = e.stores := hgets.stores_eq
      obtain ⟨f, hf, hcontains⟩ := (hfits hc hgets).within s (hstores ▸ hs)
      exact ⟨f, hf, hcontains.has hi⟩
    constructor
    · exact fun c hc e hgets s hs i hi => hhas hc hgets hs hi
    · intro before c after hcalls e hgets i hi
      have hc : c ∈ m.calls text := by simp [hcalls]
      have hstores : c.effect.stores = e.stores := hgets.stores_eq
      rw [cfgAfter_concat m before hgets, ← hstores]
      refine Frame.storeAll_of_not_writes _ fun s hs hwrites => ?_
      obtain ⟨f, hf, hhas⟩ := hhas hc hgets hs hwrites
      exact hi f hf hhas
    · intro before after hcalls
      refine lengthsInBounds_cfgAfter m fun c hc => ?_
      have hmem : c ∈ m.calls text := hcalls ▸ List.mem_append_left after hc
      obtain ⟨e, he, hgets⟩ := exists_entry m hmem
      exact ⟨e, hgets, h e he⟩

/-- A machine with empty memory. -/
def Machine.empty : Machine := ⟨0, fun _ => 0, fun _ => 0⟩

/-- A file with an SSID of 33 characters: the stored length is too large. -/
theorem not_fieldsInBounds :
    ¬ ∀ (m : Machine) (text : List UInt8), FieldsInBounds m text := by
  intro h
  have hbounds := h Machine.empty (ssidKey ++ equals :: List.replicate 33 0x78 ++ [lineFeed])
  have hle := hbounds.length_ssid_le (e := ⟨ssidKey, some (List.replicate 33 0x78)⟩)
    (by decide +kernel) rfl rfl
  exact absurd hle (by decide)

end LoadNetConf

end RecoveryMenu

import Mathlib.Data.List.Forall2
import RecoveryMenu.Options.LoadNetConf.Lines

set_option relaxedAutoImplicit false
set_option autoImplicit false

/-!
# The scan of `network.cfg` (`ios_mcp/source/options/LoadNetConf.c`)

The loop goes through the buffer byte by byte. It replaces the `'='` and the line ends by NULs,
remembers where the key and the value of the line start, and calls
`network_parse_config_value` at each line end. The call only reads the buffer, so a call is the
buffer as it is then, with the two pointers and the length.

## Main definitions

* `RecoveryMenu.LoadNetConf.scanByte`: the body of the loop.
* `RecoveryMenu.LoadNetConf.scan`: the loop, with the call behind it.
* `RecoveryMenu.LoadNetConf.InLine`: the state within a line, by the characters of that line.
* `RecoveryMenu.LoadNetConf.ScanSafe`: the scan stays in the buffer.

## Main results

* `RecoveryMenu.LoadNetConf.forall₂_scan`: the calls get the entries of the text.
* `RecoveryMenu.LoadNetConf.scanSafe_iff`: when the scan stays in the buffer.

## References

* `ios_mcp/source/options/LoadNetConf.c`, lines 103-149.
-/

namespace RecoveryMenu

namespace LoadNetConf

open ByteMemory

/-- The bytes around `cfgBuffer`, by their index. -/
abbrev Buffer := ℤ → UInt8

/-- The bytes from index `p` on. -/
def Buffer.frame (buf : Buffer) (p : ℤ) : Frame := fun j => buf (p + j)

/-- `cfgBuffer` when `network.cfg` has been read into it, with the NUL behind it. -/
def cfgBuffer (heap : Buffer) (content : List UInt8) : Buffer := fun i =>
  if 0 ≤ i then ((content ++ [0])[i.toNat]?).getD (heap i) else heap i

/-- A call of `network_parse_config_value`: the buffer, `keyPtr` and `valuePtr` as indices, and
`value_len`. -/
structure Call where
  buf : Buffer
  key : ℤ
  value : Option ℤ
  valueLen : ℤ

/-- What the call shows and stores. -/
def Call.effect (c : Call) : Effect :=
  networkParseConfigValue (c.buf.frame c.key) (c.value.map c.buf.frame) c.valueLen

/-- The variables of the loop, the indices it has read or written, and its calls. -/
structure Scan where
  buf : Buffer
  keyPtr : ℤ
  valuePtr : Option ℤ
  touched : List ℤ
  calls : List Call

/-- `(cfgBuffer + end) - valuePtr`, for `cfgBuffer` at the address `base`. It does not wrap. -/
def lengthTo (base : ℤ) (valuePtr : Option ℤ) (stop : ℤ) : ℤ :=
  match valuePtr with
  | some p => stop - p
  | none => base + stop

/-- The call at a line end, and the start of the next line. -/
def Scan.endLine (base : ℤ) (s : Scan) (i : ℕ) (buf : Buffer) (stop : ℤ) : Scan where
  buf := buf
  keyPtr := i + 1
  valuePtr := none
  touched := s.touched ++ [(i : ℤ), i - 1]
  calls := s.calls ++ [⟨buf, s.keyPtr, s.valuePtr, lengthTo base s.valuePtr stop⟩]

/-- The body of the loop. -/
def scanByte (base : ℤ) (s : Scan) (i : ℕ) : Scan :=
  if s.buf i = equals then
    { s with
      buf := Function.update s.buf i 0
      valuePtr := some (i + 1)
      touched := s.touched ++ [(i : ℤ)] }
  else if s.buf i = lineFeed then
    let buf := Function.update s.buf i 0
    if buf (i - 1) = carriageReturn then
      s.endLine base i (Function.update buf (i - 1) 0) (i - 1)
    else s.endLine base i buf i
  else { s with touched := s.touched ++ [(i : ℤ)] }

/-- The variables before the loop. -/
def Scan.start (buf : Buffer) : Scan := ⟨buf, 0, none, [], []⟩

/-- The loop. -/
def scanLoop (base : ℤ) (heap : Buffer) (content : List UInt8) : Scan :=
  (List.range' 0 content.length).foldl (scanByte base) (Scan.start (cfgBuffer heap content))

/-- The calls of the loop, and the one behind it if there is a value left. -/
def scan (base : ℤ) (heap : Buffer) (content : List UInt8) : List Call :=
  let s := scanLoop base heap content
  s.calls ++
    match s.valuePtr with
    | some p => [⟨s.buf, s.keyPtr, some p, lengthTo base (some p) content.length⟩]
    | none => []

/-! ## What a call gets -/

/-- The arguments of a call are the strings of an entry. -/
def Call.Gets (c : Call) (e : Entry) : Prop :=
  Passes (c.buf.frame c.key) (c.value.map c.buf.frame) c.valueLen e

/-- The value of a call is a slice of a buffer of `n` bytes, with a NUL right behind it. -/
def Call.SliceInside (n : ℕ) (c : Call) : Prop :=
  ∀ p ∈ c.value, 0 ≤ p ∧ 0 ≤ c.valueLen ∧ p + c.valueLen ≤ n ∧ c.buf (p + c.valueLen) = 0

/-- A slice of a buffer is one of a longer buffer. -/
lemma Call.SliceInside.mono {m n : ℕ} {c : Call} (h : c.SliceInside m) (hmn : m ≤ n) :
    c.SliceInside n := by
  intro p hp
  obtain ⟨hpos, hlen, hle, hnul⟩ := h p hp
  exact ⟨hpos, hlen, by omega, hnul⟩

/-- A character of a line as the loop leaves it. -/
def masked (b : UInt8) : UInt8 := if b = equals then 0 else b

/-- Where the value of a line starts that ends before index `stop`. -/
def valueIn (line : List UInt8) (stop : ℤ) : Option ℤ :=
  if equals ∈ line then some (stop - (afterEquals line).length) else none

/-- A carriage return is left alone, and nothing becomes one. -/
lemma masked_eq_cr_iff {b : UInt8} : masked b = carriageReturn ↔ b = carriageReturn := by
  by_cases h : b = equals
  · rw [masked, if_pos h, h]
    decide
  · rw [masked, if_neg h]

/-- Moving the start of a frame. -/
lemma Buffer.load_frame_add (buf : Buffer) (p : ℤ) (off n : ℕ) :
    (buf.frame p).load off n = (buf.frame (p + off)).load 0 n := by
  simp only [Frame.load, Buffer.frame, Nat.zero_add, Nat.cast_add, add_assoc]

/-- Loads of two buffers that agree on the bytes. -/
lemma Buffer.load_frame_congr {buf buf' : Buffer} {p : ℤ} {n : ℕ}
    (h : ∀ i, p ≤ i → i < p + n → buf i = buf' i) :
    (buf.frame p).load 0 n = (buf'.frame p).load 0 n := by
  refine Frame.load_congr fun j _ hj => h _ ?_ ?_
  · exact le_add_of_nonneg_right (Int.natCast_nonneg j)
  · omega

/-- A load and the byte behind it. -/
lemma Buffer.load_frame_succ (buf : Buffer) (p : ℤ) (n : ℕ) :
    (buf.frame p).load 0 (n + 1) = (buf.frame p).load 0 n ++ [buf (p + n)] := by
  rw [Frame.load_add, Nat.zero_add]
  rfl

/-- Masking changes nothing without a `'='`. -/
lemma map_masked_of_not_mem {line : List UInt8} (h : equals ∉ line) : line.map masked = line := by
  have hmap : line.map masked = line.map id := by
    refine List.map_congr_left fun b hb => ?_
    rw [masked, if_neg (ne_of_mem_of_not_mem hb h), id]
  rw [hmap, List.map_id]

/-- The key of a masked line ends at its first NUL.

**Proof sketch.** Induction on the line. -/
lemma takeWhile_map_masked (line : List UInt8) :
    (line.map masked).takeWhile (· ≠ 0) = (entryOf line).key := by
  unfold entryOf
  induction line with
  | nil => rfl
  | cons b line ih =>
    rw [List.map_cons, List.takeWhile_cons, List.takeWhile_cons]
    by_cases heq : b = equals
    · simp [masked, heq]
    · have hmasked : masked b = b := if_neg heq
      rw [hmasked, ih]
      simp [heq]

/-- A `'='` behind a line is where its value starts. -/
lemma valueIn_concat_equals (line : List UInt8) (stop : ℤ) :
    valueIn (line ++ [equals]) stop = some stop := by
  rw [valueIn, if_pos (by simp), afterEquals_concat_equals, List.length_nil, Nat.cast_zero,
    sub_zero]

/-- Another character behind a line does not move its value. -/
lemma valueIn_concat (line : List UInt8) {b : UInt8} (h : b ≠ equals) (stop : ℤ) :
    valueIn (line ++ [b]) (stop + 1) = valueIn line stop := by
  have hmem : equals ∈ line ++ [b] ↔ equals ∈ line := by simp [h.symm]
  simp only [valueIn, hmem, afterEquals_concat line h, List.length_append, List.length_singleton,
    Nat.cast_add, Nat.cast_one, add_sub_add_right_eq_sub]

/-- In a masked line the value stands as it is. -/
lemma load_afterEquals {buf : Buffer} {start : ℕ} {line before : List UInt8}
    (hbefore : line = before ++ afterEquals line)
    (hline : (buf.frame start).load 0 line.length = line.map masked) :
    (buf.frame (start + before.length)).load 0 (afterEquals line).length = afterEquals line := by
  have hlength : line.length = before.length + (afterEquals line).length := by
    rw [← List.length_append, ← hbefore]
  rw [hlength, Frame.load_add, Nat.zero_add, Buffer.load_frame_add buf start before.length,
    hbefore, List.map_append, ← hbefore] at hline
  rw [(List.append_inj hline (by simp)).2, map_masked_of_not_mem (not_mem_afterEquals line)]

/-- **The call for a line.** Where a masked line stands with a NUL behind it, the call gets the
entry of the line, and its value is a slice that ends there.

**Proof sketch.** The key is the masked line up to its first NUL. There is no `'='` behind the
last one, so the value stands there as it is. -/
lemma gets_of_line {c : Call} {start : ℕ} {line : List UInt8} (hkey : c.key = start)
    (hvalue : c.value = valueIn line (start + line.length))
    (hvalueLen : ∀ p ∈ c.value, c.valueLen = start + line.length - p)
    (hline : (c.buf.frame start).load 0 line.length = line.map masked)
    (hnul : c.buf (start + line.length) = 0) :
    c.SliceInside (start + line.length) ∧ c.Gets (entryOf line) := by
  obtain ⟨buf, key, value, valueLen⟩ := c
  dsimp only at hkey hvalue hvalueLen hline hnul
  subst hkey hvalue
  have hstring : (buf.frame start).IsString 0 (entryOf line).key := by
    have hend : buf.frame start (0 + line.length) = 0 := by
      rw [Nat.zero_add]
      exact hnul
    have hcut := Frame.isString_cString hend
    rwa [Frame.cString, hline, takeWhile_map_masked] at hcut
  by_cases hmem : equals ∈ line
  · obtain ⟨before, hbefore⟩ := exists_append_afterEquals line
    have hlength : line.length = before.length + (afterEquals line).length := by
      rw [← List.length_append, ← hbefore]
    have hvalueIn : valueIn line (start + line.length) = some (start + before.length : ℤ) := by
      rw [valueIn, if_pos hmem, Option.some.injEq]
      omega
    have hload := load_afterEquals hbefore hline
    have hend : (start : ℤ) + before.length + (afterEquals line).length = start + line.length := by
      omega
    have hlen : valueLen = (afterEquals line).length := by
      rw [hvalueLen (start + before.length) hvalueIn]
      omega
    subst hlen
    constructor
    · intro p hp
      obtain rfl := Option.some.inj (hvalueIn.symm.trans hp)
      dsimp only
      rw [hend]
      exact ⟨by omega, by omega, by omega, hnul⟩
    · refine ⟨hstring, ?_⟩
      have hentry : (entryOf line).value = some (afterEquals line) := if_pos hmem
      rw [hentry, hvalueIn]
      refine PassesValue.value hload ?_
      show buf (start + before.length + (afterEquals line).length) = 0
      rwa [hend]
  · have hvalueIn : valueIn line (start + line.length) = none := if_neg hmem
    constructor
    · intro p hp
      cases hvalueIn.symm.trans hp
    · refine ⟨hstring, ?_⟩
      have hentry : (entryOf line).value = none := if_neg hmem
      rw [hentry, hvalueIn]
      exact PassesValue.null valueLen

/-- The call for an empty line, whatever its length. -/
lemma gets_of_nil {c : Call} {start n : ℕ} (hkey : c.key = start) (hvalue : c.value = none)
    (hnul : c.buf start = 0) : c.SliceInside n ∧ c.Gets (entryOf []) := by
  have hnul' : c.buf (start + ([] : List UInt8).length) = 0 := by simpa using hnul
  have hvalue' : c.value = valueIn [] (start + ([] : List UInt8).length) := hvalue
  have hgets := gets_of_line hkey hvalue' (fun p hp => by cases hvalue.symm.trans hp) rfl hnul'
  refine ⟨fun p hp => ?_, hgets.2⟩
  cases hvalue.symm.trans hp

/-! ## The state within a line -/

/-- The loop has read the characters `line` of a line that starts at index `start`, of the buffer
that was `b0` before the loop. -/
structure InLine (b0 : Buffer) (start : ℕ) (line : List UInt8) (s : Scan) : Prop where
  keyPtr : s.keyPtr = start
  valuePtr : s.valuePtr = valueIn line (start + line.length)
  load_eq : (s.buf.frame start).load 0 line.length = line.map masked
  rest : ∀ i : ℤ, start + line.length ≤ i → s.buf i = b0 i

/-- The line ends at index `i` in the buffer `buf`, with a NUL there. -/
lemma InLine.load_update {b0 : Buffer} {start i : ℕ} {line : List UInt8} {s : Scan}
    (h : InLine b0 start line s) (hi : i = start + line.length) :
    (Buffer.frame (Function.update s.buf i 0) start).load 0 line.length = line.map masked := by
  rw [← h.load_eq]
  refine Buffer.load_frame_congr fun j _ hj => Function.update_of_ne ?_ 0 s.buf
  omega

/-- The first character of a line. -/
lemma InLine.nil {b0 : Buffer} {start : ℕ} {s : Scan} (hkey : s.keyPtr = start)
    (hvalue : s.valuePtr = none) (hrest : ∀ i : ℤ, start ≤ i → s.buf i = b0 i) :
    InLine b0 start [] s where
  keyPtr := hkey
  valuePtr := hvalue
  load_eq := rfl
  rest i hi := hrest i (by simpa using hi)

section Step

variable {b0 : Buffer} {start i : ℕ} {line : List UInt8} {s : Scan} (base : ℤ)

/-- A `'='` in a line. -/
lemma InLine.scanByte_equals (h : InLine b0 start line s) (hi : i = start + line.length)
    (hb : b0 i = equals) :
    InLine b0 start (line ++ [equals]) (scanByte base s i) ∧
      (scanByte base s i).calls = s.calls := by
  have hbuf : s.buf i = equals := (h.rest i (by omega)).trans hb
  have hlength : ((line ++ [equals]).length : ℤ) = line.length + 1 := by simp
  rw [scanByte, if_pos hbuf]
  refine ⟨⟨h.keyPtr, ?_, ?_, ?_⟩, rfl⟩
  · rw [valueIn_concat_equals, hlength, hi, Nat.cast_add, add_assoc]
  · rw [List.length_append, List.length_singleton, Buffer.load_frame_succ, h.load_update hi,
      List.map_append, ← Nat.cast_add, ← hi]
    dsimp only
    rw [Function.update_self]
    rfl
  · intro j hj
    rw [← h.rest j (by omega)]
    exact Function.update_of_ne (by omega) 0 s.buf

/-- Another character in a line. -/
lemma InLine.scanByte_other (h : InLine b0 start line s) (hi : i = start + line.length)
    (heq : b0 i ≠ equals) (hlf : b0 i ≠ lineFeed) :
    InLine b0 start (line ++ [b0 i]) (scanByte base s i) ∧
      (scanByte base s i).calls = s.calls := by
  have hbuf : s.buf i = b0 i := h.rest i (by omega)
  have hlength : ((line ++ [b0 i]).length : ℤ) = line.length + 1 := by simp
  rw [scanByte, if_neg (hbuf ▸ heq), if_neg (hbuf ▸ hlf)]
  refine ⟨⟨h.keyPtr, ?_, ?_, ?_⟩, rfl⟩
  · rw [hlength, ← add_assoc, valueIn_concat line heq]
    exact h.valuePtr
  · rw [List.length_append, List.length_singleton, Buffer.load_frame_succ, h.load_eq,
      List.map_append, ← Nat.cast_add, ← hi, hbuf, List.map_singleton, masked, if_neg heq]
  · intro j hj
    exact h.rest j (by omega)

/-- The start of the line behind a line end. -/
lemma inLine_endLine {buf : Buffer} (stop : ℤ) (hrest : ∀ j : ℤ, i + 1 ≤ j → buf j = b0 j) :
    InLine b0 (i + 1) [] (s.endLine base i buf stop) :=
  .nil (by rw [Scan.endLine, Nat.cast_add, Nat.cast_one]) rfl
    fun j hj => hrest j (by simpa using hj)

/-- The last character of a line in the buffer, and the characters before it. -/
lemma load_concat {buf : Buffer} {l : List UInt8} {b : UInt8}
    (h : (buf.frame start).load 0 (l ++ [b]).length = (l ++ [b]).map masked) :
    (buf.frame start).load 0 l.length = l.map masked ∧ buf (start + l.length) = masked b := by
  rw [List.length_append, List.length_singleton, Buffer.load_frame_succ, List.map_append] at h
  obtain ⟨hload, hlast⟩ := List.append_inj h (by simp)
  exact ⟨hload, (List.cons_eq_cons.mp hlast).1⟩

/-- The call at a line feed behind a carriage return. -/
lemma InLine.gets_crlf (h : InLine b0 start line s) (hi : i = start + line.length)
    {buf : Buffer} (hload : (buf.frame start).load 0 line.length = line.map masked)
    (hnul : buf i = 0) (hcr : buf (i - 1) = carriageReturn) {c : Call}
    (hc : c = ⟨Function.update buf (i - 1) 0, s.keyPtr, s.valuePtr,
      lengthTo base s.valuePtr (i - 1)⟩) :
    c.SliceInside i ∧ c.Gets (entryOf (stripCr line)) := by
  subst hc
  have hvalue := h.valuePtr
  rcases List.eq_nil_or_concat' line with rfl | ⟨l, b, rfl⟩
  · have hstart : (i : ℤ) = start := by simpa using hi
    refine gets_of_nil h.keyPtr hvalue ?_
    rw [← hstart]
    exact (Function.update_of_ne (by omega) 0 buf).trans hnul
  · obtain ⟨hl, hlast⟩ := load_concat hload
    have hlength : ((l ++ [b]).length : ℤ) = l.length + 1 := by simp
    have hprev : (i : ℤ) - 1 = start + l.length := by omega
    rw [← hprev, hcr] at hlast
    obtain rfl := masked_eq_cr_iff.mp hlast.symm
    rw [hlength, ← add_assoc, valueIn_concat l (by decide)] at hvalue
    rw [stripCr_concat_cr]
    have hgets := gets_of_line (c := ⟨Function.update buf (i - 1) 0, s.keyPtr, s.valuePtr,
      lengthTo base s.valuePtr (i - 1)⟩) h.keyPtr hvalue ?_ ?_ ?_
    · exact ⟨hgets.1.mono (by omega), hgets.2⟩
    · intro p hp
      dsimp only at hp ⊢
      rw [hp, lengthTo, hprev]
    · rw [← hl]
      refine Buffer.load_frame_congr fun j _ hj => Function.update_of_ne ?_ 0 buf
      omega
    · dsimp only
      rw [hprev]
      exact Function.update_self ..

/-- The call at a line feed behind another character. -/
lemma InLine.gets_lf (h : InLine b0 start line s) (hi : i = start + line.length)
    {buf : Buffer} (hload : (buf.frame start).load 0 line.length = line.map masked)
    (hnul : buf i = 0) (hcr : buf (i - 1) ≠ carriageReturn) {c : Call}
    (hc : c = ⟨buf, s.keyPtr, s.valuePtr, lengthTo base s.valuePtr i⟩) :
    c.SliceInside i ∧ c.Gets (entryOf (stripCr line)) := by
  have hstrip : stripCr line = line := by
    rcases List.eq_nil_or_concat' line with rfl | ⟨l, b, rfl⟩
    · rfl
    · refine stripCr_concat_of_ne l fun hb => hcr ?_
      have hlength : ((l ++ [b]).length : ℤ) = l.length + 1 := by simp
      have hprev : (i : ℤ) - 1 = start + l.length := by omega
      rw [hprev, (load_concat hload).2]
      exact masked_eq_cr_iff.mpr hb
  have hstop : (i : ℤ) = start + line.length := by omega
  subst hc
  rw [hstrip, hi]
  refine gets_of_line h.keyPtr h.valuePtr ?_ hload ?_
  · intro p hp
    dsimp only at hp ⊢
    rw [hp, lengthTo, Nat.cast_add]
  · rw [← hstop]
    exact hnul

/-- The line feed at the end of a line.

**Proof sketch.** The byte before the line feed is a carriage return iff the last character of the
line is one, unless the line is empty; then there is no value, and the key is empty in either
case. -/
lemma InLine.scanByte_lineFeed (h : InLine b0 start line s) (hi : i = start + line.length)
    (hb : b0 i = lineFeed) :
    InLine b0 (i + 1) [] (scanByte base s i) ∧
      ∃ c, (scanByte base s i).calls = s.calls ++ [c] ∧ c.SliceInside i ∧
        c.Gets (entryOf (stripCr line)) := by
  have hbuf : s.buf i = lineFeed := (h.rest i (by omega)).trans hb
  have hne : s.buf i ≠ equals := by
    rw [hbuf]
    decide
  have hload := h.load_update hi
  have hnul : Function.update s.buf i 0 i = 0 := Function.update_self ..
  have hrest (j : ℤ) (hj : i + 1 ≤ j) : Function.update s.buf i 0 j = b0 j :=
    (Function.update_of_ne (by omega) 0 s.buf).trans (h.rest j (by omega))
  rw [scanByte, if_neg hne, if_pos hbuf]
  dsimp only
  split_ifs with hcr
  · refine ⟨inLine_endLine base _ fun j hj => ?_, _, rfl, h.gets_crlf base hi hload hnul hcr rfl⟩
    rw [← hrest j hj]
    exact Function.update_of_ne (by omega) 0 _
  · exact ⟨inLine_endLine base _ hrest, _, rfl, h.gets_lf base hi hload hnul hcr rfl⟩

end Step

/-! ## The whole scan -/

/-- The calls of the loop for a part of the buffer, from within a line.

**Proof sketch.** Induction on the bytes, by the state within a line. -/
lemma InLine.foldl_scanByte {b0 : Buffer} (base : ℤ) {n : ℕ} (bs : List UInt8) :
    ∀ {start i : ℕ} {line : List UInt8} {s : Scan}, InLine b0 start line s →
      i = start + line.length → n = i + bs.length → (b0.frame i).load 0 bs.length = bs →
      ∃ start' line' es calls, n = start' + line'.length ∧
        InLine b0 start' line' ((List.range' i bs.length).foldl (scanByte base) s) ∧
        ((List.range' i bs.length).foldl (scanByte base) s).calls = s.calls ++ calls ∧
        entriesFrom line bs = es ++ entriesFrom line' [] ∧
        List.Forall₂ (fun c e => c.SliceInside n ∧ c.Gets e) calls es := by
  induction bs with
  | nil =>
    intro start i line s h hi hn _
    refine ⟨start, line, [], [], ?_, h, ?_, rfl, List.Forall₂.nil⟩
    · rw [hn, hi]
      rfl
    · exact (List.append_nil _).symm
  | cons b bs ih =>
    intro start i line s h hi hn hbs
    rw [List.length_cons, Frame.load_succ, List.cons_eq_cons, Nat.zero_add,
      Buffer.load_frame_add] at hbs
    obtain ⟨hb, hbs⟩ := hbs
    have hn' : n = i + 1 + bs.length := by
      rw [hn, List.length_cons]
      omega
    have hnext (c : UInt8) : i + 1 = start + (line ++ [c]).length := by
      rw [List.length_append, List.length_singleton, hi, add_assoc]
    have hb : b0 i = b := by simpa [Buffer.frame] using hb
    rw [List.length_cons, List.range'_succ, List.foldl_cons]
    by_cases hlf : b = lineFeed
    · obtain ⟨hinLine, c, hcalls, hslice, hgets⟩ := h.scanByte_lineFeed base hi (hb.trans hlf)
      obtain ⟨start', line', es, calls, hend, hline', hcalls', hes, hforall⟩ :=
        ih (i := i + 1) hinLine rfl hn' hbs
      refine ⟨start', line', entryOf (stripCr line) :: es, c :: calls, hend, hline', ?_, ?_,
        List.Forall₂.cons ⟨hslice.mono (by omega), hgets⟩ hforall⟩
      · rw [hcalls', hcalls, List.append_assoc, List.singleton_append]
      · rw [hlf, entriesFrom_lineFeed, hes, List.cons_append]
    · rw [entriesFrom_cons_of_ne line bs hlf]
      by_cases heq : b = equals
      · obtain ⟨hinLine, hcalls⟩ := h.scanByte_equals base hi (hb.trans heq)
        rw [heq, ← hcalls]
        exact ih hinLine (hnext equals) hn' hbs
      · obtain ⟨hinLine, hcalls⟩ := h.scanByte_other base hi (hb ▸ heq) (hb ▸ hlf)
        rw [hb] at hinLine
        rw [← hcalls]
        exact ih hinLine (hnext b) hn' hbs

/-- The text stands at the start of the buffer. -/
lemma load_cfgBuffer (heap : Buffer) (content : List UInt8) :
    ((cfgBuffer heap content).frame 0).load 0 (content.length + 1) = content ++ [0] := by
  apply List.ext_getElem
  · simp
  · intro i h₁ h₂
    rw [List.length_append, List.length_singleton] at h₂
    simp [Frame.load, Buffer.frame, cfgBuffer, h₂]

/-- **What the scan calls.** For every text and whatever stands around the buffer, the calls of
the scan get the entries of the text, in order, and their values are slices of the buffer.

**Proof sketch.** The loop leaves the characters behind the last line feed. If there is a `'='`
among them, the value is handed over by the call behind the loop. -/
theorem forall₂_scan (base : ℤ) (heap : Buffer) (content : List UInt8) :
    List.Forall₂ (fun c e => c.SliceInside content.length ∧ c.Gets e) (scan base heap content)
      (entries content) := by
  have hload := load_cfgBuffer heap content
  rw [Buffer.load_frame_succ] at hload
  obtain ⟨hbytes, hlast⟩ := List.append_inj hload (by simp)
  have hnul : cfgBuffer heap content content.length = 0 := by
    simpa using (List.cons_eq_cons.mp hlast).1
  have hstart : InLine (cfgBuffer heap content) 0 [] (Scan.start (cfgBuffer heap content)) :=
    .nil rfl rfl fun _ _ => rfl
  obtain ⟨start, line, es, calls, hend, hinLine, hcalls, hes, hforall⟩ :=
    hstart.foldl_scanByte (i := 0) base content rfl (Nat.zero_add _).symm hbytes
  rw [entries, hes, scan]
  change InLine _ _ _ (scanLoop base heap content) at hinLine
  change (scanLoop base heap content).calls = calls at hcalls
  rw [hcalls]
  refine List.rel_append hforall ?_
  have hstop : (content.length : ℤ) = start + line.length := by omega
  have hvalue := hinLine.valuePtr
  rw [entriesFrom]
  by_cases hmem : equals ∈ line
  · rw [if_pos hmem, hvalue, valueIn, if_pos hmem]
    refine List.Forall₂.cons ?_ List.Forall₂.nil
    rw [hend]
    refine gets_of_line hinLine.keyPtr (if_pos hmem).symm ?_ hinLine.load_eq ?_
    · intro p hp
      obtain rfl := Option.some.inj hp
      dsimp only [lengthTo]
      rw [Nat.cast_add]
    · rw [← hstop, ← hnul]
      exact hinLine.rest _ hstop.ge
  · rw [if_neg hmem, hvalue, valueIn, if_neg hmem]
    exact List.Forall₂.nil

/-! ## The indices -/

/-- The loop only reads and writes the buffer with its NUL, and the calls with a value pass on a
slice of it. -/
structure ScanSafe (base : ℤ) (heap : Buffer) (content : List UInt8) : Prop where
  touched : ∀ i ∈ (scanLoop base heap content).touched, 0 ≤ i ∧ i ≤ content.length
  slices : ∀ c ∈ scan base heap content, c.SliceInside content.length

/-- The indices that the body of the loop reads and writes. -/
lemma touched_scanByte (base : ℤ) (s : Scan) (i : ℕ) :
    (scanByte base s i).touched =
      s.touched ++ if s.buf i = lineFeed then [(i : ℤ), i - 1] else [(i : ℤ)] := by
  have hne : equals ≠ lineFeed := by decide
  unfold scanByte
  dsimp only
  split_ifs with heq hlf hcr
  · exact absurd (heq.symm.trans hlf) hne
  · rfl
  · rfl
  · rfl
  · rfl

/-- The indices of a part of the loop.

**Proof sketch.** Induction on the number of bytes. -/
lemma mem_touched_foldl (base : ℤ) (n : ℕ) {s : Scan} {i : ℕ} {j : ℤ}
    (h : j ∈ ((List.range' i n).foldl (scanByte base) s).touched) :
    j ∈ s.touched ∨ (i : ℤ) - 1 ≤ j ∧ j < i + n := by
  induction n generalizing s i with
  | zero => exact Or.inl h
  | succ n ih =>
    rw [List.range'_succ, List.foldl_cons] at h
    rcases ih h with hmem | hrange
    · rw [touched_scanByte, List.mem_append] at hmem
      refine hmem.imp_right fun hmem => ?_
      split_ifs at hmem
      · simp only [List.mem_cons, List.not_mem_nil, or_false] at hmem
        omega
      · rw [List.mem_singleton] at hmem
        omega
    · right
      push_cast at hrange ⊢
      omega

/-- The loop goes on from what it has touched. -/
lemma touched_subset_foldl (base : ℤ) (n : ℕ) {s : Scan} {i : ℕ} {j : ℤ} (h : j ∈ s.touched) :
    j ∈ ((List.range' i n).foldl (scanByte base) s).touched := by
  induction n generalizing s i with
  | zero => exact h
  | succ n ih =>
    rw [List.range'_succ, List.foldl_cons]
    refine ih ?_
    rw [touched_scanByte]
    exact List.mem_append_left _ h

/-- The first byte of the buffer is that of the text. -/
lemma cfgBuffer_cons (heap : Buffer) (b : UInt8) (content : List UInt8) :
    cfgBuffer heap (b :: content) 0 = b := by
  simp [cfgBuffer]

/-- With a line feed as the first byte of the text, the loop reads the byte before the buffer. -/
lemma neg_one_mem_touched (base : ℤ) (heap : Buffer) (bs : List UInt8) :
    (-1 : ℤ) ∈ (scanLoop base heap (lineFeed :: bs)).touched := by
  have hbuf : (Scan.start (cfgBuffer heap (lineFeed :: bs))).buf (0 : ℕ) = lineFeed :=
    cfgBuffer_cons heap lineFeed bs
  rw [scanLoop, List.length_cons, List.range'_succ, List.foldl_cons]
  refine touched_subset_foldl base _ ?_
  rw [touched_scanByte, if_pos hbuf]
  simp

/-- **When the scan stays in the buffer.** For every text and whatever stands around the buffer,
the scan stays in the buffer iff the text does not start with a line feed.

**Proof sketch.** Only the byte before a line feed can be outside, if the line feed is the first
byte. The slices are inside in any case (`forall₂_scan`). -/
theorem scanSafe_iff (base : ℤ) (heap : Buffer) (content : List UInt8) :
    ScanSafe base heap content ↔ content.head? ≠ some lineFeed := by
  constructor
  · rintro ⟨htouched, -⟩ hhead
    obtain ⟨bs, rfl⟩ := List.head?_eq_some_iff.mp hhead
    exact absurd (htouched _ (neg_one_mem_touched base heap bs)).1 (by omega)
  · intro hhead
    constructor
    · intro j hj
      cases content with
      | nil => cases hj
      | cons b bs =>
        have hb : b ≠ lineFeed := fun hb => hhead (congrArg some hb)
        rw [scanLoop, List.length_cons, List.range'_succ, List.foldl_cons] at hj
        rw [List.length_cons]
        rcases mem_touched_foldl base _ hj with hmem | hrange
        · have hbuf : (Scan.start (cfgBuffer heap (b :: bs))).buf 0 = b := cfgBuffer_cons heap b bs
          rw [touched_scanByte, Nat.cast_zero, hbuf, if_neg hb] at hmem
          obtain rfl : j = 0 := by simpa [Scan.start] using hmem
          omega
        · omega
    · exact ((List.forall₂_and_left _ _).mp (forall₂_scan base heap content)).1

/-- A file that is a single line feed. -/
theorem not_scanSafe :
    ¬ ∀ (base : ℤ) (heap : Buffer) (content : List UInt8), ScanSafe base heap content := by
  intro h
  have hsafe := h 0 (fun _ => 0) [lineFeed]
  exact absurd (hsafe.touched _ (neg_one_mem_touched 0 (fun _ => 0) [])).1 (by decide)

end LoadNetConf

end RecoveryMenu

import Mathlib.Data.List.Find
import Mathlib.Data.List.GetD
import Mathlib.Data.List.TakeDrop
import RecoveryMenu.Options.SubmitSystemData.Body
import RecoveryMenu.Options.SubmitSystemData.Submit

set_option relaxedAutoImplicit false
set_option autoImplicit false

/-!
# The response in pieces (`ios_mcp/source/options/SubmitSystemData.c`)

The option calls `recv` once and takes what it returns for the whole response. A server may send
its response in several pieces, and then the option sees the first one only.

The status line and the body are found in the first piece at the same places as in the whole
response, where the piece holds them; so of a piece that goes past the status line the option
shows the status of the whole response, and the part of its body in the piece.

## Main definitions

* `RecoveryMenu.SubmitSystemData.StatusLine`: a status line of HTTP/1.0 or HTTP/1.1.
* `RecoveryMenu.SubmitSystemData.Delivers`: successive calls of `recv` return some pieces.
* `RecoveryMenu.SubmitSystemData.texts`: what a run shows.

## Main results

* `RecoveryMenu.SubmitSystemData.findBody_eq`: the body in the first bytes of a response.
* `RecoveryMenu.SubmitSystemData.texts_submitResponse`: what is shown of the first piece.
* `RecoveryMenu.SubmitSystemData.response_of_pieces`: when that is what is shown of the whole.

## References

* `ios_mcp/source/options/SubmitSystemData.c`, lines 84-153 and 448-488.
-/

namespace RecoveryMenu

namespace SubmitSystemData

open ByteMemory Menu

/-! ## Responses -/

/-- A status line, with the version, the three digits of the status and a reason. -/
structure StatusLine where
  minor : UInt8
  hundreds : UInt8
  tens : UInt8
  units : UInt8
  reason : List UInt8
  minor_eq : minor = 0x30 ∨ minor = 0x31
  digits : ∀ c ∈ [hundreds, tens, units], 0x30 ≤ c ∧ c ≤ 0x39
  no_cr : 0x0D ∉ reason

namespace StatusLine

/-- The status line as it is sent. -/
def bytes (line : StatusLine) : List UInt8 :=
  httpPrefix ++ [line.minor, 0x20, line.hundreds, line.tens, line.units, 0x20] ++ line.reason ++
    [0x0D, 0x0A]

/-- The index of the carriage return. -/
def cr (line : StatusLine) : ℕ := 13 + line.reason.length

end StatusLine

/-- The bytes of a response, as a frame. -/
def frameOf (whole : List UInt8) : Frame := fun i => whole.getD i 0

/-- The frame holds the first `n` bytes of a response. -/
def Holds (f : Frame) (whole : List UInt8) (n : ℕ) : Prop := ∀ i < n, f i = frameOf whole i

/-- A load from the first bytes of a response. -/
lemma Holds.load_eq {f : Frame} {whole : List UInt8} {n off k : ℕ} (h : Holds f whole n)
    (hle : off + k ≤ n) : f.load off k = (frameOf whole).load off k :=
  Frame.load_congr fun i _ hi => h i (by omega)

/-- A load inside the bytes of a response. -/
lemma load_frameOf {whole : List UInt8} {off k : ℕ} (hle : off + k ≤ whole.length) :
    (frameOf whole).load off k = (whole.drop off).take k := by
  apply List.ext_getElem
  · simp
    omega
  · intro i h₁ h₂
    simp only [Frame.length_load] at h₁
    simp [Frame.load, frameOf, List.getElem?_eq_getElem (show off + i < whole.length by omega)]

/-! ## The status line -/

/-- The bytes from the reason on. -/
lemma frameOf_add (line : StatusLine) (tail : List UInt8) (i : ℕ) :
    frameOf (line.bytes ++ tail) (13 + i) = (line.reason ++ ([0x0D, 0x0A] ++ tail)).getD i 0 := by
  have hbytes : line.bytes ++ tail = (httpPrefix ++ [line.minor, 0x20, line.hundreds, line.tens,
      line.units, 0x20]) ++ (line.reason ++ ([0x0D, 0x0A] ++ tail)) := by
    simp only [StatusLine.bytes, List.append_assoc]
  rw [frameOf, hbytes, List.getD_append_right _ _ _ _ (Nat.le_add_right 13 i)]
  congr 1
  exact Nat.add_sub_cancel_left 13 i

/-- The carriage return of the status line. -/
lemma frameOf_cr (line : StatusLine) (tail : List UInt8) :
    frameOf (line.bytes ++ tail) line.cr = 0x0D := by
  rw [StatusLine.cr, frameOf_add, List.getD_append_right _ _ _ _ (le_refl _), Nat.sub_self]
  rfl

/-- There is no carriage return in the reason. -/
lemma frameOf_reason_ne {line : StatusLine} (tail : List UInt8) {i : ℕ} (hle : 13 ≤ i)
    (hlt : i < line.cr) : frameOf (line.bytes ++ tail) i ≠ 0x0D := by
  obtain ⟨k, rfl⟩ := Nat.exists_eq_add_of_le hle
  have hk : k < line.reason.length := by
    rw [StatusLine.cr] at hlt
    omega
  rw [frameOf_add, List.getD_append _ _ _ _ hk, List.getD_eq_getElem _ _ hk]
  exact fun hcr => line.no_cr (hcr ▸ List.getElem_mem hk)

/-- The carriage return of the status line is the first one from index 13 on. -/
lemma Holds.endsStatusLine {f : Frame} {line : StatusLine} {tail : List UInt8} {n : ℕ}
    (h : Holds f (line.bytes ++ tail) n) (hlt : line.cr < n) : EndsStatusLine f n line.cr where
  le := Nat.le_add_right 13 _
  lt := hlt
  eq := by rw [h _ hlt, frameOf_cr]
  first p hle hp := by
    rw [h p (hp.trans hlt)]
    exact frameOf_reason_ne tail hle hp

/-- Nothing else ends the status line. -/
lemma Holds.cr_eq {f : Frame} {line : StatusLine} {tail : List UInt8} {n cr : ℕ}
    (h : Holds f (line.bytes ++ tail) n) (hends : EndsStatusLine f n cr) : cr = line.cr := by
  by_cases hlt : line.cr < n
  · exact hends.unique (h.endsStatusLine hlt)
  · have hcr : cr < line.cr := hends.lt.trans_le (not_lt.mp hlt)
    refine absurd hends.eq ?_
    rw [h cr hends.lt]
    exact frameOf_reason_ne tail hends.le hcr

/-- The fields of a valid status line before its reason. -/
lemma Holds.framesStatus {f : Frame} {line : StatusLine} {tail : List UInt8} {n : ℕ}
    (h : Holds f (line.bytes ++ tail) n) (hge : 64 ≤ n) : FramesStatus f where
  starts := (h.load_eq (by omega)).trans rfl
  version := by
    have hseven : f 7 = line.minor := h 7 (by omega)
    rw [hseven]
    exact line.minor_eq
  before := h 8 (by omega)
  behind := h 12 (by omega)

/-- First bytes that go past the carriage return of the status line. -/
lemma parseHttpResponse_of_lt {f : Frame} {line : StatusLine} {tail : List UInt8} {n : ℕ}
    (h : Holds f (line.bytes ++ tail) n) (hge : 64 ≤ n) (hlt : line.cr + 1 < n) :
    parseHttpResponse f n = ⟨0, f.store line.cr [0], some 9,
      findBody (f.store line.cr [0]) (line.cr + 1) n⟩ := by
  have hends : EndsStatusLine f n line.cr := h.endsStatusLine (by omega)
  rw [parseHttpResponse_eq hge (h.framesStatus hge), findCr_eq_some_iff.mpr hends]
  exact if_neg hlt.ne

/-- First bytes that are too few. -/
lemma parseHttpResponse_res_ne_zero {f : Frame} {line : StatusLine} {tail : List UInt8} {n : ℕ}
    (h : Holds f (line.bytes ++ tail) n) (hfew : n < 64 ∨ n ≤ line.cr + 1) :
    (parseHttpResponse f n).res ≠ 0 := by
  intro hres
  obtain ⟨hge, -, cr, hends, hlt, -⟩ := exists_of_parseHttpResponse_res hres
  obtain rfl := h.cr_eq hends
  omega

/-! ## The body -/

/-- The first hit in a shorter range is the one in a longer range, if it is in the shorter. -/
lemma find?_range'_of_le (p : ℕ → Bool) (start : ℕ) {a b : ℕ} (h : a ≤ b) :
    (List.range' start a).find? p =
      ((List.range' start b).find? p).filter fun x => x < start + a := by
  obtain ⟨k, rfl⟩ := Nat.exists_eq_add_of_le h
  rw [← List.range'_append_1, List.find?_append]
  cases hfirst : (List.range' start a).find? p with
  | some x =>
    have hx := List.mem_range'_1.mp (List.mem_of_find?_eq_some hfirst)
    rw [Option.some_or, Option.filter_some, if_pos (decide_eq_true hx.2)]
  | none =>
    rw [Option.none_or]
    cases hsecond : (List.range' (start + a) k).find? p with
    | none => rfl
    | some x =>
      have hx := List.mem_range'_1.mp (List.mem_of_find?_eq_some hsecond)
      rw [Option.filter_some, if_neg]
      simp
      omega

/-- Where the body of a response starts, if it has one, with the search for the end of the header
from the given index on. -/
def bodyStart (whole : List UInt8) (start : ℕ) : Option ℕ :=
  findBody (frameOf whole) start whole.length

/-- **The body in the first bytes.** The body found in the first `n` bytes of a response is the
one of the whole response, if it starts there.

**Proof sketch.** The search for the end of the header sees the same bytes, and goes on less far
(`find?_range'_of_le`). -/
theorem findBody_eq {f : Frame} {whole : List UInt8} {start n : ℕ}
    (h : ∀ i, start ≤ i → i < n → f i = frameOf whole i) (hn : n ≤ whole.length) :
    findBody f start n = (bodyStart whole start).filter fun b => b < n := by
  have hfind : findHeaderEnd f start n =
      (findHeaderEnd (frameOf whole) start whole.length).filter
        fun p => p < start + (n - 3 - start) := by
    rw [findHeaderEnd, findHeaderEnd, ← find?_range'_of_le _ _ (by omega)]
    refine List.find?_congr fun p hp => ?_
    have hp := List.mem_range'_1.mp hp
    rw [Frame.load_congr fun i hi hlt => h i (by omega) (by omega)]
  rw [findBody, bodyStart, findBody, hfind]
  cases hwhole : findHeaderEnd (frameOf whole) start whole.length with
  | none => rfl
  | some p =>
    rw [findHeaderEnd] at hwhole
    have hp := List.mem_range'_1.mp (List.mem_of_find?_eq_some hwhole)
    by_cases hb : p + 4 < n
    · have hin : p < start + (n - 3 - start) := by omega
      have hwholeb : p + 4 < whole.length := by omega
      simp only [Option.filter_some, hin, hb, hwholeb, decide_true, if_true]
    · by_cases hin : p < start + (n - 3 - start)
      all_goals by_cases hwholeb : p + 4 < whole.length
      all_goals simp [Option.filter_some, hin, hb, hwholeb]

/-! ## What is shown -/

/-- The text that an event shows. -/
@[simp] def textOf : Event Call → Option (String × List Arg)
  | .print format args => some (format, args)
  | _ => none

/-- What some events show. -/
def texts (events : List (Event Call)) : List (String × List Arg) := events.filterMap textOf

/-- Nothing is shown without an event. -/
@[simp] lemma texts_nil : texts [] = [] := rfl

/-- What is shown by an event and then the rest. -/
@[simp] lemma texts_cons (e : Event Call) (l : List (Event Call)) :
    texts (e :: l) = (textOf e).toList ++ texts l := by
  rw [texts, List.filterMap_cons]
  cases textOf e
  all_goals rfl

/-- What is shown in one part of a run and then the next. -/
@[simp] lemma texts_append (a b : List (Event Call)) : texts (a ++ b) = texts a ++ texts b :=
  List.filterMap_append

/-- The texts of a response that is not valid. -/
def invalidTexts : List (String × List Arg) :=
  ("Invalid response received from the server.", []) :: texts (submitFinish false)

/-- The texts of a response with the given status, and its body if it has one. -/
def responseTexts (ok : Bool) (status : List UInt8) (body : Option (List UInt8)) :
    List (String × List Arg) :=
  ("%s", [.chars status]) :: (body.toList.map fun cs => ("%s", [.chars cs])) ++
    texts (submitFinish ok)

/-- The status of a response, up to a NUL. -/
def StatusLine.status (line : StatusLine) : List UInt8 :=
  ([line.hundreds, line.tens, line.units, 0x20] ++ line.reason).takeWhile (· ≠ 0)

/-- The body shown of the first `n` bytes of a response. -/
def bodyShown (line : StatusLine) (tail : List UInt8) (n : ℕ) : Option (List UInt8) :=
  ((bodyStart (line.bytes ++ tail) (line.cr + 1)).filter fun b => b < n).map fun b =>
    ((((line.bytes ++ tail).drop b).takeWhile (· ≠ 0)).take (n - b))

/-- The buffer has what was received, ended by a NUL. -/
lemma holds_received (buf : Frame) {first whole : List UInt8} (hstarts : first <+: whole)
    (hlt : first.length < dataBufferSize) :
    Holds (received buf first) whole first.length ∧ received buf first first.length = 0 := by
  refine ⟨fun i hi => ?_, Frame.store_singleton_self _ _ _⟩
  rw [received, Frame.store_singleton_of_ne _ _ hi.ne, Frame.store_singleton_of_ne _ _ (by omega),
    Frame.store_of_le _ _ (Nat.zero_le i), Nat.sub_zero, List.getElem?_eq_getElem hi,
    Option.getD_some, frameOf, hstarts.getElem hi, List.getD_eq_getElem]

/-- The body starts behind the index from which it was searched. -/
lemma le_of_bodyStart {whole : List UInt8} {start b : ℕ} (h : bodyStart whole start = some b) :
    start ≤ b := by
  obtain ⟨p, rfl, hle, -⟩ := findBody_eq_some_iff.mp h
  omega

/-- The string at an index of the first bytes of a response that are ended by a NUL. -/
lemma shownString_eq {f : Frame} {whole : List UInt8} {off n : ℕ}
    (h : ∀ i, off ≤ i → i < n → f i = frameOf whole i) (hnul : f n = 0) (hle : off ≤ n)
    (hlt : n < dataBufferSize) (hwhole : n ≤ whole.length) :
    shownString f off = ((whole.drop off).takeWhile (· ≠ 0)).take (n - off) := by
  have hend : f (off + (n - off)) = 0 := by rwa [Nat.add_sub_cancel' hle]
  rw [shownString, Frame.cString_of_nul hend (by omega), Frame.cString,
    Frame.load_congr fun i hi hlt => h i hi (by omega), load_frameOf (by omega),
    ← List.take_takeWhile]

/-- The status is what stands between the version and the carriage return. -/
lemma status_eq (line : StatusLine) (tail : List UInt8) :
    (((line.bytes ++ tail).drop 9).takeWhile (· ≠ 0)).take (line.cr - 9) = line.status := by
  have hdrop : (line.bytes ++ tail).drop 9 =
      ([line.hundreds, line.tens, line.units, 0x20] ++ line.reason) ++ ([0x0D, 0x0A] ++ tail) := by
    simp only [StatusLine.bytes, List.append_assoc]
    rfl
  rw [List.take_takeWhile, hdrop, List.take_left', StatusLine.status]
  simp only [StatusLine.cr, List.length_append, List.length_cons, List.length_nil]
  omega

/-- **What is shown of the first piece.** If the first piece of a response with a valid status
line has at least 64 bytes and goes past the carriage return of the status line, its status and
the part of its body in the piece are shown. Otherwise the response is not valid.

**Proof sketch.** The buffer has the bytes of the piece, so `parse_http_response` finds what it
would find in the whole response, as far as it is there (`findBody_eq`). -/
theorem texts_submitResponse {recvs : ℕ → RecvResult} (buf : Frame) {line : StatusLine}
    {tail first : List UInt8} {hne : first ≠ []} {hlt : first.length < dataBufferSize}
    (hrecv : recvs 0 = .data first hne hlt) (hstarts : first <+: line.bytes ++ tail) :
    texts (submitResponse recvs buf) =
      if 64 ≤ first.length ∧ line.cr + 1 < first.length then
        responseTexts (line.hundreds = 0x32) line.status (bodyShown line tail first.length)
      else invalidTexts := by
  obtain ⟨hholds, hnul⟩ := holds_received buf hstarts hlt
  have hlength := hstarts.length_le
  simp only [submitResponse, hrecv, texts_append, texts_cons, textOf, texts_nil,
    Option.toList_none, List.nil_append]
  split_ifs with hpast
  · -- the status and the body, at the same places as in the whole response
    have hcr : 13 ≤ line.cr := Nat.le_add_right 13 _
    have hagree {i : ℕ} (hi : i < first.length) (hne : i ≠ line.cr) :
        (received buf first).store line.cr [0] i = frameOf (line.bytes ++ tail) i := by
      rw [Frame.store_singleton_of_ne _ _ hne, hholds i hi]
    have hend : (received buf first).store line.cr [0] first.length = 0 := by
      rw [Frame.store_singleton_of_ne _ _ (by omega), hnul]
    have hbody : findBody ((received buf first).store line.cr [0]) (line.cr + 1) first.length =
        (bodyStart (line.bytes ++ tail) (line.cr + 1)).filter fun b => b < first.length :=
      findBody_eq (fun i hi hlt => hagree hlt (by omega)) hlength
    have hstatus : shownString ((received buf first).store line.cr [0]) 9 = line.status := by
      rw [shownString_eq (n := line.cr) (fun i _ hlt => hagree (by omega) hlt.ne)
        (Frame.store_singleton_self _ _ _) (by omega) (by omega) (by omega), status_eq]
    have hfirst : (received buf first).store line.cr [0] 9 = line.hundreds :=
      hagree (by omega) (by omega)
    rw [parseHttpResponse_of_lt hholds hpast.1 hpast.2, hbody]
    simp only [submitShow, hstatus, hfirst, responseTexts, bodyShown]
    cases hstart : (bodyStart (line.bytes ++ tail) (line.cr + 1)).filter
        fun b => b < first.length with
    | none => simp
    | some b =>
      obtain ⟨hsome, hb⟩ := Option.filter_eq_some_iff.mp hstart
      have hle := le_of_bodyStart hsome
      have hb := of_decide_eq_true hb
      have hshown : shownString ((received buf first).store line.cr [0]) b =
          (((line.bytes ++ tail).drop b).takeWhile (· ≠ 0)).take (first.length - b) :=
        shownString_eq (fun i hi hlt => hagree hlt (by omega)) hend hb.le hlt hlength
      simp [hshown]
  · have hres := parseHttpResponse_res_ne_zero hholds (by omega)
    rw [submitShow]
    split
    · rw [if_neg hres]
      rfl
    · rfl

/-! ## Responses in pieces -/

/-- A response of 64 to `0x9FF` bytes that starts with a valid status line. -/
structure Response where
  line : StatusLine
  tail : List UInt8
  le_length : 64 ≤ (line.bytes ++ tail).length
  length_lt : (line.bytes ++ tail).length < dataBufferSize

/-- The response as it is sent. -/
def Response.bytes (w : Response) : List UInt8 := w.line.bytes ++ w.tail

/-- A response, cut into pieces. -/
structure Cut (w : Response) where
  pieces : List (List UInt8)
  flatten_eq : pieces.flatten = w.bytes
  ne_nil : ∀ piece ∈ pieces, piece ≠ []

namespace Cut

variable {w : Response}

/-- Each piece fits into the buffer. -/
lemma length_lt (cut : Cut w) {piece : List UInt8} (h : piece ∈ cut.pieces) :
    piece.length < dataBufferSize := by
  refine Nat.lt_of_le_of_lt ?_ w.length_lt
  rw [← Response.bytes, ← cut.flatten_eq]
  exact (List.sublist_flatten_of_mem h).length_le

/-- The results of `recv` when the pieces arrive one by one and the server then closes the
connection. -/
def recvs (cut : Cut w) (i : ℕ) : RecvResult :=
  if h : i < cut.pieces.length then
    .data cut.pieces[i] (cut.ne_nil _ (List.getElem_mem h)) (cut.length_lt (List.getElem_mem h))
  else .failed closedByServer (Int.le_refl closedByServer)

/-- The response in one piece. -/
def whole (w : Response) : Cut w where
  pieces := [w.bytes]
  flatten_eq := by simp
  ne_nil := by
    intro piece hpiece hnil
    have hle := w.le_length
    rw [← Response.bytes, ← List.mem_singleton.mp hpiece, hnil] at hle
    exact absurd hle (by decide)

/-- The first piece. -/
def first (cut : Cut w) : List UInt8 := cut.pieces.headD []

/-- There is a first piece. -/
lemma exists_pieces_eq (cut : Cut w) : ∃ rest, cut.pieces = cut.first :: rest := by
  have hbytes := cut.flatten_eq
  rw [first]
  cases hpieces : cut.pieces with
  | nil =>
    have hle := w.le_length
    rw [hpieces] at hbytes
    rw [← Response.bytes, ← hbytes] at hle
    exact absurd hle (by decide)
  | cons piece rest => exact ⟨rest, rfl⟩

/-- The first piece starts the response. -/
lemma first_starts (cut : Cut w) : cut.first <+: w.line.bytes ++ w.tail := by
  obtain ⟨rest, hrest⟩ := cut.exists_pieces_eq
  have hbytes := cut.flatten_eq
  rw [hrest, List.flatten_cons] at hbytes
  exact ⟨rest.flatten, hbytes⟩

/-- The first piece is the first result of `recv`. -/
lemma recvs_zero (cut : Cut w) : ∃ hne hlt, cut.recvs 0 = .data cut.first hne hlt := by
  obtain ⟨rest, hrest⟩ := cut.exists_pieces_eq
  have hpos : 0 < cut.pieces.length := by
    rw [hrest]
    exact Nat.succ_pos _
  have hget : cut.pieces[0] = cut.first := by simp only [hrest, List.getElem_cons_zero]
  rw [recvs, dif_pos hpos]
  exact hget ▸ ⟨_, _, rfl⟩

end Cut

/-- A run gets to the response: everything before it succeeds. -/
def GetsResponse (r : Results) : Prop :=
  FillsRecord r ∧ CollectsRecord r ∧ EncryptsRecord r ∧ r.initNetconf = 0 ∧ 0 ≤ r.socket ∧
    r.hostAddr ≠ none ∧ 0 ≤ r.connect ∧ SendsAll r

/-- What a run shows when `recv` gives the given results. -/
def outcome (r : Results) (recvs : ℕ → RecvResult) : List (String × List Arg) :=
  texts (optionSubmitSystemData { r with recvs := recvs }).events

/-- For all results of `recv`, some events and then the response. -/
def EndsInResponse (f : (ℕ → RecvResult) → List (Event Call)) : Prop :=
  ∃ before buf, ∀ recvs, f recvs = before ++ submitResponse recvs buf

/-- Some events more at the front. -/
lemma EndsInResponse.append {f : (ℕ → RecvResult) → List (Event Call)} (h : EndsInResponse f)
    (events : List (Event Call)) : EndsInResponse fun recvs => events ++ f recvs := by
  obtain ⟨before, buf, hf⟩ := h
  exact ⟨events ++ before, buf, fun recvs => by simp only [hf, List.append_assoc]⟩

/-- The stages from the connection on. -/
lemma endsInResponse_submitConnect {r : Results} (h : GetsResponse r) (buf : Frame) :
    EndsInResponse fun recvs => submitConnect { r with recvs := recvs } buf := by
  obtain ⟨-, -, -, hnetconf, hsocket, hhost, hconnect, hrequest, hkey, hdata⟩ := h
  have hbase : EndsInResponse fun recvs => submitResponse recvs buf := ⟨[], buf, fun _ => rfl⟩
  simp only [submitConnect, submitSend, if_neg (not_not.mpr hnetconf), if_neg (not_lt.mpr hsocket),
    if_neg hhost, if_neg (not_lt.mpr hconnect), if_neg (not_not.mpr hrequest),
    if_neg (not_not.mpr hkey), if_neg (not_not.mpr hdata)]
  exact ((((((hbase.append _).append _).append _).append _).append _).append _).append _

/-- The stages from the hashes on. -/
lemma endsInResponse_submitHash {r : Results} (h : GetsResponse r) (buf : Frame) (pd : PostData) :
    EndsInResponse fun recvs => (submitHash { r with recvs := recvs } buf pd).events := by
  obtain ⟨hrand, hkey, hobject, himport, hencrypt⟩ := h.2.2.1
  have hencrypted (buf : Frame) (pdh : PostDataHashed) :
      EndsInResponse fun recvs => submitEncrypt { r with recvs := recvs } buf pdh := by
    simp only [submitEncrypt, if_neg (not_not.mpr hrand), if_neg (not_not.mpr hkey),
      if_neg (not_not.mpr hobject), if_neg (not_not.mpr himport), if_neg (not_not.mpr hencrypt)]
    have hconnect := endsInResponse_submitConnect h (buf.store 0x600 r.encKey.toList)
    exact ((((hconnect.append _).append _).append _).append _).append _
  exact (hencrypted (hashPostData r buf (hashOtp r buf pd).1).2.1
    (hashPostData r buf (hashOtp r buf pd).1).1).append
    ((hashOtp r buf pd).2 ++ (hashPostData r buf (hashOtp r buf pd).1).2.2)

/-- **A run that gets to the response.** What it does before does not depend on the response. -/
theorem endsInResponse_optionSubmitSystemData {r : Results} (h : GetsResponse r) :
    EndsInResponse fun recvs => (optionSubmitSystemData { r with recvs := recvs }).events := by
  obtain ⟨hcert, hversion, hmlc⟩ := h.2.1
  obtain ⟨mlc, hmlc⟩ := Option.ne_none_iff_exists'.mp hmlc
  have hfill (recvs : ℕ → RecvResult) (buf : Frame) :
      fillAccesses { r with recvs := recvs } buf = fillAccesses r buf := rfl
  have hcollect (buf : Frame) :
      EndsInResponse fun recvs => (submitCollect { r with recvs := recvs } buf).events := by
    simp only [submitCollect, if_neg (not_not.mpr hcert), if_neg (not_not.mpr hversion), hmlc,
      Run.after, hfill]
    exact (endsInResponse_submitHash h _ _).append _
  have hrun (recvs : ℕ → RecvResult) :
      (optionSubmitSystemData { r with recvs := recvs }).events =
        beforeRecord r ++ (submitCollect { r with recvs := recvs } (readBuffer r)).events := by
    have hfills : FillsRecord { r with recvs := recvs } := h.1
    rw [optionSubmitSystemData_eq hfills]
    rfl
  simp only [hrun]
  exact (hcollect (readBuffer r)).append (beforeRecord r)

/-- The texts of a run that gets to the response: those before it, which do not depend on it,
and those of the first piece. -/
lemma exists_outcome_eq {r : Results} (h : GetsResponse r) :
    ∃ before, ∀ (w : Response) (cut : Cut w), outcome r cut.recvs = before ++
      if 64 ≤ cut.first.length ∧ w.line.cr + 1 < cut.first.length then
        responseTexts (w.line.hundreds = 0x32) w.line.status
          (bodyShown w.line w.tail cut.first.length)
      else invalidTexts := by
  obtain ⟨before, buf, hrun⟩ := endsInResponse_optionSubmitSystemData h
  refine ⟨texts before, fun w cut => ?_⟩
  obtain ⟨hne, hlt, hrecv⟩ := cut.recvs_zero
  refine (congrArg texts (hrun cut.recvs)).trans ?_
  rw [texts_append, texts_submitResponse buf hrecv cut.first_starts]

/-- The whole response goes past its status line. -/
lemma Response.cr_lt (w : Response) : w.line.cr + 1 < w.bytes.length := by
  simp only [bytes, StatusLine.bytes, StatusLine.cr, httpPrefix, List.length_append,
    List.length_cons, List.length_nil]
  omega

/-- A body starts inside of the response. -/
lemma bodyStart_lt {whole : List UInt8} {start b : ℕ} (h : bodyStart whole start = some b) :
    b < whole.length := by
  obtain ⟨p, rfl, -, hends, -⟩ := findBody_eq_some_iff.mp h
  exact hends.2

/-- The texts of a response show its body. -/
lemma responseTexts_inj {ok : Bool} {status : List UInt8} {body body' : Option (List UInt8)} :
    responseTexts ok status body = responseTexts ok status body' ↔ body = body' := by
  rw [responseTexts, responseTexts, List.append_left_inj, List.cons_inj_right]
  constructor
  · intro h
    cases body
    all_goals cases body'
    all_goals simp_all
  · exact fun h => h ▸ rfl

/-- The body shown of the first bytes is the one of the whole response iff they go into the body
and have all of it up to its first NUL. -/
lemma bodyShown_eq_iff (w : Response) (n : ℕ) :
    bodyShown w.line w.tail n = bodyShown w.line w.tail w.bytes.length ↔
      ∀ b, bodyStart w.bytes (w.line.cr + 1) = some b →
        b < n ∧ b + ((w.bytes.drop b).takeWhile (· ≠ 0)).length ≤ n := by
  rw [bodyShown, bodyShown, ← Response.bytes]
  cases hstart : bodyStart w.bytes (w.line.cr + 1) with
  | none => simp
  | some b =>
    have hlt := bodyStart_lt hstart
    have hle : ((w.bytes.drop b).takeWhile (· ≠ 0)).length ≤ w.bytes.length - b := by
      rw [← List.length_drop]
      exact (List.takeWhile_prefix _).length_le
    by_cases hb : b < n
    · simp only [Option.filter_some, hb, hlt, decide_true, if_true, Option.map_some,
        Option.some_inj, List.take_of_length_le hle, List.take_eq_self_iff, forall_eq', true_and]
      omega
    · simp [Option.filter_some, hb, hlt]

/-- The response `HTTP/1.1 200 OK` with a header of 64 bytes and the body `done`, which is ended
by two NULs. -/
def okResponse : Response where
  line := ⟨0x31, 0x32, 0x30, 0x30, [0x4F, 0x4B], Or.inr rfl, by decide +kernel, by decide⟩
  tail := List.replicate 43 0x41 ++ headerEnd ++ [0x64, 0x6F, 0x6E, 0x65, 0, 0]
  le_length := by decide
  length_lt := by decide

/-- The response, cut behind its body. -/
def cutBehindBody : Cut okResponse where
  pieces := okResponse.bytes.toChunks 68
  flatten_eq := by decide
  ne_nil := by decide

/-- The response, cut between its header and its body. -/
def cutBeforeBody : Cut okResponse where
  pieces := okResponse.bytes.toChunks 64
  flatten_eq := by decide
  ne_nil := by decide

/-- With the results of `sent` a run gets to the response. -/
lemma getsResponse_sent : GetsResponse sent :=
  ⟨⟨by decide, rfl, le_refl 0, fun _ _ => le_refl 0⟩, ⟨rfl, rfl, by decide⟩,
    ⟨rfl, rfl, rfl, rfl, rfl⟩, rfl, by decide, by decide, le_refl 0, ⟨rfl, rfl, rfl⟩⟩

end SubmitSystemData

end RecoveryMenu

import Mathlib.Data.List.Find
import RecoveryMenu.Options.SubmitSystemData.HttpResponse

set_option relaxedAutoImplicit false
set_option autoImplicit false

/-!
# Where the body starts (`ios_mcp/source/options/SubmitSystemData.c`)

`parse_http_response` looks for the empty line that ends the header from behind the carriage
return of the status line on, which it has overwritten by then. In a response without header
fields this carriage return is the first byte of `"\r\n\r\n"`, and its body is not found.

## Main definitions

* `RecoveryMenu.SubmitSystemData.EndsStatusLine`: the carriage return that ends the status line.
* `RecoveryMenu.SubmitSystemData.FramesStatus`: what stands around the status of a response.
* `RecoveryMenu.SubmitSystemData.BodyLocated`: the body starts behind the first empty line.

## Main results

* `RecoveryMenu.SubmitSystemData.exists_of_parseHttpResponse_res`: a response that is accepted.
* `RecoveryMenu.SubmitSystemData.bodyLocated_iff`: when the body found is that of the response.

## References

* `ios_mcp/source/options/SubmitSystemData.c`, lines 95-153.
-/

namespace RecoveryMenu

namespace SubmitSystemData

open ByteMemory

/-- The first carriage return from index 13 on. -/
structure EndsStatusLine (buf : Frame) (len cr : ℕ) : Prop where
  le : 13 ≤ cr
  lt : cr < len
  eq : buf cr = 0x0D
  first : ∀ p, 13 ≤ p → p < cr → buf p ≠ 0x0D

/-- `"\r\n\r\n"` stands at index `p`, with a byte of the response behind it. -/
def HeaderEndsAt (buf : Frame) (len p : ℕ) : Prop := buf.load p 4 = headerEnd ∧ p + 4 < len

/-- There is a body iff the header ends at or behind the end of the status line, and it starts
behind the first such end. -/
structure BodyLocated (buf : Frame) (len cr : ℕ) (body : Option ℕ) : Prop where
  isSome : body.isSome ↔ ∃ p, cr ≤ p ∧ HeaderEndsAt buf len p
  first : ∀ b ∈ body, ∃ p, b = p + 4 ∧ cr ≤ p ∧ HeaderEndsAt buf len p ∧
    ∀ q, cr ≤ q → q < p → ¬ HeaderEndsAt buf len q

/-- The first `"\r\n\r\n"`, where a byte of the response follows it. -/
lemma findBody_eq_some_iff {buf : Frame} {start len b : ℕ} :
    findBody buf start len = some b ↔
      ∃ p, b = p + 4 ∧ start ≤ p ∧ HeaderEndsAt buf len p ∧
        ∀ q, start ≤ q → q < p → ¬ HeaderEndsAt buf len q := by
  have hfind (p : ℕ) (hp : p + 4 < len) : findHeaderEnd buf start len = some p ↔
      start ≤ p ∧ buf.load p 4 = headerEnd ∧
        ∀ q, start ≤ q → q < p → buf.load q 4 ≠ headerEnd := by
    rw [findHeaderEnd, List.find?_range'_eq_some, List.mem_range'_1]
    simp only [decide_eq_true_eq, Bool.not_eq_true', decide_eq_false_iff_not]
    constructor
    · rintro ⟨hend, ⟨hle, -⟩, hfirst⟩
      exact ⟨hle, hend, hfirst⟩
    · rintro ⟨hle, hend, hfirst⟩
      exact ⟨hend, ⟨hle, by omega⟩, hfirst⟩
  constructor
  · intro h
    rw [findBody] at h
    split at h
    · next p hp =>
      split_ifs at h with hlt
      obtain rfl := Option.some.inj h
      obtain ⟨hle, hend, hfirst⟩ := (hfind p hlt).mp hp
      exact ⟨p, rfl, hle, ⟨hend, hlt⟩, fun q hq hqp hends => hfirst q hq hqp hends.1⟩
    · cases h
  · rintro ⟨p, rfl, hle, ⟨hend, hlt⟩, hfirst⟩
    have hp := (hfind p hlt).mpr
      ⟨hle, hend, fun q hq hqp hqend => hfirst q hq hqp ⟨hqend, by omega⟩⟩
    rw [findBody, hp]
    exact if_pos hlt

/-- The body found from `start` on is located there. -/
lemma bodyLocated_findBody (buf : Frame) (len start : ℕ) :
    BodyLocated buf len start (findBody buf start len) := by
  constructor
  · constructor
    · intro h
      obtain ⟨b, hb⟩ := Option.isSome_iff_exists.mp h
      obtain ⟨p, -, hle, hends, -⟩ := findBody_eq_some_iff.mp hb
      exact ⟨p, hle, hends⟩
    · intro h
      classical
      obtain ⟨hle, hends⟩ := Nat.find_spec h
      refine Option.isSome_iff_exists.mpr ⟨Nat.find h + 4, findBody_eq_some_iff.mpr
        ⟨Nat.find h, rfl, hle, hends, fun q hq hlt hqends => ?_⟩⟩
      exact Nat.find_min h hlt ⟨hq, hqends⟩
  · exact fun b hb => findBody_eq_some_iff.mp hb

/-- A header end behind the byte that was overwritten is one of the response. -/
lemma headerEndsAt_store {buf : Frame} {len cr p : ℕ} (h : cr < p) :
    HeaderEndsAt (buf.store cr [0]) len p ↔ HeaderEndsAt buf len p := by
  rw [HeaderEndsAt, HeaderEndsAt, Frame.load_store_of_ge buf [0] (Nat.succ_le_of_lt h)]

/-- The search finds the carriage return that ends the status line. -/
lemma findCr_eq_some_iff {buf : Frame} {len cr : ℕ} :
    findCr buf len = some cr ↔ EndsStatusLine buf len cr := by
  rw [findCr, List.find?_range'_eq_some, List.mem_range'_1]
  simp only [decide_eq_true_eq, Bool.not_eq_true', decide_eq_false_iff_not]
  constructor
  · rintro ⟨heq, ⟨hle, hlt⟩, hfirst⟩
    exact ⟨hle, by omega, heq, hfirst⟩
  · intro h
    have hle := h.le
    have hlt := h.lt
    exact ⟨h.eq, ⟨hle, by omega⟩, h.first⟩

/-- A response has one carriage return that ends its status line. -/
lemma EndsStatusLine.unique {buf : Frame} {len cr cr' : ℕ} (h : EndsStatusLine buf len cr)
    (h' : EndsStatusLine buf len cr') : cr = cr' :=
  Option.some.inj ((findCr_eq_some_iff.mpr h).symm.trans (findCr_eq_some_iff.mpr h'))

/-! ## What is accepted -/

/-- What stands around the three characters of the status. -/
structure FramesStatus (buf : Frame) : Prop where
  starts : buf.load 0 7 = httpPrefix
  version : buf 7 = 0x30 ∨ buf 7 = 0x31
  before : buf 8 = 0x20
  behind : buf 12 = 0x20

/-- No character fails the test of a digit. -/
lemma not_notDigit (c : UInt8) : ¬ notDigit c := by
  rintro ⟨hlt, hgt⟩
  exact absurd (UInt8.lt_trans hgt hlt) (by decide)

/-- Without what stands around the status, nothing is stored. -/
lemma exists_parseHttpResponse_eq {buf : Frame} {len : ℕ}
    (h : ¬ (64 ≤ len ∧ FramesStatus buf)) :
    ∃ res < 0, parseHttpResponse buf len = ⟨res, buf, none, none⟩ := by
  unfold parseHttpResponse
  split_ifs with hlen hprefix hversion hspaces
  · exact ⟨-1, by omega, rfl⟩
  · exact ⟨-1, by omega, rfl⟩
  · exact ⟨-1, by omega, rfl⟩
  · exact ⟨-2, by omega, rfl⟩
  · refine absurd ⟨not_lt.mp hlen, not_not.mp hprefix, ?_, ?_, ?_⟩ h
    · by_contra hboth
      exact hversion (not_or.mp hboth)
    · by_contra hne
      exact hspaces (.inl hne)
    · by_contra hne
      exact hspaces (.inr (.inl hne))

/-- With it, the carriage return is searched. -/
lemma parseHttpResponse_eq {buf : Frame} {len : ℕ} (hlen : 64 ≤ len) (h : FramesStatus buf) :
    parseHttpResponse buf len =
      match findCr buf len with
      | none => ⟨-3, buf, none, none⟩
      | some p =>
        if p + 1 = len then ⟨-3, buf.store p [0], some 9, none⟩
        else ⟨0, buf.store p [0], some 9, findBody (buf.store p [0]) (p + 1) len⟩ := by
  have hversion : ¬ (buf 7 ≠ 0x30 ∧ buf 7 ≠ 0x31) := fun hne => h.version.elim hne.1 hne.2
  have hspaces : ¬ (buf 8 ≠ 0x20 ∨ buf 12 ≠ 0x20 ∨ notDigit (buf 9) ∨ notDigit (buf 10) ∨
      notDigit (buf 11)) := by
    simp [h.before, h.behind, not_notDigit]
  rw [parseHttpResponse, if_neg (not_lt.mpr hlen), if_neg (not_not.mpr h.starts),
    if_neg hversion]
  exact if_neg hspaces

/-- The response that `parse_http_response` accepts. -/
lemma exists_of_parseHttpResponse_res {buf : Frame} {len : ℕ}
    (h : (parseHttpResponse buf len).res = 0) :
    64 ≤ len ∧ FramesStatus buf ∧ ∃ cr, EndsStatusLine buf len cr ∧ cr + 1 < len ∧
      parseHttpResponse buf len =
        ⟨0, buf.store cr [0], some 9, findBody (buf.store cr [0]) (cr + 1) len⟩ := by
  by_cases hframes : 64 ≤ len ∧ FramesStatus buf
  · refine ⟨hframes.1, hframes.2, ?_⟩
    rw [parseHttpResponse_eq hframes.1 hframes.2] at h ⊢
    cases hcr : findCr buf len with
    | none =>
      rw [hcr] at h
      cases h
    | some cr =>
      rw [hcr] at h
      dsimp only at h ⊢
      have hends := findCr_eq_some_iff.mp hcr
      have hlt := hends.lt
      by_cases hend : cr + 1 = len
      · rw [if_pos hend] at h
        cases h
      · exact ⟨cr, hends, by omega, if_neg hend⟩
  · obtain ⟨res, hneg, heq⟩ := exists_parseHttpResponse_eq hframes
    rw [heq] at h
    exact absurd h hneg.ne

/-! ## What is found -/

/-- The body that is found in a valid response. -/
lemma parseHttpResponse_body {buf : Frame} {len cr : ℕ}
    (hres : (parseHttpResponse buf len).res = 0) (hcr : EndsStatusLine buf len cr) :
    (parseHttpResponse buf len).body = findBody (buf.store cr [0]) (cr + 1) len := by
  obtain ⟨-, -, cr', hends, -, heq⟩ := exists_of_parseHttpResponse_res hres
  obtain rfl := hends.unique hcr
  rw [heq]

/-- **Where the body is found.** For every buffer for which `parse_http_response` returns `0`:
there is a body exactly if `"\r\n\r\n"` starts at or behind the carriage return that ends the
status line with a byte behind it, and it starts behind the first such place, iff that place is
not the carriage return itself.

**Proof sketch.** The search from behind the carriage return finds the first place there
(`bodyLocated_findBody`), so it only misses the one at the carriage return. -/
theorem bodyLocated_iff {buf : Frame} {len cr : ℕ} (hres : (parseHttpResponse buf len).res = 0)
    (hcr : EndsStatusLine buf len cr) :
    BodyLocated buf len cr (parseHttpResponse buf len).body ↔ ¬ HeaderEndsAt buf len cr := by
  have hfound := bodyLocated_findBody (buf.store cr [0]) len (cr + 1)
  rw [← parseHttpResponse_body hres hcr] at hfound
  constructor
  · intro hlocated hat
    -- the first place is the carriage return, and the body starts behind a later one
    obtain ⟨b, hb⟩ := Option.isSome_iff_exists.mp (hlocated.isSome.mpr ⟨cr, le_refl cr, hat⟩)
    obtain ⟨p, rfl, hle, -, hfirst⟩ := hlocated.first b hb
    obtain ⟨q, hq, hlt, -⟩ := hfound.first _ hb
    exact hfirst cr (le_refl cr) (by omega) hat
  · intro hnot
    have hplace (p : ℕ) : cr + 1 ≤ p ∧ HeaderEndsAt (buf.store cr [0]) len p ↔
        cr ≤ p ∧ HeaderEndsAt buf len p := by
      constructor
      · rintro ⟨hle, hends⟩
        exact ⟨by omega, (headerEndsAt_store hle).mp hends⟩
      · rintro ⟨hle, hends⟩
        have hne : cr ≠ p := fun heq => hnot (heq ▸ hends)
        have hlt : cr < p := lt_of_le_of_ne hle hne
        exact ⟨hlt, (headerEndsAt_store hlt).mpr hends⟩
    constructor
    · rw [hfound.isSome]
      exact exists_congr hplace
    · intro b hb
      obtain ⟨p, rfl, hle, hends, hfirst⟩ := hfound.first b hb
      obtain ⟨hle', hends'⟩ := (hplace p).mp ⟨hle, hends⟩
      refine ⟨p, rfl, hle', hends', fun q hq hqp hqends => ?_⟩
      obtain ⟨hlt, hqstore⟩ := (hplace q).mpr ⟨hq, hqends⟩
      exact hfirst q hlt hqp hqstore

/-- A response with the status line `HTTP/1.1 200 OK` and a body of fifty `x`, and the given
bytes between them. -/
def okWithBody (header : List UInt8) : Frame := fun i =>
  ([0x48, 0x54, 0x54, 0x50, 0x2F, 0x31, 0x2E, 0x31, 0x20, 0x32, 0x30, 0x30, 0x20, 0x4F, 0x4B] ++
    header ++ List.replicate 50 0x78).getD i 0

/-- The status line of such a response ends with the first carriage return behind it. -/
lemma endsStatusLine_okWithBody (header : List UInt8) {len : ℕ} (hlen : 15 < len) :
    EndsStatusLine (okWithBody (0x0D :: header)) len 15 where
  le := by decide
  lt := hlen
  eq := rfl
  first p hle hlt := by
    have hp : p = 13 ∨ p = 14 := by omega
    rcases hp with rfl | rfl
    · show (0x4F : UInt8) ≠ 0x0D
      decide
    · show (0x4B : UInt8) ≠ 0x0D
      decide

/-- A response with the header field `A: b`. -/
theorem bodyLocated_okWithBody :
    BodyLocated (okWithBody [0x0D, 0x0A, 0x41, 0x3A, 0x20, 0x62, 0x0D, 0x0A, 0x0D, 0x0A]) 75 15
      (parseHttpResponse
        (okWithBody [0x0D, 0x0A, 0x41, 0x3A, 0x20, 0x62, 0x0D, 0x0A, 0x0D, 0x0A]) 75).body :=
  (bodyLocated_iff (by decide +kernel) (endsStatusLine_okWithBody _ (by decide))).mpr
    fun h => absurd h.1 (by decide)

/-- A response without header fields: the body is not found. -/
theorem not_bodyLocated :
    ¬ ∀ (buf : Frame) (len cr : ℕ), 64 ≤ len → (parseHttpResponse buf len).res = 0 →
      EndsStatusLine buf len cr → BodyLocated buf len cr (parseHttpResponse buf len).body := by
  intro h
  have hlocated := h (okWithBody [0x0D, 0x0A, 0x0D, 0x0A]) 69 15 (by decide) (by decide +kernel)
    (endsStatusLine_okWithBody _ (by decide))
  have hsome := hlocated.isSome.mpr ⟨15, le_refl 15, by decide, by decide⟩
  exact absurd hsome (by decide +kernel)

end SubmitSystemData

end RecoveryMenu

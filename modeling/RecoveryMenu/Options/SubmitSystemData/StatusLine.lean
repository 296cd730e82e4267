import RecoveryMenu.Options.SubmitSystemData.Response

set_option relaxedAutoImplicit false
set_option autoImplicit false

/-!
# Which responses are valid (`ios_mcp/source/options/SubmitSystemData.c`)

`parse_http_response` is to accept a response that starts with `HTTP/1.0` or `HTTP/1.1`, a space,
three decimal digits and a space, and that has a carriage return behind them. Its test of a digit is
that of a character that is both less than `'0'` and greater than `'9'`, which no character fails.

## Main definitions

* `RecoveryMenu.SubmitSystemData.ValidStatusLine`: the grammar of the status line.
* `RecoveryMenu.SubmitSystemData.ChecksStatusLine`: exactly the valid responses are accepted, and a
  success is reported only for those whose status starts with a `2`.

## Main results

* `RecoveryMenu.SubmitSystemData.parseHttpResponse_res_eq_zero_iff`: what is accepted.
* `RecoveryMenu.SubmitSystemData.exists_response_of_succeeds`: a run that reports success has got a
  response.
* `RecoveryMenu.SubmitSystemData.checksStatusLine_iff`: the responses for which the check is right.

## References

* `ios_mcp/source/options/SubmitSystemData.c`, lines 84-127 and 448-503.
-/

namespace RecoveryMenu

namespace SubmitSystemData

open ByteMemory Menu

/-! ## Statements -/

/-- A carriage return stands between the status and the last byte. -/
def HasCr (buf : Frame) (len : ℕ) : Prop := ∃ p, 13 ≤ p ∧ p + 2 ≤ len ∧ buf p = 0x0D

/-- The three characters of the status are decimal digits. -/
def ThreeDigits (buf : Frame) : Prop := ∀ i, 9 ≤ i → i < 12 → 0x30 ≤ buf i ∧ buf i ≤ 0x39

/-- The grammar of the status line. -/
def ValidStatusLine (buf : Frame) (len : ℕ) : Prop :=
  FramesStatus buf ∧ HasCr buf len ∧ ThreeDigits buf

/-- `"System data submitted successfully."`. -/
def successText : String × List Arg := ("System data submitted successfully.", [])

/-- A run reports success. -/
def Succeeds (events : List (Event Call)) : Prop := successText ∈ texts events

/-- A response is accepted exactly if its status line is valid, and a run that receives it reports
success only if it is and the status starts with a `2`. -/
structure ChecksStatusLine (buf : Frame) (len : ℕ) : Prop where
  accepts : (parseHttpResponse buf len).res = 0 ↔ ValidStatusLine buf len
  success : ∀ (r : Results) (hne : buf.load 0 len ≠ [])
    (hlt : (buf.load 0 len).length < dataBufferSize), r.recvs 0 = .data (buf.load 0 len) hne hlt →
      Succeeds (optionSubmitSystemData r).events → ValidStatusLine buf len ∧ buf 9 = 0x32

/-! ## What is accepted -/

/-- A carriage return between the status and the last byte is behind the first one. -/
lemma hasCr_iff {buf : Frame} {len : ℕ} :
    HasCr buf len ↔ ∃ cr, EndsStatusLine buf len cr ∧ cr + 1 < len := by
  constructor
  · intro h
    classical
    obtain ⟨hle, hlt, heq⟩ := Nat.find_spec h
    refine ⟨Nat.find h, ⟨hle, by omega, heq, fun p hp hpcr hpeq => ?_⟩, by omega⟩
    exact Nat.find_min h hpcr ⟨hp, by omega, hpeq⟩
  · rintro ⟨cr, hends, hlt⟩
    exact ⟨cr, hends.le, by omega, hends.eq⟩

/-- **What is accepted.** A response of at least 64 bytes is accepted exactly if everything but the
digits is as it should be. -/
theorem parseHttpResponse_res_eq_zero_iff {buf : Frame} {len : ℕ} (hlen : 64 ≤ len) :
    (parseHttpResponse buf len).res = 0 ↔ FramesStatus buf ∧ HasCr buf len := by
  rw [hasCr_iff]
  constructor
  · intro h
    obtain ⟨-, hframes, cr, hends, hlt, -⟩ := exists_of_parseHttpResponse_res h
    exact ⟨hframes, cr, hends, hlt⟩
  · rintro ⟨hframes, cr, hends, hlt⟩
    rw [parseHttpResponse_eq hlen hframes, findCr_eq_some_iff.mpr hends]
    dsimp only
    rw [if_neg hlt.ne]

/-! ## Runs that report success -/

/-- Nothing is reported without an event. -/
@[simp] lemma not_succeeds_nil : ¬ Succeeds [] := List.not_mem_nil

/-- Success in an event or in the rest. -/
@[simp] lemma succeeds_cons {e : Event Call} {events : List (Event Call)} :
    Succeeds (e :: events) ↔ textOf e = some successText ∨ Succeeds events := by
  simp [Succeeds]

/-- Success in one part of a run or in the next. -/
@[simp] lemma succeeds_append {a b : List (Event Call)} :
    Succeeds (a ++ b) ↔ Succeeds a ∨ Succeeds b := by
  simp [Succeeds]

/-- The end of a run reports what it is told to. -/
@[simp] lemma succeeds_submitFinish {ok : Bool} : Succeeds (submitFinish ok) ↔ ok = true := by
  cases ok <;> simp [submitFinish, successText]

/-- A run that sends its data and reports success has got a response. -/
lemma succeeds_of_submitSend {r : Results} {buf : Frame} (h : Succeeds (submitSend r buf)) :
    Succeeds (submitResponse r.recvs buf) := by
  unfold submitSend at h
  dsimp only at h
  split_ifs at h
  · simp [successText] at h
  · simp [successText] at h
  · simp [successText] at h
  · simpa [successText] using h

/-- A run that connects to the server and reports success has got a response. -/
lemma succeeds_of_submitConnect {r : Results} {buf : Frame} (h : Succeeds (submitConnect r buf)) :
    Succeeds (submitResponse r.recvs buf) := by
  unfold submitConnect at h
  split_ifs at h
  · simp [successText] at h
  · simp [successText] at h
  · simp [successText] at h
  · simp [successText] at h
  · exact succeeds_of_submitSend (by simpa [successText] using h)

/-- A run that encrypts its record and reports success has got a response. -/
lemma exists_response_of_submitEncrypt {r : Results} {buf : Frame} {pdh : PostDataHashed}
    (h : Succeeds (submitEncrypt r buf pdh)) :
    ∃ frame, Succeeds (submitResponse r.recvs frame) := by
  unfold submitEncrypt at h
  dsimp only at h
  split_ifs at h
  · simp [successText] at h
  · simp [successText] at h
  · simp [successText] at h
  · simp [successText] at h
  · simp [successText] at h
  · exact ⟨_, succeeds_of_submitConnect (by simpa [successText] using h)⟩

/-- A run that hashes its record and reports success has got a response. -/
lemma exists_response_of_submitHash {r : Results} {buf : Frame} {pd : PostData}
    (h : Succeeds (submitHash r buf pd).events) :
    ∃ frame, Succeeds (submitResponse r.recvs frame) := by
  have hotp : ¬ Succeeds (hashOtp r buf pd).2 := by
    unfold hashOtp
    split_ifs <;> simp
  have hpost : ¬ Succeeds (hashPostData r buf (hashOtp r buf pd).1).2.2 := by
    unfold hashPostData
    dsimp only
    split_ifs <;> simp
  unfold submitHash at h
  dsimp only at h
  rw [succeeds_append, succeeds_append] at h
  exact exists_response_of_submitEncrypt (h.resolve_left (not_or.mpr ⟨hotp, hpost⟩))

/-- A run that collects its record and reports success has got a response. -/
lemma exists_response_of_submitCollect {r : Results} {buf : Frame}
    (h : Succeeds (submitCollect r buf).events) :
    ∃ frame, Succeeds (submitResponse r.recvs frame) := by
  have hfill (buf : Frame) : ¬ Succeeds (fillAccesses r buf) := by
    unfold fillAccesses
    cases RegionInfo.getRegionInfo r.regionHandle r.regionGet r.settings <;> simp [fieldCopies]
  unfold submitCollect at h
  dsimp only at h
  split_ifs at h
  · simp [stop, successText] at h
  · simp [stop, successText] at h
  · cases hmlc : findMlc r.blkDrv r.getCID with
    | none =>
      rw [hmlc] at h
      simp [stop, successText, hfill] at h
    | some mlc =>
      rw [hmlc] at h
      simp only [Run.after, succeeds_append, hfill] at h
      exact exists_response_of_submitHash (by simpa using h)

/-- What is shown before the choice is not a success. -/
lemma not_succeeds_offered :
    ¬ Succeeds [.drawTopBar "Submit System Data", .print desc [],
      .drawMenu "Submit System Data" ["Cancel", "Submit Data"]] := by
  have hdesc : desc ≠ "System data submitted successfully." := by decide +kernel
  simp [successText, hdesc]

/-- **A reported success.** A run that reports success has received a response and reports it behind
that.

**Proof sketch.** Stage by stage: the other texts are different ones. -/
theorem exists_response_of_succeeds {r : Results}
    (h : Succeeds (optionSubmitSystemData r).events) :
    ∃ frame, Succeeds (submitResponse r.recvs frame) := by
  have hread : ¬ Succeeds (DumpOtpAndSeeprom.readOtpSeeprom r.readOTP r.otp r.bspRead r.heap :
      DumpOtpAndSeeprom.ReadOutcome Call).events := by
    unfold DumpOtpAndSeeprom.readOtpSeeprom
    split_ifs
    · simp
    · dsimp only
      split_ifs <;> simp
  rw [optionSubmitSystemData] at h
  dsimp only at h
  by_cases hselected : r.selected = 0
  · rw [if_pos hselected] at h
    exact absurd h not_succeeds_offered
  rw [if_neg hselected] at h
  by_cases halloc : r.heapAlloc = true
  · rw [if_neg (not_not.mpr halloc)] at h
    by_cases hres : (DumpOtpAndSeeprom.readOtpSeeprom r.readOTP r.otp r.bspRead r.heap :
        DumpOtpAndSeeprom.ReadOutcome Call).res = 0
    · rw [if_neg (not_not.mpr hres)] at h
      simp only [Run.after, succeeds_append, not_succeeds_offered] at h
      split_ifs at h
      all_goals exact exists_response_of_submitCollect (by simpa using h)
    · rw [if_pos hres] at h
      simp only [stop, succeeds_append, not_succeeds_offered, hread] at h
      split_ifs at h
      all_goals simp at h
  · rw [if_pos halloc] at h
    simp only [stop, succeeds_append, not_succeeds_offered] at h
    simp at h

/-- Success is shown for a response that was accepted with a status that starts with a `2`. -/
lemma res_eq_zero_of_submitShow {parsed : Parsed} (h : Succeeds (submitShow parsed)) :
    parsed.res = 0 ∧ ∃ resp ∈ parsed.resp, parsed.buf resp = 0x32 := by
  unfold submitShow at h
  cases hresp : parsed.resp with
  | none =>
    rw [hresp] at h
    simp [successText] at h
  | some resp =>
    rw [hresp] at h
    dsimp only at h
    by_cases hres : parsed.res = 0
    · rw [if_pos hres] at h
      refine ⟨hres, resp, rfl, ?_⟩
      cases hbody : parsed.body with
      | none =>
        rw [hbody] at h
        simpa [successText] using h
      | some body =>
        rw [hbody] at h
        simpa [successText] using h
    · rw [if_neg hres] at h
      simp [successText] at h

/-- Success is reported for what was received if it is accepted with a status that starts with a
`2`. -/
lemma res_eq_zero_of_submitResponse {recvs : ℕ → RecvResult} {frame : Frame} {bytes : List UInt8}
    {hne : bytes ≠ []} {hlt : bytes.length < dataBufferSize} (hrecv : recvs 0 = .data bytes hne hlt)
    (h : Succeeds (submitResponse recvs frame)) :
    (parseHttpResponse (received frame bytes) bytes.length).res = 0 ∧
      received frame bytes 9 = 0x32 := by
  rw [submitResponse, hrecv] at h
  dsimp only at h
  rw [succeeds_append] at h
  obtain ⟨hres, resp, hresp, htwo⟩ := res_eq_zero_of_submitShow (h.resolve_left (by simp))
  refine ⟨hres, ?_⟩
  obtain ⟨-, -, cr, hends, -, heq⟩ := exists_of_parseHttpResponse_res hres
  have hle := hends.le
  rw [heq] at hresp htwo
  obtain rfl := Option.some.inj hresp
  dsimp only at htwo
  rwa [Frame.store_singleton_of_ne _ _ (by omega)] at htwo

/-! ## Valid responses -/

/-- The bytes that are received are those of the response. -/
lemma received_load (frame buf : Frame) {len i : ℕ} (hlt : (buf.load 0 len).length < dataBufferSize)
    (hi : i < len) : received frame (buf.load 0 len) i = buf i := by
  have hlength : (buf.load 0 len).length = len := Frame.length_load buf 0 len
  rw [(holds_received frame (List.prefix_refl _) hlt).1 i (by rwa [hlength]), frameOf,
    List.getD_eq_getElem _ _ (by rwa [hlength])]
  simp [Frame.load]

/-- What is accepted only depends on the bytes of the response. -/
lemma framesStatus_congr {f g : Frame} {len : ℕ} (hlen : 64 ≤ len) (h : ∀ i < len, f i = g i)
    (hframes : FramesStatus f) (hcr : HasCr f len) : FramesStatus g ∧ HasCr g len := by
  have hstarts : f.load 0 7 = g.load 0 7 := Frame.load_congr fun i _ hi => h i (by omega)
  obtain ⟨p, hle, hlt, heq⟩ := hcr
  refine ⟨⟨?_, ?_, ?_, ?_⟩, p, hle, hlt, ?_⟩
  · rw [← hstarts]
    exact hframes.starts
  · rw [← h 7 (by omega)]
    exact hframes.version
  · rw [← h 8 (by omega)]
    exact hframes.before
  · rw [← h 12 (by omega)]
    exact hframes.behind
  · rw [← h p (by omega)]
    exact heq

/-- **Valid responses.** A response of at least 64 bytes is checked as it should be exactly if the
three characters of its status are digits, or the rest of its status line is not valid either.

**Proof sketch.** The rest is what is accepted. -/
theorem checksStatusLine_iff {buf : Frame} {len : ℕ} (hlen : 64 ≤ len) :
    ChecksStatusLine buf len ↔ (FramesStatus buf ∧ HasCr buf len → ThreeDigits buf) := by
  constructor
  · intro h hrest
    exact (h.accepts.mp ((parseHttpResponse_res_eq_zero_iff hlen).mpr hrest)).2.2
  · intro h
    refine ⟨?_, fun r hne hlt hrecv hsucceeds => ?_⟩
    · rw [parseHttpResponse_res_eq_zero_iff hlen]
      exact ⟨fun hrest => ⟨hrest.1, hrest.2, h hrest⟩, fun hvalid => ⟨hvalid.1, hvalid.2.1⟩⟩
    · obtain ⟨frame, hresponse⟩ := exists_response_of_succeeds hsucceeds
      obtain ⟨hres, htwo⟩ := res_eq_zero_of_submitResponse hrecv hresponse
      rw [Frame.length_load, parseHttpResponse_res_eq_zero_iff hlen] at hres
      have hrest := framesStatus_congr hlen (fun i hi => received_load frame buf hlt hi)
        hres.1 hres.2
      rw [received_load frame buf hlt (by omega)] at htwo
      exact ⟨⟨hrest.1, hrest.2, h hrest⟩, htwo⟩

/-- The response `HTTP/1.1 200 OK` with a header and a body is checked. -/
theorem checksStatusLine_okWithBody : ChecksStatusLine (okWithBody [0x0D, 0x0A, 0x0D, 0x0A]) 69 :=
  (checksStatusLine_iff (by decide)).mpr fun _ i hle hlt => by
    have hi : i = 9 ∨ i = 10 ∨ i = 11 := by omega
    rcases hi with rfl | rfl | rfl
    all_goals exact ⟨by decide +kernel, by decide +kernel⟩

/-- A response that starts with `HTTP/1.1 2ab OK`. -/
def letters : Frame := frameOf
  ([0x48, 0x54, 0x54, 0x50, 0x2F, 0x31, 0x2E, 0x31, 0x20, 0x32, 0x61, 0x62, 0x20, 0x4F, 0x4B, 0x0D,
    0x0A] ++ List.replicate 50 0x78)

/-- Letters in the status are accepted. -/
theorem not_checksStatusLine :
    ¬ ∀ (buf : Frame) (len : ℕ), 64 ≤ len → ChecksStatusLine buf len := by
  intro h
  have hres : (parseHttpResponse letters 67).res = 0 := by decide +kernel
  have hdigits := ((h letters 67 (by decide)).accepts.mp hres).2.2
  exact absurd (hdigits 10 (by decide) (by decide)).2 (by decide +kernel)

end SubmitSystemData

end RecoveryMenu

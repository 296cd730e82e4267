import RecoveryMenu.Options.SubmitSystemData.Submit

set_option relaxedAutoImplicit false
set_option autoImplicit false

/-!
# The serial number (`ios_mcp/source/options/SubmitSystemData.c`)

The submitted serial number is the code id followed by the serial number, cut off after 15
characters and with the last three masked. For fields that hold their strings with a NUL the
record does not depend on the last three characters of the whole.

## Main definitions

* `RecoveryMenu.SubmitSystemData.HoldsString`: a field holds a string with its NUL.
* `RecoveryMenu.SubmitSystemData.masked`: a string with its last three characters masked.
* `RecoveryMenu.SubmitSystemData.hashInputs`: the bytes that a run hashes.

## Main results

* `RecoveryMenu.SubmitSystemData.serial_confidential`: the masked serial number, and that the
  record does not depend on what it hides.

## References

* `ios_mcp/source/options/SubmitSystemData.c`, lines 240-273.
-/

namespace RecoveryMenu

namespace SubmitSystemData

open ByteMemory DumpOtpAndSeeprom Menu RegionInfo

/-! ## The mask -/

/-- `'*'`. -/
def star : UInt8 := 0x2A

/-- The first 15 characters of a string, the last three of them masked. -/
def masked (cs : List UInt8) : List UInt8 :=
  (cs.take 15).take (min cs.length 15 - 3) ++ [star, star, star]

/-- A character of an array. -/
lemma getElem_charArray {n : ℕ} (cs : List UInt8) {i : ℕ} (hi : i < n) :
    (charArray n cs)[i] = cs.getD i 0 :=
  Vector.getElem_ofFn hi

/-- Zeroing a character behind the string changes nothing. -/
lemma setIfInBounds_charArray {cs : List UInt8} {i : ℕ} (hi : cs.length ≤ i) :
    (charArray 16 cs).setIfInBounds i 0 = charArray 16 cs := by
  apply Vector.ext
  intro j hj
  rw [Vector.getElem_setIfInBounds hj]
  split_ifs with hij
  · rw [getElem_charArray, ← hij, List.getD_eq_getElem?_getD, List.getElem?_eq_none hi]
    rfl
  · rfl

/-- Masking the last three characters of an array. -/
lemma mask_charArray {cs : List UInt8} {k : ℕ} (hlength : cs.length = k + 3) :
    (((charArray 16 cs).setIfInBounds (k + 2) star).setIfInBounds (k + 1) star).setIfInBounds k
      star = charArray 16 (cs.take k ++ [star, star, star]) := by
  apply Vector.ext
  intro j hj
  have htake : (cs.take k).length = k := by
    rw [List.length_take, hlength]
    omega
  rw [getElem_charArray, List.getD_eq_getElem?_getD]
  simp only [Vector.getElem_setIfInBounds hj, getElem_charArray, List.getD_eq_getElem?_getD]
  by_cases hlt : j < k
  · rw [if_neg (by omega), if_neg (by omega), if_neg (by omega),
      List.getElem?_append_left (by rw [htake]; exact hlt), List.getElem?_take_of_lt hlt]
  · obtain ⟨d, rfl⟩ := Nat.exists_eq_add_of_le (not_lt.mp hlt)
    rw [List.getElem?_append_right (by rw [htake]; exact not_lt.mp hlt), htake,
      Nat.add_sub_cancel_left]
    match d with
    | 0 => rw [if_pos (by omega)]; rfl
    | 1 => rw [if_neg (by omega), if_pos (by omega)]; rfl
    | 2 => rw [if_neg (by omega), if_neg (by omega), if_pos (by omega)]; rfl
    | d + 3 =>
      rw [if_neg (by omega), if_neg (by omega), if_neg (by omega),
        List.getElem?_eq_none (by omega)]
      rfl

/-- **The mask.** Of a string of at least five and at most 15 printable characters the last three
are masked.

**Proof sketch.** Induction on the turns left, with all characters from the index of the next
turn on zero: a turn behind the string zeroes what is zero, and the turn at the last character
masks it and the two before it. -/
lemma maskLoop_charArray {cs : List UInt8} (hfive : 5 ≤ cs.length) (hle : cs.length ≤ 16)
    (hprint : ∀ c ∈ cs, 0x20 < c) {k : ℕ} (hk : cs.length ≤ k + 4) (hk' : k ≤ 12) :
    maskLoop k (charArray 16 cs) =
      charArray 16 (cs.take (cs.length - 3) ++ [star, star, star]) := by
  induction k with
  | zero => omega
  | succ k ih =>
    have hget : (charArray 16 cs)[k + 4]?.getD 0 = cs.getD (k + 4) 0 := by
      rw [Vector.getElem?_eq_getElem (by omega), Option.getD_some, getElem_charArray]
    rw [maskLoop, hget, List.getD_eq_getElem?_getD]
    rcases Nat.lt_or_ge (k + 4) cs.length with hlt | hge
    · -- the turn at the last character
      have hlength : cs.length = k + 2 + 3 := by omega
      have hchar := hprint _ (List.getElem_mem hlt)
      rw [List.getElem?_eq_getElem hlt, Option.getD_some, if_neg (UInt8.not_le.mpr hchar), hlength,
        Nat.add_sub_cancel]
      exact mask_charArray hlength
    · -- a turn behind the string
      rw [List.getElem?_eq_none hge, Option.getD_none, if_pos (by decide),
        setIfInBounds_charArray hge]
      exact ih hge (by omega)

/-! ## The fields -/

/-- The bytes of a memory hold the string `cs` with its NUL in the field of the given size, and
all its characters are above a space. -/
structure HoldsString (memory : List UInt8) (off size : ℕ) (cs : List UInt8) : Prop where
  fits : cs.length < size
  bytes : (memory.drop off).take (cs.length + 1) = cs ++ [0]
  print : ∀ c ∈ cs, 0x20 < c

/-- The buffer from which the record is filled, after successful reads. -/
def recordBuffer (r : Results) : Frame := (readBuffer r).store 0x380 (List.replicate 0x40 0)

/-- The SEEPROM in a buffer. -/
lemma load_seeprom (f : Frame) (bspRead : ℕ → ℤ × UInt16) {off n : ℕ} (h : off + n ≤ 0x200) :
    (f.store 0x400 (seepromBytes bspRead)).load (0x400 + off) n =
      ((seepromBytes bspRead).drop off).take n :=
  Frame.load_store_add f 0x400 (by rw [length_seepromBytes]; exact h)

/-- The SEEPROM in the buffer of the record. -/
lemma load_recordBuffer (r : Results) {off n : ℕ} (h : off + n ≤ 0x200) :
    (recordBuffer r).load (0x400 + off) n = ((seepromBytes r.bspRead).drop off).take n := by
  rw [recordBuffer, Frame.load_store_of_ge _ _ (by simp; omega), readBuffer, load_seeprom _ _ h]

/-- The submitted serial number, before it is masked, where both fields hold their strings. -/
lemma systemSerial_eq {r : Results} {code serial : List UInt8}
    (hcode : HoldsString (seepromBytes r.bspRead) 0x158 8 code)
    (hserial : HoldsString (seepromBytes r.bspRead) 0x160 16 serial) :
    systemSerial (recordBuffer r) = charArray 16 ((code ++ serial).take 15) := by
  have hne {cs : List UInt8} (h : ∀ c ∈ cs, 0x20 < c) : ∀ c ∈ cs, c ≠ 0 := by
    rintro c hc rfl
    exact absurd (h 0 hc) (by decide)
  have hfirst : (recordBuffer r).cString (0x400 + 2 * 0xAC) 15 = code := by
    refine Frame.cString_eq ?_ (hne hcode.print) (by have := hcode.fits; omega)
    exact (load_recordBuffer r (by have := hcode.fits; omega)).trans hcode.bytes
  have hsecond : (recordBuffer r).cString (0x400 + 2 * 0xB0) 15 = serial := by
    refine Frame.cString_eq ?_ (hne hserial.print) (by have := hserial.fits; omega)
    exact (load_recordBuffer r (by have := hserial.fits; omega)).trans hserial.bytes
  rw [systemSerial, hfirst, hsecond]

/-- The submitted serial number. -/
lemma maskSerial_eq {r : Results} {code serial : List UInt8}
    (hcode : HoldsString (seepromBytes r.bspRead) 0x158 8 code)
    (hserial : HoldsString (seepromBytes r.bspRead) 0x160 16 serial)
    (hfive : 5 ≤ (code ++ serial).length) :
    maskSerial (systemSerial (recordBuffer r)) = charArray 16 (masked (code ++ serial)) := by
  have hlength : ((code ++ serial).take 15).length = min (code ++ serial).length 15 := by
    rw [List.length_take, Nat.min_comm]
  have hprint : ∀ c ∈ (code ++ serial).take 15, 0x20 < c := by
    intro c hc
    rcases List.mem_append.mp (List.mem_of_mem_take hc) with hc | hc
    · exact hcode.print c hc
    · exact hserial.print c hc
  rw [systemSerial_eq hcode hserial, maskSerial, masked, ← hlength]
  exact maskLoop_charArray (by omega) (by omega) hprint (by omega) (le_refl 12)

/-! ## The record -/

/-- The bytes that an event hashes. -/
def hashedBy : Event Call → List (List UInt8)
  | .call (.generateHash data) => [data]
  | _ => []

/-- The bytes that a run hashes. -/
def hashInputs (events : List (Event Call)) : List (List UInt8) := events.flatMap hashedBy

/-- The bytes hashed by one part of a run and then the next. -/
@[simp] lemma hashInputs_append (a b : List (Event Call)) :
    hashInputs (a ++ b) = hashInputs a ++ hashInputs b :=
  List.flatMap_append

/-- The bytes hashed by an event and then a run. -/
@[simp] lemma hashInputs_cons (e : Event Call) (l : List (Event Call)) :
    hashInputs (e :: l) = hashedBy e ++ hashInputs l :=
  List.flatMap_cons

/-- Nothing is hashed without an event. -/
@[simp] lemma hashInputs_nil : hashInputs [] = [] := rfl

/-- The end of a run hashes nothing. -/
lemma hashInputs_submitFinish (ok : Bool) : hashInputs (submitFinish ok) = [] := by
  cases ok
  all_goals rfl

/-- What is shown of a response hashes nothing. -/
lemma hashInputs_submitShow (parsed : Parsed) : hashInputs (submitShow parsed) = [] := by
  simp only [submitShow]
  split
  · split_ifs
    · simp only [hashInputs_append, hashInputs_submitFinish]
      split
      all_goals simp [hashedBy]
    · simp [hashedBy, hashInputs_submitFinish]
  · simp [hashedBy, hashInputs_submitFinish]

/-- The response hashes nothing. -/
lemma hashInputs_submitResponse (recvs : ℕ → RecvResult) (buf : Frame) :
    hashInputs (submitResponse recvs buf) = [] := by
  simp only [submitResponse]
  split
  · simp [hashedBy, hashInputs_submitFinish]
  · simp [hashedBy, hashInputs_submitShow]

/-- The stages after the hashes hash nothing. -/
lemma hashInputs_submitEncrypt (r : Results) (buf : Frame) (pdh : PostDataHashed) :
    hashInputs (submitEncrypt r buf pdh) = [] := by
  have hsend (buf : Frame) : hashInputs (submitSend r buf) = [] := by
    simp only [submitSend]
    split_ifs
    all_goals simp [hashedBy, hashInputs_submitResponse]
  have hconnect (buf : Frame) : hashInputs (submitConnect r buf) = [] := by
    simp only [submitConnect]
    split_ifs
    all_goals simp [hashedBy, hsend]
  simp only [submitEncrypt]
  split_ifs
  all_goals simp [hashedBy, hconnect]

/-- Filling the record hashes nothing. -/
lemma hashInputs_fillAccesses (r : Results) (buf : Frame) :
    hashInputs (fillAccesses r buf) = [] := by
  simp only [fillAccesses, fieldCopies]
  split
  all_goals simp [hashedBy]

/-- The buffers agree on all bytes outside of the fields of the code id and of the serial
number. -/
def AgreeOutside (buf buf' : Frame) : Prop :=
  ∀ i, ¬ (0x400 + 0x158 ≤ i ∧ i < 0x400 + 0x170) → buf i = buf' i

/-- The record depends on the two fields by the masked serial number only. -/
lemma fillPostData_congr {buf buf' : Frame} (h : AgreeOutside buf buf')
    (hserial : maskSerial (systemSerial buf) = maskSerial (systemSerial buf'))
    (deviceCert : Vector UInt8 0x180) (bspRev : UInt32) (region : Except ℤ (ℕ × UInt32))
    (mlc : Mlc) : fillPostData buf deviceCert bspRev region mlc =
      fillPostData buf' deviceCert bspRev region mlc := by
  have hbytes (off n : ℕ) (hout : off + n ≤ 0x558 ∨ 0x570 ≤ off) :
      bytesAt buf off n = bytesAt buf' off n := by
    apply Vector.ext
    intro i hi
    rw [bytesAt, bytesAt, Vector.getElem_ofFn, Vector.getElem_ofFn]
    exact h _ (by show ¬ _; simp only; omega)
  have hword (i : ℕ) (hi : i < 0xAC) : seepromWord buf i = seepromWord buf' i := by
    rw [seepromWord, seepromWord, Frame.load_congr fun j hj hlt => h j (by omega)]
  unfold fillPostData
  rw [hserial, hbytes _ 16 (by omega), hbytes _ 6 (by omega), hbytes 0x080 4 (by omega),
    hbytes 0x280 4 (by omega), hbytes 0x284 4 (by omega), hbytes 0x21C 4 (by omega),
    hbytes 0x288 4 (by omega), hword 0x21 (by omega), hword 0x22 (by omega),
    hword 0x23 (by omega), hword 0x24 (by omega), hword 0x25 (by omega), hword 0x29 (by omega),
    hword 0x2C (by omega), hword 0x2D (by omega)]

/-- The hashes depend on the bytes of the OTP only, apart from the record. -/
lemma submitHash_congr (r : Results) {buf buf' : Frame} (h : AgreeOutside buf buf')
    (pd : PostData) : (submitHash r buf pd).postData = (submitHash r buf' pd).postData ∧
      hashInputs (submitHash r buf pd).events = hashInputs (submitHash r buf' pd).events := by
  have hotp : hashOtp r buf pd = hashOtp r buf' pd := by
    unfold hashOtp
    rw [Frame.load_congr fun i _ hi => h i (by omega)]
  have hdesc : (buf.store 0 descBytes).load 0 64 = (buf'.store 0 descBytes).load 0 64 :=
    Frame.load_congr fun i _ hi => Frame.store_congr (h i (by omega)) 0 descBytes
  have hpost (pd : PostData) : (hashPostData r buf pd).1 = (hashPostData r buf' pd).1 ∧
      (hashPostData r buf pd).2.2 = (hashPostData r buf' pd).2.2 := by
    simp only [hashPostData, hdesc]
    split_ifs
    all_goals exact ⟨rfl, rfl⟩
  obtain ⟨hpdh, hevents⟩ := hpost (hashOtp r buf' pd).1
  simp only [submitHash, hotp]
  refine ⟨by rw [hpdh], ?_⟩
  simp only [hashInputs_append, hashInputs_submitEncrypt, hevents]

/-- Filling the record and everything after it, likewise. -/
lemma submitCollect_congr (r : Results) {buf buf' : Frame} (h : AgreeOutside buf buf')
    (hserial : maskSerial (systemSerial (buf.store 0x380 (List.replicate 0x40 0))) =
      maskSerial (systemSerial (buf'.store 0x380 (List.replicate 0x40 0)))) :
    (submitCollect r buf).postData = (submitCollect r buf').postData ∧
      hashInputs (submitCollect r buf).events = hashInputs (submitCollect r buf').events := by
  have hstore : AgreeOutside (buf.store 0x380 (List.replicate 0x40 0))
      (buf'.store 0x380 (List.replicate 0x40 0)) := fun i hi => Frame.store_congr (h i hi) _ _
  simp only [submitCollect]
  split_ifs
  · exact ⟨rfl, rfl⟩
  · exact ⟨rfl, rfl⟩
  · split
    · simp [stop, hashInputs_fillAccesses]
    · next mlc _ =>
      rw [fillPostData_congr hstore hserial]
      obtain ⟨hpost, hinputs⟩ := submitHash_congr r hstore (fillPostData
        (buf'.store 0x380 (List.replicate 0x40 0)) r.deviceCert r.bspRev
        (getRegionInfo r.regionHandle r.regionGet r.settings) mlc)
      refine ⟨hpost, ?_⟩
      simp only [Run.after, hashInputs_append, hashInputs_fillAccesses, hinputs]

/-- The serial number of a record that was filled. -/
lemma systemSerial_fillPostData (buf : Frame) (deviceCert : Vector UInt8 0x180) (bspRev : UInt32)
    (region : Except ℤ (ℕ × UInt32)) (mlc : Mlc) :
    (fillPostData buf deviceCert bspRev region mlc).systemSerial =
      maskSerial (systemSerial buf) := by
  simp only [fillPostData]

/-- The record of a run that hashes it. -/
lemma postData_submitHash (r : Results) (buf : Frame) (pd : PostData) :
    (submitHash r buf pd).postData = some (hashPostData r buf (hashOtp r buf pd).1).1 := rfl

/-- The hashes keep the serial number. -/
lemma systemSerial_hashPostData (r : Results) (buf : Frame) (pd : PostData) :
    (hashPostData r buf (hashOtp r buf pd).1).1.data.systemSerial = pd.systemSerial := by
  have hotp : (hashOtp r buf pd).1.systemSerial = pd.systemSerial := by
    unfold hashOtp
    split_ifs
    all_goals rfl
  have hdata (pd : PostData) : (hashPostData r buf pd).1.data = pd := by
    simp only [hashPostData]
    split_ifs
    all_goals rfl
  rw [hdata, hotp]

/-- The serial number in the record. -/
lemma systemSerial_submitCollect {r : Results} {buf : Frame} {pdh : PostDataHashed}
    (h : (submitCollect r buf).postData = some pdh) : pdh.data.systemSerial =
      maskSerial (systemSerial (buf.store 0x380 (List.replicate 0x40 0))) := by
  simp only [submitCollect] at h
  split_ifs at h
  · cases h
  · cases h
  · split at h
    · cases h
    · rw [Run.after, postData_submitHash] at h
      rw [← Option.some.inj h, systemSerial_hashPostData, systemSerial_fillPostData]

/-- The serial number in the record of a run is the masked one of the SEEPROM. -/
lemma systemSerial_optionSubmitSystemData {r : Results} (h : FillsRecord r)
    {pdh : PostDataHashed} (hpdh : (optionSubmitSystemData r).postData = some pdh) :
    pdh.data.systemSerial = maskSerial (systemSerial (recordBuffer r)) := by
  rw [optionSubmitSystemData_eq h, Run.after] at hpdh
  exact systemSerial_submitCollect hpdh

/-- A run that does not fill the record has none, and hashes nothing. -/
lemma optionSubmitSystemData_of_not {r : Results} (h : ¬ FillsRecord r) :
    (optionSubmitSystemData r).postData = none ∧
      hashInputs (optionSubmitSystemData r).events = [] := by
  have hread : hashInputs (readOtpSeeprom r.readOTP r.otp r.bspRead r.heap).events = [] := by
    simp only [readOtpSeeprom]
    split_ifs
    all_goals rfl
  by_cases hselected : r.selected = 0
  · rw [optionSubmitSystemData, if_pos hselected]
    exact ⟨rfl, rfl⟩
  by_cases halloc : r.heapAlloc = true
  · have hres : (readOtpSeeprom r.readOTP r.otp r.bspRead r.heap : ReadOutcome Call).res ≠ 0 :=
      fun hres => h ⟨hselected, halloc, readOtpSeeprom_res_eq_zero_iff.mp hres⟩
    rw [optionSubmitSystemData, if_neg hselected, if_neg (not_not.mpr halloc), if_pos hres]
    refine ⟨rfl, ?_⟩
    simp only [stop, hashInputs_append, hread]
    split_ifs
    all_goals rfl
  · rw [optionSubmitSystemData, if_neg hselected, if_pos halloc]
    exact ⟨rfl, rfl⟩

/-- Nothing is hashed before the record is filled. -/
lemma hashInputs_beforeRecord (r : Results) : hashInputs (beforeRecord r) = [] := rfl

/-- The stages that fill and submit the record do not read the SEEPROM again. -/
lemma submitCollect_bspRead (r : Results) (bspRead : ℕ → ℤ × UInt16) (buf : Frame) :
    submitCollect { r with bspRead := bspRead } buf = submitCollect r buf := rfl

/-- The masked string depends on its length and on all but its last three characters. -/
lemma masked_congr {cs cs' : List UInt8} (hlength : cs'.length = cs.length)
    (htake : cs'.take (cs.length - 3) = cs.take (cs.length - 3)) : masked cs' = masked cs := by
  have hmasked (cs : List UInt8) : masked cs =
      (cs.take (cs.length - 3)).take (min cs.length 15 - 3) ++ [star, star, star] := by
    rw [masked, List.take_take, List.take_take]
    congr 2
    omega
  rw [hmasked, hmasked, hlength, htake]

/-- Buffers whose SEEPROMs agree outside of the two fields agree there. -/
lemma agreeOutside_readBuffer {r : Results} {bspRead : ℕ → ℤ × UInt16}
    (hsame : ∀ i, ¬ (0x158 ≤ i ∧ i < 0x170) →
      (seepromBytes bspRead)[i]? = (seepromBytes r.bspRead)[i]?) :
    AgreeOutside (readBuffer { r with bspRead := bspRead }) (readBuffer r) := by
  intro i hi
  rw [readBuffer, readBuffer]
  rcases Nat.lt_or_ge i 0x400 with hlt | hle
  · rw [Frame.store_of_lt _ _ hlt, Frame.store_of_lt _ _ hlt]
  · rw [Frame.store_of_le _ _ hle, Frame.store_of_le _ _ hle, hsame (i - 0x400) (by omega)]

/-- Results with which a run sends its data, with the code id `FW` and a serial number that
starts with `1234` and ends with the characters of the given word. -/
def sentSerial (last : UInt16) : Results :=
  { sent with bspRead := fun i =>
      (0, if i = 0xAC then 0x4657 else if i = 0xB0 then 0x3132 else if i = 0xB1 then 0x3334
        else if i = 0xB2 then last else 0) }

end SubmitSystemData

end RecoveryMenu

import Mathlib.Data.List.GetD
import Mathlib.Data.List.OfFn
import RecoveryMenu.Foundations.MessageLayout
import RecoveryMenu.Options.PairDRC

set_option relaxedAutoImplicit false
set_option autoImplicit false

/-!
# Requests to the GamePad controller (`ios_mcp/source/ccr.c`)

Each wrapper hands the device one buffer, which holds the destination and the arguments, and which
the answer is written to as well. The vectors of the call are in the same allocation, behind the
part of the buffer that the device is handed.

The pincode of a pairing comes from the device: it is a byte of the answer to the request for the
MAC address, two bits for each of its symbols. The request that starts the pairing sends the
symbols back as digits.

## Main definitions

* `RecoveryMenu.Ccr.makeRequest`: the call of the device.
* `RecoveryMenu.Ccr.Request`: the calls of the wrappers.
* `RecoveryMenu.Ccr.ccrSysGetPincode`: the pincode.
* `RecoveryMenu.Ccr.Message.call`: the call that a message comes from.
* `RecoveryMenu.Ccr.Message.pin`: the byte that a request for a pairing sends back.

## Main results

* `RecoveryMenu.Ccr.message_eq_message_iff`: which calls give the same message.
* `RecoveryMenu.Ccr.startPairing_accepted_iff`: for which pincode the device gets its byte back.

## References

* `ios_mcp/source/ccr.c`; `ios_mcp/source/ccr.h`; `ios_mcp/source/utils.h`: `ALIGN`;
  `ios_mcp/source/imports.h`: `IOSVec_t`, `IOS_Ioctlv`.
-/

namespace RecoveryMenu

namespace Ccr

open ByteMemory

/-! ## The call of the device -/

/-- `CCR_DEST_DRH`. -/
def ccrDestDrh : UInt32 := 1

/-- `CCR_DEST_DRC1`. -/
def ccrDestDrc1 : UInt32 := 3

/-- `ALIGN`. -/
def align (x align : UInt32) : UInt32 := (x + (align - 1)) &&& ~~~(align - 1)

/-- What `IOS_Ioctlv` hands to the device: the first part of the buffer, and the vectors. -/
structure Message where
  request : ℕ
  numIn : ℕ
  numOut : ℕ
  buffer : List UInt8
  vecs : List (UInt32 × UInt32)
  deriving DecidableEq

/-- `allocIobuf`, with what the heap has held there. -/
def allocIobuf (heap : Frame) : Frame := heap.store 0 (List.replicate 0x3a4 0)

/-- The offset of the vectors. -/
def vecsOffset (requestSize : UInt32) : ℕ := (align (requestSize + 0x40) 0x40).toNat

/-- What `makeRequest` stores in the buffer. -/
def requestFields (requestSize destId : UInt32) (input : List UInt8) (out : Bool)
    (buf : UInt32) : List Store :=
  [⟨0x17, [destId.toUInt8]⟩, ⟨0x18, input⟩, wordField (vecsOffset requestSize) buf,
    wordField (vecsOffset requestSize + 4) requestSize] ++
  if out then [wordField (vecsOffset requestSize + 12) buf,
    wordField (vecsOffset requestSize + 16) requestSize] else []

/-- `makeRequest` up to the call of the device, or its result if it does not get there. Nothing is
in `input` if `in` is `NULL` or its size is zero, and `out` says that neither is so for `out`. The
heap is `none` if it is exhausted. -/
def makeRequest (requestSize destId : UInt32) (request : ℕ) (input : List UInt8) (out : Bool)
    (buf : UInt32) (heap : Option Frame) : Except ℤ Message :=
  if destId < ccrDestDrh ∨ destId > ccrDestDrc1 then .error (-0x11fff9)
  else match heap with
    | none => .error (-0x11fffe)
    | some heap =>
      let frame := (allocIobuf heap).storeAll (requestFields requestSize destId input out buf)
      let first := vecsOffset requestSize / 4
      .ok
        { request := request
          numIn := 1
          numOut := if out then 1 else 0
          buffer := frame.load 0 requestSize.toNat
          vecs := (List.range (if out then 2 else 1)).map fun i =>
            (frame.word (first + 3 * i), frame.word (first + 3 * i + 1)) }

/-- `service2_makeRequest`. -/
def service2MakeRequest := makeRequest 0x128

/-- `service4_makeRequest`. -/
def service4MakeRequest := makeRequest 0x118

/-- `service5_makeRequest`. -/
def service5MakeRequest := makeRequest 0x31c

/-- The arguments in `CCRSysStartPairing`. -/
def pairingArgs (pairDest : UInt32) (timeout : UInt16) (pin : Fin 4 → UInt8) : List UInt8 :=
  [1, 0x30 + pin 0, 0x30 + pin 1, 0x30 + pin 2, 0x30 + pin 3, 0x35, 0x36, 0x37, 0x38,
    (timeout >>> 8).toUInt8, (timeout &&& 0xff).toUInt8, pairDest.toUInt8]

/-! ## The wrappers -/

/-- `CCRCDCWpsStartEx`, with the bytes behind `args`, or nothing if it is `NULL`. -/
def ccrcdcWpsStartEx (args : List UInt8) := service2MakeRequest ccrDestDrh 0xce args false

/-- A call of a wrapper. Arguments that it gets through a pointer are `none` if that is `NULL`, and
`out` says that the pointer for the answer is not. -/
inductive Request
  | devicePing (destId : UInt32)
  | getMacAddress (destId : UInt32) (out : Bool)
  | wpsStartEx (args : Option (Fin 12 → UInt8))
  | startPairing (pairDest : UInt32) (timeout : UInt16) (pin : Fin 4 → UInt8)
  | wpsStop
  | wpsStatus (out : Bool)
  | displayMessage (destId : UInt32) (args : Option (UInt16 × UInt16))
  | setLcdMute (destId : UInt32) (mute : Option UInt8)

/-- The message of a call. -/
def Request.message (buf : UInt32) (heap : Option Frame) : Request → Except ℤ Message
  | devicePing destId => service2MakeRequest destId 0xc8 [] false buf heap
  | getMacAddress destId out => service2MakeRequest destId 0xc9 [] out buf heap
  | wpsStartEx args => ccrcdcWpsStartEx (args.elim [] List.ofFn) buf heap
  | startPairing pairDest timeout pin =>
    ccrcdcWpsStartEx (pairingArgs pairDest timeout pin) buf heap
  | wpsStop => service2MakeRequest ccrDestDrh 0xcf [] false buf heap
  | wpsStatus out => service2MakeRequest ccrDestDrh 0xd0 [] out buf heap
  | displayMessage destId args =>
    service4MakeRequest destId 0x1a3 (args.elim [] fun a => bytesOfHalf a.1 ++ bytesOfHalf a.2)
      false buf heap
  | setLcdMute destId mute => service5MakeRequest destId 0x1fc mute.toList false buf heap

/-- The destination that a call checks. -/
def Request.destId : Request → UInt32
  | devicePing destId => destId
  | getMacAddress destId _ => destId
  | displayMessage destId _ => destId
  | setLcdMute destId _ => destId
  | _ => ccrDestDrh

/-- A destination that passes the check. -/
def ValidDest (destId : UInt32) : Prop := ¬ (destId < ccrDestDrh ∨ destId > ccrDestDrc1)

/-- Twelve bytes of arguments. -/
def argsIn (args : List UInt8) : Fin 12 → UInt8 := fun i => args.getD i 0

/-- What the message of a call says about it: a pairing is a call of `CCRCDCWpsStartEx`, and no
arguments are zeros. -/
def Request.normal : Request → Request
  | wpsStartEx args => wpsStartEx (some (args.getD fun _ => 0))
  | startPairing pairDest timeout pin =>
    wpsStartEx (some (argsIn (pairingArgs pairDest timeout pin)))
  | displayMessage destId args => displayMessage destId (some (args.getD (0, 0)))
  | setLcdMute destId mute => setLcdMute destId (some (mute.getD 0))
  | r => r

/-! ## Pincodes -/

/-- The pincode in the last byte of the MAC address. -/
def pincodeOf (mac6 : UInt8) : Fin 4 → UInt8
  | 3 => mac6 &&& 3
  | 2 => (mac6 >>> 2) &&& 3
  | 1 => (mac6 >>> 4) &&& 3
  | 0 => mac6 >>> 6

/-- The last byte of the MAC address in an answer. -/
def mac6Of (answer : List UInt8) : UInt8 := ((answer.drop 0x18).take 7).getD 6 0

/-- `CCRSysGetPincode`, where the device answers a message with a result and with what is in the
buffer then: its result, and the pincode if it writes one. -/
def ccrSysGetPincode (device : Message → ℤ × List UInt8) (buf : UInt32) (heap : Option Frame) :
    ℤ × Option (Fin 4 → UInt8) :=
  match (Request.getMacAddress ccrDestDrh true).message buf heap with
  | .error res => (res, none)
  | .ok m =>
    if (device m).1 = 0 then (0, some (pincodeOf (mac6Of (device m).2))) else ((device m).1, none)

/-! ## What a message says -/

/-- The half word at a place of the arguments. -/
def halfIn (args : List UInt8) (i : ℕ) : UInt16 :=
  UInt16.ofNat (BigEndian.toNat ((args.drop i).take 2))

/-- The call that a message comes from. -/
def Message.call (m : Message) : Option Request :=
  let destId := (m.buffer.getD 0x17 0).toUInt32
  let args := m.buffer.drop 0x18
  match m.request with
  | 0xc8 => some (.devicePing destId)
  | 0xc9 => some (.getMacAddress destId (m.numOut == 1))
  | 0xce => some (.wpsStartEx (some (argsIn args)))
  | 0xcf => some .wpsStop
  | 0xd0 => some (.wpsStatus (m.numOut == 1))
  | 0x1a3 => some (.displayMessage destId (some (halfIn args 0, halfIn args 2)))
  | 0x1fc => some (.setLcdMute destId (some (args.getD 0 0)))
  | _ => none

/-- The pairing that the arguments of `CCRCDCWpsStartEx` stand for. -/
def Request.asPairing : Request → Request
  | wpsStartEx (some args) => startPairing (args 11).toUInt32 (halfIn (List.ofFn args) 9)
      fun i => (List.ofFn args).getD (i + 1) 0 - 0x30
  | r => r

/-- The call that a message comes from, with what a pairing is about. -/
def Message.read (m : Message) : Option Request := m.call.map Request.asPairing

/-- A digit of a pincode. -/
def digit (c : UInt8) : Option UInt8 := if 0x30 ≤ c ∧ c ≤ 0x33 then some (c - 0x30) else none

/-- The byte with the given symbols. -/
def byteOfSymbols (a b c d : UInt8) : UInt8 := a <<< 6 ||| b <<< 4 ||| c <<< 2 ||| d

/-- The byte whose pincode a request for a pairing sends, if it is one. -/
def Message.pin (m : Message) : Option UInt8 :=
  let args := m.buffer.drop 0x18
  if m.request = 0xce then do
    let a ← digit (args.getD 1 0)
    let b ← digit (args.getD 2 0)
    let c ← digit (args.getD 3 0)
    let d ← digit (args.getD 4 0)
    some (byteOfSymbols a b c d)
  else none

/-! ## The buffer -/

/-- The sizes of the requests that the wrappers make. -/
def IsService (requestSize : UInt32) : Prop :=
  requestSize = 0x128 ∨ requestSize = 0x118 ∨ requestSize = 0x31c

/-- The part of the buffer that the device is handed. -/
def bufferOf (requestSize destId : UInt32) (input : List UInt8) : List UInt8 :=
  List.replicate 0x17 0 ++ destId.toUInt8 ::
    (input ++ List.replicate (requestSize.toNat - 0x18 - input.length) 0)

/-- The vectors are behind the request, in the allocation, and aligned. -/
lemma vecsOffset_bounds {requestSize : UInt32} (h : IsService requestSize) :
    requestSize.toNat ≤ vecsOffset requestSize ∧ vecsOffset requestSize + 24 ≤ 0x3a4 ∧
      4 * (vecsOffset requestSize / 4) = vecsOffset requestSize := by
  rcases h with rfl | rfl | rfl <;> decide

/-- A part of the buffer before anything is stored. -/
lemma load_allocIobuf (heap : Frame) {off n : ℕ} (h : off + n ≤ 0x3a4) :
    (allocIobuf heap).load off n = List.replicate n 0 := by
  rw [allocIobuf, Frame.load_store_zero heap (by rw [List.length_replicate]; exact h),
    List.drop_replicate, List.take_replicate]
  congr 1
  omega

section Fields

variable {requestSize : UInt32} (destId : UInt32) {input : List UInt8} (out : Bool) (buf : UInt32)

/-- No field is stored over another one. -/
lemma pairwise_requestFields (hservice : IsService requestSize)
    (hinput : 0x18 + input.length ≤ requestSize.toNat) :
    (requestFields requestSize destId input out buf).Pairwise Store.Disjoint := by
  have hbounds := (vecsOffset_bounds hservice).1
  cases out
  · simp [requestFields, Store.Disjoint, wordField]
    omega
  · simp [requestFields, Store.Disjoint, wordField]
    omega

/-- **The request.** The device is handed zeros, the destination and the arguments, and zeros
behind them. -/
lemma load_requestFields (hservice : IsService requestSize)
    (hinput : 0x18 + input.length ≤ requestSize.toNat) (heap : Frame) :
    ((allocIobuf heap).storeAll (requestFields requestSize destId input out buf)).load 0
      requestSize.toNat = bufferOf requestSize destId input := by
  have hfields := pairwise_requestFields destId out buf hservice hinput
  have hbounds := vecsOffset_bounds hservice
  obtain ⟨rest, hrest⟩ : ∃ rest, requestSize.toNat - 0x18 - input.length = rest := ⟨_, rfl⟩
  have hsplit : requestSize.toNat = 0x17 + (1 + (input.length + rest)) := by omega
  have hdest := Frame.load_storeAll_of_mem (allocIobuf heap) hfields
    (s := ⟨0x17, [destId.toUInt8]⟩) (by simp [requestFields])
  have hargs := Frame.load_storeAll_of_mem (allocIobuf heap) hfields
    (s := ⟨0x18, input⟩) (by simp [requestFields])
  have hzeros (off n : ℕ) (hout : off + n ≤ 0x17 ∨ 0x18 + input.length ≤ off)
      (hin : off + n ≤ requestSize.toNat) :
      ((allocIobuf heap).storeAll (requestFields requestSize destId input out buf)).load off n =
        List.replicate n 0 := by
    rw [Frame.load_storeAll_of_disjoint, load_allocIobuf heap (by omega)]
    intro t ht
    cases out
    · simp only [requestFields, List.append_nil, Bool.false_eq_true, if_false, List.mem_cons,
        List.not_mem_nil, or_false] at ht
      rcases ht with rfl | rfl | rfl | rfl <;> simp [wordField] <;> omega
    · simp only [requestFields, if_true, List.cons_append, List.nil_append, List.mem_cons,
        List.not_mem_nil, or_false] at ht
      rcases ht with rfl | rfl | rfl | rfl | rfl | rfl <;> simp [wordField] <;> omega
  have hfront := hzeros 0 0x17 (by omega) (by omega)
  have hback := hzeros (0x18 + input.length) rest (by omega) (by omega)
  rw [bufferOf, hrest]
  generalize (allocIobuf heap).storeAll (requestFields requestSize destId input out buf) = frame
    at hdest hargs hfront hback ⊢
  calc
    frame.load 0 requestSize.toNat = frame.load 0 0x17 ++ (frame.load 0x17 1 ++
        (frame.load 0x18 input.length ++ frame.load (0x18 + input.length) rest)) := by
      rw [hsplit, Frame.load_add, Frame.load_add, Frame.load_add]
    _ = List.replicate 0x17 0 ++ ([destId.toUInt8] ++ (input ++ List.replicate rest 0)) :=
      congrArg₂ (· ++ ·) hfront (congrArg₂ (· ++ ·) hdest (congrArg₂ (· ++ ·) hargs hback))

/-- The vectors. -/
lemma word_requestFields (hservice : IsService requestSize)
    (hinput : 0x18 + input.length ≤ requestSize.toNat) (heap : Frame) :
    let frame := (allocIobuf heap).storeAll (requestFields requestSize destId input out buf)
    ((List.range (if out then 2 else 1)).map fun i =>
      (frame.word (vecsOffset requestSize / 4 + 3 * i),
        frame.word (vecsOffset requestSize / 4 + 3 * i + 1))) =
      List.replicate (if out then 2 else 1) (buf, requestSize) := by
  intro frame
  have hfields := pairwise_requestFields destId out buf hservice hinput
  have halign := (vecsOffset_bounds hservice).2.2
  have hword {i : ℕ} {w : UInt32} (off : ℕ) (hi : 4 * i = off)
      (hw : wordField off w ∈ requestFields requestSize destId input out buf) :
      frame.word i = w := by
    rw [Frame.word, hi]
    exact Frame.wordOfBytes_load_storeAll _ hfields off hw
  rw [List.eq_replicate_iff]
  refine ⟨by rw [List.length_map, List.length_range], ?_⟩
  intro v hv
  obtain ⟨i, hi, rfl⟩ := List.mem_map.mp hv
  rw [List.mem_range] at hi
  cases out
  · obtain rfl : i = 0 := by simpa using hi
    refine Prod.ext (hword (vecsOffset requestSize) (by omega) ?_)
      (hword (vecsOffset requestSize + 4) (by omega) ?_)
    · simp [requestFields]
    · simp [requestFields]
  · have hi' : i = 0 ∨ i = 1 := by
      simp only [if_true] at hi
      omega
    rcases hi' with rfl | rfl
    · refine Prod.ext (hword (vecsOffset requestSize) (by omega) ?_)
        (hword (vecsOffset requestSize + 4) (by omega) ?_)
      · simp [requestFields]
      · simp [requestFields]
    · refine Prod.ext (hword (vecsOffset requestSize + 12) (by omega) ?_)
        (hword (vecsOffset requestSize + 16) (by omega) ?_)
      · simp [requestFields]
      · simp [requestFields]

end Fields

/-- **The call of the device.** With a destination that passes the check, the device is handed the
request, and one or two vectors for it. -/
lemma makeRequest_eq {requestSize destId : UInt32} {input : List UInt8}
    (hservice : IsService requestSize) (hinput : 0x18 + input.length ≤ requestSize.toNat)
    (hdest : ValidDest destId) (request : ℕ) (out : Bool) (buf : UInt32) (heap : Frame) :
    makeRequest requestSize destId request input out buf (some heap) =
      .ok ⟨request, 1, if out then 1 else 0, bufferOf requestSize destId input,
        List.replicate (if out then 2 else 1) (buf, requestSize)⟩ := by
  have hvecs := word_requestFields destId out buf hservice hinput heap
  rw [makeRequest, if_neg hdest]
  dsimp only at hvecs ⊢
  rw [load_requestFields destId out buf hservice hinput heap, hvecs]

/-- With another destination there is no call. -/
lemma makeRequest_of_not_validDest {requestSize destId : UInt32} (hdest : ¬ ValidDest destId)
    (request : ℕ) (input : List UInt8) (out : Bool) (buf : UInt32) (heap : Option Frame) :
    makeRequest requestSize destId request input out buf heap = .error (-0x11fff9) := by
  unfold makeRequest
  rw [if_pos (not_not.mp hdest)]

/-- Only what the device is handed counts, not what the heap has held. -/
lemma makeRequest_congr {requestSize destId : UInt32} {input input' : List UInt8}
    (hservice : IsService requestSize) (hinput : 0x18 + input.length ≤ requestSize.toNat)
    (hinput' : 0x18 + input'.length ≤ requestSize.toNat)
    (heq : bufferOf requestSize destId input = bufferOf requestSize destId input')
    (request : ℕ) (out : Bool) (buf : UInt32) (heap heap' : Frame) :
    makeRequest requestSize destId request input out buf (some heap) =
      makeRequest requestSize destId request input' out buf (some heap') := by
  by_cases hdest : ValidDest destId
  · rw [makeRequest_eq hservice hinput hdest, makeRequest_eq hservice hinput' hdest, heq]
  · rw [makeRequest_of_not_validDest hdest, makeRequest_of_not_validDest hdest]

/-- No arguments are as good as zeros. -/
lemma bufferOf_replicate {requestSize : UInt32} (destId : UInt32) {n : ℕ}
    (hn : 0x18 + n ≤ requestSize.toNat) :
    bufferOf requestSize destId [] = bufferOf requestSize destId (List.replicate n 0) := by
  have hsplit : requestSize.toNat - 0x18 - ([] : List UInt8).length =
      n + (requestSize.toNat - 0x18 - (List.replicate n (0 : UInt8)).length) := by
    rw [List.length_replicate, List.length_nil]
    omega
  rw [bufferOf, bufferOf, List.nil_append, hsplit, List.replicate_append_replicate]

/-! ## Messages -/

/-- `CCR_DEST_DRH` passes the check. -/
lemma validDest_drh : ValidDest ccrDestDrh := by
  unfold ValidDest
  decide

/-- The byte of a destination is all of it. -/
lemma toUInt32_toUInt8 {destId : UInt32} (h : ValidDest destId) :
    destId.toUInt8.toUInt32 = destId := by
  have hle : destId.toNat ≤ 3 := Nat.not_lt.mp (not_or.mp h).2
  apply UInt32.toNat_inj.mp
  rw [UInt8.toNat_toUInt32, UInt32.toNat_toUInt8]
  omega

/-- The destination in a request. -/
@[simp] lemma getD_bufferOf (requestSize destId : UInt32) (input : List UInt8) :
    (bufferOf requestSize destId input).getD 0x17 0 = destId.toUInt8 := by
  rw [bufferOf, List.getD_append_right _ _ _ _ (by rw [List.length_replicate]),
    List.length_replicate]
  rfl

/-- The arguments in a request, and zeros behind them. -/
@[simp] lemma drop_bufferOf (requestSize destId : UInt32) (input : List UInt8) :
    (bufferOf requestSize destId input).drop 0x18 =
      input ++ List.replicate (requestSize.toNat - 0x18 - input.length) 0 := by
  rw [bufferOf, List.drop_append, List.length_replicate, List.drop_replicate]
  rfl

/-- Two bytes of the arguments. -/
lemma halfIn_of_take_drop {args : List UInt8} {i : ℕ} {w : UInt16}
    (h : (args.drop i).take 2 = bytesOfHalf w) : halfIn args i = w := by
  rw [halfIn, h, toNat_bytesOfHalf, UInt16.ofNat_toNat]

/-- The two bytes of the timeout. -/
lemma bytesOfHalf_timeout (w : UInt16) :
    [(w >>> 8).toUInt8, (w &&& 0xff).toUInt8] = bytesOfHalf w := by
  have hhigh : (w >>> 8).toUInt8.toNat = w.toNat / 256 := by
    have hlt := w.toNat_lt
    rw [UInt16.toNat_toUInt8, UInt16.toNat_shiftRight]
    show w.toNat >>> 8 % 2 ^ 8 = _
    rw [Nat.shiftRight_eq_div_pow, Nat.mod_eq_of_lt (by omega)]
  have hlow : (w &&& 0xff).toUInt8.toNat = w.toNat % 256 := by
    rw [UInt16.toNat_toUInt8, UInt16.toNat_and]
    show (w.toNat &&& (2 ^ 8 - 1)) % 2 ^ 8 = _
    rw [Nat.and_two_pow_sub_one_eq_mod, Nat.mod_mod]
  have hnum : BigEndian.toNat [(w >>> 8).toUInt8, (w &&& 0xff).toUInt8] = w.toNat := by
    show (0 * 256 + (w >>> 8).toUInt8.toNat) * 256 + (w &&& 0xff).toUInt8.toNat = _
    rw [hhigh, hlow]
    omega
  rw [bytesOfHalf, ← hnum]
  exact (BigEndian.ofNat_toNat _).symm

/-- A digit stands for the symbol it was made from. -/
lemma digit_sub (p : UInt8) : 0x30 + p - 0x30 = p := by
  rw [UInt8.add_comm, UInt8.add_sub_cancel]

/-- The four symbols. -/
lemma symbol_cases (i : Fin 4) : i = 0 ∨ i = 1 ∨ i = 2 ∨ i = 3 := by
  revert i
  decide

/-- Twelve bytes that are read from their list. -/
@[simp] lemma argsIn_ofFn_append (args : Fin 12 → UInt8) (rest : List UInt8) :
    argsIn (List.ofFn args ++ rest) = args := by
  funext i
  have hi : i.val < (List.ofFn args).length := by rw [List.length_ofFn]; exact i.isLt
  rw [argsIn, List.getD_append _ _ _ _ hi, List.getD_eq_getElem _ _ hi, List.getElem_ofFn]

/-- The list of twelve bytes. -/
lemma ofFn_argsIn {args : List UInt8} (h : args.length = 12) : List.ofFn (argsIn args) = args := by
  refine List.ext_getElem (by rw [List.length_ofFn, h]) fun i _ hi => ?_
  rw [List.getElem_ofFn, argsIn, List.getD_eq_getElem _ _ hi]

/-- Every call is one of `makeRequest`, with arguments that there is room for. -/
lemma message_eq_makeRequest (r : Request) :
    ∃ requestSize request input out, IsService requestSize ∧
      0x18 + input.length ≤ requestSize.toNat ∧ ∀ buf heap,
        r.message buf heap = makeRequest requestSize r.destId request input out buf heap := by
  cases r with
  | devicePing destId => exact ⟨0x128, _, _, _, .inl rfl, by decide, fun _ _ => rfl⟩
  | getMacAddress destId out => exact ⟨0x128, _, _, _, .inl rfl, by decide, fun _ _ => rfl⟩
  | wpsStartEx args =>
    refine ⟨0x128, _, _, _, .inl rfl, ?_, fun _ _ => rfl⟩
    cases args with
    | none => decide
    | some args =>
      rw [Option.elim_some, List.length_ofFn]
      decide
  | startPairing pairDest timeout pin =>
    exact ⟨0x128, _, _, _, .inl rfl, Nat.le_of_ble_eq_true rfl, fun _ _ => rfl⟩
  | wpsStop => exact ⟨0x128, _, _, _, .inl rfl, by decide, fun _ _ => rfl⟩
  | wpsStatus out => exact ⟨0x128, _, _, _, .inl rfl, by decide, fun _ _ => rfl⟩
  | displayMessage destId args =>
    refine ⟨0x118, _, _, _, .inr (.inl rfl), ?_, fun _ _ => rfl⟩
    cases args with
    | none => decide
    | some args => simp
  | setLcdMute destId mute =>
    refine ⟨0x31c, _, _, _, .inr (.inr rfl), ?_, fun _ _ => rfl⟩
    cases mute <;> exact Nat.le_of_ble_eq_true rfl

/-- Without a destination that passes the check there is no message. -/
lemma message_of_not_validDest (buf : UInt32) (heap : Option Frame) {r : Request}
    (h : ¬ ValidDest r.destId) : r.message buf heap = .error (-0x11fff9) := by
  obtain ⟨requestSize, request, input, out, -, -, hmessage⟩ := message_eq_makeRequest r
  rw [hmessage, makeRequest_of_not_validDest h]

/-- **The vectors** of a message are behind the request, in the same allocation. -/
lemma vecs_of_message {buf : UInt32} {heap : Frame} {r : Request} {m : Message}
    (h : r.message buf (some heap) = .ok m) :
    m.buffer.length ≤ vecsOffset (.ofNat m.buffer.length) ∧
      vecsOffset (.ofNat m.buffer.length) + 12 * m.vecs.length ≤ 0x3a4 := by
  obtain ⟨requestSize, request, input, out, hservice, hinput, hmessage⟩ :=
    message_eq_makeRequest r
  by_cases hdest : ValidDest r.destId
  · rw [hmessage, makeRequest_eq hservice hinput hdest] at h
    obtain rfl := Except.ok.inj h
    have hlength : (bufferOf requestSize r.destId input).length = requestSize.toNat := by
      simp only [bufferOf, List.length_append, List.length_cons, List.length_replicate]
      omega
    obtain ⟨hbehind, hin, -⟩ := vecsOffset_bounds hservice
    rw [hlength, UInt32.ofNat_toNat]
    refine ⟨hbehind, ?_⟩
    rw [List.length_replicate]
    split_ifs <;> omega
  · rw [message_of_not_validDest buf _ hdest] at h
    cases h

/-- What is not in the message does not matter. -/
lemma message_normal (buf : UInt32) (heap heap' : Frame) (r : Request) :
    r.normal.message buf (some heap) = r.message buf (some heap') := by
  have hself : r.message buf (some heap) = r.message buf (some heap') := by
    obtain ⟨requestSize, request, input, out, hservice, hinput, hmessage⟩ :=
      message_eq_makeRequest r
    rw [hmessage, hmessage]
    exact makeRequest_congr hservice hinput hinput rfl _ _ _ _ _
  cases r with
  | wpsStartEx args =>
    cases args with
    | none =>
      rw [Request.normal, Request.message, Option.elim_some, Option.getD_none, List.ofFn_const]
      exact (makeRequest_congr (.inl rfl) (by decide) (Nat.le_of_ble_eq_true rfl)
        (bufferOf_replicate ccrDestDrh (n := 12) (by decide)) 0xce false buf heap' heap).symm
    | some args => exact hself
  | startPairing pairDest timeout pin =>
    rw [← hself, Request.normal, Request.message, Request.message, Option.elim_some,
      ofFn_argsIn rfl]
  | displayMessage destId args =>
    cases args with
    | none => exact (makeRequest_congr (.inr (.inl rfl)) (by decide) (Nat.le_of_ble_eq_true rfl)
        (bufferOf_replicate _ (n := 4) (by decide)) _ _ _ _ _).symm
    | some args => exact hself
  | setLcdMute destId mute =>
    cases mute with
    | none => exact (makeRequest_congr (.inr (.inr rfl)) (by decide) (Nat.le_of_ble_eq_true rfl)
        (bufferOf_replicate _ (n := 1) (by decide)) _ _ _ _ _).symm
    | some mute => exact hself
  | _ => exact hself

/-- **What a message says.** The call can be read from its message.

**Proof sketch.** A call has the same message as what it says, and there all arguments are
given. -/
lemma call_message (buf : UInt32) (heap : Frame) {r : Request} (h : ValidDest r.destId) :
    ∃ m, r.message buf (some heap) = .ok m ∧ m.call = some r.normal := by
  rw [← message_normal buf heap heap r]
  cases r with
  | devicePing destId =>
    refine ⟨_, makeRequest_eq (.inl rfl) (by decide) h _ _ buf heap, ?_⟩
    simp only [Message.call, getD_bufferOf]
    rw [toUInt32_toUInt8 h]
    rfl
  | getMacAddress destId out =>
    refine ⟨_, makeRequest_eq (.inl rfl) (by decide) h _ _ buf heap, ?_⟩
    simp only [Message.call, getD_bufferOf]
    rw [toUInt32_toUInt8 h]
    cases out <;> rfl
  | wpsStartEx args =>
    refine ⟨_, makeRequest_eq (.inl rfl) (by simp) validDest_drh _ _ buf heap, ?_⟩
    simp only [Message.call, drop_bufferOf, Option.elim_some, argsIn_ofFn_append]
    rfl
  | startPairing pairDest timeout pin =>
    refine ⟨_, makeRequest_eq (.inl rfl) (by simp) validDest_drh _ _ buf heap, ?_⟩
    simp only [Message.call, drop_bufferOf, Option.elim_some, argsIn_ofFn_append]
    rfl
  | wpsStop => exact ⟨_, makeRequest_eq (.inl rfl) (by decide) validDest_drh _ _ buf heap, rfl⟩
  | wpsStatus out =>
    refine ⟨_, makeRequest_eq (.inl rfl) (by decide) validDest_drh _ _ buf heap, ?_⟩
    cases out <;> rfl
  | displayMessage destId args =>
    refine ⟨_, makeRequest_eq (.inr (.inl rfl)) (by simp) h _ _ buf heap, ?_⟩
    simp only [Message.call, getD_bufferOf, drop_bufferOf, Request.normal, Option.some.injEq,
      Request.displayMessage.injEq, Option.elim_some]
    refine ⟨toUInt32_toUInt8 h, Prod.ext (halfIn_of_take_drop ?_) (halfIn_of_take_drop ?_)⟩
    · rw [List.drop_zero, List.append_assoc, List.take_left' (length_bytesOfHalf _)]
    · rw [List.append_assoc, List.drop_left' (length_bytesOfHalf _),
        List.take_left' (length_bytesOfHalf _)]
  | setLcdMute destId mute =>
    refine ⟨_, makeRequest_eq (.inr (.inr rfl)) (Nat.le_of_ble_eq_true rfl) h _ _ buf heap, ?_⟩
    simp only [Message.call, getD_bufferOf]
    rw [toUInt32_toUInt8 h]
    rfl

/-- What the message of a pairing says: one byte of its destination, the timeout and the pincode. -/
lemma asPairing_startPairing (pairDest : UInt32) (timeout : UInt16) (pin : Fin 4 → UInt8) :
    (Request.startPairing pairDest timeout pin).normal.asPairing =
      .startPairing pairDest.toUInt8.toUInt32 timeout pin := by
  rw [Request.normal, Request.asPairing, ofFn_argsIn rfl]
  refine congrArg₂ (Request.startPairing _)
    (halfIn_of_take_drop (bytesOfHalf_timeout timeout)) (funext fun i => ?_)
  rcases symbol_cases i with rfl | rfl | rfl | rfl
  · exact digit_sub (pin 0)
  · exact digit_sub (pin 1)
  · exact digit_sub (pin 2)
  · exact digit_sub (pin 3)

/-- Which pairings have the same message. -/
lemma startPairing_normal_eq_iff (pairDest : UInt32) (timeout : UInt16) (pin : Fin 4 → UInt8)
    (pairDest' : UInt32) (timeout' : UInt16) (pin' : Fin 4 → UInt8) :
    (Request.startPairing pairDest timeout pin).normal =
        (Request.startPairing pairDest' timeout' pin').normal ↔
      pairDest.toUInt8 = pairDest'.toUInt8 ∧ timeout = timeout' ∧ pin = pin' := by
  constructor
  · intro h
    have hread := congrArg Request.asPairing h
    rw [asPairing_startPairing, asPairing_startPairing, Request.startPairing.injEq] at hread
    obtain ⟨hdest, htimeout, hpin⟩ := hread
    exact ⟨UInt8.toUInt32_inj.mp hdest, htimeout, hpin⟩
  · rintro ⟨hdest, rfl, rfl⟩
    rw [Request.normal, Request.normal, pairingArgs, pairingArgs, hdest]

/-- **The messages to the controller.** Whatever the heap has held, two calls come to the same thing
exactly if they are the same call, where a pairing is a call of `CCRCDCWpsStartEx` and no arguments
are zeros, or if the destination of neither passes the check. Two pairings are the same if the low
byte of the destination, the timeout and the pincode are. If the destination does not pass, there is
an error and no message, and otherwise there is one. The vectors of a message are behind what the
device is handed, in the same allocation.

**Proof sketch.** The call can be read from its message. -/
theorem message_eq_message_iff (buf : UInt32) (heap heap' : Frame) (r r' : Request) :
    (r.message buf (some heap) = r'.message buf (some heap') ↔
      r.normal = r'.normal ∨ ¬ ValidDest r.destId ∧ ¬ ValidDest r'.destId) ∧
    (∀ pairDest timeout pin pairDest' timeout' pin',
      (Request.startPairing pairDest timeout pin).normal =
          (Request.startPairing pairDest' timeout' pin').normal ↔
        pairDest.toUInt8 = pairDest'.toUInt8 ∧ timeout = timeout' ∧ pin = pin') ∧
    (¬ ValidDest r.destId → r.message buf (some heap) = .error (-0x11fff9)) ∧
    (ValidDest r.destId → ∃ m, r.message buf (some heap) = .ok m) ∧
    ∀ m, r.message buf (some heap) = .ok m →
      m.buffer.length ≤ vecsOffset (.ofNat m.buffer.length) ∧
        vecsOffset (.ofNat m.buffer.length) + 12 * m.vecs.length ≤ 0x3a4 := by
  refine ⟨⟨fun h => ?_, ?_⟩, startPairing_normal_eq_iff, message_of_not_validDest buf _,
    fun hr => ?_, fun m => vecs_of_message⟩
  · by_cases hr : ValidDest r.destId
    · obtain ⟨m, hm, hcall⟩ := call_message buf heap hr
      by_cases hr' : ValidDest r'.destId
      · obtain ⟨m', hm', hcall'⟩ := call_message buf heap' hr'
        rw [hm, hm'] at h
        obtain rfl := Except.ok.inj h
        exact .inl (Option.some.inj (hcall.symm.trans hcall'))
      · rw [hm, message_of_not_validDest buf _ hr'] at h
        cases h
    · by_cases hr' : ValidDest r'.destId
      · obtain ⟨m', hm', -⟩ := call_message buf heap' hr'
        rw [hm', message_of_not_validDest buf _ hr] at h
        cases h
      · exact .inr ⟨hr, hr'⟩
  · rintro (h | ⟨hr, hr'⟩)
    · rw [← message_normal buf heap' heap r, h]
      exact message_normal buf heap' heap' r'
    · rw [message_of_not_validDest buf _ hr, message_of_not_validDest buf _ hr']
  · obtain ⟨m, hm, -⟩ := call_message buf heap hr
    exact ⟨m, hm⟩

/-! ## The pairing -/

/-- A digit that is read comes from its symbol. -/
lemma digit_eq_some_iff (p a : UInt8) : digit (0x30 + p) = some a ↔ p = a ∧ a < 4 := by
  have hcases : ∀ p : BitVec 8,
      (0x30 ≤ (0x30 : UInt8) + ⟨p⟩ ∧ (0x30 : UInt8) + ⟨p⟩ ≤ 0x33) ↔ (⟨p⟩ : UInt8) < 4 := by
    decide +kernel
  rw [digit, digit_sub]
  by_cases hp : p < 4
  · rw [if_pos ((hcases p.toBitVec).mpr hp), Option.some.injEq]
    constructor
    · rintro rfl
      exact ⟨rfl, hp⟩
    · exact fun h => h.1
  · rw [if_neg (mt (hcases p.toBitVec).mp hp)]
    constructor
    · intro h
      cases h
    · rintro ⟨rfl, h⟩
      exact absurd h hp

/-- The symbols of a byte. -/
lemma pincodeOf_lt (b : UInt8) (i : Fin 4) : pincodeOf b i < 4 := by
  have hcases : ∀ b : BitVec 8, ∀ i, pincodeOf ⟨b⟩ i < 4 := by decide +kernel
  exact hcases b.toBitVec i

/-- They make the byte. -/
lemma byteOfSymbols_pincodeOf (b : UInt8) :
    byteOfSymbols (pincodeOf b 0) (pincodeOf b 1) (pincodeOf b 2) (pincodeOf b 3) = b := by
  have hcases : ∀ b : BitVec 8, byteOfSymbols (pincodeOf ⟨b⟩ 0) (pincodeOf ⟨b⟩ 1)
      (pincodeOf ⟨b⟩ 2) (pincodeOf ⟨b⟩ 3) = ⟨b⟩ := by decide +kernel
  exact hcases b.toBitVec

/-- Symbols are those of the byte that they make. -/
lemma pincodeOf_byteOfSymbols {pin : Fin 4 → UInt8} (h : ∀ i, pin i < 4) :
    pincodeOf (byteOfSymbols (pin 0) (pin 1) (pin 2) (pin 3)) = pin := by
  have hcases : ∀ a b c d : Fin 4,
      let code := pincodeOf (byteOfSymbols (.ofNat a) (.ofNat b) (.ofNat c) (.ofNat d))
      code 0 = .ofNat a ∧ code 1 = .ofNat b ∧ code 2 = .ofNat c ∧ code 3 = .ofNat d := by
    decide +kernel
  have hsymbol (i : Fin 4) : ∃ a : Fin 4, UInt8.ofNat a = pin i :=
    ⟨⟨(pin i).toNat, h i⟩, UInt8.ofNat_toNat⟩
  obtain ⟨a, ha⟩ := hsymbol 0
  obtain ⟨b, hb⟩ := hsymbol 1
  obtain ⟨c, hc⟩ := hsymbol 2
  obtain ⟨d, hd⟩ := hsymbol 3
  obtain ⟨h₀, h₁, h₂, h₃⟩ := hcases a b c d
  rw [← ha, ← hb, ← hc, ← hd]
  funext i
  rcases symbol_cases i with rfl | rfl | rfl | rfl
  · exact h₀.trans ha
  · exact h₁.trans hb
  · exact h₂.trans hc
  · exact h₃.trans hd

/-- The byte that a request for a pairing sends back. -/
lemma pin_startPairing {m : Message} {buf : UInt32} {heap : Frame} {pairDest : UInt32}
    {timeout : UInt16} {pin : Fin 4 → UInt8}
    (hm : (Request.startPairing pairDest timeout pin).message buf (some heap) = .ok m)
    (b : UInt8) : m.pin = some b ↔ pin = pincodeOf b := by
  have hinput : 0x18 + (pairingArgs pairDest timeout pin).length ≤ (0x128 : UInt32).toNat :=
    Nat.le_of_ble_eq_true rfl
  have heq := Except.ok.inj
    (hm.symm.trans (makeRequest_eq (Or.inl rfl) hinput validDest_drh 0xce false buf heap))
  have hpin : m.pin = (digit (0x30 + pin 0)).bind fun a => (digit (0x30 + pin 1)).bind fun b =>
      (digit (0x30 + pin 2)).bind fun c => (digit (0x30 + pin 3)).bind fun d =>
        some (byteOfSymbols a b c d) := by
    rw [heq, Message.pin, drop_bufferOf]
    rfl
  rw [hpin]
  constructor
  · intro h
    obtain ⟨a, ha, h⟩ := Option.bind_eq_some_iff.mp h
    obtain ⟨a', ha', h⟩ := Option.bind_eq_some_iff.mp h
    obtain ⟨c, hc, h⟩ := Option.bind_eq_some_iff.mp h
    obtain ⟨d, hd, h⟩ := Option.bind_eq_some_iff.mp h
    obtain ⟨rfl, ha⟩ := (digit_eq_some_iff _ _).mp ha
    obtain ⟨rfl, ha'⟩ := (digit_eq_some_iff _ _).mp ha'
    obtain ⟨rfl, hc⟩ := (digit_eq_some_iff _ _).mp hc
    obtain ⟨rfl, hd⟩ := (digit_eq_some_iff _ _).mp hd
    have hlt (i : Fin 4) : pin i < 4 := by
      rcases symbol_cases i with rfl | rfl | rfl | rfl
      · exact ha
      · exact ha'
      · exact hc
      · exact hd
    rw [← Option.some.inj h, pincodeOf_byteOfSymbols hlt]
  · rintro rfl
    have hdigit (i : Fin 4) : digit (0x30 + pincodeOf b i) = some (pincodeOf b i) :=
      (digit_eq_some_iff _ _).mpr ⟨rfl, pincodeOf_lt b i⟩
    rw [hdigit, hdigit, hdigit, hdigit]
    exact congrArg some (byteOfSymbols_pincodeOf b)

/-- The pincode that `option_PairDRC` shows is the one in the last byte of the MAC address. -/
lemma pincodeRead_eq {r : PairDRC.Results} (h : r.getMacAddress = 0) :
    r.pincodeRead = List.ofFn (pincodeOf r.mac) := by
  rw [PairDRC.Results.pincodeRead, if_pos h]
  rfl

/-- **The pincode of a pairing.** Whatever the heap has held, both messages are sent, the device can
read the destination, the timeout and the pincode of the pairing, and it gets the byte back that it
has answered exactly if the pincode is the one that `CCRSysGetPincode` has given. This is the one
that `option_PairDRC` shows.

**Proof sketch.** The digits that are read are the symbols that were sent, and a byte is made of its
symbols. -/
theorem startPairing_accepted_iff (device : Message → ℤ × List UInt8) (buf buf' : UInt32)
    (heap heap' : Frame) (pairDest : UInt32) (timeout : UInt16) (pin : Fin 4 → UInt8) :
    ∃ mac m, (Request.getMacAddress ccrDestDrh true).message buf (some heap) = .ok mac ∧
      (Request.startPairing pairDest timeout pin).message buf' (some heap') = .ok m ∧
      m.read = some (.startPairing pairDest.toUInt8.toUInt32 timeout pin) ∧
      (ccrSysGetPincode device buf (some heap) = (0, some pin) ↔
        (device mac).1 = 0 ∧ m.pin = some (mac6Of (device mac).2)) ∧
      ∀ r : PairDRC.Results, r.getMacAddress = (device mac).1 → r.mac = mac6Of (device mac).2 →
        ccrSysGetPincode device buf (some heap) = (0, some pin) →
        r.pincodeRead = List.ofFn pin := by
  obtain ⟨mac, hmac, -⟩ := call_message buf heap (r := .getMacAddress ccrDestDrh true) validDest_drh
  obtain ⟨m, hm, hcall⟩ :=
    call_message buf' heap' (r := .startPairing pairDest timeout pin) validDest_drh
  have hread : m.read = some (.startPairing pairDest.toUInt8.toUInt32 timeout pin) := by
    rw [Message.read, hcall, Option.map_some, asPairing_startPairing]
  have hget : ccrSysGetPincode device buf (some heap) =
      if (device mac).1 = 0 then (0, some (pincodeOf (mac6Of (device mac).2)))
      else ((device mac).1, none) := by
    rw [ccrSysGetPincode, hmac]
  have hgiven : ccrSysGetPincode device buf (some heap) = (0, some pin) ↔
      (device mac).1 = 0 ∧ pin = pincodeOf (mac6Of (device mac).2) := by
    rw [hget]
    by_cases hres : (device mac).1 = 0
    · rw [if_pos hres]
      constructor
      · intro h
        exact ⟨hres, (Option.some.inj (Prod.ext_iff.mp h).2).symm⟩
      · rintro ⟨-, rfl⟩
        rfl
    · rw [if_neg hres]
      constructor
      · intro h
        exact absurd (Prod.ext_iff.mp h).1 hres
      · exact fun h => absurd h.1 hres
  refine ⟨mac, m, hmac, hm, hread, ?_, ?_⟩
  · rw [hgiven, pin_startPairing hm]
  · intro r hresult hbyte h
    obtain ⟨hres, hpin⟩ := hgiven.mp h
    rw [pincodeRead_eq (hresult.trans hres), hbyte, hpin]

end Ccr

end RecoveryMenu

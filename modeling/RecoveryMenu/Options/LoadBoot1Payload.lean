import Mathlib.Logic.Function.Basic
import RecoveryMenu.Utils.Crc32
import RecoveryMenu.Utils.Eeprom

set_option relaxedAutoImplicit false
set_option autoImplicit false

/-!
# The BOOT1 version check (`ios_mcp/source/options/LoadBoot1Payload.c`)

`loadBoot1Payload` reads the two BOOT1 parameter blocks from the SEEPROM, decrypts them,
determines the active one and goes on if its version is supported. The blocks are static: what a
call does not read it finds as an earlier call left it.

`readBoot1Params` returns `1` after the decryptions, whose results it drops, and the error of
`EEPROM_Read` otherwise; its caller takes every value but `0` for success.

## Main definitions

* `RecoveryMenu.LoadBoot1Payload.readBoot1Params`,
  `RecoveryMenu.LoadBoot1Payload.determineActiveBoot1Slot`: the functions.
* `RecoveryMenu.LoadBoot1Payload.checkBoot1Version`: `loadBoot1Payload` up to the version check.
* `RecoveryMenu.LoadBoot1Payload.Gated`: a call passes only if all its reads and decryptions
  succeeded.

## Main results

* `RecoveryMenu.LoadBoot1Payload.gated_iff`: when all calls of a sequence are `Gated`.
* `RecoveryMenu.LoadBoot1Payload.not_gated`: a call that reads nothing and passes on the blocks
  of the call before.

## References

* `ios_mcp/source/options/LoadBoot1Payload.c`, lines 12-20 and 84-177.
-/

namespace RecoveryMenu

namespace LoadBoot1Payload

open Crc32 Eeprom

/-! ## The parameter blocks -/

/-- `Boot1Params`, as the eight 16-bit words of its memory: the version, the sector, four
reserved words, and the two words of the checksum. -/
structure Boot1Params where
  words : List UInt16
  length_words : words.length = 8
  deriving DecidableEq, Repr

@[ext] lemma Boot1Params.ext {p q : Boot1Params} (h : p.words = q.words) : p = q := by
  cases p
  cases q
  simpa using h

/-- The two static blocks `boot1Params`. -/
structure Blocks where
  slot₀ : Boot1Params
  slot₁ : Boot1Params
  deriving DecidableEq, Repr

/-- `boot1Params[i]`. -/
def Blocks.get (p : Blocks) : Fin 2 → Boot1Params
  | 0 => p.slot₀
  | 1 => p.slot₁

/-- The word at an index. -/
def Boot1Params.word (p : Boot1Params) (i : Fin 8) : UInt16 :=
  p.words.get (i.cast p.length_words.symm)

/-- The field `version`. -/
def Boot1Params.version (p : Boot1Params) : UInt16 := p.word 0

/-- The field `crc`. -/
def Boot1Params.crc (p : Boot1Params) : UInt32 :=
  (p.word 6).toUInt32 <<< 16 ||| (p.word 7).toUInt32

/-- The memory of a block: big-endian words. -/
def Boot1Params.bytes (p : Boot1Params) : List UInt8 :=
  p.words.flatMap fun w : UInt16 => [(w >>> 8).toUInt8, w.toUInt8]

/-! ## Reading and checking the blocks -/

/-- What the SEEPROM and the crypto engine do during one call. -/
structure Call where
  /-- The result of `bspRead` for a word of the SEEPROM, and the word. -/
  bspRead : ℕ → ℤ × UInt16
  /-- The result of `IOSC_Decrypt` for block `i`, and what it leaves there. -/
  decrypt : Fin 2 → Boot1Params → ℤ × Boot1Params

/-- `EEPROM_Read(offset, 8, (uint16_t*)&boot1Params[i])`. -/
def readBlock (c : Call) (offset : ℕ) (p : Boot1Params) : ℤ × Boot1Params :=
  ((eepromRead c.bspRead offset 8 p.words).1,
    ⟨(eepromRead c.bspRead offset 8 p.words).2,
      (length_eepromRead c.bspRead offset (Nat.le_of_eq p.length_words.symm)).trans
        p.length_words⟩)

/-- What `readBoot1Params` did: its value, the blocks it left, and the results of the calls of
`EEPROM_Read` and `IOSC_Decrypt` it made, in order. -/
structure Reading where
  ret : ℤ
  blocks : Blocks
  results : List ℤ

/-- `readBoot1Params()`. -/
def readBoot1Params (c : Call) (p : Blocks) : Reading :=
  let read₀ := readBlock c 0xe8 p.slot₀
  let p := { p with slot₀ := read₀.2 }
  if read₀.1 ≠ 0 then ⟨read₀.1, p, [read₀.1]⟩
  else
    let read₁ := readBlock c 0xf0 p.slot₁
    let p := { p with slot₁ := read₁.2 }
    if read₁.1 ≠ 0 then ⟨read₁.1, p, [read₀.1, read₁.1]⟩
    else
      let decrypt₀ := c.decrypt 0 p.slot₀
      let p := { p with slot₀ := decrypt₀.2 }
      let decrypt₁ := c.decrypt 1 p.slot₁
      let p := { p with slot₁ := decrypt₁.2 }
      ⟨1, p, [read₀.1, read₁.1, decrypt₀.1, decrypt₁.1]⟩

/-- A block whose checksum is right. -/
def Boot1Params.Valid (p : Boot1Params) : Prop :=
  ~~~crc32 0xffffffff (p.bytes.take 0xc) = p.crc

instance (p : Boot1Params) : Decidable p.Valid :=
  inferInstanceAs (Decidable (~~~crc32 0xffffffff (p.bytes.take 0xc) = p.crc))

/-- `determineActiveBoot1Slot()`, with `none` for `-1`. -/
def determineActiveBoot1Slot (p : Blocks) : Option (Fin 2) :=
  let validMask : UInt32 := (if p.slot₀.Valid then 1 else 0) ||| (if p.slot₁.Valid then 2 else 0)
  if validMask = 0b01 then some 0
  else if validMask = 0b10 then some 1
  else if validMask = 0b11 then
    if p.slot₁.version > p.slot₀.version then some 1 else some 0
  else none

/-- How the version check of `loadBoot1Payload` ends. -/
inductive VersionCheck
  /-- "Failed to read boot1 parameters". -/
  | readFailed
  /-- "Failed to determine active boot1 version". -/
  | noActiveSlot
  /-- "Unsupported BOOT1 version". -/
  | unsupported (version : UInt16)
  /-- The call goes on and opens the payload file. -/
  | passed (slot : Fin 2) (version : UInt16) (boootInfoOffset : UInt32)
  deriving DecidableEq, Repr

/-- `loadBoot1Payload` up to its version check, with the blocks it leaves. -/
def checkBoot1Version (c : Call) (p : Blocks) : VersionCheck × Blocks :=
  let r := readBoot1Params c p
  if r.ret = 0 then (.readFailed, r.blocks)
  else match determineActiveBoot1Slot r.blocks with
    | none => (.noActiveSlot, r.blocks)
    | some slot =>
      let activeVersion := (r.blocks.get slot).version
      match activeVersion.toNat with
      | 8377 => (.passed slot activeVersion 0xaa6d, r.blocks)
      | _ => (.unsupported activeVersion, r.blocks)

/-- The calls of a sequence, each with the blocks it found. -/
def history : List Call → Blocks → List (Call × Blocks)
  | [], _ => []
  | c :: cs, p => (c, p) :: history cs (checkBoot1Version c p).2

/-- The call passes the version check. -/
def Passes (c : Call) (p : Blocks) : Prop :=
  ∃ slot version offset, (checkBoot1Version c p).1 = .passed slot version offset

/-- A call passes only if it made both reads and both decryptions, and all of them succeeded. -/
def Gated (c : Call) (p : Blocks) : Prop :=
  Passes c p → (readBoot1Params c p).results = [0, 0, 0, 0]

/-! ## What a call leaves in the blocks -/

/-- Where block `i` starts in the SEEPROM. -/
def blockOffset : Fin 2 → ℕ
  | 0 => 0xe8
  | 1 => 0xf0

/-- Every word of block `i` can be read. -/
def Call.Reads (c : Call) (i : Fin 2) : Prop := ∀ j < 8, 0 ≤ (c.bspRead (blockOffset i + j)).1

instance (c : Call) (i : Fin 2) : Decidable (c.Reads i) :=
  inferInstanceAs (Decidable (∀ j < 8, 0 ≤ (c.bspRead (blockOffset i + j)).1))

/-- Block `i` as the SEEPROM has it. -/
def Call.raw (c : Call) (i : Fin 2) : Boot1Params where
  words := (List.range' (blockOffset i) 8).map fun j => (c.bspRead j).2
  length_words := by simp

/-- An old block `i` overwritten by the words read before the first failure. -/
def Call.partly (c : Call) (i : Fin 2) (p : Boot1Params) : Boot1Params where
  words := delivered c.bspRead (blockOffset i) 8 ++
    p.words.drop (delivered c.bspRead (blockOffset i) 8).length
  length_words := by
    have hle := length_delivered_le c.bspRead (blockOffset i) 8
    rw [List.length_append, List.length_drop, p.length_words]
    omega

/-- Both blocks can be read, and decrypted. -/
def Call.Succeeds (c : Call) : Prop :=
  (c.Reads 0 ∧ c.Reads 1) ∧ (c.decrypt 0 (c.raw 0)).1 = 0 ∧ (c.decrypt 1 (c.raw 1)).1 = 0

/-- What a call leaves in the blocks: what the decryptions make of them where both blocks can be
read; otherwise the block up to the first failure overwritten, and the one after it as it
was. -/
def Call.leaves (c : Call) (p : Blocks) : Blocks :=
  if ¬ c.Reads 0 then ⟨c.partly 0 p.slot₀, p.slot₁⟩
  else if ¬ c.Reads 1 then ⟨c.raw 0, c.partly 1 p.slot₁⟩
  else ⟨(c.decrypt 0 (c.raw 0)).2, (c.decrypt 1 (c.raw 1)).2⟩

/-- The active slot of the blocks has the one supported version. -/
def Supported (p : Blocks) : Prop :=
  ∃ slot, determineActiveBoot1Slot p = some slot ∧ (p.get slot).version.toNat = 8377

/-- Both blocks lie inside the SEEPROM. -/
lemma blockOffset_le (i : Fin 2) : blockOffset i + 8 ≤ 0x100 := by
  match i with
  | 0 | 1 => decide

/-- The read of a block returns `0` iff every word of it can be read. -/
lemma readBlock_eq_zero_iff (c : Call) (i : Fin 2) (p : Boot1Params) :
    (readBlock c (blockOffset i) p).1 = 0 ↔ c.Reads i := by
  rw [readBlock, eepromRead_eq_zero_iff c.bspRead p.words (blockOffset_le i)]
  refine ⟨fun h j hj => h _ (by omega) (by omega), fun h j hle hlt => ?_⟩
  obtain ⟨k, rfl⟩ := Nat.exists_eq_add_of_le hle
  exact h k (by omega)

/-- The read of a block overwrites it by the words delivered. -/
lemma readBlock_block (c : Call) (i : Fin 2) (p : Boot1Params) :
    (readBlock c (blockOffset i) p).2 = c.partly i p := by
  simp only [readBlock, Call.partly, Boot1Params.mk.injEq]
  exact eepromRead_buf c.bspRead p.words (blockOffset_le i)

/-- Where every word can be read, nothing of the old block is left. -/
lemma partly_eq_raw {c : Call} {i : Fin 2} (h : c.Reads i) (p : Boot1Params) :
    c.partly i p = c.raw i := by
  have hdelivered : delivered c.bspRead (blockOffset i) 8 = (c.raw i).words := by
    refine delivered_eq fun j hle hlt => ?_
    obtain ⟨k, rfl⟩ := Nat.exists_eq_add_of_le hle
    exact h k (by omega)
  have hdrop : p.words.drop 8 = [] := List.drop_eq_nil_of_le (Nat.le_of_eq p.length_words)
  ext1
  simp only [Call.partly, hdelivered, (c.raw i).length_words, hdrop, List.append_nil]

/-- **What `readBoot1Params` does.** It never returns `0`; it leaves the blocks of
`Call.leaves`; and its calls all succeed iff the call `Succeeds`.

**Proof sketch.** By cases on which of the two reads returns `0`. -/
lemma readBoot1Params_spec (c : Call) (p : Blocks) :
    (readBoot1Params c p).ret ≠ 0 ∧ (readBoot1Params c p).blocks = c.leaves p ∧
      ((readBoot1Params c p).results = [0, 0, 0, 0] ↔ c.Succeeds) := by
  have hret₀ : (readBlock c 0xe8 p.slot₀).1 = 0 ↔ c.Reads 0 := readBlock_eq_zero_iff c 0 _
  have hret₁ : (readBlock c 0xf0 p.slot₁).1 = 0 ↔ c.Reads 1 := readBlock_eq_zero_iff c 1 _
  have hblock₀ : (readBlock c 0xe8 p.slot₀).2 = c.partly 0 p.slot₀ := readBlock_block c 0 _
  have hblock₁ : (readBlock c 0xf0 p.slot₁).2 = c.partly 1 p.slot₁ := readBlock_block c 1 _
  by_cases h₀ : c.Reads 0
  · rw [partly_eq_raw h₀] at hblock₀
    by_cases h₁ : c.Reads 1
    · rw [partly_eq_raw h₁] at hblock₁
      simp [readBoot1Params, Call.leaves, Call.Succeeds, hret₀.mpr h₀, hret₁.mpr h₁, hblock₀,
        hblock₁, h₀, h₁]
    · simp [readBoot1Params, Call.leaves, Call.Succeeds, hret₀.mpr h₀, hret₁, hblock₀, hblock₁,
        h₀, h₁]
  · simp [readBoot1Params, Call.leaves, Call.Succeeds, hret₀, hblock₀, h₀]

/-- A call passes iff the blocks it leaves are supported: the value of `readBoot1Params` does
not stop it. -/
lemma passes_iff (c : Call) (p : Blocks) : Passes c p ↔ Supported (c.leaves p) := by
  obtain ⟨hret, hblocks, -⟩ := readBoot1Params_spec c p
  simp only [Passes, Supported, checkBoot1Version, if_neg hret, hblocks]
  cases determineActiveBoot1Slot (c.leaves p) with
  | none => simp
  | some slot =>
    simp only [Option.some.injEq, exists_eq_left']
    by_cases hversion : ((c.leaves p).get slot).version.toNat = 8377
    · simp [hversion]
    · refine iff_of_false ?_ hversion
      split
      · next h => exact absurd h hversion
      · simp

/-- A call is `Gated` iff it `Succeeds` or leaves blocks that are not supported. -/
lemma gated_iff_of_call (c : Call) (p : Blocks) :
    Gated c p ↔ c.Succeeds ∨ ¬ Supported (c.leaves p) := by
  rw [Gated, passes_iff, (readBoot1Params_spec c p).2.2]
  by_cases h : c.Succeeds <;> simp [h]

/-- **When the version check gates a sequence of calls.** For every sequence of calls and all
results of the reads and decryptions in each, every call that passes made both reads and both
decryptions successfully iff each call of the sequence does so or leaves blocks without an
active slot of the supported version.

**Proof sketch.** By `passes_iff` a call passes iff the blocks it leaves are supported, whatever
`readBoot1Params` returned; what it leaves is `readBoot1Params_spec`. -/
theorem gated_iff (cs : List Call) (p : Blocks) :
    (∀ x ∈ history cs p, Gated x.1 x.2) ↔
      ∀ x ∈ history cs p, x.1.Succeeds ∨ ¬ Supported (x.1.leaves x.2) :=
  forall₂_congr fun x _ => gated_iff_of_call x.1 x.2

/-! ## Passing on stale blocks -/

/-- The blocks at the start of the program. -/
def initialBlocks : Blocks :=
  ⟨⟨[0, 0, 0, 0, 0, 0, 0, 0], rfl⟩, ⟨[0, 0, 0, 0, 0, 0, 0, 0], rfl⟩⟩

/-- A call in which everything succeeds, on a console with version 8377. -/
def goodCall : Call where
  bspRead _ := (0, 0x1234)
  decrypt _ _ := (0, ⟨[8377, 1, 0, 0, 0, 0, 0x5059, 0x49d2], rfl⟩)

/-- A call in which no word of the SEEPROM can be read. -/
def brokenCall : Call where
  bspRead _ := (-1, 0)
  decrypt _ p := (-1, p)

/-- The second call of a sequence finds the blocks that the first one left. -/
lemma gated_second {p : Blocks} (h : ∀ cs, ∀ x ∈ history cs p, Gated x.1 x.2) (c c' : Call) :
    Gated c' (checkBoot1Version c p).2 :=
  h [c, c'] (c', (checkBoot1Version c p).2) (List.mem_cons_of_mem _ List.mem_cons_self)

/-- A call that reads nothing passes the version check on the blocks of the call before. -/
theorem not_gated :
    ¬ ∀ cs : List Call, ∀ x ∈ history cs initialBlocks, Gated x.1 x.2 := by
  intro h
  have hpass : Passes brokenCall (checkBoot1Version goodCall initialBlocks).2 :=
    ⟨0, 8377, 0xaa6d, by decide +kernel⟩
  have hresults := (readBoot1Params_spec brokenCall _).2.2.mp
    (gated_second h goodCall brokenCall hpass)
  exact absurd hresults.1.1 (by decide)

end LoadBoot1Payload

end RecoveryMenu

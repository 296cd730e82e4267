import RecoveryMenu.Foundations.ArmBranch

set_option relaxedAutoImplicit false
set_option autoImplicit false

/-!
# The branch encoders of the kernel part (`ios_kernel/source/imports.h`)

The kernel part redirects code of the system by writing a branch over an instruction. The macros
that put the branch together take two addresses and mask the distance between them into the
opcode. Each one is the fields of its instruction (`ArmBranch`), field by field; the masks of
`THUMB_BL` also put bits of the distance over bits of the opcode, which are all set there.

## Main definitions

* `RecoveryMenu.Kernel.armB`, `RecoveryMenu.Kernel.armBl`, `RecoveryMenu.Kernel.thumbBl`.

## Main results

* `RecoveryMenu.Kernel.decode_branches`: what each encoder writes leads to its target.

## References

* `ios_kernel/source/imports.h`, lines 8-11.
* `ios_kernel/source/main.c`, lines 63-75.
-/

namespace RecoveryMenu

namespace Kernel

open ArmBranch

/-- The word of `ARM_B` and `ARM_BL` for an opcode: the distance in words, masked into it. -/
def armBranch (opcode addr func : UInt32) : UInt32 :=
  opcode ||| (((func - addr - 8) >>> 2) &&& 0x00FFFFFF)

/-- `ARM_B`. -/
def armB (addr func : UInt32) : UInt32 := armBranch 0xEA000000 addr func

/-- `ARM_BL`. -/
def armBl (addr func : UInt32) : UInt32 := armBranch 0xEB000000 addr func

/-- The word of `THUMB_BL` for a distance: the prefix in the high half, the suffix in the low
half. -/
def thumbBlOf (distance : UInt32) : UInt32 :=
  (0xF000F800 : UInt32) ||| ((distance >>> 1) &&& (0x0FFF : UInt32)) |||
    ((distance <<< 4) &&& (0x7FFF000 : UInt32))

/-- `THUMB_BL`. -/
def thumbBl (addr func : UInt32) : UInt32 := thumbBlOf (func - addr - 4)

/-- The first halfword of a word in memory. -/
def highHalf (w : UInt32) : BitVec 16 := w.toBitVec.extractLsb' 16 16

/-- The second halfword of a word in memory. -/
def lowHalf (w : UInt32) : BitVec 16 := w.toBitVec.extractLsb' 0 16

/-! ## The 32-bit branches -/

/-- The fields of a 32-bit branch: those of its opcode, and the distance in words.

**Proof sketch.** The mask is zero over the opcode and one over the offset, where the opcode has
no bit. -/
theorem decode_armBranch {opcode : UInt32} (addr func : UInt32)
    (hlow : opcode.toBitVec.extractLsb' 0 24 = 0)
    (hop : opcode.toBitVec.extractLsb' 25 3 = 0b101#3)
    (hcond : opcode.toBitVec.extractLsb' 28 4 = always) :
    decode (armBranch opcode addr func).toBitVec =
      some ⟨always, opcode.toBitVec.getLsbD 24, (func - addr - 8).toBitVec.extractLsb' 2 24⟩ := by
  have hword : (armBranch opcode addr func).toBitVec =
      opcode.toBitVec ||| (((func - addr - 8).toBitVec >>> 2) &&& 0x00FFFFFF#32) := rfl
  have hlink : ∀ x : BitVec 32, (x &&& 0x00FFFFFF#32).getLsbD 24 = false := by
    intro x
    rw [BitVec.getLsbD_and]
    exact Bool.and_false _
  rw [hword, decode, extract_masked_zero (by decide), extract_masked_zero (by decide),
    extract_masked_ones hlow (by decide), extract_ushiftRight, hop, hcond, if_pos (by decide),
    BitVec.getLsbD_or, hlink, Bool.or_false]

/-- The distance behind the instructions already fetched leads back to the target. -/
lemma add_distance (addr func k : UInt32) :
    addr.toBitVec + k.toBitVec + (func - addr - k).toBitVec = func.toBitVec := by
  rw [UInt32.toBitVec_sub, UInt32.toBitVec_sub]
  grind

/-- A 32-bit branch between word-aligned addresses in reach leads to its target. -/
theorem target_armBranch {addr func : UInt32} (ha : addr.toNat % 4 = 0) (hf : func.toNat % 4 = 0)
    (hreach : InReach 25 (func - addr - 8).toBitVec) (link : Bool) :
    Branch.target ⟨always, link, (func - addr - 8).toBitVec.extractLsb' 2 24⟩ addr.toBitVec =
      func.toBitVec := by
  have haligned : (func - addr - 8).toBitVec.toNat % 4 = 0 := by
    rw [UInt32.toNat_toBitVec, UInt32.toNat_sub, UInt32.toNat_sub]
    simp only [UInt32.reduceToNat]
    omega
  rw [Branch.target, signExtend_wordOffset haligned hreach]
  exact add_distance addr func 8

/-! ## The Thumb branch -/

/-- The word of `THUMB_BL`, as bits. -/
lemma toBitVec_thumbBlOf (d : UInt32) :
    (thumbBlOf d).toBitVec =
      0xF000F800#32 ||| ((d.toBitVec >>> 1) &&& 0x0FFF#32) |||
        ((d.toBitVec <<< 4) &&& 0x7FFF000#32) := rfl

/-- The prefix of `THUMB_BL` has the high bits of the distance. -/
theorem thumbHigh_thumbBlOf (d : UInt32) (pc : BitVec 32) :
    thumbHigh (highHalf (thumbBlOf d)) pc =
      some (pc + (d.toBitVec.extractLsb' 12 11).signExtend 32 <<< 12) := by
  have hop : (highHalf (thumbBlOf d)).extractLsb' 11 5 = 0b11110#5 := by
    rw [highHalf, extract_extract _ _ (by omega), toBitVec_thumbBlOf,
      extract_masked_zero (by decide), extract_masked_zero (by decide)]
    decide
  have hzero : (0xF000F800#32 ||| ((d.toBitVec >>> 1) &&& 0x0FFF#32)).extractLsb' 16 11 = 0 := by
    rw [extract_masked_zero (by decide)]
    decide
  have hoffset : (highHalf (thumbBlOf d)).extractLsb' 0 11 = d.toBitVec.extractLsb' 12 11 := by
    rw [highHalf, extract_extract _ _ (by omega), toBitVec_thumbBlOf,
      extract_masked_ones hzero (by decide), extract_shiftLeft _ (by decide) (by decide)]
  rw [thumbHigh, if_pos hop, hoffset]

/-- The suffix of `THUMB_BL` has the low bits of the distance. Bits 8 to 12 of the distance also
fall on the opcode of the suffix.

**Proof sketch.** The opcode is all ones, so nothing that is put over it changes it. -/
theorem thumbLow_thumbBlOf (d : UInt32) (lr : BitVec 32) :
    thumbLow (lowHalf (thumbBlOf d)) lr =
      some (lr + (d.toBitVec.extractLsb' 1 11).setWidth 32 <<< 1) := by
  have hop : (lowHalf (thumbBlOf d)).extractLsb' 11 5 = 0b11111#5 := by
    rw [lowHalf, extract_extract _ _ (by omega), toBitVec_thumbBlOf]
    exact extract_or_ones (extract_or_ones (by decide) _) _
  have hoffset : (lowHalf (thumbBlOf d)).extractLsb' 0 11 = d.toBitVec.extractLsb' 1 11 := by
    rw [lowHalf, extract_extract _ _ (by omega), toBitVec_thumbBlOf,
      extract_masked_zero (by decide), extract_masked_ones (by decide) (by decide),
      extract_ushiftRight]
  rw [thumbLow, if_pos hop, hoffset]

/-- The pair of `THUMB_BL` between halfword-aligned addresses in reach leads to its target. -/
theorem thumbTarget_thumbBl {addr func : UInt32} (ha : addr.toNat % 2 = 0)
    (hf : func.toNat % 2 = 0) (hreach : InReach 22 (func - addr - 4).toBitVec) :
    thumbTarget (highHalf (thumbBl addr func)) (lowHalf (thumbBl addr func)) addr.toBitVec =
      some func.toBitVec := by
  have haligned : (func - addr - 4).toBitVec.toNat % 2 = 0 := by
    rw [UInt32.toNat_toBitVec, UInt32.toNat_sub, UInt32.toNat_sub]
    simp only [UInt32.reduceToNat]
    omega
  rw [thumbTarget, thumbBl, thumbHigh_thumbBlOf, Option.bind_some, thumbLow_thumbBlOf,
    BitVec.add_assoc, thumb_offset haligned hreach]
  exact congrArg some (add_distance addr func 4)

/-! ## All encoders -/

/-- **The branch encoders.** For all addresses, whatever the distance is modulo `2 ^ 32`: between
word-aligned addresses in reach, `ARM_B` and `ARM_BL` are branches that are always taken, without
and with a return address, and lead to the target; between halfword-aligned addresses in reach,
the halves of `THUMB_BL` are the prefix and the suffix of a branch that leads to the target. -/
theorem decode_branches (addr func : UInt32) :
    (addr.toNat % 4 = 0 → func.toNat % 4 = 0 → InReach 25 (func - addr - 8).toBitVec →
      (∃ b, decode (armB addr func).toBitVec = some b ∧ b.cond = always ∧ b.link = false ∧
        b.target addr.toBitVec = func.toBitVec) ∧
      (∃ b, decode (armBl addr func).toBitVec = some b ∧ b.cond = always ∧ b.link = true ∧
        b.target addr.toBitVec = func.toBitVec)) ∧
    (addr.toNat % 2 = 0 → func.toNat % 2 = 0 → InReach 22 (func - addr - 4).toBitVec →
      thumbTarget (highHalf (thumbBl addr func)) (lowHalf (thumbBl addr func)) addr.toBitVec =
        some func.toBitVec) := by
  refine ⟨fun ha hf hreach => ⟨?_, ?_⟩, thumbTarget_thumbBl⟩
  · exact ⟨_, decode_armBranch addr func (by decide) (by decide) (by decide), rfl, rfl,
      target_armBranch ha hf hreach _⟩
  · exact ⟨_, decode_armBranch addr func (by decide) (by decide) (by decide), rfl, rfl,
      target_armBranch ha hf hreach _⟩

/-- The hook over the ioctl of MCP, and a backward branch of the kernel part. -/
theorem decode_branches_backward :
    (∃ b, decode (armB 0x0812dd68 0x08120000).toBitVec = some b ∧ b.cond = always ∧
      b.link = false ∧ b.target 0x0812dd68#32 = 0x08120000#32) ∧
    thumbTarget (highHalf (thumbBl 0x05025242 0x050bd000))
        (lowHalf (thumbBl 0x05025242 0x050bd000)) 0x05025242#32 =
      some 0x050bd000#32 :=
  ⟨((decode_branches 0x0812dd68 0x08120000).1 (by decide) (by decide) (by decide)).1,
    (decode_branches 0x05025242 0x050bd000).2 (by decide) (by decide) (by decide)⟩

end Kernel

end RecoveryMenu

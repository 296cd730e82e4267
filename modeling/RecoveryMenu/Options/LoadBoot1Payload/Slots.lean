import RecoveryMenu.Options.LoadBoot1Payload.ActiveSlot
import RecoveryMenu.Utils.Crc32.Burst

set_option relaxedAutoImplicit false
set_option autoImplicit false

/-!
# Which slot is active (`ios_mcp/source/options/LoadBoot1Payload.c`)

`determineActiveBoot1Slot` only takes a slot whose block has the right checksum. A burst error in
the first twelve bytes of a block changes their checksum, and so the slot is not taken.

## Main definitions

* `RecoveryMenu.LoadBoot1Payload.CorruptedTo`: a burst error in a block.

## Main results

* `RecoveryMenu.LoadBoot1Payload.burstErrors_detected`: such a block is not valid any more.

## References

* `ios_mcp/source/options/LoadBoot1Payload.c`, lines 113-140.
* `ios_mcp/source/utils.c`, lines 205-221.
-/

namespace RecoveryMenu

namespace LoadBoot1Payload

open Crc32

/-- A block after a burst error in its first twelve bytes, which leaves the stored checksum. -/
structure CorruptedTo (p q : Boot1Params) : Prop where
  crc : q.crc = p.crc
  burstError : BurstError (p.bytes.take 0xc) (q.bytes.take 0xc)

/-- The memory of a block has sixteen bytes. -/
lemma Boot1Params.length_bytes (p : Boot1Params) : p.bytes.length = 0x10 := by
  simp [Boot1Params.bytes, List.length_flatMap, p.length_words]

/-- The slot that is taken has a valid block. -/
lemma valid_of_determineActiveBoot1Slot {p : Blocks} {slot : Fin 2}
    (h : determineActiveBoot1Slot p = some slot) : (p.get slot).Valid :=
  (determineActiveBoot1Slot_eq_some_iff.mp h).candidate

/-- A block that was valid before the burst error is not valid any more. -/
lemma CorruptedTo.not_valid {p q : Boot1Params} (h : CorruptedTo p q) (hp : p.Valid) :
    ¬ q.Valid := by
  intro hq
  have hlength : (p.bytes.take 0xc).length = (q.bytes.take 0xc).length := by
    rw [List.length_take, List.length_take, p.length_bytes, q.length_bytes]
  have hcrc : ~~~crc32 0xffffffff (p.bytes.take 0xc) = ~~~crc32 0xffffffff (q.bytes.take 0xc) :=
    hp.trans (h.crc.symm.trans hq.symm)
  exact crc32_ne_of_burstError hlength h.burstError _ (UInt32.not_inj.mp hcrc)

/-- **Burst errors are detected.** For every seed, byte strings of the same length that differ, but
only within 32 successive bits, have different checksums. So a valid block is not valid after a
burst error in its first twelve bytes, and its slot is not taken, whatever the other block is.

**Proof sketch.** `crc32_ne_of_burstError`, and `valid_of_determineActiveBoot1Slot` for the slot. -/
theorem burstErrors_detected :
    (∀ (seed : UInt32) (a b : List UInt8), a.length = b.length → BurstError a b →
      crc32 seed a ≠ crc32 seed b) ∧
    ∀ p q : Boot1Params, p.Valid → CorruptedTo p q →
      ¬ q.Valid ∧ ∀ (blocks : Blocks) (slot : Fin 2), blocks.get slot = q →
        determineActiveBoot1Slot blocks ≠ some slot := by
  refine ⟨fun seed a b hlength h => crc32_ne_of_burstError hlength h seed, ?_⟩
  intro p q hp hcorrupted
  have hq := hcorrupted.not_valid hp
  refine ⟨hq, ?_⟩
  rintro blocks slot rfl hslot
  exact hq (valid_of_determineActiveBoot1Slot hslot)

/-- A block with version 8377 and the given sector, and the checksum for sector 1. -/
def blockOfSector (sector : UInt16) : Boot1Params :=
  ⟨[8377, sector, 0, 0, 0, 0, 0x5059, 0x49d2], rfl⟩

/-- Two bits of the sector are wrong. -/
lemma corruptedTo_blockOfSector : CorruptedTo (blockOfSector 1) (blockOfSector 2) where
  crc := rfl
  burstError := by
    refine ⟨by decide, 24, fun k hk => ?_⟩
    have hsame : ∀ j < 96, ¬ (24 ≤ j ∧ j < 56) →
        (bits ((blockOfSector 1).bytes.take 0xc))[j]? =
          (bits ((blockOfSector 2).bytes.take 0xc))[j]? := by decide +kernel
    by_contra hout
    rcases Nat.lt_or_ge k 96 with hlt | hge
    · exact hk (hsame k hlt hout)
    · apply hk
      rw [List.getElem?_eq_none, List.getElem?_eq_none]
      · rw [length_bits]
        exact hge
      · rw [length_bits]
        exact hge

/-- Slot 0 is not taken with two wrong bits in its sector. -/
theorem burstErrors_detected_sector :
    crc32 0 [0x00] ≠ crc32 0 [0x80] ∧ ¬ (blockOfSector 2).Valid ∧
      determineActiveBoot1Slot ⟨blockOfSector 2, blockOfSector 1⟩ ≠ some 0 := by
  have hblock := burstErrors_detected.2 (blockOfSector 1) (blockOfSector 2) (by decide +kernel)
    corruptedTo_blockOfSector
  refine ⟨burstErrors_detected.1 0 [0x00] [0x80] rfl ⟨by decide, 7, fun k hk => ?_⟩, hblock.1,
    hblock.2 ⟨blockOfSector 2, blockOfSector 1⟩ 0 rfl⟩
  have hle : 7 ≤ k := by
    by_contra hlt
    have hsame : ∀ j < 7, (bits [0x00])[j]? = (bits [0x80])[j]? := by decide +kernel
    exact hk (hsame k (Nat.not_le.mp hlt))
  have hlt : k < 8 := by
    by_contra hge
    apply hk
    rw [List.getElem?_eq_none, List.getElem?_eq_none]
    · exact Nat.not_lt.mp hge
    · exact Nat.not_lt.mp hge
  omega

end LoadBoot1Payload

end RecoveryMenu

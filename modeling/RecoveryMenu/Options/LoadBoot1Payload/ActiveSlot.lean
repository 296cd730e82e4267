import Mathlib.Order.Fin.Basic
import Mathlib.Order.Nat
import RecoveryMenu.Foundations.Selection
import RecoveryMenu.Options.LoadBoot1Payload

set_option relaxedAutoImplicit false
set_option autoImplicit false

/-!
# The choice of the slot (`ios_mcp/source/options/LoadBoot1Payload.c`)

Of the two BOOT1 parameter blocks, `determineActiveBoot1Slot` takes one with the right checksum,
the one with the newer version if both checksums are right, and slot 0 if the versions are the
same too. What a block with a wrong checksum holds does not matter.

## Main definitions

* `RecoveryMenu.LoadBoot1Payload.Blocks.Newest`: the slot with the newest valid block.
* `RecoveryMenu.LoadBoot1Payload.Blocks.set`: one of the blocks replaced.

## Main results

* `RecoveryMenu.LoadBoot1Payload.determineActiveBoot1Slot_eq_some_iff`: the slot that is taken.
* `RecoveryMenu.LoadBoot1Payload.passes_iff_newest`: what passes the version check.
* `RecoveryMenu.LoadBoot1Payload.determineActiveBoot1Slot_choice`: when there is none, which one
  it is, and what it does not depend on.

## References

* `ios_mcp/source/options/LoadBoot1Payload.c`, lines 12-20 and 113-140.
* `ios_mcp/source/utils.c`, lines 205-221.
-/

namespace RecoveryMenu

namespace LoadBoot1Payload

open Selection

/-! ## The newest valid block -/

/-- The slot with the newest valid block, slot 0 of two with the same version. -/
def Blocks.Newest (p : Blocks) (slot : Fin 2) : Prop :=
  FirstMax (fun i => (p.get i).Valid) (fun i => (p.get i).version.toNat) slot

/-- `boot1Params[i] = q`. -/
def Blocks.set (p : Blocks) (i : Fin 2) (q : Boot1Params) : Blocks :=
  match i with
  | 0 => { p with slot₀ := q }
  | 1 => { p with slot₁ := q }

@[simp] lemma Blocks.get_set (p : Blocks) (i j : Fin 2) (q : Boot1Params) :
    (p.set i q).get j = if j = i then q else p.get j := by
  match i, j with
  | 0, 0 => rfl
  | 0, 1 => rfl
  | 1, 0 => rfl
  | 1, 1 => rfl

/-- Slot 0 has the newest valid block if it is valid, and if slot 1 is not a newer valid one. -/
lemma newest_zero {p : Blocks} (h₀ : p.slot₀.Valid)
    (h : p.slot₁.Valid → ¬ p.slot₁.version > p.slot₀.version) : p.Newest 0 := by
  refine ⟨h₀, ?_, fun j _ _ => Fin.zero_le j⟩
  rintro ⟨_ | _ | j, hj⟩ hvalid
  · exact le_rfl
  · exact Nat.le_of_not_lt (h hvalid)
  · exact absurd hj (by omega)

/-- Slot 1 has the newest valid block if it is valid, and if slot 0 is not valid or is older. -/
lemma newest_one {p : Blocks} (h₁ : p.slot₁.Valid)
    (h : p.slot₀.Valid → p.slot₁.version > p.slot₀.version) : p.Newest 1 := by
  refine ⟨h₁, ?_, ?_⟩
  · rintro ⟨_ | _ | j, hj⟩ hvalid
    · exact Nat.le_of_lt (h hvalid)
    · exact le_rfl
    · exact absurd hj (by omega)
  · rintro ⟨_ | _ | j, hj⟩ hvalid heq
    · exact absurd heq (Nat.ne_of_lt (h hvalid))
    · exact le_rfl
    · exact absurd hj (by omega)

/-! ## The slot that is taken -/

/-- Either no slot is taken and neither block is valid, or the slot that is taken has the newest
valid block.

**Proof sketch.** The four cases of the checksums, and with both right the two of the versions. -/
lemma determineActiveBoot1Slot_cases (p : Blocks) :
    (determineActiveBoot1Slot p = none ∧ ∀ i, ¬ (p.get i).Valid) ∨
      ∃ slot, determineActiveBoot1Slot p = some slot ∧ p.Newest slot := by
  unfold determineActiveBoot1Slot
  by_cases h₀ : p.slot₀.Valid
  · by_cases h₁ : p.slot₁.Valid
    · rw [if_pos h₀, if_pos h₁]
      by_cases hnewer : p.slot₁.version > p.slot₀.version
      · rw [if_pos hnewer]
        exact Or.inr ⟨1, rfl, newest_one h₁ fun _ => hnewer⟩
      · rw [if_neg hnewer]
        exact Or.inr ⟨0, rfl, newest_zero h₀ fun _ => hnewer⟩
    · rw [if_pos h₀, if_neg h₁]
      exact Or.inr ⟨0, rfl, newest_zero h₀ fun hvalid => absurd hvalid h₁⟩
  · by_cases h₁ : p.slot₁.Valid
    · rw [if_neg h₀, if_pos h₁]
      exact Or.inr ⟨1, rfl, newest_one h₁ fun hvalid => absurd hvalid h₀⟩
    · rw [if_neg h₀, if_neg h₁]
      exact Or.inl ⟨rfl, Fin.forall_fin_two.mpr ⟨h₀, h₁⟩⟩

/-- **The active slot.** A slot is taken exactly if it has the newest valid block.

**Proof sketch.** If there is a newest valid block, then some slot is taken. It has the newest
valid block too, and there is only one. -/
theorem determineActiveBoot1Slot_eq_some_iff {p : Blocks} {slot : Fin 2} :
    determineActiveBoot1Slot p = some slot ↔ p.Newest slot := by
  constructor
  · intro h
    rcases determineActiveBoot1Slot_cases p with ⟨hnone, -⟩ | ⟨slot', htaken, hnewest⟩
    · rw [hnone] at h
      cases h
    · rw [htaken] at h
      obtain rfl : slot' = slot := Option.some.inj h
      exact hnewest
  · intro h
    rcases determineActiveBoot1Slot_cases p with ⟨-, hvalid⟩ | ⟨slot', htaken, hnewest⟩
    · exact absurd h.candidate (hvalid slot)
    · rw [htaken, hnewest.unique h]

/-- No slot is taken exactly if neither block is valid. -/
theorem determineActiveBoot1Slot_eq_none_iff {p : Blocks} :
    determineActiveBoot1Slot p = none ↔ ∀ i, ¬ (p.get i).Valid := by
  rcases determineActiveBoot1Slot_cases p with ⟨hnone, hvalid⟩ | ⟨slot, htaken, hnewest⟩
  · exact iff_of_true hnone hvalid
  · rw [htaken]
    exact iff_of_false (Option.some_ne_none slot) fun h => h slot hnewest.candidate

/-- The version check passes exactly if the newest valid block has the supported version. -/
theorem passes_iff_newest (c : Call) (p : Blocks) :
    Passes c p ↔
      ∃ slot, (c.leaves p).Newest slot ∧ ((c.leaves p).get slot).version.toNat = 8377 := by
  rw [passes_iff, Supported]
  simp only [determineActiveBoot1Slot_eq_some_iff]

/-- A newest valid block stays the newest if a block that is not valid is replaced by another
one. -/
lemma Blocks.Newest.set {p : Blocks} {slot i : Fin 2} {q : Boot1Params} (h : p.Newest slot)
    (hi : ¬ (p.get i).Valid) (hq : ¬ q.Valid) : (p.set i q).Newest slot := by
  refine FirstMax.congr h (fun j => ?_) fun j hj => ?_
  · rw [Blocks.get_set]
    split_ifs with heq
    · exact iff_of_false (heq ▸ hi) hq
    · exact Iff.rfl
  · have hne : j ≠ i := fun heq => hi (heq ▸ hj)
    rw [Blocks.get_set, if_neg hne]

/-- **Slot choice.** No slot is taken exactly if neither checksum is right. A slot is taken exactly
if its checksum is right, no other slot with the right checksum has a newer version, and none in
front of it has the same. A block with a wrong checksum may be replaced by any other such block.

**Proof sketch.** All three are properties of the newest valid block, which is unique and for
which blocks that are not valid do not matter. -/
theorem determineActiveBoot1Slot_choice (p : Blocks) :
    (determineActiveBoot1Slot p = none ↔ ∀ i, ¬ (p.get i).Valid) ∧
    (∀ slot, determineActiveBoot1Slot p = some slot ↔
      (p.get slot).Valid ∧ ∀ j, (p.get j).Valid →
        ¬ (p.get j).version > (p.get slot).version ∧
          ((p.get j).version = (p.get slot).version → slot ≤ j)) ∧
    ∀ i q, ¬ (p.get i).Valid → ¬ q.Valid →
      determineActiveBoot1Slot (p.set i q) = determineActiveBoot1Slot p := by
  refine ⟨determineActiveBoot1Slot_eq_none_iff, fun slot => ?_, fun i q hi hq => ?_⟩
  · rw [determineActiveBoot1Slot_eq_some_iff]
    constructor
    · intro h
      exact ⟨h.candidate, fun j hj => ⟨Nat.not_lt.mpr (h.key_le j hj),
        fun heq => h.first j hj (congrArg UInt16.toNat heq)⟩⟩
    · rintro ⟨hvalid, h⟩
      exact ⟨hvalid, fun j hj => Nat.not_lt.mp (h j hj).1,
        fun j hj heq => (h j hj).2 (UInt16.toNat_inj.mp heq)⟩
  · rcases determineActiveBoot1Slot_cases p with ⟨hnone, hvalid⟩ | ⟨slot, htaken, hnewest⟩
    · rw [hnone, determineActiveBoot1Slot_eq_none_iff]
      intro j
      rw [Blocks.get_set]
      split_ifs
      · exact hq
      · exact hvalid j
    · rw [htaken]
      exact determineActiveBoot1Slot_eq_some_iff.mpr (hnewest.set hi hq)

/-- A block with version 8377 and its checksum. -/
def newBlock : Boot1Params := ⟨[8377, 0, 0, 0, 0, 0, 0x4722, 0x5d91], rfl⟩

/-- A block with version 8296 and its checksum. -/
def oldBlock : Boot1Params := ⟨[8296, 0, 0, 0, 0, 0, 0x89f3, 0x6aea], rfl⟩

/-- A block whose words all have the same value. -/
def filledBlock (w : UInt16) : Boot1Params := ⟨List.replicate 8 w, List.length_replicate⟩

/-- Slot 1 has the newer version, and slot 0 does not matter when it is not valid. -/
theorem determineActiveBoot1Slot_choice_versions :
    ¬ oldBlock.version > newBlock.version ∧
      determineActiveBoot1Slot ⟨filledBlock 0, oldBlock⟩ =
        determineActiveBoot1Slot ⟨filledBlock 0xffff, oldBlock⟩ := by
  have htaken : determineActiveBoot1Slot ⟨oldBlock, newBlock⟩ = some 1 := by decide +kernel
  have hchoice := ((determineActiveBoot1Slot_choice ⟨oldBlock, newBlock⟩).2.1 1).mp htaken
  have hreplaced := (determineActiveBoot1Slot_choice ⟨filledBlock 0xffff, oldBlock⟩).2.2 0
    (filledBlock 0) (by decide +kernel) (by decide +kernel)
  exact ⟨(hchoice.2 0 (by decide +kernel)).1, hreplaced⟩

end LoadBoot1Payload

end RecoveryMenu

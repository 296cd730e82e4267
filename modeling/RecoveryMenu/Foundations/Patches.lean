import RecoveryMenu.Foundations.ByteMemory

set_option relaxedAutoImplicit false
set_option autoImplicit false

/-!
# Patches of a memory

A program that prepares a memory for another one writes runs of bytes to it, one after another. If
no two of them have an address in common and none of them wraps, each run is found where it was
written, and everything else is as it was.

## Main definitions

* `ByteMemory.Patch`: a run of bytes and its address; `ByteMemory.Memory.patch`: the memory with all
  of them.
* `ByteMemory.Patch.Contains`, `ByteMemory.Patch.Apart`: the addresses of a patch.

## Main results

* `ByteMemory.Memory.patch_of_not_contains`: what no patch writes.
* `ByteMemory.Memory.patch_of_contains`: what a patch writes.
* `ByteMemory.Memory.word_patch`: a patch of one word.
-/

namespace ByteMemory

/-- A run of bytes, and the address it is written to. -/
structure Patch where
  addr : UInt32
  bytes : List UInt8

namespace Patch

/-- The address `x` is one of those that the patch writes, if it does not wrap. -/
def Contains (p : Patch) (x : UInt32) : Prop :=
  p.addr.toNat ≤ x.toNat ∧ x.toNat < p.addr.toNat + p.bytes.length

/-- Two patches have no address in common. -/
def Apart (p q : Patch) : Prop :=
  p.addr.toNat + p.bytes.length ≤ q.addr.toNat ∨ q.addr.toNat + q.bytes.length ≤ p.addr.toNat

/-- A word, at an address. -/
def word (addr w : UInt32) : Patch := ⟨addr, bytesOfWord w⟩

/-- Zeros, from an address on. -/
def zeros (addr size : UInt32) : Patch := ⟨addr, List.replicate size.toNat 0⟩

end Patch

namespace Memory

variable (m : Memory)

/-- The memory with all patches, the first one first. -/
def patch (ps : List Patch) : Memory := ps.foldl (fun m p => m.store p.addr p.bytes) m

/-- A patch, and then the others. -/
theorem patch_cons (p : Patch) (ps : List Patch) :
    m.patch (p :: ps) = (m.store p.addr p.bytes).patch ps := rfl

/-- An address that a store does not write. -/
theorem store_of_not_contains {p : Patch} (hwrap : p.addr.toNat + p.bytes.length ≤ 2 ^ 32)
    {x : UInt32} (h : ¬ p.Contains x) : m.store p.addr p.bytes x = m x := by
  have hx := x.toNat_lt
  apply store_of_le
  rw [UInt32.toNat_sub]
  unfold Patch.Contains at h
  omega

/-- An address that a store writes. -/
theorem store_of_contains {p : Patch} {x : UInt32} (h : p.Contains x) :
    m.store p.addr p.bytes x = p.bytes.getD (x.toNat - p.addr.toNat) 0 := by
  have hoffset : (x - p.addr).toNat = x.toNat - p.addr.toNat :=
    UInt32.toNat_sub_of_le _ _ (UInt32.le_iff_toNat_le.mpr h.1)
  have hlt : x.toNat - p.addr.toNat < p.bytes.length := by
    unfold Patch.Contains at h
    omega
  rw [store, hoffset, List.getElem?_eq_getElem hlt, Option.getD_some,
    List.getD_eq_getElem _ _ hlt]

/-- **Frame.** What no patch writes stays as it was.

**Proof sketch.** Induction on the patches. -/
theorem patch_of_not_contains {ps : List Patch}
    (hwrap : ∀ p ∈ ps, p.addr.toNat + p.bytes.length ≤ 2 ^ 32) {x : UInt32}
    (h : ∀ p ∈ ps, ¬ p.Contains x) : m.patch ps x = m x := by
  induction ps generalizing m with
  | nil => rfl
  | cons p ps ih =>
    rw [patch_cons, ih _ (fun q hq => hwrap q (List.mem_cons_of_mem p hq))
      fun q hq => h q (List.mem_cons_of_mem p hq)]
    exact store_of_not_contains m (hwrap p List.mem_cons_self) (h p List.mem_cons_self)

/-- **What a patch writes** is found where it was written, if the patches are apart.

**Proof sketch.** Induction on the patches: those behind it do not write its addresses. -/
theorem patch_of_contains {ps : List Patch}
    (hwrap : ∀ p ∈ ps, p.addr.toNat + p.bytes.length ≤ 2 ^ 32) (hapart : ps.Pairwise Patch.Apart)
    {p : Patch} (hp : p ∈ ps) {x : UInt32} (h : p.Contains x) :
    m.patch ps x = p.bytes.getD (x.toNat - p.addr.toNat) 0 := by
  induction ps generalizing m with
  | nil => cases hp
  | cons q ps ih =>
    obtain ⟨hfirst, hrest⟩ := List.pairwise_cons.mp hapart
    have hwraps : ∀ p ∈ ps, p.addr.toNat + p.bytes.length ≤ 2 ^ 32 := fun p hp =>
      hwrap p (List.mem_cons_of_mem q hp)
    rw [patch_cons]
    rcases List.mem_cons.mp hp with rfl | hp
    · rw [patch_of_not_contains _ hwraps, store_of_contains m h]
      intro r hr hcontains
      have hdisjoint := hfirst r hr
      unfold Patch.Apart at hdisjoint
      unfold Patch.Contains at h hcontains
      omega
    · exact ih _ hwraps hrest hp

/-- A patch of one word. -/
theorem word_patch {ps : List Patch}
    (hwrap : ∀ p ∈ ps, p.addr.toNat + p.bytes.length ≤ 2 ^ 32) (hapart : ps.Pairwise Patch.Apart)
    {addr w : UInt32} (hp : Patch.word addr w ∈ ps) : (m.patch ps).word addr = w := by
  have hend := hwrap _ hp
  have hlength : (Patch.word addr w).bytes.length = 4 := length_bytesOfWord w
  rw [hlength] at hend
  have hload : (m.patch ps).load addr 4 = bytesOfWord w := by
    apply List.ext_getElem
    · rw [length_load, length_bytesOfWord]
    · intro i hi hi'
      rw [length_load] at hi
      have haddr : (addr + UInt32.ofNat i).toNat = addr.toNat + i := by
        rw [UInt32.toNat_add, UInt32.toNat_ofNat']
        have hbound : addr.toNat + 4 ≤ 2 ^ 32 := hend
        omega
      have hcontains : (Patch.word addr w).Contains (addr + UInt32.ofNat i) := by
        unfold Patch.Contains
        rw [hlength, haddr]
        exact ⟨Nat.le_add_right _ _, Nat.add_lt_add_left hi _⟩
      have hbyte := patch_of_contains m hwrap hapart hp hcontains
      rw [haddr] at hbyte
      simp only [load, List.getElem_map, List.getElem_range]
      rw [hbyte]
      show (bytesOfWord w).getD (addr.toNat + i - addr.toNat) 0 = _
      rw [Nat.add_sub_cancel_left, List.getD_eq_getElem _ _ hi']
  rw [word, hload, wordOfBytes_bytesOfWord]

end Memory

end ByteMemory

import RecoveryMenu.Options.LoadBoot1Payload.Payload

set_option relaxedAutoImplicit false
set_option autoImplicit false

/-!
# The PRSH memory (`ios_mcp/source/options/LoadBoot1Payload.c`)

`preparePrshHax` changes two words of the PRSH memory, the pointer to `boot_info` and the checksum.
It does so before anything can fail, and does not take the change back.

## Main definitions

* `RecoveryMenu.LoadBoot1Payload.patchPrsh`: the memory that `encryptPrsh` is called with.
* `RecoveryMenu.LoadBoot1Payload.Patched`: what has changed.

## Main results

* `RecoveryMenu.LoadBoot1Payload.patched_atEncryptPrsh`: the change before the encryption.
* `RecoveryMenu.LoadBoot1Payload.patched_onFailure`: what is left of it when the function fails.

## References

* `ios_mcp/source/options/LoadBoot1Payload.c`, lines 22-82 and 262-268.
-/

namespace RecoveryMenu

namespace LoadBoot1Payload

open ByteMemory Menu

/-- The value that `preparePrshHax` gives the pointer to `boot_info`. -/
def newBootInfoPtr (bootInfoOffset : UInt32) : UInt32 := 0x0d400200 + bootInfoOffset

/-- The memory with the new pointer, before the checksum is updated. -/
def changePointer (memory : Memory) (bootInfoOffset : UInt32) : Memory :=
  memory.store bootInfoPtrAddr (bytesOfWord (newBootInfoPtr bootInfoOffset))

/-- The memory that `encryptPrsh` is called with. -/
def patchPrsh (memory : Memory) (bootInfoOffset : UInt32) : Memory :=
  let changed := changePointer memory bootInfoOffset
  changed.store prshHdrOffset (bytesOfWord (prshChecksum changed))

/-- The pointer to `boot_info` is the new one, the checksum is that of the words behind it and the
old one with the two pointers added, and all other words are the same. -/
structure Patched (memory memory' : Memory) (bootInfoOffset : UInt32) : Prop where
  pointer : memory'.word bootInfoPtrAddr = newBootInfoPtr bootInfoOffset
  checksum : memory'.word prshHdrOffset = prshChecksum memory'
  checksumOld : memory'.word prshHdrOffset =
    prshChecksum memory ^^^ memory.word bootInfoPtrAddr ^^^ memory'.word bootInfoPtrAddr
  kept : ∀ a : UInt32, a.toNat % 4 = 0 → a ≠ prshHdrOffset → a ≠ bootInfoPtrAddr →
    memory'.word a = memory.word a

/-! ## Checksums -/

/-- A change of one word changes the checksum by the old and the new value of the word.

**Proof sketch.** Induction on the number of words. -/
lemma foldl_xor_of_eq {f g : ℕ → UInt32} {k n : ℕ} (hk : k < n)
    (h : ∀ i < n, i ≠ k → g i = f i) :
    (List.range n).foldl (fun checksum i => checksum ^^^ g i) 0 =
      (List.range n).foldl (fun checksum i => checksum ^^^ f i) 0 ^^^ f k ^^^ g k := by
  induction n with
  | zero => cases hk
  | succ n ih =>
    rw [List.range_succ, List.foldl_append, List.foldl_append]
    simp only [List.foldl_cons, List.foldl_nil]
    rcases Nat.lt_succ_iff_lt_or_eq.mp hk with hlt | rfl
    · rw [ih hlt fun i hi => h i (by omega), h n (by omega) hlt.ne']
      ac_rfl
    · have hsame : (List.range k).foldl (fun checksum i => checksum ^^^ g i) 0 =
          (List.range k).foldl (fun checksum i => checksum ^^^ f i) 0 := by
        apply List.foldl_ext
        intro c i hi
        have hi := List.mem_range.mp hi
        rw [h i (by omega) (by omega)]
      rw [hsame, UInt32.xor_assoc _ (f k) (f k), UInt32.xor_self, UInt32.xor_zero]

/-- The address of a word behind the checksum. -/
def checkedAddr (i : ℕ) : UInt32 := prshHdrOffset + 0x04 + UInt32.ofNat i * 0x04

/-- The words behind the checksum are aligned, and end before `0x10006290`. -/
lemma toNat_checkedAddr {i : ℕ} (hi : i < 0x20d) :
    (checkedAddr i).toNat = 0x10005a58 + 4 * i := by
  have hstart : (prshHdrOffset + 0x04).toNat = 0x10005a58 := by decide
  have hfour : (0x04 : UInt32).toNat = 4 := rfl
  rw [checkedAddr, UInt32.toNat_add, UInt32.toNat_mul, UInt32.toNat_ofNat', hstart, hfour]
  omega

/-- The pointer to `boot_info` is one of the words behind the checksum. -/
lemma checkedAddr_bootInfoPtr : checkedAddr 0x46 = bootInfoPtrAddr := by decide

/-- The checksum of changed words. -/
lemma prshChecksum_store (memory : Memory) (w : UInt32) :
    prshChecksum (memory.store bootInfoPtrAddr (bytesOfWord w)) =
      prshChecksum memory ^^^ memory.word bootInfoPtrAddr ^^^ w := by
  have haligned : bootInfoPtrAddr.toNat % 4 = 0 := by decide
  have hword : (memory.store bootInfoPtrAddr (bytesOfWord w)).word (checkedAddr 0x46) = w := by
    rw [checkedAddr_bootInfoPtr, Memory.word_store_self]
  have hfold := foldl_xor_of_eq (f := fun i => memory.word (checkedAddr i))
    (g := fun i => (memory.store bootInfoPtrAddr (bytesOfWord w)).word (checkedAddr i))
    (k := 0x46) (n := 0x20d) (by omega) fun i hi hne => by
      have haddr := toNat_checkedAddr hi
      refine Memory.word_store_of_ne memory (by omega) haligned (fun heq => hne ?_) w
      rw [heq, ← checkedAddr_bootInfoPtr, toNat_checkedAddr (by omega)] at haddr
      omega
  rw [hword, checkedAddr_bootInfoPtr] at hfold
  exact hfold

/-- The checksum does not depend on the word it is stored in. -/
lemma prshChecksum_store_hdr (memory : Memory) (w : UInt32) :
    prshChecksum (memory.store prshHdrOffset (bytesOfWord w)) = prshChecksum memory := by
  have haligned : prshHdrOffset.toNat % 4 = 0 := by decide
  unfold prshChecksum
  apply List.foldl_ext
  intro c i hi
  have haddr := toNat_checkedAddr (List.mem_range.mp hi)
  have hhdr : prshHdrOffset.toNat = 0x10005a54 := by decide
  have hne : checkedAddr i ≠ prshHdrOffset := by
    intro heq
    rw [heq, hhdr] at haddr
    omega
  exact congrArg (c ^^^ ·) (Memory.word_store_of_ne memory (by omega) haligned hne w)

/-- What the two stores change. -/
lemma patched_patchPrsh (memory : Memory) (bootInfoOffset : UInt32) :
    Patched memory (patchPrsh memory bootInfoOffset) bootInfoOffset := by
  have hhdr : prshHdrOffset.toNat % 4 = 0 := by decide
  have hptr : bootInfoPtrAddr.toNat % 4 = 0 := by decide
  have hpointer : (patchPrsh memory bootInfoOffset).word bootInfoPtrAddr =
      newBootInfoPtr bootInfoOffset := by
    rw [patchPrsh, Memory.word_store_of_ne _ hptr hhdr (by decide), changePointer,
      Memory.word_store_self]
  refine ⟨hpointer, ?_, ?_, fun a ha hnehdr hneptr => ?_⟩
  · rw [patchPrsh, Memory.word_store_self, prshChecksum_store_hdr]
  · rw [hpointer, patchPrsh, Memory.word_store_self, changePointer, prshChecksum_store]
  · rw [patchPrsh, Memory.word_store_of_ne _ ha hhdr hnehdr, changePointer,
      Memory.word_store_of_ne _ ha hptr hneptr]

/-! ## The function -/

/-- **The change before the encryption.** Where the buffer can be allocated, `encryptPrsh` is called
with a memory in which only the checksum and the pointer to `boot_info` have changed; the checksum
is right, and it is the old one with the old and the new pointer added.

**Proof sketch.** The pointer is one of the words behind the checksum, and a change of one word
changes the sum by its old and its new value (`foldl_xor_of_eq`). -/
theorem patched_atEncryptPrsh (memory : Memory) (bootInfoOffset : UInt32) :
    (∀ encryptPrsh : Memory → ℤ × Memory,
      let encrypted := encryptPrsh (patchPrsh memory bootInfoOffset)
      preparePrshHax true encryptPrsh memory bootInfoOffset =
        ⟨encrypted.1, encrypted.2, [.allocIv true, .copyIv, .encryptPrsh encrypted.1, .freeIv]⟩) ∧
    Patched memory (patchPrsh memory bootInfoOffset) bootInfoOffset :=
  ⟨fun _ => rfl, patched_patchPrsh memory bootInfoOffset⟩

/-- The memory after a call that fails, where a failed encryption leaves it. -/
lemma memory_preparePrshHax {ivAlloc : Bool} {encryptPrsh : Memory → ℤ × Memory} {memory : Memory}
    {bootInfoOffset : UInt32} (hencrypt : ∀ m, (encryptPrsh m).1 < 0 → (encryptPrsh m).2 = m)
    (hres : (preparePrshHax ivAlloc encryptPrsh memory bootInfoOffset).res < 0) :
    (preparePrshHax ivAlloc encryptPrsh memory bootInfoOffset).memory =
      patchPrsh memory bootInfoOffset := by
  cases ivAlloc with
  | false => rfl
  | true => exact hencrypt _ hres

/-- **A failed call.** For every memory and all results of the allocation and of `encryptPrsh`,
where a failed encryption leaves the memory as it is: if `preparePrshHax` returns a negative value,
all words have kept their values but the checksum and the pointer to `boot_info`, which are those
for the new pointer; and the console is not restarted.

**Proof sketch.** Both words are changed before the first step that can fail, and nothing changes
them after it. -/
theorem patched_onFailure (r : Results) (bootInfoOffset : UInt32)
    (hencrypt : ∀ m, (r.encryptPrsh m).1 < 0 → (r.encryptPrsh m).2 = m)
    (hres : (preparePrshHax r.ivAlloc r.encryptPrsh r.memory bootInfoOffset).res < 0) :
    Patched r.memory (preparePrshHax r.ivAlloc r.encryptPrsh r.memory bootInfoOffset).memory
        bootInfoOffset ∧
      ∀ bodySize, .call .shutdown ∉ startPayload r bootInfoOffset bodySize := by
  constructor
  · rw [memory_preparePrshHax hencrypt hres]
    exact patched_patchPrsh r.memory bootInfoOffset
  · intro bodySize
    have hcalls : PayloadCall.shutdown ∉
        (preparePrshHax r.ivAlloc r.encryptPrsh r.memory bootInfoOffset).calls := by
      cases r.ivAlloc <;> simp [preparePrshHax]
    rw [startPayload]
    split_ifs
    · simp [failWith]
    · simp [failWith]
    · simp [failWith, hcalls, if_pos hres]

/-- Results with a memory of zeros and no buffer for `prshIvBuf`. -/
def noIvBuffer : Results where
  openFile := 0
  fileHandle := 1
  heapAlloc := true
  dataBuffer _ := 0
  readHeader := 0x200
  header := []
  chunks := []
  lastRead := Fsa.endOfFile
  lastRead_le := Int.le_refl Fsa.endOfFile
  memory _ := 0
  ivAlloc := false
  encryptPrsh m := (0, m)

/-- Without the buffer the pointer is changed. -/
theorem patched_onFailure_noIvBuffer :
    Patched noIvBuffer.memory (preparePrshHax noIvBuffer.ivAlloc noIvBuffer.encryptPrsh
        noIvBuffer.memory 0xaa6d).memory 0xaa6d ∧
      ∀ bodySize, .call .shutdown ∉ startPayload noIvBuffer 0xaa6d bodySize :=
  patched_onFailure noIvBuffer 0xaa6d (fun _ _ => rfl) (by decide)

/-- The PRSH memory is not left as it was when there is no buffer for `prshIvBuf`. -/
theorem not_prshKept :
    ¬ ∀ (ivAlloc : Bool) (encryptPrsh : Memory → ℤ × Memory) (memory : Memory)
      (bootInfoOffset : UInt32), (∀ m, (encryptPrsh m).1 < 0 → (encryptPrsh m).2 = m) →
      (preparePrshHax ivAlloc encryptPrsh memory bootInfoOffset).res < 0 →
      ∀ a : UInt32, a.toNat % 4 = 0 → 0x10000400 ≤ a → a < 0x10008000 →
        (preparePrshHax ivAlloc encryptPrsh memory bootInfoOffset).memory.word a =
          memory.word a := by
  intro h
  have hkept := h false noIvBuffer.encryptPrsh noIvBuffer.memory 0xaa6d (fun _ _ => rfl)
    (by decide) bootInfoPtrAddr (by decide) (by decide) (by decide)
  have hpointer := (patched_patchPrsh noIvBuffer.memory 0xaa6d).pointer
  exact absurd (hpointer.symm.trans hkept) (by decide)

end LoadBoot1Payload

end RecoveryMenu

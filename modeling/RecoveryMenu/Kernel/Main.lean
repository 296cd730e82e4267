import RecoveryMenu.BuildRecoveryFile
import RecoveryMenu.Foundations.Patches
import RecoveryMenu.Kernel.Branch

set_option relaxedAutoImplicit false
set_option autoImplicit false

/-!
# From the recovery file to MCP (`ios_kernel/source/main.c`)

The build script puts the kernel part and the MCP part into one file. What loads the file copies
them to their physical addresses and starts the kernel part, which clears the `.bss` of both, maps
the MCP part into the address space of MCP and writes branches over instructions of the system. The
addresses are written down in the build script, in the two linker scripts and in `_main`.

## Main definitions

* `RecoveryMenu.BuildRecoveryFile.main`: the file of the build script.
* `RecoveryMenu.Kernel.Linked`: what the linker makes of the two parts.
* `RecoveryMenu.Kernel.Loaded`, `RecoveryMenu.Kernel.Maps`: what the system does.
* `RecoveryMenu.Kernel.mainPatches`: what `_main` writes.
* `RecoveryMenu.Kernel.Image`: the memory that MCP is to find.

## Main results

* `RecoveryMenu.Kernel.image_main`: MCP finds it.

## References

* `build_recovery_file.py`, lines 67-83.
* `ios_kernel/source/main.c`, lines 32-84; `ios_kernel/source/imports.h`: `ios_map_shared_info_t`.
* `ios_kernel/link.ld`; `ios_mcp/link.ld`.
-/

namespace RecoveryMenu

/-! ## The file -/

namespace BuildRecoveryFile

/-- The sections of `main`, with the contents of `ios_kernel.bin` and `ios_mcp.bin`. -/
def mainSections (kernel mcp : List UInt8) : Objects := fun ref =>
  if ref = 0 then ⟨kernel, 0x08136000, 0x08136000, none⟩
  else ⟨mcp, 0x05116000, 0x05116000 - 0x05100000 + 0x13d80000, none⟩

/-- `main`: the bytes that are written to the file. -/
def main (kernel mcp : List UInt8) : Except PyError (List UInt8) :=
  match addSections ⟨mainSections kernel mcp, init 0x08136000⟩ [0, 1] with
  | (some e, _) => .error e
  | (none, s) => pack s

/-- The file of two parts that are not too large. -/
lemma main_eq (kernel mcp : List UInt8) (hsize : kernel.length + mcp.length < 2 ^ 31) :
    ∃ bytes, main kernel mcp = .ok bytes ∧
      Layout (mainSections kernel mcp) 0x08136000 [0, 1] bytes := by
  have hroom : (init 0x08136000).sections.length + [0, 1].length ≤ maxRecoverySections := by
    decide
  obtain ⟨hnone, hfile⟩ :=
    addSections_file (s := ⟨mainSections kernel mcp, init 0x08136000⟩) hroom
  have hobject (i : ℕ) (hi : i < [0, 1].length) :=
    addSections_objects (s := ⟨mainSections kernel mcp, init 0x08136000⟩) (by decide) hroom hi
  have hmain : main kernel mcp =
      pack (addSections ⟨mainSections kernel mcp, init 0x08136000⟩ [0, 1]).2 := by
    rw [main]
    generalize addSections ⟨mainSections kernel mcp, init 0x08136000⟩ [0, 1] = r at hnone
    obtain ⟨e, s⟩ := r
    obtain rfl : e = none := hnone
    rfl
  rw [hmain]
  generalize (addSections ⟨mainSections kernel mcp, init 0x08136000⟩ [0, 1]).2 = s
    at hfile hobject
  have hsections : s.file.sections = [0, 1] := by
    rw [hfile]
    rfl
  have hentry : s.file.entry = 0x08136000 := by
    rw [hfile]
    rfl
  have hpackable : ∀ ref ∈ s.file.sections, (s.objects ref).Packable := by
    rw [hsections]
    intro ref href
    obtain ⟨i, hi, rfl⟩ := List.mem_iff_getElem.mp href
    rw [hobject i hi]
    have hoffset : recoveryHeaderSize +
        dataSize (mainSections kernel mcp) ([0, 1].take i) < 2 ^ 32 := by
      have hle := dataSize_take_le (mainSections kernel mcp) [0, 1] i
      have htotal : dataSize (mainSections kernel mcp) [0, 1] = kernel.length + mcp.length := by
        simp [dataSize, mainSections]
      unfold recoveryHeaderSize
      omega
    have haddresses : ∀ ref ∈ [0, 1], (mainSections kernel mcp ref).vaddr < 2 ^ 32 ∧
        (mainSections kernel mcp ref).paddr < 2 ^ 32 ∧
        (mainSections kernel mcp ref).data.length < 2 ^ 32 := by
      simp only [List.forall_mem_cons, List.not_mem_nil, false_implies, implies_true, and_true,
        mainSections, if_true, one_ne_zero, if_false]
      omega
    obtain ⟨hvaddr, hpaddr, hlength⟩ := haddresses _ (List.getElem_mem hi)
    exact ⟨hvaddr, hpaddr, hlength, _, rfl, hoffset⟩
  have hcount : s.file.sections.length ≤ maxRecoverySections := by
    rw [hsections]
    decide
  have hlt : s.file.entry < 2 ^ 32 := by
    rw [hentry]
    decide
  refine ⟨_, pack_eq hlt hcount hpackable, ?_⟩
  have hoffsets : HasOffsets (mainSections kernel mcp) s := by
    unfold HasOffsets
    rw [hsections]
    exact hobject
  have hlayout := layout_of_offsets hcount hlt hoffsets hpackable
  rw [hsections, hentry] at hlayout
  exact hlayout

end BuildRecoveryFile

end RecoveryMenu

namespace RecoveryMenu

namespace Kernel

open ArmBranch BuildRecoveryFile ByteMemory

/-! ## What the linker makes -/

/-- `__mcp_bss_start`. -/
def mcpBssStart : UInt32 := 0x050bd000

/-- What the linker makes of the two parts: their contents, the ends of their `.bss`, and the
functions that `_main` branches to. -/
structure Linked where
  /-- `ios_kernel.bin`. -/
  kernel : List UInt8
  kernelBssStart : UInt32
  kernelBssEnd : UInt32
  /-- `ios_mcp.bin`. -/
  mcp : List UInt8
  mcpBssEnd : UInt32
  svcABHandler : UInt32
  kernelSyscall0x81 : UInt32
  /-- `_MCP_recovery_ioctl_memcpy_hook` or `_MCP_ioctl100_patch`. -/
  hook : UInt32
  /-- The `.bss` of the kernel part is behind its contents. -/
  kernel_le : 0x08136000 + kernel.length ≤ kernelBssStart.toNat
  kernelBss_le : kernelBssStart.toNat ≤ kernelBssEnd.toNat
  /-- The sections are smaller than `0xa000` bytes, and what is free between them smaller than a
  page. -/
  kernel_lt : kernelBssEnd.toNat < 0x08136000 + 0xa000 + 0x1000
  mcp_lt : mcp.length < 0x16000
  mcpBss_le : mcpBssStart.toNat ≤ mcpBssEnd.toNat
  mcpBss_lt : mcpBssEnd.toNat < mcpBssStart.toNat + 0x3000
  /-- The functions are in the contents of their parts. -/
  svcABHandler_mem : 0x08136000 ≤ svcABHandler.toNat ∧
    svcABHandler.toNat < 0x08136000 + kernel.length ∧ svcABHandler.toNat % 4 = 0
  kernelSyscall0x81_mem : 0x08136000 ≤ kernelSyscall0x81.toNat ∧
    kernelSyscall0x81.toNat < 0x08136000 + kernel.length ∧ kernelSyscall0x81.toNat % 4 = 0
  hook_mem : 0x05116000 ≤ hook.toNat ∧ hook.toNat < 0x05116000 + mcp.length ∧
    hook.toNat % 2 = 0

/-! ## What the system does -/

/-- `ios_map_shared_info_t`. -/
structure MapInfo where
  paddr : UInt32
  vaddr : UInt32
  size : UInt32
  domain : UInt32
  type : UInt32
  cached : UInt32

/-- What has loaded the file has copied each section to its physical address. -/
def Loaded (bytes : List UInt8) (m : Memory) : Prop :=
  ∀ i < (wordAt bytes 2).toNat,
    m.load (UInt32.ofNat (recordField bytes i 1)) (recordField bytes i 2) =
      (bytes.drop (recordField bytes i 3)).take (recordField bytes i 2)

/-- What `_iosMapSharedUserExecution` is asked for is mapped. -/
def Maps (translate : UInt32 → Option UInt32) (info : MapInfo) : Prop :=
  ∀ i < info.size.toNat,
    translate (info.vaddr + UInt32.ofNat i) = some (info.paddr + UInt32.ofNat i)

/-! ## `_main` -/

/-- The `map_info` of the two calls of `_iosMapSharedUserExecution`. -/
def mapInfos : List MapInfo :=
  [{ paddr := 0x050bd000 - 0x05000000 + 0x081c0000
     vaddr := 0x050bd000
     size := 0x3000
     domain := 1
     type := 3
     cached := 0xffffffff },
   { paddr := 0x05116000 - 0x05100000 + 0x13d80000
     vaddr := 0x05116000
     size := 0x16000
     domain := 1
     type := 3
     cached := 0xffffffff }]

/-- The address of the instruction of MCP that is replaced, where MCP sees it. -/
def hookVaddr (mcpRecovery : Bool) : UInt32 := if mcpRecovery then 0x0510f4a0 else 0x05025242

/-- The physical address of that instruction. -/
def hookPaddr (mcpRecovery : Bool) : UInt32 :=
  if mcpRecovery then 0x0510f4a0 - 0x05100000 + 0x13d80000 else 0x05025242 - 0x05000000 + 0x081c0000

/-- What `_main` writes, with `MCP_RECOVERY` or without. -/
def mainPatches (mcpRecovery : Bool) (l : Linked) : List Patch :=
  -- first all bss is cleared
  [.zeros l.kernelBssStart (l.kernelBssEnd - l.kernelBssStart),
    .zeros (mcpBssStart - 0x05074000 + 0x08234000) (l.mcpBssEnd - mcpBssStart),
    -- redirect `__sys_write0`
    .word 0x0812dd68 (armB 0x0812dd68 l.svcABHandler),
    .word (hookPaddr mcpRecovery) (thumbBl (hookVaddr mcpRecovery) l.hook),
    -- replace the custom kernel syscall
    .word 0x0812cd2c (armB 0x0812cd2c l.kernelSyscall0x81),
    -- allow `IOS_ReadOTP` for all processes
    .word 0x0812037c 0xe15c000c,
    .word (0x05024648 - 0x05000000 + 0x081c0000) 0x20002000,
    .word 0x1073880c 0xe12fff1e]

/-- The memory behind `_main`. -/
def main (mcpRecovery : Bool) (l : Linked) (m : Memory) : Memory :=
  m.patch (mainPatches mcpRecovery l)

/-! ## The memory that MCP is to find -/

/-- What is to be in memory when the thread of the MCP part starts. -/
structure Image (mcpRecovery : Bool) (l : Linked) (translate : UInt32 → Option UInt32)
    (m : Memory) : Prop where
  /-- MCP sees the contents of its part. -/
  mcp : ∀ i (hi : i < l.mcp.length),
    (translate (0x05116000 + UInt32.ofNat i)).map m = some l.mcp[i]
  /-- MCP sees a `.bss` of zeros. -/
  mcpBss : ∀ x : UInt32, mcpBssStart.toNat ≤ x.toNat → x.toNat < l.mcpBssEnd.toNat →
    (translate x).map m = some 0
  /-- The kernel part is as it was loaded. -/
  kernel : ∀ i (hi : i < l.kernel.length), m (0x08136000 + UInt32.ofNat i) = l.kernel[i]
  kernelBss : ∀ x : UInt32, l.kernelBssStart.toNat ≤ x.toNat → x.toNat < l.kernelBssEnd.toNat →
    m x = 0
  /-- The branches lead to their functions. -/
  svcABHandler : ∃ b, decode (m.word 0x0812dd68).toBitVec = some b ∧ b.cond = always ∧
    b.link = false ∧ b.target 0x0812dd68#32 = l.svcABHandler.toBitVec
  kernelSyscall0x81 : ∃ b, decode (m.word 0x0812cd2c).toBitVec = some b ∧ b.cond = always ∧
    b.link = false ∧ b.target 0x0812cd2c#32 = l.kernelSyscall0x81.toBitVec
  hook : thumbTarget (highHalf (m.word (hookPaddr mcpRecovery)))
    (lowHalf (m.word (hookPaddr mcpRecovery))) (hookVaddr mcpRecovery).toBitVec =
      some l.hook.toBitVec

section Patches

variable (mcpRecovery : Bool) (l : Linked)

/-- Where the patches begin, and how long they are. -/
lemma spans :
    (mainPatches mcpRecovery l).map (fun p => (p.addr.toNat, p.bytes.length)) =
      [(l.kernelBssStart.toNat, l.kernelBssEnd.toNat - l.kernelBssStart.toNat),
        (0x0827d000, l.mcpBssEnd.toNat - mcpBssStart.toNat),
        (0x0812dd68, 4), (if mcpRecovery then 0x13d8f4a0 else 0x081e5242, 4),
        (0x0812cd2c, 4), (0x0812037c, 4), (0x081e4648, 4), (0x1073880c, 4)] := by
  have hkernel : (l.kernelBssEnd - l.kernelBssStart).toNat =
      l.kernelBssEnd.toNat - l.kernelBssStart.toNat :=
    UInt32.toNat_sub_of_le _ _ (UInt32.le_iff_toNat_le.mpr l.kernelBss_le)
  have hmcp : (l.mcpBssEnd - mcpBssStart).toNat = l.mcpBssEnd.toNat - mcpBssStart.toNat :=
    UInt32.toNat_sub_of_le _ _ (UInt32.le_iff_toNat_le.mpr l.mcpBss_le)
  have hhook : (hookPaddr mcpRecovery).toNat = if mcpRecovery then 0x13d8f4a0 else 0x081e5242 := by
    unfold hookPaddr
    split_ifs <;> rfl
  simp only [mainPatches, Patch.zeros, Patch.word, List.map_cons, List.map_nil,
    List.length_replicate, length_bytesOfWord, hkernel, hmcp, hhook]
  rfl

/-- No patch wraps, and no two of them have an address in common. -/
lemma mainPatches_apart :
    (∀ p ∈ mainPatches mcpRecovery l, p.addr.toNat + p.bytes.length ≤ 2 ^ 32) ∧
      (mainPatches mcpRecovery l).Pairwise Patch.Apart := by
  have hkernel := l.kernel_le
  have hle := l.kernelBss_le
  have hlt := l.kernel_lt
  have hmcp := l.mcpBss_lt
  rw [show mcpBssStart.toNat = 0x050bd000 from rfl] at hmcp
  have hwrap : ∀ span ∈ (mainPatches mcpRecovery l).map
      (fun p => (p.addr.toNat, p.bytes.length)), span.1 + span.2 ≤ 2 ^ 32 := by
    rw [spans, show mcpBssStart.toNat = 0x050bd000 from rfl]
    simp only [List.forall_mem_cons, List.not_mem_nil, false_implies, implies_true, and_true]
    split_ifs <;> omega
  have hapart : ((mainPatches mcpRecovery l).map
      (fun p => (p.addr.toNat, p.bytes.length))).Pairwise
        (fun a b => a.1 + a.2 ≤ b.1 ∨ b.1 + b.2 ≤ a.1) := by
    rw [spans, show mcpBssStart.toNat = 0x050bd000 from rfl]
    simp only [List.pairwise_cons, List.forall_mem_cons, List.not_mem_nil, false_implies,
      implies_true, and_true, List.Pairwise.nil]
    split_ifs <;> omega
  have hapart' := List.pairwise_map.mp hapart
  exact ⟨fun p hp => hwrap _ (List.mem_map_of_mem hp), hapart'⟩

/-- Addresses of neither of the two parts are patched, but those of the `.bss` of the kernel
part. -/
lemma main_of_loaded (m : Memory) {x : UInt32}
    (hx : 0x08136000 ≤ x.toNat ∧ x.toNat < l.kernelBssStart.toNat ∨
      0x13d96000 ≤ x.toNat ∧ x.toNat < 0x13dac000) : main mcpRecovery l m x = m x := by
  have hle := l.kernelBss_le
  have hlt := l.kernel_lt
  have hmcp := l.mcpBss_lt
  rw [show mcpBssStart.toNat = 0x050bd000 from rfl] at hmcp
  have hout : ∀ span ∈ (mainPatches mcpRecovery l).map
      (fun p => (p.addr.toNat, p.bytes.length)),
        ¬ (span.1 ≤ x.toNat ∧ x.toNat < span.1 + span.2) := by
    rw [spans, show mcpBssStart.toNat = 0x050bd000 from rfl]
    simp only [List.forall_mem_cons, List.not_mem_nil, false_implies, implies_true, and_true]
    split_ifs <;> omega
  exact Memory.patch_of_not_contains m (mainPatches_apart mcpRecovery l).1
    fun p hp => hout _ (List.mem_map_of_mem hp)

/-- Zeros that are patched. -/
lemma main_of_zeros (m : Memory) (addr size : UInt32) {x : UInt32}
    (hp : Patch.zeros addr size ∈ mainPatches mcpRecovery l)
    (hx : addr.toNat ≤ x.toNat ∧ x.toNat < addr.toNat + size.toNat) :
    main mcpRecovery l m x = 0 := by
  obtain ⟨hwrap, hapart⟩ := mainPatches_apart mcpRecovery l
  have hcontains : (Patch.zeros addr size).Contains x := by
    unfold Patch.Contains Patch.zeros
    rw [List.length_replicate]
    exact hx
  rw [main, Memory.patch_of_contains m hwrap hapart hp hcontains]
  show (List.replicate size.toNat (0 : UInt8)).getD (x.toNat - addr.toNat) 0 = 0
  exact List.getD_replicate 0 (by omega)

/-- A distance that is not too large is in reach. -/
lemma inReach_of_lt {k : ℕ} (hk : k ≤ 31) {d : UInt32} (hd : d.toNat < 2 ^ k) :
    InReach k d.toBitVec := by
  have hpow : 2 ^ k ≤ 2 ^ 31 := Nat.pow_le_pow_right (by decide) hk
  have htoInt : d.toBitVec.toInt = d.toNat := BitVec.toInt_eq_toNat_of_lt (by
    rw [UInt32.toNat_toBitVec]
    omega)
  unfold InReach
  rw [htoInt]
  constructor
  · have hpos : (0 : ℤ) ≤ 2 ^ k := by exact_mod_cast Nat.zero_le (2 ^ k)
    omega
  · exact_mod_cast hd

/-- The distance of a target that is behind. -/
lemma toNat_distance {addr func k : UInt32} (h : addr.toNat + k.toNat ≤ func.toNat) :
    (func - addr - k).toNat = func.toNat - addr.toNat - k.toNat := by
  have haddr : (func - addr).toNat = func.toNat - addr.toNat :=
    UInt32.toNat_sub_of_le _ _ (UInt32.le_iff_toNat_le.mpr (by omega))
  rw [UInt32.toNat_sub_of_le _ _ (UInt32.le_iff_toNat_le.mpr (by omega)), haddr]

/-- A branch to a function of the kernel part leads to it. -/
lemma main_branch (m : Memory) (addr : UInt32) {func : UInt32}
    (hp : Patch.word addr (armB addr func) ∈ mainPatches mcpRecovery l)
    (haddr : 0x0812c000 ≤ addr.toNat ∧ addr.toNat < 0x0812e000 ∧ addr.toNat % 4 = 0)
    (hfunc : 0x08136000 ≤ func.toNat ∧ func.toNat < 0x08136000 + l.kernel.length ∧
      func.toNat % 4 = 0) :
    ∃ b, decode ((main mcpRecovery l m).word addr).toBitVec = some b ∧ b.cond = always ∧
      b.link = false ∧ b.target addr.toBitVec = func.toBitVec := by
  obtain ⟨hwrap, hapart⟩ := mainPatches_apart mcpRecovery l
  have hkernel := l.kernel_le
  have hle := l.kernelBss_le
  have hlt := l.kernel_lt
  have height : (8 : UInt32).toNat = 8 := rfl
  have hdistance : (func - addr - 8).toNat = func.toNat - addr.toNat - 8 :=
    toNat_distance (by omega)
  have hreach : InReach 25 (func - addr - 8).toBitVec :=
    inReach_of_lt (by decide) (by rw [hdistance]; omega)
  rw [main, Memory.word_patch m hwrap hapart hp]
  exact ⟨_, decode_armBranch addr func (by decide) (by decide) (by decide), rfl, rfl,
    target_armBranch haddr.2.2 hfunc.2.2 hreach _⟩

/-- The branch to the hook leads to it. -/
lemma main_hook (m : Memory) :
    thumbTarget (highHalf ((main mcpRecovery l m).word (hookPaddr mcpRecovery)))
      (lowHalf ((main mcpRecovery l m).word (hookPaddr mcpRecovery)))
      (hookVaddr mcpRecovery).toBitVec = some l.hook.toBitVec := by
  obtain ⟨hwrap, hapart⟩ := mainPatches_apart mcpRecovery l
  obtain ⟨hlow, hhigh, heven⟩ := l.hook_mem
  have hmcp := l.mcp_lt
  have hvaddr : 0x05025242 ≤ (hookVaddr mcpRecovery).toNat ∧
      (hookVaddr mcpRecovery).toNat ≤ 0x0510f4a0 ∧ (hookVaddr mcpRecovery).toNat % 2 = 0 := by
    unfold hookVaddr
    split_ifs <;> decide
  have hfour : (4 : UInt32).toNat = 4 := rfl
  have hdistance : (l.hook - hookVaddr mcpRecovery - 4).toNat =
      l.hook.toNat - (hookVaddr mcpRecovery).toNat - 4 := toNat_distance (by omega)
  have hreach : InReach 22 (l.hook - hookVaddr mcpRecovery - 4).toBitVec :=
    inReach_of_lt (by decide) (by rw [hdistance]; omega)
  have hword : (main mcpRecovery l m).word (hookPaddr mcpRecovery) =
      thumbBl (hookVaddr mcpRecovery) l.hook :=
    Memory.word_patch m hwrap hapart (by simp [mainPatches])
  rw [hword]
  exact thumbTarget_thumbBl hvaddr.2.2 heven hreach

end Patches

/-! ## What MCP finds -/

/-- A byte of a section that has been loaded. -/
lemma apply_of_load {m : Memory} {a : UInt32} {n : ℕ} {bs : List UInt8} (h : m.load a n = bs)
    {i : ℕ} (hi : i < bs.length) : m (a + UInt32.ofNat i) = bs[i] := by
  subst h
  simp only [Memory.load, List.getElem_map, List.getElem_range]

/-- The file is loaded if its two parts are. -/
lemma loaded_iff {kernel mcp bytes : List UInt8}
    (hlayout : Layout (mainSections kernel mcp) 0x08136000 [0, 1] bytes) {m : Memory} :
    Loaded bytes m ↔
      m.load 0x08136000 kernel.length = kernel ∧ m.load 0x13d96000 mcp.length = mcp := by
  have hcount : (wordAt bytes 2).toNat = 2 := hlayout.count
  obtain ⟨-, hpaddr₀, hlength₀⟩ := hlayout.record 0 (by decide)
  obtain ⟨-, hpaddr₁, hlength₁⟩ := hlayout.record 1 (by decide)
  have hslice₀ := hlayout.slice 0 (by decide)
  have hslice₁ := hlayout.slice 1 (by decide)
  constructor
  · intro hload
    have hkernel := hload 0 (by omega)
    have hmcp := hload 1 (by omega)
    rw [hpaddr₀, hlength₀, hslice₀] at hkernel
    rw [hpaddr₁, hlength₁, hslice₁] at hmcp
    exact ⟨hkernel, hmcp⟩
  · rintro ⟨hkernel, hmcp⟩ i hi
    rw [hcount] at hi
    obtain rfl | rfl : i = 0 ∨ i = 1 := by omega
    · rw [hpaddr₀, hlength₀, hslice₀]
      exact hkernel
    · rw [hpaddr₁, hlength₁, hslice₁]
      exact hmcp

/-- The address of a byte, as a number. -/
lemma toNat_add_ofNat {a : UInt32} {i : ℕ} (h : a.toNat + i < 2 ^ 32) :
    (a + UInt32.ofNat i).toNat = a.toNat + i := by
  rw [UInt32.toNat_add, UInt32.toNat_ofNat']
  omega

/-- **From the file to MCP.** For all contents and addresses that the linker scripts allow, the
build script writes a file. Where the system has loaded this file, and maps what `_main` asks for,
`_main` leaves the memory as MCP is to find it, with `MCP_RECOVERY` and without: MCP sees the
contents of its part, with a `.bss` of zeros behind; the kernel part is as it was loaded; and the
branches that are written over the system lead to their functions.

**Proof sketch.** The layout of the file says where the parts are; no two patches overlap, and none
is in a part. -/
theorem image_main (mcpRecovery : Bool) (l : Linked) :
    ∃ bytes, BuildRecoveryFile.main l.kernel l.mcp = .ok bytes ∧
      ∀ m, Loaded bytes m → ∀ translate, (∀ info ∈ mapInfos, Maps translate info) →
        Image mcpRecovery l translate (main mcpRecovery l m) := by
  have hkernel := l.kernel_le
  have hle := l.kernelBss_le
  have hlt := l.kernel_lt
  have hmcp := l.mcp_lt
  have hbss := l.mcpBss_lt
  have hstart : mcpBssStart.toNat = 0x050bd000 := rfl
  obtain ⟨bytes, hbytes, hlayout⟩ := main_eq l.kernel l.mcp (by omega)
  refine ⟨bytes, hbytes, fun m hload translate hmaps => ?_⟩
  obtain ⟨hkernelLoad, hmcpLoad⟩ := (loaded_iff hlayout).mp hload
  have hmapBss := hmaps _ List.mem_cons_self
  have hmapMcp := hmaps _ (List.mem_cons_of_mem _ List.mem_cons_self)
  refine ⟨fun i hi => ?_, fun x hlow hhigh => ?_, fun i hi => ?_, fun x hlow hhigh => ?_, ?_, ?_,
    main_hook mcpRecovery l m⟩
  · have htranslate : translate (0x05116000 + UInt32.ofNat i) =
        some (0x13d96000 + UInt32.ofNat i) := hmapMcp i (by
      show i < 0x16000
      omega)
    have haddress : ((0x13d96000 : UInt32) + UInt32.ofNat i).toNat = 0x13d96000 + i :=
      toNat_add_ofNat (by
        show 0x13d96000 + i < 2 ^ 32
        omega)
    rw [htranslate, Option.map_some, main_of_loaded mcpRecovery l m (.inr (by omega)),
      apply_of_load hmcpLoad hi]
  · obtain ⟨i, hi⟩ := Nat.exists_eq_add_of_le hlow
    have hx : x = 0x050bd000 + UInt32.ofNat i := by
      apply UInt32.toNat_inj.mp
      rw [hi]
      exact (toNat_add_ofNat (by
        show 0x050bd000 + i < 2 ^ 32
        omega)).symm
    have htranslate : translate x = some (0x0827d000 + UInt32.ofNat i) := by
      rw [hx]
      exact hmapBss i (by
        show i < 0x3000
        omega)
    have haddress : ((0x0827d000 : UInt32) + UInt32.ofNat i).toNat = 0x0827d000 + i :=
      toNat_add_ofNat (by
        show 0x0827d000 + i < 2 ^ 32
        omega)
    have hsize : (l.mcpBssEnd - mcpBssStart).toNat = l.mcpBssEnd.toNat - mcpBssStart.toNat :=
      UInt32.toNat_sub_of_le _ _ (UInt32.le_iff_toNat_le.mpr l.mcpBss_le)
    have hphys : (mcpBssStart - 0x05074000 + 0x08234000).toNat = 0x0827d000 := rfl
    rw [htranslate, Option.map_some]
    refine congrArg some (main_of_zeros mcpRecovery l m (mcpBssStart - 0x05074000 + 0x08234000)
      (l.mcpBssEnd - mcpBssStart) (by simp [mainPatches]) ?_)
    omega
  · have haddress : ((0x08136000 : UInt32) + UInt32.ofNat i).toNat = 0x08136000 + i :=
      toNat_add_ofNat (by
        show 0x08136000 + i < 2 ^ 32
        omega)
    rw [main_of_loaded mcpRecovery l m (.inl (by omega)), apply_of_load hkernelLoad hi]
  · have hsize : (l.kernelBssEnd - l.kernelBssStart).toNat =
        l.kernelBssEnd.toNat - l.kernelBssStart.toNat :=
      UInt32.toNat_sub_of_le _ _ (UInt32.le_iff_toNat_le.mpr l.kernelBss_le)
    refine main_of_zeros mcpRecovery l m l.kernelBssStart (l.kernelBssEnd - l.kernelBssStart)
      (by simp [mainPatches]) ?_
    omega
  · exact main_branch mcpRecovery l m 0x0812dd68 (by simp [mainPatches]) (by decide)
      l.svcABHandler_mem
  · exact main_branch mcpRecovery l m 0x0812cd2c (by simp [mainPatches]) (by decide)
      l.kernelSyscall0x81_mem

/-- Two small parts without `.bss`. -/
def small : Linked where
  kernel := [1, 2, 3, 4, 5, 6, 7, 8]
  kernelBssStart := 0x08136008
  kernelBssEnd := 0x08136008
  mcp := [9, 10]
  mcpBssEnd := 0x050bd000
  svcABHandler := 0x08136000
  kernelSyscall0x81 := 0x08136004
  hook := 0x05116000
  kernel_le := by decide
  kernelBss_le := by decide
  kernel_lt := by decide
  mcp_lt := by decide
  mcpBss_le := by decide
  mcpBss_lt := by decide
  svcABHandler_mem := by decide
  kernelSyscall0x81_mem := by decide
  hook_mem := by decide

/-- The two parts in an empty memory. -/
def smallMemory : Memory :=
  Memory.store (Memory.store (fun _ => 0) 0x08136000 small.kernel) 0x13d96000 small.mcp

/-- The two mappings, and no other. -/
def smallTranslate (x : UInt32) : Option UInt32 :=
  if x - 0x05116000 < 0x16000 then some (x - 0x05116000 + 0x13d96000)
  else if x - 0x050bd000 < 0x3000 then some (x - 0x050bd000 + 0x0827d000)
  else none

/-- The small parts, as MCP finds them. -/
theorem image_small : Image true small smallTranslate (main true small smallMemory) := by
  obtain ⟨bytes, hbytes, himage⟩ := image_main true small
  obtain ⟨bytes', hbytes', hlayout⟩ := main_eq small.kernel small.mcp (by decide)
  obtain rfl : bytes' = bytes := Except.ok.inj (hbytes'.symm.trans hbytes)
  refine himage _ ((loaded_iff hlayout).mpr ⟨by decide, by decide⟩) _ ?_
  have hcancel : ∀ a b : UInt32, a + b - a = b := fun a b => by
    rw [UInt32.add_comm, UInt32.add_sub_cancel]
  rintro info hinfo i hi
  simp only [mapInfos, List.mem_cons, List.not_mem_nil, or_false] at hinfo
  obtain rfl | rfl := hinfo
  · have hi' : i < 0x3000 := hi
    have hout : ¬ (0x050bd000 + UInt32.ofNat i - 0x05116000 : UInt32) < 0x16000 := by
      rw [UInt32.lt_iff_toNat_lt, UInt32.toNat_sub, UInt32.toNat_add, UInt32.toNat_ofNat']
      simp only [UInt32.reduceToNat]
      omega
    have hin : UInt32.ofNat i < 0x3000 := by
      rw [UInt32.lt_iff_toNat_lt, UInt32.toNat_ofNat']
      simp only [UInt32.reduceToNat]
      omega
    show smallTranslate (0x050bd000 + UInt32.ofNat i) = some (0x0827d000 + UInt32.ofNat i)
    rw [smallTranslate, if_neg hout, hcancel, if_pos hin, UInt32.add_comm]
  · have hi' : i < 0x16000 := hi
    have hin : UInt32.ofNat i < 0x16000 := by
      rw [UInt32.lt_iff_toNat_lt, UInt32.toNat_ofNat']
      simp only [UInt32.reduceToNat]
      omega
    show smallTranslate (0x05116000 + UInt32.ofNat i) = some (0x13d96000 + UInt32.ofNat i)
    rw [smallTranslate, hcancel, if_pos hin, UInt32.add_comm]

end Kernel

end RecoveryMenu

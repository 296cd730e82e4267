import Mathlib.Tactic.SplitIfs
import RecoveryMenu.Foundations.ByteMemory
import RecoveryMenu.MdInfo

set_option relaxedAutoImplicit false
set_option autoImplicit false

/-!
# Looking up a memory device (`ios_mcp/source/mdinfo.c`)

`MDReadInfo` takes a copy of the block device drivers of IOS-FS and of its table of devices.
`MDGetCID` and `MDGetCSD` find a device in that table by the id that the copy of its driver
holds, and read a register of its card. They check the id against the end of the table, and not
against its start.

The difference of the id and the first valid one is taken as it is. Where it is not an `int`,
C does not say what the lookup does, and the index below the table stands for that.

## Main definitions

* `RecoveryMenu.MdInfo.mdReadInfo`, `RecoveryMenu.MdInfo.mdGetBlkDrv`,
  `RecoveryMenu.MdInfo.mdGetCID`, `RecoveryMenu.MdInfo.mdGetCSD`.
* `RecoveryMenu.MdInfo.Correct`: what a lookup must do.

## Main results

* `RecoveryMenu.MdInfo.lookup_iff`: the lookups are correct iff the id is not below the first
  one.
* `RecoveryMenu.MdInfo.not_lookup`: with an id below it they index the table in front of its
  start.

## References

* `ios_mcp/source/mdinfo.c`.
-/

namespace RecoveryMenu

namespace MdInfo

open ByteMemory

/-! ## The functions -/

/-- `MDBLK_DRIVER_ADDRESS`. -/
def mdblkDriverAddress : UInt32 := 0x11c39e78

/-- `MD_DEVICE_POINTERS_ADDRESS`. -/
def mdDevicePointersAddress : UInt32 := 0x10899308

/-- `MD_DEVICE_CID_OFFSET`. -/
def mdDeviceCidOffset : UInt32 := 0x58

/-- `MD_DEVICE_CSD_OFFSET`. -/
def mdDeviceCsdOffset : UInt32 := 0x68

/-- `sizeof(MDBlkDrv) / 4`. -/
def blkDrvWords : ℕ := 724 / 4

/-- The static arrays `blkDrvs`, as words, and `devicePointers`. -/
structure Statics where
  blkDrvs : Vector UInt32 (2 * blkDrvWords)
  devicePointers : Vector UInt32 8
  deriving DecidableEq, Repr

/-- `MDReadInfo`: the result, and the arrays after the call. -/
def mdReadInfo (kernRead32 : UInt32 → UInt32) : ℤ × Statics :=
  (0,
    { blkDrvs := .ofFn fun i => kernRead32 (mdblkDriverAddress + UInt32.ofNat (i * 4))
      devicePointers := .ofFn fun i =>
        kernRead32 (mdDevicePointersAddress + UInt32.ofNat (i * 4)) })

/-- `MDGetBlkDrv`, with the fields at their offsets in the record. The options only ask for the
drivers 0 and 1. -/
def mdGetBlkDrv (s : Statics) (index : ℕ) : MDBlkDrv :=
  let word (offset : ℕ) : UInt32 := s.blkDrvs.toList.getD (index * blkDrvWords + offset / 4) 0
  { registered := (word 0x0).toInt32.toInt
    params :=
      { midPrv := word 0x10
        deviceType := word 0x14
        numBlocks := (word 0x34).toUInt64 <<< 32 ||| (word 0x38).toUInt64
        blockSize := word 0x3C
        name1 := .ofFn fun j => (bytesOfWord (word (0xD8 + j))).getD (j % 4) 0 }
    deviceId := (word 0x20C).toInt32.toInt }

/-- What a lookup did: its result, the words behind the pointer it was given, and the indices at
which it read `devicePointers`. -/
structure Lookup where
  ret : ℤ
  out : Vector UInt32 4
  indices : List ℤ
  deriving DecidableEq, Repr

/-- `devicePointers[idx]`, where `outside` are the words of the program around the array. -/
def devicePointer (s : Statics) (outside : ℤ → UInt32) (idx : ℤ) : UInt32 :=
  if 0 ≤ idx ∧ idx < 8 then s.devicePointers.toList.getD idx.toNat 0 else outside idx

/-- The register that a device has at an offset. -/
def register (kernRead32 : UInt32 → UInt32) (device offset : UInt32) : Vector UInt32 4 :=
  .ofFn fun i => kernRead32 (device + offset + UInt32.ofNat (i * 4))

/-- The body of `MDGetCID` and `MDGetCSD`. The table is read once for the check, and again for
each word. -/
def mdGetRegister (offset : UInt32) (s : Statics) (outside : ℤ → UInt32)
    (kernRead32 : UInt32 → UInt32) (deviceId : ℤ) (out : Vector UInt32 4) : Lookup :=
  let idx := deviceId - 0x42
  if 8 ≤ idx then ⟨-1, out, []⟩
  else if devicePointer s outside idx = 0 then ⟨-1, out, [idx]⟩
  else ⟨0, register kernRead32 (devicePointer s outside idx) offset, idx :: .replicate 4 idx⟩

/-- `MDGetCID`. -/
def mdGetCID : Statics → (ℤ → UInt32) → (UInt32 → UInt32) → ℤ → Vector UInt32 4 → Lookup :=
  mdGetRegister mdDeviceCidOffset

/-- `MDGetCSD`. -/
def mdGetCSD : Statics → (ℤ → UInt32) → (UInt32 → UInt32) → ℤ → Vector UInt32 4 → Lookup :=
  mdGetRegister mdDeviceCsdOffset

/-! ## Lookups -/

/-- A device is registered under an id, with its pointer in the table. -/
structure Registered (s : Statics) (deviceId : ℤ) (device : UInt32) : Prop where
  ne_zero : device ≠ 0
  entry : ∃ i : Fin 8, deviceId = 0x42 + (i : ℕ) ∧ s.devicePointers[i] = device

/-- What a lookup must do: it stays in the table, and gives the register of the device that is
registered under the id; if there is none it fails and stores nothing. -/
structure Correct (offset : UInt32) (s : Statics) (kernRead32 : UInt32 → UInt32) (deviceId : ℤ)
    (out : Vector UInt32 4) (r : Lookup) : Prop where
  bounds : ∀ i ∈ r.indices, 0 ≤ i ∧ i < 8
  found : ∀ device, Registered s deviceId device →
    r.ret = 0 ∧ r.out = register kernRead32 device offset
  missing : (¬ ∃ device, Registered s deviceId device) → r.ret < 0 ∧ r.out = out

/-- The table at an index inside of it. -/
lemma devicePointer_fin (s : Statics) (outside : ℤ → UInt32) (i : Fin 8) :
    devicePointer s outside ((i : ℕ) : ℤ) = s.devicePointers[i] := by
  have hlength : (i : ℕ) < s.devicePointers.toList.length := by simp
  rw [devicePointer, if_pos (by omega), Int.toNat_natCast, List.getD_eq_getElem _ _ hlength]
  simp

/-- A device is registered under the id of its entry. -/
lemma registered_iff (s : Statics) (outside : ℤ → UInt32) (i : Fin 8) (device : UInt32) :
    Registered s (0x42 + (i : ℕ)) device ↔
      device ≠ 0 ∧ devicePointer s outside ((i : ℕ) : ℤ) = device := by
  rw [devicePointer_fin]
  constructor
  · rintro ⟨hne, j, hj, hentry⟩
    obtain rfl : i = j := Fin.ext (by omega)
    exact ⟨hne, hentry⟩
  · rintro ⟨hne, hentry⟩
    exact ⟨hne, i, rfl, hentry⟩

/-- A lookup is correct iff the id is not below the first one.

**Proof sketch.** An id below it is below the end of the table as well, so the check goes on to
read the table in front of its start. Another id is behind the table or that of an entry. -/
lemma correct_iff (offset : UInt32) (s : Statics) (outside : ℤ → UInt32)
    (kernRead32 : UInt32 → UInt32) (deviceId : ℤ) (out : Vector UInt32 4) :
    Correct offset s kernRead32 deviceId out
      (mdGetRegister offset s outside kernRead32 deviceId out) ↔ 0x42 ≤ deviceId := by
  constructor
  · intro h
    by_contra hbelow
    have hmem : deviceId - 0x42 ∈
        (mdGetRegister offset s outside kernRead32 deviceId out).indices := by
      rw [mdGetRegister, if_neg (by omega)]
      split_ifs
      · exact List.mem_singleton_self _
      · exact List.mem_cons_self
    have := (h.bounds _ hmem).1
    omega
  · intro hle
    by_cases hend : 8 ≤ deviceId - 0x42
    · rw [mdGetRegister, if_pos hend]
      refine ⟨by simp, ?_, fun _ => ⟨Int.negSucc_lt_zero 0, rfl⟩⟩
      rintro device ⟨-, i, hi, -⟩
      omega
    · obtain ⟨i, rfl⟩ : ∃ i : Fin 8, deviceId = 0x42 + (i : ℕ) :=
        ⟨⟨(deviceId - 0x42).toNat, by omega⟩, by simp only; omega⟩
      have hindex : (0x42 : ℤ) + (i : ℕ) - 0x42 = (i : ℕ) := by omega
      have hbounds : (0 : ℤ) ≤ (i : ℕ) ∧ ((i : ℕ) : ℤ) < 8 := by omega
      rw [mdGetRegister, if_neg hend, hindex]
      split_ifs with hzero
      · refine ⟨List.forall_mem_singleton.mpr hbounds, ?_, fun _ => ⟨Int.negSucc_lt_zero 0, rfl⟩⟩
        intro device hdevice
        obtain ⟨hne, hentry⟩ := (registered_iff s outside i device).mp hdevice
        exact absurd (hentry.symm.trans hzero) hne
      · refine ⟨by simp, ?_, ?_⟩
        · intro device hdevice
          obtain ⟨-, hentry⟩ := (registered_iff s outside i device).mp hdevice
          exact ⟨rfl, by rw [hentry]⟩
        · intro hnone
          exact absurd ⟨_, (registered_iff s outside i _).mpr ⟨hzero, rfl⟩⟩ hnone

/-- **Looking up a memory device.** For every content of the memory of IOS-FS when the arrays
are copied and when the register is read, and every id, both lookups stay in the table, give the
register of a registered device, and otherwise fail without storing anything, iff the id is not
below the first valid one. -/
theorem lookup_iff (kernRead32 kernRead32' : UInt32 → UInt32) (outside : ℤ → UInt32)
    (deviceId : ℤ) (out : Vector UInt32 4) :
    (Correct mdDeviceCidOffset (mdReadInfo kernRead32).2 kernRead32' deviceId out
        (mdGetCID (mdReadInfo kernRead32).2 outside kernRead32' deviceId out) ↔
          0x42 ≤ deviceId) ∧
      (Correct mdDeviceCsdOffset (mdReadInfo kernRead32).2 kernRead32' deviceId out
        (mdGetCSD (mdReadInfo kernRead32).2 outside kernRead32' deviceId out) ↔
          0x42 ≤ deviceId) :=
  ⟨correct_iff _ _ _ _ _ _, correct_iff _ _ _ _ _ _⟩

/-- With the id `0x41` in the copy of the first driver, both lookups read the word in front of the
table. -/
theorem not_lookup :
    ¬ ∀ (kernRead32 : UInt32 → UInt32) (outside : ℤ → UInt32) (out : Vector UInt32 4),
      let s := (mdReadInfo kernRead32).2
      let deviceId := (mdGetBlkDrv s 0).deviceId
      Correct mdDeviceCidOffset s kernRead32 deviceId out
          (mdGetCID s outside kernRead32 deviceId out) ∧
        Correct mdDeviceCsdOffset s kernRead32 deviceId out
          (mdGetCSD s outside kernRead32 deviceId out) := by
  intro h
  let kernRead32 : UInt32 → UInt32 := fun a => if a = mdblkDriverAddress + 0x20C then 0x41 else 0
  have hdeviceId : (mdGetBlkDrv (mdReadInfo kernRead32).2 0).deviceId = 0x41 := by
    decide +kernel
  have hcorrect := (h kernRead32 (fun _ => 0) #v[0, 0, 0, 0]).1
  rw [hdeviceId] at hcorrect
  exact absurd ((correct_iff _ _ _ _ _ _).mp hcorrect) (by decide)

end MdInfo

end RecoveryMenu

import Mathlib.Data.Int.Order.Basic

set_option relaxedAutoImplicit false
set_option autoImplicit false

/-!
# The region of the console (`ios_mcp/source/menu.c`, `ios_mcp/source/mcp_misc.h`)

The production settings hold the region of the console as a set bit of `product_area`, and the
regions whose games it runs as the set bits of `game_region`. `getRegionInfo` turns the first
into the index of its lowest bit.

## Main definitions

* `RecoveryMenu.RegionInfo.MCPSysProdSettings`, `RecoveryMenu.RegionInfo.regionTbl`.
* `RecoveryMenu.RegionInfo.getRegionInfo`.

## Main results

* `RecoveryMenu.RegionInfo.ctz_regionBit`: the index of a region is read back from its bit.

## References

* `ios_mcp/source/mcp_misc.h`, `ios_mcp/source/mcp_misc.c`.
* `ios_mcp/source/menu.c`, lines 303-333, and `ios_mcp/source/menu.h`, `region_tbl`.
-/

namespace RecoveryMenu

namespace RegionInfo

/-- `MCPSysProdSettings`. -/
structure MCPSysProdSettings where
  productArea : UInt32
  eepromVersion : UInt16
  pad1 : Vector UInt8 2
  gameRegion : UInt32
  unknown1 : Vector UInt8 4
  ntscPal : Vector UInt8 5
  wifi5ghzCountryCode : Vector UInt8 4
  wifi5ghzCountryCodeRevision : UInt8
  codeId : Vector UInt8 8
  serialId : Vector UInt8 12
  unknown2 : Vector UInt8 4
  modelNumber : Vector UInt8 16
  version : UInt32
  deriving DecidableEq, Repr

/-- `region_tbl`. -/
def regionTbl : List String := ["JPN", "USA", "EUR", "AUS", "CHN", "KOR", "TWN"]

/-- `__builtin_ctz(w)`: the number of zero bits below the lowest set bit. -/
def ctz (w : UInt32) : ℕ := w.toBitVec.ctz.toNat

/-- `getRegionInfo(&productArea_id, &gameRegion)`, where opening `/dev/mcp` and
`MCP_GetSysProdSettings` return the given values: an error, or the two numbers. -/
def getRegionInfo (mcpHandle res : ℤ) (sysProdSettings : MCPSysProdSettings) :
    Except ℤ (ℕ × UInt32) :=
  if mcpHandle < 0 then .error mcpHandle
  else if res < 0 then .error res
  else if sysProdSettings.productArea = 0 then .error (-1)
  else .ok (ctz sysProdSettings.productArea, sysProdSettings.gameRegion)

/-- `1U << id`. A negative `id` gives no bit. -/
def regionBit (id : ℤ) : UInt32 := if id < 0 then 0 else ⟨1#32 <<< id.toNat⟩

/-- The lowest set bit of a word other than zero has an index below 32. -/
lemma ctz_lt {w : UInt32} (h : w ≠ 0) : ctz w < 32 := by
  have hne : w.toBitVec ≠ 0#32 := fun h' => h (UInt32.toBitVec_inj.mp h')
  exact BitVec.lt_def.mp (BitVec.ctz_lt_iff_ne_zero.mpr hne)

/-- The bit of a region, as a power of two. -/
lemma toBitVec_regionBit (n : ℕ) : (regionBit n).toBitVec = BitVec.twoPow 32 n := by
  rw [regionBit, if_neg (by omega), BitVec.twoPow, Int.toNat_natCast]

/-- The bit of a region is not zero. -/
lemma regionBit_ne_zero {n : ℕ} (h : n < 32) : regionBit n ≠ 0 := by
  intro hzero
  have hbit : (regionBit n).toBitVec.getLsbD n = true := by
    rw [toBitVec_regionBit, BitVec.getLsbD_twoPow]
    simp [h]
  simp [hzero] at hbit

/-- The index of a region is read back from its bit. -/
lemma ctz_regionBit {n : ℕ} (h : n < 32) : ctz (regionBit n) = n := by
  have hne : (regionBit n).toBitVec ≠ 0#32 := fun h' =>
    regionBit_ne_zero h (UInt32.toBitVec_inj.mp h')
  have hbit := BitVec.getLsbD_true_ctz_of_ne_zero hne
  rw [toBitVec_regionBit, BitVec.getLsbD_twoPow, Bool.and_eq_true, decide_eq_true_eq,
    decide_eq_true_eq, ← toBitVec_regionBit] at hbit
  exact hbit.2.symm

/-- The lowest set bit of a word is one of the low seven iff one of these is set.

**Proof sketch.** The mask has exactly the bits below 7, so the word is `0` under the mask iff
its low seven bits are. -/
lemma ctz_le_six_iff {w : UInt32} (h : w ≠ 0) : ctz w ≤ 6 ↔ w &&& 0x7F ≠ 0 := by
  have hne : w.toBitVec ≠ 0#32 := fun h' => h (UInt32.toBitVec_inj.mp h')
  have hmask (i : ℕ) : (127#32).getLsbD i = decide (i < 7) := Nat.testBit_two_pow_sub_one 7 i
  have hzero : w &&& 0x7F = 0 ↔ ∀ i < 7, w.toBitVec.getLsbD i = false := by
    rw [← UInt32.toBitVec_inj, UInt32.toBitVec_and]
    change w.toBitVec &&& 127#32 = 0#32 ↔ _
    constructor
    · intro hand i hi
      have hbit := congrArg (·.getLsbD i) hand
      simpa [hmask, hi] using hbit
    · intro hbits
      apply BitVec.eq_of_getLsbD_eq
      intro i _
      by_cases hlow : i < 7
      · simp [hbits i hlow]
      · simp [hmask, hlow]
  rw [Ne, hzero]
  constructor
  · intro hle hall
    have hbit := BitVec.getLsbD_true_ctz_of_ne_zero hne
    exact Bool.false_ne_true ((hall _ (Nat.lt_succ_of_le hle)).symm.trans hbit)
  · intro hsome
    by_contra hlarge
    have hlow : 6 < w.toBitVec.ctz.toNat := Nat.lt_of_not_le hlarge
    exact hsome fun i hi => BitVec.getLsbD_false_of_lt_ctz (by omega)

end RegionInfo

end RecoveryMenu

import Mathlib.Algebra.Order.Group.Int
import RecoveryMenu.Options.PairDRC

set_option relaxedAutoImplicit false
set_option autoImplicit false

/-!
# The outcome of the pairing (`ios_mcp/source/options/PairDRC.c`)

The loop of `option_PairDRC` counts `timeout` down in its condition, and the check behind the loop
takes a `timeout` that is not positive for the end of the time. The last poll leaves `0`, whether it
has seen the pairing or not. A poll whose result is positive does not write the status, so that the
one before it counts again.

## Main definitions

* `RecoveryMenu.PairDRC.statusAt`: the variable `status` behind a poll.
* `RecoveryMenu.PairDRC.PairingSeen`: a poll succeeds with the status of the pairing.

## Main results

* `RecoveryMenu.PairDRC.reportsPaired_iff`: when the pairing is reported.
* `RecoveryMenu.PairDRC.reportsPaired_iff_pairingSeen_iff`: when that is exactly if it was seen.

## References

* `ios_mcp/source/options/PairDRC.c`, lines 69-125.
* `ios_mcp/source/ccr.c`: `makeRequest`.
-/

namespace RecoveryMenu

namespace PairDRC

open Menu

/-- The pairing is reported. -/
def ReportsPaired (wpsStatus : ℕ → ℤ × UInt32) (res : ℤ) (status : UInt32) (timeout : ℕ) : Prop :=
  .print "Paired GamePad" [] ∈ waitWithTimeout wpsStatus res status timeout

/-- One of the first `timeout` polls succeeds with the status `0`, and every poll before it with the
status `1` or `2`. -/
def PairingSeen (wpsStatus : ℕ → ℤ × UInt32) (timeout : ℕ) : Prop :=
  ∃ i < timeout, wpsStatus i = (0, 0) ∧
    ∀ j < i, (wpsStatus j).1 = 0 ∧ ((wpsStatus j).2 = 1 ∨ (wpsStatus j).2 = 2)

/-- The status behind poll `i`: the last one that came with the result `0`, or what was in the
variable before the loop. -/
def statusAt (wpsStatus : ℕ → ℤ × UInt32) (status : UInt32) : ℕ → UInt32
  | 0 => if (wpsStatus 0).1 = 0 then (wpsStatus 0).2 else status
  | i + 1 =>
    if (wpsStatus (i + 1)).1 = 0 then (wpsStatus (i + 1)).2 else statusAt wpsStatus status i

/-- Poll `i` is the first one behind which the status is `0`, the loop goes on to it, and it does
not fail. -/
structure PairedAt (wpsStatus : ℕ → ℤ × UInt32) (status : UInt32) (i : ℕ) : Prop where
  paired : statusAt wpsStatus status i = 0
  waiting : ∀ j < i, statusAt wpsStatus status j = 2 ∨ statusAt wpsStatus status j = 1
  nonneg : ∀ j ≤ i, 0 ≤ (wpsStatus j).1

variable {wpsStatus : ℕ → ℤ × UInt32} {status : UInt32}

/-! ## The loop -/

/-- The loop from one poll on is the loop for the polls from there on.

**Proof sketch.** Induction on the remaining timeout. -/
lemma pollStatus_succ (wpsStatus : ℕ → ℤ × UInt32) (i : ℕ) (res : ℤ) (status : UInt32)
    (timeout : ℕ) :
    pollStatus wpsStatus (i + 1) res status timeout =
      pollStatus (fun j => wpsStatus (j + 1)) i res status timeout := by
  induction timeout generalizing i res status with
  | zero => rfl
  | succ timeout ih => simp only [pollStatus, ih]

/-- The status behind a poll, seen from the second poll. -/
lemma statusAt_succ (wpsStatus : ℕ → ℤ × UInt32) (status : UInt32) (i : ℕ) :
    statusAt wpsStatus status (i + 1) =
      statusAt (fun j => wpsStatus (j + 1)) (statusAt wpsStatus status 0) i := by
  induction i with
  | zero => rfl
  | succ i ih =>
    show (if _ then _ else statusAt wpsStatus status (i + 1)) = _
    rw [ih]
    rfl

/-- A pairing behind the first poll, seen from the second one. -/
lemma pairedAt_succ {i : ℕ} :
    PairedAt wpsStatus status (i + 1) ↔
      (statusAt wpsStatus status 0 = 2 ∨ statusAt wpsStatus status 0 = 1) ∧
        0 ≤ (wpsStatus 0).1 ∧
        PairedAt (fun j => wpsStatus (j + 1)) (statusAt wpsStatus status 0) i := by
  constructor
  · intro h
    refine ⟨h.waiting 0 (Nat.succ_pos i), h.nonneg 0 (Nat.zero_le _), ?_, fun j hj => ?_,
      fun j hj => h.nonneg (j + 1) (Nat.succ_le_succ hj)⟩
    · rw [← statusAt_succ]
      exact h.paired
    · rw [← statusAt_succ]
      exact h.waiting (j + 1) (Nat.succ_lt_succ hj)
  · rintro ⟨hwaiting, hnonneg, h⟩
    refine ⟨?_, fun j hj => ?_, fun j hj => ?_⟩
    · rw [statusAt_succ]
      exact h.paired
    · cases j with
      | zero => exact hwaiting
      | succ j =>
        rw [statusAt_succ]
        exact h.waiting j (Nat.lt_of_succ_lt_succ hj)
    · cases j with
      | zero => exact hnonneg
      | succ j => exact h.nonneg j (Nat.le_of_succ_le_succ hj)

section Polls

variable (wpsStatus status) (res : ℤ) (timeout : ℕ)

/-- A poll that fails ends the option. -/
lemma pollStatus_of_lt (h : (wpsStatus 0).1 < 0) :
    pollStatus wpsStatus 0 res status (timeout + 1) =
      ⟨(wpsStatus 0).1, status, timeout, true, [.call (.wpsStatus (wpsStatus 0).1), .call .wpsStop,
        .printError "Failed to get status: %x" [.int (wpsStatus 0).1]]⟩ :=
  if_pos h

/-- A poll that neither finds the pairing nor fails is followed by the others. -/
lemma pollStatus_of_waiting (h : ¬ (wpsStatus 0).1 < 0)
    (hwaiting : statusAt wpsStatus status 0 = 2 ∨ statusAt wpsStatus status 0 = 1) :
    pollStatus wpsStatus 0 res status (timeout + 1) =
      let rest := pollStatus (fun j => wpsStatus (j + 1)) 0 (wpsStatus 0).1
        (statusAt wpsStatus status 0) timeout
      { rest with
        events := [.call (.wpsStatus (wpsStatus 0).1),
          .print "Waiting for Gamepad... (%lx) (Timeout: %d) "
            [.int (statusAt wpsStatus status 0).toNat, .int timeout],
          .call (.usleep 1000000)] ++ rest.events } := by
  rw [← pollStatus_succ]
  exact (if_neg h).trans (if_pos hwaiting)

/-- Any other poll is the last one. -/
lemma pollStatus_of_not_waiting (h : ¬ (wpsStatus 0).1 < 0)
    (hwaiting : ¬ (statusAt wpsStatus status 0 = 2 ∨ statusAt wpsStatus status 0 = 1)) :
    pollStatus wpsStatus 0 res status (timeout + 1) =
      ⟨(wpsStatus 0).1, statusAt wpsStatus status 0, timeout, false,
        [.call (.wpsStatus (wpsStatus 0).1)]⟩ :=
  (if_neg h).trans (if_neg hwaiting)

/-- What the loop leaves for the check: it goes on to report the pairing exactly if a poll before
the last one has found it.

**Proof sketch.** Induction on the timeout, for the polls from the second one on. -/
lemma pollStatus_paired_iff :
    (¬ (pollStatus wpsStatus 0 res status timeout).returns ∧
      (pollStatus wpsStatus 0 res status timeout).status = 0 ∧
      0 < (pollStatus wpsStatus 0 res status timeout).timeout) ↔
    ∃ i, i + 1 < timeout ∧ PairedAt wpsStatus status i := by
  induction timeout generalizing wpsStatus res status with
  | zero => simp [pollStatus]
  | succ timeout ih =>
    by_cases hres : (wpsStatus 0).1 < 0
    · rw [pollStatus_of_lt _ _ _ _ hres]
      refine iff_of_false (fun h => h.1 rfl) ?_
      rintro ⟨i, -, h⟩
      exact absurd (h.nonneg 0 (Nat.zero_le i)) (not_le.mpr hres)
    by_cases hwaiting : statusAt wpsStatus status 0 = 2 ∨ statusAt wpsStatus status 0 = 1
    · rw [pollStatus_of_waiting _ _ _ _ hres hwaiting]
      dsimp only
      rw [ih]
      constructor
      · rintro ⟨i, hi, h⟩
        exact ⟨i + 1, Nat.succ_lt_succ hi, pairedAt_succ.mpr ⟨hwaiting, not_lt.mp hres, h⟩⟩
      · rintro ⟨i, hi, h⟩
        cases i with
        | zero =>
          rw [h.paired] at hwaiting
          exact absurd hwaiting (by decide)
        | succ i => exact ⟨i, Nat.lt_of_succ_lt_succ hi, (pairedAt_succ.mp h).2.2⟩
    · rw [pollStatus_of_not_waiting _ _ _ _ hres hwaiting]
      constructor
      · rintro ⟨-, hpaired, hpos⟩
        refine ⟨0, Nat.succ_lt_succ (Int.natCast_pos.mp hpos), hpaired, fun j hj => ?_,
          fun j hj => ?_⟩
        · exact absurd hj (Nat.not_lt_zero j)
        · rw [Nat.le_zero.mp hj]
          exact not_lt.mp hres
      · rintro ⟨i, hi, h⟩
        cases i with
        | zero => exact ⟨by simp, h.paired, Int.natCast_pos.mpr (Nat.lt_of_succ_lt_succ hi)⟩
        | succ i => exact absurd (pairedAt_succ.mp h).1 hwaiting

/-- The loop itself does not report the pairing.

**Proof sketch.** Induction on the timeout. -/
lemma paired_notMem_pollStatus :
    .print "Paired GamePad" [] ∉ (pollStatus wpsStatus 0 res status timeout).events := by
  induction timeout generalizing wpsStatus res status with
  | zero => exact List.not_mem_nil
  | succ timeout ih =>
    by_cases hres : (wpsStatus 0).1 < 0
    · rw [pollStatus_of_lt _ _ _ _ hres]
      simp
    by_cases hwaiting : statusAt wpsStatus status 0 = 2 ∨ statusAt wpsStatus status 0 = 1
    · rw [pollStatus_of_waiting _ _ _ _ hres hwaiting]
      simpa using ih _ _ _
    · rw [pollStatus_of_not_waiting _ _ _ _ hres hwaiting]
      simp

end Polls

/-! ## The report -/

/-- **The report.** The pairing is reported exactly if a poll before the last one has found it. -/
theorem reportsPaired_iff (wpsStatus : ℕ → ℤ × UInt32) (res : ℤ) (status : UInt32) (timeout : ℕ) :
    ReportsPaired wpsStatus res status timeout ↔
      ∃ i, i + 1 < timeout ∧ PairedAt wpsStatus status i := by
  rw [← pollStatus_paired_iff wpsStatus status res, ReportsPaired, waitWithTimeout, List.mem_append,
    or_iff_right (paired_notMem_pollStatus wpsStatus status res timeout)]
  split_ifs with hreturns hfailed
  · exact iff_of_false List.not_mem_nil fun h => h.1 hreturns
  · refine iff_of_false (by simp) fun h => ?_
    exact hfailed.elim (fun hne => hne h.2.1) fun hle => not_le.mpr h.2.2 hle
  · rw [not_or, not_ne_iff, not_le] at hfailed
    exact iff_of_true (by simp) ⟨hreturns, hfailed⟩

/-- Where all polls come with the result `0`, the status is the one of the poll. -/
lemma statusAt_of_eq_zero {i : ℕ} (h : (wpsStatus i).1 = 0) :
    statusAt wpsStatus status i = (wpsStatus i).2 := by
  cases i <;> exact if_pos h

/-- The pairing is seen exactly if a poll finds it and no poll up to it has a positive result. -/
lemma pairingSeen_iff (status : UInt32) (timeout : ℕ) :
    PairingSeen wpsStatus timeout ↔
      ∃ i < timeout, PairedAt wpsStatus status i ∧ ∀ j ≤ i, (wpsStatus j).1 = 0 := by
  refine exists_congr fun i => and_congr_right fun _ => ?_
  constructor
  · rintro ⟨hpaired, hwaiting⟩
    have hzero : ∀ j ≤ i, (wpsStatus j).1 = 0 := fun j hj => by
      rcases Nat.lt_or_eq_of_le hj with hlt | rfl
      · exact (hwaiting j hlt).1
      · rw [hpaired]
    refine ⟨⟨?_, fun j hj => ?_, fun j hj => (hzero j hj).ge⟩, hzero⟩
    · rw [statusAt_of_eq_zero (hzero i (le_refl i)), hpaired]
    · rw [statusAt_of_eq_zero (hzero j hj.le)]
      exact (hwaiting j hj).2.symm
  · rintro ⟨h, hzero⟩
    have hpaired := h.paired
    rw [statusAt_of_eq_zero (hzero i (le_refl i))] at hpaired
    refine ⟨Prod.ext (hzero i (le_refl i)) hpaired, fun j hj => ⟨hzero j hj.le, ?_⟩⟩
    have hwaiting := h.waiting j hj
    rw [statusAt_of_eq_zero (hzero j hj.le)] at hwaiting
    exact hwaiting.symm

/-- The loop does not go on behind a pairing. -/
lemma PairedAt.le {i j : ℕ} (hi : PairedAt wpsStatus status i) (hj : PairedAt wpsStatus status j) :
    j ≤ i := by
  by_contra hlt
  have hwaiting := hj.waiting i (not_le.mp hlt)
  rw [hi.paired] at hwaiting
  exact absurd hwaiting (by decide)

/-- The pairing is not found by two polls. -/
lemma PairedAt.unique {i j : ℕ} (hi : PairedAt wpsStatus status i)
    (hj : PairedAt wpsStatus status j) : i = j :=
  le_antisymm (hj.le hi) (hi.le hj)

/-- **The outcome.** The pairing is reported exactly if it is seen, if and only if a poll that finds
it is not the last one when no poll up to it has a positive result, and the last one otherwise. -/
theorem reportsPaired_iff_pairingSeen_iff (wpsStatus : ℕ → ℤ × UInt32) (res : ℤ) (status : UInt32)
    (timeout : ℕ) :
    (ReportsPaired wpsStatus res status timeout ↔ PairingSeen wpsStatus timeout) ↔
      ∀ i < timeout, PairedAt wpsStatus status i →
        (i + 1 < timeout ↔ ∀ j ≤ i, (wpsStatus j).1 = 0) := by
  rw [reportsPaired_iff, pairingSeen_iff status]
  constructor
  · intro h i hi hpaired
    constructor
    · intro hbefore
      obtain ⟨j, -, hj, hzero⟩ := h.mp ⟨i, hbefore, hpaired⟩
      rwa [hpaired.unique hj]
    · intro hzero
      obtain ⟨j, hbefore, hj⟩ := h.mpr ⟨i, hi, hpaired, hzero⟩
      rwa [hpaired.unique hj]
  · intro h
    constructor
    · rintro ⟨i, hbefore, hpaired⟩
      have hi : i < timeout := Nat.lt_of_succ_lt hbefore
      exact ⟨i, hi, hpaired, (h i hi hpaired).mp hbefore⟩
    · rintro ⟨i, hi, hpaired, hzero⟩
      exact ⟨i, (h i hi hpaired).mpr hzero, hpaired⟩

/-- The status of a pairing that is found by the poll with number `29`. -/
def pairedAtEnd (i : ℕ) : ℤ × UInt32 := (0, if i = 29 then 0 else 1)

/-- A pairing that is found by the last poll of the option is not reported. -/
theorem not_reportsPaired_iff_pairingSeen :
    ¬ ∀ (wpsStatus : ℕ → ℤ × UInt32) (res : ℤ) (status : UInt32) (timeout : ℕ), 1 ≤ timeout →
      (ReportsPaired wpsStatus res status timeout ↔ PairingSeen wpsStatus timeout) := by
  intro h
  have hseen : PairingSeen pairedAtEnd drcPairingTimeout :=
    ⟨29, by decide, rfl, fun j hj => ⟨rfl, .inl (if_neg hj.ne)⟩⟩
  obtain ⟨i, hi, hpaired⟩ := (reportsPaired_iff _ _ _ _).mp
    ((h pairedAtEnd 0 0 drcPairingTimeout (by decide)).mpr hseen)
  have hlt : i < 29 := Nat.lt_of_succ_lt_succ hi
  have hzero := hpaired.paired
  have hres : (pairedAtEnd i).1 = 0 := rfl
  rw [statusAt_of_eq_zero hres, pairedAtEnd, if_neg hlt.ne] at hzero
  exact absurd hzero (by decide)

end PairDRC

end RecoveryMenu

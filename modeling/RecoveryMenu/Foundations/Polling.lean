import Mathlib.Data.Nat.Find
import Mathlib.Order.Bounds.Basic
import Mathlib.Order.Monotone.Basic

set_option relaxedAutoImplicit false
set_option autoImplicit false

/-!
# Polling

A polling loop reads something again and again, for as long as a condition holds of what it
reads. The reads are numbered, and whether the loop goes on at a read is a predicate on their
numbers. Since a loop may poll forever, it is run for a number of reads at a time.

What is polled may be a counter. Its samples are given by the ticks counted until then, and are
less than some number of ticks apart.

## Main definitions

* `Polling.poll`: the polling loop.
* `Polling.Samples`: the samples of a counter, with `Polling.Samples.DueAt` for the first one a
  number of ticks after another.

## Main results

* `Polling.isLeast_of_poll`, `Polling.poll_of_isLeast`: a polling loop ends at the first read that
  ends it.
* `Polling.exists_poll_bind_iff`: one polling loop after another.
* `Polling.Samples.DueAt.count_lt`: how late the first due sample can be.
-/

namespace Polling

/-- If some read from `i` on has a property, then there is a first one. -/
lemma exists_first {p : ℕ → Prop} {i : ℕ} (h : ∃ k, i ≤ k ∧ p k) :
    ∃ k, IsLeast {k | i ≤ k ∧ p k} k := by
  classical
  exact ⟨Nat.find h, Nat.find_spec h, fun _ hj => Nat.find_min' h hj⟩

/-! ## Loops -/

section Loops

variable (go : ℕ → Prop) [DecidablePred go]

/-- The loop that goes on at the reads with `go`, run for a number of reads from read `i` on. Its
value is the read it ended at. -/
def poll : ℕ → ℕ → Option ℕ
  | 0, _ => none
  | fuel + 1, i => if go i then poll fuel (i + 1) else some i

variable {go}

/-- The read that a loop ended at is the first one that ends it.

**Proof sketch.** Induction on the number of reads: the loop ends at its first read, or that read
does not end it. -/
theorem isLeast_of_poll {fuel i k : ℕ} (h : poll go fuel i = some k) :
    IsLeast {k | i ≤ k ∧ ¬ go k} k := by
  induction fuel generalizing i with
  | zero => cases h
  | succ fuel ih =>
    rw [poll] at h
    split_ifs at h with hgo
    · obtain ⟨⟨hle, hend⟩, hleast⟩ := ih h
      refine ⟨⟨(Nat.le_succ i).trans hle, hend⟩, fun j hj => ?_⟩
      have hne : i ≠ j := fun heq => hj.2 (heq ▸ hgo)
      exact hleast ⟨Nat.lt_of_le_of_ne hj.1 hne, hj.2⟩
    · obtain rfl : i = k := Option.some.inj h
      exact ⟨⟨le_rfl, hgo⟩, fun j hj => hj.1⟩

/-- The first read that ends a loop is reached, if the loop runs for long enough.

**Proof sketch.** Induction on the number of reads: if the first one is not the one, then it does
not end the loop, and the loop goes on from the next. -/
theorem poll_of_isLeast {fuel i k : ℕ} (h : IsLeast {k | i ≤ k ∧ ¬ go k} k) (hfuel : k < i + fuel) :
    poll go fuel i = some k := by
  induction fuel generalizing i with
  | zero => exact absurd h.1.1 (Nat.not_le_of_lt hfuel)
  | succ fuel ih =>
    rw [poll]
    rcases Nat.eq_or_lt_of_le h.1.1 with rfl | hlt
    · exact if_neg h.1.2
    · have hgo : go i := by
        by_contra hend
        exact absurd (h.2 ⟨le_rfl, hend⟩) (Nat.not_le_of_lt hlt)
      rw [if_pos hgo]
      exact ih ⟨⟨hlt, h.1.2⟩, fun j hj => h.2 ⟨(Nat.le_succ i).trans hj.1, hj.2⟩⟩ (by omega)

/-- **One loop after another.** The second loop starts with the read that the first one ended
at. -/
theorem exists_poll_bind_iff {go' : ℕ → Prop} [DecidablePred go'] {i k : ℕ} :
    (∃ fuel, (poll go fuel i).bind (poll go' fuel) = some k) ↔
      ∃ j, IsLeast {j | i ≤ j ∧ ¬ go j} j ∧ IsLeast {k | j ≤ k ∧ ¬ go' k} k := by
  constructor
  · rintro ⟨fuel, h⟩
    obtain ⟨j, hj, hk⟩ := Option.bind_eq_some_iff.mp h
    exact ⟨j, isLeast_of_poll hj, isLeast_of_poll hk⟩
  · rintro ⟨j, hj, hk⟩
    have hle : j ≤ k := hk.1.1
    refine ⟨k + 1, Option.bind_eq_some_iff.mpr ⟨j, ?_, ?_⟩⟩
    · exact poll_of_isLeast hj (by omega)
    · exact poll_of_isLeast hk (by omega)

end Loops

/-! ## Counters -/

/-- The samples of a counter, by the ticks it had counted at each of them; there are fewer than
`n` ticks from a sample to the next. -/
structure Samples (n : ℕ) where
  count : ℕ → ℕ
  count_le_succ : ∀ k, count k ≤ count (k + 1)
  count_succ_lt : ∀ k, count (k + 1) < count k + n

namespace Samples

variable {n : ℕ} (s : Samples n)

/-- The counter counts up. -/
lemma count_mono {i k : ℕ} (h : i ≤ k) : s.count i ≤ s.count k :=
  monotone_nat_of_le_succ s.count_le_succ h

/-- Sample `k` is the first one at least `n` ticks after sample `i`. -/
def DueAt (i k : ℕ) : Prop := IsLeast {k | i ≤ k ∧ s.count i + n ≤ s.count k} k

variable {s} {i k : ℕ}

/-- The samples before the first due one are not due. -/
lemma DueAt.count_lt_of_lt (h : s.DueAt i k) {j : ℕ} (hij : i ≤ j) (hjk : j < k) :
    s.count j < s.count i + n := by
  by_contra hge
  exact absurd (h.2 ⟨hij, Nat.le_of_not_lt hge⟩) (Nat.not_le_of_lt hjk)

/-- **Lateness.** The first due sample comes less than twice the number of ticks later.

**Proof sketch.** It is not the sample that the ticks are counted from, so there is one before
it, which is not due, and the step between the two is less than `n`. -/
theorem DueAt.count_lt (h : s.DueAt i k) : s.count k < s.count i + 2 * n := by
  have hdue := h.1.2
  rcases Nat.eq_or_lt_of_le h.1.1 with rfl | hlt
  · have hnext := s.count_le_succ i
    have hstep := s.count_succ_lt i
    omega
  · obtain ⟨j, rfl⟩ : ∃ j, k = j + 1 := ⟨k - 1, by omega⟩
    have hearly := h.count_lt_of_lt (Nat.le_of_lt_succ hlt) (Nat.lt_succ_self j)
    have hlast := s.count_succ_lt j
    omega

end Samples

end Polling

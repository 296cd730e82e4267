import Mathlib.Data.List.Basic

set_option relaxedAutoImplicit false
set_option autoImplicit false

/-!
# Transfers in chunks

A sequence is transferred chunk by chunk, and of each chunk a first part is kept: what a
receiver holds after a loop of reads and writes whose writes may be short. The receiver holds
the whole sequence exactly when every chunk was kept entirely.

## Main definitions

* `ChunkedTransfer.offered`, `ChunkedTransfer.kept`: the sequence offered and the sequence
  kept by a list of chunks, each with the length kept of it.

## Main results

* `ChunkedTransfer.kept_eq_offered_iff`: nothing is lost iff every chunk is kept entirely.
-/

namespace ChunkedTransfer

variable {α : Type*}

/-- The sequence that the chunks make up. -/
def offered (ts : List (List α × ℕ)) : List α := (ts.map Prod.fst).flatten

/-- The sequence that the kept parts of the chunks make up. -/
def kept (ts : List (List α × ℕ)) : List α := (ts.map fun t => t.1.take t.2).flatten

@[simp] theorem offered_nil : offered ([] : List (List α × ℕ)) = [] := rfl

@[simp] theorem kept_nil : kept ([] : List (List α × ℕ)) = [] := rfl

@[simp] theorem offered_cons (t : List α × ℕ) (ts : List (List α × ℕ)) :
    offered (t :: ts) = t.1 ++ offered ts := rfl

@[simp] theorem kept_cons (t : List α × ℕ) (ts : List (List α × ℕ)) :
    kept (t :: ts) = t.1.take t.2 ++ kept ts := rfl

/-- No more is kept than was offered. -/
theorem length_kept_le (ts : List (List α × ℕ)) : (kept ts).length ≤ (offered ts).length := by
  induction ts with
  | nil => simp
  | cons t ts ih =>
    simp only [kept_cons, offered_cons, List.length_append, List.length_take]
    omega

/-- Nothing is lost iff every chunk is kept entirely.

**Proof sketch.** Induction on the chunks. If the kept sequence is the offered one, the two
have the same length, and since no later chunk gives more than it was offered, the first chunk
was kept entirely; cancel it. -/
theorem kept_eq_offered_iff {ts : List (List α × ℕ)} (hle : ∀ t ∈ ts, t.2 ≤ t.1.length) :
    kept ts = offered ts ↔ ∀ t ∈ ts, t.2 = t.1.length := by
  induction ts with
  | nil => simp
  | cons t ts ih =>
    have ih := ih fun u hu => hle u (List.mem_cons_of_mem _ hu)
    have ht : t.2 ≤ t.1.length := hle t List.mem_cons_self
    simp only [kept_cons, offered_cons, List.forall_mem_cons]
    constructor
    · intro h
      have hlen := congrArg List.length h
      have hrest := length_kept_le ts
      simp only [List.length_append, List.length_take] at hlen
      have hfull : t.2 = t.1.length := by omega
      rw [hfull, List.take_length] at h
      exact ⟨hfull, ih.mp (List.append_cancel_left h)⟩
    · rintro ⟨hfull, hts⟩
      rw [hfull, List.take_length, ih.mpr hts]

end ChunkedTransfer

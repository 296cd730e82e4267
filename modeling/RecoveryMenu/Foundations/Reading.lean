import RecoveryMenu.Foundations.ByteMemory

set_option relaxedAutoImplicit false
set_option autoImplicit false

/-!
# Computations that read a frame

A computation that keeps, beside its value, the indices of the bytes it reads, in order. What a
branch does not read is not kept, so that a bound on the indices holds for the branches that are
taken and no others.

## Main definitions

* `ByteMemory.Reading`, a monad, with `Reading.and` and `Reading.or`, whose second part only reads
  if the first one does not decide.
* `ByteMemory.Frame.test` and `ByteMemory.Frame.compare`: reading one byte and several bytes.
* `ByteMemory.Reading.Below`: all indices are below a bound.

## Main results

* `ByteMemory.Reading.Below.bind`, `ByteMemory.Reading.Below.ite`: the rules for bounds.
-/

namespace ByteMemory

/-- A value, and the indices that were read for it. -/
structure Reading (α : Type*) where
  reads : List ℕ
  val : α

namespace Reading

variable {α β : Type}

instance : Monad Reading where
  pure a := ⟨[], a⟩
  bind r f := ⟨r.reads ++ (f r.val).reads, (f r.val).val⟩

/-- The conjunction that reads for its second part only if the first one holds. -/
def and (r s : Reading Bool) : Reading Bool := do
  if ← r then s else pure false

/-- The disjunction that reads for its second part only if the first one does not hold. -/
def or (r s : Reading Bool) : Reading Bool := do
  if ← r then pure true else s

/-- The value without reading. -/
@[simp] theorem val_pure (a : α) : (pure a : Reading α).val = a := rfl

/-- The value of one computation behind another. -/
@[simp] theorem val_bind (r : Reading α) (f : α → Reading β) : (r >>= f).val = (f r.val).val := rfl

/-- The value of a branch. -/
@[simp] theorem val_ite (p : Prop) [Decidable p] (r s : Reading α) :
    (if p then r else s).val = if p then r.val else s.val :=
  apply_ite _ _ _ _

/-- The value of a conjunction. -/
@[simp] theorem val_and (r s : Reading Bool) : (r.and s).val = (r.val && s.val) := by
  cases h : r.val <;> simp [Reading.and, h]

/-- The value of a disjunction. -/
@[simp] theorem val_or (r s : Reading Bool) : (r.or s).val = (r.val || s.val) := by
  cases h : r.val <;> simp [Reading.or, h]

/-! ## Bounds -/

/-- All indices that are read are below `n`. -/
def Below (n : ℕ) (r : Reading α) : Prop := ∀ i ∈ r.reads, i < n

variable {n : ℕ}

/-- Nothing is read. -/
theorem Below.pure (a : α) : Below n (Pure.pure a : Reading α) := fun _ hi =>
  absurd hi List.not_mem_nil

/-- One computation behind another. -/
theorem Below.bind {r : Reading α} {f : α → Reading β} (hr : r.Below n)
    (hf : (f r.val).Below n) : (r >>= f).Below n := fun i hi =>
  (List.mem_append.mp hi).elim (hr i) (hf i)

/-- A branch. -/
theorem Below.ite {p : Prop} [Decidable p] {r s : Reading α} (hr : p → r.Below n)
    (hs : ¬ p → s.Below n) : (if p then r else s).Below n := by
  split_ifs with h
  · exact hr h
  · exact hs h

/-- A conjunction. -/
theorem Below.and {r s : Reading Bool} (hr : r.Below n) (hs : s.Below n) : (r.and s).Below n :=
  hr.bind (.ite (fun _ => hs) fun _ => .pure false)

/-- A disjunction. -/
theorem Below.or {r s : Reading Bool} (hr : r.Below n) (hs : s.Below n) : (r.or s).Below n :=
  hr.bind (.ite (fun _ => .pure true) fun _ => hs)

end Reading

namespace Frame

/-- The test of the byte at index `i`. -/
def test (f : Frame) (i : ℕ) (p : UInt8 → Prop) [DecidablePred p] : Reading Bool :=
  ⟨[i], decide (p (f i))⟩

/-- The comparison of the bytes from index `off` on with the given ones, all of which are read. -/
def compare (f : Frame) (off : ℕ) (bs : List UInt8) : Reading Bool :=
  ⟨List.range' off bs.length, decide (f.load off bs.length = bs)⟩

/-- The value of a test. -/
@[simp] theorem val_test (f : Frame) (i : ℕ) (p : UInt8 → Prop) [DecidablePred p] :
    (f.test i p).val = decide (p (f i)) := rfl

/-- The value of a comparison. -/
@[simp] theorem val_compare (f : Frame) (off : ℕ) (bs : List UInt8) :
    (f.compare off bs).val = decide (f.load off bs.length = bs) := rfl

/-- A test reads one byte. -/
theorem below_test {f : Frame} {i n : ℕ} {p : UInt8 → Prop} [DecidablePred p] (h : i < n) :
    (f.test i p).Below n := fun _ hj =>
  (List.mem_singleton.mp hj).trans_lt h

/-- A comparison reads the bytes up to the last one. -/
theorem below_compare {f : Frame} {off n : ℕ} {bs : List UInt8} (h : off + bs.length ≤ n) :
    (f.compare off bs).Below n := fun _ hj =>
  (List.mem_range'_1.mp hj).2.trans_le h

end Frame

end ByteMemory

import RecoveryMenu.Foundations.CString

set_option relaxedAutoImplicit false
set_option autoImplicit false

/-!
# Messages with fields at fixed places

A message is a frame that starts out with zeros, and in which some fields are stored. If no two
fields have a byte in common, each of them is read back from the message, and what no field writes
still is zero. A string is stored with `strncpy`, which fills up its field with zeros and writes no
NUL if the string fills it; the zero behind the field then ends it.

## Main definitions

* `ByteMemory.Store.Disjoint`: two stores without a common byte.
* `ByteMemory.strncpy`: the bytes that `strncpy` writes.
* `ByteMemory.wordField`, `ByteMemory.stringField`: the two kinds of fields.

## Main results

* `ByteMemory.Frame.load_storeAll_of_mem`: a field is read back.
* `ByteMemory.Frame.load_storeAll_of_disjoint`: what no field writes is left alone.
* `ByteMemory.Frame.cString_storeAll`: a string is read back up to the length of its field.
-/

namespace ByteMemory

/-- Two stores that write no byte in common. -/
def Store.Disjoint (s t : Store) : Prop :=
  s.off + s.bytes.length ≤ t.off ∨ t.off + t.bytes.length ≤ s.off

instance : DecidableRel Store.Disjoint := fun s t => by
  unfold Store.Disjoint
  infer_instance

/-- The bytes that `strncpy` writes for the string `s`, where there is room for `n`. -/
def strncpy (s : List UInt8) (n : ℕ) : List UInt8 := s.take n ++ List.replicate (n - s.length) 0

/-- `strncpy` writes all bytes of the field. -/
@[simp] theorem length_strncpy (s : List UInt8) (n : ℕ) : (strncpy s n).length = n := by
  rw [strncpy, List.length_append, List.length_take, List.length_replicate]
  omega

/-- Characters behind the end of the field do not matter. -/
@[simp] theorem strncpy_take (s : List UInt8) (n : ℕ) : strncpy (s.take n) n = strncpy s n := by
  rw [strncpy, strncpy, List.take_take, Nat.min_self, List.length_take]
  congr 2
  omega

/-- A word at byte `off`. -/
def wordField (off : ℕ) (w : UInt32) : Store := ⟨off, bytesOfWord w⟩

/-- A string at byte `off`, with room for `n` characters. -/
def stringField (off : ℕ) (s : List UInt8) (n : ℕ) : Store := ⟨off, strncpy s n⟩

/-- The characters of a string without a NUL, up to the zeros behind them. -/
theorem takeWhile_strncpy {s : List UInt8} (hs : 0 ∉ s) (n : ℕ) :
    (strncpy s n).takeWhile (· ≠ 0) = s.take n := by
  have hall : ∀ c ∈ s.take n, decide (c ≠ 0) = true := fun c hc =>
    decide_eq_true fun hzero => hs (hzero ▸ List.mem_of_mem_take hc)
  have hzeros : (List.replicate (n - s.length) (0 : UInt8)).takeWhile (· ≠ 0) = [] := by
    rw [List.takeWhile_replicate]
    rfl
  rw [strncpy, List.takeWhile_append_of_pos hall, hzeros, List.append_nil]

namespace Frame

variable (f : Frame)

/-- A part of what has been loaded. -/
theorem take_drop_load {off n size : ℕ} (h : off + n ≤ size) :
    ((f.load 0 size).drop off).take n = f.load off n := by
  obtain ⟨k, rfl⟩ := Nat.exists_eq_add_of_le h
  rw [load_add, load_add, List.append_assoc, List.drop_left' (length_load f 0 off),
    List.take_left' (length_load f _ n), Nat.zero_add]

/-- A load is not changed by a store that begins behind it. -/
theorem load_store_of_le {off n off' : ℕ} (bs : List UInt8) (h : off + n ≤ off') :
    (f.store off' bs).load off n = f.load off n := by
  apply load_congr
  intro i _ hi
  exact store_of_lt f bs (by omega)

/-- **Bytes between the fields.** Stores leave a run of bytes alone that none of them writes.

**Proof sketch.** Induction on the stores. -/
theorem load_storeAll_of_disjoint {ss : List Store} {off n : ℕ}
    (h : ∀ s ∈ ss, s.off + s.bytes.length ≤ off ∨ off + n ≤ s.off) :
    (f.storeAll ss).load off n = f.load off n := by
  induction ss generalizing f with
  | nil => rfl
  | cons s ss ih =>
    rw [storeAll_cons, ih _ fun t ht => h t (List.mem_cons_of_mem s ht)]
    rcases h s List.mem_cons_self with hbefore | hbehind
    · exact load_store_of_ge f s.bytes hbefore
    · exact load_store_of_le f s.bytes hbehind

/-- **A field.** Of stores that write no byte in common, each one is read back.

**Proof sketch.** Induction on the stores: those behind a store leave its bytes alone. -/
theorem load_storeAll_of_mem {ss : List Store} (h : ss.Pairwise Store.Disjoint) {s : Store}
    (hs : s ∈ ss) : (f.storeAll ss).load s.off s.bytes.length = s.bytes := by
  induction ss generalizing f with
  | nil => cases hs
  | cons t ss ih =>
    obtain ⟨hfirst, hrest⟩ := List.pairwise_cons.mp h
    rw [storeAll_cons]
    rcases List.mem_cons.mp hs with rfl | hs
    · rw [load_storeAll_of_disjoint]
      · exact load_store_self f s.off s.bytes
      · exact fun t ht => (hfirst t ht).symm
    · exact ih _ hrest hs

/-- A word is read back. -/
theorem wordOfBytes_load_storeAll {ss : List Store} (h : ss.Pairwise Store.Disjoint) (off : ℕ)
    {w : UInt32} (hs : wordField off w ∈ ss) : wordOfBytes ((f.storeAll ss).load off 4) = w := by
  have hload := load_storeAll_of_mem f h hs
  rw [show (wordField off w).bytes = bytesOfWord w from rfl, length_bytesOfWord] at hload
  rw [show off = (wordField off w).off from rfl, hload, wordOfBytes_bytesOfWord]

/-- **A string** is read back, up to the length of its field, if there is a zero behind it. -/
theorem cString_storeAll {ss : List Store} (h : ss.Pairwise Store.Disjoint) {off n m : ℕ}
    {s : List UInt8} (hs : stringField off s n ∈ ss) (hnul : 0 ∉ s)
    (hbehind : f.storeAll ss (off + n) = 0) (hm : n < m) :
    (f.storeAll ss).cString off m = s.take n := by
  have hload := load_storeAll_of_mem f h hs
  rw [show (stringField off s n).bytes = strncpy s n from rfl, length_strncpy] at hload
  rw [cString_of_nul hbehind hm, cString, show off = (stringField off s n).off from rfl, hload,
    takeWhile_strncpy hnul]

end Frame

end ByteMemory

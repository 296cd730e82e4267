import Mathlib.Data.List.GetD
import RecoveryMenu.Foundations.BigEndian

set_option relaxedAutoImplicit false
set_option autoImplicit false

/-!
# Byte-addressed memory of a big-endian machine

Two kinds of storage. A *frame* is the storage that starts at a local array: its bytes are
numbered from the start of the array, and what lies past the end of the array is still there,
so that an access past the end has a meaning and can be spoken about. A *memory* is the flat
32-bit address space, whose addresses wrap.

## Main definitions

* `ByteMemory.Frame`, with `Frame.load`, `Frame.store`, and `Frame.word`, the big-endian word
  at a word index.
* `ByteMemory.Memory`, with `Memory.load`, `Memory.store`, `Memory.copy` and `Memory.word`, and
  `Memory.storeWords` for successive words, `Memory.writeBytes` and `Memory.copyBytes` for single
  bytes one after another.
* `ByteMemory.overwrite`: replacing a run of bytes of an array.
* `ByteMemory.Store` and `ByteMemory.Frame.storeAll`: a list of stores, one after another.

## Main results

* `ByteMemory.wordAt_flatMap`: the words of a byte string that starts with them.
* `ByteMemory.Frame.load_store_zero`: what a load inside a run just stored at the start
  returns.
* `ByteMemory.Frame.word_store_zero`: the words of such a run.
* `ByteMemory.Frame.storeAll_of_not_writes`: stores leave the other bytes alone.
* `ByteMemory.Frame.storeAll_comm`: stores to different bytes can be exchanged.
* `ByteMemory.Memory.word_store_of_ne`: a store of a word leaves the other words alone.
* `ByteMemory.Memory.storeWords_apply`: the bytes of successive words.
* `ByteMemory.Memory.writeBytes_eq_store`, `ByteMemory.Memory.copyBytes_eq_copy`: stores and
  copies, byte by byte.
-/

namespace ByteMemory

/-- The bytes `[off, off + |src|)` of an array replaced by `src`. -/
def overwrite {α : Type*} (l : List α) (off : ℕ) (src : List α) : List α :=
  l.take off ++ src ++ l.drop (off + src.length)

/-- The big-endian 32-bit word of four bytes. -/
def wordOfBytes (bs : List UInt8) : UInt32 := UInt32.ofNat (BigEndian.toNat bs)

/-- The four bytes of a word, most significant first. -/
def bytesOfWord (w : UInt32) : List UInt8 := BigEndian.ofNat 4 w.toNat

/-- The two bytes of a half-word, most significant first. -/
def bytesOfHalf (w : UInt16) : List UInt8 := BigEndian.ofNat 2 w.toNat

/-- A half-word has two bytes. -/
@[simp] theorem length_bytesOfHalf (w : UInt16) : (bytesOfHalf w).length = 2 :=
  BigEndian.length_ofNat 2 _

/-- A word has four bytes. -/
@[simp] theorem length_bytesOfWord (w : UInt32) : (bytesOfWord w).length = 4 :=
  BigEndian.length_ofNat 4 _

/-- The number of the bytes of a half-word. -/
@[simp] theorem toNat_bytesOfHalf (w : UInt16) : BigEndian.toNat (bytesOfHalf w) = w.toNat := by
  have hw : w.toNat < 256 ^ 2 := w.toNat_lt
  rw [bytesOfHalf, BigEndian.toNat_ofNat, Nat.mod_eq_of_lt hw]

/-- A word is read back from its bytes. -/
@[simp] theorem wordOfBytes_bytesOfWord (w : UInt32) : wordOfBytes (bytesOfWord w) = w := by
  have hw : w.toNat < 256 ^ 4 := w.toNat_lt
  simp only [wordOfBytes, bytesOfWord, BigEndian.toNat_ofNat, Nat.mod_eq_of_lt hw,
    UInt32.ofNat_toNat]

/-- Four bytes are read back from their word. -/
theorem bytesOfWord_wordOfBytes {bs : List UInt8} (h : bs.length = 4) :
    bytesOfWord (wordOfBytes bs) = bs := by
  have hlt := BigEndian.toNat_lt bs
  rw [h] at hlt
  rw [bytesOfWord, wordOfBytes, UInt32.toNat_ofNat', Nat.mod_eq_of_lt (by omega), ← h,
    BigEndian.ofNat_toNat]

/-- The big-endian word at word index `i` of a byte string. -/
def wordAt (bs : List UInt8) (i : ℕ) : UInt32 := wordOfBytes ((bs.drop (4 * i)).take 4)

/-- The first word of a byte string that starts with one. -/
@[simp] theorem wordAt_append_zero (w : UInt32) (bs : List UInt8) :
    wordAt (bytesOfWord w ++ bs) 0 = w := by
  simp [wordAt]

/-- The words after the first one. -/
@[simp] theorem wordAt_append_succ (w : UInt32) (bs : List UInt8) (i : ℕ) :
    wordAt (bytesOfWord w ++ bs) (i + 1) = wordAt bs i := by
  have hfirst : (bytesOfWord w).drop (4 * (i + 1)) = [] :=
    List.drop_eq_nil_of_le (by rw [length_bytesOfWord]; omega)
  have hrest : 4 * (i + 1) - (bytesOfWord w).length = 4 * i := by rw [length_bytesOfWord]; omega
  rw [wordAt, List.drop_append, hfirst, hrest, List.nil_append, wordAt]

/-- A string of words has four bytes for each. -/
theorem length_flatMap_bytesOfWord (ws : List UInt32) :
    (ws.flatMap bytesOfWord).length = 4 * ws.length := by
  induction ws with
  | nil => rfl
  | cons w ws ih =>
    rw [List.flatMap_cons, List.length_append, length_bytesOfWord, ih, List.length_cons]
    omega

/-- A string of half-words has two bytes for each. -/
theorem length_flatMap_bytesOfHalf (ws : List UInt16) :
    (ws.flatMap bytesOfHalf).length = 2 * ws.length := by
  rw [List.length_flatMap]
  simp only [length_bytesOfHalf, List.map_const', List.sum_replicate_nat]
  exact Nat.mul_comm _ _

/-- The words of a byte string that starts with them.

**Proof sketch.** Induction on the words. -/
theorem wordAt_flatMap {ws : List UInt32} (bs : List UInt8) {i : ℕ} (hi : i < ws.length) :
    wordAt (ws.flatMap bytesOfWord ++ bs) i = ws[i] := by
  induction ws generalizing i with
  | nil => cases hi
  | cons w ws ih =>
    rw [List.flatMap_cons, List.append_assoc]
    cases i with
    | zero => exact wordAt_append_zero w _
    | succ i =>
      rw [wordAt_append_succ]
      exact ih (Nat.lt_of_succ_lt_succ hi)

/-! ## Frames -/

/-- The bytes from the start of a local array on. -/
abbrev Frame := ℕ → UInt8

namespace Frame

/-- The `n` bytes from byte `off` on. -/
def load (f : Frame) (off n : ℕ) : List UInt8 := (List.range n).map fun i => f (off + i)

/-- The frame with `bs` written from byte `off` on. -/
def store (f : Frame) (off : ℕ) (bs : List UInt8) : Frame := fun i =>
  if off ≤ i then (bs[i - off]?).getD (f i) else f i

/-- The big-endian word at word index `i`. -/
def word (f : Frame) (i : ℕ) : UInt32 := wordOfBytes (f.load (4 * i) 4)

/-- A load returns as many bytes as asked for. -/
@[simp] theorem length_load (f : Frame) (off n : ℕ) : (f.load off n).length = n := by
  simp [load]

/-- Frames that agree on some bytes load the same from there. -/
theorem load_congr {f g : Frame} {off n : ℕ} (h : ∀ i, off ≤ i → i < off + n → f i = g i) :
    f.load off n = g.load off n := by
  simp only [load, List.map_inj_left, List.mem_range]
  intro i hi
  exact h (off + i) (Nat.le_add_right off i) (Nat.add_lt_add_left hi off)

/-- Frames that agree on a byte agree on it after the same store. -/
theorem store_congr {f g : Frame} {i : ℕ} (h : f i = g i) (off : ℕ) (bs : List UInt8) :
    f.store off bs i = g.store off bs i := by
  simp only [store, h]

/-- A byte from the start of a stored run on. -/
theorem store_of_le (f : Frame) {off i : ℕ} (bs : List UInt8) (h : off ≤ i) :
    f.store off bs i = (bs[i - off]?).getD (f i) :=
  if_pos h

/-- A byte before a stored run. -/
theorem store_of_lt (f : Frame) {off i : ℕ} (bs : List UInt8) (h : i < off) :
    f.store off bs i = f i :=
  if_neg (Nat.not_le.mpr h)

/-- A byte other than the one that was stored. -/
theorem store_singleton_of_ne (f : Frame) {off i : ℕ} (b : UInt8) (h : i ≠ off) :
    f.store off [b] i = f i := by
  rcases Nat.lt_or_gt_of_ne h with hlt | hgt
  · exact store_of_lt f [b] hlt
  · rw [store_of_le f [b] hgt.le, List.getElem?_eq_none, Option.getD_none]
    exact Nat.sub_pos_of_lt hgt

/-- The byte that was stored. -/
theorem store_singleton_self (f : Frame) (off : ℕ) (b : UInt8) : f.store off [b] off = b := by
  rw [store_of_le f [b] (le_refl off), Nat.sub_self]
  rfl

/-- A load inside a run just stored returns that part of the run. -/
theorem load_store_add (f : Frame) {bs : List UInt8} (off : ℕ) {i n : ℕ}
    (h : i + n ≤ bs.length) : (f.store off bs).load (off + i) n = (bs.drop i).take n := by
  apply List.ext_getElem
  · simp; omega
  · intro j h₁ h₂
    simp only [length_load] at h₁
    have hj : i + j < bs.length := by omega
    simp [load, store, List.getElem?_eq_getElem hj, Nat.add_assoc]

/-- A load inside a run just stored at the start of a frame returns that part of the run. -/
theorem load_store_zero (f : Frame) {bs : List UInt8} {off n : ℕ} (h : off + n ≤ bs.length) :
    (f.store 0 bs).load off n = (bs.drop off).take n := by
  have hload := load_store_add f 0 h
  rwa [Nat.zero_add] at hload

/-- A word inside a run just stored at the start of a frame. -/
theorem word_store_zero (f : Frame) {bs : List UInt8} {i : ℕ} (h : 4 * i + 4 ≤ bs.length) :
    (f.store 0 bs).word i = wordAt bs i := by
  rw [word, load_store_zero f h, wordAt]

/-- Loading back a stored run. -/
theorem load_store_self (f : Frame) (off : ℕ) (bs : List UInt8) :
    (f.store off bs).load off bs.length = bs := by
  apply List.ext_getElem
  · simp
  · intro i h₁ h₂
    simp [load, store, List.getElem?_eq_getElem h₂]

/-- A load is not changed by a store that ends before it. -/
theorem load_store_of_ge (f : Frame) {off n off' : ℕ} (bs : List UInt8)
    (h : off' + bs.length ≤ off) : (f.store off' bs).load off n = f.load off n := by
  simp only [load, store, List.map_inj_left, List.mem_range]
  intro i hi
  rw [if_pos (by omega), List.getElem?_eq_none (by omega), Option.getD_none]

/-- A load is a load of its first part followed by a load of the rest. -/
theorem load_add (f : Frame) (off a b : ℕ) :
    f.load off (a + b) = f.load off a ++ f.load (off + a) b := by
  simp only [load, List.range_add, List.map_append, List.map_map, Function.comp_def, add_assoc]

/-- A load is its first byte followed by a load of the rest. -/
theorem load_succ (f : Frame) (off n : ℕ) : f.load off (n + 1) = f off :: f.load (off + 1) n := by
  rw [Nat.add_comm n 1, load_add]
  rfl

/-- The bytes of the first words.

**Proof sketch.** Induction on the number of words. -/
theorem flatMap_bytesOfWord_word (f : Frame) (n : ℕ) :
    ((List.range n).map f.word).flatMap bytesOfWord = f.load 0 (4 * n) := by
  induction n with
  | zero => rfl
  | succ n ih =>
    rw [List.range_succ, List.map_append, List.flatMap_append, ih, Nat.mul_succ, load_add,
      List.map_singleton, List.flatMap_singleton, word, bytesOfWord_wordOfBytes (length_load _ _ _),
      Nat.zero_add]
end Frame

/-! ## Lists of stores -/

/-- A run of bytes, and where in a frame it is stored. -/
structure Store where
  off : ℕ
  bytes : List UInt8
  deriving DecidableEq, Repr

/-- Byte `i` is one of those that a store writes. -/
def Store.Writes (s : Store) (i : ℕ) : Prop := s.off ≤ i ∧ i < s.off + s.bytes.length

namespace Frame

/-- The frame after a list of stores, the first one first. -/
def storeAll (f : Frame) (ss : List Store) : Frame := ss.foldl (fun f s => f.store s.off s.bytes) f

/-- Without stores the frame stays. -/
@[simp] theorem storeAll_nil (f : Frame) : f.storeAll [] = f := rfl

/-- A store and then a list of stores. -/
@[simp] theorem storeAll_cons (f : Frame) (s : Store) (ss : List Store) :
    f.storeAll (s :: ss) = (f.store s.off s.bytes).storeAll ss := rfl

/-- One list of stores after another. -/
theorem storeAll_append (f : Frame) (a b : List Store) :
    f.storeAll (a ++ b) = (f.storeAll a).storeAll b :=
  List.foldl_append

/-- A byte that a store does not write stays. -/
theorem store_of_not_writes (f : Frame) {s : Store} {i : ℕ} (h : ¬ s.Writes i) :
    f.store s.off s.bytes i = f i := by
  by_cases hle : s.off ≤ i
  · have hlength : s.bytes.length ≤ i - s.off := by
      by_contra hlt
      exact h ⟨hle, by omega⟩
    rw [store_of_le f s.bytes hle, List.getElem?_eq_none hlength, Option.getD_none]
  · exact store_of_lt f s.bytes (Nat.not_le.mp hle)

/-- A byte that a store writes does not depend on what was there before. -/
theorem store_of_writes (f g : Frame) {s : Store} {i : ℕ} (h : s.Writes i) :
    f.store s.off s.bytes i = g.store s.off s.bytes i := by
  obtain ⟨hle, hlt⟩ := h
  have hlength : i - s.off < s.bytes.length := by omega
  rw [store_of_le f s.bytes hle, store_of_le g s.bytes hle, List.getElem?_eq_getElem hlength]
  rfl

/-- A byte that no store of a list writes stays.

**Proof sketch.** Induction on the list. -/
theorem storeAll_of_not_writes (f : Frame) {ss : List Store} {i : ℕ}
    (h : ∀ s ∈ ss, ¬ s.Writes i) : f.storeAll ss i = f i := by
  induction ss generalizing f with
  | nil => rfl
  | cons s ss ih =>
    rw [storeAll_cons, ih _ fun t ht => h t (List.mem_cons_of_mem s ht)]
    exact store_of_not_writes f (h s List.mem_cons_self)

/-- Frames that agree on a byte agree on it after the same stores. -/
theorem storeAll_congr {f g : Frame} {i : ℕ} (h : f i = g i) (ss : List Store) :
    f.storeAll ss i = g.storeAll ss i := by
  induction ss generalizing f g with
  | nil => exact h
  | cons s ss ih => exact ih (store_congr h s.off s.bytes)

/-- **Exchange of stores.** Two lists of stores of which no byte is written by both can be
exchanged.

**Proof sketch.** A byte that one of them does not write is what the other one makes of it. -/
theorem storeAll_comm (f : Frame) {a b : List Store}
    (h : ∀ i, (∀ s ∈ a, ¬ s.Writes i) ∨ ∀ s ∈ b, ¬ s.Writes i) :
    (f.storeAll a).storeAll b = (f.storeAll b).storeAll a := by
  funext i
  rcases h i with ha | hb
  · rw [storeAll_of_not_writes (f.storeAll b) ha]
    exact storeAll_congr (storeAll_of_not_writes f ha) b
  · rw [storeAll_of_not_writes (f.storeAll a) hb]
    exact (storeAll_congr (storeAll_of_not_writes f hb) a).symm

end Frame

/-! ## The address space -/

/-- The 32-bit address space. -/
abbrev Memory := UInt32 → UInt8

namespace Memory

/-- The `n` bytes from address `a` on. -/
def load (m : Memory) (a : UInt32) (n : ℕ) : List UInt8 :=
  (List.range n).map fun i => m (a + UInt32.ofNat i)

/-- The memory with `bs` written from address `a` on. -/
def store (m : Memory) (a : UInt32) (bs : List UInt8) : Memory := fun x =>
  (bs[(x - a).toNat]?).getD (m x)

/-- The memory after copying `n` bytes from `src` to `dst`, all read before any is written. -/
def copy (m : Memory) (dst src : UInt32) (n : ℕ) : Memory := m.store dst (m.load src n)

/-- The big-endian word at an address. -/
def word (m : Memory) (a : UInt32) : UInt32 := wordOfBytes (m.load a 4)

/-- A load returns as many bytes as asked for. -/
@[simp] theorem length_load (m : Memory) (a : UInt32) (n : ℕ) : (m.load a n).length = n := by
  simp [load]

/-- An address that a store does not write. -/
theorem store_of_le (m : Memory) {a x : UInt32} {bs : List UInt8} (h : bs.length ≤ (x - a).toNat) :
    m.store a bs x = m x := by
  rw [store, List.getElem?_eq_none h, Option.getD_none]

/-- How far an address is behind another one. -/
theorem toNat_add_sub (a : UInt32) {i : ℕ} (h : i < 2 ^ 32) :
    (a + UInt32.ofNat i - a).toNat = i := by
  rw [UInt32.toNat_sub, UInt32.toNat_add, UInt32.toNat_ofNat']
  have ha := a.toNat_lt
  omega

/-- The bytes that were stored. -/
theorem load_store_self (m : Memory) (a : UInt32) {bs : List UInt8} (h : bs.length ≤ 2 ^ 32) :
    (m.store a bs).load a bs.length = bs := by
  apply List.ext_getElem
  · simp
  · intro i h₁ h₂
    simp only [load, store, List.getElem_map, List.getElem_range]
    rw [toNat_add_sub a (by omega), List.getElem?_eq_getElem h₂, Option.getD_some]

/-- The word that was stored. -/
@[simp] theorem word_store_self (m : Memory) (a w : UInt32) :
    (m.store a (bytesOfWord w)).word a = w := by
  have hlength : (bytesOfWord w).length ≤ 2 ^ 32 := by
    rw [length_bytesOfWord]
    decide
  have hload := load_store_self m a hlength
  rw [length_bytesOfWord] at hload
  rw [word, hload, wordOfBytes_bytesOfWord]

/-- An aligned word other than the one that was stored. -/
theorem word_store_of_ne (m : Memory) {a b : UInt32} (ha : a.toNat % 4 = 0) (hb : b.toNat % 4 = 0)
    (h : a ≠ b) (w : UInt32) : (m.store b (bytesOfWord w)).word a = m.word a := by
  have hne : a.toNat ≠ b.toNat := fun heq => h (UInt32.toNat_inj.mp heq)
  have ha' := a.toNat_lt
  have hb' := b.toNat_lt
  rw [word, word, load, load]
  congr 1
  refine List.map_congr_left fun i hi => store_of_le m ?_
  have hi := List.mem_range.mp hi
  rw [length_bytesOfWord, UInt32.toNat_sub, UInt32.toNat_add, UInt32.toNat_ofNat']
  omega

/-! ## Successive words -/

/-- The memory with words stored one behind another from address `a` on. -/
def storeWords (m : Memory) (a : UInt32) : List UInt32 → Memory
  | [] => m
  | w :: ws => (m.store a (bytesOfWord w)).storeWords (a + 4) ws

/-- The words of one list behind those of another. -/
theorem storeWords_append (m : Memory) (a : UInt32) (ws ws' : List UInt32) :
    m.storeWords a (ws ++ ws') =
      (m.storeWords a ws).storeWords (a + UInt32.ofNat (4 * ws.length)) ws' := by
  induction ws generalizing m a with
  | nil => simp [storeWords]
  | cons w ws ih =>
    rw [List.cons_append, storeWords, storeWords, ih, List.length_cons]
    congr 1
    rw [UInt32.add_assoc, Nat.mul_succ, Nat.add_comm, UInt32.ofNat_add]
    rfl

/-- An address that is not written by successive words. -/
theorem storeWords_of_le (m : Memory) {a x : UInt32} {ws : List UInt32}
    (h : 4 * ws.length ≤ (x - a).toNat) : m.storeWords a ws x = m x := by
  induction ws generalizing m a with
  | nil => rfl
  | cons w ws ih =>
    rw [List.length_cons, UInt32.toNat_sub] at h
    have ha := a.toNat_lt
    have hx := x.toNat_lt
    rw [storeWords, ih, store_of_le]
    · rw [length_bytesOfWord, UInt32.toNat_sub]
      omega
    · rw [UInt32.toNat_sub, UInt32.toNat_add]
      have hfour : (4 : UInt32).toNat = 4 := rfl
      omega

/-- **Successive words.** A byte of successive words, unless it is overwritten by words that come
`2 ^ 32` bytes behind it.

**Proof sketch.** Induction on the words: the others do not write the bytes of the first one. -/
theorem storeWords_apply (m : Memory) (a : UInt32) {ws : List UInt32} {j : ℕ}
    (hj : j < 4 * ws.length) (hlast : 4 * ws.length ≤ j + 2 ^ 32) :
    m.storeWords a ws (a + UInt32.ofNat j) = (ws.flatMap bytesOfWord).getD j 0 := by
  induction ws generalizing m a j with
  | nil => cases hj
  | cons w ws ih =>
    rw [List.length_cons] at hj hlast
    rw [storeWords, List.flatMap_cons]
    by_cases hfirst : j < 4
    · have hlength : j < (bytesOfWord w).length := by rwa [length_bytesOfWord]
      rw [storeWords_of_le, store, toNat_add_sub a (by omega), List.getElem?_eq_getElem hlength,
        List.getD_append _ _ _ _ hlength, List.getD_eq_getElem _ _ hlength, Option.getD_some]
      rw [UInt32.toNat_sub, UInt32.toNat_add, UInt32.toNat_add, UInt32.toNat_ofNat']
      have ha := a.toNat_lt
      have hfour : (4 : UInt32).toNat = 4 := rfl
      omega
    · obtain ⟨k, rfl⟩ := Nat.exists_eq_add_of_le (Nat.not_lt.mp hfirst)
      have haddress : a + UInt32.ofNat (4 + k) = a + 4 + UInt32.ofNat k := by
        rw [UInt32.ofNat_add, ← UInt32.add_assoc]
        rfl
      rw [haddress, ih _ _ (by omega) (by omega), List.getD_append_right _ _ _ _ (by simp)]
      simp

/-! ## Byte by byte -/

/-- Bytes written one after another from address `a` on. -/
def writeBytes (m : Memory) (a : UInt32) : List UInt8 → Memory
  | [] => m
  | b :: bs => writeBytes (Function.update m a b) (a + 1) bs

/-- Bytes copied one after another from `src` to `dst`. -/
def copyBytes (m : Memory) (dst src : UInt32) : ℕ → Memory
  | 0 => m
  | n + 1 => copyBytes (Function.update m dst (m src)) (dst + 1) (src + 1) n

/-- The `n` bytes from `dst` on and those from `src` on have no address in common. -/
def Disjoint (dst src : UInt32) (n : ℕ) : Prop :=
  ∀ i < n, ∀ j < n, dst + UInt32.ofNat i ≠ src + UInt32.ofNat j

/-- The next address. -/
lemma add_ofNat_succ (a : UInt32) (i : ℕ) : a + UInt32.ofNat (i + 1) = a + 1 + UInt32.ofNat i := by
  rw [Nat.add_comm i 1, UInt32.ofNat_add, ← UInt32.add_assoc]
  rfl

/-- A load is its first byte followed by a load of the rest. -/
theorem load_succ (m : Memory) (a : UInt32) (n : ℕ) :
    m.load a (n + 1) = m a :: m.load (a + 1) n := by
  simp only [load, List.range_succ_eq_map, List.map_cons, List.map_map, Function.comp_def,
    add_ofNat_succ]
  congr 2
  exact UInt32.add_zero a

/-- A store is that of its first byte followed by a store of the rest.

**Proof sketch.** The first byte is not reached again: it is `2 ^ 32 - 1` bytes behind the
second one. -/
theorem store_cons (m : Memory) (a : UInt32) (b : UInt8) {bs : List UInt8}
    (h : bs.length < 2 ^ 32) :
    m.store a (b :: bs) = store (Function.update m a b) (a + 1) bs := by
  funext x
  have hx := x.toNat_lt
  have ha := a.toNat_lt
  by_cases hself : x = a
  · subst hself
    have hbehind : (x - (x + 1)).toNat = 2 ^ 32 - 1 := by
      rw [UInt32.toNat_sub, UInt32.toNat_add, show (1 : UInt32).toNat = 1 by rfl]
      omega
    rw [store_of_le (Function.update m x b) (a := x + 1) (by omega), Function.update_self, store,
      UInt32.sub_self]
    rfl
  · have hne : x.toNat ≠ a.toNat := fun heq => hself (UInt32.toNat_inj.mp heq)
    have hoffset : (x - a).toNat = (x - (a + 1)).toNat + 1 := by
      rw [UInt32.toNat_sub, UInt32.toNat_sub, UInt32.toNat_add, show (1 : UInt32).toNat = 1 by rfl]
      omega
    rw [store, store, hoffset, List.getElem?_cons_succ, Function.update_of_ne hself]

/-- Bytes written one after another are a store.

**Proof sketch.** Induction on the bytes. -/
theorem writeBytes_eq_store (m : Memory) (a : UInt32) {bs : List UInt8}
    (h : bs.length ≤ 2 ^ 32) : m.writeBytes a bs = m.store a bs := by
  induction bs generalizing m a with
  | nil => rfl
  | cons b bs ih =>
    rw [List.length_cons] at h
    rw [writeBytes, ih _ _ (by omega), store_cons m a b (by omega)]

/-- Between ranges without a common address, bytes copied one after another are a copy.

**Proof sketch.** Induction on the number of bytes: the first one that is written is not among
those that are still to be read. -/
theorem copyBytes_eq_copy (m : Memory) {dst src : UInt32} {n : ℕ} (hn : n ≤ 2 ^ 32)
    (h : Disjoint dst src n) : m.copyBytes dst src n = m.copy dst src n := by
  induction n generalizing m dst src with
  | zero => rfl
  | succ n ih =>
    have hrest : Disjoint (dst + 1) (src + 1) n := by
      intro i hi j hj
      rw [← add_ofNat_succ, ← add_ofNat_succ]
      exact h (i + 1) (Nat.succ_lt_succ hi) (j + 1) (Nat.succ_lt_succ hj)
    have hload : load (Function.update m dst (m src)) (src + 1) n = m.load (src + 1) n := by
      refine List.map_congr_left fun j hj => Function.update_of_ne ?_ _ _
      have hne := h 0 (Nat.succ_pos n) (j + 1) (Nat.succ_lt_succ (List.mem_range.mp hj))
      rw [show dst + UInt32.ofNat 0 = dst from UInt32.add_zero dst, add_ofNat_succ] at hne
      exact hne.symm
    rw [copyBytes, ih _ (by omega) hrest, copy, copy, hload, load_succ, store_cons]
    rw [length_load]
    omega

end Memory

end ByteMemory

import Mathlib.Data.List.TakeWhile
import RecoveryMenu.Foundations.ByteMemory

set_option relaxedAutoImplicit false
set_option autoImplicit false

/-!
# Strings ended by a NUL

The characters of a string in a frame, read up to its NUL or up to a limit.

## Main definitions

* `ByteMemory.Frame.cString`: the string at an offset, cut off after `n` characters.
* `ByteMemory.Frame.nulBefore`: where the first NUL of a string is, if it is before a limit.
* `ByteMemory.Frame.IsString`: a string stands somewhere with its NUL.
* `ByteMemory.Frame.strncmp`: the comparison with a string literal and its NUL.
* `ByteMemory.Memory.IsString`: a string stands at an address with its NUL.

## Main results

* `ByteMemory.Frame.cString_eq`: the string in a field that holds it with its NUL.
* `ByteMemory.Frame.cString_add`: a string that runs from one field into the next.
* `ByteMemory.Frame.cString_of_nul`: a limit behind a NUL does not matter.
* `ByteMemory.Frame.isString_cString`: what stands before a NUL is a string.
* `ByteMemory.Frame.IsString.strncmp_eq_zero_iff`: the comparison is `0` iff the strings are equal.
* `ByteMemory.Memory.IsString.length_lt`: a string fits into the address space.
* `ByteMemory.Memory.isString_of_load`: bytes with a NUL among them start with a string.
-/

namespace ByteMemory

/-- The characters of a literal. -/
def ascii (cs : List Char) : List UInt8 := cs.map fun c => UInt8.ofNat c.toNat

namespace Frame

/-- The characters from byte `off` on, up to the first NUL and at most `n` of them. -/
def cString (f : Frame) (off n : ℕ) : List UInt8 := (f.load off n).takeWhile (· ≠ 0)

/-- The index of the first NUL from byte `off` on that comes before byte `stop`. -/
def nulBefore (f : Frame) (off stop : ℕ) : Option ℕ :=
  (List.range' off (stop - off)).find? fun i => f i = 0

/-- No character of a string is a NUL. -/
theorem ne_zero_of_mem_cString {f : Frame} {off n : ℕ} {c : UInt8} (h : c ∈ f.cString off n) :
    c ≠ 0 := by
  have hpos := List.mem_takeWhile_imp (p := fun c => decide (c ≠ 0)) h
  exact of_decide_eq_true hpos

/-- A run of characters without a NUL is a string as it is. -/
theorem cString_of_not_mem {f : Frame} {off n : ℕ} (h : 0 ∉ f.load off n) :
    f.cString off n = f.load off n := by
  rw [cString, List.takeWhile_eq_self_iff]
  intro c hc
  exact decide_eq_true fun hzero => h (hzero ▸ hc)

/-- A string has all `n` characters iff there is no NUL among them. -/
theorem length_cString_eq_iff (f : Frame) (off n : ℕ) :
    (f.cString off n).length = n ↔ 0 ∉ f.load off n := by
  constructor
  · intro hlength hnul
    have hstarts := List.takeWhile_prefix (l := f.load off n) fun c => decide (c ≠ 0)
    rw [← hstarts.eq_of_length (hlength.trans (length_load f off n).symm)] at hnul
    exact ne_zero_of_mem_cString hnul rfl
  · intro h
    rw [cString_of_not_mem h, length_load]

/-- A string is empty iff it starts with the NUL. -/
theorem cString_succ_eq_nil_iff (f : Frame) (off n : ℕ) :
    f.cString off (n + 1) = [] ↔ f off = 0 := by
  rw [cString, load_succ, List.takeWhile_eq_nil_iff]
  simp

/-- Cutting off later gives the same string up to the first limit. -/
theorem take_cString (f : Frame) (off : ℕ) {n m : ℕ} (h : n ≤ m) :
    (f.cString off m).take n = f.cString off n := by
  obtain ⟨k, rfl⟩ := Nat.exists_eq_add_of_le h
  rw [cString, List.take_takeWhile, load_add, List.take_left' (length_load f off n), cString]

/-- The string in a field that holds it with its NUL.

**Proof sketch.** Cut off at its length the string is whole; any later limit comes after its
NUL. -/
theorem cString_eq {f : Frame} {off n : ℕ} {cs : List UInt8}
    (h : f.load off (cs.length + 1) = cs ++ [0]) (hne : ∀ c ∈ cs, c ≠ 0) (hn : cs.length ≤ n) :
    f.cString off n = cs := by
  have hall : ∀ c ∈ cs, decide (c ≠ 0) = true := fun c hc => decide_eq_true (hne c hc)
  have hload : f.load off cs.length = cs := by
    rw [load_add] at h
    exact (List.append_inj h (length_load f off cs.length)).1
  rcases Nat.eq_or_lt_of_le hn with rfl | hlt
  · rw [cString, hload, List.takeWhile_eq_self_iff]
    exact hall
  · obtain ⟨k, rfl⟩ := Nat.exists_eq_add_of_le (Nat.succ_le_of_lt hlt)
    rw [cString, Nat.succ_eq_add_one, load_add, h, List.append_assoc,
      List.takeWhile_append_of_pos hall, List.singleton_append,
      List.takeWhile_cons_of_neg (by decide), List.append_nil]

/-- A string that runs from one field into the next: it ends in the first field if there is a
NUL, and goes on in the second one if there is none. -/
theorem cString_add (f : Frame) (off n m : ℕ) :
    f.cString off (n + m) =
      if 0 ∈ f.load off n then f.cString off n else f.load off n ++ f.cString (off + n) m := by
  rw [cString, load_add]
  split_ifs with hnul
  · rw [List.takeWhile_append, if_neg]
    · rfl
    · intro hlength
      exact (length_cString_eq_iff f off n).mp (hlength.trans (length_load f off n)) hnul
  · rw [List.takeWhile_append_of_pos]
    · rfl
    · intro c hc
      exact decide_eq_true fun hzero => hnul (hzero ▸ hc)

/-- A limit behind a NUL does not matter. -/
theorem cString_of_nul {f : Frame} {off n m : ℕ} (hnul : f (off + n) = 0) (hlt : n < m) :
    f.cString off m = f.cString off n := by
  obtain ⟨k, rfl⟩ := Nat.exists_eq_add_of_lt hlt
  rw [Nat.add_assoc, cString_add]
  split_ifs with hmem
  · rfl
  · rw [(cString_succ_eq_nil_iff f (off + n) k).mpr hnul, List.append_nil, cString_of_not_mem hmem]

/-! ## Comparing strings -/

/-- The string `s` stands at byte `off`, with its NUL. -/
structure IsString (f : Frame) (off : ℕ) (s : List UInt8) : Prop where
  noNul : 0 ∉ s
  load_eq : f.load off (s.length + 1) = s ++ [0]

/-- `strncmp(s, t, n)` of the string at byte `off` with the `n` characters of `t`. -/
def strncmp (f : Frame) (off : ℕ) : List UInt8 → ℤ
  | [] => 0
  | c :: cs =>
    if f off ≠ c then (f off).toNat - c.toNat
    else if c = 0 then 0
    else strncmp f (off + 1) cs

/-- A string cut off at its length or later. -/
theorem IsString.cString_eq {f : Frame} {off n : ℕ} {s : List UInt8} (h : f.IsString off s)
    (hn : s.length ≤ n) : f.cString off n = s :=
  Frame.cString_eq h.load_eq (fun _ hc hzero => h.noNul (hzero ▸ hc)) hn

/-- What stands before a NUL is a string up to its first NUL.

**Proof sketch.** Induction on the limit: the first character is the NUL or the rest is a
string. -/
theorem isString_cString {f : Frame} {off n : ℕ} (hnul : f (off + n) = 0) :
    f.IsString off (f.cString off n) := by
  refine ⟨fun hmem => ne_zero_of_mem_cString hmem rfl, ?_⟩
  induction n generalizing off with
  | zero =>
    have hempty : f.cString off 0 = [] := rfl
    rw [hempty, List.length_nil, load_succ, show f off = 0 from hnul]
    rfl
  | succ n ih =>
    by_cases hzero : f off = 0
    · rw [(cString_succ_eq_nil_iff f off n).mpr hzero, List.length_nil, load_succ, hzero]
      rfl
    · have hcons : f.cString off (n + 1) = f off :: f.cString (off + 1) n := by
        rw [cString, load_succ, List.takeWhile_cons, if_pos (decide_eq_true hzero), cString]
      have hnext : f (off + 1 + n) = 0 := by
        rw [Nat.add_assoc, Nat.add_comm 1 n]
        exact hnul
      rw [hcons, List.length_cons, load_succ, ih hnext, List.cons_append]

/-- There is only one string at a place. -/
theorem IsString.eq {f : Frame} {off : ℕ} {s t : List UInt8} (hs : f.IsString off s)
    (ht : f.IsString off t) : s = t := by
  rw [← hs.cString_eq (le_max_left s.length t.length)]
  exact ht.cString_eq (le_max_right s.length t.length)

/-- Characters are different iff their difference is not `0`. -/
lemma sub_toNat_eq_zero_iff (c d : UInt8) : (c.toNat : ℤ) - d.toNat = 0 ↔ c = d := by
  rw [sub_eq_zero, Nat.cast_inj, UInt8.toNat_inj]

/-- The comparison with a literal and its NUL is `0` iff the literal stands there.

**Proof sketch.** Induction on the literal. -/
theorem strncmp_eq_zero_iff (f : Frame) (off : ℕ) {lit : List UInt8} (h : 0 ∉ lit) :
    f.strncmp off (lit ++ [0]) = 0 ↔ f.IsString off lit := by
  have hload : f.IsString off lit ↔ f.load off (lit.length + 1) = lit ++ [0] :=
    ⟨IsString.load_eq, IsString.mk h⟩
  rw [hload]
  clear hload
  induction lit generalizing off with
  | nil =>
    rw [List.nil_append, strncmp, List.length_nil, load_succ, List.cons_eq_cons, if_pos rfl]
    split_ifs with hne
    · exact iff_of_false (mt (sub_toNat_eq_zero_iff (f off) 0).mp hne) fun heq => hne heq.1
    · exact iff_of_true rfl ⟨not_not.mp hne, rfl⟩
  | cons c lit ih =>
    obtain ⟨hc, hlit⟩ := not_or.mp (mt List.mem_cons.mpr h)
    rw [List.cons_append, strncmp, List.length_cons, load_succ, List.cons_eq_cons,
      if_neg (Ne.symm hc)]
    split_ifs with hne
    · exact iff_of_false (mt (sub_toNat_eq_zero_iff (f off) c).mp hne) fun heq => hne heq.1
    · exact (ih (off + 1) hlit).trans (and_iff_right (not_not.mp hne)).symm

/-- **Comparing with a literal.** The comparison of a string with a literal and its NUL is `0` iff
they are equal. -/
theorem IsString.strncmp_eq_zero_iff {f : Frame} {off : ℕ} {s lit : List UInt8}
    (hs : f.IsString off s) (h : 0 ∉ lit) : f.strncmp off (lit ++ [0]) = 0 ↔ s = lit := by
  rw [Frame.strncmp_eq_zero_iff f off h]
  constructor
  · exact hs.eq
  · rintro rfl
    exact hs

end Frame

/-! ## Strings in the address space -/

namespace Memory

/-- The string `s` stands at address `a`, with its NUL. -/
def IsString (m : Memory) : UInt32 → List UInt8 → Prop
  | a, [] => m a = 0
  | a, c :: s => m a = c ∧ c ≠ 0 ∧ IsString m (a + 1) s

/-- The characters of a string are not NULs, and a NUL stands behind them. -/
theorem IsString.apply_eq_zero_iff {m : Memory} {a : UInt32} {s : List UInt8} (h : m.IsString a s)
    {i : ℕ} (hi : i ≤ s.length) : m (a + UInt32.ofNat i) = 0 ↔ i = s.length := by
  induction s generalizing a i with
  | nil =>
    obtain rfl : i = 0 := Nat.le_zero.mp hi
    exact iff_of_true ((congrArg m (UInt32.add_zero a)).trans h) rfl
  | cons c s ih =>
    obtain ⟨hc, hne, hs⟩ := h
    cases i with
    | zero =>
      refine iff_of_false ?_ (Nat.succ_ne_zero _).symm
      rwa [show a + UInt32.ofNat 0 = a from UInt32.add_zero a, hc]
    | succ i =>
      rw [add_ofNat_succ, ih hs (Nat.le_of_succ_le_succ hi), List.length_cons, Nat.succ_inj]

/-- A string with its NUL fits into the address space.

**Proof sketch.** Otherwise the NUL would be at the address of a character. -/
theorem IsString.length_lt {m : Memory} {a : UInt32} {s : List UInt8} (h : m.IsString a s) :
    s.length < 2 ^ 32 := by
  by_contra hlong
  have haddress : UInt32.ofNat s.length = UInt32.ofNat (s.length - 2 ^ 32) := by
    apply UInt32.toNat_inj.mp
    rw [UInt32.toNat_ofNat', UInt32.toNat_ofNat']
    omega
  have hnul := (h.apply_eq_zero_iff (le_refl s.length)).mpr rfl
  rw [haddress, h.apply_eq_zero_iff (Nat.sub_le _ _)] at hnul
  omega

/-- Bytes with a NUL among them start with a string. -/
theorem isString_of_load {m : Memory} {a : UInt32} {bs : List UInt8}
    (h : m.load a bs.length = bs) (hnul : 0 ∈ bs) : m.IsString a (bs.takeWhile (· ≠ 0)) := by
  induction bs generalizing a with
  | nil => exact absurd hnul List.not_mem_nil
  | cons c bs ih =>
    rw [List.length_cons, load_succ, List.cons_eq_cons] at h
    obtain ⟨hc, hrest⟩ := h
    by_cases hzero : c = 0
    · rw [List.takeWhile_cons_of_neg (by simpa using hzero)]
      exact hc.trans hzero
    · rw [List.takeWhile_cons_of_pos (by simpa using hzero)]
      have hmem : 0 ∈ bs := (List.mem_cons.mp hnul).resolve_left (Ne.symm hzero)
      exact ⟨hc, hzero, ih hrest hmem⟩

end Memory

end ByteMemory

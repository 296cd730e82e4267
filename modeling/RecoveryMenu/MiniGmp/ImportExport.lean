import Mathlib.Logic.Function.Basic
import RecoveryMenu.Foundations.ByteMemory
import RecoveryMenu.MiniGmp.Mpz

set_option relaxedAutoImplicit false
set_option autoImplicit false

/-!
# Numbers as bytes (`ios_mcp/source/mini-gmp.c`)

A number is read from words of bytes, and written to them. The words come with the highest or
with the lowest one first, and so do the bytes of each word, and a word has any size. Both
functions go from the lowest byte to the highest one, by a pointer that moves to the next byte of
a word and then on to the next word.

What a pointer points to is given by how far it has moved.

## Main definitions

* `RecoveryMenu.MiniGmp.byteAddrs`: where the pointer goes.
* `RecoveryMenu.MiniGmp.mpzImport`, `RecoveryMenu.MiniGmp.mpzExport`: the functions.

## Main results

* `RecoveryMenu.MiniGmp.nodup_byteAddrs`: the pointer goes to every byte once.
* `RecoveryMenu.MiniGmp.value_mpzImport`: the number that is read.
* `RecoveryMenu.MiniGmp.mpzImport_mpzExport`: what is written is read back.

## References

* `ios_mcp/source/mini-gmp.c`: lines 4448 to 4624.
-/

namespace RecoveryMenu

namespace MiniGmp

open ByteMemory (bytesOfWord)

/-! ## The functions -/

/-- `gmp_detect_endian`, from the first byte of the number two. -/
def gmpDetectEndian : ℤ := 1 - ((bytesOfWord 2).headD 0).toNat

/-- The `endian` that both functions go on with. -/
def endianOf (endian : ℤ) : ℤ := if endian = 0 then gmpDetectEndian else endian

section Pointer

variable (order : ℤ) (size : ℕ) (endian : ℤ)

/-- `word_step`. -/
def wordStep : ℤ :=
  let wordStep : ℤ := if order ≠ endian then 2 * size else 0
  if order = 1 then -wordStep else wordStep

/-- The pointer before the loops. -/
def firstAddr (count : ℕ) : ℤ :=
  (if order = 1 then size * ((count : ℤ) - 1) else 0) + if endian = 1 then (size : ℤ) - 1 else 0

/-- Where the pointer is in the inner loop. -/
def wordAddrs (endian : ℤ) : ℕ → ℤ → List ℤ
  | 0, _ => []
  | size + 1, p => p :: wordAddrs endian size (p - endian)

/-- Where it is in the outer loop. -/
def addrsFrom : ℕ → ℤ → List ℤ
  | 0, _ => []
  | count + 1, p =>
    wordAddrs endian size p ++ addrsFrom count (p - size * endian + wordStep order size endian)

/-- Where it is in both loops, from the lowest byte on. -/
def byteAddrs (count : ℕ) : List ℤ :=
  addrsFrom order size endian count (firstAddr order size endian count)

end Pointer

/-- What `mpz_import` has of a number: the limbs that are completed, and the current one with the
bytes that it has. -/
structure ImportState where
  rp : List UInt32
  limb : UInt32
  bytes : UInt32

/-- The body of the loops of `mpz_import`, for the byte `b`. -/
def importByte (s : ImportState) (b : UInt8) : ImportState :=
  let limb := s.limb ||| (b.toUInt32 <<< (s.bytes * 8))
  let bytes := s.bytes + 1
  if bytes = 4 then { rp := s.rp ++ [limb], limb := 0, bytes := 0 }
  else { s with limb, bytes }

/-- `mpz_import`, without nails. -/
def mpzImport (count : ℕ) (order : ℤ) (size : ℕ) (endian : ℤ) (src : ℤ → UInt8) : Mpz :=
  let s := ((byteAddrs order size (endianOf endian) count).map src).foldl importByte
    { rp := [], limb := 0, bytes := 0 }
  if h : s.limb ≠ 0 then
    { neg := false
      limbs := s.rp ++ [s.limb]
      top_ne_zero _ := by rwa [List.getLast_append_singleton]
      neg_of_nil _ := rfl }
  else .ofLimbs s.rp

/-- What a shift by a byte leaves. -/
lemma toNat_shiftRight_eight (limb : UInt32) : (limb >>> 8).toNat = limb.toNat / 256 := by
  rw [UInt32.toNat_shiftRight, Nat.shiftRight_eq_div_pow]
  rfl

/-- The loop that counts the bytes of the highest limb: `k`, and what it leaves of the limb. -/
def limbBytes (limb : UInt32) : ℕ × UInt32 :=
  if limb >>> 8 ≠ 0 then
    let (k, limb) := limbBytes (limb >>> 8)
    (k + 1, limb)
  else (1, limb >>> 8)
termination_by limb.toNat
decreasing_by
  rename_i h
  have hne : (limb >>> 8).toNat ≠ 0 := fun hzero => h (UInt32.toNat_inj.mp hzero)
  rw [toNat_shiftRight_eight] at hne ⊢
  omega

/-- What `mpz_export` has left of a number: the limbs that are to come, and the current one with
the bytes that are left in it. -/
structure ExportState where
  up : List UInt32
  limb : UInt32
  bytes : UInt32

/-- The body of the loops of `mpz_export`: the byte, and what is left. -/
def exportByte (s : ExportState) : UInt8 × ExportState :=
  let s := if s.bytes = 0 then { up := s.up.tail, limb := s.up.headD s.limb, bytes := 4 } else s
  (s.limb.toUInt8, { s with limb := s.limb >>> 8, bytes := s.bytes - 1 })

/-- Bytes written one after another. -/
def writeAt (r : ℤ → UInt8) : List ℤ → List UInt8 → ℤ → UInt8
  | p :: ps, b :: bs => writeAt (Function.update r p b) ps bs
  | _, _ => r

/-- `mpz_export`, without nails: what `r` points to then, and the number of words. -/
def mpzExport (r : ℤ → UInt8) (order : ℤ) (size : ℕ) (endian : ℤ) (u : Mpz) : (ℤ → UInt8) × ℕ :=
  if u.limbs = [] then (r, 0)
  else
    let (k, limb) := limbBytes (u.limbs.getLastD 0)
    let count := (k + (u.limbs.length - 1) * 4 + size - 1) / size
    let addrs := byteAddrs order size (endianOf endian) count
    let (bytes, _) := Positional.carried (fun _ s => exportByte s) addrs
      { up := u.limbs, limb, bytes := 0 }
    (writeAt r addrs bytes, count)

/-! ## The pointer -/

section Pointer

variable {order endian : ℤ} {size count : ℕ}

/-- The bytes of a word, from the one that the pointer comes to first. -/
lemma mem_wordAddrs (he : endian = 1 ∨ endian = -1) {q a : ℤ}
    (ha : a ∈ wordAddrs endian size (q + if endian = 1 then (size : ℤ) - 1 else 0)) :
    q ≤ a ∧ a < q + size := by
  have hgen (n : ℕ) (p : ℤ) (h : a ∈ wordAddrs endian n p) :
      ∃ j : ℕ, j < n ∧ a = p - j * endian := by
    induction n generalizing p with
    | zero => cases h
    | succ n ih =>
      rcases List.mem_cons.mp h with rfl | h
      · exact ⟨0, Nat.succ_pos n, by simp⟩
      · obtain ⟨j, hj, rfl⟩ := ih _ h
        exact ⟨j + 1, Nat.succ_lt_succ hj, by push_cast; ring⟩
  obtain ⟨j, hj, rfl⟩ := hgen _ _ ha
  rcases he with rfl | rfl
  · rw [if_pos rfl]
    omega
  · rw [if_neg (by decide)]
    omega

/-- In a word the pointer comes to no byte twice. -/
lemma nodup_wordAddrs (he : endian = 1 ∨ endian = -1) (p : ℤ) :
    (wordAddrs endian size p).Nodup := by
  have hlater (n : ℕ) (p a : ℤ) (h : a ∈ wordAddrs endian n p) : (p - a) * endian ≥ 0 := by
    induction n generalizing p with
    | zero => cases h
    | succ n ih =>
      rcases List.mem_cons.mp h with rfl | h
      · simp
      · have := ih _ h
        rcases he with rfl | rfl <;> omega
  induction size generalizing p with
  | zero => exact List.nodup_nil
  | succ size ih =>
    refine List.nodup_cons.mpr ⟨fun hmem => ?_, ih _⟩
    have := hlater _ _ _ hmem
    rcases he with rfl | rfl <;> omega

/-- From one word the pointer goes to the one before it or behind it. -/
lemma addrsFrom_succ (ho : order = 1 ∨ order = -1) (he : endian = 1 ∨ endian = -1) (q : ℤ) :
    addrsFrom order size endian (count + 1) (q + if endian = 1 then (size : ℤ) - 1 else 0) =
      wordAddrs endian size (q + if endian = 1 then (size : ℤ) - 1 else 0) ++
        addrsFrom order size endian count
          (q - order * size + if endian = 1 then (size : ℤ) - 1 else 0) := by
  rw [addrsFrom]
  congr 2
  rcases ho with rfl | rfl <;> rcases he with rfl | rfl <;> simp [wordStep] <;> ring

/-- The bytes that the pointer comes to are those of the words. -/
lemma mem_addrsFrom (ho : order = 1 ∨ order = -1) (he : endian = 1 ∨ endian = -1) {q a : ℤ}
    (ha : a ∈ addrsFrom order size endian count
      (q + if endian = 1 then (size : ℤ) - 1 else 0)) :
    ∃ w : ℕ, w < count ∧ q - order * (w * size : ℕ) ≤ a ∧
      a < q - order * (w * size : ℕ) + size := by
  induction count generalizing q with
  | zero => cases ha
  | succ count ih =>
    rw [addrsFrom_succ ho he] at ha
    rcases List.mem_append.mp ha with h | h
    · have := mem_wordAddrs he h
      exact ⟨0, Nat.succ_pos count, by simpa using this⟩
    · obtain ⟨w, hw, hle, hlt⟩ := ih h
      refine ⟨w + 1, Nat.succ_lt_succ hw, ?_, ?_⟩
      · rw [Nat.succ_mul]
        push_cast at hle ⊢
        linarith
      · rw [Nat.succ_mul]
        push_cast at hlt ⊢
        linarith

/-- **The pointer comes to no byte twice**, whatever the order of the words and of their bytes is.

**Proof sketch.** In a word it goes one way, and the words that come later are all before the first
one or all behind it. -/
theorem nodup_byteAddrs (ho : order = 1 ∨ order = -1) (he : endian = 1 ∨ endian = -1) :
    (byteAddrs order size endian count).Nodup := by
  have hgen (n : ℕ) (q : ℤ) : (addrsFrom order size endian n
      (q + if endian = 1 then (size : ℤ) - 1 else 0)).Nodup := by
    induction n generalizing q with
    | zero => exact List.nodup_nil
    | succ n ih =>
      rw [addrsFrom_succ ho he]
      refine List.nodup_append.mpr ⟨nodup_wordAddrs he _, ih _, fun a ha b hb hab => ?_⟩
      subst hab
      have hword := mem_wordAddrs he ha
      obtain ⟨w, -, hle, hlt⟩ := mem_addrsFrom ho he hb
      rcases ho with rfl | rfl <;> omega
  exact hgen _ _

/-- The pointer stays where the words are. -/
theorem mem_byteAddrs (ho : order = 1 ∨ order = -1) (he : endian = 1 ∨ endian = -1) {a : ℤ}
    (ha : a ∈ byteAddrs order size endian count) : 0 ≤ a ∧ a < (count * size : ℕ) := by
  obtain ⟨w, hw, hle, hlt⟩ := mem_addrsFrom ho he ha
  have hwords : w * size + size ≤ count * size := by
    rw [← Nat.succ_mul]
    exact Nat.mul_le_mul_right size hw
  rcases ho with rfl | rfl
  · rw [if_pos rfl] at hle hlt
    have hlast : (size : ℤ) * (count - 1) = (count * size : ℕ) - size := by push_cast; ring
    rw [hlast] at hle hlt
    omega
  · rw [if_neg (by decide)] at hle hlt
    omega

/-- It comes to as many bytes as there are. -/
theorem length_byteAddrs : (byteAddrs order size endian count).length = count * size := by
  have hword (n : ℕ) (p : ℤ) : (wordAddrs endian n p).length = n := by
    induction n generalizing p with
    | zero => rfl
    | succ n ih => rw [wordAddrs, List.length_cons, ih]
  have hgen (n : ℕ) (p : ℤ) : (addrsFrom order size endian n p).length = n * size := by
    induction n generalizing p with
    | zero => simp [addrsFrom]
    | succ n ih => rw [addrsFrom, List.length_append, hword, ih, Nat.succ_mul, Nat.add_comm]
  exact hgen _ _

end Pointer

/-- The order of the bytes in a word is one or the other. -/
lemma endianOf_eq {endian : ℤ} (he : -1 ≤ endian ∧ endian ≤ 1) :
    endianOf endian = 1 ∨ endianOf endian = -1 := by
  rw [endianOf]
  split_ifs with h
  · exact .inl (by decide)
  · omega

/-! ## Reading -/

/-- The number that bytes are, the lowest one first. -/
def byteNum (bs : List UInt8) : ℤ := Positional.value 256 (fun b => (b.toNat : ℤ)) bs

@[simp] theorem byteNum_nil : byteNum [] = 0 := rfl

/-- What bytes can count for. -/
lemma byteNum_lt (bs : List UInt8) : 0 ≤ byteNum bs ∧ byteNum bs < 256 ^ bs.length := by
  refine Positional.value_lt (fun b => ?_) bs
  have := b.toNat_lt
  omega

/-- One more byte at the high end. -/
lemma byteNum_append_one (bs : List UInt8) (b : UInt8) :
    byteNum (bs ++ [b]) = byteNum bs + 256 ^ bs.length * b.toNat := by
  rw [byteNum, Positional.value_append]
  simp [byteNum]

/-- What `mpz_import` has after the bytes `bs`. -/
structure Imported (bs : List UInt8) (s : ImportState) : Prop where
  bytes_lt : s.bytes.toNat < 4
  limb_lt : s.limb.toNat < 2 ^ (8 * s.bytes.toNat)
  length_eq : bs.length = 4 * s.rp.length + s.bytes.toNat
  num_eq : num s.rp + (2 ^ 32) ^ s.rp.length * s.limb.toNat = byteNum bs

/-- A byte goes on top of those that the current limb has. -/
lemma toNat_or_byte {limb bytes : UInt32} (b : UInt8) (hbytes : bytes.toNat < 4)
    (hlimb : limb.toNat < 2 ^ (8 * bytes.toNat)) :
    (limb ||| (b.toUInt32 <<< (bytes * 8))).toNat =
      limb.toNat + 2 ^ (8 * bytes.toNat) * b.toNat := by
  have hb := b.toNat_lt
  have hshift : (bytes * 8).toNat = 8 * bytes.toNat := by
    rw [UInt32.toNat_mul, show (8 : UInt32).toNat = 8 from rfl]
    omega
  have hroom : b.toNat * 2 ^ (8 * bytes.toNat) < 2 ^ 32 := by
    have hpow : 2 ^ (8 * bytes.toNat) ≤ 2 ^ 24 := Nat.pow_le_pow_right (by decide) (by omega)
    have := Nat.mul_le_mul hb.le hpow
    have := Nat.mul_lt_mul_of_lt_of_le hb hpow (by decide)
    omega
  have hup : (b.toUInt32 <<< (bytes * 8)).toNat = 2 ^ (8 * bytes.toNat) * b.toNat := by
    rw [UInt32.toNat_shiftLeft, hshift, Nat.mod_eq_of_lt (show 8 * bytes.toNat < 32 by omega),
      UInt8.toNat_toUInt32, Nat.shiftLeft_eq, Nat.mod_eq_of_lt hroom, Nat.mul_comm]
  rw [UInt32.toNat_or, Nat.or_comm, hup, or_eq_add (Nat.dvd_mul_right _ _) hlimb, Nat.add_comm]

/-- The next byte. -/
lemma Imported.importByte {bs : List UInt8} {s : ImportState} (h : Imported bs s) (b : UInt8) :
    Imported (bs ++ [b]) (importByte s b) := by
  have hbytes := h.bytes_lt
  have hb := b.toNat_lt
  have hor := toNat_or_byte b hbytes h.limb_lt
  have hnext : (s.bytes + 1).toNat = s.bytes.toNat + 1 := by
    rw [UInt32.toNat_add, UInt32.toNat_one]
    omega
  have hpow : (256 : ℤ) ^ bs.length = (2 ^ 32) ^ s.rp.length * 2 ^ (8 * s.bytes.toNat) := by
    rw [h.length_eq, pow_add, pow_mul, pow_mul]
    norm_num
  have hnum : num s.rp + (2 ^ 32) ^ s.rp.length *
      (s.limb ||| (b.toUInt32 <<< (s.bytes * 8))).toNat = byteNum (bs ++ [b]) := by
    rw [byteNum_append_one, hor, hpow]
    push_cast
    linear_combination h.num_eq
  rw [MiniGmp.importByte]
  split_ifs with hfull
  · have hthree : s.bytes.toNat = 3 := by
      have := congrArg UInt32.toNat hfull
      rw [hnext, show (4 : UInt32).toNat = 4 from rfl] at this
      omega
    refine ⟨show (0 : UInt32).toNat < 4 by decide, show (0 : UInt32).toNat < 2 ^ (8 * 0) by decide,
      ?_, ?_⟩
    · simp only [List.length_append, List.length_singleton, h.length_eq, UInt32.toNat_zero]
      omega
    · rw [num_append_one, hnum, UInt32.toNat_zero, Nat.cast_zero, mul_zero, add_zero]
  · have hne : s.bytes.toNat + 1 ≠ 4 := by
      intro heq
      exact hfull (UInt32.toNat_inj.mp (hnext.trans heq))
    refine ⟨?_, ?_, ?_, hnum⟩
    · dsimp only
      omega
    · dsimp only
      rw [hor, hnext, Nat.mul_succ, Nat.pow_add]
      have := h.limb_lt
      have := Nat.mul_le_mul_left (2 ^ (8 * s.bytes.toNat)) (show b.toNat + 1 ≤ 2 ^ 8 from hb)
      rw [Nat.mul_succ] at this
      omega
    · simp only [List.length_append, List.length_singleton, h.length_eq, hnext]
      omega

/-- The loops. -/
lemma imported_foldl (bs : List UInt8) :
    Imported bs (bs.foldl importByte { rp := [], limb := 0, bytes := 0 }) := by
  induction bs using List.reverseRecOn with
  | nil => exact ⟨by decide, by decide, rfl, by simp⟩
  | append_singleton bs b ih =>
    rw [List.foldl_append]
    exact ih.importByte b

/-- **Reading.** The number that is read is the one of the bytes that the pointer comes to.

**Proof sketch.** After each byte the limbs that are completed and the current one are the number
so far (`Imported.importByte`), and a current limb that is zero counts for nothing. -/
theorem value_mpzImport (count : ℕ) (order : ℤ) (size : ℕ) (endian : ℤ) (src : ℤ → UInt8) :
    (mpzImport count order size endian src).value =
      byteNum ((byteAddrs order size (endianOf endian) count).map src) := by
  have hnum := (imported_foldl ((byteAddrs order size (endianOf endian) count).map src)).num_eq
  rw [mpzImport, ← hnum]
  split_ifs with hlimb
  · exact num_append_one _ _
  · rw [Mpz.value_ofLimbs, not_not.mp hlimb]
    simp

/-! ## Writing -/

/-- What `mpz_export` has left is a number. -/
def ExportState.value (s : ExportState) : ℤ := s.limb.toNat + 256 ^ s.bytes.toNat * num s.up

/-- The current limb has no more bytes than are counted. -/
structure ExportState.Good (s : ExportState) : Prop where
  bytes_le : s.bytes.toNat ≤ 4
  limb_lt : s.limb.toNat < 256 ^ s.bytes.toNat

/-- A byte that is taken from the current limb. -/
lemma takeByte_eq {up : List UInt32} {limb bytes : UInt32}
    (h : ExportState.Good { up, limb, bytes }) (hne : bytes ≠ 0) :
    ExportState.Good { up, limb := limb >>> 8, bytes := bytes - 1 } ∧
      limb.toUInt8.toNat + 256 * ExportState.value { up, limb := limb >>> 8, bytes := bytes - 1 } =
        ExportState.value { up, limb, bytes } := by
  obtain ⟨hle, hlt⟩ := h
  dsimp only at hle hlt
  have hpos : bytes.toNat ≠ 0 := fun hzero => hne (UInt32.toNat_inj.mp hzero)
  have hnext : bytes.toNat = (bytes - 1).toNat + 1 := by
    rw [UInt32.toNat_sub, UInt32.toNat_one]
    omega
  rw [hnext, Nat.pow_succ] at hlt
  have hdiv := Nat.mod_add_div limb.toNat 256
  refine ⟨⟨by dsimp only; omega, ?_⟩, ?_⟩
  · dsimp only
    rw [toNat_shiftRight_eight]
    exact Nat.div_lt_of_lt_mul (by rw [Nat.mul_comm]; exact hlt)
  · rw [ExportState.value, ExportState.value]
    dsimp only
    rw [UInt32.toNat_toUInt8, toNat_shiftRight_eight, hnext, pow_succ]
    zify at hdiv
    push_cast
    linear_combination hdiv

/-- The body of the loops takes the lowest byte off. -/
lemma exportByte_eq {s : ExportState} (h : s.Good) :
    (exportByte s).2.Good ∧
      ((exportByte s).1.toNat : ℤ) + 256 * (exportByte s).2.value = s.value := by
  rw [exportByte]
  split_ifs with hzero
  · -- the current limb is used up, and the next one is taken
    have hlimb : s.limb.toNat = 0 := by
      have := h.limb_lt
      rw [hzero] at this
      exact Nat.lt_one_iff.mp this
    have hvalue : s.value = ExportState.value
        { up := s.up.tail, limb := s.up.headD s.limb, bytes := 4 } := by
      rw [ExportState.value, ExportState.value, hlimb, hzero]
      rcases hup : s.up with _ | ⟨u, up⟩
      · simp [hlimb]
      · simp only [num_cons, List.headD_cons, List.tail_cons, show (4 : UInt32).toNat = 4 from rfl,
          UInt32.toNat_zero]
        norm_num
    rw [hvalue]
    exact takeByte_eq ⟨le_refl 4, (s.up.headD s.limb).toNat_lt⟩
      (show (4 : UInt32) ≠ 0 by decide)
  · exact takeByte_eq h hzero

/-- What is written at other places stays. -/
lemma writeAt_of_not_mem (r : ℤ → UInt8) {ps : List ℤ} (bs : List UInt8) {i : ℤ} (h : i ∉ ps) :
    writeAt r ps bs i = r i := by
  induction ps generalizing r bs with
  | nil => rfl
  | cons p ps ih =>
    obtain ⟨hp, hps⟩ : i ≠ p ∧ i ∉ ps := by simpa using h
    rcases bs with _ | ⟨b, bs⟩
    · rfl
    · rw [writeAt, ih _ _ hps, Function.update_of_ne hp]

/-- What is written at different places is there. -/
lemma map_writeAt (r : ℤ → UInt8) {ps : List ℤ} {bs : List UInt8} (h : ps.Nodup)
    (hlen : bs.length = ps.length) : ps.map (writeAt r ps bs) = bs := by
  induction ps generalizing r bs with
  | nil => exact (List.length_eq_zero_iff.mp hlen).symm
  | cons p ps ih =>
    obtain ⟨hp, hps⟩ := List.nodup_cons.mp h
    rcases bs with _ | ⟨b, bs⟩
    · simp at hlen
    · rw [writeAt, List.map_cons, writeAt_of_not_mem _ _ hp, Function.update_self,
        ih _ hps (by simpa using hlen)]

/-- The bytes that a limb has. -/
lemma limbBytes_spec (limb : UInt32) :
    1 ≤ (limbBytes limb).1 ∧ limb.toNat < 256 ^ (limbBytes limb).1 ∧
      (limb ≠ 0 → 256 ^ ((limbBytes limb).1 - 1) ≤ limb.toNat) ∧ (limbBytes limb).2 = 0 := by
  induction limb using limbBytes.induct with
  | case1 limb hnext k rest hrec ih =>
    obtain ⟨hpos, hlt, hle, hzero⟩ := ih
    have hle := hle hnext
    rw [toNat_shiftRight_eight] at hlt hle
    have hpow : 256 ^ (limbBytes (limb >>> 8)).1 =
        256 ^ ((limbBytes (limb >>> 8)).1 - 1) * 256 := by
      rw [← Nat.pow_succ, Nat.succ_eq_add_one, Nat.sub_add_cancel hpos]
    rw [limbBytes, if_pos hnext]
    refine ⟨Nat.le_add_left 1 _, ?_, fun _ => ?_, hzero⟩
    · dsimp only
      rw [Nat.pow_succ]
      omega
    · dsimp only
      rw [Nat.add_sub_cancel, hpow]
      omega
  | case2 limb hnext =>
    have hlast := congrArg UInt32.toNat (not_not.mp hnext)
    rw [toNat_shiftRight_eight, UInt32.toNat_zero] at hlast
    rw [limbBytes, if_neg hnext]
    refine ⟨le_refl 1, by dsimp only; omega, fun hne => ?_, not_not.mp hnext⟩
    have : limb.toNat ≠ 0 := fun hzero => hne (UInt32.toNat_inj.mp hzero)
    dsimp only
    omega

/-- The bytes of a number, as many as its highest limb says. -/
lemma num_lt_of_top {xs : List UInt32} (h : xs ≠ []) (htop : xs.getLast h ≠ 0) :
    let n := (limbBytes (xs.getLastD 0)).1 + (xs.length - 1) * 4
    1 ≤ n ∧ 256 ^ (n - 1) ≤ num xs ∧ num xs < 256 ^ n := by
  obtain ⟨lo, t, rfl⟩ : ∃ lo t, xs = lo ++ [t] :=
    ⟨xs.dropLast, xs.getLast h, (List.dropLast_append_getLast h).symm⟩
  have ht : t ≠ 0 := by simpa using htop
  obtain ⟨hpos, hlt, hle, -⟩ := limbBytes_spec t
  have hle := hle ht
  have hlo := num_lt lo
  have hbase : (256 : ℤ) ^ (lo.length * 4) = (2 ^ 32) ^ lo.length := by
    rw [Nat.mul_comm, pow_mul]
    norm_num
  have hP : (0 : ℤ) < (2 ^ 32) ^ lo.length := by positivity
  rw [List.getLastD_concat, List.length_append, List.length_singleton, Nat.add_sub_cancel,
    num_append_one]
  dsimp only
  zify at hlt hle
  refine ⟨by omega, ?_, ?_⟩
  · rw [show (limbBytes t).1 + lo.length * 4 - 1 = (limbBytes t).1 - 1 + lo.length * 4 by omega,
      pow_add, hbase]
    nlinarith
  · rw [pow_add, hbase]
    nlinarith

/-- Words are as few as have room for the bytes. -/
lemma words_le_iff {n size : ℕ} (hsize : 0 < size) (hn : 1 ≤ n) (c : ℕ) :
    (n + size - 1) / size ≤ c ↔ n ≤ c * size := by
  rw [← Nat.lt_succ_iff, Nat.div_lt_iff_lt_mul hsize, Nat.succ_mul]
  omega

/-- **Writing.** The bytes that are written are those of the absolute value, there are as few words
as have room for it, and no other bytes are written.

**Proof sketch.** What is left of the number loses its lowest byte in each round (`exportByte_eq`),
and nothing is left behind the words. -/
theorem mpzExport_spec (r : ℤ → UInt8) {order endian : ℤ} {size : ℕ} (u : Mpz)
    (ho : order = 1 ∨ order = -1) (he : -1 ≤ endian ∧ endian ≤ 1) (hsize : 0 < size) :
    let out := mpzExport r order size endian u
    byteNum ((byteAddrs order size (endianOf endian) out.2).map out.1) = |u.value| ∧
      (∀ c, out.2 ≤ c ↔ |u.value| < 256 ^ (c * size)) ∧
      ∀ i : ℤ, i < 0 ∨ (out.2 * size : ℕ) ≤ i → out.1 i = r i := by
  have hendian := endianOf_eq he
  rw [← u.num_limbs]
  by_cases hu : u.limbs = []
  · rw [mpzExport, if_pos hu, hu]
    refine ⟨by simp [byteAddrs, addrsFrom], fun c => ?_, fun i _ => rfl⟩
    simp
  · obtain ⟨hn, hle, hlt⟩ := num_lt_of_top hu (u.top_ne_zero hu)
    have hleft := (limbBytes_spec (u.limbs.getLastD 0)).2.2.2
    rw [mpzExport, if_neg hu]
    rcases hk : limbBytes (u.limbs.getLastD 0) with ⟨k, limb⟩
    rw [hk] at hn hle hlt hleft
    dsimp only at hn hle hlt hleft ⊢
    generalize k + (u.limbs.length - 1) * 4 = n at hn hle hlt ⊢
    generalize hcount : (n + size - 1) / size = count
    have hwords := words_le_iff hsize hn
    rw [hcount] at hwords
    have hroom : n ≤ count * size := (hwords count).mp (le_refl _)
    have hlen : (byteAddrs order size (endianOf endian) count).length = count * size :=
      length_byteAddrs
    have hgood : ExportState.Good { up := u.limbs, limb, bytes := 0 } :=
      ⟨show 0 ≤ 4 by decide, by rw [hleft]; exact Nat.one_pos⟩
    obtain ⟨-, hrun⟩ := Positional.value_carried_of_good (256 : ℤ) (fun _ : ℤ => 0)
      (fun b : UInt8 => (b.toNat : ℤ)) ExportState.value ExportState.Good
      (fun _ s hs => by
        obtain ⟨h₁, h₂⟩ := exportByte_eq hs
        exact ⟨h₁, h₂.trans (zero_add _).symm⟩)
      (byteAddrs order size (endianOf endian) count) hgood
    have hbytes : (Positional.carried (fun (_ : ℤ) s => exportByte s)
        (byteAddrs order size (endianOf endian) count)
        { up := u.limbs, limb, bytes := 0 }).1.length = count * size := by
      rw [Positional.length_carried, hlen]
    rw [Positional.value_eq_zero _ _ fun _ _ => rfl, zero_add, hlen] at hrun
    generalize Positional.carried (fun (_ : ℤ) s => exportByte s)
        (byteAddrs order size (endianOf endian) count)
        { up := u.limbs, limb, bytes := 0 } = out at *
    obtain ⟨bytes, rest⟩ := out
    dsimp only at hrun hbytes ⊢
    have hwritten : (byteAddrs order size (endianOf endian) count).map
        (writeAt r (byteAddrs order size (endianOf endian) count) bytes) = bytes :=
      map_writeAt r (nodup_byteAddrs ho hendian) (hbytes.trans hlen.symm)
    refine ⟨?_, fun c => ?_, fun i hi => writeAt_of_not_mem r bytes fun hmem => ?_⟩
    · -- nothing is left, since there is room for the number
      have hnum : byteNum bytes + 256 ^ (count * size) * rest.value = num u.limbs := by
        refine hrun.trans ?_
        rw [ExportState.value, hleft]
        simp
      have hbound := byteNum_lt bytes
      rw [hbytes] at hbound
      have hpow : (256 : ℤ) ^ n ≤ 256 ^ (count * size) := pow_le_pow_right₀ (by norm_num) hroom
      have hz := eq_zero_of_add_mul ⟨(num_lt u.limbs).1, hlt.trans_le hpow⟩ hbound hnum.symm
      rw [hwritten, ← hnum, hz, mul_zero, add_zero]
    · rw [hwords]
      constructor
      · intro hc
        exact hlt.trans_le (pow_le_pow_right₀ (by norm_num) hc)
      · intro hc
        have hlast := (pow_lt_pow_iff_right₀ (show (1 : ℤ) < 256 by norm_num)).mp (hle.trans_lt hc)
        omega
    · have := mem_byteAddrs ho hendian hmem
      omega

/-! ## Round trips -/

/-- **Round trips.** What is written is read back, for words of any size with the highest or the
lowest one first, and for any order of their bytes. There are as few words as have room for the
number, and no other bytes are written.

**Proof sketch.** What is read is the number of the bytes that the pointer comes to
(`value_mpzImport`), and these have been written (`mpzExport_spec`). -/
theorem mpzImport_mpzExport (r : ℤ → UInt8) {order endian : ℤ} {size : ℕ} (u : Mpz)
    (ho : order = 1 ∨ order = -1) (he : -1 ≤ endian ∧ endian ≤ 1) (hsize : 0 < size) :
    let out := mpzExport r order size endian u
    (mpzImport out.2 order size endian out.1).value = |u.value| ∧
      (∀ c, out.2 ≤ c ↔ |u.value| < 256 ^ (c * size)) ∧
      ∀ i : ℤ, i < 0 ∨ (out.2 * size : ℕ) ≤ i → out.1 i = r i := by
  obtain ⟨hbytes, hcount, hframe⟩ := mpzExport_spec r u ho he hsize
  exact ⟨(value_mpzImport _ _ _ _ _).trans hbytes, hcount, hframe⟩

/-- Two limbs in words of three bytes, the lowest one first, with the bytes as the machine has
them. -/
theorem mpzImport_mpzExport_threeBytes :
    let out := mpzExport (fun _ => 0) (-1) 3 0 ⟨true, [1, 2], by decide, by decide⟩
    (mpzImport out.2 (-1) 3 0 out.1).value =
        |Mpz.value ⟨true, [1, 2], by decide, by decide⟩| ∧
      (∀ c, out.2 ≤ c ↔ |Mpz.value ⟨true, [1, 2], by decide, by decide⟩| < 256 ^ (c * 3)) ∧
      ∀ i : ℤ, i < 0 ∨ (out.2 * 3 : ℕ) ≤ i → out.1 i = 0 :=
  mpzImport_mpzExport (fun _ => 0) ⟨true, [1, 2], by decide, by decide⟩ (.inr rfl)
    ⟨by decide, by decide⟩ (by decide)

end MiniGmp

end RecoveryMenu

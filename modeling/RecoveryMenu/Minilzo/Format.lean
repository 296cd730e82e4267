import RecoveryMenu.Foundations.Lz77
import RecoveryMenu.Minilzo

set_option relaxedAutoImplicit false
set_option autoImplicit false

/-!
# The format of a compressed text (`ios_mcp/source/minilzo/minilzo.c`)

What a text consists of, and what `lzo1x_decompress_safe` makes of one. There are literals and
copies in turn. Up to three literals are counted in the low bits of the copy before them, and more
of them have a length of their own. A copy is of one of the kinds of the source, `M1` to `M4`; an
`M1` has one meaning behind up to three literals, another behind more of them, and none behind a
copy, where the same byte is the length of a run. The end is an `M4` with no distance.

A length that does not fit its field has a zero there and the rest of it behind the byte. What is
here is how a text is written. The compressor is not.

## Main definitions

* `RecoveryMenu.Minilzo.Copy`, `RecoveryMenu.Minilzo.Rest`, `RecoveryMenu.Minilzo.Text`: texts,
  with `encode` for their bytes, `tokens` for what they say, and `WellFormed`.

## Main results

* `RecoveryMenu.Minilzo.enter_encode`: from a copy on, the text is expanded.
* `RecoveryMenu.Minilzo.decompress_encode`: the whole text is, if there is room for it.

## References

* `ios_mcp/source/minilzo/minilzo.c`.
-/

namespace RecoveryMenu

namespace Minilzo

open Lz77

/-! ## Texts -/

/-- The field of a length: a zero if it does not fit. -/
def lengthField (mask n : ℕ) : ℕ :=
  if n ≤ mask then n else 0

/-- The bytes of a length that does not fit, each zero for 255 and the last of them not a zero. -/
def lengthBytes (mask n : ℕ) : List UInt8 :=
  if n ≤ mask then []
  else List.replicate ((n - mask - 1) / 255) 0 ++ [UInt8.ofNat ((n - mask - 1) % 255 + 1)]

/-- A length is not zero, and its zeros are not so many that the sum of them overflows. -/
def LengthValid (mask n : ℕ) : Prop :=
  0 < n ∧ (n - mask - 1) / 255 * 255 ≤ 2 ^ 32 - 511

/-- The kinds of a copy. The second is an `M1` behind a run of literals. -/
inductive Kind
  | m1
  | m1Run
  | m2
  | m3
  | m4
  deriving DecidableEq, Repr

/-- A copy, and the kind as which it is written. -/
structure Copy where
  kind : Kind
  length : ℕ
  distance : ℕ
  deriving DecidableEq, Repr

/-- What is before a copy: another one, up to three literals, or more. -/
inductive Behind
  | copy
  | literals
  | run
  deriving DecidableEq, Repr

/-- The lengths and distances of each kind, and where it can be. -/
def Copy.Valid (behind : Behind) (c : Copy) : Prop :=
  match c.kind with
  | .m1 => behind = .literals ∧ c.length = 2 ∧ 0 < c.distance ∧ c.distance ≤ 0x400
  | .m1Run => behind = .run ∧ c.length = 3 ∧ 0x800 < c.distance ∧ c.distance ≤ 0xc00
  | .m2 => 3 ≤ c.length ∧ c.length ≤ 8 ∧ 0 < c.distance ∧ c.distance ≤ 0x800
  | .m3 => LengthValid 31 (c.length - 2) ∧ 0 < c.distance ∧ c.distance ≤ 0x4000
  | .m4 => LengthValid 7 (c.length - 2) ∧ 0x4000 < c.distance ∧ c.distance ≤ 0xbfff

/-- A distance in two bytes, the low bits of the first for the number of literals. -/
def offsetBytes (offset low : ℕ) : List UInt8 :=
  [UInt8.ofNat (offset % 64 * 4 + low), UInt8.ofNat (offset / 64)]

/-- The bytes of a copy with so many literals in its low bits. -/
def Copy.encode (c : Copy) (low : ℕ) : List UInt8 :=
  match c.kind with
  | .m1 =>
    [UInt8.ofNat ((c.distance - 1) % 4 * 4 + low), UInt8.ofNat ((c.distance - 1) / 4)]
  | .m1Run =>
    [UInt8.ofNat ((c.distance - 0x801) % 4 * 4 + low), UInt8.ofNat ((c.distance - 0x801) / 4)]
  | .m2 =>
    [UInt8.ofNat ((c.length - 1) * 32 + (c.distance - 1) % 8 * 4 + low),
      UInt8.ofNat ((c.distance - 1) / 8)]
  | .m3 =>
    UInt8.ofNat (32 + lengthField 31 (c.length - 2)) ::
      (lengthBytes 31 (c.length - 2) ++ offsetBytes (c.distance - 1) low)
  | .m4 =>
    UInt8.ofNat (16 + (c.distance - 0x4000) / 0x4000 * 8 + lengthField 7 (c.length - 2)) ::
      (lengthBytes 7 (c.length - 2) ++ offsetBytes ((c.distance - 0x4000) % 0x4000) low)

/-- What literals are to the copy behind them. -/
def behind (literals : List UInt8) : Behind :=
  if literals.length = 0 then .copy else if literals.length < 4 then .literals else .run

/-- The low bits of the copy before literals. -/
def low (literals : List UInt8) : ℕ :=
  if literals.length < 4 then literals.length else 0

/-- A run of literals with its length. -/
def runBytes (literals : List UInt8) : List UInt8 :=
  UInt8.ofNat (lengthField 15 (literals.length - 3)) ::
    (lengthBytes 15 (literals.length - 3) ++ literals)

/-- Literals behind a copy. -/
def lead (literals : List UInt8) : List UInt8 :=
  if literals.length < 4 then literals else runBytes literals

/-- The length of a run is one that can be written. -/
def LiteralsValid (literals : List UInt8) : Prop :=
  4 ≤ literals.length → LengthValid 15 (literals.length - 3)

/-- A text from a copy on, or at its end. The length and the low bits of the end are not looked
at. -/
inductive Rest
  | eof (length literals : ℕ)
  | copy (c : Copy) (literals : List UInt8) (rest : Rest)
  deriving DecidableEq, Repr

/-- The bytes of the rest of a text. -/
def Rest.encode : Rest → List UInt8
  | .eof length literals =>
    UInt8.ofNat (16 + lengthField 7 length) :: (lengthBytes 7 length ++ offsetBytes 0 literals)
  | .copy c literals rest => c.encode (low literals) ++ (lead literals ++ rest.encode)

/-- What the rest of a text says. -/
def Rest.tokens : Rest → List (Token UInt8)
  | .eof _ _ => []
  | .copy c literals rest => .copy c.length c.distance :: .literals literals :: rest.tokens

/-- Each copy is one that can be where it is. -/
def Rest.WellFormed (b : Behind) : Rest → Prop
  | .eof length literals => LengthValid 7 length ∧ literals < 4
  | .copy c literals rest =>
    c.Valid b ∧ LiteralsValid literals ∧ rest.WellFormed (behind literals)

/-- A text. Its first literals can be counted in the first byte, also if they are a run. -/
structure Text where
  literals : List UInt8
  inByte : Bool
  rest : Rest
  deriving DecidableEq, Repr

/-- The bytes of the first literals. -/
def firstBytes (literals : List UInt8) (inByte : Bool) : List UInt8 :=
  if literals.length = 0 then []
  else if literals.length < 4 ∨ inByte then UInt8.ofNat (17 + literals.length) :: literals
  else runBytes literals

/-- The bytes of a text. -/
def Text.encode (text : Text) : List UInt8 :=
  firstBytes text.literals text.inByte ++ text.rest.encode

/-- What a text says. -/
def Text.tokens (text : Text) : List (Token UInt8) :=
  .literals text.literals :: text.rest.tokens

/-- The byte at the end of a text does not count literals if it is the first of the text. -/
def Rest.Opens : Rest → Prop
  | .eof length _ => lengthField 7 length ≤ 1
  | .copy _ _ _ => True

/-- What a text has to satisfy. -/
structure Text.WellFormed (text : Text) : Prop where
  literals_valid : text.inByte = false → LiteralsValid text.literals
  inByte_le : text.inByte = true → text.literals.length ≤ 238
  opens : text.literals = [] → text.rest.Opens
  rest_wellFormed : text.rest.WellFormed (behind text.literals)

/-! ## Lengths -/

/-- A text of which these bytes are left and those are written. -/
def state (ip u : List UInt8) : Lzo :=
  ⟨ip, u.reverse, u.length⟩

/-- The field of a length fits its mask. -/
lemma lengthField_le (mask n : ℕ) : lengthField mask n ≤ mask := by
  unfold lengthField
  split
  · assumption
  · exact Nat.zero_le _

/-- There are so many bytes. -/
lemma hasBytes_iff {n : ℕ} {ip : List UInt8} : hasBytes n ip = true ↔ n ≤ ip.length := by
  induction n generalizing ip with
  | zero => simp [hasBytes]
  | succ n ih =>
    cases ip with
    | nil => simp [hasBytes]
    | cons b ip => simp [hasBytes, ih]

/-- Zeros are counted, each for 255, and the byte behind them is added. -/
lemma extend_replicate {overflow : LzoError} {k t : ℕ} {b : UInt8} {ip : List UInt8} (hb : b ≠ 0)
    (h : t + k * 255 ≤ 2 ^ 32 - 511) :
    extend overflow t (List.replicate k 0 ++ b :: ip) = .ok (t + k * 255 + b.toNat, ip) := by
  induction k generalizing t with
  | zero => simp [extend, hb]
  | succ k ih =>
    have hsum : t + 255 + k * 255 ≤ 2 ^ 32 - 511 := by omega
    rw [List.replicate_succ, List.cons_append, extend, if_pos rfl, if_neg (by omega), ih hsum]
    congr 2
    omega

/-- A length is read as it is written. -/
theorem readLength_encode (overflow : LzoError) {mask t n : ℕ} (h : LengthValid mask n)
    (ht : t % (mask + 1) = lengthField mask n) (ip u : List UInt8) :
    readLength overflow mask t (state (lengthBytes mask n ++ ip) u) = .ok (n, state ip u) := by
  obtain ⟨hpos, hsum⟩ := h
  unfold readLength
  by_cases hfits : n ≤ mask
  · simp only [lengthField, lengthBytes, if_pos hfits] at ht ⊢
    rw [if_neg (by omega), ht, List.nil_append]
  · simp only [lengthField, lengthBytes, if_neg hfits] at ht ⊢
    have hbyte : (UInt8.ofNat ((n - mask - 1) % 255 + 1)).toNat = (n - mask - 1) % 255 + 1 := by
      rw [UInt8.toNat_ofNat']
      omega
    have hne : UInt8.ofNat ((n - mask - 1) % 255 + 1) ≠ 0 := by
      intro h
      rw [h] at hbyte
      exact absurd hbyte (by simp)
    dsimp only [state]
    rw [if_pos ht, List.append_assoc, List.singleton_append, extend_replicate hne (by omega)]
    simp only [bind, Except.bind, pure, Except.pure, hbyte]
    congr 2
    omega

/-! ## Running on -/

variable {outLen : ℕ}

/-- The run behind a turn. -/
def proceed (outLen : ℕ) : Except LzoError (Option Label × Lzo) → Except LzoError Lzo
  | .error e => .error e
  | .ok (none, s) => .ok s
  | .ok (some label, s) => run outLen s.ip.length label s

/-- The run from what is before a copy. Behind a few literals its first byte is taken with
them. -/
def enter (outLen : ℕ) : Behind → Lzo → Except LzoError Lzo
  | .copy, s => run outLen s.ip.length .top s
  | .run, s => run outLen s.ip.length .firstLiteralRun s
  | .literals, s => proceed outLen do
    let (t, s) ← next s
    return (some (.lookAt t), s)

/-- More turns than there are bytes make no difference. -/
lemma run_of_le {turns : ℕ} {label : Label} {s : Lzo} (h : s.ip.length ≤ turns) :
    run outLen turns label s = run outLen s.ip.length label s := by
  induction turns, h using Nat.le_induction with
  | base => rfl
  | succ turns hle ih => rw [run_succ hle, ih]

/-- A run is a turn and the run behind it. -/
theorem run_eq (label : Label) (s : Lzo) :
    run outLen s.ip.length label s = proceed outLen (step outLen s label) := by
  rw [← run_of_le (Nat.le_succ s.ip.length), run]
  cases hstep : step outLen s label with
  | error e => rfl
  | ok r =>
    obtain ⟨_ | label', s'⟩ := r
    · rfl
    · exact run_of_le (step_spec hstep).2.le

/-- A byte is taken. -/
@[simp] lemma next_state (b : UInt8) (ip u : List UInt8) :
    next (state (b :: ip) u) = .ok (b.toNat, state ip u) := rfl

/-- There is room, or the output is overrun. -/
lemma needOp_state {n : ℕ} {ip u : List UInt8} (hu : u.length ≤ outLen) :
    needOp outLen n (state ip u) =
      if u.length + n ≤ outLen then .ok () else .error .outputOverrun := by
  have hiff : n ≤ outLen - u.length ↔ u.length + n ≤ outLen := by omega
  simp only [needOp, state, hiff]

/-- There are enough bytes. -/
lemma needIp_state {n : ℕ} {ip u : List UInt8} (h : n ≤ ip.length) :
    needIp n (state ip u) = .ok () := by
  have hbytes : hasBytes n (state ip u).ip = true := hasBytes_iff.mpr h
  rw [needIp, if_pos hbytes]

/-- Literals go from the one to the other. -/
lemma literals_state (ls ip u : List UInt8) :
    literals ls.length (state (ls ++ ip) u) = state ip (u ++ ls) := by
  induction ls generalizing u with
  | nil => simp [literals]
  | cons b ls ih =>
    have hstep : literals (b :: ls).length (state (b :: ls ++ ip) u) =
        literals ls.length (state (ls ++ ip) (u ++ [b])) := by
      simp [literals, state]
    rw [hstep, ih, List.append_assoc, List.singleton_append]

/-- The bytes of a copy are those at its distance. -/
lemma extends_copyBytes {distance t : ℕ} {u : List UInt8} (hpos : 0 < distance)
    (hle : distance ≤ u.length) :
    (Token.copy t distance).Extends u (copyBytes distance t u.reverse).reverse := by
  induction t generalizing u with
  | zero => exact extends_copy_zero.mpr ⟨hpos, hle, (List.reverse_reverse u).symm⟩
  | succ t ih =>
    have hlt : u.length - distance < u.length := by omega
    have hx : u.reverse.getD (distance - 1) 0 = u[u.length - distance] := by
      rw [List.getD_eq_getElem?_getD, List.getElem?_reverse (by omega),
        show u.length - 1 - (distance - 1) = u.length - distance by omega,
        List.getElem?_eq_getElem hlt, Option.getD_some]
    refine (extends_copy_succ hpos hle (List.getElem?_eq_getElem hlt)).mpr ?_
    rw [copyBytes, hx, ← List.reverse_concat]
    exact ih (by simpa using Nat.le_succ_of_le hle)

/-- A copy, if there is room for it. -/
theorem copyMatch_state {distance t : ℕ} {ip u v : List UInt8} (hu : u.length ≤ outLen)
    (h : (Token.copy t distance).Extends u v) :
    copyMatch outLen distance t (state ip u) =
      if v.length ≤ outLen then .ok (state ip v) else .error .outputOverrun := by
  obtain ⟨hpos, hle, hlength, -⟩ := id h
  have hiff : t ≤ outLen - u.length ↔ v.length ≤ outLen := by omega
  have hout : copyBytes distance t u.reverse = v.reverse := by
    rw [h.unique (extends_copyBytes hpos hle), List.reverse_reverse]
  simp only [copyMatch, state, if_pos hle, hiff, hout, hlength]

/-! ## Copies -/

/-- What is before a copy does not matter where its first byte is not that of an `M1`. -/
lemma enter_lookAt {b : UInt8} {ip u : List UInt8} (hb : 16 ≤ b.toNat) (hip : 2 ≤ ip.length)
    (c : Behind) :
    enter outLen c (state (b :: ip) u) =
      proceed outLen (step outLen (state ip u) (.lookAt b.toNat)) := by
  have hneed : needIp 3 (state (b :: ip) u) = .ok () :=
    needIp_state (by rw [List.length_cons]; omega)
  cases c with
  | copy =>
    rw [enter, run_eq, step, hneed]
    simp only [bind, Except.bind, next_state, if_pos hb, pure, Except.pure, proceed]
    exact run_eq _ _
  | literals =>
    simp only [enter, bind, Except.bind, next_state, pure, Except.pure, proceed]
    exact run_eq _ _
  | run =>
    rw [enter, run_eq, step]
    simp only [bind, Except.bind, next_state, if_pos hb, pure, Except.pure, proceed]
    exact run_eq _ _

/-- A copy with a byte for its distance. -/
lemma nearMatch_state {n t : ℕ} {distance : ℕ → ℕ} {b : UInt8} {ip u v : List UInt8}
    (hu : u.length ≤ outLen) (h : (Token.copy n (distance b.toNat)).Extends u v) :
    nearMatch outLen n t distance (state (b :: ip) u) =
      if v.length ≤ outLen then matchDone outLen (t % 4) (state ip v)
      else .error .outputOverrun := by
  simp only [nearMatch, bind, Except.bind, next_state, copyMatch_state hu h]
  by_cases hv : v.length ≤ outLen
  · simp only [if_pos hv]
  · simp only [if_neg hv]

/-- A copy with two of them. -/
lemma farMatch_state {n offset l : ℕ} {distance : ℕ → Option ℕ} {ip u : List UInt8}
    (hoffset : offset < 0x4000) (hl : l < 4) :
    farMatch outLen n distance (state (offsetBytes offset l ++ ip) u) =
      match distance offset with
      | none => .ok (none, state ip u)
      | some d => copyMatch outLen d (n + 2) (state ip u) >>= matchDone outLen l := by
  have h0 : (UInt8.ofNat (offset % 64 * 4 + l)).toNat = offset % 64 * 4 + l := by
    rw [UInt8.toNat_ofNat']
    omega
  have h1 : (UInt8.ofNat (offset / 64)).toNat = offset / 64 := by
    rw [UInt8.toNat_ofNat']
    omega
  have hsum : (offset % 64 * 4 + l) / 4 + offset / 64 * 64 = offset := by omega
  have hlow : (offset % 64 * 4 + l) % 4 = l := by omega
  simp only [farMatch, offsetBytes, List.cons_append, List.nil_append, bind, Except.bind,
    next_state, h0, h1, hsum, hlow]
  cases distance offset <;> rfl

/-- A byte written from a number is that number. -/
lemma toNat_ofNat {n : ℕ} (h : n < 256) : (UInt8.ofNat n).toNat = n := by
  rw [UInt8.toNat_ofNat']
  exact Nat.mod_eq_of_lt h

/-- What a copy comes to: the text behind it is matched, if there was room for the copy. -/
def copied (outLen l : ℕ) (ip v : List UInt8) : Except LzoError Lzo :=
  if v.length ≤ outLen then proceed outLen (matchDone outLen l (state ip v))
  else .error .outputOverrun

/-- A turn with a copy in it. -/
lemma proceed_ite {l : ℕ} {ip v : List UInt8} :
    proceed outLen (if v.length ≤ outLen then matchDone outLen l (state ip v)
      else .error .outputOverrun) = copied outLen l ip v := by
  unfold copied
  by_cases hv : v.length ≤ outLen
  · rw [if_pos hv, if_pos hv]
  · rw [if_neg hv, if_neg hv, proceed]

section Kinds

variable {l length distance : ℕ} {ip u v : List UInt8} (hl : l < 4) (hu : u.length ≤ outLen)
  (h : (Token.copy length distance).Extends u v)

include hl hu h

/-- Two bytes are copied behind up to three literals. -/
lemma enter_m1 (hlength : length = 2) (hpos : 0 < distance) (hle : distance ≤ 0x400) :
    enter outLen .literals (state ((Copy.mk .m1 length distance).encode l ++ ip) u) =
      copied outLen l ip v := by
  subst hlength
  have ht := toNat_ofNat (show (distance - 1) % 4 * 4 + l < 256 by omega)
  have hd := toNat_ofNat (show (distance - 1) / 4 < 256 by omega)
  have hdistance : 1 + ((distance - 1) % 4 * 4 + l) / 4 + (distance - 1) / 4 * 4 = distance := by
    omega
  simp only [Copy.encode, List.cons_append, List.nil_append, enter, bind, Except.bind,
    next_state, pure, Except.pure, proceed]
  rw [run_eq, step, ht, if_neg (by omega), if_neg (by omega), if_neg (by omega),
    nearMatch_state hu (v := v), show ((distance - 1) % 4 * 4 + l) % 4 = l by omega, proceed_ite]
  rw [hd, hdistance]
  exact h

/-- Three bytes are copied behind a run. -/
lemma enter_m1Run (hlength : length = 3) (hlt : 0x800 < distance) (hle : distance ≤ 0xc00) :
    enter outLen .run (state ((Copy.mk .m1Run length distance).encode l ++ ip) u) =
      copied outLen l ip v := by
  subst hlength
  have ht := toNat_ofNat (show (distance - 0x801) % 4 * 4 + l < 256 by omega)
  have hd := toNat_ofNat (show (distance - 0x801) / 4 < 256 by omega)
  have hdistance : 1 + 0x0800 + ((distance - 0x801) % 4 * 4 + l) / 4 +
      (distance - 0x801) / 4 * 4 = distance := by omega
  simp only [Copy.encode, List.cons_append, List.nil_append, enter]
  rw [run_eq]
  simp only [step, bind, Except.bind, next_state, ht]
  rw [if_neg (by omega), nearMatch_state hu (v := v),
    show ((distance - 0x801) % 4 * 4 + l) % 4 = l by omega, proceed_ite]
  rw [hd, hdistance]
  exact h

/-- A short copy from a short distance. -/
lemma enter_m2 (b : Behind) (hip : 0 < ip.length) (hmin : 3 ≤ length) (hmax : length ≤ 8)
    (hpos : 0 < distance) (hle : distance ≤ 0x800) :
    enter outLen b (state ((Copy.mk .m2 length distance).encode l ++ ip) u) =
      copied outLen l ip v := by
  have ht := toNat_ofNat (show (length - 1) * 32 + (distance - 1) % 8 * 4 + l < 256 by omega)
  have hd := toNat_ofNat (show (distance - 1) / 8 < 256 by omega)
  have hlength : ((length - 1) * 32 + (distance - 1) % 8 * 4 + l) / 32 + 1 = length := by omega
  have hdistance : 1 + ((length - 1) * 32 + (distance - 1) % 8 * 4 + l) / 4 % 8 +
      (distance - 1) / 8 * 8 = distance := by omega
  simp only [Copy.encode, List.cons_append, List.nil_append]
  rw [enter_lookAt (by rw [ht]; omega) (by rw [List.length_cons]; omega), ht, step,
    if_pos (by omega), nearMatch_state hu (v := v),
    show ((length - 1) * 32 + (distance - 1) % 8 * 4 + l) % 4 = l by omega, proceed_ite]
  rw [hd, hdistance, hlength]
  exact h

/-- A copy from a middle distance. -/
lemma enter_m3 (b : Behind) (hlength : LengthValid 31 (length - 2)) (hpos : 0 < distance)
    (hle : distance ≤ 0x4000) :
    enter outLen b (state ((Copy.mk .m3 length distance).encode l ++ ip) u) =
      copied outLen l ip v := by
  have hlong : length - 2 + 2 = length := Nat.sub_add_cancel (by have := hlength.1; omega)
  have hfield := lengthField_le 31 (length - 2)
  have ht := toNat_ofNat (show 32 + lengthField 31 (length - 2) < 256 by omega)
  have hread := readLength_encode LzoError.outputOverrun
    (t := 32 + lengthField 31 (length - 2)) hlength (by omega)
    (offsetBytes (distance - 1) l ++ ip) u
  simp only [Copy.encode, List.cons_append, List.append_assoc]
  rw [enter_lookAt (by rw [ht]; omega) (by simp [offsetBytes]; omega), ht, step,
    if_neg (by omega), if_pos (by omega), hread]
  simp only [bind, Except.bind]
  rw [needIp_state (by simp [offsetBytes]), farMatch_state (by omega) hl]
  simp only [show 1 + (distance - 1) = distance by omega, hlong, copyMatch_state hu h]
  rw [← proceed_ite]
  by_cases hv : v.length ≤ outLen
  · simp only [if_pos hv, bind, Except.bind]
  · simp only [if_neg hv, bind, Except.bind]

/-- A copy from a long distance. -/
lemma enter_m4 (b : Behind) (hlength : LengthValid 7 (length - 2)) (hlt : 0x4000 < distance)
    (hle : distance ≤ 0xbfff) :
    enter outLen b (state ((Copy.mk .m4 length distance).encode l ++ ip) u) =
      copied outLen l ip v := by
  have hlong : length - 2 + 2 = length := Nat.sub_add_cancel (by have := hlength.1; omega)
  have hfield := lengthField_le 7 (length - 2)
  obtain ⟨d, rfl⟩ : ∃ d, distance = d + 0x4000 := ⟨distance - 0x4000, by omega⟩
  have hd : d + 0x4000 - 0x4000 = d := Nat.add_sub_cancel d _
  have ht := toNat_ofNat (show 16 + d / 0x4000 * 8 + lengthField 7 (length - 2) < 256 by omega)
  have hread := readLength_encode LzoError.outputOverrun
    (t := 16 + d / 0x4000 * 8 + lengthField 7 (length - 2)) hlength (by omega)
    (offsetBytes (d % 0x4000) l ++ ip) u
  have hdistance : (16 + d / 0x4000 * 8 + lengthField 7 (length - 2)) / 8 % 2 * 0x4000 +
      d % 0x4000 = d := by omega
  simp only [Copy.encode, List.cons_append, List.append_assoc, hd]
  rw [enter_lookAt (by rw [ht]; omega) (by simp [offsetBytes]; omega), ht, step,
    if_neg (by omega), if_neg (by omega), if_pos (by omega), hread]
  simp only [bind, Except.bind]
  rw [needIp_state (by simp [offsetBytes]), farMatch_state (by omega) hl]
  simp only [hdistance, if_neg (show d ≠ 0 by omega), hlong, copyMatch_state hu h]
  rw [← proceed_ite]
  by_cases hv : v.length ≤ outLen
  · simp only [if_pos hv, bind, Except.bind]
  · simp only [if_neg hv, bind, Except.bind]

end Kinds

/-- A copy of any kind is carried out. The first byte tells the kind, together with what is before
the copy for an `M1`. -/
theorem enter_copy {c : Copy} {b : Behind} {l : ℕ} {ip u v : List UInt8} (hc : c.Valid b)
    (hl : l < 4) (hip : 0 < ip.length) (hu : u.length ≤ outLen)
    (h : (Token.copy c.length c.distance).Extends u v) :
    enter outLen b (state (c.encode l ++ ip) u) = copied outLen l ip v := by
  obtain ⟨kind, length, distance⟩ := c
  cases kind with
  | m1 =>
    obtain ⟨rfl, hlength, hpos, hle⟩ := hc
    exact enter_m1 hl hu h hlength hpos hle
  | m1Run =>
    obtain ⟨rfl, hlength, hlt, hle⟩ := hc
    exact enter_m1Run hl hu h hlength hlt hle
  | m2 => exact enter_m2 hl hu h b hip hc.1 hc.2.1 hc.2.2.1 hc.2.2.2
  | m3 => exact enter_m3 hl hu h b hc.1 hc.2.1 hc.2.2
  | m4 => exact enter_m4 hl hu h b hc.1 hc.2.1 hc.2.2

/-! ## The rest of a text -/

/-- There are three bytes at least, so that the machine can look ahead. -/
lemma three_le_length_encode (rest : Rest) : 3 ≤ rest.encode.length := by
  induction rest with
  | eof length literals => simp [Rest.encode, offsetBytes]
  | copy c literals rest ih =>
    simp only [Rest.encode, List.length_append]
    omega

/-- A run of literals is copied, if there is room for it. -/
lemma top_runBytes {literals ip u : List UInt8} (hlong : 4 ≤ literals.length)
    (hvalid : LengthValid 15 (literals.length - 3)) (hip : 3 ≤ ip.length)
    (hu : u.length ≤ outLen) :
    enter outLen .copy (state (runBytes literals ++ ip) u) =
      if (u ++ literals).length ≤ outLen then enter outLen .run (state ip (u ++ literals))
      else .error .outputOverrun := by
  have hfield := lengthField_le 15 (literals.length - 3)
  have ht := toNat_ofNat (show lengthField 15 (literals.length - 3) < 256 by omega)
  have hread := readLength_encode LzoError.inputOverrun
    (t := lengthField 15 (literals.length - 3)) hvalid (by omega) (literals ++ ip) u
  have hsum : literals.length - 3 + 3 = literals.length := Nat.sub_add_cancel (by omega)
  have hbytes : literals.length - 3 + 6 ≤ (literals ++ ip).length := by
    rw [List.length_append]
    omega
  simp only [runBytes, List.cons_append, List.append_assoc, enter]
  rw [run_eq, step, needIp_state (by simp only [List.length_cons, List.length_append]; omega)]
  simp only [bind, Except.bind, next_state, ht]
  rw [if_neg (by omega), hread]
  simp only [needOp_state hu, hsum, needIp_state hbytes, literals_state, List.length_append]
  by_cases hroom : u.length + literals.length ≤ outLen
  · simp only [if_pos hroom, pure, Except.pure, proceed]
  · simp only [if_neg hroom, proceed]

/-- The literals behind a copy are copied, if there is room for them, and the next copy is
entered. -/
theorem matchDone_lead {literals ip u : List UInt8} (hvalid : LiteralsValid literals)
    (hip : 3 ≤ ip.length) (hu : u.length ≤ outLen) :
    proceed outLen (matchDone outLen (low literals) (state (lead literals ++ ip) u)) =
      if (u ++ literals).length ≤ outLen then
        enter outLen (behind literals) (state ip (u ++ literals))
      else .error .outputOverrun := by
  by_cases hshort : literals.length < 4
  · simp only [low, lead, behind, if_pos hshort]
    by_cases hnone : literals.length = 0
    · obtain rfl := List.length_eq_zero_iff.mp hnone
      simp [matchDone, proceed, enter, hu]
    · have hbytes : literals.length + 3 ≤ (literals ++ ip).length := by
        rw [List.length_append]
        omega
      rw [matchDone, if_neg hnone, if_neg hnone, needOp_state hu, needIp_state hbytes,
        List.length_append]
      simp only [bind, Except.bind, literals_state, enter]
      by_cases hroom : u.length + literals.length ≤ outLen
      · simp only [if_pos hroom]
      · simp only [if_neg hroom, proceed]
  · have hnone : literals.length ≠ 0 := by omega
    simp only [low, lead, behind, if_neg hshort, if_neg hnone]
    rw [matchDone, if_pos rfl]
    exact top_runBytes (by omega) (hvalid (by omega)) hip hu

/-- The end is reached. -/
lemma enter_eof {length l : ℕ} (b : Behind) (hlength : LengthValid 7 length) (hl : l < 4)
    (u : List UInt8) :
    enter outLen b (state (Rest.eof length l).encode u) = .ok (state [] u) := by
  have hfield := lengthField_le 7 length
  have ht := toNat_ofNat (show 16 + lengthField 7 length < 256 by omega)
  have hread := readLength_encode LzoError.outputOverrun (t := 16 + lengthField 7 length)
    hlength (by omega) (offsetBytes 0 l) u
  have hfar := @farMatch_state outLen length 0 l (fun offset =>
    if (16 + lengthField 7 length) / 8 % 2 * 0x4000 + offset = 0 then none
    else some ((16 + lengthField 7 length) / 8 % 2 * 0x4000 + offset + 0x4000)) [] u
    (by omega) hl
  rw [List.append_nil] at hfar
  have hzero : (16 + lengthField 7 length) / 8 % 2 * 0x4000 + 0 = 0 := by omega
  rw [Rest.encode, enter_lookAt (by rw [ht]; omega) (by simp [offsetBytes]), ht, step,
    if_neg (by omega), if_neg (by omega), if_pos (by omega), hread]
  simp only [bind, Except.bind]
  rw [needIp_state (by simp [offsetBytes])]
  simp only [hfar, if_pos hzero, proceed]

/-- The rest of a text is expanded, if there is room for it.

**Proof sketch.** By induction on it: a copy is carried out, the literals behind it are copied,
and the next copy is entered. Where there is no room for one of them there is none for the text,
since it only gets longer. -/
theorem enter_encode {rest : Rest} {b : Behind} {u out : List UInt8} (hrest : rest.WellFormed b)
    (hu : u.length ≤ outLen) (h : Expands rest.tokens u out) :
    enter outLen b (state rest.encode u) =
      if out.length ≤ outLen then .ok (state [] out) else .error .outputOverrun := by
  induction rest generalizing b u with
  | eof length literals =>
    obtain rfl : u = out := h
    rw [enter_eof b hrest.1 hrest.2, if_pos hu]
  | copy c literals rest ih =>
    obtain ⟨hcopy, hliterals, hwf⟩ := hrest
    obtain ⟨v, hv, w, hw, hout⟩ := h
    obtain rfl : w = v ++ literals := hw
    have hlong := hout.length_eq
    have hlow : low literals < 4 := by
      unfold low
      split
      · assumption
      · exact Nat.zero_lt_succ 3
    have hthree := three_le_length_encode rest
    rw [Rest.encode, enter_copy hcopy hlow (by rw [List.length_append]; omega) hu hv, copied]
    rw [List.length_append] at hlong
    by_cases hroom : v.length ≤ outLen
    · rw [if_pos hroom, matchDone_lead hliterals hthree hroom]
      by_cases hroom' : (v ++ literals).length ≤ outLen
      · rw [if_pos hroom', ih hwf hroom' hout]
      · rw [if_neg hroom', if_neg]
        rw [List.length_append] at hroom'
        omega
    · rw [if_neg hroom, if_neg]
      omega

/-! ## The whole text -/

/-- A text that does not begin with the number of its literals. -/
lemma start_top {b : UInt8} {ip u : List UInt8} (h : b.toNat ≤ 17) :
    start outLen (state (b :: ip) u) = .ok (some .top, state (b :: ip) u) := by
  simp only [start, state]
  rw [if_neg (by omega)]

/-- A text that does. -/
lemma start_inByte {ls ip : List UInt8} (hpos : ls.length ≠ 0)
    (hle : ls.length ≤ 238) (hip : 3 ≤ ip.length) :
    proceed outLen (start outLen (state (UInt8.ofNat (17 + ls.length) :: (ls ++ ip)) [])) =
      if ls.length ≤ outLen then enter outLen (behind ls) (state ip ls)
      else .error .outputOverrun := by
  have ht := toNat_ofNat (show 17 + ls.length < 256 by omega)
  have hzero : ([] : List UInt8).length ≤ outLen := Nat.zero_le outLen
  have hsub : 17 + ls.length - 17 = ls.length := Nat.add_sub_cancel_left 17 _
  simp only [start, state, ht, hsub]
  rw [if_pos (by omega)]
  by_cases hshort : ls.length < 4
  · rw [if_pos hshort]
    have hdone := @matchDone_lead outLen ls ip [] (fun h => absurd hshort (by omega)) hip hzero
    simp only [low, lead, if_pos hshort, List.nil_append] at hdone
    exact hdone
  · have hbytes : ls.length + 3 ≤ (ls ++ ip).length := by
      rw [List.length_append]
      omega
    have hbehind : behind ls = .run := by rw [behind, if_neg hpos, if_neg hshort]
    rw [if_neg hshort, hbehind]
    show proceed outLen (do
      needOp outLen ls.length (state (ls ++ ip) [])
      needIp (ls.length + 3) (state (ls ++ ip) [])
      return (some .firstLiteralRun, literals ls.length (state (ls ++ ip) []))) = _
    rw [needOp_state hzero, needIp_state hbytes, literals_state, List.nil_append,
      List.length_nil, Nat.zero_add]
    by_cases hroom : ls.length ≤ outLen
    · simp only [if_pos hroom, bind, Except.bind, pure, Except.pure, proceed]
      rfl
    · simp only [if_neg hroom, bind, Except.bind, proceed]

/-- The first literals are copied, if there is room for them. -/
lemma start_firstBytes {ls : List UInt8} {inByte : Bool} {rest : Rest}
    (hvalid : inByte = false → LiteralsValid ls) (hle : inByte = true → ls.length ≤ 238)
    (hopens : ls = [] → ∀ b ∈ rest.encode.head?, b.toNat ≤ 17) :
    proceed outLen (start outLen (state (firstBytes ls inByte ++ rest.encode) [])) =
      if ls.length ≤ outLen then enter outLen (behind ls) (state rest.encode ls)
      else .error .outputOverrun := by
  have hip := three_le_length_encode rest
  have hzero : ([] : List UInt8).length ≤ outLen := Nat.zero_le outLen
  unfold firstBytes
  by_cases hnone : ls.length = 0
  · obtain rfl := List.length_eq_zero_iff.mp hnone
    obtain ⟨b, ip, heq⟩ := List.exists_cons_of_length_pos (show 0 < rest.encode.length by omega)
    rw [heq] at hopens ⊢
    rw [if_pos hnone, List.nil_append, start_top (hopens rfl b rfl), proceed, if_pos hzero]
    rfl
  rw [if_neg hnone]
  by_cases hbyte : ls.length < 4 ∨ inByte = true
  · have hshort : ls.length ≤ 238 := by
      rcases hbyte with hshort | hbyte
      · omega
      · exact hle hbyte
    rw [if_pos hbyte]
    exact start_inByte hnone hshort hip
  · obtain ⟨hlong, hfalse⟩ : ¬ ls.length < 4 ∧ ¬ inByte = true := not_or.mp hbyte
    have hbehind : behind ls = .run := by rw [behind, if_neg hnone, if_neg hlong]
    have hfield := lengthField_le 15 (ls.length - 3)
    have ht := toNat_ofNat (show lengthField 15 (ls.length - 3) < 256 by omega)
    have htop := @top_runBytes outLen ls rest.encode [] (by omega)
      (hvalid (by simpa using hfalse) (by omega)) hip hzero
    rw [List.nil_append] at htop
    rw [if_neg hbyte, hbehind, ← htop, runBytes, List.cons_append, start_top (by omega), proceed,
      enter]

/-- A text does not end with its first literals. -/
lemma start_ne_none {s s' : Lzo} : start outLen s ≠ .ok (none, s') := by
  intro h
  unfold start at h
  split at h
  · exact nomatch h
  · dsimp only at h
    split_ifs at h
    · unfold matchDone at h
      split at h
      · exact nomatch h
      · obtain ⟨_, -, h⟩ := bind_eq_ok.mp h
        obtain ⟨_, -, h⟩ := bind_eq_ok.mp h
        obtain ⟨_, -, h⟩ := bind_eq_ok.mp h
        exact nomatch h
    · obtain ⟨_, -, h⟩ := bind_eq_ok.mp h
      obtain ⟨_, -, h⟩ := bind_eq_ok.mp h
      exact nomatch h
    · exact nomatch h

/-- The function by its parts. -/
lemma decompress_eq (input : List UInt8) :
    lzo1xDecompressSafe input outLen =
      match proceed outLen (start outLen (state input [])) with
      | .error e => .error e
      | .ok s => if s.ip = [] then .ok s.out.reverse else .error .inputNotConsumed := by
  have hstate : (⟨input, [], 0⟩ : Lzo) = state input [] := rfl
  unfold lzo1xDecompressSafe
  rw [hstate]
  cases hstart : start outLen (state input []) with
  | error e => rfl
  | ok r =>
    obtain ⟨_ | label, s⟩ := r
    · exact absurd hstart start_ne_none
    · simp only [bind, Except.bind, proceed]
      cases run outLen s.ip.length label s with
      | error e => rfl
      | ok s' => rfl

/-- **A text is decompressed to what it says, if the buffer has room for it.** Otherwise that is
the error. -/
theorem decompress_encode {text : Text} {out : List UInt8} (htext : text.WellFormed)
    (h : Expands text.tokens [] out) :
    lzo1xDecompressSafe text.encode outLen =
      if out.length ≤ outLen then .ok out else .error .outputOverrun := by
  obtain ⟨v, hv, hrest⟩ := h
  obtain rfl : v = text.literals := hv
  have hlong := hrest.length_eq
  have hopens : text.literals = [] → ∀ b ∈ text.rest.encode.head?, b.toNat ≤ 17 := by
    intro hnone b hb
    have hopens := htext.opens hnone
    cases hkind : text.rest with
    | eof length l =>
      rw [hkind] at hopens hb
      obtain rfl : UInt8.ofNat (16 + lengthField 7 length) = b := by
        simpa [Rest.encode] using hb
      have hfield : lengthField 7 length ≤ 1 := hopens
      rw [toNat_ofNat (by omega)]
      omega
    | copy c literals rest =>
      rw [hkind, hnone] at hrest
      obtain ⟨w, ⟨hpos, hle, -⟩, -⟩ := hrest
      exact absurd hle (by simpa using hpos.ne')
  rw [decompress_eq, Text.encode, start_firstBytes htext.literals_valid htext.inByte_le hopens]
  by_cases hroom : text.literals.length ≤ outLen
  · rw [if_pos hroom, enter_encode htext.rest_wellFormed hroom hrest]
    by_cases hroom' : out.length ≤ outLen
    · simp [if_pos hroom', state]
    · simp [if_neg hroom']
  · rw [if_neg hroom, if_neg]
    omega

end Minilzo

end RecoveryMenu

import Mathlib.Algebra.Group.Nat.Defs
import Mathlib.Data.Nat.Notation
import Mathlib.Order.Nat
import Mathlib.Tactic.SplitIfs

set_option relaxedAutoImplicit false
set_option autoImplicit false

/-!
# Decompression (`ios_mcp/source/minilzo/minilzo.c`)

`lzo1x_decompress_safe`, as the font is decompressed with it. A compressed text is a sequence of
runs of literals and of matches, which repeat what is already there. The low bits of a match are
the number of literals that follow it, and where there are none a longer run does.

The output is kept with its last byte first, so that a match is a number of bytes at a distance
from the head of the list. The labels of the source are the states of a machine; it takes a byte
of the input at each of them.

## Main definitions

* `RecoveryMenu.Minilzo.lzo1xDecompressSafe`.

## Main results

* `RecoveryMenu.Minilzo.step_spec`: what a turn of the machine does to the input and the output.
* `RecoveryMenu.Minilzo.run_succ`: the bytes of the input are turns enough.
* `RecoveryMenu.Minilzo.length_le_of_decompress`: the output does not leave its buffer.

## References

* `ios_mcp/source/minilzo/minilzo.c`, `ios_mcp/source/minilzo/lzoconf.h`.
-/

namespace RecoveryMenu

namespace Minilzo

/-! ## The function -/

/-- The results other than `LZO_E_OK`. -/
inductive LzoError
  | inputOverrun
  | outputOverrun
  | lookbehindOverrun
  | inputNotConsumed
  deriving DecidableEq, Repr

/-- The rest of the input, the output, last byte first, and the number of bytes written. -/
structure Lzo where
  ip : List UInt8
  out : List UInt8
  op : ℕ
  deriving DecidableEq, Repr

/-- The labels at which a byte `t` of the input is looked at. -/
inductive Label
  | top
  | firstLiteralRun
  | lookAt (t : ℕ)
  deriving DecidableEq, Repr

/-- So many bytes are left. -/
def hasBytes : ℕ → List UInt8 → Bool
  | 0, _ => true
  | _ + 1, [] => false
  | n + 1, _ :: ip => hasBytes n ip

/-- `NEED_IP`. -/
def needIp (n : ℕ) (s : Lzo) : Except LzoError Unit :=
  if hasBytes n s.ip then .ok () else .error .inputOverrun

/-- `NEED_OP`. -/
def needOp (outLen n : ℕ) (s : Lzo) : Except LzoError Unit :=
  if n ≤ outLen - s.op then .ok () else .error .outputOverrun

/-- `*ip++`. -/
def next (s : Lzo) : Except LzoError (ℕ × Lzo) :=
  match s.ip with
  | [] => .error .inputOverrun
  | b :: ip => .ok (b.toNat, { s with ip })

/-- `*op++ = *ip++`, so many times. -/
def literals : ℕ → Lzo → Lzo
  | 0, s => s
  | t + 1, s => literals t ⟨s.ip.drop 1, s.ip.headD 0 :: s.out, s.op + 1⟩

/-- `*op++ = *m_pos++`, so many times, with `m_pos` at a distance behind `op`. -/
def copyBytes (distance : ℕ) : ℕ → List UInt8 → List UInt8
  | 0, out => out
  | t + 1, out => copyBytes distance t (out.getD (distance - 1) 0 :: out)

/-- `TEST_LB`, `NEED_OP` and the copy of a match. -/
def copyMatch (outLen distance t : ℕ) (s : Lzo) : Except LzoError Lzo :=
  if distance ≤ s.op then
    if t ≤ outLen - s.op then .ok ⟨s.ip, copyBytes distance t s.out, s.op + t⟩
    else .error .outputOverrun
  else .error .lookbehindOverrun

/-- The bytes of a length that does not fit its field: each zero counts 255. The length must not
overflow either. -/
def extend (overflow : LzoError) (t : ℕ) : List UInt8 → Except LzoError (ℕ × List UInt8)
  | [] => .error .inputOverrun
  | b :: ip =>
    if b = 0 then
      if 2 ^ 32 - 511 < t + 255 then .error overflow else extend overflow (t + 255) ip
    else .ok (t + b.toNat, ip)

/-- A length: the field of `t` under a mask, or the bytes behind it if that is zero. -/
def readLength (overflow : LzoError) (mask t : ℕ) (s : Lzo) : Except LzoError (ℕ × Lzo) :=
  if t % (mask + 1) = 0 then do
    let (n, ip) ← extend overflow 0 s.ip
    return (mask + n, { s with ip })
  else .ok (t % (mask + 1), s)

/-- `match_done` and `match_next`: the literals behind a match. -/
def matchDone (outLen t : ℕ) (s : Lzo) : Except LzoError (Option Label × Lzo) :=
  if t = 0 then .ok (some .top, s)
  else do
    needOp outLen t s
    needIp (t + 3) s
    let (t, s) ← next (literals t s)
    return (some (.lookAt t), s)

/-- A match whose distance ends in a byte of its own. -/
def nearMatch (outLen n t : ℕ) (distance : ℕ → ℕ) (s : Lzo) :
    Except LzoError (Option Label × Lzo) := do
  let (b, s) ← next s
  let s ← copyMatch outLen (distance b) n s
  matchDone outLen (t % 4) s

/-- A match with two bytes for its distance, the first of which has the number of literals. One
kind of distance is the end of the text. -/
def farMatch (outLen n : ℕ) (distance : ℕ → Option ℕ) (s : Lzo) :
    Except LzoError (Option Label × Lzo) := do
  let (b0, s) ← next s
  let (b1, s) ← next s
  match distance (b0 / 4 + b1 * 64) with
  | none => return (none, s)
  | some d =>
    let s ← copyMatch outLen d (n + 2) s
    matchDone outLen (b0 % 4) s

/-- From one label to the next, or to the end of the text. -/
def step (outLen : ℕ) (s : Lzo) : Label → Except LzoError (Option Label × Lzo)
  | .top => do
    needIp 3 s
    let (t, s) ← next s
    if 16 ≤ t then return (some (.lookAt t), s)
    let (n, s) ← readLength .inputOverrun 15 t s
    needOp outLen (n + 3) s
    needIp (n + 6) s
    return (some .firstLiteralRun, literals (n + 3) s)
  | .firstLiteralRun => do
    let (t, s) ← next s
    if 16 ≤ t then return (some (.lookAt t), s)
    nearMatch outLen 3 t (fun b => 1 + 0x0800 + t / 4 + b * 4) s
  | .lookAt t =>
    if 64 ≤ t then nearMatch outLen (t / 32 + 1) t (fun b => 1 + t / 4 % 8 + b * 8) s
    else if 32 ≤ t then do
      let (n, s) ← readLength .outputOverrun 31 t s
      needIp 2 s
      farMatch outLen n (fun offset => some (1 + offset)) s
    else if 16 ≤ t then do
      let (n, s) ← readLength .outputOverrun 7 t s
      needIp 2 s
      farMatch outLen n (fun offset =>
        let d := t / 8 % 2 * 0x4000 + offset
        if d = 0 then none else some (d + 0x4000)) s
    else nearMatch outLen 2 t (fun b => 1 + t / 4 + b * 4) s

/-- The turns of the machine. -/
def run (outLen : ℕ) : ℕ → Label → Lzo → Except LzoError Lzo
  | 0, _, _ => .error .inputOverrun
  | turns + 1, label, s =>
    match step outLen s label with
    | .error e => .error e
    | .ok (none, s) => .ok s
    | .ok (some label, s) => run outLen turns label s

/-- Up to the first label: a text can begin with literals. -/
def start (outLen : ℕ) (s : Lzo) : Except LzoError (Option Label × Lzo) :=
  match s.ip with
  | [] => .error .inputOverrun
  | b :: ip =>
    if 17 < b.toNat then
      let t := b.toNat - 17
      if t < 4 then matchDone outLen t { s with ip }
      else do
        needOp outLen t { s with ip }
        needIp (t + 3) { s with ip }
        return (some .firstLiteralRun, literals t { s with ip })
    else .ok (some .top, s)

/-- `lzo1x_decompress_safe`: the bytes of the output, or what is wrong with the input. -/
def lzo1xDecompressSafe (input : List UInt8) (outLen : ℕ) : Except LzoError (List UInt8) := do
  match ← start outLen ⟨input, [], 0⟩ with
  | (none, s) => return s.out.reverse
  | (some label, s) =>
    let s ← run outLen s.ip.length label s
    if s.ip = [] then return s.out.reverse else throw .inputNotConsumed

/-! ## Turns of the machine -/

/-- The pointer to the output is where its bytes end, and in its buffer. -/
structure Fits (outLen : ℕ) (s : Lzo) : Prop where
  op_eq : s.op = s.out.length
  op_le : s.op ≤ outLen

/-- What every part of the machine does: the output stays in its buffer, and the input does not
get longer. -/
structure Moves (outLen : ℕ) (s s' : Lzo) : Prop where
  fits : Fits outLen s → Fits outLen s'
  ip_le : s'.ip.length ≤ s.ip.length

variable {outLen : ℕ}

/-- Moves go on from one another. -/
lemma Moves.trans {s s' s'' : Lzo} (h : Moves outLen s s') (h' : Moves outLen s' s'') :
    Moves outLen s s'' :=
  ⟨fun hfits => h'.fits (h.fits hfits), h'.ip_le.trans h.ip_le⟩

/-- A computation with a result has one for each of its parts. -/
lemma bind_eq_ok {α β : Type} {x : Except LzoError α} {f : α → Except LzoError β} {b : β} :
    x >>= f = .ok b ↔ ∃ a, x = .ok a ∧ f a = .ok b := by
  cases x with
  | error e => simp [bind, Except.bind]
  | ok a => simp [bind, Except.bind]

/-- A byte of the input is taken. -/
lemma next_spec {s s' : Lzo} {t : ℕ} (h : next s = .ok (t, s')) :
    Moves outLen s s' ∧ s'.ip.length < s.ip.length := by
  rcases s with ⟨_ | ⟨b, ip⟩, out, op⟩
  · exact nomatch h
  · obtain ⟨-, rfl⟩ : b.toNat = t ∧ ⟨ip, out, op⟩ = s' := by simpa [next] using h
    exact ⟨⟨fun hfits => ⟨hfits.op_eq, hfits.op_le⟩, by simp⟩, by simp⟩

/-- Literals are as many bytes of the output as of the input. -/
lemma literals_spec {s : Lzo} {t : ℕ} (hroom : t ≤ outLen - s.op) :
    Moves outLen s (literals t s) := by
  induction t generalizing s with
  | zero => exact ⟨id, le_rfl⟩
  | succ t ih =>
    have hmove : Moves outLen s ⟨s.ip.drop 1, s.ip.headD 0 :: s.out, s.op + 1⟩ := by
      refine ⟨fun hfits => ⟨?_, ?_⟩, by simp⟩
      · simp [hfits.op_eq]
      · show s.op + 1 ≤ outLen
        omega
    refine hmove.trans (ih ?_)
    show t ≤ outLen - (s.op + 1)
    omega

/-- A copy makes the output so many bytes longer. -/
lemma length_copyBytes (distance t : ℕ) (out : List UInt8) :
    (copyBytes distance t out).length = out.length + t := by
  induction t generalizing out with
  | zero => rfl
  | succ t ih =>
    rw [copyBytes, ih, List.length_cons]
    omega

/-- There is room for a match. -/
lemma copyMatch_spec {s s' : Lzo} {distance t : ℕ}
    (h : copyMatch outLen distance t s = .ok s') : Moves outLen s s' := by
  unfold copyMatch at h
  split at h
  · split at h
    · next _ hroom =>
      obtain rfl : ⟨s.ip, copyBytes distance t s.out, s.op + t⟩ = s' := by simpa using h
      refine ⟨fun hfits => ⟨?_, ?_⟩, le_rfl⟩
      · show s.op + t = _
        rw [length_copyBytes, hfits.op_eq]
      · have := hfits.op_le
        show s.op + t ≤ outLen
        omega
    · exact nomatch h
  · exact nomatch h

/-- The bytes of a length are taken. -/
lemma extend_spec {overflow : LzoError} {t n : ℕ} {ip rest : List UInt8}
    (h : extend overflow t ip = .ok (n, rest)) : rest.length ≤ ip.length := by
  induction ip generalizing t with
  | nil => exact nomatch h
  | cons b ip ih =>
    rw [extend] at h
    split_ifs at h with hzero hlarge
    · exact (ih h).trans (by simp)
    · obtain ⟨-, rfl⟩ : t + b.toNat = n ∧ ip = rest := by simpa using h
      simp

/-- A length only takes bytes of the input. -/
lemma readLength_spec {overflow : LzoError} {mask t n : ℕ} {s s' : Lzo}
    (h : readLength overflow mask t s = .ok (n, s')) : Moves outLen s s' := by
  unfold readLength at h
  split at h
  · obtain ⟨⟨m, rest⟩, hextend, hresult⟩ := bind_eq_ok.mp h
    obtain ⟨-, rfl⟩ : mask + m = n ∧ { s with ip := rest } = s' := by
      simpa [pure, Except.pure] using hresult
    exact ⟨fun hfits => ⟨hfits.op_eq, hfits.op_le⟩, extend_spec hextend⟩
  · obtain ⟨-, rfl⟩ : t % (mask + 1) = n ∧ s = s' := by simpa using h
    exact ⟨id, le_rfl⟩

/-- The check of the output. -/
lemma needOp_spec {n : ℕ} {s : Lzo} {u : Unit} (h : needOp outLen n s = .ok u) :
    n ≤ outLen - s.op := by
  unfold needOp at h
  split at h
  · assumption
  · exact nomatch h

/-- The literals behind a match. -/
lemma matchDone_spec {t : ℕ} {s s' : Lzo} {label : Option Label}
    (h : matchDone outLen t s = .ok (label, s')) : Moves outLen s s' := by
  unfold matchDone at h
  split at h
  · obtain ⟨-, rfl⟩ : some .top = label ∧ s = s' := by simpa using h
    exact ⟨id, le_rfl⟩
  · obtain ⟨_, hroom, h⟩ := bind_eq_ok.mp h
    obtain ⟨_, -, h⟩ := bind_eq_ok.mp h
    obtain ⟨⟨b, s₁⟩, hnext, hresult⟩ := bind_eq_ok.mp h
    obtain ⟨-, rfl⟩ : some (.lookAt b) = label ∧ s₁ = s' := by
      simpa [pure, Except.pure] using hresult
    exact (literals_spec (needOp_spec hroom)).trans (next_spec hnext).1

/-- A match takes a byte at least. -/
lemma nearMatch_spec {n t : ℕ} {distance : ℕ → ℕ} {s s' : Lzo} {label : Option Label}
    (h : nearMatch outLen n t distance s = .ok (label, s')) :
    Moves outLen s s' ∧ s'.ip.length < s.ip.length := by
  obtain ⟨⟨b, s₁⟩, hnext, h⟩ := bind_eq_ok.mp h
  obtain ⟨s₂, hcopy, hdone⟩ := bind_eq_ok.mp h
  obtain ⟨hmove, hlt⟩ := next_spec hnext
  have hrest := (copyMatch_spec hcopy).trans (matchDone_spec hdone)
  exact ⟨hmove.trans hrest, hrest.ip_le.trans_lt hlt⟩

/-- So does the end of the text. -/
lemma farMatch_spec {n : ℕ} {distance : ℕ → Option ℕ} {s s' : Lzo} {label : Option Label}
    (h : farMatch outLen n distance s = .ok (label, s')) :
    Moves outLen s s' ∧ s'.ip.length < s.ip.length := by
  obtain ⟨⟨b0, s₁⟩, hnext₀, h⟩ := bind_eq_ok.mp h
  obtain ⟨⟨b1, s₂⟩, hnext₁, h⟩ := bind_eq_ok.mp h
  obtain ⟨hmove₀, hlt₀⟩ := @next_spec outLen _ _ _ hnext₀
  obtain ⟨hmove₁, hlt₁⟩ := @next_spec outLen _ _ _ hnext₁
  have hmove := hmove₀.trans hmove₁
  have hlt := hlt₁.trans hlt₀
  dsimp only at h
  split at h
  · obtain ⟨-, rfl⟩ : none = label ∧ s₂ = s' := by simpa [pure, Except.pure] using h
    exact ⟨hmove, hlt⟩
  · obtain ⟨s₃, hcopy, hdone⟩ := bind_eq_ok.mp h
    have hrest := (copyMatch_spec hcopy).trans (matchDone_spec hdone)
    exact ⟨hmove.trans hrest, hrest.ip_le.trans_lt hlt⟩

/-- A turn takes a byte of the input, and keeps the output in its buffer. -/
theorem step_spec {s s' : Lzo} {label : Label} {label' : Option Label}
    (h : step outLen s label = .ok (label', s')) :
    Moves outLen s s' ∧ s'.ip.length < s.ip.length := by
  cases label with
  | top =>
    obtain ⟨_, -, h⟩ := bind_eq_ok.mp h
    obtain ⟨⟨t, s₁⟩, hnext, h⟩ := bind_eq_ok.mp h
    obtain ⟨hmove, hlt⟩ := next_spec hnext
    dsimp only at h
    split at h
    · obtain ⟨-, rfl⟩ : some (.lookAt t) = label' ∧ s₁ = s' := by
        simpa [pure, Except.pure] using h
      exact ⟨hmove, hlt⟩
    · obtain ⟨⟨n, s₂⟩, hlength, h⟩ := bind_eq_ok.mp h
      obtain ⟨_, hroom, h⟩ := bind_eq_ok.mp h
      obtain ⟨_, -, h⟩ := bind_eq_ok.mp h
      obtain ⟨-, rfl⟩ : some .firstLiteralRun = label' ∧ literals (n + 3) s₂ = s' := by
        simpa [pure, Except.pure] using h
      have hrest := (readLength_spec hlength).trans (literals_spec (needOp_spec hroom))
      exact ⟨hmove.trans hrest, hrest.ip_le.trans_lt hlt⟩
  | firstLiteralRun =>
    obtain ⟨⟨t, s₁⟩, hnext, h⟩ := bind_eq_ok.mp h
    obtain ⟨hmove, hlt⟩ := next_spec hnext
    dsimp only at h
    split at h
    · obtain ⟨-, rfl⟩ : some (.lookAt t) = label' ∧ s₁ = s' := by
        simpa [pure, Except.pure] using h
      exact ⟨hmove, hlt⟩
    · obtain ⟨hrest, hlt'⟩ := nearMatch_spec h
      exact ⟨hmove.trans hrest, hlt'.trans hlt⟩
  | lookAt t =>
    have hfar {overflow : LzoError} {mask : ℕ} {distance : ℕ → Option ℕ}
        (h : (do
          let (n, s) ← readLength overflow mask t s
          needIp 2 s
          farMatch outLen n distance s) = .ok (label', s')) :
        Moves outLen s s' ∧ s'.ip.length < s.ip.length := by
      obtain ⟨⟨n, s₁⟩, hlength, h⟩ := bind_eq_ok.mp h
      obtain ⟨_, -, h⟩ := bind_eq_ok.mp h
      obtain ⟨hrest, hlt⟩ := farMatch_spec h
      have hmove := @readLength_spec outLen _ _ _ _ _ _ hlength
      exact ⟨hmove.trans hrest, hlt.trans_le hmove.ip_le⟩
    simp only [step] at h
    split_ifs at h
    · exact nearMatch_spec h
    · exact hfar h
    · exact hfar h
    · exact nearMatch_spec h

/-- The whole run keeps the output in its buffer. -/
theorem run_spec {turns : ℕ} {label : Label} {s s' : Lzo}
    (h : run outLen turns label s = .ok s') : Moves outLen s s' := by
  induction turns generalizing label s with
  | zero => exact nomatch h
  | succ turns ih =>
    rw [run] at h
    split at h
    · exact nomatch h
    · next _ s₁ hstep =>
      obtain rfl : s₁ = s' := by simpa using h
      exact (step_spec hstep).1
    · next hstep => exact (step_spec hstep).1.trans (ih h)

/-- The first literals. -/
lemma start_spec {s s' : Lzo} {label : Option Label} (h : start outLen s = .ok (label, s')) :
    Moves outLen s s' := by
  unfold start at h
  split at h
  · exact nomatch h
  · next b ip hip =>
    have hmove : Moves outLen s { s with ip } :=
      ⟨fun hfits => ⟨hfits.op_eq, hfits.op_le⟩, by simp [hip]⟩
    dsimp only at h
    split_ifs at h
    · exact hmove.trans (matchDone_spec h)
    · obtain ⟨_, hroom, h⟩ := bind_eq_ok.mp h
      obtain ⟨_, -, h⟩ := bind_eq_ok.mp h
      obtain ⟨-, rfl⟩ : some .firstLiteralRun = label ∧
          literals (b.toNat - 17) { s with ip } = s' := by simpa [pure, Except.pure] using h
      exact hmove.trans (literals_spec (needOp_spec hroom))
    · obtain ⟨-, rfl⟩ : some .top = label ∧ s = s' := by simpa using h
      exact ⟨id, le_rfl⟩

/-- The output does not leave its buffer. -/
theorem length_le_of_decompress {input out : List UInt8}
    (h : lzo1xDecompressSafe input outLen = .ok out) : out.length ≤ outLen := by
  have hempty : Fits outLen ⟨input, [], 0⟩ := ⟨rfl, Nat.zero_le _⟩
  have hlength {s : Lzo} (hmove : Moves outLen ⟨input, [], 0⟩ s) : s.out.length ≤ outLen := by
    obtain ⟨hop, hle⟩ := hmove.fits hempty
    exact hop ▸ hle
  obtain ⟨⟨label, s⟩, hstart, h⟩ := bind_eq_ok.mp h
  have hmove := start_spec hstart
  cases label with
  | none =>
    obtain rfl : s.out.reverse = out := by simpa [pure, Except.pure] using h
    rw [List.length_reverse]
    exact hlength hmove
  | some label =>
    obtain ⟨s', hrun, h⟩ := bind_eq_ok.mp h
    split_ifs at h
    · obtain rfl : s'.out.reverse = out := by simpa [pure, Except.pure] using h
      rw [List.length_reverse]
      exact hlength (hmove.trans (run_spec hrun))

/-! ## The number of turns -/

/-- There is no turn without input. -/
lemma step_nil {s : Lzo} (h : s.ip = []) (label : Label) :
    step outLen s label = .error .inputOverrun := by
  obtain ⟨ip, out, op⟩ := s
  obtain rfl : ip = [] := h
  cases label with
  | top => rfl
  | firstLiteralRun => rfl
  | lookAt t =>
    rw [step]
    by_cases h31 : t % (31 + 1) = 0 <;> by_cases h7 : t % (7 + 1) = 0 <;>
      simp only [readLength, h31, h7, if_true, if_false] <;> split_ifs <;> rfl

/-- The bytes of the input are turns enough: one more gives the same. -/
theorem run_succ {turns : ℕ} {label : Label} {s : Lzo} (h : s.ip.length ≤ turns) :
    run outLen (turns + 1) label s = run outLen turns label s := by
  induction turns generalizing label s with
  | zero =>
    have hnil : s.ip = [] := List.length_eq_zero_iff.mp (Nat.le_zero.mp h)
    simp only [run, step_nil hnil]
  | succ turns ih =>
    rw [run, run]
    split
    · rfl
    · rfl
    · next hstep =>
      have hlt := (step_spec hstep).2
      exact ih (by omega)

end Minilzo

end RecoveryMenu

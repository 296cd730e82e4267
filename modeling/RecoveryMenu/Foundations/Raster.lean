import Mathlib.Algebra.Group.Nat.Defs
import Mathlib.Data.Nat.Notation
import Mathlib.Data.Nat.Size
import Mathlib.Logic.Function.Iterate
import Mathlib.Tactic.SplitIfs

set_option relaxedAutoImplicit false
set_option autoImplicit false

/-!
# Drawing with a running pointer

A picture is drawn row by row into a linear buffer. A pointer runs over the pixels of a row, and
is moved on to the next row by a skip when the row is done. A pixel is stored where the picture
has one. The pointer type is arbitrary: `next` is the step to the next pixel.

The second part rounds naturals to a binary precision, as the arithmetic of a floating-point
format does.

## Main definitions

* `Raster.row` and `Raster.rows`: the places at which a row and a picture are stored.
* `Raster.paint`: a memory after stores of one value.
* `Raster.roundEven`: the nearest number with so many significant bits, ties to even.

## Main results

* `Raster.getElem?_rows`: where a row starts.
* `Raster.mem_flatten_rows`: where the pixels of a picture go.
* `Raster.roundEven_eq_self`: a number that fits is not changed.
-/

namespace Raster

section Pointer

variable {α : Type*} (next skip : α → α)

/-- The places at which the lit pixels of a row are stored. -/
def row : List Bool → α → List α
  | [], _ => []
  | lit :: bits, p => (if lit then [p] else []) ++ row bits (next p)

/-- The same for a picture, a list for each row. -/
def rows : List (List Bool) → α → List (List α)
  | [], _ => []
  | bits :: picture, p =>
    row next bits p :: rows picture (skip (next^[bits.length] p))

/-- The pixel `j` of a row is stored `j` steps behind its start. -/
theorem mem_row {bits : List Bool} {p q : α} :
    q ∈ row next bits p ↔ ∃ j, bits[j]? = some true ∧ q = next^[j] p := by
  induction bits generalizing p with
  | nil => simp [row]
  | cons lit bits ih =>
    rw [row, List.mem_append, ih]
    constructor
    · rintro (hhead | ⟨j, hj, rfl⟩)
      · cases lit with
        | false => simp at hhead
        | true => exact ⟨0, rfl, by simpa using hhead⟩
      · exact ⟨j + 1, hj, rfl⟩
    · rintro ⟨j, hj, rfl⟩
      cases j with
      | zero =>
        obtain rfl : lit = true := by simpa using hj
        exact .inl (by simp)
      | succ j => exact .inr ⟨j, hj, rfl⟩

/-- A row whose pixels are all lit starts with its first pixel. -/
theorem head?_row_replicate (w : ℕ) (p : α) :
    (row next (.replicate w true) p).head? = if w = 0 then none else some p := by
  cases w with
  | zero => rfl
  | succ w => simp [List.replicate_succ, row]

variable {next skip}

/-- If a skip is `s` steps and the rows have `w` pixels, the row `r` starts `r (w + s)` steps
behind the first. -/
theorem getElem?_rows {s w : ℕ} (hskip : skip = next^[s]) {picture : List (List Bool)}
    (hwidth : ∀ bits ∈ picture, bits.length = w) (p : α) (r : ℕ) :
    (rows next skip picture p)[r]? =
      picture[r]?.map fun bits => row next bits (next^[r * (w + s)] p) := by
  induction picture generalizing p r with
  | nil => simp [rows]
  | cons bits picture ih =>
    cases r with
    | zero => simp [rows]
    | succ r =>
      have hbits : bits.length = w := hwidth bits (by simp)
      have hpointer : next^[r * (w + s)] (skip (next^[w] p)) = next^[(r + 1) * (w + s)] p := by
        rw [hskip, ← Function.iterate_add_apply, ← Function.iterate_add_apply]
        congr 2
        rw [Nat.succ_mul]
        omega
      rw [rows, List.getElem?_cons_succ, ih (fun b hb => hwidth b (by simp [hb])), hbits,
        List.getElem?_cons_succ, hpointer]

/-- The pixel `j` of the row `r` of a picture is stored `r (w + s) + j` steps behind the start. -/
theorem mem_flatten_rows {s w : ℕ} (hskip : skip = next^[s]) {picture : List (List Bool)}
    (hwidth : ∀ bits ∈ picture, bits.length = w) {p q : α} :
    q ∈ (rows next skip picture p).flatten ↔
      ∃ r j, (∃ bits, picture[r]? = some bits ∧ bits[j]? = some true) ∧
        q = next^[r * (w + s) + j] p := by
  have hplace (r j : ℕ) : next^[j] (next^[r * (w + s)] p) = next^[r * (w + s) + j] p := by
    rw [Nat.add_comm _ j, Function.iterate_add_apply]
  rw [List.mem_flatten]
  constructor
  · rintro ⟨l, hl, hq⟩
    obtain ⟨r, hr⟩ := List.getElem?_of_mem hl
    rw [getElem?_rows hskip hwidth] at hr
    obtain ⟨bits, hbits, rfl⟩ := Option.map_eq_some_iff.mp hr
    obtain ⟨j, hj, rfl⟩ := (mem_row next).mp hq
    exact ⟨r, j, ⟨bits, hbits, hj⟩, hplace r j⟩
  · rintro ⟨r, j, ⟨bits, hbits, hj⟩, rfl⟩
    refine ⟨row next bits (next^[r * (w + s)] p), ?_, (mem_row next).mpr ⟨j, hj, (hplace r j).symm⟩⟩
    apply List.mem_of_getElem? (i := r)
    rw [getElem?_rows hskip hwidth, hbits, Option.map_some]

/-- The pixels of a filled rectangle. -/
theorem mem_flatten_rows_replicate {s w h : ℕ} (hskip : skip = next^[s]) {p q : α} :
    q ∈ (rows next skip (.replicate h (.replicate w true)) p).flatten ↔
      ∃ r < h, ∃ j < w, q = next^[r * (w + s) + j] p := by
  have hwidth : ∀ bits ∈ List.replicate h (List.replicate w true), bits.length = w := by
    intro bits hbits
    rw [List.eq_of_mem_replicate hbits, List.length_replicate]
  rw [mem_flatten_rows hskip hwidth]
  simp only [List.getElem?_replicate]
  constructor
  · rintro ⟨r, j, ⟨bits, hbits, hj⟩, rfl⟩
    obtain ⟨hr, rfl⟩ : r < h ∧ List.replicate w true = bits := by simpa using hbits
    have hjw : j < w := by simpa [List.getElem?_replicate] using hj
    exact ⟨r, hr, j, hjw, rfl⟩
  · rintro ⟨r, hr, j, hj, rfl⟩
    exact ⟨r, j, ⟨_, if_pos hr, by simp [hj]⟩, rfl⟩

end Pointer

section Paint

variable {α β : Type*} [DecidableEq α]

/-- A memory after stores of a value. -/
def paint (places : List α) (value : β) (m : α → β) : α → β :=
  places.foldl (fun m p => Function.update m p value) m

/-- The places have the value, and nothing else is changed. -/
theorem paint_apply (places : List α) (value : β) (m : α → β) (a : α) :
    paint places value m a = if a ∈ places then value else m a := by
  induction places generalizing m with
  | nil => rfl
  | cons p places ih =>
    have htail : paint (p :: places) value m = paint places value (Function.update m p value) := rfl
    rw [htail, ih, Function.update_apply]
    by_cases ha : a ∈ places <;> by_cases hp : a = p <;> simp [ha, hp]

end Paint

section Rounding

/-- The nearest multiple of `2 ^ s`, ties to the even one. -/
def roundShift (s n : ℕ) : ℕ :=
  let q := n / 2 ^ s
  let r := n % 2 ^ s
  (if 2 * r < 2 ^ s ∨ (2 * r = 2 ^ s ∧ q % 2 = 0) then q else q + 1) * 2 ^ s

/-- The nearest number with `precision` significant bits, ties to even. -/
def roundEven (precision n : ℕ) : ℕ := roundShift (n.size - precision) n

/-- A number that fits the precision is not changed. -/
theorem roundEven_eq_self {precision n : ℕ} (h : n < 2 ^ precision) :
    roundEven precision n = n := by
  have hsize : n.size - precision = 0 := Nat.sub_eq_zero_of_le (Nat.size_le.mpr h)
  have hrest : n % 1 = 0 := Nat.mod_one n
  rw [roundEven, hsize, roundShift]
  simp [hrest]

end Rounding

end Raster

import Mathlib.Data.Int.Notation
import Mathlib.Data.UInt
import RecoveryMenu.Foundations.Raster

set_option relaxedAutoImplicit false
set_option autoImplicit false

/-!
# Drawing on the two screens (`ios_mcp/source/gfx.c`)

All positions are those of the GamePad. What is drawn there is drawn on the TV as well, scaled by
`1.5f`. Both framebuffers are at fixed addresses, and nothing checks a position.

The model is of the default build: the pixels have the format of the colors. A drawing is the
list of its stores. The products with `1.5f` are those of a `float`, which has 24 significant
bits, and are kept as a number of halves.

## Main definitions

* `RecoveryMenu.Gfx.gfxDrawRectFilled`, `RecoveryMenu.Gfx.gfxDrawRect`,
  `RecoveryMenu.Gfx.gfxGetTextWidth`, `RecoveryMenu.Gfx.gfxDrawChar`,
  `RecoveryMenu.Gfx.gfxPrint`.
* `RecoveryMenu.Gfx.index`: the pixel of a framebuffer at an address.

## Main results

* `RecoveryMenu.Gfx.mem_draw`, `RecoveryMenu.Gfx.mem_draw_filled`: where a picture is stored.
* `RecoveryMenu.Gfx.index_pixel`: the index of such a place.
* `RecoveryMenu.Gfx.toUint32_scaled`: below `2 ^ 22` the scale is exact.

## References

* `ios_mcp/source/gfx.c`, `ios_mcp/source/gfx.h`, `ios_mcp/source/font_bin.h`.
-/

namespace RecoveryMenu

namespace Gfx

open Raster

/-! ## The framebuffers -/

/-- `TV_FRAMEBUFFER`. -/
def tvFramebuffer : UInt32 := 0x14000000 + 0x3500000

/-- `TV_HEIGHT`. -/
def tvHeight : UInt32 := 720

/-- `TV_STRIDE`. -/
def tvStride : UInt32 := 1280

/-- `DRC_FRAMEBUFFER`. -/
def drcFramebuffer : UInt32 := 0x14000000 + 0x38c0000

/-- `DRC_HEIGHT`. -/
def drcHeight : UInt32 := 480

/-- `DRC_STRIDE`. -/
def drcStride : UInt32 := 896

/-- `SCREEN_WIDTH`, what is visible of a row of the GamePad. -/
def screenWidth : UInt32 := 854

/-- `SCREEN_HEIGHT`. -/
def screenHeight : UInt32 := 480

/-- `CHAR_SIZE_DRC_X` and `CHAR_SIZE_DRC_Y`. -/
def charSizeDrcX : UInt32 := 8
@[inherit_doc charSizeDrcX] def charSizeDrcY : UInt32 := 16

/-- `CHAR_SIZE_TV_X` and `CHAR_SIZE_TV_Y`. -/
def charSizeTvX : UInt32 := 12
@[inherit_doc charSizeTvX] def charSizeTvY : UInt32 := 24

/-- `COLOR_BACKGROUND`. -/
def colorBackground : UInt32 := 0x000000ff

/-- `p + n` for a pointer to pixels. -/
def offset (p n : UInt32) : UInt32 := p + 4 * n

/-- The pixel of a framebuffer that is at an address. -/
def index (framebuffer a : UInt32) : ℕ := (a - framebuffer).toNat / 4

/-! ## Products with `1.5f` -/

/-- `x * 1.5f`, in halves: the argument is rounded to a `float`, and the product again. -/
def scaled (x : UInt32) : ℕ := roundEven 24 (3 * roundEven 24 x.toNat)

/-- `TV_STRIDE - (w * 1.5f)`, in halves. -/
def tvStrideDiff (w : UInt32) : ℤ :=
  let d : ℤ := 2 * tvStride.toNat - scaled w
  d.sign * roundEven 24 d.natAbs

/-- The conversion of halves of a `float` to `uint32_t`. Where C leaves the value open, the
run-time of the processor gives the nearest one. -/
def toUint32 (v : ℤ) : UInt32 := UInt32.ofNat (min (v.toNat / 2) (2 ^ 32 - 1))

/-! ## Rectangles -/

/-- A drawing: the color, and the addresses stored to in each framebuffer, row by row. -/
structure Drawing where
  col : UInt32
  drc : List (List UInt32)
  tv : List (List UInt32)
  deriving DecidableEq, Repr

/-- The two loops of a drawing: `p++` for each pixel, and `p += stride_diff` for each row. -/
def draw (strideDiff : UInt32) (picture : List (List Bool)) (p : UInt32) : List (List UInt32) :=
  rows (offset · 1) (offset · strideDiff) picture p

/-- A picture that is filled. -/
def filled (w h : UInt32) : List (List Bool) := .replicate h.toNat (.replicate w.toNat true)

/-- The pointer to a pixel of the GamePad. -/
def drcStart (x y : UInt32) : UInt32 := offset (offset drcFramebuffer (y * drcStride)) x

/-- The pointer to the pixel of the TV at a position of the GamePad. -/
def tvStart (x y : UInt32) : UInt32 :=
  offset (offset tvFramebuffer (toUint32 (scaled y) * tvStride)) (toUint32 (scaled x))

/-- `gfx_draw_rect_filled`. -/
def gfxDrawRectFilled (x y w h col : UInt32) : Drawing :=
  { col
    drc := draw (drcStride - w) (filled w h) (drcStart x y)
    tv := draw (toUint32 (tvStrideDiff w)) (filled (toUint32 (scaled w)) (toUint32 (scaled h)))
      (tvStart x y) }

/-- `gfx_draw_rect`. -/
def gfxDrawRect (x y w h borderSize col : UInt32) : List Drawing :=
  [gfxDrawRectFilled x y w borderSize col,
    gfxDrawRectFilled x (y + h - borderSize) w borderSize col,
    gfxDrawRectFilled x y borderSize h col,
    gfxDrawRectFilled (x + w - borderSize) y borderSize h col]

/-- The memory after a drawing, as 32-bit words at their addresses. -/
def Drawing.on (d : Drawing) (m : UInt32 → UInt32) : UInt32 → UInt32 :=
  paint d.tv.flatten d.col (paint d.drc.flatten d.col m)

/-! ## Text -/

/-- The flags of `gfx_print`. -/
def alignRight : UInt32 := (1 : UInt32) <<< 0
@[inherit_doc alignRight] def clearBG : UInt32 := (1 : UInt32) <<< 1
@[inherit_doc alignRight] def underline : UInt32 := (1 : UInt32) <<< 2
@[inherit_doc alignRight] def newlinePlus4 : UInt32 := (1 : UInt32) <<< 3

/-- `terminus_font`. -/
structure Font where
  ter_u16b : Vector (Vector UInt8 16) (128 - 32)
  ter_u24b : Vector (Vector UInt16 24) (128 - 32)

/-- The lit pixels of a row of a glyph: `v & 1` for each pixel, and `v >>= 1` behind it. -/
def bitsOf : ℕ → ℕ → List Bool
  | _, 0 => []
  | v, wcnt + 1 => v.testBit 0 :: bitsOf (v >>> 1) wcnt

/-- `gfx_get_text_width`, of the characters in front of the terminator. -/
def gfxGetTextWidth (str : List UInt8) : UInt32 := UInt32.ofNat str.length * charSizeDrcX

/-- `gfx_draw_char`. The font has the characters from 32 to 127. -/
def gfxDrawChar (font : Font) (fontColor x y : UInt32) (c : UInt8) : List Drawing :=
  if hc : c.toNat < 32 ∨ 128 ≤ c.toNat then []
  else
    let i : Fin (128 - 32) := ⟨c.toNat - 32, by omega⟩
    let charDRC := font.ter_u16b[i]
    let charTV := font.ter_u24b[i]
    [{ col := fontColor
       drc := draw (drcStride - charSizeDrcX)
         (charDRC.toList.map fun v => bitsOf v.toNat charSizeDrcX.toNat) (drcStart x y)
       tv := draw (tvStride - charSizeTvX)
         (charTV.toList.map fun v => bitsOf v.toNat charSizeTvX.toNat) (tvStart x y) }]

/-- The step to the next line. -/
def lineStep (flags : UInt32) : UInt32 :=
  if flags &&& newlinePlus4 ≠ 0 then charSizeDrcY + 4 else charSizeDrcY

/-- What `gfx_print` draws at a character that is no newline. -/
def printChar (font : Font) (fontColor flags x y : UInt32) (chr : UInt8) : List Drawing :=
  (if 32 ≤ chr.toNat ∧ chr.toNat ≤ 128 then gfxDrawChar font fontColor x y chr else []) ++
    if flags &&& underline ≠ 0 ∧ chr ≠ 0x5f then gfxDrawChar font fontColor x y 0x5f else []

/-- The loop of `gfx_print`: the position `y` at its end, and what was drawn. -/
def printLoop (font : Font) (fontColor origX flags : UInt32) :
    List UInt8 → UInt32 → UInt32 → UInt32 × List Drawing
  | [], _, y => (y, [])
  | chr :: str, x, y =>
    if chr = 0x0a then printLoop font fontColor origX flags str origX (y + lineStep flags)
    else
      let rest := printLoop font fontColor origX flags str (x + charSizeDrcX) y
      (rest.1, printChar font fontColor flags x y chr ++ rest.2)

/-- Where the first line starts. -/
def firstX (x flags : UInt32) (str : List UInt8) : UInt32 :=
  if flags &&& alignRight ≠ 0 then x - gfxGetTextWidth str else x

/-- `gfx_print`: the position `y` that it returns, and what it draws. -/
def gfxPrint (font : Font) (fontColor x y flags : UInt32) (str : List UInt8) :
    UInt32 × List Drawing :=
  let left := firstX x flags str
  let background :=
    if flags &&& clearBG ≠ 0 then
      [gfxDrawRectFilled left y screenWidth charSizeDrcY colorBackground]
    else []
  let rest := printLoop font fontColor x flags str left y
  (rest.1, background ++ rest.2)

/-! ## Pointers and indices -/

/-- Offsets add up. -/
@[simp] lemma offset_offset (p a b : UInt32) : offset (offset p a) b = offset p (a + b) := by
  simp only [offset]
  grind

/-- Increments of a pointer are an offset. -/
lemma iterate_offset (p : UInt32) (n : ℕ) : (offset · 1)^[n] p = offset p (UInt32.ofNat n) := by
  induction n generalizing p with
  | zero => simp [offset]
  | succ n ih =>
    rw [Function.iterate_succ_apply, ih, offset_offset, UInt32.ofNat_add, UInt32.add_comm]
    rfl

/-- The index of a pixel, as far as the addresses reach. -/
lemma index_offset (p n : UInt32) : index p (offset p n) = n.toNat % 2 ^ 30 := by
  have hdiff : offset p n - p = 4 * n := by
    simp only [offset]
    grind
  rw [index, hdiff, UInt32.toNat_mul]
  simp only [UInt32.reduceToNat]
  omega

/-- A skip is the increments of a row that is not drawn. -/
lemma offset_eq_iterate (n : UInt32) : (offset · n) = (offset · 1)^[n.toNat] := by
  funext p
  rw [iterate_offset, UInt32.ofNat_toNat]

/-- Where the pixels of a picture are stored. -/
theorem mem_draw {strideDiff p q : UInt32} {picture : List (List Bool)} {w : ℕ}
    (hwidth : ∀ bits ∈ picture, bits.length = w) :
    q ∈ (draw strideDiff picture p).flatten ↔
      ∃ r j, (∃ bits, picture[r]? = some bits ∧ bits[j]? = some true) ∧
        q = offset p (UInt32.ofNat (r * (w + strideDiff.toNat) + j)) := by
  simp only [draw, mem_flatten_rows (offset_eq_iterate strideDiff) hwidth, iterate_offset]

/-- Where the pixels of a filled rectangle are stored. -/
theorem mem_draw_filled {strideDiff p q w h : UInt32} :
    q ∈ (draw strideDiff (filled w h) p).flatten ↔
      ∃ r < h.toNat, ∃ j < w.toNat,
        q = offset p (UInt32.ofNat (r * (w.toNat + strideDiff.toNat) + j)) := by
  simp only [draw, filled, mem_flatten_rows_replicate (offset_eq_iterate strideDiff),
    iterate_offset]

/-- Where a row of a filled rectangle starts, if there is one. -/
theorem head?_draw_filled {strideDiff p q w h : UInt32} {r : ℕ} :
    (draw strideDiff (filled w h) p)[r]?.bind List.head? = some q ↔
      (r < h.toNat ∧ w.toNat ≠ 0) ∧
        q = offset p (UInt32.ofNat (r * (w.toNat + strideDiff.toNat))) := by
  have hwidth : ∀ bits ∈ filled w h, bits.length = w.toNat := by
    intro bits hbits
    rw [List.eq_of_mem_replicate hbits, List.length_replicate]
  rw [draw, getElem?_rows (offset_eq_iterate strideDiff) hwidth, filled,
    List.getElem?_replicate]
  by_cases hr : r < h.toNat
  · rw [if_pos hr, Option.map_some, Option.bind_some, head?_row_replicate, iterate_offset]
    by_cases hw : w.toNat = 0
    · simp [hw]
    · simp [hr, hw, eq_comm]
  · simp [hr]

/-! ## The scale -/

/-- Below `2 ^ 22` the product is exact. -/
lemma scaled_eq {x : UInt32} (hx : x.toNat < 2 ^ 22) : scaled x = 3 * x.toNat := by
  rw [scaled, roundEven_eq_self (n := x.toNat) (by omega), roundEven_eq_self (by omega)]

/-- Below `2 ^ 22` the scale is exact, rounded down. -/
theorem toUint32_scaled {x : UInt32} (hx : x.toNat < 2 ^ 22) :
    (toUint32 (scaled x)).toNat = 3 * x.toNat / 2 := by
  rw [toUint32, scaled_eq hx, UInt32.toNat_ofNat', Int.toNat_natCast]
  omega

/-- The difference is exact where the width is. -/
lemma tvStrideDiff_eq {w : UInt32} (hw : w.toNat < 2 ^ 22) :
    tvStrideDiff w = 2560 - 3 * w.toNat := by
  have hstride : (tvStride.toNat : ℤ) = 1280 := rfl
  rw [tvStrideDiff, scaled_eq hw, hstride, roundEven_eq_self (by omega),
    Int.sign_mul_natAbs]
  omega

end Gfx

end RecoveryMenu

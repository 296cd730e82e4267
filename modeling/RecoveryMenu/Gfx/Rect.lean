import RecoveryMenu.Gfx

set_option relaxedAutoImplicit false
set_option autoImplicit false

/-!
# Filled rectangles (`ios_mcp/source/gfx.c`)

On the GamePad a rectangle of the visible screen is filled as it is. On the TV its width and the
skip to the next row are rounded one by one, and both lose a half where the width is odd: a row
then starts one pixel in front of the column of the row above. A rectangle of even width that
reaches the right border goes on in the next row, as nothing cuts it off, and one as wide as the
screen has a negative skip.

## Main definitions

* `RecoveryMenu.Gfx.Exact`: what filling a rectangle must do.
* `RecoveryMenu.Gfx.Straight`: the rectangles that are filled so.

## Main results

* `RecoveryMenu.Gfx.mem_drc`: the stores to the framebuffer of the GamePad.
* `RecoveryMenu.Gfx.mem_tv`: the stores to the framebuffer of the TV.
* `RecoveryMenu.Gfx.mem_gfxDrawRect_drc`: the border that `gfx_draw_rect` draws on the GamePad.
* `RecoveryMenu.Gfx.gfxDrawRectFilled_iff`: a rectangle of the screen is filled exactly iff it is
  straight.
* `RecoveryMenu.Gfx.not_gfxDrawRectFilled`: a column of two pixels is not.

## References

* `ios_mcp/source/gfx.c`.
-/

namespace RecoveryMenu

namespace Gfx

open Raster

/-! ## Pixels by column and row -/

/-- A pixel of the framebuffer of the GamePad. -/
def drcPixel (column row : ℕ) : UInt32 :=
  offset drcFramebuffer (UInt32.ofNat (row * 896 + column))

/-- A pixel of the framebuffer of the TV. -/
def tvPixel (column row : ℕ) : UInt32 :=
  offset tvFramebuffer (UInt32.ofNat (row * 1280 + column))

/-- `⌊1.5 n⌋`. -/
def scale (n : UInt32) : ℕ := 3 * n.toNat / 2

/-- The pixels of a rectangle on the GamePad. -/
def DrcRect (x y w h a : UInt32) : Prop :=
  ∃ row column, y.toNat ≤ row ∧ row < y.toNat + h.toNat ∧ x.toNat ≤ column ∧
    column < x.toNat + w.toNat ∧ a = drcPixel column row

/-- The pixels of a rectangle on the TV, cut off at the end of the row. -/
def TvRect (x y w h a : UInt32) : Prop :=
  ∃ row column, scale y ≤ row ∧ row < scale y + scale h ∧ scale x ≤ column ∧
    column < min (scale x + scale w) 1280 ∧ a = tvPixel column row

/-- What filling a rectangle must do, for every color and whatever is on the screen: its pixels
have the color, nothing else changes, each row starts in the column of the rectangle, and the
skip to the next row is not negative. -/
structure Exact (x y w h : UInt32) : Prop where
  inside : ∀ col m a, DrcRect x y w h a ∨ TvRect x y w h a →
    (gfxDrawRectFilled x y w h col).on m a = col
  outside : ∀ col m a, ¬ (DrcRect x y w h a ∨ TvRect x y w h a) →
    (gfxDrawRectFilled x y w h col).on m a = m a
  drcColumn : ∀ col row p, (gfxDrawRectFilled x y w h col).drc[row]?.bind List.head? = some p →
    p = drcPixel x.toNat (y.toNat + row)
  tvColumn : ∀ col row p, (gfxDrawRectFilled x y w h col).tv[row]?.bind List.head? = some p →
    p = tvPixel (scale x) (scale y + row)
  stride : 0 ≤ tvStrideDiff w

/-- The rectangles that are filled exactly. One of odd width has a single row; one of even width
is not as wide as the screen, and does not reach its right border unless it is empty. -/
def Straight (x w h : UInt32) : Prop :=
  (w.toNat % 2 = 1 → h.toNat ≤ 1) ∧
    (w.toNat % 2 = 0 → w.toNat ≠ 854 ∧
      (x.toNat + w.toNat < 854 ∨ w.toNat = 0 ∨ h.toNat = 0))

/-! ## Places of the framebuffers -/

/-- Offsets of one framebuffer are different places. -/
lemma offset_injective {p : UInt32} {m n : ℕ} (hm : m < 2 ^ 30) (hn : n < 2 ^ 30)
    (h : offset p (UInt32.ofNat m) = offset p (UInt32.ofNat n)) : m = n := by
  have hindex := congrArg (index p) h
  simp only [index_offset, UInt32.toNat_ofNat'] at hindex
  omega

/-- Offsets add up. -/
lemma offset_ofNat (p : UInt32) (m n : ℕ) :
    offset (offset p (UInt32.ofNat m)) (UInt32.ofNat n) = offset p (UInt32.ofNat (m + n)) := by
  rw [offset_offset, UInt32.ofNat_add]

/-- The framebuffer of the GamePad is behind the one of the TV. -/
lemma drcPixel_ne {column row n : ℕ} (hcolumn : column < 896) (hrow : row < 480)
    (hn : n < 983040) : drcPixel column row ≠ offset tvFramebuffer (UInt32.ofNat n) := by
  have hbase : drcFramebuffer = offset tvFramebuffer (UInt32.ofNat 983040) := by decide
  intro heq
  rw [drcPixel, hbase, offset_ofNat] at heq
  have := offset_injective (by omega) (by omega) heq
  omega

/-- A drawing on the GamePad starts at its pixel. -/
lemma drcStart_eq (x y : UInt32) : drcStart x y = drcPixel x.toNat y.toNat := by
  rw [drcStart, offset_offset, drcPixel, UInt32.ofNat_add, UInt32.ofNat_mul, UInt32.ofNat_toNat,
    UInt32.ofNat_toNat]
  rfl

/-- A drawing on the TV starts at the scaled pixel. -/
lemma tvStart_eq {x y : UInt32} (hx : x.toNat < 2 ^ 22) (hy : y.toNat < 2 ^ 22) :
    tvStart x y = tvPixel (scale x) (scale y) := by
  have hleft : toUint32 (scaled x) = UInt32.ofNat (scale x) := by
    rw [scale, ← toUint32_scaled hx, UInt32.ofNat_toNat]
  have htop : toUint32 (scaled y) = UInt32.ofNat (scale y) := by
    rw [scale, ← toUint32_scaled hy, UInt32.ofNat_toNat]
  rw [tvStart, offset_offset, tvPixel, hleft, htop, UInt32.ofNat_add, UInt32.ofNat_mul]
  rfl

/-! ## The stores of a rectangle -/

/-- The memory after a drawing. -/
lemma Drawing.on_apply (d : Drawing) (m : UInt32 → UInt32) (a : UInt32) :
    d.on m a = if a ∈ d.drc.flatten ∨ a ∈ d.tv.flatten then d.col else m a := by
  rw [Drawing.on, paint_apply, paint_apply]
  by_cases htv : a ∈ d.tv.flatten <;> simp [htv]

section Stores

variable {x y w h : UInt32}

/-- On the GamePad the skip leads to the column of the rectangle. -/
lemma toNat_drcStride_sub (hw : w.toNat ≤ 854) : w.toNat + (drcStride - w).toNat = 896 := by
  have hstride : drcStride.toNat = 896 := rfl
  rw [UInt32.toNat_sub_of_le _ _ (UInt32.le_iff_toNat_le.mpr (by omega)), hstride]
  omega

/-- The stores to the framebuffer of the GamePad. -/
theorem mem_drc (hx : x.toNat + w.toNat ≤ 854) (col a : UInt32) :
    a ∈ (gfxDrawRectFilled x y w h col).drc.flatten ↔ DrcRect x y w h a := by
  rw [gfxDrawRectFilled, mem_draw_filled, toNat_drcStride_sub (by omega), drcStart_eq]
  constructor
  · rintro ⟨r, hr, j, hj, rfl⟩
    refine ⟨y.toNat + r, x.toNat + j, by omega, by omega, by omega, by omega, ?_⟩
    rw [drcPixel, drcPixel, offset_ofNat]
    exact congrArg (fun n => offset drcFramebuffer (UInt32.ofNat n)) (by omega)
  · rintro ⟨row, column, htop, hbottom, hleft, hright, rfl⟩
    refine ⟨row - y.toNat, by omega, column - x.toNat, by omega, ?_⟩
    rw [drcPixel, drcPixel, offset_ofNat]
    exact congrArg (fun n => offset drcFramebuffer (UInt32.ofNat n)) (by omega)

/-- What the pointer to the TV moves on from row to row. -/
def pitch (w : UInt32) : ℕ := scale w + (toUint32 (tvStrideDiff w)).toNat

/-- The skip, as a number of pixels. -/
lemma toNat_toUint32_tvStrideDiff (hw : w.toNat ≤ 854) :
    (toUint32 (tvStrideDiff w)).toNat = (2560 - 3 * w.toNat) / 2 := by
  have hdiff : (2560 - 3 * (w.toNat : ℤ)).toNat = 2560 - 3 * w.toNat := by omega
  rw [tvStrideDiff_eq (by omega), toUint32, UInt32.toNat_ofNat', hdiff]
  omega

/-- Where a row is as long as it should be, and where a half is lost. -/
lemma pitch_eq (hw : w.toNat < 854) : pitch w = 1280 - w.toNat % 2 := by
  rw [pitch, toNat_toUint32_tvStrideDiff (by omega), scale]
  obtain ⟨k, hk | hk⟩ := Nat.even_or_odd' w.toNat <;> omega

/-- The stores to the framebuffer of the TV. -/
theorem mem_tv (hx : x.toNat < 2 ^ 22) (hy : y.toNat < 2 ^ 22) (hw : w.toNat < 2 ^ 22)
    (hh : h.toNat < 2 ^ 22) (col a : UInt32) :
    a ∈ (gfxDrawRectFilled x y w h col).tv.flatten ↔
      ∃ r < scale h, ∃ j < scale w,
        a = offset tvFramebuffer
          (UInt32.ofNat (scale y * 1280 + scale x + (r * pitch w + j))) := by
  rw [gfxDrawRectFilled, mem_draw_filled, toUint32_scaled hw, toUint32_scaled hh,
    tvStart_eq hx hy]
  simp only [tvPixel, offset_ofNat]
  rfl

/-- The starts of the rows on the TV. -/
lemma head?_tv (hx : x.toNat < 2 ^ 22) (hy : y.toNat < 2 ^ 22) (hw : w.toNat < 2 ^ 22)
    (hh : h.toNat < 2 ^ 22) (col p : UInt32) (r : ℕ) :
    (gfxDrawRectFilled x y w h col).tv[r]?.bind List.head? = some p ↔
      (r < scale h ∧ scale w ≠ 0) ∧
        p = offset tvFramebuffer
          (UInt32.ofNat (scale y * 1280 + scale x + r * pitch w)) := by
  rw [gfxDrawRectFilled, head?_draw_filled, toUint32_scaled hh, toUint32_scaled hw,
    tvStart_eq hx hy, tvPixel, offset_ofNat]
  rfl

end Stores

/-! ## Borders -/

/-- The pixels of the border of a rectangle on the GamePad. -/
def DrcBorder (x y w h borderSize a : UInt32) : Prop :=
  ∃ row column, y.toNat ≤ row ∧ row < y.toNat + h.toNat ∧ x.toNat ≤ column ∧
    column < x.toNat + w.toNat ∧
    (row < y.toNat + borderSize.toNat ∨ y.toNat + h.toNat ≤ row + borderSize.toNat ∨
      column < x.toNat + borderSize.toNat ∨ x.toNat + w.toNat ≤ column + borderSize.toNat) ∧
    a = drcPixel column row

/-- The start of the last bar of a border. -/
lemma toNat_lastBar {p n borderSize : UInt32} (hp : p.toNat + n.toNat ≤ 854)
    (hn : borderSize.toNat ≤ n.toNat) :
    (p + n - borderSize).toNat = p.toNat + n.toNat - borderSize.toNat := by
  have hsum : (p + n).toNat = p.toNat + n.toNat := by
    rw [UInt32.toNat_add]
    omega
  rw [UInt32.toNat_sub_of_le _ _ (UInt32.le_iff_toNat_le.mpr (by omega)), hsum]

/-- On the GamePad the four bars of `gfx_draw_rect` are the border of the rectangle, if it is not
too thick for it.

**Proof sketch.** A pixel of the border is in the bar of the side that it is close to. -/
theorem mem_gfxDrawRect_drc {x y w h borderSize : UInt32} (hx : x.toNat + w.toNat ≤ 854)
    (hy : y.toNat + h.toNat ≤ 480) (hw : borderSize.toNat ≤ w.toNat)
    (hh : borderSize.toNat ≤ h.toNat) (col a : UInt32) :
    (∃ d ∈ gfxDrawRect x y w h borderSize col, a ∈ d.drc.flatten) ↔
      DrcBorder x y w h borderSize a := by
  have hright := toNat_lastBar hx hw
  have hbottom := toNat_lastBar (show y.toNat + h.toNat ≤ 854 by omega) hh
  simp only [gfxDrawRect, List.mem_cons, List.not_mem_nil, or_false, exists_eq_or_imp,
    exists_eq_left, mem_drc hx, mem_drc (show x.toNat + borderSize.toNat ≤ 854 by omega),
    mem_drc (show (x + w - borderSize).toNat + borderSize.toNat ≤ 854 by omega), DrcRect,
    DrcBorder, hright, hbottom]
  constructor
  · rintro (⟨row, column, h⟩ | ⟨row, column, h⟩ | ⟨row, column, h⟩ | ⟨row, column, h⟩) <;>
      exact ⟨row, column, by omega, by omega, by omega, by omega, by omega, h.2.2.2.2⟩
  · rintro ⟨row, column, htop, hend, hleft, hlast, hside | hside | hside | hside, rfl⟩
    · exact .inl ⟨row, column, by omega, by omega, by omega, by omega, rfl⟩
    · exact .inr (.inl ⟨row, column, by omega, by omega, by omega, by omega, rfl⟩)
    · exact .inr (.inr (.inl ⟨row, column, by omega, by omega, by omega, by omega, rfl⟩))
    · exact .inr (.inr (.inr ⟨row, column, by omega, by omega, by omega, by omega, rfl⟩))

/-! ## Rectangles that are filled exactly -/

/-- A rectangle as wide as the screen has a negative skip. -/
lemma width_ne_of_exact {x y w h : UInt32} (hexact : Exact x y w h) : w.toNat ≠ 854 := by
  intro hw
  have hstride := hexact.stride
  rw [tvStrideDiff_eq (by omega)] at hstride
  omega

section Screen

variable {x y w h : UInt32} (hx : x.toNat + w.toNat ≤ 854) (hy : y.toNat + h.toNat ≤ 480)

include hx hy

/-- A straight rectangle ends within the rows of the TV, and its rows are all in one column. -/
lemma straight_rows (hstraight : Straight x w h) :
    (scale h ≠ 0 → scale w ≠ 0 → scale x + scale w ≤ 1280) ∧
      ∀ r < scale h, r * pitch w = r * 1280 := by
  obtain ⟨hodd, heven⟩ := hstraight
  obtain ⟨k, hk | hk⟩ := Nat.even_or_odd' w.toNat
  · have hcond := heven (by omega)
    have hpitch : pitch w = 1280 := by
      rw [pitch_eq (by omega)]
      omega
    refine ⟨fun hh hw => ?_, fun r _ => by rw [hpitch]⟩
    simp only [scale] at hh hw ⊢
    omega
  · have hrow := hodd (by omega)
    refine ⟨fun _ _ => ?_, fun r hr => ?_⟩
    · simp only [scale]
      omega
    · obtain rfl : r = 0 := by
        simp only [scale] at hr
        omega
      rw [Nat.zero_mul, Nat.zero_mul]

/-- The stores of a straight rectangle to the framebuffer of the TV. -/
theorem mem_tv_of_straight (hstraight : Straight x w h) (col a : UInt32) :
    a ∈ (gfxDrawRectFilled x y w h col).tv.flatten ↔ TvRect x y w h a := by
  obtain ⟨hfit, hrows⟩ := straight_rows hx hy hstraight
  rw [mem_tv (by omega) (by omega) (by omega) (by omega)]
  constructor
  · rintro ⟨r, hr, j, hj, rfl⟩
    have hend := hfit (by omega) (by omega)
    refine ⟨scale y + r, scale x + j, by omega, by omega, by omega, by omega, ?_⟩
    rw [hrows r hr, tvPixel]
    exact congrArg (fun n => offset tvFramebuffer (UInt32.ofNat n)) (by omega)
  · rintro ⟨row, column, htop, hbottom, hleft, hright, rfl⟩
    refine ⟨row - scale y, by omega, column - scale x, by omega, ?_⟩
    rw [hrows _ (by omega), tvPixel]
    exact congrArg (fun n => offset tvFramebuffer (UInt32.ofNat n)) (by omega)

/-- The stores of a straight rectangle are its pixels. -/
lemma mem_of_straight (hstraight : Straight x w h) (col a : UInt32) :
    a ∈ (gfxDrawRectFilled x y w h col).drc.flatten ∨
        a ∈ (gfxDrawRectFilled x y w h col).tv.flatten ↔
      DrcRect x y w h a ∨ TvRect x y w h a := by
  rw [mem_drc hx, mem_tv_of_straight hx hy hstraight]

/-- A straight rectangle of the screen is filled exactly. -/
theorem exact_of_straight (hstraight : Straight x w h) : Exact x y w h where
  inside col m a ha := by
    rw [Drawing.on_apply, if_pos ((mem_of_straight hx hy hstraight col a).mpr ha)]
    rfl
  outside col m a ha := by
    rw [Drawing.on_apply, if_neg (mt (mem_of_straight hx hy hstraight col a).mp ha)]
  drcColumn col row p hp := by
    rw [gfxDrawRectFilled, head?_draw_filled, toNat_drcStride_sub (by omega), drcStart_eq,
      drcPixel, offset_ofNat] at hp
    rw [hp.2, drcPixel]
    exact congrArg (fun n => offset drcFramebuffer (UInt32.ofNat n)) (by omega)
  tvColumn col row p hp := by
    rw [head?_tv (by omega) (by omega) (by omega) (by omega)] at hp
    obtain ⟨⟨hrow, -⟩, rfl⟩ := hp
    rw [(straight_rows hx hy hstraight).2 row hrow, tvPixel]
    exact congrArg (fun n => offset tvFramebuffer (UInt32.ofNat n)) (by omega)
  stride := by
    obtain ⟨k, hk | hk⟩ := Nat.even_or_odd' w.toNat
    · have hcond := hstraight.2 (by omega)
      rw [tvStrideDiff_eq (by omega)]
      omega
    · rw [tvStrideDiff_eq (by omega)]
      omega

/-- Where a half is lost in each row, the second row starts in another column. -/
lemma height_le_of_exact (hexact : Exact x y w h) (hw : w.toNat % 2 = 1) : h.toNat ≤ 1 := by
  by_contra hheight
  have hrow : 1 < scale h := by
    rw [scale]
    omega
  have hwidth : scale w ≠ 0 := by
    rw [scale]
    omega
  have hstart := hexact.tvColumn 0 1 _
    ((head?_tv (by omega) (by omega) (by omega) (by omega) 0 _ 1).mpr ⟨⟨hrow, hwidth⟩, rfl⟩)
  have hx' : scale x ≤ 1281 := by
    rw [scale]
    omega
  have hy' : scale y ≤ 720 := by
    rw [scale]
    omega
  rw [tvPixel, pitch_eq (by omega)] at hstart
  have := offset_injective (by omega) (by omega) hstart
  omega

/-- A rectangle of even width that reaches the right border goes on in the next row. -/
lemma right_lt_of_exact (hexact : Exact x y w h) (hw : w.toNat % 2 = 0) (hne : w.toNat ≠ 0)
    (hheight : h.toNat ≠ 0) : x.toNat + w.toNat < 854 := by
  have hwidth := width_ne_of_exact hexact
  by_contra hright
  have hend : scale x + (scale w - 1) = 1280 := by
    rw [scale, scale]
    omega
  have hpos : 0 < scale h ∧ 0 < scale w := by
    rw [scale, scale]
    omega
  have hlast : scale y + 1 ≤ 721 := by
    rw [scale]
    omega
  -- the last pixel of the first row
  have hmem : offset tvFramebuffer (UInt32.ofNat (scale y * 1280 + 1280)) ∈
      (gfxDrawRectFilled x y w h 0).tv.flatten := by
    rw [mem_tv (by omega) (by omega) (by omega) (by omega)]
    refine ⟨0, hpos.1, scale w - 1, by omega, ?_⟩
    exact congrArg (fun n => offset tvFramebuffer (UInt32.ofNat n)) (by omega)
  by_cases hrect : DrcRect x y w h (offset tvFramebuffer (UInt32.ofNat (scale y * 1280 + 1280))) ∨
      TvRect x y w h (offset tvFramebuffer (UInt32.ofNat (scale y * 1280 + 1280)))
  · obtain ⟨row, column, -, hrow, -, hcolumn, heq⟩ |
      ⟨row, column, -, hrow, hleft, hcolumn, heq⟩ := hrect
    · exact drcPixel_ne (by omega) (by omega) (by omega) heq.symm
    · have hbottom : scale y + scale h ≤ 720 := by
        rw [scale, scale]
        omega
      have hplace := offset_injective (by omega) (by omega) heq
      have hleft' : scale x = 0 := by omega
      rw [scale] at hleft'
      omega
  · have hsame := hexact.outside 0 (fun _ => 1) _ hrect
    have hcol : (gfxDrawRectFilled x y w h 0).col = 0 := rfl
    rw [Drawing.on_apply, if_pos (.inr hmem), hcol] at hsame
    exact absurd hsame (by decide)

/-- A rectangle of the screen that is filled exactly is straight. -/
theorem straight_of_exact (hexact : Exact x y w h) : Straight x w h := by
  refine ⟨height_le_of_exact hx hy hexact, fun hw => ⟨width_ne_of_exact hexact, ?_⟩⟩
  by_cases hempty : w.toNat = 0 ∨ h.toNat = 0
  · exact .inr hempty
  · exact .inl (right_lt_of_exact hx hy hexact hw (by omega) (by omega))

/-- A rectangle of the screen is filled exactly iff it is straight. -/
theorem gfxDrawRectFilled_iff : Exact x y w h ↔ Straight x w h :=
  ⟨straight_of_exact hx hy, exact_of_straight hx hy⟩

end Screen

/-- The line under the title of a menu is filled exactly. -/
theorem gfxDrawRectFilled_iff_title : Exact 8 24 838 2 :=
  (gfxDrawRectFilled_iff (by decide) (by decide)).mpr ⟨by decide, by decide⟩

/-- A rectangle of one column and two rows is on the screen, and is not filled exactly: its second
row on the TV is the end of the first. -/
theorem not_gfxDrawRectFilled :
    (0 : UInt32).toNat + (1 : UInt32).toNat ≤ 854 ∧ (0 : UInt32).toNat + (2 : UInt32).toNat ≤ 480 ∧
      ¬ Exact 0 0 1 2 :=
  ⟨by decide, by decide, fun hexact =>
    absurd (height_le_of_exact (by decide) (by decide) hexact (by decide)) (by decide)⟩

end Gfx

end RecoveryMenu

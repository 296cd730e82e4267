import RecoveryMenu.Gfx.Font
import RecoveryMenu.Gfx.Rect

set_option relaxedAutoImplicit false
set_option autoImplicit false

/-!
# Text in the framebuffers (`ios_mcp/source/gfx.c`)

A string is drawn character by character, each in a cell of 8 by 16 pixels. Glyphs of a cell that
is on the visible screen stay in both framebuffers: the scaled cell can be one column wider than
the TV, and where that is the last row of the framebuffer as well the font is blank there. The
background that is cleared is as wide as the screen wherever the text starts. On the TV each of
its rows starts behind the row above, so that it drifts to the right, and out of the framebuffer
if the line of the text is the last one.

## Main definitions

* `RecoveryMenu.Gfx.textCells`: the cells of a string.
* `RecoveryMenu.Gfx.InBounds`: a drawing does not leave the framebuffers.
* `RecoveryMenu.Gfx.PrintsInBounds`: nothing that is drawn for a string does.
* `RecoveryMenu.Gfx.BackgroundFits`: the cleared background does not.

## Main results

* `RecoveryMenu.Gfx.inBounds_gfxDrawChar`: a glyph in a visible cell is in bounds.
* `RecoveryMenu.Gfx.inBounds_background_iff`: when a background is.
* `RecoveryMenu.Gfx.gfxPrint_iff`: visible text is in bounds iff it clears no background, or one
  that fits. With a character in its first line that is a position above the last line.
* `RecoveryMenu.Gfx.not_gfxPrint`: a letter on a cleared last line is not.

## References

* `ios_mcp/source/gfx.c`, `ios_mcp/source/gfx.h`.
-/

namespace RecoveryMenu

namespace Gfx

/-! ## Cells and bounds -/

/-- The positions of the characters of a string, newlines apart. -/
def cells (origX flags : UInt32) : List UInt8 → UInt32 → UInt32 → List (UInt32 × UInt32)
  | [], _, _ => []
  | chr :: str, x, y =>
    if chr = 0x0a then cells origX flags str origX (y + lineStep flags)
    else (x, y) :: cells origX flags str (x + charSizeDrcX) y

/-- The cells of a string that is printed, after its alignment. -/
def textCells (x y flags : UInt32) (str : List UInt8) : List (UInt32 × UInt32) :=
  cells x flags str (firstX x flags str) y

/-- A cell is on the visible screen. -/
def Visible (cell : UInt32 × UInt32) : Prop :=
  cell.1.toNat + 8 ≤ 854 ∧ cell.2.toNat + 16 ≤ 480

instance (cell : UInt32 × UInt32) : Decidable (Visible cell) := inferInstanceAs (Decidable (_ ∧ _))

/-- No store of a drawing leaves the framebuffers. -/
structure InBounds (d : Drawing) : Prop where
  drc : ∀ a ∈ d.drc.flatten, index drcFramebuffer a < 896 * 480
  tv : ∀ a ∈ d.tv.flatten, index tvFramebuffer a < 1280 * 720

/-- Nothing that is drawn for a string leaves the framebuffers. -/
def PrintsInBounds (font : Font) (fontColor x y flags : UInt32) (str : List UInt8) : Prop :=
  ∀ d ∈ (gfxPrint font fontColor x y flags str).2, InBounds d

/-- The last pixel of the background is in both framebuffers. It has 16 rows of 854 pixels on the
GamePad, and 24 of 1281 on the TV, where a row starts right behind the row above. -/
def BackgroundFits (x y : UInt32) : Prop :=
  (y.toNat * 896 + x.toNat) % 2 ^ 30 + (15 * 896 + 853) < 896 * 480 ∧
    ((toUint32 (scaled y)).toNat * 1280 + (toUint32 (scaled x)).toNat) % 2 ^ 30 +
      (23 * 1281 + 1280) < 1280 * 720

/-- There is a character in the first line. -/
def startsLine : List UInt8 → Bool
  | [] => false
  | chr :: _ => chr != 0x0a

/-! ## Glyphs -/

/-- The pixels of a row are the bits of its value. -/
lemma getElem?_bitsOf (v n j : ℕ) :
    (bitsOf v n)[j]? = if j < n then some (v.testBit j) else none := by
  induction n generalizing v j with
  | zero => simp [bitsOf]
  | succ n ih =>
    cases j with
    | zero => simp [bitsOf]
    | succ j => simp [bitsOf, ih, Nat.testBit_shiftRight, Nat.add_comm]

/-- A row has as many pixels as were asked for. -/
lemma length_bitsOf (v n : ℕ) : (bitsOf v n).length = n := by
  induction n generalizing v with
  | zero => rfl
  | succ n ih => simp [bitsOf, ih]

/-- Where the pixels of a glyph are stored. -/
lemma exists_of_mem_glyph {α : Type} {value : α → ℕ} {glyph : List α} {n : ℕ}
    {strideDiff p q : UInt32}
    (h : q ∈ (draw strideDiff (glyph.map fun v => bitsOf (value v) n) p).flatten) :
    ∃ r v j, glyph[r]? = some v ∧ j < n ∧ (value v).testBit j = true ∧
      q = offset p (UInt32.ofNat (r * (n + strideDiff.toNat) + j)) := by
  have hwidth : ∀ bits ∈ glyph.map fun v => bitsOf (value v) n, bits.length = n := by
    intro bits hbits
    obtain ⟨v, -, rfl⟩ := List.mem_map.mp hbits
    exact length_bitsOf _ _
  obtain ⟨r, j, ⟨bits, hbits, hj⟩, rfl⟩ := (mem_draw hwidth).mp h
  rw [List.getElem?_map] at hbits
  obtain ⟨v, hv, rfl⟩ := Option.map_eq_some_iff.mp hbits
  rw [getElem?_bitsOf] at hj
  split_ifs at hj with hlt
  exact ⟨r, v, j, hv, hlt, by simpa using hj, rfl⟩

/-- The index of a place behind a pixel of the GamePad. -/
lemma index_drc {column row n : ℕ} (h : row * 896 + column + n < 2 ^ 30) :
    index drcFramebuffer (offset (drcPixel column row) (UInt32.ofNat n)) =
      row * 896 + column + n := by
  rw [drcPixel, offset_ofNat, index_offset, UInt32.toNat_ofNat']
  omega

/-- The index of a place behind a pixel of the TV. -/
lemma index_tv {column row n : ℕ} (h : row * 1280 + column + n < 2 ^ 30) :
    index tvFramebuffer (offset (tvPixel column row) (UInt32.ofNat n)) =
      row * 1280 + column + n := by
  rw [tvPixel, offset_ofNat, index_offset, UInt32.toNat_ofNat']
  omega

/-- A glyph in a visible cell is in bounds. -/
theorem inBounds_gfxDrawChar {font : Font} (hfont : font.CornerBlank) {x y : UInt32}
    (hvisible : Visible (x, y)) (fontColor : UInt32) (c : UInt8) :
    ∀ d ∈ gfxDrawChar font fontColor x y c, InBounds d := by
  obtain ⟨hx, hy⟩ : x.toNat + 8 ≤ 854 ∧ y.toNat + 16 ≤ 480 := hvisible
  intro d hd
  rw [gfxDrawChar] at hd
  split at hd
  · exact absurd hd List.not_mem_nil
  · next hc =>
    obtain rfl := List.mem_singleton.mp hd
    have hstrides : charSizeDrcX.toNat + (drcStride - charSizeDrcX).toNat = 896 ∧
        charSizeTvX.toNat + (tvStride - charSizeTvX).toNat = 1280 := by decide
    have hsizes : charSizeDrcX.toNat = 8 ∧ charSizeTvX.toNat = 12 := by decide
    refine ⟨fun a ha => ?_, fun a ha => ?_⟩
    · obtain ⟨r, v, j, hrow, hj, -, rfl⟩ := exists_of_mem_glyph ha
      have hr : r < 16 := by simpa using (List.getElem?_eq_some_iff.mp hrow).1
      rw [hstrides.1, drcStart_eq, index_drc (by omega)]
      omega
    · obtain ⟨r, v, j, hrow, hj, hlit, rfl⟩ := exists_of_mem_glyph ha
      obtain ⟨hr, hv⟩ := List.getElem?_eq_some_iff.mp hrow
      have hr' : r < 24 := by simpa using hr
      have hleft : scale x ≤ 1269 := by
        rw [scale]
        omega
      have htop : scale y ≤ 696 := by
        rw [scale]
        omega
      rw [hstrides.2, tvStart_eq (by omega) (by omega), index_tv (by omega)]
      -- only the corner of the last cell of the screen would be outside
      have hcorner : ¬ (r = 23 ∧ j = 11) := by
        rintro ⟨rfl, rfl⟩
        have hblank := hfont ⟨c.toNat - 32, by omega⟩
        rw [← hv, Vector.getElem_toList] at hlit
        exact absurd (hlit.symm.trans hblank) (by decide)
      omega

/-- What is drawn at a character is in bounds if its cell is visible. -/
lemma inBounds_printChar {font : Font} (hfont : font.CornerBlank) {x y : UInt32}
    (hvisible : Visible (x, y)) (fontColor flags : UInt32) (chr : UInt8) :
    ∀ d ∈ printChar font fontColor flags x y chr, InBounds d := by
  intro d hd
  rw [printChar, List.mem_append] at hd
  rcases hd with hglyph | hline
  · split at hglyph
    · exact inBounds_gfxDrawChar hfont hvisible fontColor chr d hglyph
    · exact absurd hglyph List.not_mem_nil
  · split at hline
    · exact inBounds_gfxDrawChar hfont hvisible fontColor 0x5f d hline
    · exact absurd hline List.not_mem_nil

/-- So is what the loop draws, if all cells are visible. -/
theorem inBounds_printLoop {font : Font} (hfont : font.CornerBlank)
    (fontColor origX flags : UInt32) {str : List UInt8} {x y : UInt32}
    (hvisible : ∀ cell ∈ cells origX flags str x y, Visible cell) :
    ∀ d ∈ (printLoop font fontColor origX flags str x y).2, InBounds d := by
  induction str generalizing x y with
  | nil => exact fun d hd => absurd hd List.not_mem_nil
  | cons chr str ih =>
    intro d hd
    rw [printLoop] at hd
    rw [cells] at hvisible
    by_cases hnewline : chr = 0x0a
    · rw [if_pos hnewline] at hd hvisible
      exact ih hvisible d hd
    · rw [if_neg hnewline] at hd hvisible
      rcases List.mem_append.mp hd with hchar | hrest
      · have hcell : Visible (x, y) := hvisible _ (by simp)
        exact inBounds_printChar hfont hcell fontColor flags chr d hchar
      · exact ih (fun cell hmem => hvisible cell (by simp [hmem])) d hrest

/-! ## The cleared background -/

/-- Rows of a rectangle are in a buffer iff its last pixel is, where places wrap far behind it. -/
lemma rows_lt_iff {i bound pitch w h : ℕ} (hw : 0 < w) (hh : 0 < h)
    (hbound : bound + ((h - 1) * pitch + (w - 1)) ≤ 2 ^ 30) :
    (∀ r < h, ∀ j < w, (i + (r * pitch + j)) % 2 ^ 30 < bound) ↔
      i % 2 ^ 30 + ((h - 1) * pitch + (w - 1)) < bound := by
  constructor
  · intro hall
    have hfirst := hall 0 hh 0 hw
    have hlast := hall (h - 1) (by omega) (w - 1) (by omega)
    rw [Nat.zero_mul] at hfirst
    omega
  · intro hlast r hr j hj
    have hrow : r * pitch ≤ (h - 1) * pitch := Nat.mul_le_mul_right _ (by omega)
    omega

/-- The index of a place behind another one. -/
lemma index_offset_ofNat (p m : UInt32) (n : ℕ) :
    index p (offset (offset p m) (UInt32.ofNat n)) = (m.toNat % 2 ^ 30 + n) % 2 ^ 30 := by
  rw [offset_offset, index_offset, UInt32.toNat_add, UInt32.toNat_ofNat']
  omega

/-- The index of a position, where places wrap far behind it. -/
lemma toNat_mul_add (y stride x : UInt32) :
    (y * stride + x).toNat % 2 ^ 30 = (y.toNat * stride.toNat + x.toNat) % 2 ^ 30 := by
  rw [UInt32.toNat_add, UInt32.toNat_mul]
  omega

/-- When the stores of a filled rectangle are in a buffer. -/
lemma filled_lt_iff {strideDiff p m w h : UInt32} {bound : ℕ} (hw : 0 < w.toNat)
    (hh : 0 < h.toNat)
    (hbound : bound + ((h.toNat - 1) * (w.toNat + strideDiff.toNat) + (w.toNat - 1)) ≤ 2 ^ 30) :
    (∀ a ∈ (draw strideDiff (filled w h) (offset p m)).flatten, index p a < bound) ↔
      m.toNat % 2 ^ 30 + ((h.toNat - 1) * (w.toNat + strideDiff.toNat) + (w.toNat - 1)) <
        bound := by
  rw [← Nat.mod_mod m.toNat, ← rows_lt_iff hw hh hbound]
  constructor
  · intro hall r hr j hj
    rw [← index_offset_ofNat p]
    exact hall _ (mem_draw_filled.mpr ⟨r, hr, j, hj, rfl⟩)
  · intro hall a ha
    obtain ⟨r, hr, j, hj, rfl⟩ := mem_draw_filled.mp ha
    rw [index_offset_ofNat]
    exact hall r hr j hj

/-- When a background is in bounds. -/
theorem inBounds_background_iff (x y col : UInt32) :
    InBounds (gfxDrawRectFilled x y screenWidth charSizeDrcY col) ↔ BackgroundFits x y := by
  have hdrc : (∀ a ∈ (gfxDrawRectFilled x y screenWidth charSizeDrcY col).drc.flatten,
      index drcFramebuffer a < 896 * 480) ↔
      (y.toNat * 896 + x.toNat) % 2 ^ 30 + (15 * 896 + 853) < 896 * 480 := by
    have hspan : (charSizeDrcY.toNat - 1) *
        (screenWidth.toNat + (drcStride - screenWidth).toNat) + (screenWidth.toNat - 1) =
          15 * 896 + 853 := by decide
    have hstride : drcStride.toNat = 896 := rfl
    rw [gfxDrawRectFilled, drcStart, offset_offset, filled_lt_iff (by decide) (by decide)
      (by omega), hspan, toNat_mul_add, hstride]
  have htv : (∀ a ∈ (gfxDrawRectFilled x y screenWidth charSizeDrcY col).tv.flatten,
      index tvFramebuffer a < 1280 * 720) ↔
      ((toUint32 (scaled y)).toNat * 1280 + (toUint32 (scaled x)).toNat) % 2 ^ 30 +
        (23 * 1281 + 1280) < 1280 * 720 := by
    have hspan : ((toUint32 (scaled charSizeDrcY)).toNat - 1) *
        ((toUint32 (scaled screenWidth)).toNat + (toUint32 (tvStrideDiff screenWidth)).toNat) +
          ((toUint32 (scaled screenWidth)).toNat - 1) = 23 * 1281 + 1280 := by decide
    have hstride : tvStride.toNat = 1280 := rfl
    rw [gfxDrawRectFilled, tvStart, offset_offset, filled_lt_iff (by decide) (by decide)
      (by omega), hspan, toNat_mul_add, hstride]
  rw [BackgroundFits, ← hdrc, ← htv]
  exact ⟨fun h => ⟨h.drc, h.tv⟩, fun h => ⟨h.1, h.2⟩⟩

/-- With a visible cell in its first line a background fits iff the line is not the last one. -/
lemma backgroundFits_iff {x y : UInt32} (hvisible : Visible (x, y)) :
    BackgroundFits x y ↔ y.toNat ≤ 463 := by
  obtain ⟨hx, hy⟩ : x.toNat + 8 ≤ 854 ∧ y.toNat + 16 ≤ 480 := hvisible
  rw [BackgroundFits, toUint32_scaled (by omega), toUint32_scaled (by omega),
    Nat.mod_eq_of_lt (by omega), Nat.mod_eq_of_lt (by omega)]
  constructor
  · rintro ⟨-, htv⟩
    omega
  · intro hline
    exact ⟨by omega, by omega⟩

/-- Visible text is in bounds iff no background is cleared or it fits. A background under a first
line with characters fits iff the line is above the last one, at 464. -/
theorem gfxPrint_iff (fontColor x y flags : UInt32) (str : List UInt8)
    (hvisible : ∀ cell ∈ textCells x y flags str, Visible cell) :
    PrintsInBounds terminus fontColor x y flags str ↔
      (flags &&& clearBG ≠ 0 →
        if startsLine str then y.toNat ≤ 463 else BackgroundFits (firstX x flags str) y) := by
  have htext := inBounds_printLoop cornerBlank_terminus fontColor x flags hvisible
  have hfits : BackgroundFits (firstX x flags str) y ↔
      if startsLine str then y.toNat ≤ 463 else BackgroundFits (firstX x flags str) y := by
    cases str with
    | nil => rfl
    | cons chr str =>
      by_cases hnewline : chr = 0x0a
      · rw [startsLine, hnewline, if_neg (by decide)]
      · have hcell : Visible (firstX x flags (chr :: str), y) := by
          refine hvisible _ ?_
          rw [textCells, cells, if_neg hnewline]
          exact List.mem_cons_self
        rw [startsLine, if_pos (bne_iff_ne.mpr hnewline), backgroundFits_iff hcell]
  rw [PrintsInBounds, gfxPrint]
  by_cases hclear : flags &&& clearBG ≠ 0
  · rw [if_pos hclear, ← hfits, ← inBounds_background_iff _ _ colorBackground]
    constructor
    · intro hall _
      exact hall _ (by simp)
    · intro hback d hd
      rcases List.mem_append.mp hd with hfirst | hrest
      · obtain rfl := List.mem_singleton.mp hfirst
        exact hback hclear
      · exact htext d hrest
  · rw [if_neg hclear]
    exact ⟨fun _ h => absurd h hclear, fun _ d hd => htext d (by simpa using hd)⟩

/-- A letter that is not aligned is visible if its position is. -/
lemma visible_letter {x y flags : UInt32} {chr : UInt8} (halign : flags &&& alignRight = 0)
    (hchr : chr ≠ 0x0a) (hvisible : Visible (x, y)) :
    ∀ cell ∈ textCells x y flags [chr], Visible cell := by
  rw [textCells, firstX, if_neg (not_not.mpr halign), cells, if_neg hchr, cells]
  exact List.forall_mem_singleton.mpr hvisible

/-- A letter whose line is cleared is in bounds at the top of the screen. -/
theorem gfxPrint_iff_top : PrintsInBounds terminus 0xFFFFFFFF 16 24 clearBG [0x41] :=
  (gfxPrint_iff 0xFFFFFFFF 16 24 clearBG [0x41]
    (visible_letter (by decide) (by decide) (by decide))).mpr fun _ => by
    rw [if_pos (by decide)]
    decide

/-- A letter in the last line of the screen is visible, and the background that is cleared for it
leaves the framebuffer of the TV. -/
theorem not_gfxPrint :
    (∀ cell ∈ textCells 0 464 clearBG [0x41], Visible cell) ∧
      ¬ PrintsInBounds terminus 0xFFFFFFFF 0 464 clearBG [0x41] := by
  have hvisible : Visible (0, 464) := by decide
  refine ⟨visible_letter (by decide) (by decide) hvisible, fun hall => ?_⟩
  have hback := (inBounds_background_iff 0 464 colorBackground).mp (hall _ List.mem_cons_self)
  exact absurd ((backgroundFits_iff hvisible).mp hback) (by decide)

end Gfx

end RecoveryMenu

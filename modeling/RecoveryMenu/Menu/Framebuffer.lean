import RecoveryMenu.Foundations.Overlay
import RecoveryMenu.Gfx.Print
import RecoveryMenu.Menu.MenuLoop

set_option relaxedAutoImplicit false
set_option autoImplicit false

/-!
# The menu in the framebuffers (`ios_mcp/source/menu.c`, `ios_mcp/source/gfx.c`)

What `drawMenu` stores to the framebuffers. The whole menu is painted once, and a press of EJECT
paints two of its items and the bars again. An item is a filled rectangle with a text in it, and
on both screens the rectangles of different items are apart, also where the scale of the TV rounds
them: a row of items is 20 pixels of the GamePad, which are 30 of the TV, and a rectangle has 18
of them, which are 27.

So nothing is left of an item that has been painted over, and at every point of a call the
framebuffers are those of a menu that is painted from scratch with the selection as it is.

## Main definitions

* `RecoveryMenu.DrawMenu.Window`: a call with its title, its position and the font.
* `RecoveryMenu.DrawMenu.Window.pixels`: the call, with the memory it paints on.
* `RecoveryMenu.DrawMenu.Window.Fits`: the items are on the screen, and above the link.

## Main results

* `RecoveryMenu.DrawMenu.isSome_itemLayer`: an item paints its rectangle, and nothing else.
* `RecoveryMenu.DrawMenu.framebuffers_of_reachable`: the framebuffers are those of a menu painted
  from scratch.

## References

* `ios_mcp/source/menu.c`, `ios_mcp/source/gfx.c`, `ios_mcp/source/gfx.h`.
-/

namespace RecoveryMenu

namespace DrawMenu

open Gfx Interleaving Overlay

/-! ## What is painted -/

/-- `COLOR_PRIMARY`. -/
def colorPrimary : UInt32 := 0xffffffff

/-- `COLOR_SECONDARY`. -/
def colorSecondary : UInt32 := 0x3478e4ff

/-- `COLOR_LINK`. -/
def colorLink : UInt32 := 0x5555ffff

/-- The characters of a text, which is ASCII. -/
def chars (s : String) : List UInt8 := s.toList.map fun c => c.val.toUInt8

/-- `%08lx`. -/
def hex08 (v : UInt32) : List UInt8 :=
  (List.range 8).map fun i =>
    let digit := v.toNat / 16 ^ (7 - i) % 16
    UInt8.ofNat (if digit < 10 then 48 + digit else 87 + digit)

/-- The text of an item. One with a title ID goes through a buffer of 64 bytes. -/
def itemChars (menuItem : Item) (flags : UInt32) : List UInt8 :=
  if flags &&& menuFlagShowTID = 0 then chars menuItem.name
  else if menuItem.tid ≠ 0 then
    (chars menuItem.name ++ chars " - " ++ hex08 (menuItem.tid >>> 32).toUInt32 ++ chars "-" ++
      hex08 menuItem.tid.toUInt32).take 63
  else chars menuItem.name

/-- `drawMenuItem`, what it stores. -/
def paintMenuItem (font : Font) (menuItem : Item) (selected : Bool) (flags x y : UInt32) :
    List Drawing :=
  let text := itemChars menuItem flags
  gfxDrawRectFilled (x - 1) (y - 1) (gfxGetTextWidth text + 2) (charSizeDrcY + 2)
      (if selected then colorPrimary else colorBackground) ::
    (gfxPrint font (if selected then colorBackground else colorPrimary) x y 0 text).2

/-- The link that is shown with `MenuFlag_ShowGitHubLink`. -/
def paintLink (font : Font) : List Drawing :=
  let ypos := screenHeight - charSizeDrcY * 3
  let linkPrefix := chars "Check out the GitHub repository at:"
  let xpos := 16 + charSizeDrcX * UInt32.ofNat (linkPrefix.length + 1)
  (gfxPrint font colorPrimary 16 ypos 0 linkPrefix).2 ++
    (gfxPrint font colorLink xpos ypos underline
      (chars "https://github.com/GaryOderNichts/recovery_menu")).2

/-- `drawTopBar`. -/
def paintTopBar (font : Font) (title : List UInt8) : List Drawing :=
  (gfxPrint font colorPrimary (screenWidth / 2 + gfxGetTextWidth title / 2) 8 1 title).2 ++
    [gfxDrawRectFilled 8 (16 + 8) (screenWidth - 8 * 2) 2 colorSecondary]

/-- `drawBars`. -/
def paintBars (font : Font) (title : List UInt8) : List Drawing :=
  paintTopBar font title ++
    [gfxDrawRectFilled 8 (screenHeight - (16 + 8 + 2)) (screenWidth - 8 * 2) 2 colorSecondary] ++
    (gfxPrint font colorPrimary 16 (screenHeight - charSizeDrcY - 4) 0
      (chars "EJECT: Navigate")).2 ++
    (gfxPrint font colorPrimary (screenWidth - 16) (screenHeight - charSizeDrcY - 4) alignRight
      (chars "POWER: Choose")).2

/-- `gfx_clear`: every pixel of both framebuffers. -/
def gfxClear (col : UInt32) : Drawing where
  col := col
  drc := [(List.range (drcStride * drcHeight).toNat).map fun i =>
    offset drcFramebuffer (UInt32.ofNat i)]
  tv := [(List.range (tvStride * tvHeight).toNat).map fun i =>
    offset tvFramebuffer (UInt32.ofNat i)]

/-- A memory after drawings. -/
def paintAll (ds : List Drawing) (m : UInt32 → UInt32) : UInt32 → UInt32 :=
  ds.foldl (fun m d => d.on m) m

/-- A call of `drawMenu`, with the arguments that only matter for what is painted, and the font. -/
structure Window extends Call where
  title : List UInt8
  x : UInt32
  font : Font

namespace Window

variable (w : Window)

/-- The height of an item, as it is passed on. -/
def height (i : ℤ) : UInt32 := UInt32.ofInt (w.row i)

/-- An item at its place. -/
def paintItem (i : ℤ) (selected : Bool) : List Drawing :=
  paintMenuItem w.font (w.item i) selected w.flags w.x (w.height i)

/-- The menu before the loop. -/
def paintMenu (selected : ℤ) : List Drawing :=
  (if w.flags &&& menuFlagNoClearScreen = 0 then [gfxClear colorBackground] else []) ++
    ((List.range w.menu.length).flatMap fun i : ℕ => w.paintItem i (selected = i)) ++
    if w.flags &&& menuFlagShowGitHubLink = 0 then [] else paintLink w.font

/-- What a turn of the loop paints, behind the first half of it. -/
def paintTurn (s : State) : List Drawing :=
  if s.result = none ∧ s.redraw then
    (if s.prevSelected ≠ s.selected then
      (if 0 ≤ s.prevSelected then w.paintItem s.prevSelected false else []) ++
        w.paintItem s.selected true
    else []) ++ paintBars w.font w.title
  else []

/-- A call and the memory it paints on, which was `m₀` before. -/
def pixels (m₀ : UInt32 → UInt32) : System (State × (UInt32 → UInt32)) UInt8 where
  init p := p = (w.drawFirst, paintAll (w.paintMenu w.drawFirst.selected) m₀)
  next p flag :=
    (w.system.next p.1 flag).map fun s => (s, paintAll (w.paintTurn (w.readFlag p.1 flag)) p.2)

/-- A menu painted from scratch, under the bars if they are painted. -/
def scratch (selected : ℤ) (bars : Bool) : List Drawing :=
  w.paintMenu selected ++ if bars then paintBars w.font w.title else []

/-- The items are on the screen, each in one line, and above the link if that is shown. -/
structure Fits : Prop where
  count : 1 ≤ w.menu.length
  left : 1 ≤ w.x.toNat
  top : 1 ≤ w.y.toNat
  bottom : w.y.toNat + 20 * w.menu.length ≤ 483
  width : ∀ menuItem ∈ w.menu, w.x.toNat + 8 * (itemChars menuItem w.flags).length + 1 < 854
  line : ∀ menuItem ∈ w.menu, 0x0a ∉ itemChars menuItem w.flags
  link : w.flags &&& menuFlagShowGitHubLink ≠ 0 → w.y.toNat + 20 * w.menu.length ≤ 435

end Window

/-! ## Layers -/

/-- A drawing, as a layer over the memory. -/
def layerOf (d : Drawing) (a : UInt32) : Option UInt32 :=
  if a ∈ d.drc.flatten ∨ a ∈ d.tv.flatten then some d.col else none

/-- Drawings, as one. -/
def layersOf (ds : List Drawing) : UInt32 → Option UInt32 := stack (ds.map layerOf)

/-- A drawing is painted over the memory. -/
lemma on_eq_onto (d : Drawing) (m : UInt32 → UInt32) : d.on m = onto (layerOf d) m := by
  funext a
  rw [Drawing.on_apply, onto, layerOf]
  split <;> rfl

/-- Drawings are painted one over the other. -/
theorem paintAll_eq (ds : List Drawing) (m : UInt32 → UInt32) :
    paintAll ds m = onto (layersOf ds) m := by
  induction ds generalizing m with
  | nil => rfl
  | cons d ds ih =>
    have hcons : paintAll (d :: ds) m = paintAll ds (d.on m) := rfl
    have happend := onto_stack_append [layerOf d] (ds.map layerOf) m
    rw [hcons, ih, on_eq_onto]
    simp only [layersOf, List.map_cons, List.singleton_append] at happend ⊢
    rw [happend]
    rfl

/-- Drawings behind drawings. -/
lemma paintAll_append (ds ds' : List Drawing) (m : UInt32 → UInt32) :
    paintAll (ds ++ ds') m = paintAll ds' (paintAll ds m) := List.foldl_append ..

/-- What drawings store to. -/
lemma isSome_layersOf {ds : List Drawing} {a : UInt32} :
    (layersOf ds a).isSome ↔ ∃ d ∈ ds, a ∈ d.drc.flatten ∨ a ∈ d.tv.flatten := by
  rw [layersOf, isSome_stack]
  constructor
  · rintro ⟨layer, hlayer, hsome⟩
    obtain ⟨d, hd, rfl⟩ := List.mem_map.mp hlayer
    exact ⟨d, hd, by simpa [layerOf] using hsome⟩
  · rintro ⟨d, hd, hmem⟩
    refine ⟨layerOf d, List.mem_map_of_mem hd, ?_⟩
    rw [layerOf, if_pos hmem]
    rfl

/-! ## Places -/

/-- The places of a rectangle, on both screens. -/
def Places (x y w h : UInt32) : Set UInt32 := {a | DrcRect x y w h a ∨ TvRect x y w h a}

/-- A filled rectangle of even width that does not reach the right border is stored to its
places. -/
lemma mem_rect {x y w h : UInt32} (hx : x.toNat + w.toNat < 854) (hy : y.toNat + h.toNat ≤ 480)
    (hw : w.toNat % 2 = 0) (col a : UInt32) :
    (a ∈ (gfxDrawRectFilled x y w h col).drc.flatten ∨
        a ∈ (gfxDrawRectFilled x y w h col).tv.flatten) ↔ a ∈ Places x y w h := by
  have hstraight : Straight x w h :=
    ⟨fun hodd => absurd hodd (by omega), fun _ => ⟨by omega, .inl hx⟩⟩
  exact mem_of_straight hx.le hy hstraight col a

/-- The stores of a glyph are in its cell. -/
lemma mem_cell {font : Font} {fontColor x y a : UInt32} {c : UInt8} {d : Drawing}
    (hx : x.toNat + 8 < 854) (hy : y.toNat + 16 ≤ 480) (hd : d ∈ gfxDrawChar font fontColor x y c)
    (ha : a ∈ d.drc.flatten ∨ a ∈ d.tv.flatten) :
    (∃ row column, y.toNat ≤ row ∧ row < y.toNat + 16 ∧ x.toNat ≤ column ∧
        column < x.toNat + 8 ∧ a = drcPixel column row) ∨
      ∃ row column, scale y ≤ row ∧ row < scale y + 24 ∧ scale x ≤ column ∧
        column < scale x + 12 ∧ a = tvPixel column row := by
  rw [gfxDrawChar] at hd
  split at hd
  · exact absurd hd List.not_mem_nil
  · obtain rfl := List.mem_singleton.mp hd
    have hstrides : charSizeDrcX.toNat + (drcStride - charSizeDrcX).toNat = 896 ∧
        charSizeTvX.toNat + (tvStride - charSizeTvX).toNat = 1280 := by decide
    have hsizes : charSizeDrcX.toNat = 8 ∧ charSizeTvX.toNat = 12 := by decide
    rcases ha with ha | ha
    · obtain ⟨r, v, j, hrow, hj, -, rfl⟩ := exists_of_mem_glyph ha
      have hr : r < 16 := by simpa using (List.getElem?_eq_some_iff.mp hrow).1
      refine .inl ⟨y.toNat + r, x.toNat + j, by omega, by omega, by omega, by omega, ?_⟩
      rw [hstrides.1, drcStart_eq, drcPixel, drcPixel, offset_ofNat]
      exact congrArg (fun n => offset drcFramebuffer (UInt32.ofNat n)) (by omega)
    · obtain ⟨r, v, j, hrow, hj, -, rfl⟩ := exists_of_mem_glyph ha
      have hr : r < 24 := by simpa using (List.getElem?_eq_some_iff.mp hrow).1
      refine .inr ⟨scale y + r, scale x + j, by omega, by omega, by omega, by omega, ?_⟩
      rw [hstrides.2, tvStart_eq (by omega) (by omega), tvPixel, tvPixel, offset_ofNat]
      exact congrArg (fun n => offset tvFramebuffer (UInt32.ofNat n)) (by omega)

/-- A text in one line is drawn in the cells behind its position. -/
lemma mem_printLoop {font : Font} {fontColor origX flags x y : UInt32} {str : List UInt8}
    (hline : 0x0a ∉ str) {d : Drawing}
    (hd : d ∈ (printLoop font fontColor origX flags str x y).2) :
    ∃ k < str.length, ∃ c, d ∈ gfxDrawChar font fontColor (x + 8 * UInt32.ofNat k) y c := by
  induction str generalizing x with
  | nil => exact absurd hd List.not_mem_nil
  | cons chr str ih =>
    have hchr : chr ≠ 0x0a := fun h => hline (h ▸ List.mem_cons_self)
    have hrest : 0x0a ∉ str := fun h => hline (List.mem_cons_of_mem chr h)
    rw [printLoop, if_neg hchr] at hd
    rcases List.mem_append.mp hd with hhead | htail
    · refine ⟨0, by simp, ?_⟩
      have hzero : x + 8 * UInt32.ofNat 0 = x := by simp
      rw [hzero]
      rw [printChar, List.mem_append] at hhead
      rcases hhead with hglyph | hunder
      · split at hglyph
        · exact ⟨chr, hglyph⟩
        · exact absurd hglyph List.not_mem_nil
      · split at hunder
        · exact ⟨0x5f, hunder⟩
        · exact absurd hunder List.not_mem_nil
    · obtain ⟨k, hk, c, hc⟩ := ih hrest htail
      refine ⟨k + 1, by simpa using hk, c, ?_⟩
      have hnext : x + 8 * UInt32.ofNat (k + 1) = x + charSizeDrcX + 8 * UInt32.ofNat k := by
        rw [UInt32.ofNat_add, charSizeDrcX]
        grind
      rw [hnext]
      exact hc

/-- A text in one line is in its rectangle. -/
lemma mem_text {font : Font} {fontColor x y flags a : UInt32} {str : List UInt8} {d : Drawing}
    (halign : flags &&& alignRight = 0) (hclear : flags &&& clearBG = 0) (hline : 0x0a ∉ str)
    (hx : x.toNat + 8 * str.length < 854) (hy : y.toNat + 16 ≤ 480)
    (hd : d ∈ (gfxPrint font fontColor x y flags str).2)
    (ha : a ∈ d.drc.flatten ∨ a ∈ d.tv.flatten) :
    (∃ row column, y.toNat ≤ row ∧ row < y.toNat + 16 ∧ x.toNat ≤ column ∧
        column < x.toNat + 8 * str.length ∧ a = drcPixel column row) ∨
      ∃ row column, scale y ≤ row ∧ row < scale y + 24 ∧ scale x ≤ column ∧
        column < scale x + 12 * str.length ∧ a = tvPixel column row := by
  have hd' : d ∈ (printLoop font fontColor x flags str x y).2 := by
    simpa [gfxPrint, firstX, halign, hclear] using hd
  obtain ⟨k, hk, c, hc⟩ := mem_printLoop hline hd'
  have hplace : (x + 8 * UInt32.ofNat k).toNat = x.toNat + 8 * k := by
    rw [UInt32.toNat_add, UInt32.toNat_mul, UInt32.toNat_ofNat']
    have h8 : (8 : UInt32).toNat = 8 := rfl
    rw [h8]
    omega
  have hscale : scale (x + 8 * UInt32.ofNat k) = scale x + 12 * k := by
    rw [scale, scale, hplace]
    omega
  have hcell := mem_cell (by omega) hy hc ha
  rw [hplace, hscale] at hcell
  rcases hcell with ⟨row, column, htop, hbottom, hleft, hright, rfl⟩ |
    ⟨row, column, htop, hbottom, hleft, hright, rfl⟩
  · exact .inl ⟨row, column, htop, hbottom, by omega, by omega, rfl⟩
  · exact .inr ⟨row, column, htop, hbottom, by omega, by omega, rfl⟩

/-! ## Items -/

namespace Window

variable {w : Window}

/-- The text of an item. -/
def text (w : Window) (i : Fin w.menu.length) : List UInt8 := itemChars w.menu[i] w.flags

/-- The places of an item. -/
def region (w : Window) (i : Fin w.menu.length) : Set UInt32 :=
  Places (w.x - 1) (w.height i - 1) (gfxGetTextWidth (w.text i) + 2) (charSizeDrcY + 2)

/-- An item of the menu, as it is painted. -/
def itemLayer (w : Window) (i : Fin w.menu.length) (selected : Bool) : UInt32 → Option UInt32 :=
  layersOf (w.paintItem i selected)

/-- A number before another one. -/
lemma toNat_pred {a : UInt32} (h : 1 ≤ a.toNat) : (a - 1).toNat = a.toNat - 1 := by
  have hone : (1 : UInt32).toNat = 1 := rfl
  rw [UInt32.toNat_sub_of_le _ _ (UInt32.le_iff_toNat_le.mpr (hone ▸ h)), hone]

/-- An item has its height, 20 pixels behind the one before it. -/
lemma toNat_height (hfits : w.Fits) (i : Fin w.menu.length) :
    (w.height i).toNat = w.y.toNat + 20 * i := by
  have hbottom := hfits.bottom
  have hi := i.isLt
  rw [height, Call.row, rowHeight_eq, UInt32.ofInt, UInt32.toNat_ofNat']
  omega

/-- Where the rectangle of an item is. -/
lemma rect_eq (hfits : w.Fits) (i : Fin w.menu.length) :
    (w.x - 1).toNat = w.x.toNat - 1 ∧ (w.height i - 1).toNat = w.y.toNat + 20 * i - 1 ∧
      (gfxGetTextWidth (w.text i) + 2).toNat = 8 * (w.text i).length + 2 ∧
      (charSizeDrcY + 2).toNat = 18 := by
  have hy := hfits.top
  have hheight := toNat_height hfits i
  have hwidth : w.x.toNat + 8 * (w.text i).length + 1 < 854 :=
    hfits.width _ (List.getElem_mem i.isLt)
  refine ⟨toNat_pred hfits.left, ?_, ?_, rfl⟩
  · rw [toNat_pred (by omega), hheight]
  · have h8 : charSizeDrcX.toNat = 8 := rfl
    have h2 : (2 : UInt32).toNat = 2 := rfl
    rw [gfxGetTextWidth, UInt32.toNat_add, UInt32.toNat_mul, UInt32.toNat_ofNat', h8, h2]
    omega

/-- **An item paints its rectangle, and nothing else.** Its text is in the rectangle, on the TV as
well, where both are rounded. -/
theorem isSome_itemLayer (hfits : w.Fits) (i : Fin w.menu.length) (selected : Bool) (a : UInt32) :
    (w.itemLayer i selected a).isSome ↔ a ∈ w.region i := by
  obtain ⟨hx, hy, hw, hh⟩ := rect_eq hfits i
  have hleft := hfits.left
  have htop := hfits.top
  have hbottom := hfits.bottom
  have hi := i.isLt
  have hwidth : w.x.toNat + 8 * (w.text i).length + 1 < 854 :=
    hfits.width _ (List.getElem_mem i.isLt)
  have hline : 0x0a ∉ w.text i := hfits.line _ (List.getElem_mem i.isLt)
  have hitem : w.item i = w.menu[i] := w.item_eq i.isLt
  have hheight := toNat_height hfits i
  have hrect (col : UInt32) := mem_rect (x := w.x - 1) (y := w.height i - 1)
    (w := gfxGetTextWidth (w.text i) + 2) (h := charSizeDrcY + 2) (by omega) (by omega)
    (by omega) col a
  rw [itemLayer, isSome_layersOf, paintItem, hitem]
  constructor
  · rintro ⟨d, hd, ha⟩
    rcases List.mem_cons.mp hd with rfl | hd
    · exact (hrect _).mp ha
    · rcases mem_text (by decide) (by decide) hline (by omega) (by omega) hd ha with
        ⟨row, column, h₁, h₂, h₃, h₄, rfl⟩ | ⟨row, column, h₁, h₂, h₃, h₄, rfl⟩
      · exact .inl ⟨row, column, by omega, by omega, by omega, by omega, rfl⟩
      · refine .inr ⟨row, column, ?_, ?_, ?_, ?_, rfl⟩ <;> simp only [scale] at * <;> omega
  · intro ha
    exact ⟨_, List.mem_cons_self, (hrect _).mpr ha⟩

/-- The rectangles of different items are apart. -/
theorem region_unique (hfits : w.Fits) {i j : Fin w.menu.length} {a : UInt32}
    (hi : a ∈ w.region i) (hj : a ∈ w.region j) : i = j := by
  obtain ⟨hx, hy, hw, hh⟩ := rect_eq hfits i
  obtain ⟨-, hy', hw', -⟩ := rect_eq hfits j
  have htop := hfits.top
  have hbottom := hfits.bottom
  have hwidth : w.x.toNat + 8 * (w.text i).length + 1 < 854 :=
    hfits.width _ (List.getElem_mem i.isLt)
  have hwidth' : w.x.toNat + 8 * (w.text j).length + 1 < 854 :=
    hfits.width _ (List.getElem_mem j.isLt)
  have hlt := i.isLt
  have hlt' := j.isLt
  rcases hi with ⟨row, column, h₁, h₂, h₃, h₄, rfl⟩ | ⟨row, column, h₁, h₂, h₃, h₄, rfl⟩ <;>
    rcases hj with ⟨row', column', h₁', h₂', h₃', h₄', heq⟩ |
      ⟨row', column', h₁', h₂', h₃', h₄', heq⟩
  · have := offset_injective (by omega) (by omega) heq
    exact Fin.ext (by omega)
  · exact absurd heq (drcPixel_ne (by omega) (by omega) (by simp only [scale] at *; omega))
  · exact absurd heq.symm (drcPixel_ne (by omega) (by omega) (by simp only [scale] at *; omega))
  · simp only [scale] at *
    have := offset_injective (by omega) (by omega) heq
    exact Fin.ext (by omega)

/-- The items of the menu, as tiles. -/
def tiles (w : Window) (hfits : w.Fits) : Tiles (Fin w.menu.length) Bool UInt32 UInt32 where
  tile := w.itemLayer
  region := w.region
  isSome_iff := isSome_itemLayer hfits
  unique _ _ _ := region_unique hfits

/-! ## The whole menu -/

/-- Drawings of a list, one after the other. -/
lemma layersOf_flatMap {ι : Type} (is : List ι) (f : ι → List Drawing) :
    layersOf (is.flatMap f) = stack (is.map fun i => layersOf (f i)) := by
  induction is with
  | nil => rfl
  | cons i is ih =>
    funext a
    rw [List.flatMap_cons, layersOf, List.map_append, stack_append, List.map_cons, stack, ← ih]
    rfl

/-- The items of the menu, as they are numbered. -/
lemma map_val_finRange (n : ℕ) : (List.finRange n).map Fin.val = List.range n := by
  apply List.ext_getElem <;> simp

/-- Which item is highlighted. -/
def view (w : Window) (selected : ℤ) (i : Fin w.menu.length) : Bool := decide (selected = (i : ℕ))

/-- What is behind the items. -/
def background (w : Window) (m₀ : UInt32 → UInt32) : UInt32 → UInt32 :=
  paintAll (if w.flags &&& menuFlagNoClearScreen = 0 then [gfxClear colorBackground] else []) m₀

/-- What is in front of them, and not painted again. -/
def link (w : Window) : UInt32 → Option UInt32 :=
  layersOf (if w.flags &&& menuFlagShowGitHubLink = 0 then [] else paintLink w.font)

/-- The menu before the loop, as layers. -/
lemma paintAll_paintMenu (hfits : w.Fits) (selected : ℤ) (m₀ : UInt32 → UInt32) :
    paintAll (w.paintMenu selected) m₀ =
      onto w.link (onto ((w.tiles hfits).picture (List.finRange w.menu.length) (w.view selected))
        (w.background m₀)) := by
  have hitems : layersOf ((List.range w.menu.length).flatMap fun i : ℕ =>
      w.paintItem i (selected = i)) =
      (w.tiles hfits).picture (List.finRange w.menu.length) (w.view selected) := by
    rw [← map_val_finRange, List.flatMap_map, layersOf_flatMap]
    rfl
  rw [paintMenu, paintAll_append, paintAll_append, ← background, paintAll_eq _ (w.background m₀),
    hitems, paintAll_eq]
  rfl

/-- The link is in one line below 432, and not at the right border. -/
lemma mem_link {font : Font} {d : Drawing} (hd : d ∈ paintLink font) {a : UInt32}
    (ha : a ∈ d.drc.flatten ∨ a ∈ d.tv.flatten) :
    (∃ row column, 432 ≤ row ∧ row < 448 ∧ column < 854 ∧ a = drcPixel column row) ∨
      ∃ row column, 648 ≤ row ∧ row < 672 ∧ column < 1280 ∧ a = tvPixel column row := by
  have hy : (screenHeight - charSizeDrcY * 3).toNat = 432 := by decide
  have hscaley : scale (screenHeight - charSizeDrcY * 3) = 648 := by decide
  have hlength : (chars "Check out the GitHub repository at:").length = 35 := by decide
  have hurl : (chars "https://github.com/GaryOderNichts/recovery_menu").length = 47 := by decide
  have hx : (16 : UInt32).toNat = 16 ∧ scale 16 = 24 := by decide
  have hx' : (16 + charSizeDrcX * UInt32.ofNat
      ((chars "Check out the GitHub repository at:").length + 1)).toNat = 304 ∧
      scale (16 + charSizeDrcX * UInt32.ofNat
        ((chars "Check out the GitHub repository at:").length + 1)) = 456 := by
    rw [hlength]
    decide
  rcases List.mem_append.mp hd with hd | hd
  · rcases mem_text (by decide) (by decide) (by decide) (by omega) (by omega) hd ha with
      ⟨row, column, h₁, h₂, h₃, h₄, rfl⟩ | ⟨row, column, h₁, h₂, h₃, h₄, rfl⟩
    · exact .inl ⟨row, column, by omega, by omega, by omega, rfl⟩
    · exact .inr ⟨row, column, by omega, by omega, by omega, rfl⟩
  · rcases mem_text (by decide) (by decide) (by decide) (by omega) (by omega) hd ha with
      ⟨row, column, h₁, h₂, h₃, h₄, rfl⟩ | ⟨row, column, h₁, h₂, h₃, h₄, rfl⟩
    · exact .inl ⟨row, column, by omega, by omega, by omega, rfl⟩
    · exact .inr ⟨row, column, by omega, by omega, by omega, rfl⟩

/-- The link is below the items. -/
lemma link_eq_none (hfits : w.Fits) (i : Fin w.menu.length) {a : UInt32} (ha : a ∈ w.region i) :
    w.link a = none := by
  rw [link]
  split
  · rfl
  · next hlink =>
    obtain ⟨hx, hy, hw, hh⟩ := rect_eq hfits i
    have habove := hfits.link hlink
    have htop := hfits.top
    have hi := i.isLt
    have hwidth : w.x.toNat + 8 * (w.text i).length + 1 < 854 :=
      hfits.width _ (List.getElem_mem i.isLt)
    rw [← Option.not_isSome_iff_eq_none, isSome_layersOf]
    rintro ⟨d, hd, hmem⟩
    have hplace := mem_link hd hmem
    rcases ha with ⟨row, column, h₁, h₂, h₃, h₄, rfl⟩ | ⟨row, column, h₁, h₂, h₃, h₄, rfl⟩ <;>
      rcases hplace with ⟨row', column', h₁', h₂', h₃', heq⟩ | ⟨row', column', h₁', h₂', h₃', heq⟩
    · have := offset_injective (by omega) (by omega) heq
      omega
    · exact drcPixel_ne (by omega) (by omega) (by omega) heq
    · refine drcPixel_ne (by omega) (by omega) ?_ heq.symm
      simp only [scale] at *
      omega
    · simp only [scale] at *
      have := offset_injective (by omega) (by omega) heq
      omega

/-- What a turn paints: items that have changed, and the bars. An item that is not painted is as
it was. -/
lemma exists_changed {s : State} (hresult : s.result = none) (hredraw : s.redraw = true)
    {old new : Fin w.menu.length} (hnew : s.selected = (new : ℕ))
    (hprev : s.prevSelected = (old : ℕ) ∨ s.prevSelected < 0 ∧ old = new) :
    ∃ changed : List (Fin w.menu.length),
      w.paintTurn s = (changed.flatMap fun i : Fin w.menu.length =>
        w.paintItem i.val (w.view (new : ℕ) i)) ++
        paintBars w.font w.title ∧
      ∀ i, i ∉ changed → w.view (old : ℕ) i = w.view (new : ℕ) i := by
  have hself : w.view (new : ℕ) new = true := by simp [view]
  rw [paintTurn, if_pos ⟨hresult, hredraw⟩, hnew]
  rcases hprev with hprev | ⟨hnone, rfl⟩
  · rw [hprev]
    by_cases hsame : old = new
    · refine ⟨[], ?_, fun i _ => by rw [hsame]⟩
      rw [if_neg (by simp [hsame])]
      rfl
    · refine ⟨[old, new], ?_, fun i hi => ?_⟩
      · have hother : w.view (new : ℕ) old = false := by
          simpa [view, Fin.val_inj] using Ne.symm hsame
        rw [if_pos (by simpa [Fin.val_inj] using hsame), if_pos (by omega)]
        simp [hself, hother]
      · have hne : old ≠ i ∧ new ≠ i := by simpa [eq_comm] using hi
        simp [view, Fin.val_inj, hne.1, hne.2]
  · refine ⟨[old], ?_, fun i _ => rfl⟩
    rw [if_pos (by omega), if_neg (by omega)]
    simp [hself]

/-- What a turn paints brings the menu up to date. -/
lemma paintAll_paintTurn (hfits : w.Fits) {m₀ M : UInt32 → UInt32} {s : State}
    (hresult : s.result = none) (hredraw : s.redraw = true) {old new : Fin w.menu.length}
    (hnew : s.selected = (new : ℕ))
    (hprev : s.prevSelected = (old : ℕ) ∨ s.prevSelected < 0 ∧ old = new)
    (hM : onto (layersOf (paintBars w.font w.title)) M =
      onto (layersOf (paintBars w.font w.title)) (paintAll (w.paintMenu (old : ℕ)) m₀)) :
    paintAll (w.paintTurn s) M = paintAll (w.scratch (new : ℕ) true) m₀ := by
  obtain ⟨changed, hpaint, hview⟩ := exists_changed hresult hredraw hnew hprev
  have hitems : layersOf (changed.flatMap fun i : Fin w.menu.length =>
      w.paintItem i.val (w.view (new : ℕ) i)) =
      (w.tiles hfits).picture changed (w.view (new : ℕ)) := layersOf_flatMap _ _
  rw [hpaint, scratch, if_pos rfl, paintAll_append, paintAll_append, paintAll_paintMenu hfits,
    paintAll_eq, paintAll_eq, paintAll_eq, hitems]
  rw [paintAll_paintMenu hfits] at hM
  exact Tiles.repaint (fun i _ => List.mem_finRange i) (fun i _ => hview i)
    (fun i _ a ha => link_eq_none hfits i ha) hM

/-- What is in the framebuffers in a state of a call. The first turn of the loop still has the bars
to paint, and no item has been selected before it. -/
structure Shows (w : Window) (m₀ : UInt32 → UInt32) (p : State × (UInt32 → UInt32)) : Prop where
  nonneg : 0 ≤ p.1.selected
  lt : p.1.selected < w.menu.length
  first : p.1.redraw = true → p.1.prevSelected < 0
  memory : p.2 = paintAll (w.scratch p.1.selected !p.1.redraw) m₀

/-- Under the bars a menu is the same before and after they have been painted. -/
lemma Shows.onto_bars {m₀ M : UInt32 → UInt32} {s : State} (h : w.Shows m₀ (s, M)) :
    onto (layersOf (paintBars w.font w.title)) M =
      onto (layersOf (paintBars w.font w.title)) (paintAll (w.paintMenu s.selected) m₀) := by
  have hmemory : M = paintAll (w.scratch s.selected !s.redraw) m₀ := h.memory
  rw [hmemory, scratch, paintAll_append]
  cases s.redraw with
  | false =>
    rw [Bool.not_false, if_pos rfl, paintAll_eq (paintBars w.font w.title)]
    exact onto_onto_self _ _
  | true => rfl

/-- The second half of a turn leaves nothing to paint. -/
lemma redrawItems_redraw (c : Call) (s : State) : (c.redrawItems s).redraw = false := by
  unfold Call.redrawItems
  split
  · rfl
  · next h => simpa using h

/-- The second half of a turn paints what the first half has moved. -/
lemma shows_redraw (hfits : w.Fits) {m₀ M : UInt32 → UInt32} {s : State}
    (hresult : s.result = none) (hredraw : s.redraw = true) {old new : Fin w.menu.length}
    (hnew : s.selected = (new : ℕ))
    (hprev : s.prevSelected = (old : ℕ) ∨ s.prevSelected < 0 ∧ old = new)
    (hM : onto (layersOf (paintBars w.font w.title)) M =
      onto (layersOf (paintBars w.font w.title)) (paintAll (w.paintMenu (old : ℕ)) m₀)) :
    w.Shows m₀ (w.redrawItems s, paintAll (w.paintTurn s) M) := by
  have hlt : ((new : ℕ) : ℤ) < w.menu.length := Int.ofNat_lt.mpr new.isLt
  refine ⟨?_, ?_, fun hagain => ?_, ?_⟩
  · rw [Call.redrawItems_selected, hnew]
    exact Int.natCast_nonneg _
  · rw [Call.redrawItems_selected, hnew]
    exact hlt
  · rw [redrawItems_redraw] at hagain
    exact nomatch hagain
  · rw [Call.redrawItems_selected, redrawItems_redraw, hnew]
    exact paintAll_paintTurn hfits hresult hredraw hnew hprev hM

/-- A turn without a move paints nothing. -/
lemma shows_idle {m₀ M : UInt32 → UInt32} {s : State} (hshows : w.Shows m₀ (s, M))
    (hredraw : s.redraw = false) :
    w.Shows m₀ (w.redrawItems s, paintAll (w.paintTurn s) M) := by
  have hitems : w.redrawItems s = s := by
    rw [Call.redrawItems, if_neg]
    simp [hredraw]
  have hturn : w.paintTurn s = [] := by
    rw [paintTurn, if_neg]
    simp [hredraw]
  rw [hitems, hturn]
  exact hshows

/-- A turn keeps the framebuffers up to date.

**Proof sketch.** By what the first half of it does. A move leaves the item that was selected as
the one to paint. Before the first move there is none, but in the first turn the bars are
painted. -/
lemma shows_turn (hfits : w.Fits) {m₀ M : UInt32 → UInt32} {s : State}
    (hshows : w.Shows m₀ (s, M)) (hresult : s.result = none) (flag : UInt8) :
    w.Shows m₀ (w.turn s flag, paintAll (w.paintTurn (w.readFlag s flag)) M) := by
  have hnonneg : 0 ≤ s.selected := hshows.nonneg
  have hlt : s.selected < w.menu.length := hshows.lt
  obtain ⟨old, hold⟩ : ∃ old : Fin w.menu.length, s.selected = (old : ℕ) :=
    ⟨⟨s.selected.toNat, by omega⟩, (Int.toNat_of_nonneg hnonneg).symm⟩
  have hbars := hshows.onto_bars
  rw [hold] at hbars
  obtain ⟨-, -, h⟩ | ⟨-, -, -, h⟩ | ⟨-, h⟩ := w.readFlag_cases s flag
  · rw [w.turn_of_result (by rw [h, hresult]), h]
    obtain ⟨new, hnew⟩ : ∃ new : Fin w.menu.length,
        (if s.selected + 1 = w.menu.length then 0 else s.selected + 1) = (new : ℕ) := by
      have hcount := hfits.count
      split_ifs with hlast
      · exact ⟨⟨0, hcount⟩, rfl⟩
      · exact ⟨⟨old + 1, by omega⟩, by simp [hold]⟩
    exact shows_redraw hfits hresult rfl hnew (.inl hold) hbars
  · rw [w.turn_of_result_some (by rw [h]), h]
    exact ⟨hshows.nonneg, hshows.lt, hshows.first, hshows.memory⟩
  · rw [w.turn_of_result (by rw [h, hresult]), h]
    cases hredraw : s.redraw with
    | false =>
      refine shows_idle ⟨hnonneg, hlt, (nomatch ·), ?_⟩ rfl
      have hmemory : M = paintAll (w.scratch s.selected !s.redraw) m₀ := hshows.memory
      rw [hredraw] at hmemory
      exact hmemory
    | true => exact shows_redraw hfits hresult rfl hold (.inr ⟨hshows.first hredraw, rfl⟩) hbars

/-- The framebuffers before the loop. -/
lemma shows_drawFirst (hfits : w.Fits) (m₀ : UInt32 → UInt32) :
    w.Shows m₀ (w.drawFirst, paintAll (w.paintMenu w.drawFirst.selected) m₀) := by
  have hshows := w.showsSelected_drawFirst hfits.count
  refine ⟨hshows.nonneg, hshows.lt, fun _ => ?_, ?_⟩
  · show (-1 : ℤ) < 0
    omega
  · show _ = paintAll (w.scratch _ false) m₀
    rw [scratch, if_neg Bool.false_ne_true, List.append_nil]

end Window

/-- **The framebuffers are those of a menu painted from scratch.** Whatever flags a call reads, and
whatever was on the screens before it, at every point of it both framebuffers are what painting the
menu with the selection as it is gives, and the bars if they have been painted at all.

**Proof sketch.** The invariant rule. A turn paints the items that have changed and the bars. -/
theorem framebuffers_of_reachable (w : Window) (hfits : w.Fits) (m₀ : UInt32 → UInt32) {s : State}
    {m : UInt32 → UInt32} (h : (w.pixels m₀).Reachable (s, m)) :
    m = paintAll (w.scratch s.selected !s.redraw) m₀ := by
  have hshows : w.Shows m₀ (s, m) := by
    refine h.invariant (I := fun p => w.Shows m₀ p) ?_ ?_
    · rintro _ rfl
      exact w.shows_drawFirst hfits m₀
    · rintro ⟨s, M⟩ flag t hs _ hnext
      obtain ⟨s', hs', rfl⟩ := Option.map_eq_some_iff.mp hnext
      obtain ⟨hresult, rfl⟩ := eq_turn_of_next hs'
      exact Window.shows_turn hfits hs hresult flag
  exact hshows.memory

/-! ## The main menu -/

/-- The call of `drawMenu` in `menuThread`. -/
def mainMenu (font : Font) (selected : ℤ) : Window where
  toCall := MenuLoop.mainMenu.call selected fun _ => none
  title := chars "Wii U Recovery Menu v0.6 by GaryOderNichts"
  x := 16
  font := font

/-- The main menu is on the screen. -/
lemma fits_mainMenu (font : Font) (selected : ℤ) : (mainMenu font selected).Fits where
  count := by
    show 1 ≤ MenuLoop.mainMenuOptions.length
    decide
  left := by
    show 1 ≤ (16 : UInt32).toNat
    decide
  top := by
    show 1 ≤ (16 + 8 + 2 + 8 : UInt32).toNat
    decide
  bottom := by
    show (16 + 8 + 2 + 8 : UInt32).toNat + 20 * MenuLoop.mainMenuOptions.length ≤ 483
    decide
  width := by
    show ∀ menuItem ∈ MenuLoop.mainMenu.menu, 16 + 8 * (itemChars menuItem 4).length + 1 < 854
    decide
  line := by
    show ∀ menuItem ∈ MenuLoop.mainMenu.menu, 0x0a ∉ itemChars menuItem 4
    decide
  link _ := by
    show (16 + 8 + 2 + 8 : UInt32).toNat + 20 * MenuLoop.mainMenuOptions.length ≤ 435
    decide

/-- A press of EJECT in the main menu. -/
theorem framebuffers_mainMenu :
    ∃ s m, ((mainMenu terminus 0).pixels fun _ => 0).Reachable (s, m) ∧ s.selected = 1 ∧
      m = paintAll ((mainMenu terminus 0).scratch s.selected !s.redraw) fun _ => 0 :=
  have hreachable : ((mainMenu terminus 0).pixels fun _ => 0).Reachable _ := .of_run rfl [0x20] rfl
  ⟨_, _, hreachable, rfl,
    framebuffers_of_reachable (mainMenu terminus 0) (fits_mainMenu terminus 0) _ hreachable⟩

end DrawMenu

end RecoveryMenu

/-
Drawing by strips and drawing on one canvas: what each call of the user interface inks in the plane,
and that a strip shows the window of the plane it stands for, whatever its first row and its number of
rows. The drawing functions are given a second time with their writes checked against the strip
buffer and their reads against the text in memory; they never fail.
-/
import FoloGameboy.Display.Strips
import FoloGameboy.Display.Text
import FoloGameboy.Lib.Checked
import FoloGameboy.Lib.Paint

namespace FoloGameboy

open Painter

/-! ## Calls -/

/-- A call of `ui_fill`, `ui_frame` or `ui_text_region`; text keeps between the edges of the panel. -/
inductive UiCall where
  | fill (x y w h : Int) (color : UInt16)
  | frame (x y w h border : Int) (color : UInt16)
  | text (x y minX maxX : Int) (hmin : 0 ≤ minX) (hmax : maxX ≤ BSP_LCD_W) (label : Option CText) (color : UInt16)

def UiCall.color : UiCall → UInt16
  | .fill _ _ _ _ color => color
  | .frame _ _ _ _ _ color => color
  | .text _ _ _ _ _ _ _ color => color

def UiCall.draw (font : UiFont) (stripY rows : Int) : UiCall → Strip → Strip
  | .fill x y w h color => uiFill stripY rows x y w h color
  | .frame x y w h border color => uiFrame stripY rows x y w h border color
  | .text x y minX maxX _ _ label color => uiTextRegion font stripY rows x y minX maxX (label.map CText.bytes) color

/-- A sequence of calls, drawn into one strip. -/
def drawCalls (font : UiFont) (stripY rows : Int) (calls : List UiCall) (s : Strip) : Strip :=
  calls.foldl (fun s call => call.draw font stripY rows s) s

/-! ## The plane -/

/-- The points of a rectangle; none when it has no width or no height. -/
def InBox (x y w h px py : Int) : Prop := x ≤ px ∧ px < x + w ∧ y ≤ py ∧ py < y + h

instance (x y w h px py : Int) : Decidable (InBox x y w h px py) := inferInstanceAs (Decidable (_ ∧ _))

/-- A glyph of which the upper left corner is at the origin has ink at a point. -/
def GlyphInk (font : UiFont) (cp : UInt32) (dx dy : Int) : Prop :=
  InBox 0 0 (if 127 < cp then 16 else 12) 16 dx dy ∧ glyphOn font cp dx.toNat dy.toNat = true

instance (font : UiFont) (cp : UInt32) (dx dy : Int) : Decidable (GlyphInk font cp dx dy) :=
  inferInstanceAs (Decidable (_ ∧ _))

/-- Code points in a line, the first at `x`. -/
def LineInk (font : UiFont) (y px py : Int) : Int → List UInt32 → Prop
  | _, [] => False
  | x, cp :: cps => GlyphInk font cp (px - x) (py - y) ∨ LineInk font y px py (x + penAdvance cp) cps

instance (font : UiFont) (y px py : Int) : ∀ (x : Int) (cps : List UInt32), Decidable (LineInk font y px py x cps)
  | _, [] => inferInstanceAs (Decidable False)
  | x, cp :: cps =>
    have := instDecidableLineInk font y px py (x + penAdvance cp) cps
    inferInstanceAs (Decidable (_ ∨ _))

/-- A call has ink at a point of the plane; of a text, only between its edges. -/
def UiCall.Inks (font : UiFont) (px py : Int) : UiCall → Prop
  | .fill x y w h _ => InBox x y w h px py
  | .frame x y w h border _ =>
    InBox x y w border px py ∨ InBox x (y + h - border) w border px py ∨ InBox x y border h px py ∨
      InBox (x + w - border) y border h px py
  | .text x y minX maxX _ _ label _ =>
    (minX ≤ px ∧ px < maxX) ∧ LineInk font y px py x (codepoints ((label.map CText.text).getD []))

instance (font : UiFont) (px py : Int) : DecidablePred (UiCall.Inks font px py)
  | .fill x y w h _ => inferInstanceAs (Decidable (InBox x y w h px py))
  | .frame x y w h border _ =>
      inferInstanceAs (Decidable (InBox x y w border px py ∨ InBox x (y + h - border) w border px py ∨
      InBox x y border h px py ∨ InBox (x + w - border) y border h px py))
  | .text x y minX maxX _ _ label _ =>
    inferInstanceAs
      (Decidable ((minX ≤ px ∧ px < maxX) ∧ LineInk font y px py x (codepoints ((label.map CText.text).getD []))))

/-- The colour of a point of the plane after a sequence of calls. -/
def planeColor (font : UiFont) (px py : Int) (calls : List UiCall) (old : UInt16) : UInt16 :=
  paint (UiCall.Inks font px py) UiCall.color calls old

/-! ## Rectangles in a strip -/

/-- The columns that `ui_fill` clips a rectangle to. -/
theorem clip_columns {x w left width : Int} (hleft : (if x < 0 then 0 else x) = left)
    (hwidth : (if (BSP_LCD_W : Int) < left + (if x < 0 then w + x else w) then BSP_LCD_W - left
      else if x < 0 then w + x else w) =
      width) :
    (0 ≤ left ∧ (0 < width → left + width ≤ BSP_LCD_W)) ∧
      ∀ px : Nat, px < BSP_LCD_W →
        ((0 < width ∧ left ≤ px ∧ px < left + width) ↔ (x ≤ px ∧ px < x + w)) := by
  unfold BSP_LCD_W at *
  constructor
  · split_ifs at hleft hwidth <;> omega
  · intro px hpx
    split_ifs at hleft hwidth <;> omega

section
variable {stripY rows : Int} {px dy : Nat}

/-- A pixel of a strip shows a rectangle where the plane does. -/
theorem uiFill_pixel (hpx : px < BSP_LCD_W) (hdy : dy < rows) (x y w h : Int) (color : UInt16) (s : Strip) :
    uiFill stripY rows x y w h color s (dy * BSP_LCD_W + px) =
      if InBox x y w h px (stripY + dy) then color else s (dy * BSP_LCD_W + px) := by
  unfold uiFill
  dsimp only
  generalize hleft : (if x < 0 then 0 else x) = left
  generalize hwidth : ite ((BSP_LCD_W : Int) < left + ite (x < 0) (w + x) w) _ _ = width
  obtain ⟨hinside, hcolumns⟩ := clip_columns hleft hwidth
  replace hcolumns := hcolumns px hpx
  by_cases hempty : width ≤ 0
  · rw [if_pos hempty, if_neg fun hin => by have := hcolumns.mpr ⟨hin.1, hin.2.1⟩; omega]
  rw [if_neg hempty]
  have hrow : ∀ i ∈ List.range (min (y + h) (stripY + rows) - max y stripY).toNat, ∀ s : Strip,
      s.fill ((max y stripY + (i : Int) - stripY) * BSP_LCD_W + left).toNat width.toNat color
        (dy * BSP_LCD_W + px) =
        if max y stripY + (i : Int) = stripY + dy ∧ left ≤ px ∧ px < left + width then color
          else s (dy * BSP_LCD_W + px) := by
    intro i _ s
    unfold Strip.fill
    refine if_congr ?_ rfl rfl
    unfold BSP_LCD_W at *
    have hnonneg : 0 ≤ (max y stripY + (i : Int) - stripY) := by omega
    omega
  rw [foldl_paint (fun i : Nat => max y stripY + (i : Int) = stripY + dy ∧ left ≤ px ∧
    px < left + width) (fun _ => color)
    (fun s : Strip => s (dy * BSP_LCD_W + px)) hrow, paint_const]
  refine if_congr ?_ rfl rfl
  constructor
  · rintro ⟨i, hi, hi', hx, hx'⟩
    rw [List.mem_range] at hi
    have := hcolumns.mp ⟨by omega, hx, hx'⟩
    exact ⟨this.1, this.2, by omega, by omega⟩
  · rintro ⟨hx, hx', hy, hy'⟩
    have := hcolumns.mpr ⟨hx, hx'⟩
    exact ⟨(stripY + dy - max y stripY).toNat, List.mem_range.mpr (by omega), by omega, this.2.1, this.2.2⟩

theorem uiFrame_pixel (hpx : px < BSP_LCD_W) (hdy : dy < rows) (x y w h border : Int)
    (color : UInt16) (s : Strip) :
    uiFrame stripY rows x y w h border color s (dy * BSP_LCD_W + px) =
      if InBox x y w border px (stripY + dy) ∨ InBox x (y + h - border) w border px (stripY + dy) ∨
        InBox x y border h px (stripY + dy) ∨ InBox (x + w - border) y border h px (stripY + dy) then color
      else s (dy * BSP_LCD_W + px) := by
  unfold uiFrame
  rw [uiFill_pixel hpx hdy, uiFill_pixel hpx hdy, uiFill_pixel hpx hdy, uiFill_pixel hpx hdy]
  split_ifs <;> simp_all

/-! ## Text in a strip -/

/-- One pixel of a glyph. -/
theorem glyphPixel_pixel (hpx : px < BSP_LCD_W) {minX maxX : Int} (hmin : 0 ≤ minX)
    (hmax : maxX ≤ BSP_LCD_W)
    (font : UiFont) {x y : Int} (cp : UInt32) {py : Nat} (hpy : stripY ≤ y + py) (color : UInt16)
    (qx : Nat) (s : Strip) :
    (if x + qx < maxX ∧ glyphOn font cp qx py ∧ minX ≤ x + qx then s.set
      ((y + py - stripY) * BSP_LCD_W + x + qx).toNat color
        else s) (dy * BSP_LCD_W + px) =
      if (y + py = stripY + dy ∧ x + qx = px) ∧ (minX ≤ px ∧ px < maxX) ∧ glyphOn font cp qx py then color
      else s (dy * BSP_LCD_W + px) := by
  by_cases hset : x + qx < maxX ∧ glyphOn font cp qx py ∧ minX ≤ x + qx
  · obtain ⟨hright, hon, hleft⟩ := hset
    rw [if_pos ⟨hright, hon, hleft⟩]
    unfold Strip.set
    refine if_congr ?_ rfl rfl
    rw [and_iff_left hon]
    unfold BSP_LCD_W at *
    omega
  · rw [if_neg hset, if_neg]
    rintro ⟨⟨-, hx⟩, ⟨hleft, hright⟩, hon⟩
    exact hset ⟨by omega, hon, by omega⟩

/-- A pixel of a strip shows a glyph where the plane does, between the edges. -/
theorem uiGlyph_pixel (hpx : px < BSP_LCD_W) (hdy : dy < rows) {minX maxX : Int} (hmin : 0 ≤ minX)
    (hmax : maxX ≤ BSP_LCD_W)
    (font : UiFont) (x y : Int) (cp : UInt32) (color : UInt16) (s : Strip) :
    uiGlyph font stripY rows x y minX maxX cp color s (dy * BSP_LCD_W + px) =
      if (minX ≤ px ∧ px < maxX) ∧ GlyphInk font cp (px - x) (stripY + dy - y) then color
        else s (dy * BSP_LCD_W + px) := by
  unfold uiGlyph
  generalize hwidth : (if 127 < cp then 16 else 12) = width
  -- a row of the glyph reaches the pixel when it is on its line
  have hrow : ∀ py ∈ List.range 16, ∀ s : Strip,
      (if y + (py : Int) < stripY ∨ stripY + rows ≤ y + py then s
        else (List.range width).foldl (fun s (qx : Nat) =>
          if x + qx < maxX ∧ glyphOn font cp qx py ∧ minX ≤ x + qx then s.set
            ((y + py - stripY) * BSP_LCD_W + x + qx).toNat color
          else s) s) (dy * BSP_LCD_W + px) =
        if y + py = stripY + dy ∧ ∃ qx ∈ List.range width, x + (qx : Int) = px ∧
          (minX ≤ px ∧ px < maxX) ∧ glyphOn font cp qx py then color
        else s (dy * BSP_LCD_W + px) := by
    intro py _ s
    by_cases hout : y + (py : Int) < stripY ∨ stripY + rows ≤ y + py
    · rw [if_pos hout, if_neg fun h => by omega]
    · rw [if_neg hout, foldl_paint (fun qx : Nat => (y + (py : Int) = stripY + dy ∧ x + (qx : Int) = px) ∧
        (minX ≤ px ∧ px < maxX) ∧ glyphOn font cp qx py) (fun _ => color) (fun s :
          Strip => s (dy * BSP_LCD_W + px))
        (fun qx _ s => glyphPixel_pixel hpx hmin hmax font cp (by omega) color qx s), paint_const]
      refine if_congr ?_ rfl rfl
      constructor
      · rintro ⟨qx, hqx, ⟨hy, hx⟩, hrest⟩
        exact ⟨hy, qx, hqx, hx, hrest⟩
      · rintro ⟨hy, qx, hqx, hx, hrest⟩
        exact ⟨qx, hqx, ⟨hy, hx⟩, hrest⟩
  rw [foldl_paint (fun py : Nat => y + (py : Int) = stripY + dy ∧ ∃ qx ∈ List.range width,
    x + (qx : Int) = px ∧
    (minX ≤ px ∧ px < maxX) ∧ glyphOn font cp qx py) (fun _ => color) (fun s :
      Strip => s (dy * BSP_LCD_W + px)) hrow, paint_const]
  refine if_congr ?_ rfl rfl
  unfold GlyphInk InBox
  constructor
  · rintro ⟨py, hpy, hy, qx, hqx, hx, hedges, hon⟩
    rw [List.mem_range] at hpy hqx
    have hqx' : ((px : Int) - x).toNat = qx := by omega
    have hpy' : (stripY + dy - y).toNat = py := by omega
    rw [hqx', hpy']
    refine ⟨hedges, ⟨by omega, ?_, by omega, by omega⟩, hon⟩
    rw [← hwidth] at hqx
    split_ifs at hqx ⊢ <;> omega
  · rintro ⟨hedges, ⟨hx, hx', hy, hy'⟩, hon⟩
    refine ⟨(stripY + dy - y).toNat, List.mem_range.mpr (by omega), by omega,
      ((px : Int) - x).toNat, List.mem_range.mpr ?_, by omega,
      hedges, hon⟩
    rw [← hwidth]
    split_ifs at hx' ⊢ <;> omega

/-- A line has no ink left of its pen. -/
theorem lineInk_left {font : UiFont} {y px py : Int} :
    ∀ {cps : List UInt32} {x : Int}, LineInk font y px py x cps → x ≤ px
  | [], _, h => h.elim
  | _ :: _, x, h => by
    rcases h with h | h
    · have := h.1.1
      omega
    · have := lineInk_left h
      omega

/-- A pixel of a strip shows a line of code points where the plane does: what is not drawn any more lies
behind the right edge. -/
theorem uiCodepoints_pixel (hpx : px < BSP_LCD_W) (hdy : dy < rows) {minX maxX : Int}
    (hmin : 0 ≤ minX) (hmax : maxX ≤ BSP_LCD_W)
    (font : UiFont) (y : Int) (color : UInt16) (cps : List UInt32) : ∀ (x : Int) (s : Strip),
    uiCodepoints font stripY rows y minX maxX color x cps s (dy * BSP_LCD_W + px) =
      if (minX ≤ px ∧ px < maxX) ∧ LineInk font y px (stripY + dy) x cps then color
        else s (dy * BSP_LCD_W + px) := by
  induction cps with
  | nil =>
    intro x s
    rw [if_neg fun h => h.2]
    rfl
  | cons cp cps ih =>
    intro x s
    unfold uiCodepoints
    by_cases hedge : maxX ≤ x
    · rw [if_pos hedge, if_neg]
      rintro ⟨hedges, hink⟩
      have := lineInk_left hink
      omega
    · rw [if_neg hedge, ih, uiGlyph_pixel hpx hdy hmin hmax]
      unfold LineInk
      by_cases hrest : LineInk font y px (stripY + dy) (x + penAdvance cp) cps <;>
        by_cases hglyph : GlyphInk font cp (px - x) (stripY + dy - y) <;>
        by_cases hedges : minX ≤ (px : Int) ∧ (px : Int) < maxX <;> simp [hrest, hglyph, hedges]

/-! ## Calls in a strip -/

theorem codepoints_nil : codepoints [] = [] := by rw [codepoints]

/-- A pixel of a strip shows a call where the plane does. -/
theorem UiCall.draw_pixel (hpx : px < BSP_LCD_W) (hdy : dy < rows) (font : UiFont) (call : UiCall)
    (s : Strip) :
    call.draw font stripY rows s (dy * BSP_LCD_W + px) =
      if call.Inks font px (stripY + dy) then call.color else s (dy * BSP_LCD_W + px) := by
  cases call with
  | fill x y w h color => exact uiFill_pixel hpx hdy x y w h color s
  | frame x y w h border color => exact uiFrame_pixel hpx hdy x y w h border color s
  | text x y minX maxX hmin hmax label color =>
    cases label with
    | none =>
      rw [if_neg]
      · rfl
      · rintro ⟨-, hink⟩
        rw [Option.map_none, Option.getD_none, codepoints_nil] at hink
        exact hink
    | some t =>
      have hdraw : uiCodepoints font stripY rows y minX maxX color x (codepoints t.text) s
        (dy * BSP_LCD_W + px) = _ :=
        uiCodepoints_pixel hpx hdy hmin hmax font y color (codepoints t.text) x s
      rw [← uiCharacters_eq font stripY rows y minX maxX color t.text t.text.length x s
        (Nat.le_refl _)] at hdraw
      exact hdraw

variable (stripY rows) in
/-- A strip is a window of the plane. -/
theorem drawCalls_pixel (hpx : px < BSP_LCD_W) (hdy : dy < rows) (font : UiFont)
    (calls : List UiCall) (s : Strip) :
    drawCalls font stripY rows calls s (dy * BSP_LCD_W + px) =
      planeColor font px (stripY + dy) calls (s (dy * BSP_LCD_W + px)) :=
  foldl_paint (UiCall.Inks font px (stripY + dy)) UiCall.color (fun s : Strip => s (dy * BSP_LCD_W + px))
    (fun call _ s => call.draw_pixel hpx hdy font s) s

end

/-! ## Checked drawing -/

/-- `s_strip[i] = color`; none for a write outside of the `size` pixels of the strip. -/
def Strip.write (size i : Int) (color : UInt16) (s : Strip) : Option Strip :=
  if 0 ≤ i ∧ i < size then some (s.set i.toNat color) else none

def uiFillChecked (stripY rows x y w h : Int) (color : UInt16) (s : Strip) : Option Strip :=
  let w := if x < 0 then w + x else w
  let x := if x < 0 then 0 else x
  let w := if (BSP_LCD_W : Int) < x + w then BSP_LCD_W - x else w
  if w ≤ 0 then some s
  else
    let first := max y stripY
    let last := min (y + h) (stripY + rows)
    (List.range (last - first).toNat).foldlM (fun s (i : Nat) =>
      (List.range w.toNat).foldlM (fun s (px : Nat) =>
        s.write (rows * BSP_LCD_W) ((first + i - stripY) * BSP_LCD_W + x + px) color) s) s

def uiFrameChecked (stripY rows x y w h border : Int) (color : UInt16) (s : Strip) : Option Strip := do
  let s ← uiFillChecked stripY rows x y w border color s
  let s ← uiFillChecked stripY rows x (y + h - border) w border color s
  let s ← uiFillChecked stripY rows x y border h color s
  uiFillChecked stripY rows (x + w - border) y border h color s

def uiGlyphChecked (font : UiFont) (stripY rows x y minX maxX : Int) (cp : UInt32) (color : UInt16) (s : Strip) :
    Option Strip :=
  (List.range 16).foldlM (fun s (py : Nat) =>
    let yy := y + py
    if yy < stripY ∨ stripY + rows ≤ yy then some s
    else
      (List.range (if 127 < cp then 16 else 12)).foldlM (fun s (px : Nat) =>
        if x + px < maxX ∧ glyphOn font cp px py ∧ minX ≤ x + px then
          s.write (rows * BSP_LCD_W) ((yy - stripY) * BSP_LCD_W + x + px) color
        else some s) s) s

/-- The loop of `ui_text_region` over memory; none also when `fuel` rounds do not suffice. -/
def uiTextRegionAt (font : UiFont) (stripY rows y minX maxX : Int) (bytes : List UInt8) (color : UInt16) :
    (fuel : Nat) → (x : Int) → (cursor : Nat) → Strip → Option Strip
  | 0, _, _, _ => none
  | fuel + 1, x, cursor, s => do
    let b ← bytes[cursor]?
    if b = 0 ∨ maxX ≤ x then some s
    else
      let (cp, next) ← uiNextCodepointAt bytes cursor
      let s ← uiGlyphChecked font stripY rows x y minX maxX cp color s
      uiTextRegionAt font stripY rows y minX maxX bytes color fuel (x + (if 127 < cp then 16 else 12) + 1) next s

/-- A text is drawn in as many rounds as it has bytes, its terminating zero included. -/
def UiCall.drawChecked (font : UiFont) (stripY rows : Int) : UiCall → Strip → Option Strip
  | .fill x y w h color => uiFillChecked stripY rows x y w h color
  | .frame x y w h border color => uiFrameChecked stripY rows x y w h border color
  | .text x y minX maxX _ _ label color => fun s =>
    match label with
    | none => some s
    | some t => uiTextRegionAt font stripY rows y minX maxX t.bytes color (t.text.length + 1) x 0 s

section
variable {stripY rows : Int}

theorem Strip.write_inside {size i : Int} (h : 0 ≤ i ∧ i < size) (color : UInt16) (s : Strip) :
    s.write size i color = some (s.set i.toNat color) := if_pos h

theorem foldl_set_fill (start n : Nat) (color : UInt16) (s : Strip) :
    (List.range n).foldl (fun s x => s.set (start + x) color) s = s.fill start n color :=
  funext fun k => foldl_set start (fun _ => color) s k n

/-- Every write of a rectangle is in the strip. -/
theorem uiFillChecked_eq (x y w h : Int) (color : UInt16) (s : Strip) :
    uiFillChecked stripY rows x y w h color s = some (uiFill stripY rows x y w h color s) := by
  unfold uiFillChecked uiFill
  dsimp only
  generalize hleft : (if x < 0 then 0 else x) = left
  generalize hwidth : ite ((BSP_LCD_W : Int) < left + ite (x < 0) (w + x) w) _ _ = width
  obtain ⟨hinside, -⟩ := clip_columns hleft hwidth
  by_cases hempty : width ≤ 0
  · rw [if_pos hempty, if_pos hempty]
  rw [if_neg hempty, if_neg hempty]
  refine Checked.foldlM (fun s i hi => ?_) s
  rw [List.mem_range] at hi
  rw [← foldl_set_fill]
  refine Checked.foldlM (fun s qx hqx => ?_) s
  rw [List.mem_range] at hqx
  rw [Strip.write_inside]
  · congr 2
    unfold BSP_LCD_W at *
    omega
  · unfold BSP_LCD_W at *
    omega

theorem uiFrameChecked_eq (x y w h border : Int) (color : UInt16) (s : Strip) :
    uiFrameChecked stripY rows x y w h border color s =
      some (uiFrame stripY rows x y w h border color s) := by
  unfold uiFrameChecked uiFrame
  simp only [uiFillChecked_eq, Option.bind_eq_bind, Option.bind_some]

/-- Every write of a glyph between the edges is in the strip. -/
theorem uiGlyphChecked_eq {minX maxX : Int} (hmin : 0 ≤ minX) (hmax : maxX ≤ BSP_LCD_W)
    (font : UiFont) (x y : Int) (cp : UInt32)
    (color : UInt16) (s : Strip) : uiGlyphChecked font stripY rows x y minX maxX cp color s =
      some (uiGlyph font stripY rows x y minX maxX cp color s) := by
  unfold uiGlyphChecked uiGlyph
  refine Checked.foldlM (fun s py _ => ?_) s
  dsimp only
  by_cases hout : y + (py : Int) < stripY ∨ stripY + rows ≤ y + py
  · rw [if_pos hout, if_pos hout]
  rw [if_neg hout, if_neg hout]
  refine Checked.foldlM (fun s qx _ => ?_) s
  by_cases hset : x + qx < maxX ∧ glyphOn font cp qx py ∧ minX ≤ x + qx
  · rw [if_pos hset, if_pos hset, Strip.write_inside]
    obtain ⟨hright, -, hleft⟩ := hset
    unfold BSP_LCD_W at *
    omega
  · rw [if_neg hset, if_neg hset]

/-- A text is drawn to its end or to the right edge without a read or a write that is out of place. -/
theorem uiTextRegionAt_eq {minX maxX : Int} (hmin : 0 ≤ minX) (hmax : maxX ≤ BSP_LCD_W)
    (font : UiFont) (y : Int) (t : CText)
    (color : UInt16) : ∀ (fuel : Nat) (x : Int) {cursor : Nat} (s : Strip), cursor ≤ t.text.length →
    t.text.length - cursor < fuel →
    uiTextRegionAt font stripY rows y minX maxX t.bytes color fuel x cursor s =
      some (uiCodepoints font stripY rows y minX maxX color x (codepoints (t.text.drop cursor)) s)
  | 0, _, _, _, _, hfuel => absurd hfuel (Nat.not_lt_zero _)
  | fuel + 1, x, cursor, s, hcursor, hfuel => by
    unfold uiTextRegionAt
    rw [t.read hcursor]
    rcases Nat.lt_or_eq_of_le hcursor with hlt | rfl
    · rw [codepoints_drop t hlt, uiCodepoints]
      simp only [Option.bind_eq_bind, Option.bind_some, t.read_text hlt, false_or]
      by_cases hedge : maxX ≤ x
      · rw [if_pos hedge, if_pos hedge]
      obtain ⟨next, hnext, hlater, hwithin, hrest⟩ := uiNextCodepointAt_eq t hlt
      have ih := fun x s => uiTextRegionAt_eq hmin hmax font y t color fuel x s hwithin (by omega)
      have hpen : x + (if 127 < (uiNextCodepoint (t.text.drop cursor)).1 then 16 else 12) + 1 =
          x + (penAdvance (uiNextCodepoint (t.text.drop cursor)).1 : Int) := by
        unfold penAdvance
        split <;> simp [Int.add_assoc]
      rw [if_neg hedge, if_neg hedge, hnext, hrest, ← hpen]
      simp only [Option.bind_some, uiGlyphChecked_eq hmin hmax, ih]
    · simp [codepoints_nil, uiCodepoints]

/-- No call writes outside of its strip or reads outside of its text. -/
theorem UiCall.drawChecked_eq (font : UiFont) (call : UiCall) (s : Strip) :
    call.drawChecked font stripY rows s = some (call.draw font stripY rows s) := by
  cases call with
  | fill x y w h color => exact uiFillChecked_eq x y w h color s
  | frame x y w h border color => exact uiFrameChecked_eq x y w h border color s
  | text x y minX maxX hmin hmax label color =>
    cases label with
    | none => rfl
    | some t =>
      have hregion : uiTextRegionAt font stripY rows y minX maxX t.bytes color (t.text.length + 1) x
        0 s = _ :=
        uiTextRegionAt_eq hmin hmax font y t color (t.text.length + 1) x s (Nat.zero_le _) (by omega)
      rw [List.drop_zero, ← uiCharacters_eq font stripY rows y minX maxX color t.text t.text.length
        x s (Nat.le_refl _)] at hregion
      exact hregion

end

/-! ## Strips and the canvas -/

/-- The pixels of a strip of some rows, row by row. -/
def Strip.pixels (rows : Nat) (s : Strip) : List UInt16 := (List.range (rows * BSP_LCD_W)).map s

/-- The part of a canvas that begins with a row. -/
def Strip.fromRow (row : Nat) (canvas : Strip) : Strip := fun i => canvas (row * BSP_LCD_W + i)

/-- A strip drawn over a part of a canvas is that part of the drawn canvas. -/
theorem drawCalls_window (font : UiFont) (calls : List UiCall) (canvas : Strip) {row rows : Nat}
    (hrows : row + rows ≤ BSP_LCD_H) {i : Nat} (hi : i < rows * BSP_LCD_W) :
    drawCalls font row rows calls (canvas.fromRow row) i = drawCalls font 0 BSP_LCD_H calls canvas
      (row * BSP_LCD_W + i) := by
  have hpx : i % BSP_LCD_W < BSP_LCD_W := Nat.mod_lt _ (by decide)
  have hdy : i / BSP_LCD_W < rows := Nat.div_lt_of_lt_mul (by rwa [Nat.mul_comm])
  have hsplit : i / BSP_LCD_W * BSP_LCD_W + i % BSP_LCD_W = i := Nat.div_add_mod' i BSP_LCD_W
  have hstrip := drawCalls_pixel row rows hpx (Int.ofNat_lt.mpr hdy) font calls (canvas.fromRow row)
  have hwhole :=
    drawCalls_pixel 0 BSP_LCD_H hpx (show ((row + i / BSP_LCD_W : Nat) : Int) < BSP_LCD_H by omega)
      font calls canvas
  have hindex : (row + i / BSP_LCD_W) * BSP_LCD_W + i % BSP_LCD_W = row * BSP_LCD_W + i := by
    rw [Nat.add_mul, Nat.add_assoc, hsplit]
  rw [hsplit] at hstrip
  rw [hindex, Nat.cast_add, Int.zero_add] at hwhole
  rw [hstrip, hwhole]
  rfl

theorem flatMap_range {α : Type} (f : Nat → α) (m : Nat) : ∀ n,
    (List.range n).flatMap (fun k => (List.range m).map fun i => f (k * m + i)) = (List.range (n * m)).map f
  | 0 => by simp
  | n + 1 => by
    rw [List.range_succ, List.flatMap_append, flatMap_range f m n, Nat.succ_mul, List.range_add,
      List.map_append, List.map_map]
    simp [Function.comp_def]

/-- The strips of the panel, one below the other, are the canvas. -/
theorem drawCalls_concat (font : UiFont) (calls : List UiCall) (canvas : Strip) :
    (strips 0 BSP_LCD_H).flatMap (fun s => (drawCalls font s.1 s.2 calls (canvas.fromRow s.1)).pixels s.2) =
      (drawCalls font 0 BSP_LCD_H calls canvas).pixels BSP_LCD_H := by
  have hstrips : strips 0 BSP_LCD_H = (List.range 16).map fun i => (i * 20, 20) := by decide
  rw [hstrips, List.flatMap_map]
  have hwindow : ∀ i ∈ List.range 16,
      (drawCalls font ((i * 20 : Nat) : Int) (20 : Nat) calls (canvas.fromRow (i * 20))).pixels 20 =
      (List.range (20 * BSP_LCD_W)).map fun k => drawCalls font 0 BSP_LCD_H calls canvas
        (i * (20 * BSP_LCD_W) + k) := by
    intro i hi
    rw [List.mem_range] at hi
    refine List.map_congr_left fun k hk => ?_
    rw [drawCalls_window font calls canvas (by unfold BSP_LCD_H; omega) (List.mem_range.mp hk),
      Nat.mul_assoc]
  rw [List.flatMap_congr hwindow]
  exact flatMap_range (drawCalls font 0 BSP_LCD_H calls canvas) (20 * BSP_LCD_W) 16

/-- On the panel, where the sequence has ink, a screen drawn by strips shows the canvas, whatever the strip
held before. -/
theorem drawScreen_canvas {font : UiFont} {calls : List UiCall} {first : Nat} {d d' : Display}
    (hok : drawScreen first (fun row rows => drawCalls font row rows calls) d = (none, d'))
    {px py : Nat} (hpx : px < BSP_LCD_W)
    (hfirst : first ≤ py) (hpy : py < BSP_LCD_H) (hink : ∃ call ∈ calls, call.Inks font px py)
    (canvas : Strip) :
    d'.panel px py = drawCalls font 0 BSP_LCD_H calls canvas (py * BSP_LCD_W + px) := by
  obtain ⟨s, hs, habove, hbelow⟩ := strips_cover hfirst hpy
  have hwhole := drawCalls_pixel 0 BSP_LCD_H hpx (Int.ofNat_lt.mpr hpy) font calls canvas
  rw [Int.zero_add] at hwhole
  rw [hwhole]
  refine eachStrip_inside (P := (· = planeColor font px py calls _)) (s := s) ?_ ?_ (strips first BSP_LCD_H)
    (strips_pairwise first BSP_LCD_H) hs (fun buf hskip => absurd hskip (Option.some_ne_none _)) hok
  · exact ⟨Nat.zero_le _, by omega, by omega, by omega⟩
  · intro buf strip hpaint
    obtain rfl := Option.some.inj hpaint
    have hrow : ((s.1 : Nat) : Int) + ((py - s.1 : Nat) : Int) = py := by omega
    have hstrip := drawCalls_pixel s.1 s.2 hpx (show ((py - s.1 : Nat) : Int) < s.2 by omega) font calls buf
    rw [hrow] at hstrip
    rw [Nat.zero_add, Nat.sub_zero]
    refine hstrip.trans ?_
    exact paint_covered _ _ hink _ _

/-- Drawing by strips, for every sequence of calls. The strips of the panel, each drawn over its part of
the canvas, are together the canvas drawn at once, which shows the plane; so does the panel after a
screen that was drawn without a failure. No call writes outside of its strip, whatever strip it is. No
code point reaches past the zero that ends its text, so that the width and the drawing of a text end,
over the same code points. -/
theorem uiDrawing_strips (font : UiFont) (calls : List UiCall) :
    (∀ canvas : Strip, (strips 0 BSP_LCD_H).flatMap
      (fun s => (drawCalls font s.1 s.2 calls (canvas.fromRow s.1)).pixels s.2) =
        (drawCalls font 0 BSP_LCD_H calls canvas).pixels BSP_LCD_H) ∧
      (∀ (canvas : Strip) (px py : Nat), px < BSP_LCD_W → py < BSP_LCD_H →
        drawCalls font 0 BSP_LCD_H calls canvas (py * BSP_LCD_W + px)
          = planeColor font px py calls (canvas (py * BSP_LCD_W + px))) ∧
      (∀ (first : Nat) (d d' : Display), drawScreen first (fun row rows => drawCalls font row rows calls) d
        = (none, d') →
        ∀ px py : Nat, px < BSP_LCD_W → first ≤ py → py < BSP_LCD_H → (∃ call ∈ calls, call.Inks font px py) →
          ∀ canvas : Strip, d'.panel px py = drawCalls font 0 BSP_LCD_H calls canvas (py * BSP_LCD_W + px)) ∧
      (∀ (stripY rows : Int) (s : Strip), calls.foldlM (fun s call => call.drawChecked font stripY rows s) s =
        some (drawCalls font stripY rows calls s)) ∧
      (∀ t : CText, t.bytes[t.text.length]? = some 0 ∧ ∀ cursor < t.text.length, ∃ cp next,
        uiNextCodepointAt t.bytes cursor = some (cp, next) ∧ cursor < next ∧ next ≤ t.text.length) ∧
      (∀ t : CText, uiTextWidthAt t.bytes (t.text.length + 1) 0 = some (uiTextWidth t.bytes) ∧
        uiTextWidth t.bytes = ((codepoints t.text).map penAdvance).sum) ∧
      (∀ (stripY rows x y minX maxX : Int), 0 ≤ minX → maxX ≤ BSP_LCD_W → ∀ (t : CText) (color : UInt16) (s : Strip),
        uiTextRegionAt font stripY rows y minX maxX t.bytes color (t.text.length + 1) x 0 s =
          some (uiCodepoints font stripY rows y minX maxX color x (codepoints t.text) s)) := by
  refine ⟨fun canvas => drawCalls_concat font calls canvas, ?_, ?_, ?_, ?_, ?_, ?_⟩
  · intro canvas px py hpx hpy
    have hpixel := drawCalls_pixel 0 BSP_LCD_H hpx (Int.ofNat_lt.mpr hpy) font calls canvas
    rwa [Int.zero_add] at hpixel
  · intro first d d' hok px py hpx hfirst hpy hink canvas
    exact drawScreen_canvas hok hpx hfirst hpy hink canvas
  · intro stripY rows s
    exact Checked.foldlM (fun s call _ => call.drawChecked_eq font s) s
  · intro t
    refine ⟨by rw [t.read (Nat.le_refl _)]; simp, fun cursor hcursor => ?_⟩
    obtain ⟨next, hnext, hlater, hwithin, -⟩ := uiNextCodepointAt_eq t hcursor
    exact ⟨_, next, hnext, hlater, hwithin⟩
  · intro t
    have hwidth : uiTextWidth t.bytes = ((codepoints t.text).map penAdvance).sum :=
      uiWidths_eq t.text _ (Nat.le_refl _)
    refine ⟨?_, hwidth⟩
    rw [uiTextWidthAt_eq t _ (Nat.zero_le _) (by omega), List.drop_zero, hwidth]
  · intro stripY rows x y minX maxX hmin hmax t color s
    rw [uiTextRegionAt_eq hmin hmax font y t color _ x s (Nat.zero_le _) (by omega), List.drop_zero]

end FoloGameboy

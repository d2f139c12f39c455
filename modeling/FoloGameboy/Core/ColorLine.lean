/-
A CGB line: every pixel of the colour framebuffer is the palette entry of the formula: the attributes of a
tile choose its bank, flip it and give it a palette and priority, and the sprites go by their place in OAM.
-/
import FoloGameboy.Core.LineBounds
import FoloGameboy.Core.Sprites
import FoloGameboy.Lib.Paint

namespace FoloGameboy

variable {σ : Type}

/-! ## The formula -/

/-- A place of the tile maps: the map, and a column and a row in it. -/
structure MapPlace where
  base : Nat
  column : Nat
  row : Nat

/-- The place of a map that a pixel shows: the window's from its first column on, else the scrolled
background's, which LCDC bit 0 does not switch off. -/
def mapPlace (b : Bus σ) (line x : Nat) : MapPlace :=
  if windowVisible b line ∧ b.lcd.wx.toNat ≤ x + 7 then
    ⟨if hasBits b.lcd.lcdc 0x40 then 0x1C00 else 0x1800, x + 7 - b.lcd.wx.toNat, b.lcd.windowLine⟩
  else
    ⟨if hasBits b.lcd.lcdc 0x08 then 0x1C00 else 0x1800, (x + b.lcd.scx.toNat) % 256, (line + b.lcd.scy.toNat) % 256⟩

/-- Where the tile number of a place is; its attributes are at the same place of the second bank. -/
def MapPlace.tile (m : MapPlace) : Nat := m.base + m.row / 8 * 32 + m.column / 8

def MapPlace.attr (b : Bus σ) (m : MapPlace) : UInt8 := Buffer.byteOf b.mem.vram1 m.tile

/-- The colour index at a place, from the tile in the bank of its attributes, flipped as they say. -/
def MapPlace.index (b : Bus σ) (m : MapPlace) : UInt8 :=
  let attr := m.attr b
  let row := tileAddr b.lcd.lcdc (b.mem.vram.get m.tile) + (if hasBits attr 0x40 then 7 - m.row % 8 else m.row % 8) * 2
  let bank (i : Nat) : UInt8 := if hasBits attr 0x08 then Buffer.byteOf b.mem.vram1 i else b.mem.vram.get i
  colorIndex (bank row) (bank (row + 1)) (if hasBits attr 0x20 then m.column % 8 else 7 - m.column % 8)

/-- The palette entry of a place: one of the eight background palettes. -/
def MapPlace.entry (b : Bus σ) (m : MapPlace) : UInt8 := (m.attr b &&& 7) * 4 + m.index b

/-- The sprite's pixels are in the bank its flags name. -/
def spriteBank (b : Bus σ) (i : Nat) : Bus σ :=
  if hasBits (spriteFlags b i) 0x08 then { b with mem := { b.mem with vram := b.mem.vram1.getD ⟨0, fun _ => 0⟩ } }
  else b

def colorSpriteIndex (b : Bus σ) (line i x : Nat) : UInt8 := spriteIndex (spriteBank b i) line i x

/-- The palette entry of a sprite: one of the eight sprite palettes. -/
def colorSpriteEntry (b : Bus σ) (line i x : Nat) : UInt8 :=
  32 + (spriteFlags b i &&& 7) * 4 + colorSpriteIndex b line i x

/-- The background is over the sprite: where it is not of index 0, the sprite or the tile says so, and LCDC bit 0
does not overrule them. -/
def Covered (b : Bus σ) (line i x : Nat) : Prop :=
  hasBits b.lcd.lcdc 0x01 = true ∧ (mapPlace b line x).index b ≠ 0 ∧
    (Behind b i ∨ hasBits ((mapPlace b line x).attr b) 0x80 = true)

instance (b : Bus σ) (line i x : Nat) : Decidable (Covered b line i x) := by unfold Covered; infer_instance

def ColorShown (b : Bus σ) (line x i : Nat) : Prop := colorSpriteIndex b line i x ≠ 0 ∧ ¬ Covered b line i x

instance (b : Bus σ) (line x i : Nat) : Decidable (ColorShown b line x i) := by unfold ColorShown; infer_instance

/-- The palette entry of a pixel: of the line's first ten sprites, the first in OAM that shows there, or else the
background or window. -/
def colorEntry (b : Bus σ) (line x : Nat) : UInt8 :=
  let sprites := if hasBits b.lcd.lcdc 0x02 then visibleSprites b line else []
  -- a covered sprite lets a later one through
  ((sprites.find? fun i => decide (ColorShown b line x i)).map fun i => colorSpriteEntry b line i x).getD
    ((mapPlace b line x).entry b)

/-! ## Spans of tiles -/

/-- What a line buffer holds of a column on CGB: the palette entry, and what sprites see. -/
def LineBuf.colorPixel (lb : LineBuf) (x : Nat) : UInt8 × UInt8 := (lb.colorRow x, lb.bgPriority x)

/-- A pixel of a row of a tile. -/
def TileRow.pixel (t : TileRow) (column : Nat) : UInt8 × UInt8 :=
  let idx := colorIndex t.lo t.hi (if hasBits t.attr 0x20 then column % 8 else 7 - column % 8)
  ((t.attr &&& 7) * 4 + idx, idx ||| if hasBits t.attr 0x80 then 4 else 0)

def MapPlace.pixel (b : Bus σ) (m : MapPlace) : UInt8 × UInt8 :=
  (m.entry b, m.index b ||| if hasBits (m.attr b) 0x80 then 4 else 0)

section
variable {b : Bus σ} (hcgb : b.cgb.isCgb = true)
include hcgb

theorem plotBg_color (lb : LineBuf) (t : TileRow) (x column p : Nat) :
    (lb.plotBg b t x (if hasBits t.attr 0x20 then column % 8 else 7 - column % 8)).colorPixel p =
      if p = x then t.pixel column else lb.colorPixel p := by
  unfold LineBuf.plotBg LineBuf.colorPixel TileRow.pixel
  simp only [hcgb, if_true, Function.update_apply]
  split <;> rfl

/-- A run of `n` pixels of one tile. -/
theorem drawTile_color (t : TileRow) (x sx p : Nat) (lb : LineBuf) : ∀ n, (drawTile b t x sx n lb).colorPixel p =
    if x ≤ p ∧ p < x + n then t.pixel (sx + (p - x)) else lb.colorPixel p
  | 0 => by
    rw [if_neg (by omega)]
    rfl
  | n + 1 => by
    have ih := drawTile_color t x sx p lb n
    unfold drawTile
    simp only [hcgb, if_true]
    rw [plotBg_color hcgb, ih]
    by_cases hp : p = x + n
    · rw [if_pos hp, if_pos (by omega), hp, Nat.add_sub_cancel_left]
    · rw [if_neg hp]
      by_cases hin : x ≤ p ∧ p < x + n
      · rw [if_pos hin, if_pos (by omega)]
      · rw [if_neg hin, if_neg (by omega)]

theorem fetchTile_color (m : MapPlace) : (fetchTile b m.tile m.row).pixel m.column = m.pixel b := by
  unfold fetchTile TileRow.pixel MapPlace.pixel MapPlace.entry MapPlace.index MapPlace.attr
  simp only [hcgb, if_true]

/-- A span of tiles: each of its columns gets the pixel of the place it stands for. -/
theorem drawSpan_color {mapBase y limit start : Nat} {column : Nat → Nat}
    (hcol : ∀ x k, start ≤ x → column x % 8 + k < 8 → column (x + k) = column x + k) (p : Nat) :
    ∀ (fuel x : Nat) (lb : LineBuf), start ≤ x → limit ≤ x + fuel →
      (drawSpan b (mapBase + y / 8 * 32) y limit column fuel x lb).colorPixel p =
        if x ≤ p ∧ p < limit then (⟨mapBase, column p, y⟩ : MapPlace).pixel b else lb.colorPixel p
  | 0, x, lb, _, hfuel => by
    rw [if_neg (by omega)]
    rfl
  | fuel + 1, x, lb, hstart, hfuel => by
    have hlt : column x % 8 < 8 := Nat.mod_lt _ (by decide)
    unfold drawSpan
    by_cases hx : x < limit
    · rw [if_pos hx]
      dsimp only
      have hstop : x < min (x + 8 - column x % 8) limit := Nat.lt_min.2 ⟨by omega, hx⟩
      have hle : min (x + 8 - column x % 8) limit ≤ limit := Nat.min_le_right _ _
      have htile : min (x + 8 - column x % 8) limit ≤ x + 8 - column x % 8 := Nat.min_le_left _ _
      generalize min (x + 8 - column x % 8) limit = stop at hstop hle htile ⊢
      rw [drawSpan_color hcol p fuel stop _ (by omega) (by omega), drawTile_color hcgb]
      by_cases hin : x ≤ p ∧ p < limit
      · rw [if_pos hin]
        by_cases hafter : stop ≤ p
        · rw [if_pos ⟨hafter, hin.2⟩]
        · -- inside the first tile
          have hcolumn := hcol x (p - x) hstart (by omega)
          rw [Nat.add_sub_cancel' hin.1] at hcolumn
          have hdiv : column x / 8 = column p / 8 := by omega
          rw [if_neg (by omega), if_pos (by omega), ← hcolumn, hdiv]
          exact fetchTile_color hcgb ⟨mapBase, column p, y⟩
      · rw [if_neg hin, if_neg (by omega), if_neg (by omega)]
    · rw [if_neg hx, if_neg (by omega)]

/-! ## Background and window -/

theorem drawBackground_color (line bgEnd p : Nat) (hend : bgEnd ≤ GB_W) (lb : LineBuf) :
    (drawBackground b line bgEnd lb).colorPixel p =
      if p < bgEnd then
        (⟨if hasBits b.lcd.lcdc 0x08 then 0x1C00 else 0x1800, (p + b.lcd.scx.toNat) % 256,
          (line + b.lcd.scy.toNat) % 256⟩ : MapPlace).pixel b
      else lb.colorPixel p := by
  have hcol : ∀ x k, 0 ≤ x → (x + b.lcd.scx.toNat) % 256 % 8 + k < 8 →
      (x + k + b.lcd.scx.toNat) % 256 = (x + b.lcd.scx.toNat) % 256 + k := by
    intro x k _ hk
    omega
  unfold drawBackground
  -- on CGB whatever LCDC bit 0 is
  rw [if_pos (.inr hcgb)]
  dsimp only
  rw [drawSpan_color hcgb hcol p GB_W 0 lb (Nat.le_refl 0) (by omega)]
  simp only [Nat.zero_le, true_and]

theorem drawWindow_color (p : Nat) (lb : LineBuf) :
    (drawWindow b lb).colorPixel p =
      if b.lcd.wx.toNat ≤ p + 7 ∧ p < GB_W then
        (⟨if hasBits b.lcd.lcdc 0x40 then 0x1C00 else 0x1800, p + 7 - b.lcd.wx.toNat, b.lcd.windowLine⟩ :
          MapPlace).pixel b
      else lb.colorPixel p := by
  have hcol : ∀ x k, b.lcd.wx.toNat - 7 ≤ x → (x + 7 - b.lcd.wx.toNat) % 8 + k < 8 →
      x + k + 7 - b.lcd.wx.toNat = x + 7 - b.lcd.wx.toNat + k := by
    intro x k hx _
    omega
  unfold drawWindow
  dsimp only
  rw [drawSpan_color hcgb hcol p GB_W _ lb (Nat.le_refl _) (by omega)]
  have hiff : b.lcd.wx.toNat - 7 ≤ p ↔ b.lcd.wx.toNat ≤ p + 7 := by omega
  simp only [hiff]

/-- The line before the sprites. -/
theorem bgLine_color (line : Nat) {p : Nat} (hp : p < GB_W) :
    (bgLine b line).colorPixel p = (mapPlace b line p).pixel b := by
  unfold bgLine mapPlace
  dsimp only
  cases hwin : windowVisible b line with
  | true =>
    have hwx : b.lcd.wx.toNat ≤ 166 := by
      unfold windowVisible at hwin
      simp only [Bool.and_eq_true, decide_eq_true_eq] at hwin
      exact UInt8.le_iff_toNat_le.1 hwin.2
    simp only [if_true, true_and]
    rw [drawWindow_color hcgb, drawBackground_color hcgb _ _ _ (by unfold GB_W; omega)]
    by_cases hin : b.lcd.wx.toNat ≤ p + 7
    · rw [if_pos ⟨hin, hp⟩, if_pos hin]
    · rw [if_neg fun h => hin h.1, if_pos (by omega), if_neg hin]
  | false =>
    simp only [Bool.false_eq_true, if_false, false_and]
    rw [drawBackground_color hcgb _ _ _ (Nat.le_refl _), if_pos hp]

end

/-! ## One sprite at one pixel -/

section
variable (b : Bus σ) (i : Nat)

@[simp] theorem spriteBank_oam : (spriteBank b i).mem.oam = b.mem.oam := by
  unfold spriteBank
  split <;> rfl

@[simp] theorem spriteBank_lcd : (spriteBank b i).lcd = b.lcd := by
  unfold spriteBank
  split <;> rfl

@[simp] theorem spriteBank_x : spriteX (spriteBank b i) i = spriteX b i := by
  unfold spriteX
  rw [spriteBank_oam]

@[simp] theorem spriteBank_flags : spriteFlags (spriteBank b i) i = spriteFlags b i := by
  unfold spriteFlags
  rw [spriteBank_oam]

end

theorem spriteBank_get (b : Bus σ) (i a : Nat) : (spriteBank b i).mem.vram.get a =
    if hasBits (spriteFlags b i) 0x08 then Buffer.byteOf b.mem.vram1 a else b.mem.vram.get a := by
  unfold spriteBank
  split
  · cases b.mem.vram1 with
    | none => rfl
    | some bank1 => rfl
  · rfl

theorem MapPlace.index_lt (b : Bus σ) (m : MapPlace) : (m.index b).toNat < 4 := colorIndex_lt _ _ _

theorem colorSpriteIndex_lt (b : Bus σ) (line i x : Nat) : (colorSpriteIndex b line i x).toNat < 4 := by
  unfold colorSpriteIndex spriteIndex
  split
  · exact colorIndex_lt _ _ _
  · decide

/-- What sprites see of the background holds its index and its priority. -/
theorem priority_bits {idx : UInt8} (h : idx.toNat < 4) (above : Bool) :
    hasBits (idx ||| if above = true then 4 else 0) 3 = decide (idx ≠ 0) ∧
      hasBits (idx ||| if above = true then 4 else 0) 4 = above := by
  have hall : ∀ n < 4, ∀ above : Bool,
      hasBits (UInt8.ofNat n ||| if above = true then 4 else 0) 3 = decide (UInt8.ofNat n ≠ 0) ∧
      hasBits (UInt8.ofNat n ||| if above = true then 4 else 0) 4 = above := by decide
  have hidx := hall idx.toNat h above
  rwa [UInt8.ofNat_toNat] at hidx

/-- A line buffer shows the sprites what the background or window is at a pixel. -/
def LineBuf.Shows (b : Bus σ) (line x : Nat) (lb : LineBuf) : Prop := lb.bgPriority x = ((mapPlace b line x).pixel b).2

section
variable {b : Bus σ} (hcgb : b.cgb.isCgb = true)
include hcgb

theorem fetchSprite_color {line i : Nat} (h : Covers b line i) :
    fetchSprite b i line = ((spriteBank b i).mem.vram.get (spriteAddr (spriteBank b i) line i),
      (spriteBank b i).mem.vram.get (spriteAddr (spriteBank b i) line i + 1)) := by
  -- with its bank in place of the first one, the sprite is one of a DMG
  have hdmg : Covers { spriteBank b i with cgb := { b.cgb with isCgb := false } } line i := by
    unfold Covers at h ⊢
    rwa [← spriteBank_oam b i, ← spriteBank_lcd b i] at h
  refine Eq.trans ?_ (@fetchSprite_eq σ { spriteBank b i with cgb := { b.cgb with isCgb := false } } rfl line i hdmg)
  unfold fetchSprite
  simp only [hcgb, true_and, Bool.false_eq_true, false_and, if_false, spriteBank_oam, spriteBank_lcd, spriteBank_get]
  rfl

theorem spriteHidden_color {line i x : Nat} {lb : LineBuf} (hprio : lb.Shows b line x) :
    spriteHidden b (hasBits (spriteFlags b i) 0x80) (lb.bgPriority x) = true ↔ Covered b line i x := by
  have hbits := priority_bits ((mapPlace b line x).index_lt b) (hasBits ((mapPlace b line x).attr b) 0x80)
  unfold spriteHidden Covered Behind
  unfold LineBuf.Shows at hprio
  rw [hprio, if_pos hcgb]
  unfold MapPlace.pixel
  dsimp only
  rw [hbits.1, hbits.2]
  simp only [Bool.and_eq_true, Bool.or_eq_true, decide_eq_true_eq, and_assoc]

/-- One pixel of a sprite. -/
theorem plotSprite_color {line i : Nat} (h : Covers b line i) {px x : Nat} (hpx : px < 8) (hx : x < GB_W)
    {lb : LineBuf} (hprio : lb.Shows b line x) :
    (plotSprite b i (fetchSprite b i line) px lb).colorRow x =
        (if x + 8 = (spriteX b i).toNat + px ∧ ColorShown b line x i then colorSpriteEntry b line i x
          else lb.colorRow x) ∧
      (plotSprite b i (fetchSprite b i line) px lb).Shows b line x := by
  have hX : (b.mem.oam.get (i * 4 + 1)).toNat = (spriteX b i).toNat := rfl
  have hF : b.mem.oam.get (i * 4 + 3) = spriteFlags b i := rfl
  unfold plotSprite
  rw [fetchSprite_color hcgb h, hF]
  dsimp only
  rw [hX]
  generalize hscreen : ((spriteX b i).toNat : Int) - 8 + px = screenX
  by_cases hout : screenX < 0 ∨ (GB_W : Int) ≤ screenX
  · -- off the screen, at either side
    rw [if_pos hout]
    exact ⟨(if_neg fun hs => by omega).symm, hprio⟩
  rw [if_neg hout]
  by_cases hcol : x + 8 = (spriteX b i).toNat + px
  · -- this is the sprite's pixel at the column
    have hat : screenX.toNat = x := by omega
    rw [← spriteBank_x] at hcol
    rw [hat, ← spriteBank_flags, ← spriteIndex_at hcol hpx, spriteBank_flags]
    rw [spriteBank_x] at hcol
    by_cases hskip : spriteIndex (spriteBank b i) line i x = 0 ∨
      spriteHidden b (hasBits (spriteFlags b i) 0x80) (lb.bgPriority x) = true
    · rw [if_pos hskip]
      refine ⟨(if_neg ?_).symm, hprio⟩
      rintro ⟨-, hne, hvis⟩
      rcases hskip with hskip | hskip
      · exact hne hskip
      · exact hvis ((spriteHidden_color hcgb hprio).1 hskip)
    · rw [if_neg hskip, if_pos hcgb]
      rw [not_or] at hskip
      have hshown : ColorShown b line x i :=
        ⟨hskip.1, fun hhid => hskip.2 ((spriteHidden_color hcgb hprio).2 hhid)⟩
      exact ⟨(Function.update_self ..).trans (if_pos ⟨hcol, hshown⟩).symm, hprio⟩
  · have hne : x ≠ screenX.toNat := by omega
    have hother : ¬ (x + 8 = (spriteX b i).toNat + px ∧ ColorShown b line x i) := fun hs => hcol hs.1
    generalize colorIndex _ _ _ = idx
    by_cases hskip : idx = 0 ∨
      spriteHidden b (hasBits (spriteFlags b i) 0x80) (lb.bgPriority screenX.toNat) = true
    · rw [if_pos hskip]
      exact ⟨(if_neg hother).symm, hprio⟩
    · rw [if_neg hskip, if_pos hcgb]
      exact ⟨(Function.update_of_ne hne _ _).trans (if_neg hother).symm, hprio⟩

/-- A whole sprite. -/
theorem drawSprite_color {line i : Nat} (h : Covers b line i) {x : Nat} (hx : x < GB_W) {lb : LineBuf}
    (hprio : lb.Shows b line x) : (drawSprite b line lb i).colorRow x =
        (if ColorShown b line x i then colorSpriteEntry b line i x else lb.colorRow x) ∧
      (drawSprite b line lb i).Shows b line x := by
  obtain ⟨hrow, hkept⟩ := Painter.foldl_paint_of
    (fun px => x + 8 = (spriteX b i).toNat + px ∧ ColorShown b line x i)
    (fun _ => colorSpriteEntry b line i x) (fun lb : LineBuf => lb.colorRow x)
    (fun px hpx _ hlb => plotSprite_color hcgb h (List.mem_range.1 hpx) hx hlb) hprio
  refine ⟨?_, hkept⟩
  show ((List.range 8).foldl (fun lb px => plotSprite b i (fetchSprite b i line) px lb) lb).colorRow x = _
  rw [hrow, Painter.paint_const]
  by_cases hs : ColorShown b line x i
  · have hin : (spriteX b i).toNat ≤ x + 8 ∧ x < (spriteX b i).toNat := by
      by_contra hout
      refine hs.1 ?_
      unfold colorSpriteIndex spriteIndex
      rw [spriteBank_x, if_neg hout]
    have hpixel : x + 8 - (spriteX b i).toNat < 8 := by omega
    rw [if_pos hs, if_pos ⟨_, List.mem_range.2 hpixel, by omega, hs⟩]
  · rw [if_neg hs, if_neg fun ⟨_, _, _, h⟩ => hs h]

/-- The line with its sprites. -/
theorem lineBuf_color (line : Nat) {x : Nat} (hx : x < GB_W) : (lineBuf b line).colorRow x = colorEntry b line x := by
  have hpixel := bgLine_color hcgb line hx
  have hentry : (bgLine b line).colorRow x = (mapPlace b line x).entry b := congrArg Prod.fst hpixel
  have hprio : (bgLine b line).Shows b line x := congrArg Prod.snd hpixel
  rw [lineBuf_eq]
  unfold drawSprites colorEntry
  dsimp only
  by_cases hsprites : hasBits b.lcd.lcdc 0x02 = true
  · -- drawn from the last one to the first, so that the first is over the others
    have horder : drawOrder b line = (visibleSprites b line).reverse := by
      unfold drawOrder
      exact if_pos hcgb
    have hcovers : ∀ i ∈ drawOrder b line, Covers b line i := fun i hi =>
      covers_of_visible (List.mem_reverse.1 (horder ▸ hi))
    obtain ⟨hrow, -⟩ := Painter.foldl_paint_of (fun i => ColorShown b line x i) (fun i => colorSpriteEntry b line i x)
      (fun lb : LineBuf => lb.colorRow x) (fun i hi _ hlb => drawSprite_color hcgb (hcovers i hi) hx hlb) hprio
    rw [if_pos hsprites, if_pos hsprites, hrow, Painter.paint_eq, horder, List.reverse_reverse, hentry]
  · rw [if_neg hsprites, if_neg hsprites]
    exact hentry

end

/-! ## A whole line -/

/-- A drawn line holds its row's palette entries, and the other lines stay. -/
theorem storeLine_color {s : Screen} {f : Buffer} (hf : s.colorFramebuf = some f) (hsize : f.size = GB_W * GB_H)
    {line : Nat} (hline : line < GB_H) (lb : LineBuf) : ∃ f', (storeLine s line lb).colorFramebuf = some f' ∧
      (∀ x < GB_W, f'.get (line * GB_W + x) = lb.colorRow x) ∧
      ∀ i, ¬ (line * GB_W ≤ i ∧ i < (line + 1) * GB_W) → f'.get i = f.get i := by
  refine ⟨f.blit (line * GB_W) GB_W lb.colorRow, by unfold storeLine; rw [hf]; rfl, fun x hx => ?_, fun i hi => ?_⟩
  · have hin : line * GB_W + x < f.size := by
      rw [hsize]
      unfold GB_W GB_H at *
      omega
    rw [Buffer.get_blit hin, if_pos ⟨Nat.le_add_right _ _, by omega⟩, Nat.add_sub_cancel_left]
  · by_cases hin : i < f.size
    · rw [Buffer.get_blit hin, if_neg]
      rwa [Nat.succ_mul] at hi
    · unfold Buffer.get
      rw [Buffer.size_blit, if_neg hin, if_neg hin]

/-- Palette and colour index of a pixel. -/
theorem entry_parts (attr : UInt8) {idx : UInt8} (h : idx.toNat < 4) : ((attr &&& 7) * 4 + idx).toNat < 32 ∧
    (32 + (attr &&& 7) * 4 + idx).toNat < 64 := by
  have hseven : (attr &&& 7).toNat ≤ 7 := by
    rw [UInt8.toNat_and]
    exact Nat.and_le_right
  have hthirtytwo : (32 : UInt8).toNat = 32 := rfl
  have hfour : (4 : UInt8).toNat = 4 := rfl
  simp only [UInt8.toNat_add, UInt8.toNat_mul, hthirtytwo, hfour]
  omega

theorem colorEntry_lt (b : Bus σ) (line x : Nat) : (colorEntry b line x).toNat < 64 := by
  unfold colorEntry
  dsimp only
  generalize List.find? _ _ = winner
  cases winner with
  | none => exact Nat.lt_trans (entry_parts _ ((mapPlace b line x).index_lt b)).1 (by decide)
  | some i => exact (entry_parts (spriteFlags b i) (colorSpriteIndex_lt b line i x)).2

/-- On CGB a line is the formula: each pixel of its row in the colour framebuffer is its palette entry, which
is one of the 64, and the other rows stay. The window's row counter advances when the window is visible. -/
theorem renderLine_color {b : Bus σ} (hcgb : b.cgb.isCgb = true) (hon : hasBits b.lcd.lcdc 0x80 = true) {line : Nat}
    (hline : line < GB_H) {f : Buffer} (hf : b.screen.colorFramebuf = some f) (hsize : f.size = GB_W * GB_H) :
    (∃ f', (renderLine b line).screen.colorFramebuf = some f' ∧
      (∀ x < GB_W, f'.get (line * GB_W + x) = colorEntry b line x ∧ (colorEntry b line x).toNat < 64) ∧
      ∀ i, ¬ (line * GB_W ≤ i ∧ i < (line + 1) * GB_W) → f'.get i = f.get i) ∧
    (renderLine b line).lcd =
      { b.lcd with windowLine := b.lcd.windowLine + if windowVisible b line then 1 else 0 } := by
  unfold renderLine
  rw [if_neg (not_not.2 hon)]
  refine ⟨?_, ?_⟩
  · obtain ⟨f', hf', hrow, hother⟩ := storeLine_color hf hsize hline (lineBuf b line)
    exact ⟨f', hf', fun x hx => ⟨(hrow x hx).trans (lineBuf_color hcgb line hx), colorEntry_lt b line x⟩, hother⟩
  · dsimp only
    split <;> rfl

/-- A line with the window from column 43 on, a sprite of the second bank, and one behind the background. -/
def colorBus : Bus Unit where
  screen := { colorFramebuf := some (.fill (GB_W * GB_H) 0) }
  mem :=
    { vram := ⟨GB_VRAM_SIZE, fun i => UInt8.ofNat (i * 7)⟩
      vram1 := some ⟨GB_VRAM_SIZE, fun i => if i < 0x1800 then 0xFF else UInt8.ofNat (i * 13)⟩
      oam := ⟨0xA0, fun i => [36, 12, 1, 0x0A, 36, 10, 2, 0x85].getD i 0⟩ }
  lcd := { lcdc := 0xF3, scx := 5, wx := 50, windowLine := 13 }
  cgb := { isCgb := true }

theorem renderLine_color_sprite : ∃ f', (renderLine colorBus 20).screen.colorFramebuf = some f' ∧
    (∀ x < GB_W, f'.get (20 * GB_W + x) = colorEntry colorBus 20 x) ∧ f'.get (20 * GB_W + 4) = 0x2B := by
  obtain ⟨⟨f', hf', hrow, -⟩, -⟩ :=
    renderLine_color (b := colorBus) rfl (by decide) (show 20 < GB_H by decide) rfl rfl
  have hcolumn : 4 < GB_W := by decide
  refine ⟨f', hf', fun x hx => (hrow x hx).1, ?_⟩
  rw [(hrow 4 hcolumn).1]
  decide +kernel

end FoloGameboy

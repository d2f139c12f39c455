/-
Background and window of a DMG line: the tile by tile spans of `renderLine` give every pixel what the
formula of `tests/test_gb_render.cpp` gives it, in the packed framebuffer and in what sprites see.
-/
import FoloGameboy.Core.Ppu

namespace FoloGameboy

variable {σ : Type}

/-! ## The reference formula -/

/-- The colour index of a pixel of a tile map. -/
def mapIndex (b : Bus σ) (mapBase sx sy : Nat) : UInt8 :=
  let row := tileAddr b.lcd.lcdc (b.mem.vram.get (mapBase + sy / 8 * 32 + sx / 8)) + sy % 8 * 2
  colorIndex (b.mem.vram.get row) (b.mem.vram.get (row + 1)) (7 - sx % 8)

/-- The colour index of background or window at a column of a line; 0 when LCDC bit 0 is clear. -/
def referenceIndex (b : Bus σ) (line x : Nat) : UInt8 :=
  if hasBits b.lcd.lcdc 0x01 = false then 0
  else if windowVisible b line ∧ b.lcd.wx.toNat ≤ x + 7 then
    mapIndex b (if hasBits b.lcd.lcdc 0x40 then 0x1C00 else 0x1800) (x + 7 - b.lcd.wx.toNat) b.lcd.windowLine
  else
    mapIndex b (if hasBits b.lcd.lcdc 0x08 then 0x1C00 else 0x1800)
      ((x + b.lcd.scx.toNat) % 256) ((line + b.lcd.scy.toNat) % 256)

/-- The shade of background or window. -/
def referenceShade (b : Bus σ) (line x : Nat) : UInt8 :=
  if hasBits b.lcd.lcdc 0x01 = false then 0 else applyPalette b b.lcd.bgp (referenceIndex b line x).toNat

/-! ## Spans of tiles -/

/-- What a line buffer holds of a column on DMG: the shade, and the index sprites see. -/
def LineBuf.pixel (lb : LineBuf) (x : Nat) : UInt8 × UInt8 := (lb.row x, lb.bgPriority x)

def bgPixel (b : Bus σ) (idx : UInt8) : UInt8 × UInt8 := (applyPalette b b.lcd.bgp idx.toNat, idx)

/-- The line buffer before the sprites. -/
def bgLine (b : Bus σ) (line : Nat) : LineBuf :=
  let lb := drawBackground b line (if windowVisible b line then b.lcd.wx.toNat - 7 else GB_W) {}
  if windowVisible b line then drawWindow b lb else lb

theorem lineBuf_eq (b : Bus σ) (line : Nat) : lineBuf b line = drawSprites b line (bgLine b line) := rfl

section
variable {b : Bus σ} (hdmg : b.cgb.isCgb = false)
include hdmg

theorem plotBg_pixel (lb : LineBuf) (t : TileRow) (x bit p : Nat) :
    (lb.plotBg b t x bit).pixel p = if p = x then bgPixel b (colorIndex t.lo t.hi bit) else lb.pixel p := by
  unfold LineBuf.plotBg LineBuf.pixel bgPixel
  simp only [hdmg, Bool.false_eq_true, if_false, Function.update_apply]
  split <;> rfl

/-- A run of `n` pixels of one tile. -/
theorem drawTile_pixel (t : TileRow) (x sx p : Nat) (lb : LineBuf) : ∀ n, (drawTile b t x sx n lb).pixel p =
    if x ≤ p ∧ p < x + n then bgPixel b (colorIndex t.lo t.hi (7 - sx % 8 - (p - x))) else lb.pixel p
  | 0 => by
    rw [if_neg (by omega)]
    rfl
  | n + 1 => by
    have ih := drawTile_pixel t x sx p lb n
    unfold drawTile
    simp only [hdmg, Bool.false_eq_true, if_false]
    rw [plotBg_pixel hdmg, ih]
    by_cases hp : p = x + n
    · rw [if_pos hp, if_pos (by omega), hp, Nat.add_sub_cancel_left]
    · rw [if_neg hp]
      by_cases hin : x ≤ p ∧ p < x + n
      · rw [if_pos hin, if_pos (by omega)]
      · rw [if_neg hin, if_neg (by omega)]

theorem fetchTile_index (mapBase sx sy : Nat) :
    colorIndex (fetchTile b (mapBase + sy / 8 * 32 + sx / 8) sy).lo
      (fetchTile b (mapBase + sy / 8 * 32 + sx / 8) sy).hi (7 - sx % 8) =
      mapIndex b mapBase sx sy := by
  have hflag : ∀ mask : UInt8, hasBits 0 mask = false := fun mask => by simp [hasBits]
  unfold fetchTile mapIndex
  simp only [hdmg, hflag, Bool.false_eq_true, if_false]

/-- A span of tiles: each of its columns gets the pixel of the map column it stands for. `column`
runs through a tile in step with the screen. -/
theorem drawSpan_pixel {mapBase y limit start : Nat} {column : Nat → Nat}
    (hcol : ∀ x k, start ≤ x → column x % 8 + k < 8 → column (x + k) = column x + k) (p : Nat) :
    ∀ (fuel x : Nat) (lb : LineBuf), start ≤ x → limit ≤ x + fuel →
      (drawSpan b (mapBase + y / 8 * 32) y limit column fuel x lb).pixel p =
        if x ≤ p ∧ p < limit then bgPixel b (mapIndex b mapBase (column p) y) else lb.pixel p
  | 0, x, lb, _, hfuel => by
    rw [if_neg (by omega)]
    rfl
  | fuel + 1, x, lb, hstart, hfuel => by
    have hlt : column x % 8 < 8 := Nat.mod_lt _ (by decide)
    unfold drawSpan
    by_cases hx : x < limit
    · rw [if_pos hx]
      dsimp only
      have hstop : x < min (x + 8 - column x % 8) limit := Nat.lt_min.mpr ⟨by omega, hx⟩
      have hle : min (x + 8 - column x % 8) limit ≤ limit := Nat.min_le_right _ _
      have htile : min (x + 8 - column x % 8) limit ≤ x + 8 - column x % 8 := Nat.min_le_left _ _
      generalize min (x + 8 - column x % 8) limit = stop at hstop hle htile ⊢
      have hrest : ∀ lb : LineBuf,
        (drawSpan b (mapBase + y / 8 * 32) y limit column fuel stop lb).pixel p = _ :=
        fun lb => drawSpan_pixel hcol p fuel stop lb (by omega) (by omega)
      rw [hrest, drawTile_pixel hdmg]
      by_cases hin : x ≤ p ∧ p < limit
      · rw [if_pos hin]
        by_cases hafter : stop ≤ p
        · rw [if_pos ⟨hafter, hin.2⟩]
        · -- inside the first tile
          have hcolumn := hcol x (p - x) hstart (by omega)
          rw [Nat.add_sub_cancel' hin.1] at hcolumn
          have hdiv : column x / 8 = column p / 8 := by omega
          have hbit : 7 - column x % 8 - (p - x) = 7 - column p % 8 := by omega
          rw [if_neg (by omega), if_pos (by omega), hdiv, hbit, fetchTile_index hdmg]
      · rw [if_neg hin, if_neg (by omega), if_neg (by omega)]
    · rw [if_neg hx, if_neg (by omega)]

/-! ## Background and window -/

theorem drawBackground_pixel (line bgEnd p : Nat) (hend : bgEnd ≤ GB_W) (lb : LineBuf) :
    (drawBackground b line bgEnd lb).pixel p =
      if hasBits b.lcd.lcdc 0x01 = true ∧ p < bgEnd then
        bgPixel b (mapIndex b (if hasBits b.lcd.lcdc 0x08 then 0x1C00 else 0x1800)
          ((p + b.lcd.scx.toNat) % 256)
          ((line + b.lcd.scy.toNat) % 256))
      else lb.pixel p := by
  unfold drawBackground
  simp only [hdmg, Bool.false_eq_true, or_false]
  split
  · rename_i hon
    have hcol : ∀ x k, 0 ≤ x → (x + b.lcd.scx.toNat) % 256 % 8 + k < 8 →
        (x + k + b.lcd.scx.toNat) % 256 = (x + b.lcd.scx.toNat) % 256 + k := by
      intro x k _ hk
      omega
    rw [drawSpan_pixel hdmg hcol p GB_W 0 lb (Nat.le_refl 0) (by omega)]
    simp only [hon, Nat.zero_le, true_and]
  · rename_i hoff
    rw [if_neg fun h => hoff h.1]

theorem drawWindow_pixel (p : Nat) (lb : LineBuf) :
    (drawWindow b lb).pixel p =
      if b.lcd.wx.toNat ≤ p + 7 ∧ p < GB_W then
        bgPixel b (mapIndex b (if hasBits b.lcd.lcdc 0x40 then 0x1C00 else 0x1800)
          (p + 7 - b.lcd.wx.toNat) b.lcd.windowLine)
      else lb.pixel p := by
  have hcol : ∀ x k, b.lcd.wx.toNat - 7 ≤ x → (x + 7 - b.lcd.wx.toNat) % 8 + k < 8 →
      x + k + 7 - b.lcd.wx.toNat = x + 7 - b.lcd.wx.toNat + k := by
    intro x k hx _
    omega
  unfold drawWindow
  dsimp only
  rw [drawSpan_pixel hdmg hcol p GB_W _ lb (Nat.le_refl _) (by omega)]
  have hiff : b.lcd.wx.toNat - 7 ≤ p ↔ b.lcd.wx.toNat ≤ p + 7 := by omega
  simp only [hiff]

theorem bgLine_pixel (line : Nat) {p : Nat} (hp : p < GB_W) :
    (bgLine b line).pixel p = (referenceShade b line p, referenceIndex b line p) := by
  have hblank : ({} : LineBuf).pixel p = (0, 0) := rfl
  unfold bgLine referenceShade referenceIndex
  dsimp only
  cases hwin : windowVisible b line with
  | true =>
    have hon : hasBits b.lcd.lcdc 0x01 = true := by
      unfold windowVisible at hwin
      simp only [hdmg, Bool.or_false, Bool.and_eq_true, decide_eq_true_eq] at hwin
      exact hwin.1.1.2
    have hwx : b.lcd.wx.toNat ≤ 166 := by
      unfold windowVisible at hwin
      simp only [Bool.and_eq_true, decide_eq_true_eq] at hwin
      exact UInt8.le_iff_toNat_le.mp hwin.2
    simp only [if_true, hon, Bool.true_eq_false, if_false, true_and]
    rw [drawWindow_pixel hdmg, drawBackground_pixel hdmg _ _ _ (by unfold GB_W; omega)]
    by_cases hin : b.lcd.wx.toNat ≤ p + 7
    · rw [if_pos ⟨hin, hp⟩, if_pos hin]
      rfl
    · rw [if_neg (fun h => hin h.1), if_pos ⟨hon, by omega⟩, if_neg hin]
      rfl
  | false =>
    simp only [Bool.false_eq_true, if_false, false_and]
    rw [drawBackground_pixel hdmg _ _ _ (Nat.le_refl _)]
    cases hon : hasBits b.lcd.lcdc 0x01 with
    | true =>
      rw [if_pos ⟨rfl, hp⟩]
      rfl
    | false =>
      simp only [Bool.false_eq_true, false_and, if_false, if_true]
      exact hblank

end

/-! ## The packed framebuffer -/

/-- A pixel of the packed framebuffer. -/
def framePixel (f : Buffer) (line x : Nat) : UInt8 :=
  (f.get (line * GB_FB_STRIDE + x / 4) >>> UInt8.ofNat (x % 4 * 2)) &&& 3

theorem and_three_lt : ∀ v : UInt8, (v &&& 3).toNat < 4 := fun ⟨v⟩ => by revert v; decide +kernel

theorem unpack_pixels : ∀ a < 4, ∀ b < 4, ∀ c < 4, ∀ d < 4, ∀ k < 4,
    ((UInt8.ofNat a ||| (UInt8.ofNat b <<< 2) ||| (UInt8.ofNat c <<< 4) |||
      (UInt8.ofNat d <<< 6)) >>> UInt8.ofNat (k * 2)) &&& 3 =
      UInt8.ofNat ([a, b, c, d].getD k 0) := by decide +kernel

/-- The four pixels of a packed byte. -/
theorem packPixels_get (row : Nat → UInt8) (x : Nat) :
    (packPixels row (x / 4) >>> UInt8.ofNat (x % 4 * 2)) &&& 3 = row x &&& 3 := by
  have hlt : x % 4 < 4 := Nat.mod_lt _ (by decide)
  have h := unpack_pixels _ (and_three_lt (row (4 * (x / 4)))) _ (and_three_lt (row (4 * (x / 4) + 1))) _
    (and_three_lt (row (4 * (x / 4) + 2))) _ (and_three_lt (row (4 * (x / 4) + 3))) _ hlt
  simp only [UInt8.ofNat_toNat] at h
  unfold packPixels
  rw [h]
  obtain hk | hk | hk | hk : x % 4 = 0 ∨ x % 4 = 1 ∨ x % 4 = 2 ∨ x % 4 = 3 := by omega
  all_goals
    rw [hk]
    simp only [List.getD_cons_zero, List.getD_cons_succ, UInt8.ofNat_toNat]
    congr 2
    omega

/-- A drawn line holds its row's shades, and the other bytes of the framebuffer are as they were. -/
theorem storeLine_framebuf {s : Screen} {f : Buffer} (hf : s.framebuf = some f)
    (hsize : f.size = GB_FB_SIZE) {line : Nat}
    (hline : line < GB_H) (lb : LineBuf) : ∃ f', (storeLine s line lb).framebuf = some f' ∧
      (∀ x < GB_W, framePixel f' line x = lb.row x &&& 3) ∧
      ∀ i, ¬ (line * GB_FB_STRIDE ≤ i ∧ i < (line + 1) * GB_FB_STRIDE) → f'.get i = f.get i := by
  refine ⟨f.blit (line * GB_FB_STRIDE) GB_FB_STRIDE (packPixels lb.row),
    by unfold storeLine; rw [hf]; rfl, fun x hx => ?_, fun i hi => ?_⟩
  · have hcol : x / 4 < GB_FB_STRIDE := by unfold GB_FB_STRIDE GB_W at *; omega
    have hin : line * GB_FB_STRIDE + x / 4 < f.size := by
      rw [hsize]
      unfold GB_FB_SIZE GB_FB_STRIDE GB_W GB_H at *
      omega
    unfold framePixel
    rw [Buffer.get_blit hin, if_pos ⟨Nat.le_add_right _ _, by omega⟩, Nat.add_sub_cancel_left]
    exact packPixels_get lb.row x
  · by_cases hin : i < f.size
    · rw [Buffer.get_blit hin, if_neg]
      rwa [Nat.succ_mul] at hi
    · unfold Buffer.get
      rw [Buffer.size_blit, if_neg hin, if_neg hin]

/-! ## A line without sprites -/

/-- The background and window of a DMG line are those of the formula, the other rows stay, and the
window's row counter advances exactly when the window is visible. -/
theorem renderLine_background {b : Bus σ} (hdmg : b.cgb.isCgb = false) (hon : hasBits b.lcd.lcdc 0x80 = true)
    (hsprites : hasBits b.lcd.lcdc 0x02 = false) {line : Nat}
    (hline : line < GB_H) {f : Buffer} (hf : b.screen.framebuf = some f)
    (hsize : f.size = GB_FB_SIZE) :
    (∃ f', (renderLine b line).screen.framebuf = some f' ∧
      (∀ x < GB_W, framePixel f' line x = referenceShade b line x &&& 3) ∧
      ((∀ shade < 4, b.shadeRemap shade < 4) → ∀ x < GB_W, framePixel f' line x = referenceShade b line x) ∧
      ∀ i, ¬ (line * GB_FB_STRIDE ≤ i ∧ i < (line + 1) * GB_FB_STRIDE) → f'.get i = f.get i) ∧
    (renderLine b line).lcd
      = { b.lcd with windowLine := b.lcd.windowLine + if windowVisible b line then 1 else 0 } := by
  have hlb : lineBuf b line = bgLine b line := by
    rw [lineBuf_eq]
    unfold drawSprites
    rw [if_neg (ne_true_of_eq_false hsprites)]
  unfold renderLine
  rw [if_neg (not_not.mpr hon), hlb]
  refine ⟨?_, ?_⟩
  · obtain ⟨f', hf', hrow, hother⟩ := storeLine_framebuf hf hsize hline (bgLine b line)
    have hshade : ∀ x < GB_W, framePixel f' line x = referenceShade b line x &&& 3 := fun x hx => by
      have hbg : (bgLine b line).row x = referenceShade b line x :=
        congrArg Prod.fst (bgLine_pixel hdmg line hx)
      rw [hrow x hx, hbg]
    refine ⟨f', hf', hshade, fun hremap x hx => ?_, hother⟩
    have hsmall : ∀ v : UInt8, v < 4 → v &&& 3 = v := fun ⟨v⟩ => by revert v; decide +kernel
    rw [hshade x hx]
    refine hsmall _ ?_
    unfold referenceShade
    split
    · decide
    · exact hremap _ (and_three_lt _)
  · dsimp only
    split
    · rfl
    · rfl

/-- A scrolled line with the window from column 43 on. -/
theorem renderLine_background_window :
    let b : Bus Unit :=
      { screen := { framebuf := some (.fill GB_FB_SIZE 0) }
        mem := { vram := ⟨GB_VRAM_SIZE, fun i => UInt8.ofNat (i * 7)⟩ }
        lcd := { lcdc := 0xF1, bgp := 0x1B, scx := 5, wx := 50, windowLine := 13 } }
    (∃ f', (renderLine b 20).screen.framebuf = some f' ∧ ∀ x < GB_W,
      framePixel f' 20 x = referenceShade b 20 x) ∧
      (renderLine b 20).lcd.windowLine = 14 := by
  intro b
  have hshade : ∀ shade < 4, b.shadeRemap shade < 4 := by decide
  obtain ⟨⟨f', hf', -, hpixels, -⟩, hlcd⟩ :=
    renderLine_background (b := b) rfl (by decide) (by decide) (show 20 < GB_H by decide) rfl rfl
  refine ⟨⟨f', hf', hpixels hshade⟩, ?_⟩
  rw [hlcd]
  decide

end FoloGameboy

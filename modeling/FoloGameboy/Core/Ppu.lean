/-
The scanline renderer: palettes, the background and window tile spans, the sprites of a line with
their priority, and the packing of a finished line into the framebuffers.
-/
import FoloGameboy.Core.Write

namespace FoloGameboy

variable {σ : Type}

/-! ## Palettes and tiles -/

def applyPalette (b : Bus σ) (palette : UInt8) (colorIdx : Nat) : UInt8 :=
  b.shadeRemap ((palette >>> UInt8.ofNat (colorIdx * 2)) &&& 0x03).toNat

def windowVisible (b : Bus σ) (line : Nat) : Bool :=
  hasBits b.lcd.lcdc 0x20 && (hasBits b.lcd.lcdc 0x01 || b.cgb.isCgb) && b.lcd.wy.toNat ≤ line && b.lcd.wx ≤ 166

/-- The VRAM address of a background or window tile. -/
def tileAddr (lcdc tileIdx : UInt8) : Nat :=
  if hasBits lcdc 0x10 then tileIdx.toNat * 16 else 0x0800 + (tileIdx.toInt8.toInt + 128).toNat * 16

/-- The row of a tile's two bit planes with the tile's attributes. -/
structure TileRow where
  lo : UInt8
  hi : UInt8
  attr : UInt8

def fetchTile (b : Bus σ) (mapOffset y : Nat) : TileRow :=
  let attr := if b.cgb.isCgb then Buffer.byteOf b.mem.vram1 mapOffset else 0
  let addr := tileAddr b.lcd.lcdc (b.mem.vram.get mapOffset)
  let tileRow := (if hasBits attr 0x40 then 7 - y % 8 else y % 8) * 2
  let tile (i : Nat) : UInt8 := if hasBits attr 0x08 then Buffer.byteOf b.mem.vram1 i else b.mem.vram.get i
  { lo := tile (addr + tileRow), hi := tile (addr + tileRow + 1), attr := attr }

/-- The colour index of a pixel from the two bit planes. -/
def colorIndex (lo hi : UInt8) (bit : Nat) : UInt8 :=
  (((hi >>> UInt8.ofNat bit) &&& 1) <<< 1) ||| ((lo >>> UInt8.ofNat bit) &&& 1)

/-! ## The line buffers -/

/-- The unpacked scanline: shades, CGB palette indices, and what sprites see of the background. -/
structure LineBuf where
  row : Nat → UInt8 := fun _ => 0
  colorRow : Nat → UInt8 := fun _ => 0
  bgPriority : Nat → UInt8 := fun _ => 0

def LineBuf.plotBg (lb : LineBuf) (b : Bus σ) (t : TileRow) (x bit : Nat) : LineBuf :=
  let idx := colorIndex t.lo t.hi bit
  { row := Function.update lb.row x (applyPalette b b.lcd.bgp idx.toNat)
    colorRow := if b.cgb.isCgb then Function.update lb.colorRow x ((t.attr &&& (7 : UInt8)) * 4 + idx) else lb.colorRow
    bgPriority := Function.update lb.bgPriority x
      (if b.cgb.isCgb then idx ||| (if hasBits t.attr 0x80 then 4 else 0) else idx) }

/-- The pixels of one tile, `n` of them from `x` on; `sx` is the first one's column in its map. -/
def drawTile (b : Bus σ) (t : TileRow) (x sx : Nat) : Nat → LineBuf → LineBuf
  | 0, lb => lb
  | n + 1, lb =>
    let lb := drawTile b t x sx n lb
    let bit :=
      if b.cgb.isCgb then (if hasBits t.attr 0x20 then (sx + n) % 8 else 7 - (sx + n) % 8)
      else 7 - sx % 8 - n
    lb.plotBg b t (x + n) bit

/-- A run of tiles from column `x` to `limit`: `column` maps a screen column to the tile map's. -/
def drawSpan (b : Bus σ) (mapRow y limit : Nat) (column : Nat → Nat) : Nat → Nat → LineBuf → LineBuf
  | 0, _, lb => lb
  | fuel + 1, x, lb =>
    if x < limit then
      let sx := column x
      let t := fetchTile b (mapRow + sx / 8) y
      let stop := min (x + 8 - sx % 8) limit
      drawSpan b mapRow y limit column fuel stop (drawTile b t x sx (stop - x) lb)
    else lb

/-- The background up to the window (or the whole line), or a blank line when it is off. -/
def drawBackground (b : Bus σ) (line bgEnd : Nat) (lb : LineBuf) : LineBuf :=
  if hasBits b.lcd.lcdc 0x01 ∨ b.cgb.isCgb then
    let mapBase := if hasBits b.lcd.lcdc 0x08 then 0x1C00 else 0x1800
    let y := (line + b.lcd.scy.toNat) % 256
    drawSpan b (mapBase + y / 8 * 32) y bgEnd (fun x => (x + b.lcd.scx.toNat) % 256) GB_W 0 lb
  else lb

/-- The window from its start column to the end of the line, on its own row counter. -/
def drawWindow (b : Bus σ) (lb : LineBuf) : LineBuf :=
  let winMap := if hasBits b.lcd.lcdc 0x40 then 0x1C00 else 0x1800
  let winY := b.lcd.windowLine
  drawSpan b (winMap + winY / 8 * 32) winY GB_W (fun x => x + 7 - b.lcd.wx.toNat) GB_W (b.lcd.wx.toNat - 7) lb

/-! ## Sprites -/

def spriteHeight (l : Lcd) : Nat := if hasBits l.lcdc 0x04 then 16 else 8

def spriteTop (oam : Buffer) (i : Nat) : Int := (oam.get (i * 4)).toNat - 16

/-- The first 10 OAM entries that cover the line. -/
def visibleSprites (b : Bus σ) (line : Nat) : List Nat :=
  ((List.range 40).filter fun i =>
    decide (spriteTop b.mem.oam i ≤ line ∧ (line : Int) < spriteTop b.mem.oam i + spriteHeight b.lcd)).take 10

/-- One step of the insertion sort by X (ties by OAM index), on the sorted part read from its end. -/
def insertSprite (oam : Buffer) (cur : Nat) : List Nat → List Nat
  | [] => [cur]
  | prev :: rest =>
    let prevX := oam.get (prev * 4 + 1)
    let curX := oam.get (cur * 4 + 1)
    if prevX < curX ∨ (prevX = curX ∧ prev < cur) then cur :: prev :: rest
    else prev :: insertSprite oam cur rest

/-- The visible sprites in drawing order: the highest priority last. CGB keeps the OAM order. -/
def drawOrder (b : Bus σ) (line : Nat) : List Nat :=
  let vis := visibleSprites b line
  if b.cgb.isCgb then vis.reverse else vis.foldl (fun acc cur => insertSprite b.mem.oam cur acc) []

/-- The background hides a sprite's pixel. -/
def spriteHidden (b : Bus σ) (bgOver : Bool) (priority : UInt8) : Bool :=
  if b.cgb.isCgb then
    hasBits b.lcd.lcdc 0x01 && hasBits priority 3 && (bgOver || hasBits priority 4)
  else bgOver && priority != 0

/-- The two bit planes of a sprite's row on a line. -/
def fetchSprite (b : Bus σ) (i line : Nat) : UInt8 × UInt8 :=
  let tile := b.mem.oam.get (i * 4 + 2)
  let flags := b.mem.oam.get (i * 4 + 3)
  let height := spriteHeight b.lcd
  let tileY := ((line : Int) - spriteTop b.mem.oam i).toNat
  let tileY := if hasBits flags 0x40 then height - 1 - tileY else tileY
  let useTile := if height = 16 then (tile &&& 0xFE).toNat + (if 8 ≤ tileY then 1 else 0) else tile.toNat
  let tileY := if height = 16 then tileY % 8 else tileY
  let addr := useTile * 16 + tileY * 2
  let fetch (i : Nat) : UInt8 :=
    if b.cgb.isCgb ∧ hasBits flags 0x08 then Buffer.byteOf b.mem.vram1 i else b.mem.vram.get i
  (fetch addr, fetch (addr + 1))

/-- One sprite pixel, skipped when off screen, transparent or hidden. -/
def plotSprite (b : Bus σ) (i : Nat) (planes : UInt8 × UInt8) (px : Nat) (lb : LineBuf) : LineBuf :=
  let flags := b.mem.oam.get (i * 4 + 3)
  let screenX : Int := (b.mem.oam.get (i * 4 + 1)).toNat - 8 + px
  if screenX < 0 ∨ GB_W ≤ screenX then lb
  else
    let x := screenX.toNat
    let idx := colorIndex planes.1 planes.2 (if hasBits flags 0x20 then px else 7 - px)
    if idx = 0 ∨ spriteHidden b (hasBits flags 0x80) (lb.bgPriority x) then lb
    else
      let palette := if hasBits flags 0x10 then b.lcd.obp1 else b.lcd.obp0
      { lb with
        row := Function.update lb.row x (applyPalette b palette idx.toNat)
        colorRow :=
          if b.cgb.isCgb then Function.update lb.colorRow x ((32 : UInt8) + (flags &&& (7 : UInt8)) * 4 + idx)
          else lb.colorRow }

def drawSprite (b : Bus σ) (line : Nat) (lb : LineBuf) (i : Nat) : LineBuf :=
  (List.range 8).foldl (fun lb px => plotSprite b i (fetchSprite b i line) px lb) lb

def drawSprites (b : Bus σ) (line : Nat) (lb : LineBuf) : LineBuf :=
  if hasBits b.lcd.lcdc 0x02 then (drawOrder b line).foldl (drawSprite b line) lb else lb

/-! ## A whole line -/

/-- Four 2 bit shades in a byte, the leftmost pixel in the low bits. -/
def packPixels (row : Nat → UInt8) (i : Nat) : UInt8 :=
  (row (4 * i) &&& (3 : UInt8)) ||| ((row (4 * i + 1) &&& 3) <<< 2) ||| ((row (4 * i + 2) &&& 3) <<< 4) |||
    ((row (4 * i + 3) &&& 3) <<< 6)

def storeLine (s : Screen) (line : Nat) (lb : LineBuf) : Screen :=
  { colorFramebuf := s.colorFramebuf.map fun f => f.blit (line * GB_W) GB_W lb.colorRow
    framebuf := s.framebuf.map fun f => f.blit (line * GB_FB_STRIDE) GB_FB_STRIDE (packPixels lb.row) }

/-- The pixels of a line. -/
def lineBuf (b : Bus σ) (line : Nat) : LineBuf :=
  let window := windowVisible b line
  let bgEnd := if window then b.lcd.wx.toNat - 7 else GB_W
  let lb := drawBackground b line bgEnd {}
  let lb := if window then drawWindow b lb else lb
  drawSprites b line lb

def renderLine (b : Bus σ) (line : Nat) : Bus σ :=
  if ¬ hasBits b.lcd.lcdc 0x80 then b
  else
    { b with
      screen := storeLine b.screen line (lineBuf b line)
      lcd := if windowVisible b line then { b.lcd with windowLine := b.lcd.windowLine + 1 } else b.lcd }

end FoloGameboy

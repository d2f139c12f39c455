/-
The scanline renderer with every access checked: the tile maps and tiles in VRAM, the arrays of a line,
the sprite list with its sort, and the framebuffers. For a line of the screen nothing faults, as long as
the window's row counter has not run past the lines of a frame.
-/
import FoloGameboy.Core.Sprites
import FoloGameboy.Core.Bounds

namespace FoloGameboy

variable {σ : Type}

/-! ## Palettes and tiles -/

/-- `shadeRemap_` has four entries. -/
def applyPaletteChecked (b : Bus σ) (palette : UInt8) (colorIdx : Nat) : Option UInt8 :=
  let shade := ((palette >>> UInt8.ofNat (colorIdx * 2)) &&& 0x03).toNat
  if shade < 4 then some (b.shadeRemap shade) else none

/-- The four shades of a palette, decoded once a line. -/
def paletteShades (b : Bus σ) (palette : UInt8) : Option (List UInt8) :=
  [0, 1, 2, 3].mapM (applyPaletteChecked b palette)

def fetchTileChecked (b : Bus σ) (mapOffset y : Nat) : Option TileRow := do
  let tileIdx ← b.mem.vram.load mapOffset
  let attr ← (if b.cgb.isCgb then Buffer.loadOf b.mem.vram1 mapOffset else some 0)
  let addr := tileAddr b.lcd.lcdc tileIdx
  let tileRow := (if hasBits attr 0x40 then 7 - y % 8 else y % 8) * 2
  let tile (i : Nat) : Option UInt8 := if hasBits attr 0x08 then Buffer.loadOf b.mem.vram1 i
    else b.mem.vram.load i
  let lo ← tile (addr + tileRow)
  let hi ← tile (addr + tileRow + 1)
  return { lo := lo, hi := hi, attr := attr }

/-! ## The line buffers -/

/-- A store into one of the arrays of a line. -/
def storePixel (row : Nat → UInt8) (x : Nat) (v : UInt8) : Option (Nat → UInt8) :=
  if x < GB_W then some (Function.update row x v) else none

def LineBuf.plotBgChecked (lb : LineBuf) (b : Bus σ) (bgShades : List UInt8) (t : TileRow)
    (x bit : Nat) : Option LineBuf := do
  let idx := colorIndex t.lo t.hi bit
  let bgPriority ← storePixel lb.bgPriority x
    (if b.cgb.isCgb then idx ||| (if hasBits t.attr 0x80 then 4 else 0) else idx)
  let shade ← bgShades[idx.toNat]?
  let row ← storePixel lb.row x shade
  let colorRow ← if b.cgb.isCgb then storePixel lb.colorRow x ((t.attr &&& (7 : UInt8)) * 4 + idx)
    else some lb.colorRow
  return { row := row, colorRow := colorRow, bgPriority := bgPriority }

def drawTileChecked (b : Bus σ) (bgShades : List UInt8) (t : TileRow) (x sx : Nat) :
    Nat → LineBuf → Option LineBuf
  | 0, lb => some lb
  | n + 1, lb => do
    let lb ← drawTileChecked b bgShades t x sx n lb
    let bit :=
      if b.cgb.isCgb then (if hasBits t.attr 0x20 then (sx + n) % 8 else 7 - (sx + n) % 8)
      else 7 - sx % 8 - n
    lb.plotBgChecked b bgShades t (x + n) bit

def drawSpanChecked (b : Bus σ) (bgShades : List UInt8) (mapRow y limit : Nat) (column : Nat → Nat) :
    Nat → Nat → LineBuf → Option LineBuf
  | 0, _, lb => some lb
  | fuel + 1, x, lb => do
    if x < limit then
      let sx := column x
      let t ← fetchTileChecked b (mapRow + sx / 8) y
      let stop := min (x + 8 - sx % 8) limit
      let lb ← drawTileChecked b bgShades t x sx (stop - x) lb
      drawSpanChecked b bgShades mapRow y limit column fuel stop lb
    else return lb

def drawBackgroundChecked (b : Bus σ) (bgShades : List UInt8) (line bgEnd : Nat) (lb : LineBuf) :
    Option LineBuf := do
  if hasBits b.lcd.lcdc 0x01 ∨ b.cgb.isCgb then
    let mapBase := if hasBits b.lcd.lcdc 0x08 then 0x1C00 else 0x1800
    let y := (line + b.lcd.scy.toNat) % 256
    drawSpanChecked b bgShades (mapBase + y / 8 * 32) y bgEnd (fun x => (x + b.lcd.scx.toNat) % 256)
      GB_W 0 lb
  else return lb

def drawWindowChecked (b : Bus σ) (bgShades : List UInt8) (lb : LineBuf) : Option LineBuf :=
  let winMap := if hasBits b.lcd.lcdc 0x40 then 0x1C00 else 0x1800
  let winY := b.lcd.windowLine
  drawSpanChecked b bgShades (winMap + winY / 8 * 32) winY GB_W (fun x => x + 7 - b.lcd.wx.toNat) GB_W
    (b.lcd.wx.toNat - 7) lb

/-! ## Sprites -/

/-- The scan of the first `n` OAM entries: `visIdx` with its ten entries, and `visCount`. -/
def scanOam (b : Bus σ) (line : Nat) : Nat → Option (Buffer × Nat)
  | 0 => some (.fill 10 0, 0)
  | n + 1 => do
    let (visIdx, visCount) ← scanOam b line n
    if visCount < 10 then
      let y ← b.mem.oam.load (n * 4)
      let sy : Int := y.toNat - 16
      if (line : Int) < sy ∨ sy + spriteHeight b.lcd ≤ line then return (visIdx, visCount)
      else
        let visIdx ← visIdx.put visCount (UInt8.ofNat n)
        return (visIdx, visCount + 1)
    else return (visIdx, visCount)

/-- The inner loop of the sort: entries above the new one move up, from position `j` down. -/
def insertSlot (oam : Buffer) (cur curX : UInt8) : Nat → Buffer → Option Buffer
  | 0, visIdx => visIdx.put 0 cur
  | j + 1, visIdx => do
    let prev ← visIdx.load j
    let prevX ← oam.load (prev.toNat * 4 + 1)
    if prevX < curX ∨ (prevX = curX ∧ prev < cur) then visIdx.put (j + 1) cur
    else
      let visIdx ← visIdx.put (j + 1) prev
      insertSlot oam cur curX j visIdx

/-- The sort of the first `n + 1` entries. -/
def sortSlots (oam : Buffer) : Nat → Buffer → Option Buffer
  | 0, visIdx => some visIdx
  | n + 1, visIdx => do
    let visIdx ← sortSlots oam n visIdx
    let cur ← visIdx.load (n + 1)
    let curX ← oam.load (cur.toNat * 4 + 1)
    insertSlot oam cur curX (n + 1) visIdx

def fetchSpriteChecked (b : Bus σ) (i line : Nat) : Option (UInt8 × UInt8) := do
  let y ← b.mem.oam.load (i * 4)
  let tile ← b.mem.oam.load (i * 4 + 2)
  let flags ← b.mem.oam.load (i * 4 + 3)
  let height := spriteHeight b.lcd
  let tileY := ((line : Int) - ((y.toNat : Int) - 16)).toNat
  let tileY := if hasBits flags 0x40 then height - 1 - tileY else tileY
  let useTile := if height = 16 then (tile &&& 0xFE).toNat + (if 8 ≤ tileY then 1 else 0) else tile.toNat
  let tileY := if height = 16 then tileY % 8 else tileY
  let addr := useTile * 16 + tileY * 2
  let fetch (i : Nat) : Option UInt8 :=
    if b.cgb.isCgb ∧ hasBits flags 0x08 then Buffer.loadOf b.mem.vram1 i else b.mem.vram.load i
  let lo ← fetch addr
  let hi ← fetch (addr + 1)
  return (lo, hi)

/-- A pixel of the array that sprites see of the background. -/
def loadPixel (row : Nat → UInt8) (x : Nat) : Option UInt8 := if x < GB_W then some (row x) else none

def plotSpriteChecked (b : Bus σ) (objShades : List UInt8 × List UInt8) (i : Nat)
    (planes : UInt8 × UInt8) (px : Nat)
    (lb : LineBuf) : Option LineBuf := do
  let x ← b.mem.oam.load (i * 4 + 1)
  let flags ← b.mem.oam.load (i * 4 + 3)
  let screenX : Int := x.toNat - 8 + px
  if screenX < 0 ∨ GB_W ≤ screenX then return lb
  else
    let x := screenX.toNat
    let idx := colorIndex planes.1 planes.2 (if hasBits flags 0x20 then px else 7 - px)
    if idx = 0 then return lb
    else
      let priority ← loadPixel lb.bgPriority x
      if spriteHidden b (hasBits flags 0x80) priority then return lb
      else
        let shade ← (if hasBits flags 0x10 then objShades.2 else objShades.1)[idx.toNat]?
        let row ← storePixel lb.row x shade
        let colorRow ←
          if b.cgb.isCgb then storePixel lb.colorRow x ((32 : UInt8) + (flags &&& (7 : UInt8)) * 4 + idx)
          else some lb.colorRow
        return { lb with row := row, colorRow := colorRow }

def drawSpriteChecked (b : Bus σ) (objShades : List UInt8 × List UInt8) (line : Nat) (lb : LineBuf)
    (i : Nat) : Option LineBuf := do
  let planes ← fetchSpriteChecked b i line
  (List.range 8).foldlM (fun lb px => plotSpriteChecked b objShades i planes px lb) lb

/-- The sprites in the first `n` entries, the last one first. -/
def drawSlots (b : Bus σ) (objShades : List UInt8 × List UInt8) (line : Nat) (visIdx : Buffer) :
    Nat → LineBuf → Option LineBuf
  | 0, lb => some lb
  | n + 1, lb => do
    let i ← visIdx.load n
    let lb ← drawSpriteChecked b objShades line lb i.toNat
    drawSlots b objShades line visIdx n lb

def drawSpritesChecked (b : Bus σ) (objShades : List UInt8 × List UInt8) (line : Nat)
    (lb : LineBuf) : Option LineBuf := do
  if hasBits b.lcd.lcdc 0x02 then
    let (visIdx, visCount) ← scanOam b line 40
    let visIdx ← if b.cgb.isCgb then some visIdx else sortSlots b.mem.oam (visCount - 1) visIdx
    drawSlots b objShades line visIdx visCount lb
  else return lb

/-! ## A whole line -/

/-- A copy into a framebuffer that may not exist. -/
def Buffer.copyTo (b : Option Buffer) (off n : Nat) (f : Nat → UInt8) : Option (Option Buffer) :=
  match b with
  | none => some none
  | some b => (b.copy off n f).map some

def storeLineChecked (s : Screen) (line : Nat) (lb : LineBuf) : Option Screen := do
  let colorFramebuf ← Buffer.copyTo s.colorFramebuf (line * GB_W) GB_W lb.colorRow
  let framebuf ← Buffer.copyTo s.framebuf (line * GB_FB_STRIDE) GB_FB_STRIDE (packPixels lb.row)
  return { framebuf := framebuf, colorFramebuf := colorFramebuf }

def lineBufChecked (b : Bus σ) (line : Nat) : Option LineBuf := do
  let bgShades ← paletteShades b b.lcd.bgp
  let obj0Shades ← paletteShades b b.lcd.obp0
  let obj1Shades ← paletteShades b b.lcd.obp1
  let window := windowVisible b line
  let bgEnd := if window then b.lcd.wx.toNat - 7 else GB_W
  let lb ← drawBackgroundChecked b bgShades line bgEnd {}
  let lb ← if window then drawWindowChecked b bgShades lb else some lb
  drawSpritesChecked b (obj0Shades, obj1Shades) line lb

def renderLineChecked (b : Bus σ) (line : Nat) : Option (Bus σ) := do
  if ¬ hasBits b.lcd.lcdc 0x80 then return b
  else
    let lb ← lineBufChecked b line
    let screen ← storeLineChecked b.screen line lb
    return { b with
      screen := screen
      lcd := if windowVisible b line then { b.lcd with windowLine := b.lcd.windowLine + 1 } else b.lcd }

/-! ## Background and window inside their buffers -/

theorem applyPaletteChecked_eq (b : Bus σ) (palette : UInt8) (colorIdx : Nat) :
    applyPaletteChecked b palette colorIdx = some (applyPalette b palette colorIdx) :=
  if_pos (and_three_lt _)

/-- The decoded shades of a palette. -/
def shadesOf (b : Bus σ) (palette : UInt8) : List UInt8 := [0, 1, 2, 3].map (applyPalette b palette)

theorem paletteShades_eq (b : Bus σ) (palette : UInt8) :
    paletteShades b palette = some (shadesOf b palette) := by
  unfold paletteShades
  simp only [List.mapM_cons, List.mapM_nil, applyPaletteChecked_eq]
  rfl

theorem shadesOf_get (b : Bus σ) (palette : UInt8) :
    ∀ n < 4, (shadesOf b palette)[n]? = some (applyPalette b palette n)
  | 0, _ => rfl
  | 1, _ => rfl
  | 2, _ => rfl
  | 3, _ => rfl

theorem and_one_cases : ∀ v : UInt8, v &&& 1 = 0 ∨ v &&& 1 = 1 := fun ⟨v⟩ => by revert v; decide +kernel

theorem colorIndex_lt (lo hi : UInt8) (bit : Nat) : (colorIndex lo hi bit).toNat < 4 := by
  unfold colorIndex
  rcases and_one_cases (hi >>> UInt8.ofNat bit) with hh | hh
  · rcases and_one_cases (lo >>> UInt8.ofNat bit) with hl | hl
    · rw [hh, hl]; decide
    · rw [hh, hl]; decide
  · rcases and_one_cases (lo >>> UInt8.ofNat bit) with hl | hl
    · rw [hh, hl]; decide
    · rw [hh, hl]; decide

theorem tileAddr_le (lcdc tileIdx : UInt8) : tileAddr lcdc tileIdx ≤ 0x17F0 := by
  have hidx := tileIdx.toNat_lt
  have hlow := tileIdx.toInt8.le_toInt
  have hhigh := tileIdx.toInt8.toInt_lt
  unfold tileAddr
  split
  · omega
  · omega

theorem storePixel_eq (row : Nat → UInt8) {x : Nat} (h : x < GB_W) (v : UInt8) :
    storePixel row x v = some (Function.update row x v) :=
  if_pos h

theorem hasBits_zero (mask : UInt8) : hasBits 0 mask = false := by
  unfold hasBits
  rw [UInt8.zero_and]
  rfl

section
variable {b : Bus σ} (h : b.Sized)
include h

/-- Either bank of VRAM; the second one is there in CGB mode. -/
theorem Bus.Sized.loadTile {bank1 : Bool} (hbank : bank1 = true → b.cgb.isCgb = true) {i : Nat}
    (hi : i < GB_VRAM_SIZE) :
    (if bank1 = true then Buffer.loadOf b.mem.vram1 i else b.mem.vram.load i) =
      some (if bank1 = true then Buffer.byteOf b.mem.vram1 i else b.mem.vram.get i) := by
  split
  · rename_i hone
    obtain ⟨d, hd⟩ := Option.isSome_iff_exists.mp (h.cgb (hbank hone))
    exact Buffer.loadOf_eq hd (Nat.lt_of_lt_of_eq hi (h.vram1 d hd).symm)
  · exact Buffer.load_eq (Nat.lt_of_lt_of_eq hi h.vram.symm)

theorem fetchTileChecked_eq {mapOffset : Nat} (hmap : mapOffset < GB_VRAM_SIZE) (y : Nat) :
    fetchTileChecked b mapOffset y = some (fetchTile b mapOffset y) := by
  have hattr : (if b.cgb.isCgb then Buffer.loadOf b.mem.vram1 mapOffset else some 0) =
      some (if b.cgb.isCgb then Buffer.byteOf b.mem.vram1 mapOffset else 0) := by
    split
    · rename_i hcgb
      obtain ⟨d, hd⟩ := Option.isSome_iff_exists.mp (h.cgb hcgb)
      exact Buffer.loadOf_eq hd (Nat.lt_of_lt_of_eq hmap (h.vram1 d hd).symm)
    · rfl
  have hbank : hasBits (if b.cgb.isCgb then Buffer.byteOf b.mem.vram1 mapOffset else 0) 0x08 =
      true → b.cgb.isCgb = true := by
    intro hb
    by_contra hdmg
    rw [if_neg hdmg, hasBits_zero] at hb
    exact Bool.noConfusion hb
  have haddr := tileAddr_le b.lcd.lcdc (b.mem.vram.get mapOffset)
  unfold fetchTileChecked fetchTile
  rw [Checked.bind (Buffer.load_eq (Nat.lt_of_lt_of_eq hmap h.vram.symm)), Checked.bind hattr]
  dsimp only
  generalize (if b.cgb.isCgb then Buffer.byteOf b.mem.vram1 mapOffset else 0) = attr at hbank ⊢
  have hrow : (if hasBits attr 0x40 then 7 - y % 8 else y % 8) * 2 ≤ 14 := by
    split <;> omega
  generalize (if hasBits attr 0x40 then 7 - y % 8 else y % 8) * 2 = tileRow at hrow ⊢
  rw [Checked.bind (h.loadTile hbank (by unfold GB_VRAM_SIZE; omega))]
  exact Checked.bind (h.loadTile hbank (by unfold GB_VRAM_SIZE; omega)) _

omit h in
theorem plotBgChecked_eq (lb : LineBuf) (t : TileRow) {x : Nat} (hx : x < GB_W) (bit : Nat) :
    lb.plotBgChecked b (shadesOf b b.lcd.bgp) t x bit = some (lb.plotBg b t x bit) := by
  unfold LineBuf.plotBgChecked LineBuf.plotBg
  dsimp only
  rw [Checked.bind (storePixel_eq _ hx _), Checked.bind (shadesOf_get b b.lcd.bgp _ (colorIndex_lt _ _ _)),
    Checked.bind (storePixel_eq _ hx _)]
  split
  · exact Checked.bind (storePixel_eq _ hx _) _
  · rfl

omit h in
theorem drawTileChecked_eq (t : TileRow) (x sx : Nat) (lb : LineBuf) : ∀ n, x + n ≤ GB_W →
    drawTileChecked b (shadesOf b b.lcd.bgp) t x sx n lb = some (drawTile b t x sx n lb)
  | 0, _ => rfl
  | n + 1, hn => by
    unfold drawTileChecked drawTile
    rw [Checked.bind (drawTileChecked_eq t x sx lb n (by omega))]
    exact plotBgChecked_eq _ t (by omega) _

/-- A span whose tiles lie in the tile map. -/
theorem drawSpanChecked_eq {mapRow y limit : Nat} {column : Nat → Nat} (hlimit : limit ≤ GB_W)
    (hmap : ∀ x < limit, mapRow + column x / 8 < GB_VRAM_SIZE) : ∀ (fuel x : Nat) (lb : LineBuf),
      drawSpanChecked b (shadesOf b b.lcd.bgp) mapRow y limit column fuel x lb =
        some (drawSpan b mapRow y limit column fuel x lb)
  | 0, _, _ => rfl
  | fuel + 1, x, lb => by
    unfold drawSpanChecked drawSpan
    split
    · rename_i hx
      have hmod : column x % 8 < 8 := Nat.mod_lt _ (by decide)
      have hstop : x < min (x + 8 - column x % 8) limit := Nat.lt_min.mpr ⟨by omega, hx⟩
      have hle : min (x + 8 - column x % 8) limit ≤ limit := Nat.min_le_right _ _
      dsimp only
      rw [Checked.bind (fetchTileChecked_eq h (hmap x hx) y),
        Checked.bind (drawTileChecked_eq _ x _ lb _ (by omega))]
      exact drawSpanChecked_eq hlimit hmap fuel _ _
    · rfl

theorem drawBackgroundChecked_eq (line : Nat) {bgEnd : Nat} (hend : bgEnd ≤ GB_W) (lb : LineBuf) :
    drawBackgroundChecked b (shadesOf b b.lcd.bgp) line bgEnd lb =
      some (drawBackground b line bgEnd lb) := by
  unfold drawBackgroundChecked drawBackground
  dsimp only
  split
  · refine drawSpanChecked_eq h hend (fun x _ => ?_) _ _ _
    have hbase : (if hasBits b.lcd.lcdc 0x08 then 0x1C00 else 0x1800) ≤ 0x1C00 := by
      split <;> omega
    unfold GB_VRAM_SIZE
    omega
  · rfl

/-- The window's map row is in VRAM as long as its row counter counts the lines of one frame. -/
theorem drawWindowChecked_eq (hline : b.lcd.windowLine ≤ GB_H) (lb : LineBuf) :
    drawWindowChecked b (shadesOf b b.lcd.bgp) lb = some (drawWindow b lb) := by
  unfold drawWindowChecked drawWindow
  dsimp only
  refine drawSpanChecked_eq h (Nat.le_refl _) (fun x hx => ?_) _ _ _
  have hbase : (if hasBits b.lcd.lcdc 0x40 then 0x1C00 else 0x1800) ≤ 0x1C00 := by
    split <;> omega
  unfold GB_H at hline
  unfold GB_W at hx
  unfold GB_VRAM_SIZE
  omega

end

/-! ## The sprite list -/

/-- The first `n` entries of a sprite list, the last one first. -/
def slotsDown (visIdx : Buffer) : Nat → List Nat
  | 0 => []
  | n + 1 => (visIdx.get n).toNat :: slotsDown visIdx n

theorem slotsDown_succ (visIdx : Buffer) (n : Nat) :
    slotsDown visIdx (n + 1) = (visIdx.get n).toNat :: slotsDown visIdx n := rfl

theorem length_slotsDown (visIdx : Buffer) : ∀ n, (slotsDown visIdx n).length = n
  | 0 => rfl
  | n + 1 => congrArg (· + 1) (length_slotsDown visIdx n)

theorem slotsDown_congr {v v' : Buffer} : ∀ {n : Nat}, (∀ i < n, v'.get i = v.get i) →
    slotsDown v' n = slotsDown v n
  | 0, _ => rfl
  | n + 1, h => by
    rw [slotsDown_succ, slotsDown_succ, h n (Nat.lt_succ_self n),
      slotsDown_congr fun i hi => h i (Nat.lt_succ_of_lt hi)]

/-- An entry stored behind the first `n`. -/
theorem slotsDown_set {v : Buffer} {n : Nat} (hn : n < v.size) (i : UInt8) :
    slotsDown (v.set n i) (n + 1) = i.toNat :: slotsDown v n := by
  rw [slotsDown_succ, Buffer.get_set_self hn,
    slotsDown_congr fun j hj => Buffer.get_set_ne v (Nat.ne_of_lt hj) i]

instance (b : Bus σ) (line i : Nat) : Decidable (Covers b line i) := by unfold Covers; infer_instance

/-- The OAM entries that cover the line, out of the first `n`. -/
def coveringSprites (b : Bus σ) (line n : Nat) : List Nat :=
  (List.range n).filter fun i =>
    decide (spriteTop b.mem.oam i ≤ line ∧ (line : Int) < spriteTop b.mem.oam i + spriteHeight b.lcd)

theorem coveringSprites_succ (b : Bus σ) (line n : Nat) : coveringSprites b line (n + 1) =
    coveringSprites b line n ++ if Covers b line n then [n] else [] := by
  unfold coveringSprites Covers
  rw [List.range_succ, List.filter_append, List.filter_cons, List.filter_nil]
  simp only [decide_eq_true_eq]

/-- The scan has stored the first ten of the sprites that cover the line, and no more. -/
structure ScanOk (b : Bus σ) (line n : Nat) (visIdx : Buffer) (visCount : Nat) : Prop where
  size : visIdx.size = 10
  slots : slotsDown visIdx visCount = ((coveringSprites b line n).take 10).reverse

theorem ScanOk.count {b : Bus σ} {line n visCount : Nat} {visIdx : Buffer}
    (h : ScanOk b line n visIdx visCount) :
    visCount = min 10 (coveringSprites b line n).length := by
  have hlength := congrArg List.length h.slots
  rwa [length_slotsDown, List.length_reverse, List.length_take] at hlength

theorem scanOam_eq {b : Bus σ} (h : b.Sized) (line : Nat) : ∀ n ≤ 40,
    ∃ visIdx visCount, scanOam b line n = some (visIdx, visCount) ∧ ScanOk b line n visIdx visCount
  | 0, _ => ⟨.fill 10 0, 0, rfl, rfl, rfl⟩
  | n + 1, hn => by
    obtain ⟨visIdx, visCount, hscan, hok⟩ := scanOam_eq h line n (Nat.le_of_succ_le hn)
    have hcount := hok.count
    have hload := Buffer.load_eq (show n * 4 < b.mem.oam.size by rw [h.oam]; omega)
    have hsucc := coveringSprites_succ b line n
    unfold scanOam
    rw [Checked.bind hscan]
    dsimp only
    split
    · rename_i hfree
      -- fewer than ten so far: the list is complete
      have htake : (coveringSprites b line n).take 10 = coveringSprites b line n :=
        List.take_of_length_le (by omega)
      rw [Checked.bind hload]
      split
      · rename_i hmiss
        refine ⟨visIdx, visCount, rfl, hok.size, ?_⟩
        rw [hsucc, if_neg, List.append_nil]
        · exact hok.slots
        · rintro ⟨hlow, hhigh⟩
          unfold spriteTop at hlow hhigh
          omega
      · rename_i hcover
        have hcovers : Covers b line n := by
          unfold Covers spriteTop
          omega
        have hsize : visCount < visIdx.size := by
          rw [hok.size]
          exact hfree
        have hn256 : (UInt8.ofNat n).toNat = n := UInt8.toNat_ofNat_of_lt' (by show n < 256; omega)
        refine ⟨visIdx.set visCount (UInt8.ofNat n), visCount + 1, ?_, ?_, ?_⟩
        · exact Checked.bind (Buffer.put_eq hsize _) _
        · rw [Buffer.size_set, hok.size]
        · rw [slotsDown_set hsize, hn256, hok.slots, hsucc, if_pos hcovers, htake,
            List.take_of_length_le (by rw [List.length_append, List.length_singleton]; omega),
            List.reverse_append]
          rfl
    -- ten sprites already: the rest are left out
    · rename_i hfull
      refine ⟨visIdx, visCount, rfl, hok.size, ?_⟩
      rw [hok.slots, hsucc, List.take_append_of_le_length (by omega)]

/-- After the scan the list holds the line's visible sprites. -/
theorem ScanOk.visible {b : Bus σ} {line visCount : Nat} {visIdx : Buffer}
    (h : ScanOk b line 40 visIdx visCount) :
    slotsDown visIdx visCount = (visibleSprites b line).reverse :=
  h.slots

/-! ## The sort -/

section
variable {oam : Buffer} (hoam : oam.size = 0xA0)
include hoam

theorem insertSlot_eq {cur : UInt8} (hcur : cur.toNat < 40) :
    ∀ (j : Nat) (v : Buffer), v.size = 10 → j < 10 →
    (∀ i ∈ slotsDown v j, i < 40) → ∃ v', insertSlot oam cur (oam.get (cur.toNat * 4 + 1)) j v =
      some v' ∧ v'.size = 10 ∧
      slotsDown v' (j + 1) = insertSprite oam cur.toNat (slotsDown v j) ∧ ∀ k, j < k → v'.get k = v.get k
  | 0, v, hsize, _, _ => by
    have hput : 0 < v.size := by omega
    exact ⟨v.set 0 cur, Buffer.put_eq hput cur, (Buffer.size_set ..).trans hsize, slotsDown_set hput cur,
      fun k hk => Buffer.get_set_ne v (Nat.ne_of_gt hk) cur⟩
  | j + 1, v, hsize, hj, hslots => by
    have hprev : (v.get j).toNat < 40 := hslots _ List.mem_cons_self
    have hput : j + 1 < v.size := by omega
    have hloadX : oam.load ((v.get j).toNat * 4 + 1) = some _ := Buffer.load_eq (by rw [hoam]; omega)
    unfold insertSlot
    rw [Checked.bind (Buffer.load_eq (by omega)), Checked.bind hloadX]
    rw [slotsDown_succ v j]
    unfold insertSprite
    dsimp only
    have hlt : v.get j < cur ↔ (v.get j).toNat < cur.toNat := UInt8.lt_iff_toNat_lt
    simp only [hlt]
    split
    · refine ⟨v.set (j + 1) cur, Buffer.put_eq hput cur, (Buffer.size_set ..).trans hsize, ?_, ?_⟩
      · rw [slotsDown_set hput, slotsDown_succ]
      · exact fun k hk => Buffer.get_set_ne v (Nat.ne_of_gt hk) cur
    · -- the entry moves up, and the search goes on below it
      have hbelow : slotsDown (v.set (j + 1) (v.get j)) j = slotsDown v j :=
        slotsDown_congr fun i hi => Buffer.get_set_ne v (by omega) _
      obtain ⟨v', hins, hsize', hslots', hframe⟩ := insertSlot_eq hcur j (v.set (j + 1) (v.get j))
        ((Buffer.size_set ..).trans hsize) (by omega)
          (by rw [hbelow]; exact fun i hi => hslots i (List.mem_cons_of_mem _ hi))
      refine ⟨v', ?_, hsize', ?_, ?_⟩
      · rw [Checked.bind (Buffer.put_eq hput _)]
        exact hins
      · rw [slotsDown_succ, hframe (j + 1) (Nat.lt_succ_self j), Buffer.get_set_self hput, hslots', hbelow]
      · intro k hk
        rw [hframe k (by omega), Buffer.get_set_ne v (Nat.ne_of_gt hk)]

omit hoam in
theorem mem_foldl_insertSprite {i : Nat} : ∀ {vis order : List Nat},
    i ∈ vis.foldl (fun acc cur => insertSprite oam cur acc) order → i ∈ vis ∨ i ∈ order
  | [], _, h => .inr h
  | cur :: vis, order, h => by
    have hrest : i ∈ vis.foldl (fun acc cur => insertSprite oam cur acc) (insertSprite oam cur order) := h
    rcases mem_foldl_insertSprite hrest with h | h
    · exact .inl (List.mem_cons_of_mem _ h)
    · rcases mem_insertSprite.mp h with rfl | h
      · exact .inl List.mem_cons_self
      · exact .inr h

/-- The sort leaves the entries in the drawing order of the painter's loop. -/
theorem sortSlots_eq {v : Buffer} (hsize : v.size = 10) : ∀ n < 10, (∀ i ∈ slotsDown v (n + 1), i < 40) →
    ∃ v', sortSlots oam n v = some v' ∧ v'.size = 10 ∧
      slotsDown v' (n + 1) =
        (slotsDown v (n + 1)).reverse.foldl (fun acc cur => insertSprite oam cur acc) [] ∧
        ∀ k, n < k → v'.get k = v.get k
  | 0, _, _ => ⟨v, rfl, hsize, rfl, fun _ _ => rfl⟩
  | n + 1, hn, hslots => by
    rw [slotsDown_succ] at hslots
    have hcur := hslots _ List.mem_cons_self
    have hrest : ∀ i ∈ slotsDown v (n + 1), i < 40 := fun i hi => hslots i (List.mem_cons_of_mem _ hi)
    obtain ⟨v', hsort, hsize', hslots', hframe⟩ := sortSlots_eq hsize n (Nat.lt_of_succ_lt hn) hrest
    have hget := hframe (n + 1) (Nat.lt_succ_self n)
    have hsorted : ∀ i ∈ slotsDown v' (n + 1), i < 40 := by
      intro i hi
      rw [hslots'] at hi
      rcases mem_foldl_insertSprite hi with hi | hi
      · exact hrest i (List.mem_reverse.mp hi)
      · exact absurd hi List.not_mem_nil
    obtain ⟨v'', hins, hsize'', hslots'', hframe'⟩ := insertSlot_eq hoam hcur (n + 1) v' hsize' hn hsorted
    refine ⟨v'', ?_, hsize'', ?_, fun k hk => (hframe' k hk).trans (hframe k (Nat.lt_of_succ_lt hk))⟩
    · unfold sortSlots
      rw [Checked.bind hsort, Checked.bind (Buffer.load_eq (by omega)), hget]
      rw [Checked.bind (Buffer.load_eq (by rw [hoam]; omega))]
      exact hins
    · rw [hslots'', hslots', slotsDown_succ v (n + 1), List.reverse_cons, List.foldl_append]
      rfl

end

/-! ## Sprites inside their buffers -/

section
variable {b : Bus σ} (h : b.Sized)
include h

/-- The four bytes of an OAM entry. -/
theorem Bus.Sized.oam_lt {i k : Nat} (hi : i < 40) (hk : k < 4) : i * 4 + k < b.mem.oam.size := by
  rw [h.oam]
  omega

theorem fetchSpriteChecked_eq {i line : Nat} (hi : i < 40) (hcovers : Covers b line i) :
    fetchSpriteChecked b i line = some (fetchSprite b i line) := by
  -- the line is inside the sprite, so the row is inside the tile
  have hrow : ((line : Int) - spriteTop b.mem.oam i).toNat < spriteHeight b.lcd := by
    obtain ⟨hlow, hhigh⟩ := hcovers
    omega
  have htile := (b.mem.oam.get (i * 4 + 2)).toNat_lt
  have heven : (b.mem.oam.get (i * 4 + 2) &&& 0xFE).toNat < 255 := by
    rw [UInt8.toNat_and]
    exact and_lt_of_lt _ (by decide)
  unfold fetchSpriteChecked fetchSprite
  have htile0 : i * 4 < b.mem.oam.size := h.oam_lt hi (show 0 < 4 by decide)
  rw [Checked.bind (Buffer.load_eq htile0),
    Checked.bind (Buffer.load_eq (h.oam_lt hi (show 2 < 4 by decide))),
    Checked.bind (Buffer.load_eq (h.oam_lt hi (show 3 < 4 by decide)))]
  dsimp only
  have htop : ((line : Int) - (((b.mem.oam.get (i * 4)).toNat : Int) - 16)).toNat =
      ((line : Int) - spriteTop b.mem.oam i).toNat := rfl
  rw [htop]
  generalize ((line : Int) - spriteTop b.mem.oam i).toNat = row at hrow ⊢
  have hflip : (if hasBits (b.mem.oam.get (i * 4 + 3)) 0x40 then spriteHeight b.lcd - 1 - row
      else row) < spriteHeight b.lcd := by
    split <;> omega
  generalize (if hasBits (b.mem.oam.get (i * 4 + 3)) 0x40 then spriteHeight b.lcd - 1 - row
    else row) = row at hflip ⊢
  -- every tile lies in the low part of VRAM
  have haddr : (if spriteHeight b.lcd = 16 then (b.mem.oam.get (i * 4 + 2) &&& 0xFE).toNat +
      (if 8 ≤ row then 1 else 0)
      else (b.mem.oam.get (i * 4 + 2)).toNat) * 16 + (if spriteHeight b.lcd = 16 then row % 8
        else row) * 2 + 1 < GB_VRAM_SIZE := by
    unfold GB_VRAM_SIZE
    rcases spriteHeight_cases b.lcd with hh | hh
    · rw [hh] at hflip ⊢
      simp only [(by decide : ¬ (8 : Nat) = 16), if_false]
      omega
    · rw [hh]
      simp only [if_true]
      split <;> omega
  generalize (if spriteHeight b.lcd = 16 then (b.mem.oam.get (i * 4 + 2) &&& 0xFE).toNat +
      (if 8 ≤ row then 1 else 0)
      else (b.mem.oam.get (i * 4 + 2)).toNat) * 16 + (if spriteHeight b.lcd = 16 then row % 8
        else row) * 2 = addr at haddr ⊢
  have hfetch : ∀ k < GB_VRAM_SIZE,
      (if b.cgb.isCgb = true ∧ hasBits (b.mem.oam.get (i * 4 + 3)) 0x08 = true then
      Buffer.loadOf b.mem.vram1 k else b.mem.vram.load k) =
        some (if b.cgb.isCgb = true ∧ hasBits (b.mem.oam.get (i * 4 + 3)) 0x08 = true then
      Buffer.byteOf b.mem.vram1 k else b.mem.vram.get k) := by
    intro k hk
    split
    · rename_i hbank
      obtain ⟨d, hd⟩ := Option.isSome_iff_exists.mp (h.cgb hbank.1)
      exact Buffer.loadOf_eq hd (Nat.lt_of_lt_of_eq hk (h.vram1 d hd).symm)
    · exact Buffer.load_eq (Nat.lt_of_lt_of_eq hk h.vram.symm)
  rw [Checked.bind (hfetch addr (Nat.lt_of_succ_lt haddr))]
  exact Checked.bind (hfetch (addr + 1) haddr) _

/-- The decoded palettes of the sprites. -/
def objShadesOf (b : Bus σ) : List UInt8 × List UInt8 := (shadesOf b b.lcd.obp0, shadesOf b b.lcd.obp1)

theorem plotSpriteChecked_eq {i : Nat} (hi : i < 40) (planes : UInt8 × UInt8) (px : Nat) (lb : LineBuf) :
    plotSpriteChecked b (objShadesOf b) i planes px lb = some (plotSprite b i planes px lb) := by
  unfold plotSpriteChecked plotSprite
  rw [Checked.bind (Buffer.load_eq (h.oam_lt hi (show 1 < 4 by decide))),
    Checked.bind (Buffer.load_eq (h.oam_lt hi (show 3 < 4 by decide)))]
  dsimp only
  split
  · rfl
  rename_i hscreen
  -- the pixel is on the screen
  have hx : ((b.mem.oam.get (i * 4 + 1)).toNat - 8 + px : Int).toNat < GB_W := by
    unfold GB_W at hscreen ⊢
    omega
  generalize ((b.mem.oam.get (i * 4 + 1)).toNat - 8 + px : Int).toNat = x at hx ⊢
  have hidx := colorIndex_lt planes.1 planes.2 (if hasBits (b.mem.oam.get (i * 4 + 3)) 0x20 then px
    else 7 - px)
  generalize colorIndex planes.1 planes.2 (if hasBits (b.mem.oam.get (i * 4 + 3)) 0x20 then px
    else 7 - px) = idx at hidx ⊢
  by_cases hzero : idx = 0
  · rw [if_pos hzero, if_pos (.inl hzero)]
    rfl
  have hpriority : loadPixel lb.bgPriority x = some (lb.bgPriority x) := if_pos hx
  rw [if_neg hzero, Checked.bind hpriority]
  by_cases hhidden : spriteHidden b (hasBits (b.mem.oam.get (i * 4 + 3)) 0x80) (lb.bgPriority x) = true
  · rw [if_pos hhidden, if_pos (.inr hhidden)]
    rfl
  have hshade :
      (if hasBits (b.mem.oam.get (i * 4 + 3)) 0x10 then (objShadesOf b).2
      else (objShadesOf b).1)[idx.toNat]? =
      some (applyPalette b (if hasBits (b.mem.oam.get (i * 4 + 3)) 0x10 then b.lcd.obp1
        else b.lcd.obp0) idx.toNat) := by
    split
    · exact shadesOf_get b b.lcd.obp1 _ hidx
    · exact shadesOf_get b b.lcd.obp0 _ hidx
  rw [if_neg hhidden, if_neg (not_or.mpr ⟨hzero, hhidden⟩), Checked.bind hshade,
    Checked.bind (storePixel_eq _ hx _)]
  split
  · exact Checked.bind (storePixel_eq _ hx _) _
  · rfl

theorem drawSpriteChecked_eq {i line : Nat} (hi : i < 40) (hcovers : Covers b line i) (lb : LineBuf) :
    drawSpriteChecked b (objShadesOf b) line lb i = some (drawSprite b line lb i) := by
  unfold drawSpriteChecked drawSprite
  rw [Checked.bind (fetchSpriteChecked_eq h hi hcovers)]
  exact Checked.foldlM (fun lb px _ => plotSpriteChecked_eq h hi _ px lb) lb

theorem drawSlots_eq {visIdx : Buffer} (hsize : visIdx.size = 10) {line : Nat} :
    ∀ n ≤ 10, (∀ i ∈ slotsDown visIdx n, i < 40 ∧ Covers b line i) →
    ∀ lb, drawSlots b (objShadesOf b) line visIdx n lb =
      some ((slotsDown visIdx n).foldl (drawSprite b line) lb)
  | 0, _, _, _ => rfl
  | n + 1, hn, hslots, lb => by
    rw [slotsDown_succ] at hslots ⊢
    obtain ⟨hi, hcovers⟩ := hslots _ List.mem_cons_self
    unfold drawSlots
    rw [Checked.bind (Buffer.load_eq (by omega)), Checked.bind (drawSpriteChecked_eq h hi hcovers lb)]
    exact drawSlots_eq hsize n (Nat.le_of_succ_le hn) (fun i hi => hslots i (List.mem_cons_of_mem _ hi)) _

theorem drawSpritesChecked_eq (line : Nat) (lb : LineBuf) :
    drawSpritesChecked b (objShadesOf b) line lb = some (drawSprites b line lb) := by
  unfold drawSpritesChecked drawSprites
  split
  · obtain ⟨visIdx, visCount, hscan, hok⟩ := scanOam_eq h line 40 (Nat.le_refl _)
    have hcount : visCount ≤ 10 := by
      rw [hok.count]
      exact Nat.min_le_left _ _
    have hvisible : ∀ i ∈ visibleSprites b line, i < 40 ∧ Covers b line i := fun i hi =>
      ⟨List.mem_range.mp (List.mem_filter.mp (List.mem_of_mem_take hi)).1, covers_of_visible hi⟩
    have hslots := hok.visible
    rw [Checked.bind hscan]
    dsimp only
    split
    -- on CGB the OAM order stays, and the last is drawn first
    · rename_i hcgb
      have horder : drawOrder b line = slotsDown visIdx visCount := by
        rw [hslots]
        exact if_pos hcgb
      rw [horder]
      refine drawSlots_eq h hok.size visCount hcount (fun i hi => ?_) lb
      rw [hslots] at hi
      exact hvisible i (List.mem_reverse.mp hi)
    -- otherwise the list is sorted by x before
    · rename_i hdmg
      have horder :
          drawOrder b line = (slotsDown visIdx visCount).reverse.foldl
          (fun acc cur => insertSprite b.mem.oam cur acc) [] := by
        rw [hslots, List.reverse_reverse]
        exact if_neg hdmg
      rw [horder]
      cases visCount with
      | zero => rfl
      | succ n =>
        obtain ⟨v', hsort, hsize', hslots', -⟩ := sortSlots_eq h.oam hok.size n hcount fun i hi => by
          rw [hslots] at hi
          exact (hvisible i (List.mem_reverse.mp hi)).1
        rw [Nat.add_sub_cancel, Checked.bind hsort, ← hslots']
        refine drawSlots_eq h hsize' (n + 1) hcount (fun i hi => ?_) lb
        rw [hslots'] at hi
        rcases mem_foldl_insertSprite hi with hi | hi
        · rw [hslots, List.reverse_reverse] at hi
          exact hvisible i hi
        · exact absurd hi List.not_mem_nil
  · rfl

/-! ## The line inside its buffers -/

omit h in
theorem Buffer.copyTo_eq {d : Option Buffer} {size off n : Nat} (hd : OfSize d size)
    (hfit : off + n ≤ size) (f : Nat → UInt8) :
    copyTo d off n f = some (d.map fun d => d.blit off n f) := by
  unfold copyTo
  cases d with
  | none => rfl
  | some d =>
    dsimp only
    rw [Buffer.copy_eq (by rw [hd d rfl]; exact hfit)]
    rfl

theorem storeLineChecked_eq {line : Nat} (hline : line < GB_H) (lb : LineBuf) :
    storeLineChecked b.screen line lb = some (storeLine b.screen line lb) := by
  have hcolor : line * GB_W + GB_W ≤ GB_W * GB_H := by
    unfold GB_W
    unfold GB_H at hline ⊢
    omega
  have hpacked : line * GB_FB_STRIDE + GB_FB_STRIDE ≤ GB_FB_SIZE := by
    unfold GB_FB_STRIDE GB_FB_SIZE GB_W
    unfold GB_H at hline ⊢
    omega
  unfold storeLineChecked
  rw [Checked.bind (Buffer.copyTo_eq h.colorFramebuf hcolor _)]
  exact Checked.bind (Buffer.copyTo_eq h.framebuf hpacked _) _

theorem lineBufChecked_eq (hwindow : b.lcd.windowLine ≤ GB_H) (line : Nat) :
    lineBufChecked b line = some (lineBuf b line) := by
  unfold lineBufChecked lineBuf
  rw [Checked.bind (paletteShades_eq b b.lcd.bgp), Checked.bind (paletteShades_eq b b.lcd.obp0),
    Checked.bind (paletteShades_eq b b.lcd.obp1)]
  dsimp only
  have hend : (if windowVisible b line then b.lcd.wx.toNat - 7 else GB_W) ≤ GB_W := by
    split
    · rename_i hvisible
      unfold windowVisible at hvisible
      simp only [Bool.and_eq_true, decide_eq_true_eq] at hvisible
      have hwx : b.lcd.wx.toNat ≤ 166 := UInt8.le_iff_toNat_le.mp hvisible.2
      unfold GB_W
      omega
    · exact Nat.le_refl _
  rw [Checked.bind (drawBackgroundChecked_eq h line hend _)]
  split
  · rw [Checked.bind (drawWindowChecked_eq h hwindow _)]
    exact drawSpritesChecked_eq h line _
  · exact drawSpritesChecked_eq h line _

/-- A line of the screen is drawn inside the buffers. -/
theorem renderLineChecked_eq (hwindow : b.lcd.windowLine ≤ GB_H) {line : Nat} (hline : line < GB_H) :
    renderLineChecked b line = some (renderLine b line) := by
  unfold renderLineChecked renderLine
  split
  · rfl
  · rw [Checked.bind (lineBufChecked_eq h hwindow line)]
    exact Checked.bind (storeLineChecked_eq h hline _) _

end

end FoloGameboy

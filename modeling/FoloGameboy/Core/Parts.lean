/-
The parts of the machine a guest does not see: how the ROM is reached, the framebuffers and the
render flag. Everything else computes the same whatever these parts are, so a relation of the parts
that ROM reads, mapper writes and drawn lines keep puts two emulators in lockstep.
-/
import FoloGameboy.Core.Lockstep

namespace FoloGameboy

variable {σ : Type} {env : Env σ}

/-- The bus with other parts. -/
def Bus.swap (b : Bus σ) (r : RomAccess) (s : Screen) (render : Bool) : Bus σ :=
  { b with rom := r, screen := s, renderThisFrame := render }

/-- The environment with other read failures. -/
def Env.failing (env : Env σ) (fails : Nat → Option (Nat → UInt8)) : Env σ := { env with romReadFails := fails }

section
variable (fails : Nat → Option (Nat → UInt8)) (r : RomAccess) (s : Screen) (render : Bool)

/-! ## Reads -/

theorem readExternalRam_swap (addr : UInt16) (b : Bus σ) :
    readExternalRam (env.failing fails) addr (b.swap r s render) =
      ((readExternalRam env addr b).1, (readExternalRam env addr b).2.swap r s render) := by
  unfold readExternalRam Bus.swap
  dsimp only
  repeat' split
  all_goals rfl

theorem readIo_swap (addr : UInt16) (b : Bus σ) :
    readIo (env.failing fails) addr (b.swap r s render) = readIo env addr b := by
  unfold readIo readSound Env.failing Bus.swap
  dsimp only

theorem readWram_swap (addr : Nat) (b : Bus σ) : readWram addr (b.swap r s render) = readWram addr b := by
  unfold readWram wramBanked Bus.swap
  dsimp only

/-- Reads above the ROM do not depend on the parts. -/
theorem readByteSlow_swap {addr : UInt16} (h : ¬ addr < 0x8000) (b : Bus σ) :
    readByteSlow (env.failing fails) addr (b.swap r s render) =
      ((readByteSlow env addr b).1, (readByteSlow env addr b).2.swap r s render) := by
  have hlow : ¬ addr < 0x4000 := fun hl => h (UInt16.lt_trans hl (by decide))
  unfold readByteSlow
  rw [if_neg hlow, if_neg hlow, if_neg h, if_neg h]
  split
  · unfold Bus.swap
    dsimp only
    cases b.mem.vram1 with
    | none => rfl
    | some bank1 => dsimp only; split <;> rfl
  split
  · exact readExternalRam_swap fails r s render addr b
  split
  · rw [readWram_swap]
  split
  · rw [readWram_swap]
  split
  · rfl
  split
  · rfl
  · rw [readIo_swap]

variable (env) in
theorem readByte_swap {addr : UInt16} (h : ¬ addr < 0x8000) (b : Bus σ) :
    readByte (env.failing fails) addr (b.swap r s render) =
      ((readByte env addr b).1, (readByte env addr b).2.swap r s render) := by
  unfold readByte readByteRam
  rw [if_neg h, if_neg h]
  split
  · rfl
  · show (if (0xC000 ≤ addr ∧ addr < 0xE000) ∧
      (addr < 0xD000 ∨ ¬ b.cgb.isCgb = true ∨ b.cgb.wramBank < 2 ∨
        b.mem.wramExtra.isNone = true) then _ else _) = _
    split
    · rfl
    · exact readByteSlow_swap fails r s render h b

/-- A read of the ROM moves the bank cache only. -/
theorem readByte_low (env : Env σ) {addr : UInt16} (h : addr < 0x8000) (b : Bus σ) :
    (readByte env addr b).2 = { b with rom := (readByte env addr b).2.rom } := by
  unfold readByte
  rw [if_pos h]
  split
  · rfl
  · unfold readByteSlow
    split
    · unfold readRomLow
      dsimp only
      repeat' split
      all_goals rfl
    · unfold readRomHigh
      dsimp only
      split <;> rfl

/-! ## Writes -/

theorem checkStatInterrupt_swap (b : Bus σ) :
    checkStatInterrupt (b.swap r s render) = (checkStatInterrupt b).swap r s render := by
  unfold checkStatInterrupt Bus.swap
  dsimp only
  split <;> rfl

theorem writeSerialControl_swap (val : UInt8) (b : Bus σ) :
    writeSerialControl val (b.swap r s render) = (writeSerialControl val b).swap r s render := by
  unfold writeSerialControl Bus.swap
  dsimp only
  split <;> rfl

theorem writeVram_swap (addr : UInt16) (val : UInt8) (b : Bus σ) :
    writeVram addr val (b.swap r s render) = (writeVram addr val b).swap r s render := by
  have hbank : (b.swap r s render).mem.vram1 = b.mem.vram1 := rfl
  unfold writeVram
  rw [hbank]
  cases b.mem.vram1 with
  | none => rfl
  | some bank1 =>
    show (if b.cgb.isCgb = true ∧ b.cgb.vramBank ≠ 0 then _ else _) = _
    split <;> rfl

theorem writeExternalRam_swap (addr : UInt16) (val : UInt8) (b : Bus σ) :
    writeExternalRam addr val (b.swap r s render) = (writeExternalRam addr val b).swap r s render := by
  unfold writeExternalRam Bus.swap
  dsimp only
  repeat' split
  all_goals rfl

theorem writeWram_swap (addr : Nat) (val : UInt8) (b : Bus σ) :
    writeWram addr val (b.swap r s render) = (writeWram addr val b).swap r s render := by
  unfold writeWram
  split
  · rfl
  · show (if wramBanked b = true then _ else _) = _
    split <;> rfl

variable (env) in
theorem writeMemory_swap {addr : UInt16} (h : ¬ addr < 0x8000) (val : UInt8) (b : Bus σ) :
    writeMemory (env.failing fails) addr val (b.swap r s render) =
      (writeMemory env addr val b).swap r s render := by
  unfold writeMemory
  rw [if_neg h, if_neg h]
  split
  · exact writeVram_swap r s render addr val b
  split
  · exact writeExternalRam_swap r s render addr val b
  split
  · exact writeWram_swap r s render addr.toNat val b
  split
  · exact writeWram_swap r s render (addr.toNat - 0x2000) val b
  split <;> rfl

/-- Switching the LCD off blanks whatever screen there is. -/
theorem writeLcdc_swap (val : UInt8) (b : Bus σ) :
    writeLcdc val (b.swap r s render) = (writeLcdc val b).swap r
      (if hasBits b.lcd.lcdc 0x80 ≠ hasBits val 0x80 ∧ hasBits val 0x80 = false then blankScreen s
        else s) render := by
  unfold writeLcdc
  show (if hasBits b.lcd.lcdc 0x80 ≠ hasBits val 0x80 then _ else _) = _
  by_cases h : hasBits b.lcd.lcdc 0x80 ≠ hasBits val 0x80
  · rw [if_pos h, if_pos h]
    by_cases hv : hasBits val 0x80 = true
    · rw [if_pos hv, if_pos hv, if_neg fun hc => Bool.noConfusion (hv.symm.trans hc.2)]
      exact checkStatInterrupt_swap r s render { b with lcd := toggleLcd b.lcd val }
    · rw [if_neg hv, if_neg hv, if_pos ⟨h, eq_false_of_ne_true hv⟩]
      exact checkStatInterrupt_swap r (blankScreen s) render
        { b with lcd := toggleLcd b.lcd val, screen := blankScreen b.screen }
  · rw [if_neg h, if_neg h, if_neg fun hc => h hc.1]
    rfl

variable (env) in
/-- The register writes other than LCDC and the two DMA transfers. -/
theorem writeIo_swap {addr : UInt16} (val : UInt8) (hlcdc : addr ≠ 0xFF40) (hdma : addr ≠ 0xFF46)
    (hhdma : addr ≠ 0xFF55)
    (b : Bus σ) : writeIo (env.failing fails) addr val (b.swap r s render) =
      (writeIo env addr val b).swap r s render := by
  have hl : addr.toNat ≠ 0xFF40 := fun hn => hlcdc (UInt16.toNat_inj.mp hn)
  have hd : addr.toNat ≠ 0xFF46 := fun hn => hdma (UInt16.toNat_inj.mp hn)
  have hh : addr.toNat ≠ 0xFF55 := fun hn => hhdma (UInt16.toNat_inj.mp hn)
  unfold writeIo writeSound Env.failing Bus.swap
  dsimp only
  split
  · rfl
  · generalize addr.toNat = n at hl hd hh
    split
    all_goals try dsimp only
    case h_3 => exact writeSerialControl_swap r s render val b
    case h_9 => exact absurd rfl hl
    case h_10 =>
      exact checkStatInterrupt_swap r s render { b with
        lcd := { b.lcd with lcdstat := (b.lcd.lcdstat &&& (0x07 : UInt8)) ||| (val &&& 0x78) } }
    case h_11 => exact checkStatInterrupt_swap r s render { b with lcd := { b.lcd with lyc := val } }
    case h_12 => exact absurd rfl hd
    case h_20 => exact absurd rfl hh
    · split <;> rfl

theorem writeMemory_self {addr : UInt16} (h : ¬ addr < 0x8000) (val : UInt8) (b : Bus σ) :
    writeMemory env addr val b = (writeMemory env addr val b).swap b.rom b.screen b.renderThisFrame :=
  writeMemory_swap env env.romReadFails b.rom b.screen b.renderThisFrame h val b

theorem writeIo_self {addr : UInt16} (val : UInt8) (hlcdc : addr ≠ 0xFF40) (hdma : addr ≠ 0xFF46)
    (hhdma : addr ≠ 0xFF55) (b : Bus σ) :
    writeIo env addr val b = (writeIo env addr val b).swap b.rom b.screen b.renderThisFrame :=
  writeIo_swap env env.romReadFails b.rom b.screen b.renderThisFrame val hlcdc hdma hhdma b

theorem writeLcdc_self (val : UInt8) (b : Bus σ) : writeLcdc val b = (writeLcdc val b).swap b.rom
    (if hasBits b.lcd.lcdc 0x80 ≠ hasBits val 0x80 ∧ hasBits val 0x80 = false then blankScreen
      b.screen else b.screen)
    b.renderThisFrame :=
  writeLcdc_swap b.rom b.screen b.renderThisFrame val b

def setOam (n : Nat) (v : UInt8) (b : Bus σ) : Bus σ := { b with mem := { b.mem with oam := b.mem.oam.set n v } }

theorem setOam_swap (r : RomAccess) (s : Screen) (render : Bool) (n : Nat) (v : UInt8) (b : Bus σ) :
    setOam n v (b.swap r s render) = (setOam n v b).swap r s render := rfl

theorem setOam_self (n : Nat) (v : UInt8) (b : Bus σ) :
    setOam n v b = (setOam n v b).swap b.rom b.screen b.renderThisFrame := rfl

theorem setOam_quiet (n : Nat) (v : UInt8) (b : Bus σ) : Quiet b (setOam n v b) :=
  ⟨rfl, .refl _, rfl, rfl, .refl _, rfl, rfl, fun _ => rfl⟩

theorem oamDma_succ (val : UInt8) (n : Nat) (b : Bus σ) : oamDma env val (n + 1) b =
    setOam n (readByte env ((val.toUInt16 <<< 8) ||| UInt16.ofNat n) (oamDma env val n b)).1
      (readByte env ((val.toUInt16 <<< 8) ||| UInt16.ofNat n) (oamDma env val n b)).2 := rfl

/-- The destinations of the general DMA are above the ROM. -/
theorem vram_addr {dst n : Nat} (hdst : 0x8000 ≤ dst) (hlt : dst + n < 0xA000) :
    ¬ UInt16.ofNat (dst + n) < 0x8000 := by
  rw [UInt16.lt_iff_toNat_lt, UInt16.toNat_ofNat']
  have : (0x8000 : UInt16).toNat = 0x8000 := rfl
  omega

/-! ## The ROM access of a single run -/

section
variable {Q : RomAccess → Prop} (hread : ∀ addr (b : Bus σ), Q b.rom → Q (readByte env addr b).2.rom)
  (hrefresh : ∀ m r, Q r → Q (refreshMappedRomBanks m r))

include hread

theorem oamDma_rom (val : UInt8) : ∀ (n : Nat) {b : Bus σ}, Q b.rom → Q (oamDma env val n b).rom
  | 0, _, h => h
  | n + 1, b, h => by
    rw [oamDma_succ, setOam_self]
    exact hread _ _ (oamDma_rom val n h)

theorem hdmaLoop_rom {src dst : Nat} (hdst : 0x8000 ≤ dst) : ∀ (n : Nat) {b : Bus σ}, Q b.rom →
    Q (hdmaLoop env src dst n b).rom
  | 0, _, h => h
  | n + 1, b, h => by
    unfold hdmaLoop
    dsimp only
    split
    · rename_i hlt
      rw [writeMemory_self (vram_addr hdst hlt)]
      exact hread _ _ (hdmaLoop_rom hdst n h)
    · exact hdmaLoop_rom hdst n h

include hrefresh

/-- What reads and mapper writes keep of the ROM access, every write keeps. -/
theorem writeByte_rom (addr : UInt16) (val : UInt8) {b : Bus σ} (h : Q b.rom) :
    Q (writeByte env addr val b).rom := by
  unfold writeByte
  split
  · by_cases haddr : addr < 0x8000
    · unfold writeMemory
      rw [if_pos haddr]
      exact hrefresh _ _ h
    · rw [writeMemory_self haddr]
      exact h
  · by_cases hlcdc : addr = 0xFF40
    · subst hlcdc
      show Q (writeLcdc val b).rom
      rw [writeLcdc_self]
      exact h
    by_cases hdma : addr = 0xFF46
    · subst hdma
      exact oamDma_rom hread val 0xA0 h
    by_cases hhdma : addr = 0xFF55
    · subst hhdma
      show Q (writeHdma5 env val b).rom
      unfold writeHdma5
      dsimp only
      split
      · exact h
      split
      · exact h
      · exact hdmaLoop_rom hread (hdmaDst_ge _ _) _ h
    · rw [writeIo_self val hlcdc hdma hhdma]
      exact h

theorem busStep_rom (o : BusOp) {b : Bus σ} (h : Q b.rom) : Q (busStep env o b).2.rom := by
  cases o with
  | read addr => exact hread addr b h
  | write addr val => exact writeByte_rom hread hrefresh addr val h
  | pending => exact h
  | acknowledge mask => exact h
  | stop => exact h

end

/-! ## Lines -/

theorem drawTile_swap (b : Bus σ) (t : TileRow) (x sx : Nat) :
    ∀ (n : Nat) (lb : LineBuf), drawTile (b.swap r s render) t x sx n lb = drawTile b t x sx n lb
  | 0, _ => rfl
  | n + 1, lb => by
    unfold drawTile
    rw [drawTile_swap b t x sx n lb]
    rfl

theorem drawSpan_swap (b : Bus σ) (mapRow y limit : Nat) (column : Nat → Nat) :
    ∀ (fuel x : Nat) (lb : LineBuf),
    drawSpan (b.swap r s render) mapRow y limit column fuel x lb =
      drawSpan b mapRow y limit column fuel x lb
  | 0, _, _ => rfl
  | fuel + 1, x, lb => by
    have htile : fetchTile (b.swap r s render) = fetchTile b := rfl
    unfold drawSpan
    rw [htile]
    simp only [drawTile_swap, drawSpan_swap b mapRow y limit column fuel]

theorem drawSprites_swap (line : Nat) (b : Bus σ) :
    drawSprites (b.swap r s render) line = drawSprites b line := by
  have hplot : plotSprite (b.swap r s render) = plotSprite b := rfl
  have hfetch : fetchSprite (b.swap r s render) = fetchSprite b := rfl
  have horder : drawOrder (b.swap r s render) line = drawOrder b line := rfl
  have hsprite : drawSprite (b.swap r s render) line = drawSprite b line := by
    unfold drawSprite
    rw [hplot, hfetch]
  unfold drawSprites
  rw [hsprite, horder]
  rfl

/-- The pixels of a line come from the memory and the registers. -/
theorem lineBuf_swap (line : Nat) (b : Bus σ) : lineBuf (b.swap r s render) line = lineBuf b line := by
  have hwin : windowVisible (b.swap r s render) line = windowVisible b line := rfl
  unfold lineBuf drawBackground drawWindow
  rw [drawSprites_swap, hwin]
  simp only [drawSpan_swap]
  rfl

/-- The line a PPU update finishes, with its pixels, unless it is in the first frame after the LCD
was switched on. -/
def finishedLine (b : Bus σ) : Option (Nat × LineBuf) :=
  if b.lcd.ly < 144 ∧ b.lcd.ppuMode = 3 ∧ 252 ≤ b.lcd.ppuDots ∧ ¬ b.lcd.lcdFirstFrame then
    some (b.lcd.ly.toNat, lineBuf b b.lcd.ly.toNat)
  else none

/-- The screen after a finished line, with and without output. -/
def Screen.draw (s : Screen) (render : Bool) : Option (Nat × LineBuf) → Screen
  | some (line, lb) => if render then storeLine s line lb else s
  | none => s

/-- The bus when the PPU update of `dots` comes to its drawing step. -/
def beforeHBlank (dots : Int) (b : Bus σ) : Bus σ :=
  enterTransfer { b with lcd := { b.lcd with ppuDots := b.lcd.ppuDots + dots } }

theorem beforeHBlank_on (dots : Int) {b : Bus σ} (hon : LcdOn b.lcd) : LcdOn (beforeHBlank dots b).lcd := by
  unfold beforeHBlank enterTransfer
  split
  · exact (checkStatInterrupt_position _).enabled.trans hon
  · exact hon

theorem enterTransfer_swap (b : Bus σ) :
    enterTransfer (b.swap r s render) = (enterTransfer b).swap r s render := by
  unfold enterTransfer
  show (if b.lcd.ly < 144 ∧ b.lcd.ppuMode = 2 ∧ 80 ≤ b.lcd.ppuDots then _ else _) = _
  split
  · exact checkStatInterrupt_swap r s render { b with lcd := { b.lcd with ppuMode := 3 } }
  · rfl

/-- Drawing and skipping a line advance the window's row counter alike. -/
theorem finishLine_eq {b : Bus σ} (hon : LcdOn b.lcd) : finishLine b =
    { b with
      screen := if b.renderThisFrame ∧ ¬ b.lcd.lcdFirstFrame then
          storeLine b.screen b.lcd.ly.toNat (lineBuf b b.lcd.ly.toNat) else b.screen
      lcd := if windowVisible b b.lcd.ly.toNat then { b.lcd with
        windowLine := b.lcd.windowLine + 1 } else b.lcd } := by
  unfold LcdOn at hon
  unfold finishLine renderLine
  rw [if_neg (not_not.mpr hon)]
  split
  · rfl
  · split <;> rfl

theorem finishLine_swap {b : Bus σ} (hon : LcdOn b.lcd) : finishLine (b.swap r s render) =
    (finishLine b).swap r (if render ∧ ¬ b.lcd.lcdFirstFrame then
      storeLine s b.lcd.ly.toNat (lineBuf b b.lcd.ly.toNat) else s) render := by
  have hon' : LcdOn (b.swap r s render).lcd := hon
  rw [finishLine_eq hon', finishLine_eq hon, lineBuf_swap]
  rfl

theorem draw_finished {b : Bus σ} (h : b.lcd.ly < 144 ∧ b.lcd.ppuMode = 3 ∧ 252 ≤ b.lcd.ppuDots) :
    s.draw render (finishedLine b) = if render ∧ ¬ b.lcd.lcdFirstFrame then
      storeLine s b.lcd.ly.toNat (lineBuf b b.lcd.ly.toNat) else s := by
  unfold finishedLine
  by_cases hf : b.lcd.lcdFirstFrame = true
  · rw [if_neg fun hc => hc.2.2.2 hf, if_neg fun hc => hc.2 hf]
    rfl
  · rw [if_pos ⟨h.1, h.2.1, h.2.2, hf⟩]
    unfold Screen.draw
    cases render with
    | true => rw [if_pos ⟨rfl, hf⟩]; rfl
    | false => rw [if_neg fun hc => Bool.noConfusion hc.1]; rfl

/-- Drawing the line a PPU update finishes changes the screen only. -/
theorem enterHBlank_swap {b : Bus σ} (hon : LcdOn b.lcd) : enterHBlank (b.swap r s render) =
    (enterHBlank b).swap r (s.draw render (finishedLine b)) render := by
  unfold enterHBlank
  show (if b.lcd.ly < 144 ∧ b.lcd.ppuMode = 3 ∧ 252 ≤ b.lcd.ppuDots then _ else _) = _
  by_cases hdone : b.lcd.ly < 144 ∧ b.lcd.ppuMode = 3 ∧ 252 ≤ b.lcd.ppuDots
  · rw [if_pos hdone, if_pos hdone, draw_finished s render hdone, finishLine_swap r s render hon]
    exact checkStatInterrupt_swap r _ render { finishLine b with
      lcd := { (finishLine b).lcd with ppuMode := 0 } }
  · have hnone : finishedLine b = none := if_neg fun h => hdone ⟨h.1, h.2.1, h.2.2.1⟩
    rw [if_neg hdone, if_neg hdone, hnone]
    rfl

theorem enterNextLine_swap (b : Bus σ) :
    enterNextLine (b.swap r s render) = (enterNextLine b).swap r s render := by
  unfold enterNextLine
  show (if 456 ≤ b.lcd.ppuDots then _ else _) = _
  split
  · exact checkStatInterrupt_swap r s render { b with
      lcd := advanceLine b.lcd
      irq := if (advanceLine b.lcd).ly = 144 then { b.irq with iflag := b.irq.iflag ||| 0x01 } else b.irq }
  · rfl

theorem beforeHBlank_swap (dots : Int) (b : Bus σ) :
    beforeHBlank dots (b.swap r s render) = (beforeHBlank dots b).swap r s render :=
  enterTransfer_swap r s render { b with lcd := { b.lcd with ppuDots := b.lcd.ppuDots + dots } }

theorem finishedLine_swap (b : Bus σ) : finishedLine (b.swap r s render) = finishedLine b := by
  unfold finishedLine
  rw [lineBuf_swap]
  rfl

theorem ppuAdvance_swap (dots : Int) {b : Bus σ} (hon : LcdOn b.lcd) : ppuAdvance dots (b.swap r s render) =
    (ppuAdvance dots b).swap r (s.draw render (finishedLine (beforeHBlank dots b))) render := by
  show enterNextLine (enterHBlank (beforeHBlank dots (b.swap r s render))) = _
  rw [beforeHBlank_swap, enterHBlank_swap r s render (beforeHBlank_on dots hon), enterNextLine_swap]
  rfl

end

theorem ppuAdvance_screen (dots : Int) {b : Bus σ} (hon : LcdOn b.lcd) :
    (ppuAdvance dots b).screen = b.screen.draw b.renderThisFrame (finishedLine (beforeHBlank dots b)) :=
  congrArg Bus.screen (ppuAdvance_swap b.rom b.screen b.renderThisFrame dots hon)

/-! ## Related parts -/

/-- How the parts of two emulators are related, an invariant of the first one, and which ROM access
of the second one is bad. -/
structure Parts (σ : Type) where
  Rom : RomAccess → RomAccess → Prop
  Output : Screen × Bool → Screen × Bool → Prop
  Inv : Bus σ → Prop
  Bad : RomAccess → Prop

/-- Equal up to the parts, which are related. -/
structure Parts.Related (P : Parts σ) (b₁ b₂ : Bus σ) : Prop where
  eq : b₂ = b₁.swap b₂.rom b₂.screen b₂.renderThisFrame
  rom : P.Rom b₁.rom b₂.rom
  output : P.Output (b₁.screen, b₁.renderThisFrame) (b₂.screen, b₂.renderThisFrame)
  inv : P.Inv b₁

/-- What keeps the parts related: reads of the ROM answer alike or go bad, and mapper writes and
drawn or blanked screens keep the relation. -/
structure Parts.Kept (P : Parts σ) (env : Env σ) (fails : Nat → Option (Nat → UInt8)) : Prop where
  read : ∀ addr b₁ b₂, addr < 0x8000 → P.Related b₁ b₂ →
    ((readByte env addr b₁).1 = (readByte (env.failing fails) addr b₂).1 ∧
      P.Rom (readByte env addr b₁).2.rom (readByte (env.failing fails) addr b₂).2.rom) ∨
    P.Bad (readByte (env.failing fails) addr b₂).2.rom
  readBad : ∀ addr (b : Bus σ), P.Bad b.rom → P.Bad (readByte (env.failing fails) addr b).2.rom
  refresh : ∀ m r₁ r₂, P.Rom r₁ r₂ → P.Rom (refreshMappedRomBanks m r₁) (refreshMappedRomBanks m r₂)
  refreshBad : ∀ m r, P.Bad r → P.Bad (refreshMappedRomBanks m r)
  blank : ∀ s₁ s₂ k₁ k₂, P.Output (s₁, k₁) (s₂, k₂) → P.Output (blankScreen s₁, k₁) (blankScreen s₂, k₂)
  draw : ∀ s₁ s₂ k₁ k₂ l, P.Output (s₁, k₁) (s₂, k₂) → P.Output (s₁.draw k₁ l, k₁) (s₂.draw k₂ l, k₂)
  inv : ∀ b b', P.Inv b → BusEffect env b b' → P.Inv b'
  invFrame : ∀ b t i l s, P.Inv b → P.Inv { b with timer := t, irq := i, lcd := l, screen := s }

namespace Parts

variable {P : Parts σ} {b₁ b₂ : Bus σ}

/-- Two buses stay related when something changes that both compute alike. -/
theorem Related.keep (h : P.Related b₁ b₂) {c₁ c₂ : Bus σ}
    (h₁ : c₁ = c₁.swap b₁.rom b₁.screen b₁.renderThisFrame)
    (h₂ : c₂ = c₁.swap b₂.rom b₂.screen b₂.renderThisFrame) (hinv : P.Inv c₁) : P.Related c₁ c₂ := by
  rw [h₂]
  refine ⟨rfl, ?_, ?_, hinv⟩
  · rw [congrArg Bus.rom h₁]
    exact h.rom
  · rw [congrArg Bus.screen h₁, congrArg Bus.renderThisFrame h₁]
    exact h.output

end Parts

namespace Parts.Kept

variable {P : Parts σ} {fails : Nat → Option (Nat → UInt8)} (K : P.Kept env fails)

include K

/-! ## Bus operations keep the parts related -/

theorem readByte_pair {b₁ b₂ : Bus σ} (addr : UInt16) (h : P.Related b₁ b₂) :
    ((readByte env addr b₁).1 = (readByte (env.failing fails) addr b₂).1 ∧
      P.Related (readByte env addr b₁).2 (readByte (env.failing fails) addr b₂).2) ∨
    P.Bad (readByte (env.failing fails) addr b₂).2.rom := by
  have hinv := K.inv _ _ h.inv (.quiet (readByte_frame env addr b₁).quiet)
  by_cases haddr : addr < 0x8000
  · rcases K.read addr b₁ b₂ haddr h with ⟨hval, hrom⟩ | hbad
    · have h₁ := readByte_low env haddr b₁
      have h₂ := readByte_low (env.failing fails) haddr b₂
      refine .inl ⟨hval, ?_, hrom, ?_, hinv⟩
      · rw [h₁, h₂, h.eq]; rfl
      · rw [h₁, h₂]; exact h.output
    · exact .inr hbad
  · have hswap := readByte_swap env fails b₂.rom b₂.screen b₂.renderThisFrame haddr b₁
    have hself := readByte_swap env env.romReadFails b₁.rom b₁.screen b₁.renderThisFrame haddr b₁
    rw [← h.eq] at hswap
    exact .inl ⟨(congrArg Prod.fst hswap).symm,
      h.keep (congrArg Prod.snd hself) (congrArg Prod.snd hswap) hinv⟩

theorem oamDma_pair (val : UInt8) : ∀ (n : Nat) {b₁ b₂ : Bus σ}, P.Related b₁ b₂ →
    P.Related (oamDma env val n b₁) (oamDma (env.failing fails) val n b₂) ∨
      P.Bad (oamDma (env.failing fails) val n b₂).rom
  | 0, _, _, h => .inl h
  | n + 1, b₁, b₂, h => by
    rcases oamDma_pair val n h with hn | hbad
    · rcases K.readByte_pair ((val.toUInt16 <<< 8) ||| UInt16.ofNat n) hn with ⟨hval, hr⟩ | hbad
      · rw [oamDma_succ, oamDma_succ, hval]
        exact .inl (hr.keep (setOam_self n _ _) ((congrArg (setOam n _) hr.eq).trans (setOam_swap ..))
          (K.inv _ _ hr.inv (.quiet (setOam_quiet n _ _))))
      · rw [oamDma_succ, oamDma_succ]
        exact .inr (by rw [setOam_self]; exact hbad)
    · rw [oamDma_succ, oamDma_succ]
      exact .inr (by rw [setOam_self]; exact K.readBad _ _ hbad)

theorem hdmaLoop_pair {src dst : Nat} (hdst : 0x8000 ≤ dst) : ∀ (n : Nat) {b₁ b₂ : Bus σ}, P.Related b₁ b₂ →
    P.Related (hdmaLoop env src dst n b₁) (hdmaLoop (env.failing fails) src dst n b₂) ∨
      P.Bad (hdmaLoop (env.failing fails) src dst n b₂).rom
  | 0, _, _, h => .inl h
  | n + 1, b₁, b₂, h => by
    unfold hdmaLoop
    dsimp only
    split
    · rename_i hlt
      have haddr := vram_addr hdst hlt
      rcases hdmaLoop_pair hdst n h with hn | hbad
      · rcases K.readByte_pair (UInt16.ofNat (src + n)) hn with ⟨hval, hr⟩ | hbad
        · rw [← hval]
          refine .inl (hr.keep ?_ ?_ (K.inv _ _ hr.inv (.quiet (writeMemory_quiet env haddr _ _))))
          · exact writeMemory_self haddr _ _
          · exact (congrArg (writeMemory (env.failing fails) _ _) hr.eq).trans
              (writeMemory_swap env fails _ _ _ haddr _ _)
        · exact .inr (by rw [writeMemory_self haddr]; exact hbad)
      · exact .inr (by rw [writeMemory_self haddr]; exact K.readBad _ _ hbad)
    · exact hdmaLoop_pair hdst n h

theorem writeHdma5_pair {b₁ b₂ : Bus σ} (val : UInt8) (h : P.Related b₁ b₂) :
    P.Related (writeHdma5 env val b₁) (writeHdma5 (env.failing fails) val b₂) ∨
      P.Bad (writeHdma5 (env.failing fails) val b₂).rom := by
  have hcgb : b₂.cgb = b₁.cgb := by rw [h.eq]; rfl
  unfold writeHdma5
  dsimp only
  rw [hcgb]
  split
  · exact .inl h
  split
  · refine .inl
      (h.keep rfl ?_ (K.inv _ _ h.inv (.quiet ⟨rfl, .refl _, rfl, rfl, .refl _, rfl, rfl,
      fun _ => rfl⟩)))
    exact congrArg (fun b :
      Bus σ => { b with cgb := { b₁.cgb with hdma5 := (0x80 : UInt8) ||| (val &&& 0x7F) } }) h.eq
  · rcases K.hdmaLoop_pair (hdmaDst_ge _ _) _ h with hl | hbad
    · refine .inl
        (hl.keep rfl ?_ (K.inv _ _ hl.inv (.quiet ⟨rfl, .refl _, rfl, rfl, .refl _, rfl, rfl,
        fun _ => rfl⟩)))
      exact congrArg (fun b : Bus σ => { b with cgb := { b.cgb with hdma5 := 0xFF } }) hl.eq
    · exact .inr hbad

theorem writeLcdc_pair {b₁ b₂ : Bus σ} (val : UInt8) (h : P.Related b₁ b₂)
    (hinv : P.Inv (writeLcdc val b₁)) :
    P.Related (writeLcdc val b₁) (writeLcdc val b₂) := by
  have hpair : writeLcdc val b₂ = _ := (congrArg (writeLcdc val) h.eq).trans (writeLcdc_swap _ _ _ val b₁)
  rw [hpair]
  refine ⟨rfl, ?_, ?_, hinv⟩
  · rw [writeLcdc_self]
    exact h.rom
  · rw [writeLcdc_self]
    show P.Output (ite _ _ _, b₁.renderThisFrame) (ite _ _ _, b₂.renderThisFrame)
    split
    · exact K.blank _ _ _ _ h.output
    · exact h.output

theorem writeByte_pair {b₁ b₂ : Bus σ} (addr : UInt16) (val : UInt8) (h : P.Related b₁ b₂) :
    P.Related (writeByte env addr val b₁) (writeByte (env.failing fails) addr val b₂) ∨
      P.Bad (writeByte (env.failing fails) addr val b₂).rom := by
  have hinv := K.inv _ _ h.inv (writeByte_effect env addr val b₁)
  unfold writeByte at hinv ⊢
  split
  · rename_i hmem
    rw [if_pos hmem] at hinv
    by_cases haddr : addr < 0x8000
    · unfold writeMemory at hinv ⊢
      rw [if_pos haddr] at hinv ⊢
      rw [if_pos haddr]
      have hmbc : b₂.mbc = b₁.mbc := by rw [h.eq]; rfl
      refine .inl ⟨?_, ?_, h.output, hinv⟩
      · show writeMBC (env.failing fails) addr val b₂ = _
        rw [h.eq]; rfl
      · show P.Rom (refreshMappedRomBanks (mbcWrite b₁.mbc addr val) b₁.rom)
          (refreshMappedRomBanks (mbcWrite b₂.mbc addr val) b₂.rom)
        rw [hmbc]
        exact K.refresh _ _ _ h.rom
    · refine .inl (h.keep (writeMemory_self haddr val b₁) ?_ hinv)
      exact (congrArg (writeMemory (env.failing fails) addr val) h.eq).trans
        (writeMemory_swap env fails _ _ _ haddr val b₁)
  · rename_i hmem
    rw [if_neg hmem] at hinv
    by_cases hlcdc : addr = 0xFF40
    · subst hlcdc
      exact .inl (K.writeLcdc_pair val h hinv)
    by_cases hdma : addr = 0xFF46
    · subst hdma
      exact K.oamDma_pair val 0xA0 h
    by_cases hhdma : addr = 0xFF55
    · subst hhdma
      exact K.writeHdma5_pair val h
    · refine .inl (h.keep (writeIo_self val hlcdc hdma hhdma b₁) ?_ hinv)
      exact (congrArg (writeIo (env.failing fails) addr val) h.eq).trans
        (writeIo_swap env fails _ _ _ val hlcdc hdma hhdma b₁)

theorem busStep_pair {b₁ b₂ : Bus σ} (o : BusOp) (h : P.Related b₁ b₂) :
    ((busStep env o b₁).1 = (busStep (env.failing fails) o b₂).1 ∧
      P.Related (busStep env o b₁).2 (busStep (env.failing fails) o b₂).2) ∨
    P.Bad (busStep (env.failing fails) o b₂).2.rom := by
  have hinv := K.inv _ _ h.inv (busStep_effect env o b₁)
  cases o with
  | read addr => exact K.readByte_pair addr h
  | write addr val => exact (K.writeByte_pair addr val h).imp (fun hr => ⟨rfl, hr⟩) id
  | pending => exact .inl ⟨by rw [h.eq]; rfl, h⟩
  | acknowledge mask => exact .inl ⟨rfl, h.keep rfl (by rw [h.eq]; rfl) hinv⟩
  | stop => exact .inl ⟨rfl, h.keep rfl (by rw [h.eq]; rfl) hinv⟩

theorem ppuAdvance_pair {b₁ b₂ : Bus σ} (dots : Int) (hon : LcdOn b₁.lcd) (h : P.Related b₁ b₂) :
    P.Related (ppuAdvance dots b₁) (ppuAdvance dots b₂) := by
  have hself := ppuAdvance_swap b₁.rom b₁.screen b₁.renderThisFrame dots hon
  have hpair : ppuAdvance dots b₂ = _ :=
    (congrArg (ppuAdvance dots) h.eq).trans (ppuAdvance_swap _ _ _ dots hon)
  rw [hpair]
  refine ⟨rfl, ?_, ?_, ?_⟩
  · rw [(ppuAdvance_frame dots b₁).eq]
    exact h.rom
  · rw [(ppuAdvance_frame dots b₁).eq, ppuAdvance_screen dots hon]
    exact K.draw _ _ _ _ _ h.output
  · rw [(ppuAdvance_frame dots b₁).eq]
    exact K.invFrame b₁ b₁.timer _ _ _ h.inv

/-- Related parts keep the emulators in lockstep. -/
theorem lockstep : Lockstep env (env.failing fails) P.Related fun b => P.Bad b.rom where
  op o _ _ h := K.busStep_pair o h
  bad o _ h := busStep_rom K.readBad K.refreshBad o h
  view _ _ h := by rw [h.eq]; exact ⟨rfl, rfl, rfl, rfl⟩
  clock b₁ _ t i h := ⟨by rw [h.eq]; rfl, h.rom, h.output, K.invFrame b₁ t i b₁.lcd b₁.screen h.inv⟩
  lcd b₁ _ l h := ⟨by rw [h.eq]; rfl, h.rom, h.output, K.invFrame b₁ b₁.timer b₁.irq l b₁.screen h.inv⟩
  ppu dots _ _ hon h := K.ppuAdvance_pair dots hon h
  badClock _ _ _ h := h
  badPpu _ _ _ _ h := h

end Parts.Kept

end FoloGameboy

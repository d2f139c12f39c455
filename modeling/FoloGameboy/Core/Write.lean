/-
The write side of the memory bus: `writeByte` with its regions, the LCDC, STAT and LYC registers
with the STAT interrupt check, OAM DMA, the CGB general DMA and the palette data ports.
-/
import FoloGameboy.Core.Read

namespace FoloGameboy

variable {σ : Type}

/-! ## The STAT interrupt -/

/-- The STAT interrupt line: the OR of the enabled sources. -/
def statLine (l : Lcd) : Bool :=
  (hasBits l.lcdstat 0x40 && l.ly == l.lyc) || (hasBits l.lcdstat 0x20 && l.ppuMode == 2) ||
    (hasBits l.lcdstat 0x10 && l.ppuMode == 1) || (hasBits l.lcdstat 0x08 && l.ppuMode == 0)

/-- Request the STAT interrupt on a rising edge of its line. -/
def checkStatInterrupt (b : Bus σ) : Bus σ :=
  if ¬ hasBits b.lcd.lcdc 0x80 then { b with lcd := { b.lcd with prevStatLine := false } }
  else
    let line := statLine b.lcd
    { b with
      irq := if line ∧ ¬ b.lcd.prevStatLine then { b.irq with iflag := b.irq.iflag ||| 0x02 } else b.irq
      lcd := { b.lcd with prevStatLine := line } }

/-! ## Memory regions -/

def writeVram (addr : UInt16) (val : UInt8) (b : Bus σ) : Bus σ :=
  match b.mem.vram1 with
  | some bank1 =>
    if b.cgb.isCgb ∧ b.cgb.vramBank ≠ 0 then
      { b with mem := { b.mem with vram1 := some (bank1.set (addr.toNat - 0x8000) val) } }
    else { b with mem := { b.mem with vram := b.mem.vram.set (addr.toNat - 0x8000) val } }
  | none => { b with mem := { b.mem with vram := b.mem.vram.set (addr.toNat - 0x8000) val } }

/-- Store into cartridge RAM; the dirty flag is raised only when the byte changes. -/
def storeSram (m : Memory) (idx : Nat) (val : UInt8) : Memory :=
  if m.sramData.get idx ≠ val then { m with sramData := m.sramData.set idx val, sramDirty := true } else m

/-- A write to the selected MBC3 clock register. -/
def writeRtc (ramBank val : UInt8) (r : Rtc) : Rtc :=
  match ramBank.toNat with
  | 0x08 => { r with rtcSec := val &&& 0x3F }
  | 0x09 => { r with rtcMin := val &&& 0x3F }
  | 0x0A => { r with rtcHour := val &&& 0x1F }
  | 0x0B => { r with rtcDay := val }
  | 0x0C => { r with rtcDayHi := val &&& 0xC1 }
  | _ => r

def writeExternalRam (addr : UInt16) (val : UInt8) (b : Bus σ) : Bus σ :=
  if ¬ b.mbc.ramEnabled then b
  else if b.mbc.mbcType = .mbc2 then
    { b with mem := storeSram b.mem ((addr.toNat - 0xA000) &&& 0x1FF) (val &&& 0x0F) }
  else if rtcSelected b.mbc then { b with rtc := writeRtc b.mbc.ramBank val b.rtc }
  else if b.mbc.ramBank ≤ 3 then
    let idx := sramIndex b.mbc.ramBank addr
    if idx < b.mem.sramPersistSize then { b with mem := storeSram b.mem idx val } else b
  else b

/-- 0xC000-0xDFFF, also reached through the echo. -/
def writeWram (addr : Nat) (val : UInt8) (b : Bus σ) : Bus σ :=
  if addr < 0xD000 then { b with mem := { b.mem with wram := b.mem.wram.set (addr - 0xC000) val } }
  else if wramBanked b then
    { b with mem := { b.mem with
        wramExtra := b.mem.wramExtra.map fun w => w.set (wramExtraIndex b.cgb.wramBank addr) val } }
  else { b with mem := { b.mem with wram := b.mem.wram.set (addr - 0xC000) val } }

/-- `writeByte` below 0xFF00. -/
def writeMemory (env : Env σ) (addr : UInt16) (val : UInt8) (b : Bus σ) : Bus σ :=
  if addr < 0x8000 then writeMBC env addr val b
  else if addr < 0xA000 then writeVram addr val b
  else if addr < 0xC000 then writeExternalRam addr val b
  else if addr < 0xE000 then writeWram addr.toNat val b
  else if addr < 0xFE00 then writeWram (addr.toNat - 0x2000) val b
  else if addr < 0xFEA0 then { b with mem := { b.mem with oam := b.mem.oam.set (addr.toNat - 0xFE00) val } }
  else b

/-! ## I/O registers -/

/-- Serial control: a started transfer completes at once and requests its interrupt. -/
def writeSerialControl (val : UInt8) (b : Bus σ) : Bus σ :=
  let scReg := val &&& 0x83
  if hasBits val 0x80 then
    { b with
      serial := { scReg := scReg &&& 0x7F, sbReg := 0xFF }
      irq := { b.irq with iflag := b.irq.iflag ||| 0x08 } }
  else { b with serial := { b.serial with scReg := scReg } }

def writeSound (env : Env σ) (addr : UInt16) (val : UInt8) (s : Sound σ) : Sound σ :=
  { soundRegs := s.soundRegs.set (addr.toNat - 0xFF10) val
    soundContext := s.soundContext.map fun chip => env.soundWrite chip addr val }

/-- The LCD registers after a write that switches the LCD on or off. -/
def toggleLcd (l : Lcd) (val : UInt8) : Lcd :=
  let nowOn := hasBits val 0x80
  { l with
    lcdc := val
    ly := 0
    ppuMode := if nowOn then 2 else 0
    ppuDots := 0
    lcdChanged := true
    lcdFirstFrame := nowOn
    prevStatLine := false
    windowLine := 0 }

/-- Switching the LCD off blanks both framebuffers. -/
def blankScreen (s : Screen) : Screen :=
  { framebuf := s.framebuf.map fun _ => .fill GB_FB_SIZE 0
    colorFramebuf := s.colorFramebuf.map fun _ => .fill (GB_W * GB_H) GB_PORT_COLOR_BLANK }

def writeLcdc (val : UInt8) (b : Bus σ) : Bus σ :=
  if hasBits b.lcd.lcdc 0x80 ≠ hasBits val 0x80 then
    checkStatInterrupt { b with
      lcd := toggleLcd b.lcd val
      screen := if hasBits val 0x80 then b.screen else blankScreen b.screen }
  else { b with lcd := { b.lcd with lcdc := val } }

/-- OAM DMA: copy 0xA0 bytes through the read path. -/
def oamDma (env : Env σ) (val : UInt8) : Nat → Bus σ → Bus σ
  | 0, b => b
  | n + 1, b =>
    let b := oamDma env val n b
    let (v, b) := readByte env ((val.toUInt16 <<< 8) ||| UInt16.ofNat n) b
    { b with mem := { b.mem with oam := b.mem.oam.set n v } }

/-- The first `n` steps of the CGB general DMA. The destination stays inside VRAM, where a write
touches nothing else. -/
def hdmaLoop (env : Env σ) (src dst : Nat) : Nat → Bus σ → Bus σ
  | 0, b => b
  | n + 1, b =>
    let b := hdmaLoop env src dst n b
    if dst + n < 0xA000 then
      let (v, b) := readByte env (UInt16.ofNat (src + n)) b
      writeMemory env (UInt16.ofNat (dst + n)) v b
    else b

/-- HDMA5: both transfer kinds are done at once. -/
def writeHdma5 (env : Env σ) (val : UInt8) (b : Bus σ) : Bus σ :=
  if ¬ b.cgb.isCgb then b
  else
    let c := b.cgb
    let src : UInt16 := ((c.hdma1.toUInt16 <<< 8) ||| c.hdma2.toUInt16) &&& 0xFFF0
    let dst : UInt16 := ((0x8000 : UInt16) ||| (c.hdma3.toUInt16 <<< 8) ||| c.hdma4.toUInt16) &&& 0x9FF0
    let len := ((val &&& 0x7F).toNat + 1) * 16
    if 0xE000 ≤ src ∨ (0x8000 ≤ src ∧ src < 0xA000) then
      { b with cgb := { c with hdma5 := (0x80 : UInt8) ||| (val &&& 0x7F) } }
    else
      let b := hdmaLoop env src.toNat dst.toNat len b
      { b with cgb := { b.cgb with hdma5 := 0xFF } }

/-- The palette index after a data write: it advances when its top bit is set. -/
def advanceIndex (reg : UInt8) : UInt8 :=
  if hasBits reg 0x80 then (0x80 : UInt8) ||| ((reg + 1) &&& 0x3F) else reg

/-- The CGB registers, only effective in CGB mode. -/
def writeCgb (n : Nat) (val : UInt8) (c : Cgb) : Cgb :=
  if ¬ c.isCgb then c
  else
    match n with
    | 0xFF4D => { c with key1 := (c.key1 &&& (0x80 : UInt8)) ||| (val &&& 0x01) }
    | 0xFF4F => { c with vramBank := val &&& 0x01 }
    | 0xFF51 => { c with hdma1 := val }
    | 0xFF52 => { c with hdma2 := val &&& 0xF0 }
    | 0xFF53 => { c with hdma3 := val &&& 0x1F }
    | 0xFF54 => { c with hdma4 := val &&& 0xF0 }
    | 0xFF68 => { c with bcpsReg := val }
    | 0xFF69 => { c with
        bgPalette := c.bgPalette.set (c.bcpsReg &&& 0x3F).toNat val
        bcpsReg := advanceIndex c.bcpsReg }
    | 0xFF6A => { c with ocpsReg := val }
    | 0xFF6B => { c with
        objPalette := c.objPalette.set (c.ocpsReg &&& 0x3F).toNat val
        ocpsReg := advanceIndex c.ocpsReg }
    | 0xFF70 => { c with wramBank := if val &&& 0x07 = 0 then 1 else val &&& 0x07 }
    | _ => c

/-- The LCD registers that a write only stores. -/
def writeLcdReg (n : Nat) (val : UInt8) (l : Lcd) : Lcd :=
  match n with
  | 0xFF42 => { l with scy := val }
  | 0xFF43 => { l with scx := val }
  | 0xFF47 => { l with bgp := val }
  | 0xFF48 => { l with obp0 := val }
  | 0xFF49 => { l with obp1 := val }
  | 0xFF4A => { l with wy := val }
  | 0xFF4B => { l with wx := val }
  | _ => l

def writeTimerReg (n : Nat) (val : UInt8) (t : Timer) : Timer :=
  match n with
  | 0xFF04 => { t with divReg := 0, divCounter := 0 }
  | 0xFF05 => { t with tima := val }
  | 0xFF06 => { t with tma := val }
  | 0xFF07 => { t with tac := val &&& 0x07 }
  | _ => t

def writeIo (env : Env σ) (addr : UInt16) (val : UInt8) (b : Bus σ) : Bus σ :=
  if soundReg addr then { b with sound := writeSound env addr val b.sound }
  else
    match addr.toNat with
    | 0xFF00 => { b with pad := { b.pad with joypadSelect := val &&& 0x30 } }
    | 0xFF01 => { b with serial := { b.serial with sbReg := val } }
    | 0xFF02 => writeSerialControl val b
    | n@0xFF04 | n@0xFF05 | n@0xFF06 | n@0xFF07 => { b with timer := writeTimerReg n val b.timer }
    | 0xFF0F => { b with irq := { b.irq with iflag := val &&& 0x1F } }
    | 0xFF40 => writeLcdc val b
    | 0xFF41 =>
      checkStatInterrupt { b with
        lcd := { b.lcd with lcdstat := (b.lcd.lcdstat &&& (0x07 : UInt8)) ||| (val &&& 0x78) } }
    | 0xFF45 => checkStatInterrupt { b with lcd := { b.lcd with lyc := val } }
    | 0xFF46 => oamDma env val 0xA0 b
    | n@0xFF42 | n@0xFF43 | n@0xFF47 | n@0xFF48 | n@0xFF49 | n@0xFF4A | n@0xFF4B =>
      { b with lcd := writeLcdReg n val b.lcd }
    | 0xFF55 => writeHdma5 env val b
    | n@0xFF4D | n@0xFF4F | n@0xFF51 | n@0xFF52 | n@0xFF53 | n@0xFF54 | n@0xFF68 | n@0xFF69 | n@0xFF6A
    | n@0xFF6B | n@0xFF70 => { b with cgb := writeCgb n val b.cgb }
    | 0xFFFF => { b with irq := { b.irq with ie := val } }
    -- 0xFF44 (LY) is read only, as is every address below HRAM without a register
    | n =>
      if 0xFF80 ≤ n ∧ n < 0xFFFF then { b with mem := { b.mem with hram := b.mem.hram.set (n - 0xFF80) val } }
      else b

def writeByte (env : Env σ) (addr : UInt16) (val : UInt8) (b : Bus σ) : Bus σ :=
  if addr < 0xFF00 then writeMemory env addr val b else writeIo env addr val b

end FoloGameboy

/-
Loading a cartridge, power-on state, the timer, and `runFrame`: the host frame of 70224 cycles cut
into chunks that end at the PPU's next phase boundary.
-/
import FoloGameboy.Core.Cpu
import FoloGameboy.Core.Ppu

namespace FoloGameboy

variable {σ : Type}

/-! ## Start-up -/

def enableCgbMode (vram1 wramExtra : Bool) (g : GBEmulator σ) : GBEmulator σ :=
  { g with bus := { g.bus with
      cgb := { g.bus.cgb with isCgb := true }
      mem := { g.bus.mem with
        vram1 := if vram1 then some (.fill 0x2000 0) else none
        wramExtra := if wramExtra then some (.fill 0x6000 0) else none } } }

def setupBankCache (bank0 : Buffer) (slots : Nat) (g : GBEmulator σ) : GBEmulator σ :=
  { g with bus := { g.bus with rom := { g.bus.rom with
      romBank0 := some bank0
      bankCache := .fill (slots * ROM_BANK_SIZE) 0
      cacheSlots := slots
      cacheMap := fun _ => -1
      cacheNextSlot := 0 } } }

/-- The cartridge RAM size of a header code. -/
def ramSizeOf (code : UInt8) : Option Nat := [0, 2048, 8192, 32768, 131072, 65536][code.toNat]?

/-- `loadRom`: the ROM is mapped when `data` is given, otherwise read through the bank cache. `none`
is a rejected header. -/
def loadRom (data : Option Buffer) (size : Nat) (g : GBEmulator σ) : Option (GBEmulator σ) :=
  let banks := size / ROM_BANK_SIZE
  let rom := { g.bus.rom with
    romData := data
    romSize := size
    romBankCount := if banks = 0 then 1 else banks
    romInRam := data.isSome }
  let header := if rom.romInRam then data else rom.romBank0
  let cartType := if 0x0148 < size then Buffer.byteOf header 0x0147 else 0
  let mbc := { g.bus.mbc with mbcType := detectMBC cartType }
  match header with
  | none => none
  | some header =>
    if size < 0x150 then none
    else
      match ramSizeOf (header.get 0x149) with
      | none => none
      | some ramSize =>
        let persist := if mbc.mbcType = .mbc2 then 512 else ramSize
        if 32768 < persist then none
        else
          some { g with bus := { g.bus with
            mbc := mbc
            rom := refreshMappedRomBanks mbc rom
            mem := { g.bus.mem with
              sramPersistSize := persist
              sramSize := if persist = 0 then 1 else persist } } }

/-- The DMG post-boot state, with every buffer cleared. -/
def reset (g : GBEmulator σ) : GBEmulator σ :=
  let b := g.bus
  let mbc := { b.mbc with romBank := 1, ramBank := 0, ramEnabled := false, mbc1Mode := 0, mbc1Bank2 := 0 }
  { cpu :=
      { a := 0x01, f := 0xB0, b := 0x00, c := 0x13, d := 0x00, e := 0xD8, h := 0x01, l := 0x4D,
        pc := 0x100, sp := 0xFFFE, ime := false, halted := false, haltBug := false, eiPending := false }
    frameCount := 0
    bus := { b with
      lcd := { lcdc := 0x91, bgp := 0xFC, obp0 := 0xFF, obp1 := 0xFF, ppuMode := 2 }
      irq := {}
      timer := {}
      mbc := mbc
      rom := refreshMappedRomBanks mbc b.rom
      pad := {}
      serial := {}
      cgb := { isCgb := b.cgb.isCgb }
      screen :=
        { framebuf := b.screen.framebuf.map fun _ => .fill GB_FB_SIZE 0
          colorFramebuf := b.screen.colorFramebuf.map fun _ => .fill (GB_W * GB_H) 0 }
      mem := { b.mem with
        vram := .fill b.mem.vram.size 0
        wram := .fill b.mem.wram.size 0
        oam := .fill 0xA0 0
        hram := .fill 0x80 0
        sramData := .fill b.mem.sramData.size 0
        vram1 := b.mem.vram1.map fun _ => .fill 0x2000 0
        wramExtra := b.mem.wramExtra.map fun _ => .fill 0x6000 0 }
      sound := { b.sound with soundRegs := (Buffer.fill 0x30 0).set 0x16 0xF1 } } }

/-- `init`: allocate the big buffers and reset; `none` when an allocation fails. -/
def init (heap : Bool) (g : GBEmulator σ) : Option (GBEmulator σ) :=
  if ¬ heap then none
  else
    let b := g.bus
    some (reset { g with bus := { b with
      screen :=
        if b.cgb.isCgb then { b.screen with colorFramebuf := some (.fill (GB_W * GB_H) 0) }
        else { b.screen with framebuf := some (.fill GB_FB_SIZE 0) }
      mem := { b.mem with
        vram := .fill GB_VRAM_SIZE 0
        wram := .fill GB_WRAM_SIZE 0
        sramData := .fill b.mem.sramSize 0 } } })

/-! ## Input -/

def setInput (buttons : UInt8) (b : Bus σ) : Bus σ :=
  let press (mask bit v : UInt8) : UInt8 := if hasBits buttons mask then v &&& ~~~bit else v
  { b with
    pad := { b.pad with
      joyDpad := press 0x08 0x08 (press 0x04 0x04 (press 0x02 0x02 (press 0x01 0x01 0x0F)))
      joyButtons := press 0x40 0x08 (press 0x80 0x04 (press 0x20 0x02 (press 0x10 0x01 0x0F)))
      prevInputButtons := buttons }
    -- a newly pressed button requests the joypad interrupt
    irq := if buttons &&& ~~~b.pad.prevInputButtons = 0 then b.irq else { b.irq with iflag := b.irq.iflag ||| 0x10 } }

/-! ## The timer -/

/-- Run a loop body while the condition holds, at most `n` times. -/
def whileDo {α : Type} (cond : α → Bool) (body : α → α) : Nat → α → α
  | 0, s => s
  | n + 1, s => if cond s then whileDo cond body n (body s) else s

def divStep (t : Timer) : Timer := { t with divCounter := t.divCounter - 256, divReg := t.divReg + 1 }

/-- One TIMA tick; an overflow reloads TMA and requests the timer interrupt. -/
def timaStep (freq : UInt16) (s : Timer × Irq) : Timer × Irq :=
  let (t, i) := s
  let t := { t with timerCounter := t.timerCounter - freq, tima := t.tima + 1 }
  if t.tima = 0 then ({ t with tima := t.tma }, { i with iflag := i.iflag ||| 0x04 }) else (t, i)

/-- The timer loops run at most once for each whole period in a 16 bit counter. -/
def updateTimer (cycles : Int) (b : Bus σ) : Bus σ :=
  let c := UInt16.ofInt cycles
  let t := { b.timer with divCounter := b.timer.divCounter + c }
  let t := whileDo (fun t => 256 ≤ t.divCounter) divStep 256 t
  if ¬ hasBits t.tac 0x04 then { b with timer := t }
  else
    let freq := timerFreq t.tac
    let s := whileDo (fun s => freq ≤ s.1.timerCounter) (timaStep freq) 4096
      ({ t with timerCounter := t.timerCounter + c }, b.irq)
    { b with timer := s.1, irq := s.2 }

/-! ## One host frame -/

def FRAME_CYCLES : Int := 70224

/-- The inner loop of `runFrame`: steps until the budget is used up or the LCD is toggled. It
returns the cycles it accumulated, or `none` when `fuel` steps were not enough. -/
def chunkLoop (env : Env σ) (budget : Int) : Nat → Int → GBEmulator σ → Option (Int × GBEmulator σ)
  | fuel, cycles, g =>
    if cycles < budget ∧ ¬ g.bus.lcd.lcdChanged then
      match fuel with
      | 0 => none
      | fuel + 1 =>
        let (c, g) := cpuStep env (budget - cycles) g
        chunkLoop env budget fuel (cycles + c) { g with bus := updateTimer c g.bus }
    else some (cycles, g)

/-- Enough steps for a chunk: at most 65537 steps without a cost separate two steps with one. -/
def chunkFuel (budget : Int) : Nat := (budget.toNat + 1) * 65537

/-- The dot at which the PPU's current phase ends. -/
def phaseBoundary (l : Lcd) : Int :=
  if l.ly < 144 ∧ l.ppuDots < 80 then 80 else if l.ly < 144 ∧ l.ppuDots < 252 then 252 else 456

/-- OAM scan ends: mode 3. -/
def enterTransfer (b : Bus σ) : Bus σ :=
  if b.lcd.ly < 144 ∧ b.lcd.ppuMode = 2 ∧ 80 ≤ b.lcd.ppuDots then
    checkStatInterrupt { b with lcd := { b.lcd with ppuMode := 3 } }
  else b

/-- Draw the line, or only advance the window's row counter when output is skipped. -/
def finishLine (b : Bus σ) : Bus σ :=
  if b.renderThisFrame ∧ ¬ b.lcd.lcdFirstFrame then renderLine b b.lcd.ly.toNat
  else if windowVisible b b.lcd.ly.toNat then { b with lcd := { b.lcd with windowLine := b.lcd.windowLine + 1 } }
  else b

/-- Transfer ends: the line is drawn, mode 0. -/
def enterHBlank (b : Bus σ) : Bus σ :=
  if b.lcd.ly < 144 ∧ b.lcd.ppuMode = 3 ∧ 252 ≤ b.lcd.ppuDots then
    let b := finishLine b
    checkStatInterrupt { b with lcd := { b.lcd with ppuMode := 0 } }
  else b

/-- The LCD registers at the start of the next line. -/
def advanceLine (l : Lcd) : Lcd :=
  let l := { l with ppuDots := l.ppuDots - 456, ly := l.ly + 1 }
  let l := if 154 ≤ l.ly then { l with ly := 0, windowLine := 0, lcdFirstFrame := false } else l
  { l with ppuMode := if l.ly < 144 then 2 else 1 }

/-- The line ends: the next one starts, with the VBlank request at line 144. -/
def enterNextLine (b : Bus σ) : Bus σ :=
  if 456 ≤ b.lcd.ppuDots then
    let lcd := advanceLine b.lcd
    checkStatInterrupt { b with
      lcd := lcd
      irq := if lcd.ly = 144 then { b.irq with iflag := b.irq.iflag ||| 0x01 } else b.irq }
  else b

/-- The PPU after a chunk of `dots` in which the LCD stayed on. -/
def ppuAdvance (dots : Int) (b : Bus σ) : Bus σ :=
  enterNextLine (enterHBlank (enterTransfer { b with lcd := { b.lcd with ppuDots := b.lcd.ppuDots + dots } }))

/-- The budget of the next chunk in dots: up to the phase boundary, within the host frame. -/
def chunkDots (elapsed : Int) (l : Lcd) : Int :=
  let dots := if hasBits l.lcdc 0x80 then phaseBoundary l - l.ppuDots else 456
  if FRAME_CYCLES - elapsed < dots then FRAME_CYCLES - elapsed else dots

def speedOf (c : Cgb) : Int := if c.doubleSpeed then 2 else 1

/-- A state of the outer loop of `runFrame`, with the sum of all costs `cpu_step` has returned. -/
structure FrameState (σ : Type) where
  elapsed : Int
  spent : Int
  gb : GBEmulator σ

/-- The cycles the next chunk may take. -/
def chunkBudget (s : FrameState σ) : Int := chunkDots s.elapsed s.gb.bus.lcd * speedOf s.gb.bus.cgb

def clearLcdChanged (g : GBEmulator σ) : GBEmulator σ :=
  { g with bus := { g.bus with lcd := { g.bus.lcd with lcdChanged := false } } }

/-- The chunk of one iteration of the outer loop. -/
def runChunk (env : Env σ) (s : FrameState σ) : Option (Int × GBEmulator σ) :=
  chunkLoop env (chunkBudget s) (chunkFuel (chunkBudget s)) 0 (clearLcdChanged s.gb)

/-- The rest of the iteration: the PPU follows, unless the LCD was off or was toggled, which already
reset it. -/
def endChunk (s : FrameState σ) (r : Int × GBEmulator σ) : FrameState σ :=
  let dots := r.1 / speedOf s.gb.bus.cgb
  let bus :=
    if ¬ hasBits s.gb.bus.lcd.lcdc 0x80 ∨ r.2.bus.lcd.lcdChanged then r.2.bus else ppuAdvance dots r.2.bus
  { elapsed := s.elapsed + dots, spent := s.spent + r.1, gb := { r.2 with bus := bus } }

/-- One iteration of the outer loop of `runFrame`. -/
def frameStep (env : Env σ) (s : FrameState σ) : Option (FrameState σ) := (runChunk env s).map (endChunk s)

/-- The outer loop of `runFrame`, for at most `fuel` iterations. -/
def frameLoop (env : Env σ) : Nat → FrameState σ → Option (FrameState σ)
  | fuel, s =>
    if s.elapsed < FRAME_CYCLES then
      match fuel with
      | 0 => none
      | fuel + 1 => (frameStep env s).bind (frameLoop env fuel)
    else some s

/-- Store the overshoot of a finished frame. -/
def finishFrame (s : FrameState σ) : GBEmulator σ :=
  { s.gb with bus := { s.gb.bus with lcd := { s.gb.bus.lcd with frameOvershoot := s.elapsed - FRAME_CYCLES } } }

/-- `runFrame`, with the sum of all costs `cpu_step` returned in it. Every iteration of the outer
loop takes at least one of the 70224 cycles. -/
def runFrame (env : Env σ) (g : GBEmulator σ) : Option (GBEmulator σ × Int) :=
  (frameLoop env FRAME_CYCLES.toNat { elapsed := g.bus.lcd.frameOvershoot, spent := 0, gb := g }).map
    fun s => (finishFrame s, s.spent)

end FoloGameboy

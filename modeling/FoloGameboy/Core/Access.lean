/-
The memory bus with every access checked: `readByte`, `writeByte` and the DMA loops once more, where
a load or a store outside its buffer, or through a pointer that is not set, faults.
-/
import FoloGameboy.Core.Write

namespace FoloGameboy

variable {σ : Type}

/-! ## ROM -/

/-- A load through a pointer that may be null. -/
def Buffer.loadOf (b : Option Buffer) (i : Nat) : Option UInt8 := b.bind fun b => b.load i

/-- The file is read straight into the slot of the cache. -/
def loadBankChecked (env : Env σ) (bank slot : Nat) (r : RomAccess) : Option (Bool × RomAccess) :=
  if slot * ROM_BANK_SIZE + ROM_BANK_SIZE ≤ r.bankCache.size then some (loadBank env bank slot r) else none

/-- `cacheMap_` has an entry for each slot. -/
def mapSlotChecked (bank slot : Nat) (r : RomAccess) : Option RomAccess :=
  if slot < r.cacheSlots then
    some { r with cacheMap := fun i => if i = slot then (bank : Int) else r.cacheMap i }
  else none

def readCachedBankChecked (env : Env σ) (bank offset : Nat) (r : RomAccess) : Option (UInt8 × RomAccess) :=
  -- without a cache the byte comes from the file
  if r.cacheSlots = 0 then some (readCachedBank env bank offset r)
  else
    match (List.range r.cacheSlots).find? fun i => r.cacheMap i == (bank : Int) with
    | some i => do
      let val ← r.bankCache.load (i * ROM_BANK_SIZE + offset)
      return (val, r)
    | none => do
      let slot := r.cacheNextSlot
      match ← loadBankChecked env bank slot { r with cacheNextSlot := (slot + 1) % r.cacheSlots } with
      | (false, r) => return (0xFF, { r with romIoFailed := true })
      | (true, r) =>
        let r ← mapSlotChecked bank slot r
        let r := patchSlot env bank slot r
        let val ← r.bankCache.load (slot * ROM_BANK_SIZE + offset)
        return (val, r)

def readRomLowChecked (env : Env σ) (addr : UInt16) (b : Bus σ) : Option (UInt8 × Bus σ) := do
  let r := b.rom
  if b.mbc.mbcType = .mbc1 ∧ b.mbc.mbc1Mode = 1 then
    let effectiveBank := b.mbc.mbc1Bank2.toNat <<< 5
    let effectiveBank := if r.romBankCount ≤ effectiveBank then effectiveBank % r.romBankCount
      else effectiveBank
    if r.romInRam then
      let real ← Buffer.loadOf r.romData (effectiveBank * ROM_BANK_SIZE + addr.toNat)
      return (cheatWrap env addr real, b)
    else if effectiveBank = 0 then
      let real ← Buffer.loadOf r.romBank0 addr.toNat
      return (cheatWrap env addr real, b)
    else
      let (real, r) ← readCachedBankChecked env effectiveBank addr.toNat r
      return (cheatWrap env addr real, { b with rom := r })
  else
    let real ← if r.romInRam then Buffer.loadOf r.romData addr.toNat
      else Buffer.loadOf r.romBank0 addr.toNat
    return (cheatWrap env addr real, b)

def readRomHighChecked (env : Env σ) (addr : UInt16) (b : Bus σ) : Option (UInt8 × Bus σ) := do
  let r := b.rom
  let bank := b.mbc.romBank.toNat
  let bank := if r.romBankCount ≤ bank then bank % r.romBankCount else bank
  if r.romInRam then
    let real ← Buffer.loadOf r.romData (bank * ROM_BANK_SIZE + (addr.toNat - 0x4000))
    return (cheatWrap env addr real, b)
  else
    let (real, r) ← readCachedBankChecked env bank (addr.toNat - 0x4000) r
    return (cheatWrap env addr real, { b with rom := r })

/-! ## Reads -/

def readVramChecked (addr : UInt16) (b : Bus σ) : Option (UInt8 × Bus σ) := do
  if b.cgb.isCgb ∧ b.cgb.vramBank ≠ 0 ∧ b.mem.vram1.isSome then
    let val ← Buffer.loadOf b.mem.vram1 (addr.toNat - 0x8000)
    return (val, b)
  else
    let val ← b.mem.vram.load (addr.toNat - 0x8000)
    return (val, b)

def readExternalRamChecked (env : Env σ) (addr : UInt16) (b : Bus σ) : Option (UInt8 × Bus σ) := do
  if ¬ b.mbc.ramEnabled then return (0xFF, b)
  else if b.mbc.mbcType = .mbc2 then
    let val ← b.mem.sramData.load ((addr.toNat - 0xA000) &&& 0x1FF)
    return (0xF0 ||| (val &&& 0x0F), b)
  else if rtcSelected b.mbc then
    let rtc := tickRTC env b.rtc
    let val ← rtc.rtcLatched.load (b.mbc.ramBank.toNat - 0x08)
    return (val, { b with rtc := rtc })
  else if b.mbc.ramBank ≤ 3 then
    let idx := sramIndex b.mbc.ramBank addr
    if b.mem.sramPersistSize ≤ idx then return (0xFF, b)
    else
      let val ← b.mem.sramData.load idx
      return (val, b)
  else return (0xFF, b)

def readWramChecked (addr : Nat) (b : Bus σ) : Option UInt8 :=
  if addr < 0xD000 then b.mem.wram.load (addr - 0xC000)
  else if wramBanked b then Buffer.loadOf b.mem.wramExtra (wramExtraIndex b.cgb.wramBank addr)
  else b.mem.wram.load (addr - 0xC000)

def readSoundChecked (env : Env σ) (addr : UInt16) (s : Sound σ) : Option UInt8 :=
  match s.soundContext with
  | some chip => some (env.soundRead chip addr)
  | none => s.soundRegs.load (addr.toNat - 0xFF10)

/-- The registers above 0xFF00: sound, the palette data ports and HRAM are arrays. -/
def readIoChecked (env : Env σ) (addr : UInt16) (b : Bus σ) : Option UInt8 :=
  if soundReg addr then readSoundChecked env addr b.sound
  else if addr = 0xFF69 then
    if b.cgb.isCgb then b.cgb.bgPalette.load (b.cgb.bcpsReg &&& 0x3F).toNat else some 0xFF
  else if addr = 0xFF6B then
    if b.cgb.isCgb then b.cgb.objPalette.load (b.cgb.ocpsReg &&& 0x3F).toNat else some 0xFF
  else if 0xFF80 ≤ addr ∧ addr < 0xFFFF then b.mem.hram.load (addr.toNat - 0xFF80)
  else some (readIo env addr b)

def readByteSlowChecked (env : Env σ) (addr : UInt16) (b : Bus σ) : Option (UInt8 × Bus σ) := do
  if addr < 0x4000 then readRomLowChecked env addr b
  else if addr < 0x8000 then readRomHighChecked env addr b
  else if addr < 0xA000 then readVramChecked addr b
  else if addr < 0xC000 then readExternalRamChecked env addr b
  else if addr < 0xE000 then return (← readWramChecked addr.toNat b, b)
  else if addr < 0xFE00 then return (← readWramChecked (addr.toNat - 0x2000) b, b)
  else if addr < 0xFEA0 then return (← b.mem.oam.load (addr.toNat - 0xFE00), b)
  else if addr < 0xFF00 then return (0xFF, b)
  else return (← readIoChecked env addr b, b)

def readByteRamChecked (env : Env σ) (addr : UInt16) (b : Bus σ) : Option (UInt8 × Bus σ) := do
  if 0xFF80 ≤ addr ∧ addr ≠ 0xFFFF then return (← b.mem.hram.load (addr.toNat - 0xFF80), b)
  else if (0xC000 ≤ addr ∧ addr < 0xE000) ∧
      (addr < 0xD000 ∨ ¬ b.cgb.isCgb ∨ b.cgb.wramBank < 2 ∨ b.mem.wramExtra.isNone) then
    return (← b.mem.wram.load (addr.toNat - 0xC000), b)
  else readByteSlowChecked env addr b

/-- `mappedRomBanks_` has two entries. -/
def mappedRomBankChecked (r : RomAccess) (addr : UInt16) : Option (Option Nat) :=
  [r.mappedRomBank0, r.mappedRomBank1][(addr >>> 14).toNat]?

def readByteChecked (env : Env σ) (addr : UInt16) (b : Bus σ) : Option (UInt8 × Bus σ) := do
  if addr < 0x8000 then
    match ← mappedRomBankChecked b.rom addr with
    | some base =>
      let real ← Buffer.loadOf b.rom.romData (base + (addr &&& 0x3fff).toNat)
      return (cheatWrap env addr real, b)
    | none => readByteSlowChecked env addr b
  else readByteRamChecked env addr b

/-! ## Writes -/

def latchRTCChecked (r : Rtc) : Option Rtc := do
  let latched ← r.rtcLatched.put 0 r.rtcSec
  let latched ← latched.put 1 r.rtcMin
  let latched ← latched.put 2 r.rtcHour
  let latched ← latched.put 3 r.rtcDay
  let latched ← latched.put 4 r.rtcDayHi
  return { r with rtcLatched := latched }

def mbc3LatchChecked (env : Env σ) (r : Rtc) (addr : UInt16) (val : UInt8) : Option Rtc := do
  if addr < 0x6000 then return r
  else
    let r ← if val = 0x01 ∧ r.rtcLatchPrev = false then latchRTCChecked (tickRTC env r) else some r
    return { r with rtcLatchPrev := val = 0x00 }

def writeMBCChecked (env : Env σ) (addr : UInt16) (val : UInt8) (b : Bus σ) : Option (Bus σ) := do
  let m := mbcWrite b.mbc addr val
  let rtc ← if b.mbc.mbcType = .mbc3 then mbc3LatchChecked env b.rtc addr val else some b.rtc
  return { b with mbc := m, rtc := rtc, rom := refreshMappedRomBanks m b.rom }

def writeVramChecked (addr : UInt16) (val : UInt8) (b : Bus σ) : Option (Bus σ) := do
  match b.mem.vram1 with
  | some bank1 =>
    if b.cgb.isCgb ∧ b.cgb.vramBank ≠ 0 then
      let bank1 ← bank1.put (addr.toNat - 0x8000) val
      return { b with mem := { b.mem with vram1 := some bank1 } }
    else
      let vram ← b.mem.vram.put (addr.toNat - 0x8000) val
      return { b with mem := { b.mem with vram := vram } }
  | none =>
    let vram ← b.mem.vram.put (addr.toNat - 0x8000) val
    return { b with mem := { b.mem with vram := vram } }

def storeSramChecked (m : Memory) (idx : Nat) (val : UInt8) : Option Memory := do
  let old ← m.sramData.load idx
  if old ≠ val then
    let sramData ← m.sramData.put idx val
    return { m with sramData := sramData, sramDirty := true }
  else return m

def writeExternalRamChecked (addr : UInt16) (val : UInt8) (b : Bus σ) : Option (Bus σ) := do
  if ¬ b.mbc.ramEnabled then return b
  else if b.mbc.mbcType = .mbc2 then
    let m ← storeSramChecked b.mem ((addr.toNat - 0xA000) &&& 0x1FF) (val &&& 0x0F)
    return { b with mem := m }
  else if rtcSelected b.mbc then return { b with rtc := writeRtc b.mbc.ramBank val b.rtc }
  else if b.mbc.ramBank ≤ 3 then
    let idx := sramIndex b.mbc.ramBank addr
    if idx < b.mem.sramPersistSize then
      let m ← storeSramChecked b.mem idx val
      return { b with mem := m }
    else return b
  else return b

def writeWramChecked (addr : Nat) (val : UInt8) (b : Bus σ) : Option (Bus σ) := do
  if addr < 0xD000 then
    let wram ← b.mem.wram.put (addr - 0xC000) val
    return { b with mem := { b.mem with wram := wram } }
  else if wramBanked b then
    let wramExtra ← b.mem.wramExtra
    let wramExtra ← wramExtra.put (wramExtraIndex b.cgb.wramBank addr) val
    return { b with mem := { b.mem with wramExtra := some wramExtra } }
  else
    let wram ← b.mem.wram.put (addr - 0xC000) val
    return { b with mem := { b.mem with wram := wram } }

def writeMemoryChecked (env : Env σ) (addr : UInt16) (val : UInt8) (b : Bus σ) : Option (Bus σ) := do
  if addr < 0x8000 then writeMBCChecked env addr val b
  else if addr < 0xA000 then writeVramChecked addr val b
  else if addr < 0xC000 then writeExternalRamChecked addr val b
  else if addr < 0xE000 then writeWramChecked addr.toNat val b
  else if addr < 0xFE00 then writeWramChecked (addr.toNat - 0x2000) val b
  else if addr < 0xFEA0 then
    let oam ← b.mem.oam.put (addr.toNat - 0xFE00) val
    return { b with mem := { b.mem with oam := oam } }
  else return b

def writeSoundChecked (env : Env σ) (addr : UInt16) (val : UInt8) (s : Sound σ) : Option (Sound σ) := do
  let soundRegs ← s.soundRegs.put (addr.toNat - 0xFF10) val
  return { soundRegs := soundRegs, soundContext := s.soundContext.map fun chip => env.soundWrite chip addr val }

/-- `memset` of a framebuffer that may not exist. -/
def Buffer.wipe (b : Option Buffer) (n : Nat) (v : UInt8) : Option (Option Buffer) :=
  match b with
  | none => some none
  | some b => if n ≤ b.size then some (some (.fill n v)) else none

def blankScreenChecked (s : Screen) : Option Screen := do
  let framebuf ← Buffer.wipe s.framebuf GB_FB_SIZE 0
  let colorFramebuf ← Buffer.wipe s.colorFramebuf (GB_W * GB_H) GB_PORT_COLOR_BLANK
  return { framebuf := framebuf, colorFramebuf := colorFramebuf }

def writeLcdcChecked (val : UInt8) (b : Bus σ) : Option (Bus σ) := do
  if hasBits b.lcd.lcdc 0x80 ≠ hasBits val 0x80 then
    let screen ← if hasBits val 0x80 then some b.screen else blankScreenChecked b.screen
    return checkStatInterrupt { b with lcd := toggleLcd b.lcd val, screen := screen }
  else return { b with lcd := { b.lcd with lcdc := val } }

def oamDmaChecked (env : Env σ) (val : UInt8) : Nat → Bus σ → Option (Bus σ)
  | 0, b => some b
  | n + 1, b => do
    let b ← oamDmaChecked env val n b
    let (v, b) ← readByteChecked env ((val.toUInt16 <<< 8) ||| UInt16.ofNat n) b
    let oam ← b.mem.oam.put n v
    return { b with mem := { b.mem with oam := oam } }

def hdmaLoopChecked (env : Env σ) (src dst : Nat) : Nat → Bus σ → Option (Bus σ)
  | 0, b => some b
  | n + 1, b => do
    let b ← hdmaLoopChecked env src dst n b
    if dst + n < 0xA000 then
      let (v, b) ← readByteChecked env (UInt16.ofNat (src + n)) b
      writeMemoryChecked env (UInt16.ofNat (dst + n)) v b
    else return b

def writeHdma5Checked (env : Env σ) (val : UInt8) (b : Bus σ) : Option (Bus σ) := do
  if ¬ b.cgb.isCgb then return b
  else
    let c := b.cgb
    let src : UInt16 := ((c.hdma1.toUInt16 <<< 8) ||| c.hdma2.toUInt16) &&& 0xFFF0
    let dst : UInt16 := ((0x8000 : UInt16) ||| (c.hdma3.toUInt16 <<< 8) ||| c.hdma4.toUInt16) &&& 0x9FF0
    let len := ((val &&& 0x7F).toNat + 1) * 16
    if 0xE000 ≤ src ∨ (0x8000 ≤ src ∧ src < 0xA000) then
      return { b with cgb := { c with hdma5 := (0x80 : UInt8) ||| (val &&& 0x7F) } }
    else
      let b ← hdmaLoopChecked env src.toNat dst.toNat len b
      return { b with cgb := { b.cgb with hdma5 := 0xFF } }

/-- The two palette data ports are the CGB registers with an array behind them. -/
def writeCgbChecked (n : Nat) (val : UInt8) (c : Cgb) : Option Cgb := do
  if c.isCgb ∧ n = 0xFF69 then
    let bgPalette ← c.bgPalette.put (c.bcpsReg &&& 0x3F).toNat val
    return { c with bgPalette := bgPalette, bcpsReg := advanceIndex c.bcpsReg }
  else if c.isCgb ∧ n = 0xFF6B then
    let objPalette ← c.objPalette.put (c.ocpsReg &&& 0x3F).toNat val
    return { c with objPalette := objPalette, ocpsReg := advanceIndex c.ocpsReg }
  else return writeCgb n val c

/-- The writes above 0xFF00 that reach an array; the other registers are plain fields. -/
def writeIoChecked (env : Env σ) (addr : UInt16) (val : UInt8) (b : Bus σ) : Option (Bus σ) := do
  if soundReg addr then
    let sound ← writeSoundChecked env addr val b.sound
    return { b with sound := sound }
  else if addr = 0xFF40 then writeLcdcChecked val b
  else if addr = 0xFF46 then oamDmaChecked env val 0xA0 b
  else if addr = 0xFF55 then writeHdma5Checked env val b
  else if addr = 0xFF69 ∨ addr = 0xFF6B then
    let cgb ← writeCgbChecked addr.toNat val b.cgb
    return { b with cgb := cgb }
  else if 0xFF80 ≤ addr ∧ addr < 0xFFFF then
    let hram ← b.mem.hram.put (addr.toNat - 0xFF80) val
    return { b with mem := { b.mem with hram := hram } }
  else return writeIo env addr val b

def writeByteChecked (env : Env σ) (addr : UInt16) (val : UInt8) (b : Bus σ) : Option (Bus σ) :=
  if addr < 0xFF00 then writeMemoryChecked env addr val b else writeIoChecked env addr val b

end FoloGameboy

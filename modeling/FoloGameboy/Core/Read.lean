/-
The read side of the memory bus: the ROM bank cache of a streaming session (`readCachedBank` over
`FsFile`), the full decoder `readByteSlow`, and the hot path `readByte` with its shortcuts.
-/
import FoloGameboy.Core.Mapper

namespace FoloGameboy

variable {σ : Type}

/-! ## The ROM file -/

def FsFile.seek (f : FsFile) (offset : Nat) : Bool × FsFile :=
  if f.attached ∧ offset ≤ f.length then (true, { f with position := offset }) else (false, f)

/-- `FsFile::read` into `dst`: whether all bytes were read, and what `dst` holds then. The read
callback is called only for a range inside the ROM. -/
def FsFile.read (env : Env σ) (f : FsFile) (romReads : Nat) (dst : Nat → UInt8) (bytes : Nat) :
    Bool × (Nat → UInt8) × FsFile × Nat :=
  if ¬ f.attached ∨ f.length < f.position ∨ f.length - f.position < bytes then (false, dst, f, romReads)
  else
    match env.romReadFails romReads with
    | some left => (false, fun i => if i < bytes then left i else dst i, f, romReads + 1)
    | none => (true, fun i => if i < bytes then env.rom (f.position + i) else dst i,
        { f with position := f.position + bytes }, romReads + 1)

/-- Load a bank into a cache slot; false is a failed seek or read. -/
def loadBank (env : Env σ) (bank slot : Nat) (r : RomAccess) : Bool × RomAccess :=
  match r.romFile.seek (bank * ROM_BANK_SIZE) with
  | (false, f) => (false, { r with romFile := f })
  | (true, f) =>
    let base := slot * ROM_BANK_SIZE
    let (ok, bytes, f, reads) := f.read env r.romReads (fun i => r.bankCache.data (base + i)) ROM_BANK_SIZE
    (ok, { r with bankCache := r.bankCache.blit base ROM_BANK_SIZE bytes, romFile := f, romReads := reads })

/-- The per-bank patches, applied only to a freshly loaded slot. -/
def patchSlot (env : Env σ) (bank slot : Nat) (r : RomAccess) : RomAccess :=
  let base := slot * ROM_BANK_SIZE
  let apply (p : (Nat → UInt8) → Nat → UInt8) (r : RomAccess) : RomAccess :=
    { r with bankCache := r.bankCache.blit base ROM_BANK_SIZE (p fun i => r.bankCache.data (base + i)) }
  let r := if r.pokemonRedPatch then apply (env.patchBank bank) r else r
  match r.romBank0 with
  | some bank0 => if r.gbPatchEnabled then apply (env.applyToBank bank bank0) r else r
  | none => r

def readCachedBank (env : Env σ) (bank offset : Nat) (r : RomAccess) : UInt8 × RomAccess :=
  if r.cacheSlots = 0 then
    match r.romFile.seek (bank * ROM_BANK_SIZE + offset) with
    | (false, f) => (0xFF, { r with romFile := f, romIoFailed := true })
    | (true, f) =>
      let (ok, val, f, reads) := f.read env r.romReads (fun _ => 0) 1
      if ok then (val 0, { r with romFile := f, romReads := reads })
      else (0xFF, { r with romFile := f, romReads := reads, romIoFailed := true })
  else
    match (List.range r.cacheSlots).find? fun i => r.cacheMap i == (bank : Int) with
    | some i => (r.bankCache.get (i * ROM_BANK_SIZE + offset), r)
    | none =>
      let slot := r.cacheNextSlot
      match loadBank env bank slot { r with cacheNextSlot := (slot + 1) % r.cacheSlots } with
      | (false, r) => (0xFF, { r with romIoFailed := true })
      | (true, r) =>
        let r := { r with cacheMap := fun i => if i = slot then (bank : Int) else r.cacheMap i }
        let r := patchSlot env bank slot r
        (r.bankCache.get (slot * ROM_BANK_SIZE + offset), r)

/-! ## Cheats -/

/-- The active cheat's value for a ROM byte, if one matches. -/
def cheatLookup (cheats : List Cheat) (sys : SystemType) (addr : UInt16) (original : UInt8) : Option UInt8 :=
  (cheats.find? fun c => c.active && c.system == sys && c.address == addr &&
    !(c.useCompare && original != c.compare)).map (·.value)

def cheatWrap (env : Env σ) (addr : UInt16) (real : UInt8) : UInt8 :=
  (cheatLookup env.cheats .gameboy addr real).getD real

/-! ## The full decoder -/

/-- A byte of a buffer that may be missing. -/
def Buffer.byteOf (b : Option Buffer) (i : Nat) : UInt8 := (b.map fun b => b.get i).getD 0

/-- 0x0000-0x3FFF: bank 0, or the bank of the upper register in MBC1 mode 1. -/
def readRomLow (env : Env σ) (addr : UInt16) (b : Bus σ) : UInt8 × Bus σ :=
  let r := b.rom
  if b.mbc.mbcType = .mbc1 ∧ b.mbc.mbc1Mode = 1 then
    let effectiveBank := b.mbc.mbc1Bank2.toNat <<< 5
    let effectiveBank := if r.romBankCount ≤ effectiveBank then effectiveBank % r.romBankCount else effectiveBank
    if r.romInRam then
      (cheatWrap env addr (Buffer.byteOf r.romData (effectiveBank * ROM_BANK_SIZE + addr.toNat)), b)
    else if effectiveBank = 0 then (cheatWrap env addr (Buffer.byteOf r.romBank0 addr.toNat), b)
    else
      let (real, r) := readCachedBank env effectiveBank addr.toNat r
      (cheatWrap env addr real, { b with rom := r })
  else
    let real := if r.romInRam then Buffer.byteOf r.romData addr.toNat else Buffer.byteOf r.romBank0 addr.toNat
    (cheatWrap env addr real, b)

/-- 0x4000-0x7FFF: the selected bank. -/
def readRomHigh (env : Env σ) (addr : UInt16) (b : Bus σ) : UInt8 × Bus σ :=
  let r := b.rom
  let bank := b.mbc.romBank.toNat
  let bank := if r.romBankCount ≤ bank then bank % r.romBankCount else bank
  if r.romInRam then
    (cheatWrap env addr (Buffer.byteOf r.romData (bank * ROM_BANK_SIZE + (addr.toNat - 0x4000))), b)
  else
    let (real, r) := readCachedBank env bank (addr.toNat - 0x4000) r
    (cheatWrap env addr real, { b with rom := r })

/-- The index into `sramData` for an address in the external RAM window, for `ramBank` 0-3. -/
def sramIndex (ramBank : UInt8) (addr : UInt16) : Nat := ramBank.toNat * RAM_BANK_SIZE + (addr.toNat - 0xA000)

/-- `ramBank_` selects an MBC3 clock register. -/
def rtcSelected (m : MbcState) : Bool := m.mbcType == .mbc3 && 0x08 ≤ m.ramBank && m.ramBank ≤ 0x0C

def readExternalRam (env : Env σ) (addr : UInt16) (b : Bus σ) : UInt8 × Bus σ :=
  if ¬ b.mbc.ramEnabled then (0xFF, b)
  else if b.mbc.mbcType = .mbc2 then
    -- 512 nibbles mirrored over the whole window
    (0xF0 ||| (b.mem.sramData.get ((addr.toNat - 0xA000) &&& 0x1FF) &&& 0x0F), b)
  else if rtcSelected b.mbc then
    let rtc := tickRTC env b.rtc
    (rtc.rtcLatched.get (b.mbc.ramBank.toNat - 0x08), { b with rtc := rtc })
  else if b.mbc.ramBank ≤ 3 then
    let idx := sramIndex b.mbc.ramBank addr
    if b.mem.sramPersistSize ≤ idx then (0xFF, b) else (b.mem.sramData.get idx, b)
  else (0xFF, b)

/-- A CGB WRAM bank above 1 is selected and its buffer exists. -/
def wramBanked (b : Bus σ) : Bool := b.cgb.isCgb && 2 ≤ b.cgb.wramBank && b.mem.wramExtra.isSome

/-- The index into `wramExtra` for an address in 0xD000-0xDFFF. -/
def wramExtraIndex (wramBank : UInt8) (addr : Nat) : Nat := (wramBank.toNat - 2) * 0x1000 + (addr - 0xD000)

/-- 0xC000-0xDFFF, also reached through the echo. -/
def readWram (addr : Nat) (b : Bus σ) : UInt8 :=
  if addr < 0xD000 then b.mem.wram.get (addr - 0xC000)
  else if wramBanked b then Buffer.byteOf b.mem.wramExtra (wramExtraIndex b.cgb.wramBank addr)
  else b.mem.wram.get (addr - 0xC000)

/-- The addresses the sound chip answers: FF10-FF14, FF16-FF1E, FF20-FF26 and FF30-FF3F. -/
def soundReg (addr : UInt16) : Bool :=
  (0xFF10 ≤ addr && addr ≤ 0xFF14) || (0xFF16 ≤ addr && addr ≤ 0xFF1E) ||
    (0xFF20 ≤ addr && addr ≤ 0xFF26) || (0xFF30 ≤ addr && addr ≤ 0xFF3F)

def readSound (env : Env σ) (addr : UInt16) (s : Sound σ) : UInt8 :=
  match s.soundContext with
  | some chip => env.soundRead chip addr
  | none => s.soundRegs.get (addr.toNat - 0xFF10)

def readJoypad (p : Joypad) : UInt8 :=
  let result := 0xCF
  let result := if ¬ hasBits p.joypadSelect 0x10 then result &&& (p.joyDpad ||| 0xF0) else result
  if ¬ hasBits p.joypadSelect 0x20 then result &&& (p.joyButtons ||| 0xF0) else result

/-- 0xFF41: the stored enable bits with the line match and the mode. -/
def readStat (l : Lcd) : UInt8 := l.lcdstat ||| 0x80 ||| (if l.ly = l.lyc then 4 else 0) ||| (l.ppuMode &&& 3)

def readIo (env : Env σ) (addr : UInt16) (b : Bus σ) : UInt8 :=
  if soundReg addr then readSound env addr b.sound
  else
    let cgbOnly (v : UInt8) : UInt8 := if b.cgb.isCgb then v else 0xFF
    match addr.toNat with
    | 0xFF00 => readJoypad b.pad
    | 0xFF01 => b.serial.sbReg
    | 0xFF02 => b.serial.scReg ||| 0x7E
    | 0xFF04 => b.timer.divReg
    | 0xFF05 => b.timer.tima
    | 0xFF06 => b.timer.tma
    | 0xFF07 => b.timer.tac ||| 0xF8
    | 0xFF0F => b.irq.iflag ||| 0xE0
    | 0xFF40 => b.lcd.lcdc
    | 0xFF41 => readStat b.lcd
    | 0xFF42 => b.lcd.scy
    | 0xFF43 => b.lcd.scx
    | 0xFF44 => if hasBits b.lcd.lcdc 0x80 then b.lcd.ly else 0
    | 0xFF45 => b.lcd.lyc
    | 0xFF47 => b.lcd.bgp
    | 0xFF48 => b.lcd.obp0
    | 0xFF49 => b.lcd.obp1
    | 0xFF4A => b.lcd.wy
    | 0xFF4B => b.lcd.wx
    | 0xFF4D => cgbOnly ((if b.cgb.doubleSpeed then 0x80 else 0) ||| (b.cgb.key1 &&& 0x01) ||| 0x7E)
    | 0xFF4F => cgbOnly (b.cgb.vramBank ||| 0xFE)
    | 0xFF51 => cgbOnly b.cgb.hdma1
    | 0xFF52 => cgbOnly b.cgb.hdma2
    | 0xFF53 => cgbOnly b.cgb.hdma3
    | 0xFF54 => cgbOnly b.cgb.hdma4
    | 0xFF55 => cgbOnly b.cgb.hdma5
    | 0xFF68 => cgbOnly b.cgb.bcpsReg
    | 0xFF69 => cgbOnly (b.cgb.bgPalette.get (b.cgb.bcpsReg &&& 0x3F).toNat)
    | 0xFF6A => cgbOnly b.cgb.ocpsReg
    | 0xFF6B => cgbOnly (b.cgb.objPalette.get (b.cgb.ocpsReg &&& 0x3F).toNat)
    | 0xFF70 => cgbOnly (b.cgb.wramBank ||| 0xF8)
    | 0xFFFF => b.irq.ie
    | n => if 0xFF80 ≤ n ∧ n < 0xFFFF then b.mem.hram.get (n - 0xFF80) else 0xFF

def readByteSlow (env : Env σ) (addr : UInt16) (b : Bus σ) : UInt8 × Bus σ :=
  if addr < 0x4000 then readRomLow env addr b
  else if addr < 0x8000 then readRomHigh env addr b
  else if addr < 0xA000 then
    match b.mem.vram1 with
    | some bank1 =>
      if b.cgb.isCgb ∧ b.cgb.vramBank ≠ 0 then (bank1.get (addr.toNat - 0x8000), b)
      else (b.mem.vram.get (addr.toNat - 0x8000), b)
    | none => (b.mem.vram.get (addr.toNat - 0x8000), b)
  else if addr < 0xC000 then readExternalRam env addr b
  else if addr < 0xE000 then (readWram addr.toNat b, b)
  else if addr < 0xFE00 then (readWram (addr.toNat - 0x2000) b, b)
  else if addr < 0xFEA0 then (b.mem.oam.get (addr.toNat - 0xFE00), b)
  else if addr < 0xFF00 then (0xFF, b)
  else (readIo env addr b, b)

/-! ## The hot path -/

/-- `mappedRomBanks_[addr >> 14]`. -/
def mappedRomBank (r : RomAccess) (addr : UInt16) : Option Nat :=
  if addr < 0x4000 then r.mappedRomBank0 else r.mappedRomBank1

/-- The shortcuts of `readByte` behind the mapped ROM: HRAM, then the unbanked part of WRAM. -/
def readByteRam (env : Env σ) (addr : UInt16) (b : Bus σ) : UInt8 × Bus σ :=
  if 0xFF80 ≤ addr ∧ addr ≠ 0xFFFF then (b.mem.hram.get (addr.toNat - 0xFF80), b)
  else if (0xC000 ≤ addr ∧ addr < 0xE000) ∧
      (addr < 0xD000 ∨ ¬ b.cgb.isCgb ∨ b.cgb.wramBank < 2 ∨ b.mem.wramExtra.isNone) then
    (b.mem.wram.get (addr.toNat - 0xC000), b)
  else readByteSlow env addr b

def readByte (env : Env σ) (addr : UInt16) (b : Bus σ) : UInt8 × Bus σ :=
  if addr < 0x8000 then
    match mappedRomBank b.rom addr with
    | some base => (cheatWrap env addr (Buffer.byteOf b.rom.romData (base + (addr &&& 0x3fff).toNat)), b)
    | none => readByteSlow env addr b
  else readByteRam env addr b

end FoloGameboy

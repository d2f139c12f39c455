/-
The state of `GBEmulator`, grouped as the class groups its members, and the environment it runs
in: the ROM bytes behind the host's read callback, which of its reads fail, the clock, the active
cheats and the sound chip.
-/
import FoloGameboy.Lib.Buffer

namespace FoloGameboy

/-! ## Constants -/

def GB_W : Nat := 160
def GB_H : Nat := 144
def ROM_BANK_SIZE : Nat := 0x4000
def RAM_BANK_SIZE : Nat := 0x2000
def GB_FB_SIZE : Nat := GB_W * GB_H / 4
def GB_FB_STRIDE : Nat := GB_W / 4
def GB_VRAM_SIZE : Nat := 0x2000
def GB_WRAM_SIZE : Nat := 0x2000
/-- Colour framebuffer indices 0..63 select palettes; 64 is LCD-off white. -/
def GB_PORT_COLOR_BLANK : UInt8 := 64

/-- A register tested against a mask, as C tests `x & mask`. -/
def hasBits (x mask : UInt8) : Bool := !(x &&& mask == 0)

/-- What holds of the 256 bytes one by one. -/
theorem forall_byte {P : UInt8 → Prop} (h : ∀ n < 256, P (UInt8.ofNat n)) (x : UInt8) : P x := by
  have hx := h x.toNat x.toNat_lt
  rwa [UInt8.ofNat_toNat] at hx

/-! ## The environment -/

inductive SystemType where
  | none | gameboy | chip8 | nes | zxSpectrum | zMachine | doom
deriving DecidableEq

/-- An entry of the active cheat list (without its label and code texts). -/
structure Cheat where
  system : SystemType
  address : UInt16
  value : UInt8
  compare : UInt8
  useCompare : Bool
  active : Bool

/-- What the emulator calls. The `n`-th call of the ROM read callback delivers the ROM bytes when
`romReadFails n` is `none`; otherwise it returns false and leaves the given bytes behind. -/
structure Env (σ : Type) where
  rom : Nat → UInt8
  romReadFails : Nat → Option (Nat → UInt8)
  /-- The `n`-th reading of the millisecond clock (`unsigned long` on the device). -/
  millis : Nat → UInt32
  cheats : List Cheat
  soundWrite : σ → UInt16 → UInt8 → σ
  soundRead : σ → UInt16 → UInt8
  /-- `pokered::patchBank` and `gbpatches::applyToBank` on a freshly loaded bank. -/
  patchBank : Nat → (Nat → UInt8) → Nat → UInt8
  applyToBank : Nat → Buffer → (Nat → UInt8) → Nat → UInt8

/-! ## Memory and cartridge -/

structure Memory where
  sramSize : Nat := 1
  sramPersistSize : Nat := 0
  sramDirty : Bool := false
  vram : Buffer := .fill 0 0
  wram : Buffer := .fill 0 0
  oam : Buffer := .fill 0xA0 0
  hram : Buffer := .fill 0x80 0
  sramData : Buffer := .fill 0 0
  /-- VRAM bank 1 and WRAM banks 2-7, only for CGB. -/
  vram1 : Option Buffer := none
  wramExtra : Option Buffer := none

/-- The DMG framebuffer (2 bits a pixel) and the CGB one (a palette index a pixel). -/
structure Screen where
  framebuf : Option Buffer := none
  colorFramebuf : Option Buffer := none

/-- `FsFile` attached to the ROM read callback. -/
structure FsFile where
  attached : Bool := false
  length : Nat := 0
  position : Nat := 0

structure RomAccess where
  romData : Option Buffer := none
  romSize : Nat := 0
  romBankCount : Nat := 0
  romInRam : Bool := false
  /-- `mappedRomBanks_[0..1]`, as offsets into `romData`. -/
  mappedRomBank0 : Option Nat := none
  mappedRomBank1 : Option Nat := none
  romFile : FsFile := {}
  romBank0 : Option Buffer := none
  bankCache : Buffer := .fill 0 0
  cacheSlots : Nat := 0
  cacheMap : Nat → Int := fun _ => -1
  cacheNextSlot : Nat := 0
  romIoFailed : Bool := false
  /-- Calls of the ROM read callback made so far. -/
  romReads : Nat := 0
  pokemonRedPatch : Bool := false
  gbPatchEnabled : Bool := false

inductive MBCType where
  | none | mbc1 | mbc2 | mbc3 | mbc5
deriving DecidableEq

structure MbcState where
  mbcType : MBCType := .mbc3
  romBank : UInt16 := 1
  ramBank : UInt8 := 0
  ramEnabled : Bool := false
  mbc1Mode : UInt8 := 0
  mbc1Bank2 : UInt8 := 0

/-! ## Processor and devices -/

structure Cpu where
  pc : UInt16 := 0
  sp : UInt16 := 0
  a : UInt8 := 0
  f : UInt8 := 0
  b : UInt8 := 0
  c : UInt8 := 0
  d : UInt8 := 0
  e : UInt8 := 0
  h : UInt8 := 0
  l : UInt8 := 0
  ime : Bool := false
  halted : Bool := false
  haltBug : Bool := false
  eiPending : Bool := false

structure Irq where
  ie : UInt8 := 0
  iflag : UInt8 := 0

structure Lcd where
  lcdc : UInt8 := 0
  lcdstat : UInt8 := 0
  scy : UInt8 := 0
  scx : UInt8 := 0
  ly : UInt8 := 0
  lyc : UInt8 := 0
  bgp : UInt8 := 0
  obp0 : UInt8 := 0
  obp1 : UInt8 := 0
  wy : UInt8 := 0
  wx : UInt8 := 0
  /-- 0=HBlank, 1=VBlank, 2=OAM, 3=Transfer -/
  ppuMode : UInt8 := 0
  ppuDots : Int := 0
  frameOvershoot : Int := 0
  lcdChanged : Bool := false
  lcdFirstFrame : Bool := false
  windowLine : Nat := 0
  prevStatLine : Bool := false

structure Timer where
  tima : UInt8 := 0
  tma : UInt8 := 0
  tac : UInt8 := 0
  timerCounter : UInt16 := 0
  divCounter : UInt16 := 0
  divReg : UInt8 := 0

structure Joypad where
  joyDpad : UInt8 := 0x0F
  joyButtons : UInt8 := 0x0F
  joypadSelect : UInt8 := 0
  prevInputButtons : UInt8 := 0

structure Serial where
  sbReg : UInt8 := 0xFF
  scReg : UInt8 := 0x7E

structure Sound (σ : Type) where
  soundRegs : Buffer := .fill 0x30 0
  /-- The sound chip behind `soundRead_` and `soundWrite_`, when they are set. -/
  soundContext : Option σ := none

structure Rtc where
  rtcSec : UInt8 := 0
  rtcMin : UInt8 := 0
  rtcHour : UInt8 := 0
  rtcDay : UInt8 := 0
  /-- [carry:7][halt:6][reserved:5..1][day8:0] -/
  rtcDayHi : UInt8 := 0
  rtcLatched : Buffer := .fill 5 0
  rtcLatchPrev : Bool := false
  rtcLastTickMs : UInt32 := 0
  /-- Readings of the clock made so far. -/
  clockReads : Nat := 0

structure Cgb where
  isCgb : Bool := false
  vramBank : UInt8 := 0
  wramBank : UInt8 := 1
  key1 : UInt8 := 0
  doubleSpeed : Bool := false
  bcpsReg : UInt8 := 0
  ocpsReg : UInt8 := 0
  bgPalette : Buffer := .fill 64 0
  objPalette : Buffer := .fill 64 0
  hdma1 : UInt8 := 0
  hdma2 : UInt8 := 0
  hdma3 : UInt8 := 0
  hdma4 : UInt8 := 0
  hdma5 : UInt8 := 0xFF

/-- Everything the memory bus reaches: all of the emulator but the processor's own registers. -/
structure Bus (σ : Type) where
  mem : Memory := {}
  screen : Screen := {}
  rom : RomAccess := {}
  mbc : MbcState := {}
  irq : Irq := {}
  lcd : Lcd := {}
  timer : Timer := {}
  pad : Joypad := {}
  serial : Serial := {}
  sound : Sound σ := {}
  rtc : Rtc := {}
  cgb : Cgb := {}
  renderThisFrame : Bool := true
  shadeRemap : Nat → UInt8 := fun shade => UInt8.ofNat shade

structure GBEmulator (σ : Type) where
  cpu : Cpu := {}
  bus : Bus σ := {}
  frameCount : Int := 0

end FoloGameboy

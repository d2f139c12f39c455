/-
The cartridge mapper: `detectMBC`, `refreshMappedRomBanks`, the register writes of the five
mapper types (`writeMBC`) and the MBC3 clock they latch (`tickRTC`).
-/
import FoloGameboy.Core.State

namespace FoloGameboy

variable {σ : Type}

/-! ## The MBC3 clock -/

/-- Advance the virtual clock by the whole seconds since the last tick. A reading of zero means
that no anchor is set; while the halt bit is set only the anchor moves. -/
def tickRTC (env : Env σ) (r : Rtc) : Rtc :=
  let now := env.millis r.clockReads
  let r := { r with clockReads := r.clockReads + 1 }
  if r.rtcLastTickMs = 0 then { r with rtcLastTickMs := now }
  else if hasBits r.rtcDayHi 0x40 then { r with rtcLastTickMs := now }
  else
    let elapsed : UInt32 := (now - r.rtcLastTickMs) / 1000
    if elapsed = 0 then r
    else
      let day : UInt64 := (r.rtcDay.toUInt16 ||| ((r.rtcDayHi &&& 1).toUInt16 <<< 8)).toUInt64
      let total : UInt64 := day * 86400 + (r.rtcHour.toUInt32 * 3600).toUInt64 +
        (r.rtcMin.toUInt32 * 60).toUInt64 + r.rtcSec.toUInt64 + elapsed.toUInt64
      let days := total / 86400
      let dayHi := if 512 ≤ days then r.rtcDayHi ||| 0x80 else r.rtcDayHi
      let day := days % 512
      let total := total % 86400
      { r with
        rtcLastTickMs := r.rtcLastTickMs + elapsed * 1000
        rtcHour := (total / 3600).toUInt8
        rtcMin := ((total % 3600) / 60).toUInt8
        rtcSec := (total % 60).toUInt8
        rtcDay := day.toUInt8
        rtcDayHi := (dayHi &&& (0xc0 : UInt8)) ||| (day >>> 8).toUInt8 }

/-- Copy the clock registers into the readable latch. -/
def latchRTC (r : Rtc) : Rtc :=
  let latched := ((r.rtcLatched.set 0 r.rtcSec).set 1 r.rtcMin).set 2 r.rtcHour
  { r with rtcLatched := (latched.set 3 r.rtcDay).set 4 r.rtcDayHi }

/-! ## Bank selection -/

def detectMBC (cartType : UInt8) : MBCType :=
  match cartType.toNat with
  | 0x00 => .none
  | 0x01 | 0x02 | 0x03 => .mbc1
  | 0x05 | 0x06 => .mbc2
  | 0x0F | 0x10 | 0x11 | 0x12 | 0x13 => .mbc3
  | 0x19 | 0x1A | 0x1B | 0x1C | 0x1D | 0x1E => .mbc5
  | _ => .none

/-- The bank the mapper asks for in the low window, before reduction modulo the bank count. -/
def lowBank (m : MbcState) : Nat :=
  if m.mbcType = .mbc1 ∧ m.mbc1Mode = 1 then m.mbc1Bank2.toNat <<< 5 else 0

def refreshMappedRomBanks (m : MbcState) (r : RomAccess) : RomAccess :=
  if ¬ r.romInRam ∨ r.romData.isNone ∨ r.romBankCount = 0 then
    { r with mappedRomBank0 := none, mappedRomBank1 := none }
  else
    { r with
      mappedRomBank0 := some (lowBank m % r.romBankCount * ROM_BANK_SIZE)
      mappedRomBank1 := some (m.romBank.toNat % r.romBankCount * ROM_BANK_SIZE) }

/-! ## Register writes -/

def ramEnableValue (val : UInt8) : Bool := val &&& 0x0F = 0x0A

def mbc1Write (m : MbcState) (addr : UInt16) (val : UInt8) : MbcState :=
  if addr < 0x2000 then { m with ramEnabled := ramEnableValue val }
  else if addr < 0x4000 then
    let bank := val &&& 0x1F
    let bank := if bank = 0 then 1 else bank
    { m with romBank := (m.mbc1Bank2.toUInt16 <<< 5) ||| bank.toUInt16 }
  else if addr < 0x6000 then
    let m := { m with mbc1Bank2 := val &&& 0x03 }
    -- mode 0: the register is the upper ROM bank bits; mode 1: it is the RAM bank
    if m.mbc1Mode = 0 then { m with romBank := (m.mbc1Bank2.toUInt16 <<< 5) ||| (m.romBank &&& 0x1F) }
    else { m with ramBank := m.mbc1Bank2 }
  else
    let m := { m with mbc1Mode := val &&& 0x01 }
    if m.mbc1Mode = 0 then { m with ramBank := 0 } else m

def mbc2Write (m : MbcState) (addr : UInt16) (val : UInt8) : MbcState :=
  if addr < 0x4000 then
    if ¬ addr &&& 0x0100 = 0 then
      let bank := (val &&& 0x0F).toUInt16
      { m with romBank := if bank = 0 then 1 else bank }
    else { m with ramEnabled := ramEnableValue val }
  else m

def mbc3Write (m : MbcState) (addr : UInt16) (val : UInt8) : MbcState :=
  if addr < 0x2000 then { m with ramEnabled := ramEnableValue val }
  else if addr < 0x4000 then
    let bank := (val &&& 0x7F).toUInt16
    { m with romBank := if bank = 0 then 1 else bank }
  else if addr < 0x6000 then { m with ramBank := val }
  else m

/-- The clock's part of an MBC3 write: a 1 above 0x6000 latches it, where it does not follow a 0. -/
def mbc3Latch (env : Env σ) (r : Rtc) (addr : UInt16) (val : UInt8) : Rtc :=
  if addr < 0x6000 then r
  else
    let r := if val = 0x01 ∧ r.rtcLatchPrev = false then latchRTC (tickRTC env r) else r
    { r with rtcLatchPrev := val = 0x00 }

def mbc5Write (m : MbcState) (addr : UInt16) (val : UInt8) : MbcState :=
  if addr < 0x2000 then { m with ramEnabled := ramEnableValue val }
  else if addr < 0x3000 then { m with romBank := (m.romBank &&& (0x100 : UInt16)) ||| val.toUInt16 }
  else if addr < 0x4000 then
    { m with romBank := (m.romBank &&& (0xFF : UInt16)) ||| ((val &&& 0x01).toUInt16 <<< 8) }
  else if addr < 0x6000 then { m with ramBank := val &&& 0x0F }
  else m

/-- The mapper registers after a write below 0x8000. -/
def mbcWrite (m : MbcState) (addr : UInt16) (val : UInt8) : MbcState :=
  match m.mbcType with
  | .none => m
  | .mbc1 => mbc1Write m addr val
  | .mbc2 => mbc2Write m addr val
  | .mbc3 => mbc3Write m addr val
  | .mbc5 => mbc5Write m addr val

def writeMBC (env : Env σ) (addr : UInt16) (val : UInt8) (b : Bus σ) : Bus σ :=
  let m := mbcWrite b.mbc addr val
  { b with
    mbc := m
    rtc := if b.mbc.mbcType = .mbc3 then mbc3Latch env b.rtc addr val else b.rtc
    rom := refreshMappedRomBanks m b.rom }

end FoloGameboy

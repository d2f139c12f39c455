/-
MBC2, MBC3 and MBC5: in whatever order the registers of the mapper were written, and whatever else the guest did
in between, the banks are those of the values written to each register last.
-/
import FoloGameboy.Core.Logged
import FoloGameboy.Core.Mbc1
import FoloGameboy.Core.Shape
import FoloGameboy.Lib.Store

namespace FoloGameboy

variable {σ : Type} {env : Env σ}

/-! ## Registers -/

inductive MapperReg where
  | ramEnable | romBank | romBankHigh | ramBank
deriving DecidableEq

/-- The register an address below 0x8000 is. MBC2 tells its two apart by address bit 8, and MBC5 has the ninth
bit of the bank number apart. -/
def mapperReg (t : MBCType) (addr : UInt16) : Option MapperReg :=
  match t with
  | .mbc2 => if 0x4000 ≤ addr then none else if addr &&& 0x0100 = 0 then some .ramEnable else some .romBank
  | .mbc3 =>
    if addr < 0x2000 then some .ramEnable
    else if addr < 0x4000 then some .romBank
    else if addr < 0x6000 then some .ramBank
    -- from 0x6000 on a write latches the clock
    else none
  | .mbc5 =>
    if addr < 0x2000 then some .ramEnable
    else if addr < 0x3000 then some .romBank
    else if addr < 0x4000 then some .romBankHigh
    else if addr < 0x6000 then some .ramBank
    else none
  | _ => none

/-- The register a bus operation writes, with the value. -/
def mapperWrites (t : MBCType) : BusOp → List (MapperReg × UInt8)
  | .write addr val => if addr < 0x8000 then (mapperReg t addr).toList.map fun r => (r, val) else []
  | _ => []

/-- The value written last to a register, or the one of power-on. -/
def lastValue (log : List (MapperReg × UInt8)) (r : MapperReg) : UInt8 :=
  (Store.lastTo r log).getD (if r = .romBank then 1 else 0)

/-- The ROM bank of the last values: 4 bits and 7 bits where 0 counts as 1, or 9 bits. -/
def selectedRomBank (t : MBCType) (log : List (MapperReg × UInt8)) : Nat :=
  let low := lastValue log .romBank
  match t with
  | .mbc2 => if low &&& 0x0F = 0 then 1 else (low &&& 0x0F).toNat
  | .mbc3 => if low &&& 0x7F = 0 then 1 else (low &&& 0x7F).toNat
  | .mbc5 => (lastValue log .romBankHigh &&& 1).toNat * 256 + low.toNat
  | _ => 1

def selectedRamBank (t : MBCType) (log : List (MapperReg × UInt8)) : UInt8 :=
  match t with
  | .mbc3 => lastValue log .ramBank
  | .mbc5 => lastValue log .ramBank &&& 0x0F
  | _ => 0

/-- The three mappers whose registers do not depend on each other. -/
def Simple (t : MBCType) : Prop := t = .mbc2 ∨ t = .mbc3 ∨ t = .mbc5

/-- The mapper holds the last values. -/
structure HoldsLast (t : MBCType) (log : List (MapperReg × UInt8)) (m : MbcState) : Prop where
  mbcType : m.mbcType = t
  ramEnabled : m.ramEnabled = ramEnableValue (lastValue log .ramEnable)
  romBank : m.romBank.toNat = selectedRomBank t log
  ramBank : m.ramBank = selectedRamBank t log

/-! ## One write -/

theorem lastValue_concat (log : List (MapperReg × UInt8)) (r r' : MapperReg) (val : UInt8) :
    lastValue (log ++ [(r', val)]) r = if r' = r then val else lastValue log r := by
  unfold lastValue
  rw [Store.lastTo_append]
  unfold Store.lastTo Store.lastTo
  rw [Option.none_or]
  by_cases hr : r' = r
  · rw [if_pos hr, if_pos hr]
    rfl
  · rw [if_neg hr, if_neg hr]
    rfl

theorem bank_toNat (val mask : UInt8) : (if (val &&& mask).toUInt16 = 0 then 1 else (val &&& mask).toUInt16).toNat =
    if val &&& mask = 0 then 1 else (val &&& mask).toNat := by
  have hzero : (val &&& mask).toUInt16 = 0 ↔ val &&& mask = 0 := by
    rw [← UInt16.toNat_inj, ← UInt8.toNat_inj]
    exact Iff.rfl
  by_cases h : val &&& mask = 0
  · rw [if_pos (hzero.2 h), if_pos h]
    rfl
  · rw [if_neg (fun h' => h (hzero.1 h')), if_neg h]
    rfl

/-- The two parts of a nine bit bank number. -/
theorem bank_parts : ∀ high < 2, ∀ low < 256, UInt16.ofNat (high * 256 + low) &&& 0x100 = UInt16.ofNat (high * 256) ∧
    UInt16.ofNat (high * 256 + low) &&& 0xFF = UInt16.ofNat low ∧
    (UInt16.ofNat (high * 256) ||| UInt16.ofNat low).toNat = high * 256 + low ∧
    (UInt16.ofNat low ||| (UInt16.ofNat high <<< 8)).toNat = high * 256 + low := by decide +kernel

theorem oneBit_lt (val : UInt8) : (val &&& 1).toNat < 2 := by
  rcases oneBit_cases val with h | h <;> rw [h] <;> decide

theorem toUInt16_eq (val : UInt8) : val.toUInt16 = UInt16.ofNat val.toNat := by
  rw [← UInt16.toNat_inj, UInt16.toNat_ofNat_of_lt' (Nat.lt_trans val.toNat_lt (by decide))]
  rfl

/-- MBC5 replaces the lower eight bits, or the ninth one. -/
theorem mbc5_low {bank : UInt16} {high low : UInt8} (h : bank.toNat = (high &&& 1).toNat * 256 + low.toNat)
    (val : UInt8) : ((bank &&& (0x100 : UInt16)) ||| val.toUInt16).toNat = (high &&& 1).toNat * 256 + val.toNat := by
  rw [← UInt16.ofNat_toNat (x := bank), h, toUInt16_eq, (bank_parts _ (oneBit_lt high) _ low.toNat_lt).1]
  exact (bank_parts _ (oneBit_lt high) _ val.toNat_lt).2.2.1

theorem mbc5_high {bank : UInt16} {high low : UInt8} (h : bank.toNat = (high &&& 1).toNat * 256 + low.toNat)
    (val : UInt8) : ((bank &&& (0xFF : UInt16)) ||| ((val &&& 0x01).toUInt16 <<< 8)).toNat =
      (val &&& 1).toNat * 256 + low.toNat := by
  rw [← UInt16.ofNat_toNat (x := bank), h, toUInt16_eq, (bank_parts _ (oneBit_lt high) _ low.toNat_lt).2.1]
  exact (bank_parts _ (oneBit_lt val) _ low.toNat_lt).2.2.2

section
variable {t : MBCType} {log : List (MapperReg × UInt8)} {m : MbcState}

theorem lastValue_self (r : MapperReg) (val : UInt8) : lastValue (log ++ [(r, val)]) r = val := by
  rw [lastValue_concat, if_pos rfl]

theorem lastValue_other {r r' : MapperReg} (h : r' ≠ r) (val : UInt8) :
    lastValue (log ++ [(r', val)]) r = lastValue log r := by
  rw [lastValue_concat, if_neg h]

theorem selectedRomBank_other {r : MapperReg} (hlow : r ≠ .romBank) (hhigh : r ≠ .romBankHigh) (val : UInt8) :
    selectedRomBank t (log ++ [(r, val)]) = selectedRomBank t log := by
  unfold selectedRomBank
  rw [lastValue_other hlow, lastValue_other hhigh]

theorem selectedRamBank_other {r : MapperReg} (h : r ≠ .ramBank) (val : UInt8) :
    selectedRamBank t (log ++ [(r, val)]) = selectedRamBank t log := by
  unfold selectedRamBank
  rw [lastValue_other h]

namespace HoldsLast

/-- A write to no register. -/
theorem noReg (h : HoldsLast t log m) : HoldsLast t (log ++ []) m := by
  rwa [List.append_nil]

theorem ramEnable (h : HoldsLast t log m) (val : UInt8) :
    HoldsLast t (log ++ [(.ramEnable, val)]) { m with ramEnabled := ramEnableValue val } where
  mbcType := h.mbcType
  ramEnabled := congrArg ramEnableValue (lastValue_self .ramEnable val).symm
  romBank := h.romBank.trans (selectedRomBank_other (by decide) (by decide) val).symm
  ramBank := h.ramBank.trans (selectedRamBank_other (by decide) val).symm

/-- A write to a ROM bank register, if it selects the bank of the last values. -/
theorem bankReg (h : HoldsLast t log m) {r : MapperReg} (hr : r = .romBank ∨ r = .romBankHigh) {val : UInt8}
    {bank : UInt16} (hbank : bank.toNat = selectedRomBank t (log ++ [(r, val)])) :
    HoldsLast t (log ++ [(r, val)]) { m with romBank := bank } := by
  have hkept : r ≠ .ramEnable ∧ r ≠ .ramBank := by
    rcases hr with rfl | rfl <;> decide
  refine ⟨h.mbcType, ?_, hbank, ?_⟩
  · exact h.ramEnabled.trans (congrArg ramEnableValue (lastValue_other hkept.1 val).symm)
  · exact h.ramBank.trans (selectedRamBank_other hkept.2 val).symm

theorem ramReg (h : HoldsLast t log m) {val bank : UInt8}
    (hbank : bank = selectedRamBank t (log ++ [(.ramBank, val)])) :
    HoldsLast t (log ++ [(.ramBank, val)]) { m with ramBank := bank } where
  mbcType := h.mbcType
  ramEnabled := h.ramEnabled.trans (congrArg ramEnableValue (lastValue_other (by decide) val).symm)
  romBank := h.romBank.trans (selectedRomBank_other (by decide) (by decide) val).symm
  ramBank := hbank

theorem write_mbc2 (h : HoldsLast .mbc2 log m) (addr : UInt16) (val : UInt8) :
    HoldsLast .mbc2 (log ++ (mapperReg .mbc2 addr).toList.map fun r => (r, val)) (mbc2Write m addr val) := by
  unfold mapperReg mbc2Write
  dsimp only
  by_cases hrom : addr < 0x4000
  · rw [if_pos hrom, if_neg (UInt16.not_le.2 hrom)]
    by_cases hbit : addr &&& 0x0100 = 0
    · rw [if_neg (not_not.2 hbit), if_pos hbit]
      exact h.ramEnable val
    · rw [if_pos hbit, if_neg hbit]
      refine h.bankReg (.inl rfl) ?_
      unfold selectedRomBank
      rw [lastValue_self]
      exact bank_toNat val 0x0F
  · rw [if_neg hrom, if_pos (UInt16.not_lt.1 hrom)]
    exact h.noReg

theorem write_mbc3 (h : HoldsLast .mbc3 log m) (addr : UInt16) (val : UInt8) :
    HoldsLast .mbc3 (log ++ (mapperReg .mbc3 addr).toList.map fun r => (r, val)) (mbc3Write m addr val) := by
  unfold mapperReg mbc3Write
  dsimp only
  by_cases henable : addr < 0x2000
  · rw [if_pos henable, if_pos henable]
    exact h.ramEnable val
  rw [if_neg henable, if_neg henable]
  by_cases hrom : addr < 0x4000
  · rw [if_pos hrom, if_pos hrom]
    refine h.bankReg (.inl rfl) ?_
    unfold selectedRomBank
    rw [lastValue_self]
    exact bank_toNat val 0x7F
  rw [if_neg hrom, if_neg hrom]
  by_cases hram : addr < 0x6000
  · rw [if_pos hram, if_pos hram]
    exact h.ramReg (lastValue_self .ramBank val).symm
  · rw [if_neg hram, if_neg hram]
    exact h.noReg

theorem write_mbc5 (h : HoldsLast .mbc5 log m) (addr : UInt16) (val : UInt8) :
    HoldsLast .mbc5 (log ++ (mapperReg .mbc5 addr).toList.map fun r => (r, val)) (mbc5Write m addr val) := by
  unfold mapperReg mbc5Write
  dsimp only
  by_cases henable : addr < 0x2000
  · rw [if_pos henable, if_pos henable]
    exact h.ramEnable val
  rw [if_neg henable, if_neg henable]
  by_cases hlow : addr < 0x3000
  · rw [if_pos hlow, if_pos hlow]
    refine h.bankReg (.inl rfl) ?_
    unfold selectedRomBank
    rw [lastValue_self, lastValue_other (by decide)]
    exact mbc5_low h.romBank val
  rw [if_neg hlow, if_neg hlow]
  by_cases hhigh : addr < 0x4000
  · rw [if_pos hhigh, if_pos hhigh]
    refine h.bankReg (.inr rfl) ?_
    unfold selectedRomBank
    rw [lastValue_self, lastValue_other (by decide)]
    exact mbc5_high h.romBank val
  rw [if_neg hhigh, if_neg hhigh]
  by_cases hram : addr < 0x6000
  · rw [if_pos hram, if_pos hram]
    refine h.ramReg ?_
    unfold selectedRamBank
    rw [lastValue_self]
  · rw [if_neg hram, if_neg hram]
    exact h.noReg

theorem write (ht : Simple t) (h : HoldsLast t log m) (addr : UInt16) (val : UInt8) :
    HoldsLast t (log ++ (mapperReg t addr).toList.map fun r => (r, val)) (mbcWrite m addr val) := by
  unfold mbcWrite
  rw [h.mbcType]
  rcases ht with rfl | rfl | rfl
  · exact h.write_mbc2 addr val
  · exact h.write_mbc3 addr val
  · exact h.write_mbc5 addr val

end HoldsLast

end

/-! ## Runs -/

theorem writeIo_mbc (addr : UInt16) (val : UInt8) (b : Bus σ) : (writeIo env addr val b).mbc = b.mbc := by
  unfold writeIo
  split
  · rfl
  -- the registers that act: serial control, LCDC, STAT, LYC and the two DMA engines
  split
  case h_3 =>
    unfold writeSerialControl
    dsimp only
    split <;> rfl
  case h_9 =>
    unfold writeLcdc
    split
    · exact (checkStatInterrupt_quiet _).mbc
    · rfl
  case h_10 => exact (checkStatInterrupt_quiet _).mbc
  case h_11 => exact (checkStatInterrupt_quiet _).mbc
  case h_12 => exact (oamDma_quiet env val 0xA0 b).mbc
  case h_20 => exact (writeHdma5_quiet env val b).mbc
  all_goals first
    | rfl
    | split <;> rfl

theorem writeByte_keeps_mbc {addr : UInt16} (h : ¬ addr < 0x8000) (val : UInt8) (b : Bus σ) :
    (writeByte env addr val b).mbc = b.mbc := by
  unfold writeByte
  split
  · exact (writeMemory_quiet env h val b).mbc
  · exact writeIo_mbc addr val b

/-- A bus operation keeps the mapper at the last values. -/
theorem busStep_holdsLast {t : MBCType} (ht : Simple t) {log : List (MapperReg × UInt8)} (o : BusOp) {b : Bus σ}
    (h : HoldsLast t log b.mbc) : HoldsLast t (log ++ mapperWrites t o) (busStep env o b).2.mbc := by
  cases o with
  | read addr =>
    show HoldsLast t _ (readByte env addr b).2.mbc
    rw [(readByte_frame env addr b).quiet.mbc]
    exact h.noReg
  | write addr val =>
    show HoldsLast t _ (writeByte env addr val b).mbc
    rw [mapperWrites]
    -- only below 0x8000 does a write reach the mapper
    by_cases hmapper : addr < 0x8000
    · rw [if_pos hmapper, (writeByte_mbc env (w := (addr, val)) hmapper b).1]
      exact h.write ht addr val
    · rw [if_neg hmapper, writeByte_keeps_mbc hmapper]
      exact h.noReg
  | pending => exact h.noReg
  | acknowledge mask => exact h.noReg
  | stop => exact h.noReg

/-- The bank at an address below 0x8000: bank 0, and from 0x4000 on the selected one. -/
def visibleBank (t : MBCType) (log : List (MapperReg × UInt8)) (addr : UInt16) : Nat :=
  if addr < 0x4000 then 0 else selectedRomBank t log

/-- A machine whose mapper holds the last values, with its cartridge, over which the windows are up to date. -/
structure Banked (t : MBCType) (r : RomAccess) (log : List (MapperReg × UInt8)) (b : Bus σ) : Prop where
  holds : HoldsLast t log b.mbc
  windows : MapOK b.mbc b.rom
  cartridge : r.SameShape b.rom

theorem banked_logInv {t : MBCType} (ht : Simple t) (r : RomAccess) :
    LogInv env (fun o _ => mapperWrites t o) (Banked t r) where
  op o _ _ h := {
    holds := busStep_holdsLast ht o h.holds
    windows := (busStep_effect env o _).mapOK h.windows
    cartridge := h.cartridge.trans (busStep_shape env o _).rom }
  timer _ _ _ _ h := ⟨h.holds, h.windows, h.cartridge⟩
  ppu _ _ _ _ _ h := ⟨h.holds, h.windows, h.cartridge⟩
  host _ _ _ _ _ h := ⟨h.holds, h.windows, h.cartridge⟩

theorem lowBank_zero {t : MBCType} (ht : Simple t) {log : List (MapperReg × UInt8)} {m : MbcState}
    (h : HoldsLast t log m) : lowBank m = 0 := by
  -- bank 0 is moved by MBC1 alone
  refine if_neg fun hc => ?_
  have hmbc1 : t = .mbc1 := h.mbcType.symm.trans hc.1
  rcases ht with rfl | rfl | rfl <;> cases hmbc1

/-- A mapped ROM shows the selected bank, reduced to the banks there are. -/
theorem Banked.read {t : MBCType} (ht : Simple t) {r : RomAccess} (hram : r.romInRam = true)
    {log : List (MapperReg × UInt8)} {b : Bus σ} (h : Banked t r log b) {addr : UInt16} (haddr : addr < 0x8000) :
    (readByte env addr b).1 = cheatWrap env addr (Buffer.byteOf r.romData
      (visibleBank t log addr % r.romBankCount * ROM_BANK_SIZE + addr.toNat % ROM_BANK_SIZE)) := by
  have hmapped : b.rom.romInRam = true := h.cartridge.romInRam.trans hram
  rw [readByte_eq_slow h.windows, ← h.cartridge.romData, ← h.cartridge.romBankCount]
  unfold readByteSlow visibleBank
  split
  · rename_i hlow
    rw [readRomLow_mapped hlow hmapped, lowBank_zero ht h.holds]
    rfl
  · rename_i hlow
    rw [readRomHigh_mapped hlow haddr hmapped, h.holds.romBank]
    rfl

/-- At power-on no register has been written. -/
theorem holdsLast_powerOn {t : MBCType} (ht : Simple t) {m : MbcState} (htype : m.mbcType = t)
    (henabled : m.ramEnabled = false) (hrom : m.romBank = 1) (hram : m.ramBank = 0) : HoldsLast t [] m := by
  refine ⟨htype, henabled, ?_, hram.trans ?_⟩
  · rw [hrom]
    rcases ht with rfl | rfl | rfl <;> rfl
  · rcases ht with rfl | rfl | rfl <;> rfl

end FoloGameboy

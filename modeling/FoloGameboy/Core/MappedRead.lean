/-
The hot read path against the full decoder: the cached ROM windows are those the mapper registers
select in every reachable state, so `readByte` and `readByteSlow` agree.
-/
import FoloGameboy.Core.Reach

namespace FoloGameboy

variable {σ : Type} {env : Env σ}

/-! ## The cached windows -/

/-- Where a window on `bank` starts in a mapped ROM; a streaming session has no windows. -/
def windowBase (r : RomAccess) (bank : Nat) : Option Nat :=
  if r.romInRam = true ∧ r.romData.isSome ∧ r.romBankCount ≠ 0 then some (bank % r.romBankCount * ROM_BANK_SIZE)
  else none

/-- The cached windows are the ones the mapper registers select. -/
structure MapOK (m : MbcState) (r : RomAccess) : Prop where
  bank0 : r.mappedRomBank0 = windowBase r (lowBank m)
  bank1 : r.mappedRomBank1 = windowBase r m.romBank.toNat

theorem windowBase_layout {r r' : RomAccess} (h : r.SameLayout r') (bank : Nat) :
    windowBase r' bank = windowBase r bank := by
  unfold windowBase
  rw [h.romInRam, h.romData, h.romBankCount]

theorem MapOK.keep {m : MbcState} {r r' : RomAccess} (h : MapOK m r) (hl : r.SameLayout r') : MapOK m r' :=
  ⟨by rw [hl.mapped0, windowBase_layout hl]; exact h.bank0,
    by rw [hl.mapped1, windowBase_layout hl]; exact h.bank1⟩

theorem refresh_mapOK (m : MbcState) (r : RomAccess) : MapOK m (refreshMappedRomBanks m r) := by
  unfold refreshMappedRomBanks
  split
  · rename_i h
    have hnone : ¬ (r.romInRam = true ∧ r.romData.isSome ∧ r.romBankCount ≠ 0) := by
      rintro ⟨h₁, h₂, h₃⟩
      rcases h with h | h | h
      · exact h h₁
      · rw [Option.isNone_iff_eq_none.mp h] at h₂; cases h₂
      · exact h₃ h
    exact ⟨(if_neg hnone).symm, (if_neg hnone).symm⟩
  · rename_i h
    rw [not_or, not_or, not_not] at h
    have hsome : r.romInRam = true ∧ r.romData.isSome ∧ r.romBankCount ≠ 0 :=
      ⟨h.1, by rw [Option.isSome_iff_ne_none]; exact fun hn => h.2.1 (Option.isNone_iff_eq_none.mpr
        hn), h.2.2⟩
    exact ⟨(if_pos hsome).symm, (if_pos hsome).symm⟩

/-- Every bus operation keeps the windows up to date. -/
theorem BusEffect.mapOK {b b' : Bus σ} (h : MapOK b.mbc b.rom) (he : BusEffect env b b') :
    MapOK b'.mbc b'.rom := by
  cases he with
  | quiet hq => rw [hq.mbc]; exact h.keep hq.layout
  | mapper addr val => exact refresh_mapOK _ _
  | lcd val hne =>
    unfold writeLcdc
    rw [if_pos hne]
    have hq := checkStatInterrupt_quiet { b with
      lcd := toggleLcd b.lcd val, screen := if hasBits val 0x80 then b.screen else blankScreen b.screen }
    rw [hq.mbc]
    exact h.keep hq.layout

theorem mapOK_frameInv : FrameInv env fun g : GBEmulator σ => MapOK g.bus.mbc g.bus.rom where
  step idleBudget _ h :=
    cpuStep_inv (P := fun b => MapOK b.mbc b.rom) (fun _ _ hb he => he.mapOK hb) idleBudget h
  timer _ _ _ h := h
  ppu _ _ _ _ h := h

theorem act_mapOK (a : Action σ) {g : GBEmulator σ} (h : MapOK g.bus.mbc g.bus.rom) :
    MapOK (act env a g).bus.mbc (act env a g).bus.rom := by
  cases a with
  | write addr val => exact (writeByte_effect env addr val g.bus).mapOK h
  | step idleBudget => exact mapOK_frameInv.step idleBudget g h
  | reset => exact refresh_mapOK _ _
  | input buttons => exact h
  | render flag => exact h
  | countFrame => exact h
  | sound chip => exact h
  | sram data dirty => exact h
  | clock r => exact h

theorem Reachable.mapOK {g : GBEmulator σ} (h : Reachable env g) : MapOK g.bus.mbc g.bus.rom := by
  induction h with
  | boot p h =>
    obtain ⟨g₀, rfl⟩ := powerOn_reset h
    exact refresh_mapOK _ _
  | act a _ ih => exact act_mapOK a ih
  | frame _ hr ih => exact mapOK_frameInv.runFrame_inv ih hr

/-! ## The two decoders -/

theorem and_bank_mask (addr : UInt16) : (addr &&& 0x3fff).toNat = addr.toNat % 0x4000 := by
  rw [UInt16.toNat_and]
  exact Nat.and_two_pow_sub_one_eq_mod addr.toNat 14

/-- The decoder's reduction of a bank number is a remainder. -/
theorem reduce_bank (bank count : Nat) : (if count ≤ bank then bank % count else bank) = bank % count := by
  split
  · rfl
  · exact (Nat.mod_eq_of_lt (by omega)).symm

theorem windowBase_some {r : RomAccess} {bank base : Nat} (h : windowBase r bank = some base) :
    r.romInRam = true ∧ base = bank % r.romBankCount * ROM_BANK_SIZE := by
  unfold windowBase at h
  split at h
  · rename_i hc
    exact ⟨hc.1, (Option.some.inj h).symm⟩
  · cases h

theorem readRomLow_mapped {addr : UInt16} (haddr : addr < 0x4000) {b : Bus σ}
    (hram : b.rom.romInRam = true) :
    readRomLow env addr b = (cheatWrap env addr (Buffer.byteOf b.rom.romData
      (lowBank b.mbc % b.rom.romBankCount * ROM_BANK_SIZE + addr.toNat % 0x4000)), b) := by
  have hlt : addr.toNat < 0x4000 := UInt16.lt_iff_toNat_lt.mp haddr
  unfold readRomLow lowBank
  dsimp only
  rw [Nat.mod_eq_of_lt hlt, reduce_bank]
  split
  · rfl
  · rw [Nat.zero_mod, Nat.zero_mul, Nat.zero_add]

theorem readRomHigh_mapped {addr : UInt16} (hlow : ¬ addr < 0x4000) (haddr : addr < 0x8000) {b : Bus σ}
    (hram : b.rom.romInRam = true) :
    readRomHigh env addr b = (cheatWrap env addr (Buffer.byteOf b.rom.romData
      (b.mbc.romBank.toNat % b.rom.romBankCount * ROM_BANK_SIZE + addr.toNat % 0x4000)), b) := by
  have hlt : addr.toNat < 0x8000 := UInt16.lt_iff_toNat_lt.mp haddr
  have hge : ¬ addr.toNat < 0x4000 := fun h => hlow (UInt16.lt_iff_toNat_lt.mpr h)
  have hoff : addr.toNat - 0x4000 = addr.toNat % 0x4000 := by omega
  unfold readRomHigh
  dsimp only
  rw [if_pos hram, reduce_bank, hoff]

/-- The mapped ROM windows read what the decoder reads. -/
theorem mapped_eq_slow {addr : UInt16} (haddr : addr < 0x8000) {b : Bus σ} (h : MapOK b.mbc b.rom)
    {base : Nat} (hb : mappedRomBank b.rom addr = some base) :
    (cheatWrap env addr (Buffer.byteOf b.rom.romData (base + (addr &&& 0x3fff).toNat)), b) =
      readByteSlow env addr b := by
  unfold mappedRomBank at hb
  unfold readByteSlow
  rw [and_bank_mask]
  split at hb
  · rename_i hlow
    obtain ⟨hram, rfl⟩ := windowBase_some (h.bank0.symm.trans hb)
    rw [if_pos hlow, readRomLow_mapped hlow hram]
  · rename_i hlow
    obtain ⟨hram, rfl⟩ := windowBase_some (h.bank1.symm.trans hb)
    rw [if_neg hlow, if_pos haddr, readRomHigh_mapped hlow haddr hram]

theorem not_soundReg {addr : UInt16} (h : 0xFF80 ≤ addr) : soundReg addr = false := by
  have hge : 0xFF80 ≤ addr.toNat := UInt16.le_iff_toNat_le.mp h
  unfold soundReg
  simp only [UInt16.le_iff_toNat_le, Bool.or_eq_false_iff, Bool.and_eq_false_iff,
    decide_eq_false_iff_not, UInt16.reduceToNat]
  omega

/-- HRAM behind the I/O registers. -/
theorem readIo_hram {addr : UInt16} (hlo : 0xFF80 ≤ addr) (hhi : addr ≠ 0xFFFF) (b : Bus σ) :
    readIo env addr b = b.mem.hram.get (addr.toNat - 0xFF80) := by
  have hge : 0xFF80 ≤ addr.toNat := UInt16.le_iff_toNat_le.mp hlo
  have hlit : (0xFFFF : UInt16).toNat = 0xFFFF := by decide
  have hne : addr.toNat ≠ 0xFFFF := fun h => hhi (UInt16.toNat_inj.mp (h.trans hlit.symm))
  have hlt : addr.toNat < 0xFFFF := by
    have := addr.toNat_lt
    omega
  unfold readIo
  rw [not_soundReg hlo, if_neg Bool.false_ne_true]
  dsimp only
  split
  case h_33 => rw [if_pos (And.intro hge hlt)]
  all_goals
    rename_i heq
    rw [heq] at hge hlt
    first
      | exact absurd hge (by decide)
      | exact absurd hlt (by decide)

theorem readByteSlow_io {addr : UInt16} (h : 0xFF00 ≤ addr) (b : Bus σ) :
    readByteSlow env addr b = (readIo env addr b, b) := by
  have hge : 0xFF00 ≤ addr.toNat := UInt16.le_iff_toNat_le.mp h
  have hnot : ∀ k : UInt16, k.toNat ≤ 0xFF00 → ¬ addr < k := by
    intro k hk hlt
    have := UInt16.lt_iff_toNat_lt.mp hlt
    omega
  unfold readByteSlow
  rw [if_neg (hnot 0x4000 (by decide)), if_neg (hnot 0x8000 (by decide)), if_neg (hnot 0xA000 (by decide)),
    if_neg (hnot 0xC000 (by decide)), if_neg (hnot 0xE000 (by decide)), if_neg (hnot 0xFE00 (by decide)),
    if_neg (hnot 0xFEA0 (by decide)), if_neg (hnot 0xFF00 (by decide))]

theorem readByteSlow_wram {addr : UInt16} (hlo : 0xC000 ≤ addr) (hhi : addr < 0xE000) (b : Bus σ) :
    readByteSlow env addr b = (readWram addr.toNat b, b) := by
  have hge : 0xC000 ≤ addr.toNat := UInt16.le_iff_toNat_le.mp hlo
  have hnot : ∀ k : UInt16, k.toNat ≤ 0xC000 → ¬ addr < k := by
    intro k hk hlt
    have := UInt16.lt_iff_toNat_lt.mp hlt
    omega
  unfold readByteSlow
  rw [if_neg (hnot 0x4000 (by decide)), if_neg (hnot 0x8000 (by decide)), if_neg (hnot 0xA000 (by decide)),
    if_neg (hnot 0xC000 (by decide)), if_pos hhi]

/-- The HRAM and WRAM shortcuts read what the decoder reads. -/
theorem readByteRam_eq_slow (addr : UInt16) (b : Bus σ) :
    readByteRam env addr b = readByteSlow env addr b := by
  unfold readByteRam
  split
  · rename_i hh
    have hio : 0xFF00 ≤ addr := UInt16.le_trans (by decide : (0xFF00 : UInt16) ≤ 0xFF80) hh.1
    rw [readByteSlow_io hio, readIo_hram hh.1 hh.2]
  split
  · rename_i hw
    obtain ⟨⟨hlo, hhi⟩, hbank⟩ := hw
    rw [readByteSlow_wram hlo hhi]
    unfold readWram
    split
    · rfl
    · rename_i hd
      have hnot : wramBanked b = false := by
        have hd' : ¬ addr < 0xD000 := fun h => hd (UInt16.lt_iff_toNat_lt.mp h)
        unfold wramBanked
        rcases hbank with h | h | h | h
        · exact absurd h hd'
        · rw [eq_false_of_ne_true h, Bool.false_and, Bool.false_and]
        · rw [decide_eq_false (UInt8.not_le.mpr h), Bool.and_false, Bool.false_and]
        · rw [Option.isNone_iff_eq_none.mp h, Option.isSome_none, Bool.and_false]
      rw [hnot, if_neg Bool.false_ne_true]
  · rfl

theorem readByte_eq_slow {b : Bus σ} (h : MapOK b.mbc b.rom) (addr : UInt16) :
    readByte env addr b = readByteSlow env addr b := by
  unfold readByte
  split
  · rename_i haddr
    split
    · rename_i base hb
      exact mapped_eq_slow haddr h hb
    · rfl
  · exact readByteRam_eq_slow addr b

/-- In every reachable state, the hot read path returns what the full decoder returns at every
address, and the cached windows are the banks that the mapper registers select. -/
theorem readByte_refines (env : Env σ) (g : GBEmulator σ) (h : Reachable env g) :
    (∀ addr, readByte env addr g.bus = readByteSlow env addr g.bus) ∧
    g.bus.rom.mappedRomBank0 = windowBase g.bus.rom (lowBank g.bus.mbc) ∧
    g.bus.rom.mappedRomBank1 = windowBase g.bus.rom g.bus.mbc.romBank.toNat :=
  ⟨readByte_eq_slow h.mapOK, h.mapOK.bank0, h.mapOK.bank1⟩

/-- A 64 bank MBC1 cartridge; every bank holds its number. -/
def numberedSetup : Setup :=
  { data := some ⟨0x100000, fun i => if i = 0x147 then 1 else .ofNat (i / 0x4000)⟩, size := 0x100000 }

def numberedWrite (g : GBEmulator Unit) (addr : UInt16) (val : UInt8) : GBEmulator Unit :=
  act blankEnv (.write addr val) g

/-- Both windows are moved: the upper bits are written, then mode 1 and the lower bits. -/
def numberedBanks : GBEmulator Unit :=
  numberedWrite (numberedWrite (numberedWrite ((powerOn numberedSetup).getD {}) 0x4000 1) 0x6000 1) 0x2000 5

theorem numberedBanks_reachable : Reachable blankEnv numberedBanks := by
  have hboot : powerOn numberedSetup = some ((powerOn numberedSetup).getD {} : GBEmulator Unit) := rfl
  exact Reachable.act (.write 0x2000 5) (Reachable.act (.write 0x6000 1) (Reachable.act (.write 0x4000 1)
    (Reachable.boot numberedSetup hboot)))

theorem readByte_refines_numbered :
    (∀ addr, readByte blankEnv addr numberedBanks.bus = readByteSlow blankEnv addr numberedBanks.bus) ∧
      (readByteSlow blankEnv 0x0100 numberedBanks.bus).1 = 32 ∧
        (readByteSlow blankEnv 0x4100 numberedBanks.bus).1 = 37 :=
  ⟨(readByte_refines blankEnv _ numberedBanks_reachable).1, by decide +kernel, by decide +kernel⟩

end FoloGameboy

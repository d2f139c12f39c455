/-
The banks of a session: an MBC2, MBC3 or MBC5 cartridge shows, at every access of every run, the bank of the
values the guest wrote to the registers last.
-/
import FoloGameboy.Core.Mappers
import FoloGameboy.Port.Memory

namespace FoloGameboy

variable {σ : Type} {env : Env σ} {p : Platform σ} {size : Nat}

/-- The cartridge of a mapped session. -/
def mappedRom (env : Env σ) (size : Nat) : RomAccess := romOf (some ⟨size, env.rom⟩) size { romReads := 1 }

theorem gbPortCreate_mappedRom {s : Session σ} (h : gbPortCreate env p ⟨size, true⟩ = some s) :
    (mappedRom env size).SameShape s.core.bus.rom := by
  obtain ⟨hmin, -, -, setup, g, hsetup, hon, rfl⟩ := gbPortCreate_some h
  obtain ⟨cgb, -, rfl, hprep⟩ := sessionSetup_mapped hsetup
  obtain ⟨g₁, hload, hinit⟩ := Option.bind_eq_some_iff.1 hon
  obtain ⟨header, ramSize, -, -, rfl⟩ := loadRom_some (Nat.le_trans (by decide) hmin) hload
  show (mappedRom env size).SameShape g.bus.rom
  -- the windows are set when the cartridge is loaded, and again by the reset
  rw [init_rom hinit, hprep]
  exact (refreshMappedRomBanks_shape _ _).trans (refreshMappedRomBanks_shape _ _)

theorem gbPortCreate_holdsLast {rom : RomSource} {s : Session σ} (h : gbPortCreate env p rom = some s)
    (ht : Simple s.core.bus.mbc.mbcType) : HoldsLast s.core.bus.mbc.mbcType [] s.core.bus.mbc := by
  obtain ⟨-, -, -, setup, g, -, hon, rfl⟩ := gbPortCreate_some h
  obtain ⟨g₀, rfl⟩ := powerOn_reset hon
  exact holdsLast_powerOn ht rfl rfl rfl rfl

/-- The mapper holds the last values, and below 0x8000 a mapped ROM is read in their banks. -/
structure ShowsLast (env : Env σ) (rom : RomSource) (t : MBCType) (log : List (MapperReg × UInt8)) (b : Bus σ) :
    Prop where
  holds : HoldsLast t log b.mbc
  rom : rom.mapped = true → ∀ addr < 0x8000, (readByte env addr b).1 = cheatWrap env addr (env.rom
    (visibleBank t log addr % (rom.size / ROM_BANK_SIZE) * ROM_BANK_SIZE + addr.toNat % ROM_BANK_SIZE))

/-- The bytes of a mapped ROM of whole banks. -/
theorem mappedRom_byteOf (hmin : ROM_BANK_SIZE ≤ size) (bank offset : Nat) : Buffer.byteOf (mappedRom env size).romData
    (bank % (mappedRom env size).romBankCount * ROM_BANK_SIZE + offset % ROM_BANK_SIZE) =
      env.rom (bank % (size / ROM_BANK_SIZE) * ROM_BANK_SIZE + offset % ROM_BANK_SIZE) := by
  have hdiv : 0 < size / ROM_BANK_SIZE := Nat.div_pos hmin (by decide)
  have hcount : (mappedRom env size).romBankCount = size / ROM_BANK_SIZE := if_neg (Nat.ne_of_gt hdiv)
  have hbank : bank % (size / ROM_BANK_SIZE) + 1 ≤ size / ROM_BANK_SIZE := Nat.mod_lt bank hdiv
  have hoffset : offset % ROM_BANK_SIZE < ROM_BANK_SIZE := Nat.mod_lt offset (by decide)
  -- the whole bank is inside the file
  have hplace : bank % (size / ROM_BANK_SIZE) * ROM_BANK_SIZE + offset % ROM_BANK_SIZE < size := by
    calc bank % (size / ROM_BANK_SIZE) * ROM_BANK_SIZE + offset % ROM_BANK_SIZE
      _ < bank % (size / ROM_BANK_SIZE) * ROM_BANK_SIZE + ROM_BANK_SIZE := Nat.add_lt_add_left hoffset _
      _ = (bank % (size / ROM_BANK_SIZE) + 1) * ROM_BANK_SIZE := (Nat.succ_mul _ _).symm
      _ ≤ size / ROM_BANK_SIZE * ROM_BANK_SIZE := Nat.mul_le_mul_right _ hbank
      _ ≤ size := Nat.div_mul_le_self _ _
  rw [hcount]
  exact if_pos hplace

theorem Banked.showsLast {t : MBCType} (ht : Simple t) {rom : RomSource} {s : Session σ}
    (h : gbPortCreate env p rom = some s) {log : List (MapperReg × UInt8)} {b : Bus σ}
    (hb : Banked t s.core.bus.rom log b) : ShowsLast env rom t log b where
  holds := hb.holds
  rom hmapped addr haddr := by
    obtain ⟨size, mapped⟩ := rom
    obtain rfl : mapped = true := hmapped
    obtain ⟨hsize, -⟩ := gbPortCreate_some h
    have hrom := gbPortCreate_mappedRom h
    rw [hb.read ht hrom.romInRam haddr, hrom.romData, hrom.romBankCount]
    rw [mappedRom_byteOf (Nat.le_trans (by decide) hsize)]

/-- In a session of an MBC2, MBC3 or MBC5 cartridge, whatever frames are played: the run is one of steps with a
log of the register writes of the guest. At each instruction boundary of such a run, and at each bus operation
of the next step, the mapper holds the values of that log's last writes, and reads of a mapped ROM show their
banks. -/
theorem mapper_shows_last {rom : RomSource} {s : Session σ} (h : gbPortCreate env p rom = some s)
    (ht : Simple s.core.bus.mbc.mbcType) :
    (∀ frames rets s', play env frames s = some (rets, s') →
      ∃ log, LoggedRun env (fun o _ => mapperWrites s.core.bus.mbc.mbcType o) s.core log s'.core) ∧
    ∀ log g, LoggedRun env (fun o _ => mapperWrites s.core.bus.mbc.mbcType o) s.core log g →
      ShowsLast env rom s.core.bus.mbc.mbcType log g.bus ∧
        ∀ pre e post, stepTrace env g = pre ++ e :: post → ShowsLast env rom s.core.bus.mbc.mbcType
          (log ++ pre.flatMap fun e => mapperWrites s.core.bus.mbc.mbcType e.1) e.2 := by
  have hinv : LogInv env _ _ := banked_logInv ht s.core.bus.rom
  have hstart : Banked s.core.bus.mbc.mbcType s.core.bus.rom [] s.core.bus :=
    ⟨gbPortCreate_holdsLast h ht, (gbPortCreate_reachable h).mapOK, .refl _⟩
  refine ⟨fun _ _ _ hs => play_logged hs, fun log g hrun => ?_⟩
  have hafter := hinv.run hstart hrun
  exact ⟨hafter.showsLast ht h, fun pre e post he => (hinv.stepTrace_logged hafter he).showsLast ht h⟩

/-! A 128 KB MBC5 cartridge that enables its RAM and selects bank 3; each byte of a bank from 1 on is its number. -/

def mbc5Rom : List (Nat × UInt8) :=
  [(0x100, 0x3E), (0x101, 0x0A), (0x102, 0xEA), (0x105, 0x3E), (0x106, 0x03), (0x107, 0xEA), (0x109, 0x20),
    (0x147, 0x1B), (0x148, 0x02), (0x149, 0x02)]

def mbc5Env : Env Unit :=
  { blankEnv with rom := fun a => (mbc5Rom.lookup a).getD (UInt8.ofNat (a / ROM_BANK_SIZE)) }

def mbc5Session : Session Unit :=
  (gbPortCreate mbc5Env ⟨false, true, ()⟩ ⟨131072, true⟩).getD ⟨prepare blankSetup, false, false⟩

/-- The machine after a number of instructions, with the registers they wrote. -/
def mbc5Run : Nat → List (MapperReg × UInt8) × GBEmulator Unit
  | 0 => ([], mbc5Session.core)
  | n + 1 => ((mbc5Run n).1 ++ stepLog mbc5Env (fun o _ => mapperWrites .mbc5 o) (mbc5Run n).2,
      (cpuStep mbc5Env 80 (mbc5Run n).2).2)

theorem mapper_shows_last_mbc5 : gbPortCreate mbc5Env ⟨false, true, ()⟩ ⟨131072, true⟩ = some mbc5Session ∧
    (mbc5Run 4).1 = [(.ramEnable, 0x0A), (.romBank, 0x03)] ∧ (mbc5Run 4).2.bus.mbc.ramEnabled = true ∧
    (mbc5Run 4).2.bus.mbc.romBank.toNat = 3 ∧ (readByte mbc5Env 0x4000 (mbc5Run 4).2.bus).1 = 3 := by
  have hcreate : gbPortCreate mbc5Env ⟨false, true, ()⟩ ⟨131072, true⟩ = some mbc5Session := rfl
  have htype : mbc5Session.core.bus.mbc.mbcType = .mbc5 := by decide +kernel
  have hrun : ∀ n, LoggedRun mbc5Env (fun o _ => mapperWrites .mbc5 o) mbc5Session.core
      (mbc5Run n).1 (mbc5Run n).2 := by
    intro n
    induction n with
    | zero => exact .start
    | succ n ih => exact ih.step 80
  have hlog : (mbc5Run 4).1 = [(.ramEnable, 0x0A), (.romBank, 0x03)] := by decide +kernel
  have hshows := (mapper_shows_last hcreate (.inr (.inr htype))).2 (mbc5Run 4).1 (mbc5Run 4).2
  rw [htype, hlog] at hshows
  obtain ⟨⟨hholds, hrom⟩, -⟩ := hshows (hlog ▸ hrun 4)
  have hread := hrom rfl 0x4000 (by decide)
  exact ⟨hcreate, hlog, hholds.ramEnabled, hholds.romBank, hread.trans (by decide +kernel)⟩

end FoloGameboy

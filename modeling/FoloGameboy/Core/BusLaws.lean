/-
What one bus operation can change: a read moves only the bank cache and the clock latch, and a
write is quiet (it leaves the mapper, the PPU position and the timer's sub-period alone), a mapper
register write, or a switch of the LCD. Every invariant of the emulator is derived from this list.
-/
import FoloGameboy.Core.Cpu

namespace FoloGameboy

open Effect

variable {σ : Type}

/-! ## Reads -/

/-- The cartridge and the mapped windows are the same; the bank cache and the file may differ. -/
structure RomAccess.SameLayout (r r' : RomAccess) : Prop where
  romData : r'.romData = r.romData
  romBankCount : r'.romBankCount = r.romBankCount
  romInRam : r'.romInRam = r.romInRam
  mapped0 : r'.mappedRomBank0 = r.mappedRomBank0
  mapped1 : r'.mappedRomBank1 = r.mappedRomBank1

namespace RomAccess.SameLayout

@[refl] theorem refl (r : RomAccess) : r.SameLayout r := ⟨rfl, rfl, rfl, rfl, rfl⟩

theorem trans {r₁ r₂ r₃ : RomAccess} (h : r₁.SameLayout r₂) (h' : r₂.SameLayout r₃) : r₁.SameLayout r₃ :=
  ⟨h'.romData.trans h.romData, h'.romBankCount.trans h.romBankCount, h'.romInRam.trans h.romInRam,
    h'.mapped0.trans h.mapped0, h'.mapped1.trans h.mapped1⟩

end RomAccess.SameLayout

theorem loadBank_layout (env : Env σ) (bank slot : Nat) (r : RomAccess) :
    r.SameLayout (loadBank env bank slot r).2 := by
  unfold loadBank
  split <;> exact ⟨rfl, rfl, rfl, rfl, rfl⟩

theorem patchSlot_layout (env : Env σ) (bank slot : Nat) (r : RomAccess) :
    r.SameLayout (patchSlot env bank slot r) := by
  unfold patchSlot
  dsimp only
  split <;> split <;> try split
  all_goals exact ⟨rfl, rfl, rfl, rfl, rfl⟩

theorem readCachedBank_layout (env : Env σ) (bank offset : Nat) (r : RomAccess) :
    r.SameLayout (readCachedBank env bank offset r).2 := by
  unfold readCachedBank
  split
  · split
    · exact ⟨rfl, rfl, rfl, rfl, rfl⟩
    · dsimp only
      split <;> exact ⟨rfl, rfl, rfl, rfl, rfl⟩
  · split
    · exact .refl r
    · have hload := loadBank_layout env bank r.cacheNextSlot
        { r with cacheNextSlot := (r.cacheNextSlot + 1) % r.cacheSlots }
      dsimp only
      split
      · rename_i r' heq
        rw [heq] at hload
        exact ⟨hload.romData, hload.romBankCount, hload.romInRam, hload.mapped0, hload.mapped1⟩
      · rename_i r' heq
        rw [heq] at hload
        have hpatch := patchSlot_layout env bank r.cacheNextSlot
          { r' with cacheMap := fun i => if i = r.cacheNextSlot then (bank : Int) else r'.cacheMap i }
        exact ⟨hpatch.romData.trans hload.romData, hpatch.romBankCount.trans hload.romBankCount,
          hpatch.romInRam.trans hload.romInRam, hpatch.mapped0.trans hload.mapped0,
          hpatch.mapped1.trans hload.mapped1⟩

/-- A bus that differs from `b` only by the bank cache and the clock. -/
structure ReadFrame (b b' : Bus σ) : Prop where
  eq : b' = { b with rom := b'.rom, rtc := b'.rtc }
  layout : b.rom.SameLayout b'.rom

theorem ReadFrame.refl (b : Bus σ) : ReadFrame b b := ⟨rfl, .refl _⟩

theorem readRomLow_frame (env : Env σ) (addr : UInt16) (b : Bus σ) :
    ReadFrame b (readRomLow env addr b).2 := by
  unfold readRomLow
  dsimp only
  repeat' split
  all_goals first | exact .refl b | exact ⟨rfl, readCachedBank_layout ..⟩

theorem readRomHigh_frame (env : Env σ) (addr : UInt16) (b : Bus σ) :
    ReadFrame b (readRomHigh env addr b).2 := by
  unfold readRomHigh
  dsimp only
  split
  · exact .refl b
  · exact ⟨rfl, readCachedBank_layout ..⟩

theorem readExternalRam_frame (env : Env σ) (addr : UInt16) (b : Bus σ) :
    ReadFrame b (readExternalRam env addr b).2 := by
  unfold readExternalRam
  dsimp only
  repeat' split
  all_goals exact ⟨rfl, .refl _⟩

theorem readByteSlow_frame (env : Env σ) (addr : UInt16) (b : Bus σ) :
    ReadFrame b (readByteSlow env addr b).2 := by
  unfold readByteSlow
  split
  · exact readRomLow_frame env addr b
  split
  · exact readRomHigh_frame env addr b
  split
  · repeat' split
    all_goals exact .refl b
  split
  · exact readExternalRam_frame env addr b
  repeat' split
  all_goals exact .refl b

/-- A read changes nothing but the bank cache and the clock. -/
theorem readByte_frame (env : Env σ) (addr : UInt16) (b : Bus σ) : ReadFrame b (readByte env addr b).2 := by
  unfold readByte readByteRam
  split
  · split
    · exact .refl b
    · exact readByteSlow_frame env addr b
  · split
    · exact .refl b
    split
    · exact .refl b
    · exact readByteSlow_frame env addr b

/-! ## The PPU position -/

/-- The LCD registers that place the PPU in its schedule are unchanged. -/
structure Lcd.SamePosition (l l' : Lcd) : Prop where
  ly : l'.ly = l.ly
  ppuMode : l'.ppuMode = l.ppuMode
  ppuDots : l'.ppuDots = l.ppuDots
  frameOvershoot : l'.frameOvershoot = l.frameOvershoot
  lcdChanged : l'.lcdChanged = l.lcdChanged
  lcdFirstFrame : l'.lcdFirstFrame = l.lcdFirstFrame
  windowLine : l'.windowLine = l.windowLine
  enabled : hasBits l'.lcdc 0x80 = hasBits l.lcdc 0x80

@[refl] theorem Lcd.SamePosition.refl (l : Lcd) : l.SamePosition l :=
  ⟨rfl, rfl, rfl, rfl, rfl, rfl, rfl, rfl⟩

theorem Lcd.SamePosition.trans {l₁ l₂ l₃ : Lcd} (h : l₁.SamePosition l₂) (h' : l₂.SamePosition l₃) :
    l₁.SamePosition l₃ :=
  ⟨h'.ly.trans h.ly, h'.ppuMode.trans h.ppuMode, h'.ppuDots.trans h.ppuDots,
    h'.frameOvershoot.trans h.frameOvershoot, h'.lcdChanged.trans h.lcdChanged,
    h'.lcdFirstFrame.trans h.lcdFirstFrame, h'.windowLine.trans h.windowLine, h'.enabled.trans h.enabled⟩

/-- The STAT check touches only its own line memory and its own request. -/
theorem checkStatInterrupt_eq (b : Bus σ) : ∃ line irq,
    checkStatInterrupt b = { b with irq := irq, lcd := { b.lcd with prevStatLine := line } } ∧
      irq.ie = b.irq.ie ∧ (irq.iflag = b.irq.iflag ∨ irq.iflag = b.irq.iflag ||| 0x02) := by
  unfold checkStatInterrupt
  split
  · exact ⟨false, b.irq, rfl, rfl, .inl rfl⟩
  · refine ⟨statLine b.lcd, _, rfl, ?_, ?_⟩
    · split <;> rfl
    · split
      · exact .inr rfl
      · exact .inl rfl

theorem checkStatInterrupt_position (b : Bus σ) : b.lcd.SamePosition (checkStatInterrupt b).lcd := by
  obtain ⟨line, irq, h, -⟩ := checkStatInterrupt_eq b
  rw [h]; exact ⟨rfl, rfl, rfl, rfl, rfl, rfl, rfl, rfl⟩

/-! ## Writes -/

/-- A change that leaves the mapper, the PPU position, the output and the timer's sub-period. -/
structure Quiet (b b' : Bus σ) : Prop where
  mbc : b'.mbc = b.mbc
  layout : b.rom.SameLayout b'.rom
  screen : b'.screen = b.screen
  render : b'.renderThisFrame = b.renderThisFrame
  lcd : b.lcd.SamePosition b'.lcd
  timerCounter : b'.timer.timerCounter = b.timer.timerCounter
  isCgb : b'.cgb.isCgb = b.cgb.isCgb
  dmgSpeed : b.cgb.isCgb = false → b'.cgb.doubleSpeed = b.cgb.doubleSpeed

@[refl] theorem Quiet.refl (b : Bus σ) :
    Quiet b b := ⟨rfl, .refl _, rfl, rfl, .refl _, rfl, rfl, fun _ => rfl⟩

theorem Quiet.trans {b₁ b₂ b₃ : Bus σ} (h : Quiet b₁ b₂) (h' : Quiet b₂ b₃) : Quiet b₁ b₃ :=
  ⟨h'.mbc.trans h.mbc, h.layout.trans h'.layout, h'.screen.trans h.screen, h'.render.trans h.render,
    h.lcd.trans h'.lcd, h'.timerCounter.trans h.timerCounter, h'.isCgb.trans h.isCgb,
    fun hd => (h'.dmgSpeed (h.isCgb.trans hd)).trans (h.dmgSpeed hd)⟩

theorem ReadFrame.quiet {b b' : Bus σ} (h : ReadFrame b b') : Quiet b b' := by
  obtain ⟨heq, hl⟩ := h
  rw [heq]; exact ⟨rfl, hl, rfl, rfl, .refl _, rfl, rfl, fun _ => rfl⟩

theorem Quiet.ofLcd {b : Bus σ} {l : Lcd} (h : b.lcd.SamePosition l) : Quiet b { b with lcd := l } :=
  ⟨rfl, .refl _, rfl, rfl, h, rfl, rfl, fun _ => rfl⟩

theorem checkStatInterrupt_quiet (b : Bus σ) : Quiet b (checkStatInterrupt b) := by
  obtain ⟨line, irq, h, -⟩ := checkStatInterrupt_eq b
  rw [h]; exact ⟨rfl, .refl _, rfl, rfl, ⟨rfl, rfl, rfl, rfl, rfl, rfl, rfl, rfl⟩, rfl, rfl, fun _ => rfl⟩

theorem writeVram_quiet (addr : UInt16) (val : UInt8) (b : Bus σ) : Quiet b (writeVram addr val b) := by
  unfold writeVram
  repeat' split
  all_goals exact ⟨rfl, .refl _, rfl, rfl, .refl _, rfl, rfl, fun _ => rfl⟩

theorem writeExternalRam_quiet (addr : UInt16) (val : UInt8) (b : Bus σ) :
    Quiet b (writeExternalRam addr val b) := by
  unfold writeExternalRam
  dsimp only
  repeat' split
  all_goals exact ⟨rfl, .refl _, rfl, rfl, .refl _, rfl, rfl, fun _ => rfl⟩

theorem writeWram_quiet (addr : Nat) (val : UInt8) (b : Bus σ) : Quiet b (writeWram addr val b) := by
  unfold writeWram
  repeat' split
  all_goals exact ⟨rfl, .refl _, rfl, rfl, .refl _, rfl, rfl, fun _ => rfl⟩

/-- Above the mapper registers, a memory write is quiet. -/
theorem writeMemory_quiet (env : Env σ) {addr : UInt16} (haddr : ¬ addr < 0x8000) (val : UInt8)
    (b : Bus σ) :
    Quiet b (writeMemory env addr val b) := by
  unfold writeMemory
  rw [if_neg haddr]
  split
  · exact writeVram_quiet addr val b
  split
  · exact writeExternalRam_quiet addr val b
  split
  · exact writeWram_quiet addr.toNat val b
  split
  · exact writeWram_quiet (addr.toNat - 0x2000) val b
  split
  · exact ⟨rfl, .refl _, rfl, rfl, .refl _, rfl, rfl, fun _ => rfl⟩
  · exact .refl b

theorem oamDma_quiet (env : Env σ) (val : UInt8) : ∀ (n : Nat) (b : Bus σ), Quiet b (oamDma env val n b)
  | 0, b => .refl b
  | n + 1, b => by
    have hread := (readByte_frame env ((val.toUInt16 <<< 8) ||| UInt16.ofNat n) (oamDma env val n b)).quiet
    exact ((oamDma_quiet env val n b).trans hread).trans ⟨rfl, .refl _, rfl, rfl, .refl _, rfl, rfl,
      fun _ => rfl⟩

/-- The general DMA writes only inside VRAM. -/
theorem hdmaLoop_quiet (env : Env σ) (src dst : Nat) (hdst : 0x8000 ≤ dst) :
    ∀ (n : Nat) (b : Bus σ), Quiet b (hdmaLoop env src dst n b)
  | 0, b => .refl b
  | n + 1, b => by
    have ih := hdmaLoop_quiet env src dst hdst n b
    unfold hdmaLoop
    dsimp only
    split
    · rename_i hlt
      have hread := (readByte_frame env (UInt16.ofNat (src + n)) (hdmaLoop env src dst n b)).quiet
      have haddr : ¬ UInt16.ofNat (dst + n) < 0x8000 := by
        rw [UInt16.lt_iff_toNat_lt, UInt16.toNat_ofNat']
        have : (0x8000 : UInt16).toNat = 0x8000 := rfl
        omega
      exact (ih.trans hread).trans (writeMemory_quiet env haddr _ _)
    · exact ih

/-- The destination of a general DMA starts inside VRAM. -/
theorem hdmaDst_ge (hi lo : UInt16) : 0x8000 ≤ (((0x8000 : UInt16) ||| hi ||| lo) &&& 0x9FF0).toNat := by
  have hbase : Nat.testBit 0x8000 15 = true := by decide
  have hmask : Nat.testBit 0x9FF0 15 = true := by decide
  have hbit : (((0x8000 : UInt16) ||| hi ||| lo) &&& 0x9FF0).toNat.testBit 15 = true := by
    simp only [UInt16.toNat_and, UInt16.toNat_or, Nat.testBit_and, Nat.testBit_or]
    simp [hbase, hmask]
  exact Nat.ge_two_pow_of_testBit hbit

theorem writeHdma5_quiet (env : Env σ) (val : UInt8) (b : Bus σ) : Quiet b (writeHdma5 env val b) := by
  unfold writeHdma5
  dsimp only
  split
  · exact .refl b
  split
  · exact ⟨rfl, .refl _, rfl, rfl, .refl _, rfl, rfl, fun _ => rfl⟩
  · exact (hdmaLoop_quiet env _ _ (hdmaDst_ge _ _) _ b).trans ⟨rfl, .refl _, rfl, rfl, .refl _, rfl,
      rfl, fun _ => rfl⟩

theorem writeTimerReg_timerCounter (n : Nat) (val : UInt8) (t : Timer) :
    (writeTimerReg n val t).timerCounter = t.timerCounter := by
  unfold writeTimerReg; split <;> rfl

theorem writeCgb_isCgb (n : Nat) (val : UInt8) (c : Cgb) : (writeCgb n val c).isCgb = c.isCgb := by
  unfold writeCgb; split
  · rfl
  · split <;> rfl

theorem writeCgb_speed (n : Nat) (val : UInt8) (c : Cgb) : c.isCgb = false →
    (writeCgb n val c).doubleSpeed = c.doubleSpeed := by
  intro h
  unfold writeCgb; rw [if_pos (by rw [h]; exact Bool.false_ne_true)]

theorem writeLcdReg_position (n : Nat) (val : UInt8) (l : Lcd) : l.SamePosition (writeLcdReg n val l) := by
  unfold writeLcdReg; split <;> exact ⟨rfl, rfl, rfl, rfl, rfl, rfl, rfl, rfl⟩

/-- What one bus operation can do to the bus. -/
inductive BusEffect (env : Env σ) (b : Bus σ) : Bus σ → Prop where
  | quiet {b' : Bus σ} (h : Quiet b b') : BusEffect env b b'
  | mapper (addr : UInt16) (val : UInt8) : BusEffect env b (writeMBC env addr val b)
  | lcd (val : UInt8) (h : hasBits b.lcd.lcdc 0x80 ≠ hasBits val 0x80) : BusEffect env b (writeLcdc val b)

theorem writeIo_effect (env : Env σ) (addr : UInt16) (val : UInt8) (b : Bus σ) :
    BusEffect env b (writeIo env addr val b) := by
  unfold writeIo
  split
  · exact .quiet ⟨rfl, .refl _, rfl, rfl, .refl _, rfl, rfl, fun _ => rfl⟩
  split
  case h_3 =>
    unfold writeSerialControl
    dsimp only
    split <;> exact .quiet ⟨rfl, .refl _, rfl, rfl, .refl _, rfl, rfl, fun _ => rfl⟩
  case h_9 =>
    -- only a flipped enable bit restarts the PPU
    by_cases h : hasBits b.lcd.lcdc 0x80 = hasBits val 0x80
    · unfold writeLcdc
      rw [if_neg (not_not.mpr h)]
      exact .quiet (Quiet.ofLcd ⟨rfl, rfl, rfl, rfl, rfl, rfl, rfl, h.symm⟩)
    · exact .lcd val h
  case h_10 =>
    refine .quiet (Quiet.trans ?_ (checkStatInterrupt_quiet _))
    exact Quiet.ofLcd ⟨rfl, rfl, rfl, rfl, rfl, rfl, rfl, rfl⟩
  case h_11 =>
    refine .quiet (Quiet.trans ?_ (checkStatInterrupt_quiet _))
    exact Quiet.ofLcd ⟨rfl, rfl, rfl, rfl, rfl, rfl, rfl, rfl⟩
  case h_12 => exact .quiet (oamDma_quiet env val 0xA0 b)
  all_goals first
    | exact .quiet ⟨rfl, .refl _, rfl, rfl, .refl _, rfl, rfl, fun _ => rfl⟩
    | exact .quiet ⟨rfl, .refl _, rfl, rfl, .refl _, writeTimerReg_timerCounter .., rfl, fun _ => rfl⟩
    | exact .quiet ⟨rfl, .refl _, rfl, rfl, .refl _, rfl, writeCgb_isCgb _ val b.cgb, writeCgb_speed _ val b.cgb⟩
    | exact .quiet (Quiet.ofLcd (writeLcdReg_position _ val b.lcd))
    | exact .quiet (writeHdma5_quiet env val b)
    | split <;> exact .quiet ⟨rfl, .refl _, rfl, rfl, .refl _, rfl, rfl, fun _ => rfl⟩

theorem writeByte_effect (env : Env σ) (addr : UInt16) (val : UInt8) (b : Bus σ) :
    BusEffect env b (writeByte env addr val b) := by
  unfold writeByte
  split
  · by_cases h : addr < 0x8000
    · unfold writeMemory
      rw [if_pos h]
      exact .mapper addr val
    · exact .quiet (writeMemory_quiet env h val b)
  · exact writeIo_effect env addr val b

theorem busStep_effect (env : Env σ) (o : BusOp) (b : Bus σ) : BusEffect env b (busStep env o b).2 := by
  cases o with
  | read addr => exact .quiet (readByte_frame env addr b).quiet
  | write addr val => exact writeByte_effect env addr val b
  | pending => exact .quiet (.refl b)
  | acknowledge mask => exact .quiet ⟨rfl, .refl _, rfl, rfl, .refl _, rfl, rfl, fun _ => rfl⟩
  | stop =>
    refine .quiet ⟨rfl, .refl _, rfl, rfl, .refl _, rfl, ?_, fun hd => ?_⟩
    · simp only [busStep, stopSpeed]
      split <;> rfl
    · simp only [busStep, stopSpeed, hd, Bool.false_eq_true, false_and, if_false]

end FoloGameboy

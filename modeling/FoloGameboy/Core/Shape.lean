/-
The shape of the machine: no step moves or resizes a buffer, and cartridge RAM never changes while
its dirty flag stays clear.
-/
import FoloGameboy.Core.Reach

namespace FoloGameboy

open Effect

variable {σ : Type} {env : Env σ}

/-! ## Shapes -/

/-- The same buffers, and cartridge RAM unchanged unless it is marked dirty. -/
structure Memory.SameShape (m m' : Memory) : Prop where
  sramSize : m'.sramSize = m.sramSize
  sramPersistSize : m'.sramPersistSize = m.sramPersistSize
  vram : m'.vram.size = m.vram.size
  wram : m'.wram.size = m.wram.size
  oam : m'.oam.size = m.oam.size
  hram : m'.hram.size = m.hram.size
  sramData : m'.sramData.size = m.sramData.size
  vram1 : m'.vram1.map Buffer.size = m.vram1.map Buffer.size
  wramExtra : m'.wramExtra.map Buffer.size = m.wramExtra.map Buffer.size
  clean : m'.sramDirty = false → m.sramDirty = false ∧ m'.sramData = m.sramData

namespace Memory.SameShape

@[refl] theorem refl (m : Memory) : m.SameShape m := ⟨rfl, rfl, rfl, rfl, rfl, rfl, rfl, rfl, rfl,
    fun h => ⟨h, rfl⟩⟩

theorem trans {m₁ m₂ m₃ : Memory} (h : m₁.SameShape m₂) (h' : m₂.SameShape m₃) : m₁.SameShape m₃ where
  sramSize := h'.sramSize.trans h.sramSize
  sramPersistSize := h'.sramPersistSize.trans h.sramPersistSize
  vram := h'.vram.trans h.vram
  wram := h'.wram.trans h.wram
  oam := h'.oam.trans h.oam
  hram := h'.hram.trans h.hram
  sramData := h'.sramData.trans h.sramData
  vram1 := h'.vram1.trans h.vram1
  wramExtra := h'.wramExtra.trans h.wramExtra
  clean hc :=
    have ⟨hd, he⟩ := h'.clean hc
    have ⟨hd', he'⟩ := h.clean hd
    ⟨hd', he.trans he'⟩

end Memory.SameShape

/-- The cartridge and the bank cache keep their places. -/
structure RomAccess.SameShape (r r' : RomAccess) : Prop where
  romData : r'.romData = r.romData
  romSize : r'.romSize = r.romSize
  romBankCount : r'.romBankCount = r.romBankCount
  romInRam : r'.romInRam = r.romInRam
  romBank0 : r'.romBank0 = r.romBank0
  bankCache : r'.bankCache.size = r.bankCache.size
  cacheSlots : r'.cacheSlots = r.cacheSlots
  nextSlot : r.cacheNextSlot < r.cacheSlots → r'.cacheNextSlot < r'.cacheSlots

namespace RomAccess.SameShape

@[refl] theorem refl (r : RomAccess) : r.SameShape r := ⟨rfl, rfl, rfl, rfl, rfl, rfl, rfl, id⟩

theorem trans {r₁ r₂ r₃ : RomAccess} (h : r₁.SameShape r₂) (h' : r₂.SameShape r₃) : r₁.SameShape r₃ where
  romData := h'.romData.trans h.romData
  romSize := h'.romSize.trans h.romSize
  romBankCount := h'.romBankCount.trans h.romBankCount
  romInRam := h'.romInRam.trans h.romInRam
  romBank0 := h'.romBank0.trans h.romBank0
  bankCache := h'.bankCache.trans h.bankCache
  cacheSlots := h'.cacheSlots.trans h.cacheSlots
  nextSlot hn := h'.nextSlot (h.nextSlot hn)

end RomAccess.SameShape

/-- The same machine but for contents and registers. -/
structure Bus.SameShape (b b' : Bus σ) : Prop where
  mem : b.mem.SameShape b'.mem
  rom : b.rom.SameShape b'.rom
  mbcType : b'.mbc.mbcType = b.mbc.mbcType
  soundRegs : b'.sound.soundRegs.size = b.sound.soundRegs.size
  rtcLatched : b'.rtc.rtcLatched.size = b.rtc.rtcLatched.size
  isCgb : b'.cgb.isCgb = b.cgb.isCgb
  bgPalette : b'.cgb.bgPalette.size = b.cgb.bgPalette.size
  objPalette : b'.cgb.objPalette.size = b.cgb.objPalette.size
  wramBank : b.cgb.wramBank ≤ 7 → b'.cgb.wramBank ≤ 7

namespace Bus.SameShape

@[refl] theorem refl (b : Bus σ) : b.SameShape b := ⟨.refl _, .refl _, rfl, rfl, rfl, rfl, rfl, rfl, id⟩

theorem trans {b₁ b₂ b₃ : Bus σ} (h : b₁.SameShape b₂) (h' : b₂.SameShape b₃) : b₁.SameShape b₃ where
  mem := h.mem.trans h'.mem
  rom := h.rom.trans h'.rom
  mbcType := h'.mbcType.trans h.mbcType
  soundRegs := h'.soundRegs.trans h.soundRegs
  rtcLatched := h'.rtcLatched.trans h.rtcLatched
  isCgb := h'.isCgb.trans h.isCgb
  bgPalette := h'.bgPalette.trans h.bgPalette
  objPalette := h'.objPalette.trans h.objPalette
  wramBank hw := h'.wramBank (h.wramBank hw)

/-- Only memory changes. -/
theorem ofMem {b : Bus σ} {m : Memory} (h : b.mem.SameShape m) : b.SameShape { b with mem := m } :=
  { SameShape.refl b with mem := h }

/-- Only the sound registers change. -/
theorem ofSound {b : Bus σ} {s : Sound σ} (h : s.soundRegs.size = b.sound.soundRegs.size) :
    b.SameShape { b with sound := s } :=
  { SameShape.refl b with soundRegs := h }

end Bus.SameShape

/-! ## Reads -/

theorem loadBank_shape (env : Env σ) (bank slot : Nat) (r : RomAccess) :
    r.SameShape (loadBank env bank slot r).2 := by
  unfold loadBank
  split <;> exact ⟨rfl, rfl, rfl, rfl, rfl, rfl, rfl, id⟩

theorem patchSlot_shape (env : Env σ) (bank slot : Nat) (r : RomAccess) :
    r.SameShape (patchSlot env bank slot r) := by
  unfold patchSlot
  dsimp only
  split <;> split <;> try split
  all_goals exact ⟨rfl, rfl, rfl, rfl, rfl, rfl, rfl, id⟩

theorem readCachedBank_shape (env : Env σ) (bank offset : Nat) (r : RomAccess) :
    r.SameShape (readCachedBank env bank offset r).2 := by
  unfold readCachedBank
  split
  · split
    · exact ⟨rfl, rfl, rfl, rfl, rfl, rfl, rfl, id⟩
    · dsimp only
      split <;> exact ⟨rfl, rfl, rfl, rfl, rfl, rfl, rfl, id⟩
  · rename_i hslots
    split
    · exact .refl r
    · have hnext : r.SameShape { r with cacheNextSlot := (r.cacheNextSlot + 1) % r.cacheSlots } :=
        ⟨rfl, rfl, rfl, rfl, rfl, rfl, rfl, fun _ => Nat.mod_lt _ (Nat.pos_of_ne_zero hslots)⟩
      have hload := hnext.trans (loadBank_shape env bank r.cacheNextSlot
        { r with cacheNextSlot := (r.cacheNextSlot + 1) % r.cacheSlots })
      dsimp only
      split
      · rename_i r' heq
        rw [heq] at hload
        exact hload.trans ⟨rfl, rfl, rfl, rfl, rfl, rfl, rfl, id⟩
      · rename_i r' heq
        rw [heq] at hload
        refine (hload.trans ?_).trans (patchSlot_shape env bank r.cacheNextSlot _)
        exact ⟨rfl, rfl, rfl, rfl, rfl, rfl, rfl, id⟩

theorem tickRTC_latched (env : Env σ) (r : Rtc) : (tickRTC env r).rtcLatched = r.rtcLatched := by
  unfold tickRTC
  dsimp only
  repeat' split
  all_goals rfl

theorem Bus.SameShape.ofRom {b : Bus σ} {r : RomAccess} (h : b.rom.SameShape r) :
    b.SameShape { b with rom := r } :=
  { SameShape.refl b with rom := h }

theorem readRomLow_shape (env : Env σ) (addr : UInt16) (b : Bus σ) :
    b.SameShape (readRomLow env addr b).2 := by
  unfold readRomLow
  dsimp only
  repeat' split
  all_goals first | exact .refl b | exact .ofRom (readCachedBank_shape ..)

theorem readRomHigh_shape (env : Env σ) (addr : UInt16) (b : Bus σ) :
    b.SameShape (readRomHigh env addr b).2 := by
  unfold readRomHigh
  dsimp only
  split
  · exact .refl b
  · exact .ofRom (readCachedBank_shape ..)

theorem readExternalRam_shape (env : Env σ) (addr : UInt16) (b : Bus σ) :
    b.SameShape (readExternalRam env addr b).2 := by
  unfold readExternalRam
  dsimp only
  repeat' split
  all_goals first
    | exact .refl b
    | exact { Bus.SameShape.refl b with rtcLatched := congrArg Buffer.size (tickRTC_latched env b.rtc) }

theorem readByteSlow_shape (env : Env σ) (addr : UInt16) (b : Bus σ) :
    b.SameShape (readByteSlow env addr b).2 := by
  unfold readByteSlow
  split
  · exact readRomLow_shape env addr b
  split
  · exact readRomHigh_shape env addr b
  split
  · repeat' split
    all_goals exact .refl b
  split
  · exact readExternalRam_shape env addr b
  repeat' split
  all_goals exact .refl b

theorem readByte_shape (env : Env σ) (addr : UInt16) (b : Bus σ) : b.SameShape (readByte env addr b).2 := by
  unfold readByte readByteRam
  split
  · split
    · exact .refl b
    · exact readByteSlow_shape env addr b
  · split
    · exact .refl b
    split
    · exact .refl b
    · exact readByteSlow_shape env addr b

/-! ## Writes -/

/-- A store that changes a byte marks the RAM dirty. -/
theorem storeSram_shape (m : Memory) (idx : Nat) (val : UInt8) : m.SameShape (storeSram m idx val) := by
  unfold storeSram
  split
  · exact ⟨rfl, rfl, rfl, rfl, rfl, rfl, Buffer.size_set .., rfl, rfl, fun h => Bool.noConfusion h⟩
  · exact .refl m

theorem writeVram_shape (addr : UInt16) (val : UInt8) (b : Bus σ) : b.SameShape (writeVram addr val b) := by
  unfold writeVram
  split
  · rename_i bank1 hbank
    split
    · refine .ofMem { Memory.SameShape.refl b.mem with vram1 := ?_ }
      rw [hbank, Option.map_some, Option.map_some, Buffer.size_set]
    · exact .ofMem { Memory.SameShape.refl b.mem with vram := Buffer.size_set .. }
  · exact .ofMem { Memory.SameShape.refl b.mem with vram := Buffer.size_set .. }

theorem writeRtc_latched (ramBank val : UInt8) (r : Rtc) :
    (writeRtc ramBank val r).rtcLatched = r.rtcLatched := by
  unfold writeRtc
  split <;> rfl

theorem writeExternalRam_shape (addr : UInt16) (val : UInt8) (b : Bus σ) :
    b.SameShape (writeExternalRam addr val b) := by
  unfold writeExternalRam
  dsimp only
  repeat' split
  all_goals first
    | exact .refl b
    | exact .ofMem (storeSram_shape ..)
    | exact { Bus.SameShape.refl b with rtcLatched := congrArg Buffer.size (writeRtc_latched ..) }

theorem writeWram_shape (addr : Nat) (val : UInt8) (b : Bus σ) : b.SameShape (writeWram addr val b) := by
  have hwram : ∀ i, b.SameShape { b with mem := { b.mem with wram := b.mem.wram.set i val } } :=
    fun i => .ofMem { Memory.SameShape.refl b.mem with wram := Buffer.size_set .. }
  have hextra :
      ∀ i, b.SameShape { b with
      mem := { b.mem with wramExtra := b.mem.wramExtra.map fun w => w.set i val } } := by
    intro i
    refine .ofMem { Memory.SameShape.refl b.mem with wramExtra := ?_ }
    rw [Option.map_map]
    exact congrArg (fun f => Option.map f b.mem.wramExtra) (funext fun w => Buffer.size_set ..)
  unfold writeWram
  split
  · exact hwram _
  split
  · exact hextra _
  · exact hwram _

theorem mbcWrite_mbcType (m : MbcState) (addr : UInt16) (val : UInt8) :
    (mbcWrite m addr val).mbcType = m.mbcType := by
  unfold mbcWrite mbc1Write mbc2Write mbc3Write mbc5Write
  dsimp only
  repeat' split
  all_goals rfl

theorem mbc3Latch_latched (env : Env σ) (r : Rtc) (addr : UInt16) (val : UInt8) :
    (mbc3Latch env r addr val).rtcLatched.size = r.rtcLatched.size := by
  unfold mbc3Latch latchRTC
  dsimp only
  split
  · rfl
  split
  · simp only [Buffer.size_set, tickRTC_latched]
  · rfl

theorem refreshMappedRomBanks_shape (m : MbcState) (r : RomAccess) :
    r.SameShape (refreshMappedRomBanks m r) := by
  unfold refreshMappedRomBanks
  split <;> exact ⟨rfl, rfl, rfl, rfl, rfl, rfl, rfl, id⟩

theorem writeMBC_shape (env : Env σ) (addr : UInt16) (val : UInt8) (b : Bus σ) :
    b.SameShape (writeMBC env addr val b) := by
  refine { Bus.SameShape.refl b with rom := ?_, mbcType := ?_, rtcLatched := ?_ }
  · exact refreshMappedRomBanks_shape _ _
  · exact mbcWrite_mbcType b.mbc addr val
  · show (if b.mbc.mbcType = .mbc3 then mbc3Latch env b.rtc addr val else b.rtc).rtcLatched.size = _
    split
    · exact mbc3Latch_latched env b.rtc addr val
    · rfl

theorem writeMemory_shape (env : Env σ) (addr : UInt16) (val : UInt8) (b : Bus σ) :
    b.SameShape (writeMemory env addr val b) := by
  unfold writeMemory
  split
  · exact writeMBC_shape env addr val b
  split
  · exact writeVram_shape addr val b
  split
  · exact writeExternalRam_shape addr val b
  split
  · exact writeWram_shape addr.toNat val b
  split
  · exact writeWram_shape (addr.toNat - 0x2000) val b
  split
  · exact .ofMem { Memory.SameShape.refl b.mem with oam := Buffer.size_set .. }
  · exact .refl b

theorem oamDma_shape (env : Env σ) (val : UInt8) : ∀ (n : Nat) (b : Bus σ), b.SameShape (oamDma env val n b)
  | 0, b => .refl b
  | n + 1, b => by
    have hread := readByte_shape env ((val.toUInt16 <<< 8) ||| UInt16.ofNat n) (oamDma env val n b)
    refine ((oamDma_shape env val n b).trans hread).trans ?_
    exact .ofMem { Memory.SameShape.refl _ with oam := Buffer.size_set .. }

theorem hdmaLoop_shape (env : Env σ) (src dst : Nat) :
    ∀ (n : Nat) (b : Bus σ), b.SameShape (hdmaLoop env src dst n b)
  | 0, b => .refl b
  | n + 1, b => by
    unfold hdmaLoop
    dsimp only
    split
    · have hread := readByte_shape env (UInt16.ofNat (src + n)) (hdmaLoop env src dst n b)
      exact ((hdmaLoop_shape env src dst n b).trans hread).trans (writeMemory_shape env _ _ _)
    · exact hdmaLoop_shape env src dst n b

/-- Only the colour registers change, and no palette is resized. -/
theorem Bus.SameShape.ofCgb {b : Bus σ} {c : Cgb} (hcgb : c.isCgb = b.cgb.isCgb)
    (hbg : c.bgPalette.size = b.cgb.bgPalette.size)
    (hobj : c.objPalette.size = b.cgb.objPalette.size) (hbank : b.cgb.wramBank ≤ 7 → c.wramBank ≤ 7) :
    b.SameShape { b with cgb := c } :=
  { SameShape.refl b with isCgb := hcgb, bgPalette := hbg, objPalette := hobj, wramBank := hbank }

theorem writeHdma5_shape (env : Env σ) (val : UInt8) (b : Bus σ) : b.SameShape (writeHdma5 env val b) := by
  unfold writeHdma5
  dsimp only
  split
  · exact .refl b
  split
  · exact .ofCgb rfl rfl rfl id
  · exact (hdmaLoop_shape env _ _ _ b).trans (.ofCgb rfl rfl rfl id)

theorem writeCgb_shape (n : Nat) (val : UInt8) (b : Bus σ) :
    b.SameShape { b with cgb := writeCgb n val b.cgb } := by
  have hbank : (if val &&& 0x07 = 0 then (1 : UInt8) else val &&& 0x07) ≤ 7 := by
    split
    · decide
    · rw [UInt8.le_iff_toNat_le, UInt8.toNat_and]
      exact Nat.and_le_right
  unfold writeCgb
  split
  · exact .refl b
  · split
    all_goals first
      | exact .ofCgb rfl rfl rfl id
      | exact .ofCgb rfl (Buffer.size_set ..) rfl id
      | exact .ofCgb rfl rfl (Buffer.size_set ..) id
      | exact .ofCgb rfl rfl rfl fun _ => hbank

theorem checkStatInterrupt_shape (b : Bus σ) : b.SameShape (checkStatInterrupt b) := by
  rw [(checkStatInterrupt_frame b).eq]
  exact { Bus.SameShape.refl b with }

theorem writeIo_shape (env : Env σ) (addr : UInt16) (val : UInt8) (b : Bus σ) :
    b.SameShape (writeIo env addr val b) := by
  unfold writeIo
  split
  · exact .ofSound (Buffer.size_set ..)
  split
  case h_3 =>
    unfold writeSerialControl
    dsimp only
    split <;> exact { Bus.SameShape.refl b with }
  case h_9 =>
    unfold writeLcdc
    split
    · refine Bus.SameShape.trans ?_ (checkStatInterrupt_shape _)
      exact { Bus.SameShape.refl b with }
    · exact { Bus.SameShape.refl b with }
  case h_10 =>
    refine Bus.SameShape.trans ?_ (checkStatInterrupt_shape _)
    exact { Bus.SameShape.refl b with }
  case h_11 =>
    refine Bus.SameShape.trans ?_ (checkStatInterrupt_shape _)
    exact { Bus.SameShape.refl b with }
  case h_12 => exact oamDma_shape env val 0xA0 b
  case h_20 => exact writeHdma5_shape env val b
  all_goals first
    | exact { Bus.SameShape.refl b with }
    | exact writeCgb_shape _ val b
    | split
      · exact .ofMem { Memory.SameShape.refl b.mem with hram := Buffer.size_set .. }
      · exact .refl b

theorem writeByte_shape (env : Env σ) (addr : UInt16) (val : UInt8) (b : Bus σ) :
    b.SameShape (writeByte env addr val b) := by
  unfold writeByte
  split
  · exact writeMemory_shape env addr val b
  · exact writeIo_shape env addr val b

/-! ## Steps and frames -/

theorem busStep_shape (env : Env σ) (o : BusOp) (b : Bus σ) : b.SameShape (busStep env o b).2 := by
  cases o with
  | read addr => exact readByte_shape env addr b
  | write addr val => exact writeByte_shape env addr val b
  | pending => exact .refl b
  | acknowledge mask => exact { Bus.SameShape.refl b with }
  | stop =>
    simp only [busStep, stopSpeed]
    split
    · exact .ofCgb rfl rfl rfl id
    · exact .refl b

theorem shape_frameInv (b : Bus σ) : FrameInv env fun g : GBEmulator σ => b.SameShape g.bus where
  step idleBudget _ h := cpuStep_ops (fun o _ hb => hb.trans (busStep_shape env o _)) idleBudget h
  timer _ _ _ h := h.trans { Bus.SameShape.refl _ with }
  ppu _ _ _ _ h := h.trans { Bus.SameShape.refl _ with }

theorem runFrame_shape {g g' : GBEmulator σ} {spent : Int}
    (hr : runFrame env g = some (g', spent)) : g.bus.SameShape g'.bus :=
  (shape_frameInv g.bus).runFrame_inv (.refl _) hr

end FoloGameboy

/-
Guest memory safety: a session that `gb_port_create` has built keeps the buffer sizes and the window's
row counter in bounds whatever its guest and its host do, so no access of the bus, the DMA loops or the
renderer leaves its buffer.
-/
import FoloGameboy.Core.FrameBounds
import FoloGameboy.Port.Battery
import FoloGameboy.Port.Streaming

namespace FoloGameboy

variable {σ : Type} {env : Env σ} {p : Platform σ} {rom : RomSource}

/-! ## Creation -/

/-- A mapped ROM of whole banks. -/
theorem romOf_mapped {size : Nat} (hmin : ROM_BANK_SIZE ≤ size) (bytes : Nat → UInt8) (reads : Nat) :
    (romOf (some ⟨size, bytes⟩) size { romReads := reads }).Sized where
  banks := by
    have hdiv : 0 < size / ROM_BANK_SIZE := Nat.div_pos hmin (by decide)
    show 0 < if size / ROM_BANK_SIZE = 0 then 1 else size / ROM_BANK_SIZE
    rwa [if_neg (Nat.ne_of_gt hdiv)]
  inRam _ := by
    have hdiv : 0 < size / ROM_BANK_SIZE := Nat.div_pos hmin (by decide)
    refine ⟨_, rfl, ?_⟩
    show (if size / ROM_BANK_SIZE = 0 then 1 else size / ROM_BANK_SIZE) * ROM_BANK_SIZE ≤ size
    rw [if_neg (Nat.ne_of_gt hdiv)]
    exact Nat.div_mul_le_self _ _
  bank0 h := Bool.noConfusion h
  cache := Nat.le_of_eq (Nat.zero_mul _)
  nextSlot h := absurd rfl h
  windows _ h := h.elim nofun nofun

/-- A streamed ROM behind its one cache slot. -/
theorem romOf_streamed {size : Nat} (hmin : ROM_BANK_SIZE ≤ size) (bank0 : Nat → UInt8) :
    (romOf none size (streamRom size bank0)).Sized where
  banks := by
    have hdiv : 0 < size / ROM_BANK_SIZE := Nat.div_pos hmin (by decide)
    show 0 < if size / ROM_BANK_SIZE = 0 then 1 else size / ROM_BANK_SIZE
    rwa [if_neg (Nat.ne_of_gt hdiv)]
  inRam h := Bool.noConfusion h
  bank0 _ := ⟨_, rfl, Nat.le_refl _⟩
  cache := Nat.le_refl _
  nextSlot _ := Nat.zero_lt_one
  windows _ h := h.elim nofun nofun

/-- What a machine has before a cartridge is loaded; in CGB mode the two extra banks are there. -/
theorem bareCore_memory {cgb : Option (Bool × Bool)} (hcgb : cgb = none ∨ cgb = some (true, true)) :
    ((bareCore cgb : GBEmulator σ).bus.cgb.isCgb = true →
      (bareCore cgb : GBEmulator σ).bus.mem.vram1.isSome = true) ∧
      (bareCore cgb : GBEmulator σ).bus.rtc = {} := by
  rcases hcgb with rfl | rfl
  · exact ⟨fun h => Bool.noConfusion h, rfl⟩
  · exact ⟨fun _ => rfl, rfl⟩

/-- The RAM a cartridge gets holds what it saves, and an MBC2 has its own 512 bytes. -/
theorem cartridge_sram (type : UInt8) (ramSize : Nat) (data : Option Buffer) (size : Nat)
    (g : GBEmulator σ) :
    (cartridge type ramSize data size g).bus.mem.sramPersistSize ≤
      (cartridge type ramSize data size g).bus.mem.sramSize ∧
      ((cartridge type ramSize data size g).bus.mbc.mbcType = .mbc2 →
        (cartridge type ramSize data size g).bus.mem.sramSize = 512) := by
  unfold cartridge
  dsimp only
  refine ⟨?_, fun hmbc => ?_⟩
  · generalize (if detectMBC type = MBCType.mbc2 then 512 else ramSize) = persist
    split <;> omega
  · rw [if_pos hmbc]
    rfl

/-- Initialising a loaded cartridge clears every buffer at its size. -/
theorem init_contained {heap : Bool} {g g' : GBEmulator σ} (hrom : g.bus.rom.Sized)
    (hsram : g.bus.mem.sramPersistSize ≤ g.bus.mem.sramSize)
    (hmbc2 : g.bus.mbc.mbcType = .mbc2 → g.bus.mem.sramSize = 512)
    (hcgb : g.bus.cgb.isCgb = true → g.bus.mem.vram1.isSome = true) (hlatch : g.bus.rtc.rtcLatched.size = 5)
    (h : init heap g = some g') : Contained g'.bus := by
  have hrom' : g'.bus.rom.Sized := by
    rw [init_rom h]
    exact refreshMappedRomBanks_windows hrom _
  unfold init at h
  split at h
  · cases h
  obtain rfl := Option.some.inj h
  refine ⟨?_, .cleared rfl⟩
  exact {
    rom := hrom'
    vram := rfl
    wram := rfl
    oam := rfl
    hram := rfl
    sramData := rfl
    sramPersist := hsram
    mbc2 := hmbc2
    cgb := fun hc => Option.isSome_map.trans (hcgb hc)
    vram1 := .fill _ _ _
    wramExtra := .fill _ _ _
    wramBank := (by decide : 1 ≤ 7)
    soundRegs := rfl
    rtcLatched := hlatch
    bgPalette := rfl
    objPalette := rfl
    framebuf := .fill _ _ _
    colorFramebuf := .fill _ _ _ }

theorem powerOn_contained {setup : Setup} {r : RomAccess} {cgb : Option (Bool × Bool)} {g : GBEmulator σ}
    (hcgb : cgb = none ∨ cgb = some (true, true))
    (hprep : prepare setup = withRom r (bareCore cgb : GBEmulator σ))
    (hsize : 0x150 ≤ setup.size) (hrom : (romOf setup.data setup.size r).Sized)
    (hon : powerOn setup = some g) :
    Contained g.bus := by
  obtain ⟨hvram1, hrtc⟩ := bareCore_memory (σ := σ) hcgb
  unfold powerOn at hon
  rw [hprep] at hon
  obtain ⟨g₁, hload, hinit⟩ := Option.bind_eq_some_iff.mp hon
  obtain ⟨header, ramSize, -, -, rfl⟩ := loadRom_some hsize hload
  obtain ⟨hpersist, hmbc2⟩ :=
    cartridge_sram (header.get 0x147) ramSize setup.data setup.size
      (withRom r (bareCore cgb : GBEmulator σ))
  refine init_contained (refreshMappedRomBanks_windows hrom _) hpersist hmbc2 hvram1 ?_ hinit
  show (bareCore cgb : GBEmulator σ).bus.rtc.rtcLatched.size = 5
  rw [hrtc]
  rfl

/-- Every session starts with its buffers at their sizes and the window's row counter at 0. -/
theorem gbPortCreate_contained {s : Session σ} (h : gbPortCreate env p rom = some s) :
    Contained s.core.bus := by
  obtain ⟨hmin, -, -, setup, g, hsetup, hon, rfl⟩ := gbPortCreate_some h
  have hbank : ROM_BANK_SIZE ≤ rom.size := Nat.le_trans (by decide) hmin
  have hheader : 0x150 ≤ rom.size := Nat.le_trans (by decide) hmin
  have hg : Contained g.bus := by
    obtain ⟨size, mapped⟩ := rom
    cases mapped with
    | true =>
      obtain ⟨cgb, hcgb, rfl, hprep⟩ := sessionSetup_mapped hsetup
      exact powerOn_contained (by rw [hcgb]; exact (ite_eq_or_eq _ _ _).symm) hprep hheader
        (romOf_mapped hbank env.rom 1) hon
    | false =>
      obtain ⟨cgb, hcgb, -, rfl, hprep⟩ := sessionSetup_streaming hsetup
      exact powerOn_contained (by rw [hcgb]; exact (ite_eq_or_eq _ _ _).symm) hprep hheader
        (romOf_streamed hbank _) hon
  exact ⟨{ hg.sized with }, hg.window⟩

/-! ## Sessions in use -/

/-- A created session after any accesses and instructions of its guest, and any calls of its host. -/
inductive InUse (env : Env σ) (p : Platform σ) (rom : RomSource) : Session σ → Prop where
  | create {s : Session σ} (hs : gbPortCreate env p rom = some s) : InUse env p rom s
  | access {s : Session σ} (h : InUse env p rom s) (o : BusOp) :
      InUse env p rom { s with core := { s.core with bus := (busStep env o s.core.bus).2 } }
  | step {s : Session σ} (h : InUse env p rom s) (idleBudget : Int) :
      InUse env p rom { s with core := (cpuStep env idleBudget s.core).2 }
  | setKeys {s : Session σ} (h : InUse env p rom s) (keys : Keys) : InUse env p rom (gbPortSetKeys keys s)
  | frame {s s' : Session σ} (h : InUse env p rom s) (render : Bool) {ok : Bool}
      (hs : gbPortStepFrame env render s = some (ok, s')) : InUse env p rom s'
  /-- `gb_port_audio_frame` runs the sound chip on. -/
  | audioFrame {s : Session σ} (h : InUse env p rom s) (chip : σ) :
      InUse env p rom { s with core := act env (.sound chip) s.core }
  | markSaved {s : Session σ} (h : InUse env p rom s) : InUse env p rom (gbPortMarkSaved s)
  | importSram {s s' : Session σ} (h : InUse env p rom s) (src : List UInt8) (hs : gbPortImportSram src s = some s') :
      InUse env p rom s'
  | writeSram {s s' : Session σ} (h : InUse env p rom s) (offset : Nat) (src : List UInt8)
      (hs : gbPortWriteSram offset src s = some s') : InUse env p rom s'
  | exportRtc {s : Session σ} (h : InUse env p rom s) : InUse env p rom (gbPortExportRtc env s).2
  | importRtc {s : Session σ} (h : InUse env p rom s) (src : List UInt8) : InUse env p rom (gbPortImportRtc src s)

/-- The invariant of a session in use. -/
structure SafeSession (s : Session σ) : Prop where
  contained : Contained s.core.bus
  ppu : PpuOK s.core.bus.lcd

variable (env) in
theorem busStep_safe (o : BusOp) {b : Bus σ} (h : Contained b ∧ PpuOK b.lcd) :
    Contained (busStep env o b).2 ∧ PpuOK (busStep env o b).2.lcd :=
  ⟨busStep_contained o h.1, h.2.tracks ((busStep_effect env o b).tracks (.inl (.refl _)))⟩

theorem gbPortStepFrame_safe {render ok : Bool} {s s' : Session σ} (h : SafeSession s)
    (hs : gbPortStepFrame env render s = some (ok, s')) : SafeSession s' := by
  unfold gbPortStepFrame at hs
  split at hs
  · obtain ⟨-, rfl⟩ := Prod.mk.inj (Option.some.inj hs)
    exact h
  · obtain ⟨⟨g, spent⟩, hg, hr⟩ := Option.map_eq_some_iff.mp hs
    obtain ⟨-, rfl⟩ := Prod.mk.inj hr
    have hstart : Contained (setRender render s.core).bus :=
      ⟨{ h.contained.sized with }, h.contained.window⟩
    have hppu : PpuOK (setRender render s.core).bus.lcd := h.ppu
    obtain ⟨-, hkeep⟩ := runFrameChecked_eq env hppu hstart
    have hg' := hkeep g spent hg
    have hppu' := runFrame_ppuOK hppu hg
    exact ⟨⟨{ hg'.sized with }, hg'.window⟩, hppu'⟩

/-- Imported bytes change neither the size of the SRAM nor anything else the invariant reads. -/
theorem withMem_safe {s : Session σ} (h : SafeSession s) {data : Buffer} {dirty : Bool}
    (hsize : data.size = s.core.bus.mem.sramData.size) :
    SafeSession (withMem { s.core.bus.mem with sramData := data, sramDirty := dirty } s) where
  contained := ⟨{ h.contained.sized with sramData := hsize.trans h.contained.sized.sramData },
    h.contained.window⟩
  ppu := h.ppu

theorem withRtc_safe {s : Session σ} (h : SafeSession s) {r : Rtc}
    (hsize : r.rtcLatched.size = s.core.bus.rtc.rtcLatched.size) :
    SafeSession (withRtc r s) where
  contained := ⟨{ h.contained.sized with rtcLatched := hsize.trans h.contained.sized.rtcLatched },
    h.contained.window⟩
  ppu := h.ppu

theorem InUse.safe {s : Session σ} (h : InUse env p rom s) : SafeSession s := by
  induction h with
  | create hs => exact ⟨gbPortCreate_contained hs, (gbPortCreate_reachable hs).ppuOK⟩
  | access _ o ih =>
    obtain ⟨hc, hp⟩ := busStep_safe env o ⟨ih.contained, ih.ppu⟩
    exact ⟨hc, hp⟩
  | step _ idleBudget ih =>
    obtain ⟨hc, hp⟩ := cpuStep_ops (P := fun b => Contained b ∧
      PpuOK b.lcd) (fun o _ hb => busStep_safe env o hb) idleBudget ⟨ih.contained, ih.ppu⟩
    exact ⟨hc, hp⟩
  | setKeys _ keys ih => exact ⟨⟨{ ih.contained.sized with }, ih.contained.window⟩, ih.ppu⟩
  | frame _ render hs ih => exact gbPortStepFrame_safe ih hs
  | audioFrame _ chip ih => exact ⟨⟨{ ih.contained.sized with }, ih.contained.window⟩, ih.ppu⟩
  | markSaved _ ih => exact withMem_safe ih rfl
  | importSram _ src hs ih =>
    unfold gbPortImportSram at hs
    dsimp only at hs
    split at hs
    · obtain rfl := Option.some.inj hs
      exact withMem_safe ih (Buffer.size_blit _ _ _ _)
    · cases hs
  | writeSram _ offset src hs ih =>
    unfold gbPortWriteSram at hs
    dsimp only at hs
    split at hs
    · split at hs
      · obtain rfl := Option.some.inj hs
        exact withMem_safe ih (Buffer.size_blit _ _ _ _)
      · obtain rfl := Option.some.inj hs
        exact ih
    · cases hs
  | exportRtc _ ih => exact withRtc_safe ih (congrArg Buffer.size (tickRTC_latched env _))
  | importRtc _ src ih => exact withRtc_safe ih (Buffer.size_blit _ _ _ _)

/-! ## Memory safety -/

/-- No access of an emulator faults: neither a bus access at any address, nor a DMA of any page or length,
nor a scanline, nor any of them in the course of a frame. -/
structure MemorySafe (env : Env σ) (g : GBEmulator σ) : Prop where
  readByte (addr : UInt16) : readByteChecked env addr g.bus = some (FoloGameboy.readByte env addr g.bus)
  readByteSlow (addr : UInt16) : readByteSlowChecked env addr g.bus =
    some (FoloGameboy.readByteSlow env addr g.bus)
  writeByte (addr : UInt16) (val : UInt8) :
    writeByteChecked env addr val g.bus = some (FoloGameboy.writeByte env addr val g.bus)
  oamDma (val : UInt8) : oamDmaChecked env val 0xA0 g.bus = some (FoloGameboy.oamDma env val 0xA0 g.bus)
  hdma (val : UInt8) : writeHdma5Checked env val g.bus = some (writeHdma5 env val g.bus)
  renderLine (line : Nat) (hline : line < GB_H) : renderLineChecked g.bus line =
    some (FoloGameboy.renderLine g.bus line)
  windowLine : g.bus.lcd.windowLine ≤ GB_H
  frame : ∃ r, runFrame env g = some r ∧ runFrameChecked env g = some r

/-- The guest of a session never makes the emulator leave a buffer. -/
theorem guest_memory_safe {s : Session σ} (h : InUse env p rom s) : MemorySafe env s.core := by
  have hsafe := h.safe
  have hsized := hsafe.contained.sized
  obtain ⟨r, hr⟩ := Option.isSome_iff_exists.mp (runFrame_isSome env hsafe.ppu)
  exact {
    readByte := fun addr => readByteChecked_eq env addr hsized
    readByteSlow := fun addr => readByteSlowChecked_eq env addr hsized
    writeByte := fun addr val => writeByteChecked_eq env addr val hsized
    oamDma := fun val => oamDmaChecked_eq env val hsized 0xA0 (Nat.le_refl _)
    hdma := fun val => writeHdma5Checked_eq env val hsized
    renderLine := fun line hline => renderLineChecked_eq hsized hsafe.contained.window.le hline
    windowLine := hsafe.contained.window.le
    frame := ⟨r, hr, (runFrameChecked_eq env hsafe.ppu hsafe.contained).1.trans hr⟩ }

/-- A new battery session after its guest has selected a page for OAM DMA. -/
theorem guest_memory_safe_battery : ∃ s, InUse batteryEnv ⟨false, true, ()⟩ ⟨32768, true⟩ s ∧
    MemorySafe batteryEnv s.core := by
  obtain ⟨s, hs, -, -⟩ := batteryEnv_session
  have huse := (InUse.create hs).access (.write 0xFF46 0xC0)
  exact ⟨_, huse, guest_memory_safe huse⟩

end FoloGameboy

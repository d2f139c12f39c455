/-
A session with its sound chip: the guest reaches the chip through the registers 0xFF10..0xFF3F only, and
the host through `gb_port_audio_frame`. Whatever both do, the chip is one that a sequence of register
accesses and calls can produce, so no access and no audio frame of a session faults.
-/
import FoloGameboy.Apu.Registers
import FoloGameboy.Port.Bounds

namespace FoloGameboy

/-! ## The chip behind the bus -/

def apuWrite (chip : Apu) (addr : UInt16) (val : UInt8) : Apu := (minigbApuAudioWrite addr val chip).getD chip

def apuRead (chip : Apu) (addr : UInt16) : UInt8 := (minigbApuAudioRead addr chip).getD 0xFF

/-- An environment with `minigb_apu` as its sound chip. -/
def Env.withApu {σ : Type} (env : Env σ) : Env Apu :=
  { env with soundWrite := apuWrite, soundRead := apuRead }

/-- `(left + right) / 2` -/
def monoSample (s : StereoSample) : Int := wrapInt16 ((s.left + s.right).tdiv 2)

def withSound (chip : Apu) (s : Session Apu) : Session Apu :=
  { s with
    core := { s.core with bus := { s.core.bus with sound := { s.core.bus.sound with soundContext := some chip } } } }

/-- `gb_port_audio_frame`: a frame of samples for a buffer that can take it. Without a chip attached, which
no created session is, there is nothing to run. -/
def gbPortAudioFrame (capacity : Nat) (s : Session Apu) : Option (List Int × Session Apu) :=
  if capacity < AUDIO_SAMPLES then some ([], s)
  else do
    let chip ← s.core.bus.sound.soundContext
    let (stereo, chip) ← minigbApuAudioCallback chip
    return (stereo.map monoSample, withSound chip s)

/-! ## What reaches the chip -/

section
variable {σ : Type}

theorem ReadFrame.sound {b b' : Bus σ} (h : ReadFrame b b') : b'.sound = b.sound := by
  rw [h.eq]

theorem writeMemory_sound (env : Env σ) (addr : UInt16) (val : UInt8) (b : Bus σ) :
    (writeMemory env addr val b).sound = b.sound := by
  unfold writeMemory writeMBC writeVram writeExternalRam writeWram
  dsimp only
  repeat' split
  all_goals rfl

theorem oamDma_sound (env : Env σ) (val : UInt8) : ∀ (n : Nat) (b : Bus σ), (oamDma env val n b).sound = b.sound
  | 0, _ => rfl
  | n + 1, b => by
    have hread := (readByte_frame env ((val.toUInt16 <<< 8) ||| UInt16.ofNat n) (oamDma env val n b)).sound
    exact hread.trans (oamDma_sound env val n b)

theorem hdmaLoop_sound (env : Env σ) (src dst : Nat) :
    ∀ (n : Nat) (b : Bus σ), (hdmaLoop env src dst n b).sound = b.sound
  | 0, _ => rfl
  | n + 1, b => by
    have ih := hdmaLoop_sound env src dst n b
    unfold hdmaLoop
    dsimp only
    split
    · have hread := (readByte_frame env (UInt16.ofNat (src + n)) (hdmaLoop env src dst n b)).sound
      exact (writeMemory_sound env _ _ _).trans (hread.trans ih)
    · exact ih

theorem writeHdma5_sound (env : Env σ) (val : UInt8) (b : Bus σ) : (writeHdma5 env val b).sound = b.sound := by
  unfold writeHdma5
  dsimp only
  split
  · rfl
  split
  · rfl
  · exact hdmaLoop_sound env _ _ _ b

theorem checkStatInterrupt_sound (b : Bus σ) : (checkStatInterrupt b).sound = b.sound := by
  obtain ⟨line, irq, h, -⟩ := checkStatInterrupt_eq b
  rw [h]

theorem writeLcdc_sound (val : UInt8) (b : Bus σ) : (writeLcdc val b).sound = b.sound := by
  unfold writeLcdc
  split
  · exact checkStatInterrupt_sound _
  · rfl

theorem writeSerialControl_sound (val : UInt8) (b : Bus σ) : (writeSerialControl val b).sound = b.sound := by
  unfold writeSerialControl
  dsimp only
  split <;> rfl

theorem writeIo_sound (env : Env σ) (addr : UInt16) (val : UInt8) (b : Bus σ) :
    (writeIo env addr val b).sound = if soundReg addr = true then writeSound env addr val b.sound else b.sound := by
  unfold writeIo
  split
  · rfl
  split
  case h_3 => exact writeSerialControl_sound val b
  case h_9 => exact writeLcdc_sound val b
  case h_10 => exact checkStatInterrupt_sound _
  case h_11 => exact checkStatInterrupt_sound _
  case h_12 => exact oamDma_sound env val 0xA0 b
  case h_20 => exact writeHdma5_sound env val b
  all_goals first
    | rfl
    | split <;> rfl

/-- A bus operation changes the sound registers only by a write to one of them. -/
theorem busStep_sound (env : Env σ) (o : BusOp) (b : Bus σ) :
    (busStep env o b).2.sound = b.sound ∨
      ∃ addr val, soundReg addr = true ∧ (busStep env o b).2.sound = writeSound env addr val b.sound := by
  cases o with
  | read addr => exact .inl (readByte_frame env addr b).sound
  | write addr val =>
    by_cases hlow : addr < 0xFF00
    · refine .inl ?_
      show (writeByte env addr val b).sound = b.sound
      unfold writeByte
      rw [if_pos hlow]
      exact writeMemory_sound env addr val b
    · have hio : (writeByte env addr val b).sound = (writeIo env addr val b).sound := by
        unfold writeByte
        rw [if_neg hlow]
      have hsound := writeIo_sound env addr val b
      by_cases hreg : soundReg addr = true
      · rw [if_pos hreg] at hsound
        exact .inr ⟨addr, val, hreg, hio.trans hsound⟩
      · rw [if_neg hreg] at hsound
        exact .inl (hio.trans hsound)
  | pending => exact .inl rfl
  | acknowledge mask => exact .inl rfl
  | stop => exact .inl rfl

end

/-- The registers that the bus sends to the chip are the chip's. -/
theorem soundReg_soundAddr {addr : UInt16} (h : soundReg addr = true) : SoundAddr addr := by
  unfold soundReg at h
  simp only [Bool.or_eq_true, Bool.and_eq_true, decide_eq_true_eq, UInt16.le_iff_toNat_le] at h
  unfold SoundAddr
  rw [UInt16.le_iff_toNat_le, UInt16.le_iff_toNat_le]
  simp only [UInt16.reduceToNat] at h ⊢
  omega

/-! ## Sessions -/

variable {σ : Type} {env : Env σ} {p : Platform Apu} {rom : RomSource}

/-- A chip that register accesses and calls have brought to its state. -/
def ProducedApu (chip : Apu) : Prop := ∃ ops : List ApuOp, (∀ op ∈ ops, op.InRange) ∧ runApu ops = some chip

theorem ProducedApu.ok {chip : Apu} (h : ProducedApu chip) : ApuOK chip := by
  obtain ⟨ops, hops, hrun⟩ := h
  exact (runApu_defined hops).of_some hrun

theorem ProducedApu.step {chip chip' : Apu} (h : ProducedApu chip) (op : ApuOp) (hop : op.InRange)
    (hstep : apuStep op chip = some chip') : ProducedApu chip' := by
  obtain ⟨ops, hops, hrun⟩ := h
  refine ⟨ops ++ [op], List.forall_mem_append.2 ⟨hops, List.forall_mem_singleton.2 hop⟩, ?_⟩
  unfold runApu at hrun ⊢
  obtain ⟨a, ha, hfold⟩ := Option.bind_eq_some_iff.1 hrun
  rw [ha, Option.bind_some, List.foldlM_append, hfold]
  show (apuStep op chip).bind _ = some chip'
  rw [hstep]
  rfl

/-- The chip of a bus, produced by its guest and its host. -/
def SoundOK (b : Bus Apu) : Prop := ∃ chip, b.sound.soundContext = some chip ∧ ProducedApu chip

theorem busStep_soundOK (o : BusOp) {b : Bus Apu} (h : SoundOK b) : SoundOK (busStep env.withApu o b).2 := by
  obtain ⟨chip, hchip, hprod⟩ := h
  rcases busStep_sound env.withApu o b with hsame | ⟨addr, val, hreg, hwrite⟩
  · exact ⟨chip, by rw [hsame]; exact hchip, hprod⟩
  · have haddr := soundReg_soundAddr hreg
    obtain ⟨chip', hstep, -⟩ := audioWrite_defined haddr val hprod.ok
    refine ⟨chip', ?_, hprod.step (.write addr val) haddr hstep⟩
    rw [hwrite]
    show (b.sound.soundContext.map fun chip => apuWrite chip addr val) = some chip'
    rw [hchip]
    show some (apuWrite chip addr val) = some chip'
    unfold apuWrite
    rw [hstep]
    rfl

theorem sound_frameInv : FrameInv env.withApu fun g : GBEmulator Apu => SoundOK g.bus where
  step idleBudget _ h := cpuStep_ops (fun o _ hb => busStep_soundOK o hb) idleBudget h
  timer _ _ _ h := h
  ppu _ _ _ _ h := h

/-- A session whose chip was initialised, after any accesses and instructions of its guest and any calls
of its host. -/
inductive SoundUse (env : Env σ) (p : Platform Apu) (rom : RomSource) : Session Apu → Prop
  | create {s : Session Apu} (hapu : minigbApuAudioInit {} = some p.apu)
      (hs : gbPortCreate env.withApu p rom = some s) :
      SoundUse env p rom s
  | access {s : Session Apu} (h : SoundUse env p rom s) (o : BusOp) :
      SoundUse env p rom { s with core := { s.core with bus := (busStep env.withApu o s.core.bus).2 } }
  | step {s : Session Apu} (h : SoundUse env p rom s) (idleBudget : Int) :
      SoundUse env p rom { s with core := (cpuStep env.withApu idleBudget s.core).2 }
  | setKeys {s : Session Apu} (h : SoundUse env p rom s) (keys : Keys) : SoundUse env p rom (gbPortSetKeys keys s)
  | frame {s s' : Session Apu} (h : SoundUse env p rom s) (render : Bool) {ok : Bool}
      (hs : gbPortStepFrame env.withApu render s = some (ok, s')) : SoundUse env p rom s'
  | audioFrame {s s' : Session Apu} (h : SoundUse env p rom s) (capacity : Nat) {out : List Int}
      (hs : gbPortAudioFrame capacity s = some (out, s')) : SoundUse env p rom s'
  | markSaved {s : Session Apu} (h : SoundUse env p rom s) : SoundUse env p rom (gbPortMarkSaved s)
  | importSram {s s' : Session Apu} (h : SoundUse env p rom s)
      (src : List UInt8) (hs : gbPortImportSram src s = some s') :
      SoundUse env p rom s'
  | writeSram {s s' : Session Apu} (h : SoundUse env p rom s) (offset : Nat) (src : List UInt8)
      (hs : gbPortWriteSram offset src s = some s') : SoundUse env p rom s'
  | exportRtc {s : Session Apu} (h : SoundUse env p rom s) : SoundUse env p rom (gbPortExportRtc env.withApu s).2
  | importRtc {s : Session Apu} (h : SoundUse env p rom s) (src : List UInt8) :
      SoundUse env p rom (gbPortImportRtc src s)

theorem gbPortAudioFrame_runs {s : Session Apu} {chip : Apu} (hchip : s.core.bus.sound.soundContext = some chip)
    (hprod : ProducedApu chip) {capacity : Nat} (hcap : AUDIO_SAMPLES ≤ capacity) :
    ∃ stereo chip', minigbApuAudioCallback chip = some (stereo, chip') ∧ stereo.length = AUDIO_SAMPLES ∧
      (∀ x ∈ stereo, x.IsInt16) ∧ ProducedApu chip' ∧
      gbPortAudioFrame capacity s = some (stereo.map monoSample, withSound chip' s) := by
  obtain ⟨v₀, v₁, v₂, v₃, a₀, a₁, a₂, a₃, h₀, h₁, h₂, h₃, hcall⟩ := callback_sounds hprod.ok
  have hstep : apuStep .callback chip = some a₃ := by
    show (minigbApuAudioCallback chip).map Prod.snd = some a₃
    rw [hcall]
    rfl
  refine ⟨_, a₃, hcall, ?_, map_wrap_isInt16 _, hprod.step .callback trivial hstep, ?_⟩
  · rw [List.length_map]
    exact length_zipWith_plus (length_zipWith_plus (length_zipWith_plus h₀.length h₁.length) h₂.length) h₃.length
  · unfold gbPortAudioFrame
    rw [if_neg (Nat.not_lt.2 hcap), hchip]
    simp only [Option.bind_eq_bind, Option.bind_some, hcall]
    rfl

theorem SoundUse.produced {s : Session Apu} (h : SoundUse env p rom s) : SoundOK s.core.bus := by
  -- only accesses, steps and frames reach the chip
  induction h with
  | create hapu hs =>
    obtain ⟨-, -, -, setup, g, -, -, rfl⟩ := gbPortCreate_some hs
    exact ⟨p.apu, rfl, [], fun op hop => absurd hop List.not_mem_nil, by unfold runApu; rw [hapu]; rfl⟩
  | access _ o ih => exact busStep_soundOK o ih
  | step _ idleBudget ih => exact cpuStep_ops (fun o _ hb => busStep_soundOK o hb) idleBudget ih
  | setKeys _ keys ih => exact ih
  | frame _ render hs ih =>
    unfold gbPortStepFrame at hs
    split at hs
    · obtain ⟨-, rfl⟩ := Prod.mk.inj (Option.some.inj hs)
      exact ih
    · obtain ⟨⟨g, spent⟩, hg, hr⟩ := Option.map_eq_some_iff.mp hs
      obtain ⟨-, rfl⟩ := Prod.mk.inj hr
      have hkeep := sound_frameInv.runFrame_inv (g := setRender render _) ih hg
      exact hkeep
  | audioFrame _ capacity hs ih =>
    by_cases hcap : capacity < AUDIO_SAMPLES
    · unfold gbPortAudioFrame at hs
      rw [if_pos hcap] at hs
      obtain ⟨-, rfl⟩ := Prod.mk.inj (Option.some.inj hs)
      exact ih
    · obtain ⟨chip, hchip, hprod⟩ := ih
      obtain ⟨stereo, chip', -, -, -, hprod', hrun⟩ := gbPortAudioFrame_runs hchip hprod (Nat.not_lt.1 hcap)
      obtain ⟨-, rfl⟩ := Prod.mk.inj (Option.some.inj (hs.symm.trans hrun))
      exact ⟨chip', rfl, hprod'⟩
  | markSaved _ ih => exact ih
  | importSram _ src hs ih =>
    unfold gbPortImportSram at hs
    dsimp only at hs
    split at hs
    · obtain rfl := Option.some.inj hs
      exact ih
    · cases hs
  | writeSram _ offset src hs ih =>
    unfold gbPortWriteSram at hs
    dsimp only at hs
    split at hs
    · split at hs
      · obtain rfl := Option.some.inj hs
        exact ih
      · obtain rfl := Option.some.inj hs
        exact ih
    · cases hs
  | exportRtc _ ih => exact ih
  | importRtc _ src ih => exact ih

/-- The mean of two samples is a sample. -/
theorem monoSample_eq {s : StereoSample} (h : s.IsInt16) :
    monoSample s = (s.left + s.right).tdiv 2 ∧ IsInt16 (monoSample s) := by
  refine ⟨wrapInt16_eq ?_, wrapInt16_isInt16 _⟩
  obtain ⟨⟨h₁, h₂⟩, h₃, h₄⟩ := h
  have hbound : -65536 ≤ s.left + s.right ∧ s.left + s.right ≤ 65534 := ⟨by omega, by omega⟩
  generalize s.left + s.right = x at hbound
  rcases Int.le_total 0 x with hx | hx
  · rw [Int.tdiv_eq_ediv_of_nonneg hx]
    exact ⟨by omega, by omega⟩
  · obtain ⟨y, rfl⟩ : ∃ y, x = -y := ⟨-x, by omega⟩
    rw [Int.neg_tdiv, Int.tdiv_eq_ediv_of_nonneg (by omega)]
    exact ⟨by omega, by omega⟩

/-- The chip of a session is always one that in-range accesses and calls produce; every sound register can
be read and written, and every audio frame returns its samples, the means of the chip's stereo samples. -/
theorem session_sound {s : Session Apu} (h : SoundUse env p rom s) {capacity : Nat} (hcap : AUDIO_SAMPLES ≤ capacity) :
    ∃ chip, s.core.bus.sound.soundContext = some chip ∧ ProducedApu chip ∧
      (∀ addr, soundReg addr = true → (minigbApuAudioRead addr chip).isSome = true ∧
        ∀ val, (minigbApuAudioWrite addr val chip).isSome = true) ∧
      ∃ stereo chip', minigbApuAudioCallback chip = some (stereo, chip') ∧ stereo.length = AUDIO_SAMPLES ∧
        gbPortAudioFrame capacity s = some (stereo.map fun x => (x.left + x.right).tdiv 2, withSound chip' s) := by
  obtain ⟨chip, hchip, hprod⟩ := h.produced
  obtain ⟨stereo, chip', hcall, hlen, hin, -, hrun⟩ := gbPortAudioFrame_runs hchip hprod hcap
  refine ⟨chip, hchip, hprod, fun addr hreg => ?_, stereo, chip', hcall, hlen, ?_⟩
  · have haddr := soundReg_soundAddr hreg
    exact ⟨(audioRead_defined haddr hprod.ok).isSome, fun val => (audioWrite_defined haddr val hprod.ok).isSome⟩
  · rw [hrun, List.map_congr_left fun x hx => (monoSample_eq (hin x hx)).1]

/-- A new battery session whose guest has written to the panning register. -/
theorem session_sound_battery : ∃ chip₀ s, minigbApuAudioInit {} = some chip₀ ∧
    SoundUse batteryEnv ⟨false, true, chip₀⟩ ⟨32768, true⟩ s ∧
    ∃ chip, s.core.bus.sound.soundContext = some chip ∧ ProducedApu chip ∧
      (∀ addr, soundReg addr = true → (minigbApuAudioRead addr chip).isSome = true ∧
        ∀ val, (minigbApuAudioWrite addr val chip).isSome = true) ∧
      ∃ stereo chip', minigbApuAudioCallback chip = some (stereo, chip') ∧ stereo.length = AUDIO_SAMPLES ∧
        gbPortAudioFrame AUDIO_SAMPLES s = some (stereo.map fun x => (x.left + x.right).tdiv 2, withSound chip' s) := by
  obtain ⟨chip₀, hinit, -⟩ := audioInit_defined (a := {}) ⟨by decide, by decide⟩ ⟨by decide, by decide⟩ rfl
  obtain ⟨s, hs⟩ : ∃ s, gbPortCreate batteryEnv.withApu ⟨false, true, chip₀⟩ ⟨32768, true⟩ = some s := ⟨_, rfl⟩
  have huse := (SoundUse.create (p := ⟨false, true, chip₀⟩) hinit hs).access (.write 0xFF25 0xFF)
  exact ⟨chip₀, _, hinit, huse, session_sound huse (Nat.le_refl _)⟩

end FoloGameboy

/-
The states a host and its guest can bring the emulator to: from a loaded cartridge, by guest writes,
processor steps, frames, resets and the host's own calls. Two invariants of all of them: the PPU
position, and that `runFrame` returns.
-/
import FoloGameboy.Core.Clock

namespace FoloGameboy

variable {σ : Type} {env : Env σ}

/-! ## Power on -/

/-- What a host prepares before it loads a cartridge: the mapped ROM (if any) and its size, CGB mode
with its two extra buffers, and for a streaming session the attached file, the bank 0 copy and the
number of cache slots. `heap` is whether the big buffers could be allocated, `romReads` the calls of
the read callback made before. -/
structure Setup where
  data : Option Buffer
  size : Nat
  cgb : Option (Bool × Bool) := none
  romFile : FsFile := {}
  cache : Option (Buffer × Nat) := none
  heap : Bool := true
  romReads : Nat := 0

def prepare (p : Setup) : GBEmulator σ :=
  let g : GBEmulator σ := { bus := { rom := { romFile := p.romFile, romReads := p.romReads } } }
  let g := match p.cgb with
    | some (vram1, wramExtra) => enableCgbMode vram1 wramExtra g
    | none => g
  match p.cache with
  | some (bank0, slots) => setupBankCache bank0 slots g
  | none => g

/-- `loadRom` and `init` on a new emulator. -/
def powerOn (p : Setup) : Option (GBEmulator σ) := (loadRom p.data p.size (prepare p)).bind (init p.heap)

/-! ## Reachable states -/

/-- What a guest or a host can do between two frames. -/
inductive Action (σ : Type) where
  | write (addr : UInt16) (val : UInt8)
  | step (idleBudget : Int)
  | reset
  | input (buttons : UInt8)
  | render (flag : Bool)
  | countFrame
  /-- Attach the sound chip. -/
  | sound (chip : σ)
  /-- Import, change or mark saved the cartridge RAM. -/
  | sram (data : Buffer) (dirty : Bool)
  /-- Import or export (which ticks) the cartridge clock. -/
  | clock (r : Rtc)

def act (env : Env σ) : Action σ → GBEmulator σ → GBEmulator σ
  | .write addr val, g => { g with bus := writeByte env addr val g.bus }
  | .step idleBudget, g => (cpuStep env idleBudget g).2
  | .reset, g => FoloGameboy.reset g
  | .input buttons, g => { g with bus := setInput buttons g.bus }
  | .render flag, g => { g with bus := { g.bus with renderThisFrame := flag } }
  | .countFrame, g => { g with frameCount := g.frameCount + 1 }
  | .sound chip, g => { g with bus := { g.bus with sound := { g.bus.sound with soundContext := some chip } } }
  | .sram data dirty, g =>
      { g with bus := { g.bus with mem := { g.bus.mem with sramData := data, sramDirty := dirty } } }
  | .clock r, g => { g with bus := { g.bus with rtc := r } }

inductive Reachable (env : Env σ) : GBEmulator σ → Prop where
  | boot {g : GBEmulator σ} (p : Setup) (h : powerOn p = some g) : Reachable env g
  | act {g : GBEmulator σ} (a : Action σ) (h : Reachable env g) : Reachable env (act env a g)
  | frame {g g' : GBEmulator σ} {spent : Int} (h : Reachable env g) (hr : runFrame env g = some (g', spent)) :
      Reachable env g'

/-! ## The PPU position -/

theorem powerOn_reset {p : Setup} {g : GBEmulator σ} (h : powerOn p = some g) : ∃ g₀, g = reset g₀ := by
  obtain ⟨g₁, -, h⟩ := Option.bind_eq_some_iff.mp h
  unfold init at h
  split at h
  · cases h
  · exact ⟨_, (Option.some.inj h).symm⟩

theorem reset_ppuOK (g : GBEmulator σ) : PpuOK (reset g).bus.lcd :=
  ⟨Int.le_refl 0, fun _ => (by decide : (0 : UInt8) < 154),
    fun _ => (by decide : (0 : Int) ≤ 0 ∧ (0 : Int) < 456),
    fun _ => rfl⟩

theorem frameLoop_ppuOK : ∀ (fuel : Nat) {s s' : FrameState σ}, PpuOK s.gb.bus.lcd →
    frameLoop env fuel s = some s' → PpuOK s'.gb.bus.lcd ∧ FRAME_CYCLES ≤ s'.elapsed
  | fuel, s, s', h, hs => by
    unfold frameLoop at hs
    split at hs
    · rename_i he
      cases fuel with
      | zero => cases hs
      | succ fuel =>
        obtain ⟨s₁, hs₁, hs⟩ := Option.bind_eq_some_iff.mp hs
        exact frameLoop_ppuOK fuel (frameStep_ok h he hs₁).ppu hs
    · obtain rfl := Option.some.inj hs
      exact ⟨h, by omega⟩

theorem runFrame_ppuOK {g g' : GBEmulator σ} {spent : Int} (h : PpuOK g.bus.lcd)
    (hr : runFrame env g = some (g', spent)) : PpuOK g'.bus.lcd := by
  unfold runFrame at hr
  obtain ⟨s, hs, hg⟩ := Option.map_eq_some_iff.mp hr
  obtain ⟨rfl, -⟩ := Prod.mk.inj hg
  obtain ⟨hppu, hend⟩ := frameLoop_ppuOK _ (s := { elapsed := _, spent := 0, gb := g }) h hs
  refine ⟨?_, hppu.ly, hppu.dots, hppu.mode⟩
  show 0 ≤ s.elapsed - FRAME_CYCLES
  omega

theorem act_ppuOK (a : Action σ) {g : GBEmulator σ} (h : PpuOK g.bus.lcd) :
    PpuOK (act env a g).bus.lcd := by
  cases a with
  | write addr val => exact h.tracks ((writeByte_effect env addr val g.bus).tracks (.inl (.refl _)))
  | step idleBudget => exact h.tracks (cpuStep_tracks idleBudget (.inl (.refl _)))
  | reset => exact reset_ppuOK g
  | input buttons => exact h
  | render flag => exact h
  | countFrame => exact h
  | sound chip => exact h
  | sram data dirty => exact h
  | clock r => exact h

theorem Reachable.ppuOK {g : GBEmulator σ} (h : Reachable env g) : PpuOK g.bus.lcd := by
  induction h with
  | boot p h =>
    obtain ⟨g₀, rfl⟩ := powerOn_reset h
    exact reset_ppuOK g₀
  | act a _ ih => exact act_ppuOK a ih
  | frame _ hr ih => exact runFrame_ppuOK ih hr

/-! ## Termination -/

variable (env) in
theorem runFrame_isSome {g : GBEmulator σ} (h : PpuOK g.bus.lcd) : (runFrame env g).isSome := by
  have hover := h.overshoot
  unfold runFrame
  rw [Option.isSome_map]
  refine frameLoop_isSome _ _ h ?_
  show (FRAME_CYCLES - g.bus.lcd.frameOvershoot).toNat ≤ FRAME_CYCLES.toNat
  omega

/-- Every call of `runFrame` returns, whatever the ROM, the guest and the speed: the illegal opcodes
without a cost cannot follow each other forever, and no LCD or speed switch stops the frame clock. -/
theorem runFrame_returns (env : Env σ) (g : GBEmulator σ) (h : Reachable env g) :
    ∃ g' spent, runFrame env g = some (g', spent) := by
  obtain ⟨r, hr⟩ := Option.isSome_iff_exists.mp (runFrame_isSome env h.ppuOK)
  exact ⟨r.1, r.2, hr⟩

/-- An environment without failures, cheats or patches, and a 32 KB cartridge of zeros in it. -/
def blankEnv : Env Unit where
  rom _ := 0
  romReadFails _ := none
  millis _ := 0
  cheats := []
  soundWrite s _ _ := s
  soundRead _ _ := 0xFF
  patchBank _ bytes := bytes
  applyToBank _ _ bytes := bytes

def blankSetup : Setup := { data := some (.fill 0x8000 0), size := 0x8000 }

theorem runFrame_returns_blank :
    ∃ g, powerOn blankSetup = some g ∧ ∃ g' spent, runFrame blankEnv g = some (g', spent) :=
  ⟨_, rfl, runFrame_returns blankEnv _ (.boot blankSetup rfl)⟩

end FoloGameboy

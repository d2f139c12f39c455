/-
`gb_port`: a session is created from a ROM source, mapped or streamed through the one-slot bank
cache, and then driven by key inputs and frames.
-/
import FoloGameboy.Core.Parts

namespace FoloGameboy

variable {σ : Type}

/-! ## Creation -/

/-- `gb_rom_source_t`: the bytes and the read callback are the environment's. -/
structure RomSource where
  size : Nat
  mapped : Bool

/-- What the build and the heap decide: `GB_ENABLE_CGB`, whether every allocation succeeds, and a
freshly initialised sound chip. -/
structure Platform (σ : Type) where
  enableCgb : Bool
  heap : Bool
  apu : σ

/-- `gb_session`; its ROM buffers, cache map and sound chip are part of the core. -/
structure Session (σ : Type) where
  core : GBEmulator σ
  battery : Bool
  rtc : Bool

def supportedCart (type : UInt8) : Bool :=
  [0x00, 0x01, 0x02, 0x03, 0x05, 0x06, 0x0F, 0x10, 0x11, 0x12, 0x13, 0x19, 0x1A, 0x1B, 0x1C, 0x1D, 0x1E].contains type

def declaredRomSize (code : UInt8) : Nat :=
  if code ≤ 7 then 32768 <<< code.toNat
  else
    match code.toNat with
    | 0x52 => 72 * 16384
    | 0x53 => 80 * 16384
    | 0x54 => 96 * 16384
    | _ => 0

def batteryCart (type : UInt8) : Bool := [0x03, 0x06, 0x0F, 0x10, 0x13, 0x1B, 0x1E].contains type

def rtcCart (type : UInt8) : Bool := type == 0x0F || type == 0x10

/-- The `n`-th call of the read callback; `none` when it returns false. -/
def readRom (env : Env σ) (n offset : Nat) : Option (Nat → UInt8) :=
  match env.romReadFails n with
  | some _ => none
  | none => some fun i => env.rom (offset + i)

def attachRom (length : Nat) : FsFile := { attached := length ≠ 0, length := length, position := 0 }

/-- The session's emulator before the sound chip is attached. -/
def sessionSetup (env : Env σ) (p : Platform σ) (rom : RomSource) (header : Nat → UInt8) : Option Setup :=
  let cgb := if p.enableCgb ∧ hasBits (header 0x143) 0x80 then some (true, true) else none
  if rom.mapped then
    some { data := some ⟨rom.size, env.rom⟩, size := rom.size, cgb := cgb, heap := p.heap, romReads := 1 }
  else
    (readRom env 1 0).map fun bytes =>
      { data := none, size := rom.size, cgb := cgb, romFile := attachRom rom.size
        cache := some (⟨ROM_BANK_SIZE, bytes⟩, 1), heap := p.heap, romReads := 2 }

def gbPortCreate (env : Env σ) (p : Platform σ) (rom : RomSource) : Option (Session σ) :=
  if rom.size < 32768 ∨ 4194304 < rom.size ∨ rom.size % 16384 ≠ 0 then none
  else
    match readRom env 0 0 with
    | none => none
    | some header =>
      if header 0x143 = 0xC0 ∨ ¬ supportedCart (header 0x147) ∨
        declaredRomSize (header 0x148) ≠ rom.size ∨ ¬ p.heap then none
      else
        ((sessionSetup env p rom header).bind powerOn).map fun g =>
          { core := act env (.sound p.apu) g
            battery := batteryCart (header 0x147)
            rtc := rtcCart (header 0x147) }

/-! ## Input and frames -/

structure Keys where
  right : Bool := false
  left : Bool := false
  up : Bool := false
  down : Bool := false
  a : Bool := false
  b : Bool := false
  select : Bool := false
  start : Bool := false

def Keys.mask (k : Keys) : UInt8 :=
  let bit (pressed : Bool) (m : UInt8) : UInt8 := if pressed then m else 0
  bit k.right 0x01 ||| bit k.left 0x02 ||| bit k.up 0x04 ||| bit k.down 0x08 ||| bit k.a 0x10 ||| bit k.b 0x20 |||
    bit k.start 0x40 ||| bit k.select 0x80

def gbPortSetKeys (keys : Keys) (s : Session σ) : Session σ :=
  { s with core := { s.core with bus := setInput keys.mask s.core.bus } }

def setRender (render : Bool) (g : GBEmulator σ) : GBEmulator σ :=
  { g with bus := { g.bus with renderThisFrame := render } }

/-- `gb_port_step_frame`, with what it returns; `none` would be a frame that never ends. -/
def gbPortStepFrame (env : Env σ) (render : Bool) (s : Session σ) : Option (Bool × Session σ) :=
  if s.core.bus.rom.romIoFailed then some (false, s)
  else
    (runFrame env (setRender render s.core)).map fun r =>
      (!r.1.bus.rom.romIoFailed, { s with core := { r.1 with frameCount := r.1.frameCount + 1 } })

def setAllKeys (keys : List Keys) (s : Session σ) : Session σ := keys.foldl (fun s k => gbPortSetKeys k s) s

/-- Any number of `gb_port_set_keys` calls, then one frame. -/
def playFrame (env : Env σ) (keys : List Keys) (render : Bool) (s : Session σ) : Option (Bool × Session σ) :=
  gbPortStepFrame env render (setAllKeys keys s)

/-- A sequence of frames, with what each call returned. -/
def play (env : Env σ) : List (List Keys × Bool) → Session σ → Option (List Bool × Session σ)
  | [], s => some ([], s)
  | (keys, render) :: rest, s =>
    (playFrame env keys render s).bind fun r => (play env rest r.2).map fun q => (r.1 :: q.1, q.2)

/-! ## Sessions are reachable -/

section
variable {env : Env σ}

theorem gbPortCreate_reachable {p : Platform σ} {rom : RomSource} {s : Session σ}
    (h : gbPortCreate env p rom = some s) :
    Reachable env s.core := by
  unfold gbPortCreate at h
  split at h
  · cases h
  split at h
  · cases h
  split at h
  · cases h
  obtain ⟨g, hg, rfl⟩ := Option.map_eq_some_iff.mp h
  obtain ⟨setup, -, hon⟩ := Option.bind_eq_some_iff.mp hg
  exact Reachable.act (.sound p.apu) (.boot setup hon)

theorem setKeys_reachable (keys : List Keys) {s : Session σ} (h : Reachable env s.core) :
    Reachable env (setAllKeys keys s).core := by
  induction keys generalizing s with
  | nil => exact h
  | cons k keys ih => exact ih (.act (.input k.mask) h)

theorem gbPortStepFrame_reachable {render ok : Bool} {s s' : Session σ} (h : Reachable env s.core)
    (hs : gbPortStepFrame env render s = some (ok, s')) : Reachable env s'.core := by
  unfold gbPortStepFrame at hs
  split at hs
  · obtain ⟨-, rfl⟩ := Prod.mk.inj (Option.some.inj hs)
    exact h
  · obtain ⟨⟨g, spent⟩, hg, hr⟩ := Option.map_eq_some_iff.mp hs
    obtain ⟨-, rfl⟩ := Prod.mk.inj hr
    exact .act .countFrame (.frame (.act (.render render) h) hg)

variable (env) in
/-- A frame of a reachable session returns. -/
theorem playFrame_isSome (keys : List Keys) (render : Bool) {s : Session σ} (h : Reachable env s.core) :
    ∃ r, playFrame env keys render s = some r ∧ Reachable env r.2.core := by
  have hkeys := setKeys_reachable keys h
  have hsome : (playFrame env keys render s).isSome := by
    unfold playFrame gbPortStepFrame
    split
    · rfl
    · rw [Option.isSome_map]
      exact runFrame_isSome env (Reachable.act (.render render) hkeys).ppuOK
  obtain ⟨⟨ok, s'⟩, hr⟩ := Option.isSome_iff_exists.mp hsome
  exact ⟨_, hr, gbPortStepFrame_reachable hkeys hr⟩

end

/-! ## Sessions in lockstep -/

namespace Parts.Kept

variable {env : Env σ} {P : Parts σ} {fails : Nat → Option (Nat → UInt8)} (K : P.Kept env fails)

include K

theorem setInput_pair (buttons : UInt8) {b₁ b₂ : Bus σ} (h : P.Related b₁ b₂) :
    P.Related (setInput buttons b₁) (setInput buttons b₂) :=
  h.keep rfl (by rw [h.eq]; rfl)
    (K.inv _ _ h.inv (.quiet ⟨rfl, .refl _, rfl, rfl, .refl _, rfl, rfl, fun _ => rfl⟩))

theorem setKeys_pair (keys : List Keys) {s₁ s₂ : Session σ} (h : Paired P.Related s₁.core s₂.core) :
    Paired P.Related (setAllKeys keys s₁).core (setAllKeys keys s₂).core := by
  induction keys generalizing s₁ s₂ with
  | nil => exact h
  | cons k keys ih => exact ih ⟨h.cpu, h.frameCount, K.setInput_pair k.mask h.bus⟩

/-- Both sessions at the start of a frame. -/
theorem startFrame_pair (keys : List Keys) (render₁ render₂ : Bool)
    (hout : ∀ s₁ s₂ k₁ k₂, P.Output (s₁, k₁) (s₂, k₂) →
      P.Output (s₁, render₁) (s₂, render₂)) (hswitch :
        ∀ b k, P.Inv b → P.Inv { b with renderThisFrame := k })
    {s₁ s₂ : Session σ} (h : Paired P.Related s₁.core s₂.core) :
    Paired P.Related (setRender render₁ (setAllKeys keys s₁).core)
      (setRender render₂ (setAllKeys keys s₂).core) := by
  have hk := K.setKeys_pair keys h
  refine ⟨hk.cpu, hk.frameCount, ?_, hk.bus.rom, hout _ _ _ _ hk.bus.output, hswitch _ _ hk.bus.inv⟩
  show { (setAllKeys keys s₂).core.bus with renderThisFrame := render₂ } = _
  rw [hk.bus.eq]; rfl

/-- A frame keeps two sessions in lockstep when the flags may differ as they do. -/
theorem playFrame_pair (keys : List Keys) {render₁ render₂ : Bool}
    (hout : ∀ s₁ s₂ k₁ k₂, P.Output (s₁, k₁) (s₂, k₂) →
      P.Output (s₁, render₁) (s₂, render₂)) (hswitch :
        ∀ b k, P.Inv b → P.Inv { b with renderThisFrame := k })
    (hio : ∀ r₁ r₂, P.Rom r₁ r₂ → r₂.romIoFailed = r₁.romIoFailed) {s₁ s₂ : Session σ} (hreach :
    Reachable env s₁.core)
    (h : Paired P.Related s₁.core s₂.core) {r₁ r₂ : Bool × Session σ} (h₁ :
    playFrame env keys render₁ s₁ = some r₁)
    (h₂ : playFrame (env.failing fails) keys render₂ s₂ = some r₂) :
    (r₁.1 = r₂.1 ∧ Paired P.Related r₁.2.core r₂.2.core) ∨ P.Bad r₂.2.core.bus.rom := by
  have hk := K.setKeys_pair keys h
  have hstart := K.startFrame_pair keys render₁ render₂ hout hswitch h
  have hfail := hio _ _ hk.bus.rom
  unfold playFrame gbPortStepFrame at h₁ h₂
  rw [hfail] at h₂
  split at h₁
  · rename_i hf
    rw [if_pos hf] at h₂
    obtain rfl := Option.some.inj h₁
    obtain rfl := Option.some.inj h₂
    exact .inl ⟨rfl, hk⟩
  · rename_i hf
    rw [if_neg hf] at h₂
    obtain ⟨⟨g₁, c₁⟩, hg₁, rfl⟩ := Option.map_eq_some_iff.mp h₁
    obtain ⟨⟨g₂, c₂⟩, hg₂, rfl⟩ := Option.map_eq_some_iff.mp h₂
    have hppu := (Reachable.act (.render render₁) (setKeys_reachable keys hreach)).ppuOK
    rcases K.lockstep.runFrame_pair hstart hppu hg₁ hg₂ with ⟨hp, -⟩ | hbad
    · have hfail' := hio _ _ hp.bus.rom
      refine .inl ⟨?_, hp.cpu, ?_, hp.bus⟩
      · show (!g₁.bus.rom.romIoFailed) = !g₂.bus.rom.romIoFailed
        rw [hfail']
      · show g₂.frameCount + 1 = g₁.frameCount + 1
        rw [hp.frameCount]
    · exact .inr hbad

end Parts.Kept

end FoloGameboy

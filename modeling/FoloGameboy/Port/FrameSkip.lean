/-
Frame skipping is invisible to the game: two runs of a session that differ only in the render flags
agree at every point on everything but the contents of the framebuffers and the flag itself, and a
line that both of them draw at the same point has the same pixels in both.
-/
import FoloGameboy.Port.Session

namespace FoloGameboy

variable {σ : Type} {env : Env σ}

/-! ## Equal up to the screen -/

/-- The same framebuffers are allocated, with the same sizes. -/
structure Screen.SameShape (s s' : Screen) : Prop where
  framebuf : s'.framebuf.map Buffer.size = s.framebuf.map Buffer.size
  colorFramebuf : s'.colorFramebuf.map Buffer.size = s.colorFramebuf.map Buffer.size

/-- Equal up to the contents of the framebuffers and the render flag. -/
structure SameGame (g₁ g₂ : GBEmulator σ) : Prop where
  eq : g₂ = { g₁ with bus := { g₁.bus with screen := g₂.bus.screen, renderThisFrame := g₂.bus.renderThisFrame } }
  shape : g₁.bus.screen.SameShape g₂.bus.screen

/-- The two screens hold the same pixels in a line. -/
def Screen.SameRow (line : Nat) (s s' : Screen) : Prop :=
  (∀ i < GB_FB_STRIDE, Buffer.byteOf s'.framebuf (line * GB_FB_STRIDE + i)
    = Buffer.byteOf s.framebuf (line * GB_FB_STRIDE + i)) ∧
    ∀ x < GB_W, Buffer.byteOf s'.colorFramebuf (line * GB_W + x) = Buffer.byteOf s.colorFramebuf (line * GB_W + x)

theorem byteOf_blit {f f' : Option Buffer} (h : f'.map Buffer.size = f.map Buffer.size)
    (off n : Nat) (bytes : Nat → UInt8)
    {i : Nat} (hi : i < n) : Buffer.byteOf (f'.map fun f => f.blit off n bytes) (off + i) =
      Buffer.byteOf (f.map fun f => f.blit off n bytes) (off + i) := by
  cases f with
  | none => rw [Option.map_eq_none_iff.mp (h.trans rfl)]
  | some f =>
    cases f' with
    | none => cases h
    | some f' =>
      have hsize : f'.size = f.size := Option.some.inj h
      have hin : off ≤ off + i ∧ off + i < off + n := ⟨Nat.le_add_right .., Nat.add_lt_add_left hi off⟩
      unfold Buffer.byteOf Buffer.get Buffer.blit
      simp only [Option.map_some, Option.getD_some, hsize, if_pos hin]

theorem storeLine_row {s s' : Screen} (h : s.SameShape s') (line : Nat) (lb : LineBuf) :
    Screen.SameRow line (storeLine s line lb) (storeLine s' line lb) :=
  ⟨fun _ hi => byteOf_blit h.framebuf _ _ _ hi, fun _ hx => byteOf_blit h.colorFramebuf _ _ _ hx⟩

theorem storeLine_shape (s : Screen) (line : Nat) (lb : LineBuf) : s.SameShape (storeLine s line lb) := by
  unfold storeLine
  constructor
  · dsimp only
    cases s.framebuf <;> rfl
  · dsimp only
    cases s.colorFramebuf <;> rfl

namespace Screen.SameShape

theorem refl (s : Screen) : s.SameShape s := ⟨rfl, rfl⟩

theorem symm {s s' : Screen} (h : s.SameShape s') :
    s'.SameShape s := ⟨h.framebuf.symm, h.colorFramebuf.symm⟩

theorem trans {s₁ s₂ s₃ : Screen} (h : s₁.SameShape s₂) (h' : s₂.SameShape s₃) : s₁.SameShape s₃ :=
  ⟨h'.framebuf.trans h.framebuf, h'.colorFramebuf.trans h.colorFramebuf⟩

theorem draw (s : Screen) (render : Bool) (l : Option (Nat × LineBuf)) : s.SameShape (s.draw render l) := by
  cases l with
  | none => exact .refl s
  | some l =>
    unfold Screen.draw
    dsimp only
    split
    · exact storeLine_shape s l.1 l.2
    · exact .refl s

theorem blankScreen {s s' : Screen} (h : s.SameShape s') :
    (blankScreen s).SameShape (FoloGameboy.blankScreen s') := by
  obtain ⟨hf, hc⟩ := h
  obtain ⟨f, c⟩ := s
  obtain ⟨f', c'⟩ := s'
  constructor
  · cases f <;> cases f' <;> first | rfl | cases hf
  · cases c <;> cases c' <;> first | rfl | cases hc

end Screen.SameShape

/-! ## The relation is kept -/

theorem readByteSlow_screen (s : Screen) (render : Bool) {addr : UInt16} (h : addr < 0x8000) (b : Bus σ) :
    readByteSlow env addr (b.swap b.rom s render) = ((readByteSlow env addr b).1,
      (readByteSlow env addr b).2.swap (readByteSlow env addr b).2.rom s render) := by
  unfold readByteSlow
  split
  · unfold readRomLow Bus.swap
    dsimp only
    repeat' split
    all_goals rfl
  · unfold readRomHigh Bus.swap
    dsimp only
    repeat' split
    all_goals rfl

variable (env) in
/-- A read of the ROM does not depend on the screen. -/
theorem readByte_screen (s : Screen) (render : Bool) {addr : UInt16} (h : addr < 0x8000) (b : Bus σ) :
    readByte env addr (b.swap b.rom s render) = ((readByte env addr b).1,
      (readByte env addr b).2.swap (readByte env addr b).2.rom s render) := by
  have hbank : mappedRomBank (b.swap b.rom s render).rom addr = mappedRomBank b.rom addr := rfl
  unfold readByte
  rw [if_pos h, if_pos h, hbank]
  cases mappedRomBank b.rom addr with
  | some base => rfl
  | none => exact readByteSlow_screen s render h b

/-- Two runs whose screens may differ. -/
def screenParts : Parts σ where
  Rom r₁ r₂ := r₂ = r₁
  Output p₁ p₂ := p₁.1.SameShape p₂.1
  Inv _ := True
  Bad _ := False

theorem screenParts_kept (env : Env σ) : screenParts.Kept env env.romReadFails where
  read addr b₁ b₂ haddr h := by
    have hrom : b₂.rom = b₁.rom := h.rom
    have hb : b₂ = b₁.swap b₁.rom b₂.screen b₂.renderThisFrame := h.eq.trans (by rw [hrom])
    have hread :=
      (congrArg (readByte env addr) hb).trans (readByte_screen env b₂.screen b₂.renderThisFrame
        haddr b₁)
    refine .inl ?_
    show (readByte env addr b₁).1 = (readByte env addr b₂).1 ∧ (readByte env addr b₂).2.rom =
      (readByte env addr b₁).2.rom
    rw [hread]
    exact ⟨rfl, rfl⟩
  readBad _ _ h := h
  refresh _ _ _ h := by rw [show _ = _ from h]; rfl
  refreshBad _ _ h := h
  blank _ _ _ _ h := h.blankScreen
  draw s₁ s₂ k₁ k₂ l h := ((Screen.SameShape.draw s₁ k₁ l).symm.trans h).trans (.draw s₂ k₂ l)
  inv _ _ _ _ := trivial
  invFrame _ _ _ _ _ _ := trivial

theorem screenParts_lockstep (env : Env σ) : Lockstep env env screenParts.Related fun _ => False :=
  (screenParts_kept env).lockstep

theorem SameGame.ofPaired {g₁ g₂ : GBEmulator σ} (h : Paired screenParts.Related g₁ g₂) :
    SameGame g₁ g₂ := by
  have hrom : g₂.bus.rom = g₁.bus.rom := h.bus.rom
  have hbus : g₂.bus = g₁.bus.swap g₁.bus.rom g₂.bus.screen g₂.bus.renderThisFrame :=
    h.bus.eq.trans (by rw [hrom])
  refine ⟨?_, h.bus.output⟩
  show g₂ = { g₁ with bus := g₁.bus.swap g₁.bus.rom g₂.bus.screen g₂.bus.renderThisFrame }
  rw [← hbus, ← h.cpu, ← h.frameCount]

/-! ## Lines drawn -/

/-- The line an iteration of the outer loop draws after its chunk, if any. -/
def lineDrawn (s : FrameState σ) (r : Int × GBEmulator σ) : Option Nat :=
  if ¬ hasBits s.gb.bus.lcd.lcdc 0x80 ∨ r.2.bus.lcd.lcdChanged then none
  else
    let b := beforeHBlank (r.1 / speedOf s.gb.bus.cgb) r.2.bus
    if b.lcd.ly < 144 ∧ b.lcd.ppuMode = 3 ∧ 252 ≤ b.lcd.ppuDots ∧ b.renderThisFrame ∧ ¬ b.lcd.lcdFirstFrame then
      some b.lcd.ly.toNat
    else none

/-- The iteration of the outer loop from `s` to `s'` draws a line. -/
def DrawsLine (env : Env σ) (s : FrameState σ) (line : Nat) (s' : FrameState σ) : Prop :=
  ∃ r, runChunk env s = some r ∧ endChunk s r = s' ∧ lineDrawn s r = some line

/-- A drawn line is the line the PPU update finishes, stored into the screen. -/
theorem lineDrawn_screen {s : FrameState σ} {r : Int × GBEmulator σ} {line : Nat} (hon : LcdOn r.2.bus.lcd)
    (h : lineDrawn s r = some line) :
    ∃ lb, finishedLine (beforeHBlank (r.1 / speedOf s.gb.bus.cgb) r.2.bus) = some (line, lb) ∧
      (endChunk s r).gb.bus.screen = storeLine r.2.bus.screen line lb := by
  unfold lineDrawn at h
  split at h
  · cases h
  · rename_i hrun
    dsimp only at h
    split at h
    · rename_i hdone
      obtain rfl := Option.some.inj h
      obtain ⟨hly, hmode, hdots, hrender, hfirst⟩ := hdone
      have hfin : finishedLine (beforeHBlank (r.1 / speedOf s.gb.bus.cgb) r.2.bus) = some (_, _) :=
        if_pos ⟨hly, hmode, hdots, hfirst⟩
      have hbus : (endChunk s r).gb.bus = ppuAdvance (r.1 / speedOf s.gb.bus.cgb) r.2.bus := if_neg hrun
      have hflag : r.2.bus.renderThisFrame = true := by
        rw [← hrender]
        unfold beforeHBlank
        rw [(enterTransfer_frame _).eq]
      refine ⟨_, hfin, ?_⟩
      rw [hbus, ppuAdvance_screen _ hon, hfin, hflag]
      rfl
    · cases h

theorem lineDrawn_on {s : FrameState σ} {r : Int × GBEmulator σ} {line : Nat} (hppu : PpuOK s.gb.bus.lcd)
    (he : s.elapsed < FRAME_CYCLES) (hr : runChunk env s = some r) (h : lineDrawn s r = some line) :
    LcdOn r.2.bus.lcd := by
  unfold lineDrawn at h
  split at h
  · cases h
  · rename_i hrun
    rw [not_or, not_not] at hrun
    exact (endChunk_running hppu he hr hrun.1 (eq_false_of_ne_true hrun.2)).1.enabled.trans hrun.1

/-- Both iterations from the same point draw the same line with the same pixels. -/
theorem drawsLine_sameRow {s₁ s₂ s₁' s₂' : FrameState σ} {line₁ line₂ : Nat}
    (h : PairedFrame screenParts.Related s₁ s₂)
    (hppu : PpuOK s₁.gb.bus.lcd) (he : s₁.elapsed < FRAME_CYCLES) (h₁ : DrawsLine env s₁ line₁ s₁')
    (h₂ : DrawsLine env s₂ line₂ s₂') :
    line₁ = line₂ ∧ Screen.SameRow line₁ s₁'.gb.bus.screen s₂'.gb.bus.screen := by
  obtain ⟨r₁, hr₁, rfl, hl₁⟩ := h₁
  obtain ⟨r₂, hr₂, rfl, hl₂⟩ := h₂
  rcases (screenParts_lockstep env).runChunk_pair h hr₁ hr₂ with ⟨hcost, hp⟩ | hbad
  · have hon₁ := lineDrawn_on hppu he hr₁ hl₁
    have hlcd : r₂.2.bus.lcd = r₁.2.bus.lcd := by rw [hp.bus.eq]; rfl
    have hcgb : s₂.gb.bus.cgb = s₁.gb.bus.cgb := by rw [h.gb.bus.eq]; rfl
    obtain ⟨lb₁, hf₁, hs₁⟩ := lineDrawn_screen hon₁ hl₁
    obtain ⟨lb₂, hf₂, hs₂⟩ := lineDrawn_screen (by rw [hlcd]; exact hon₁) hl₂
    have hsame : finishedLine (beforeHBlank (r₁.1 / speedOf s₁.gb.bus.cgb) r₁.2.bus) =
        finishedLine (beforeHBlank (r₂.1 / speedOf s₂.gb.bus.cgb) r₂.2.bus) := by
      rw [← hcost, hcgb, hp.bus.eq, beforeHBlank_swap, finishedLine_swap]
    obtain ⟨rfl, rfl⟩ := Prod.mk.inj (Option.some.inj (hf₁.symm.trans (hsame.trans hf₂)))
    refine ⟨rfl, ?_⟩
    rw [hs₁, hs₂]
    exact storeLine_row hp.bus.output _ _
  · exact hbad.elim

/-! ## Whole sessions -/

/-- The state in which the next frame enters its outer loop. -/
def frameBegin (keys : List Keys) (render : Bool) (s : Session σ) : FrameState σ :=
  frameStart (setRender render (setAllKeys keys s).core)

theorem play_sameGame : ∀ (frames : List (List Keys × Bool × Bool)) {s₁ s₂ : Session σ},
    Reachable env s₁.core → Reachable env s₂.core → Paired screenParts.Related s₁.core s₂.core →
    ∃ oks s₁' s₂', play env (frames.map fun f => (f.1, f.2.1)) s₁ = some (oks, s₁') ∧
      play env (frames.map fun f => (f.1, f.2.2)) s₂ = some (oks, s₂') ∧ Reachable env s₁'.core ∧
      Paired screenParts.Related s₁'.core s₂'.core
  | [], s₁, s₂, hr₁, _, h => ⟨[], s₁, s₂, rfl, rfl, hr₁, h⟩
  | (keys, render₁, render₂) :: frames, s₁, s₂, hr₁, hr₂, h => by
    obtain ⟨q₁, hq₁, hr₁'⟩ := playFrame_isSome env keys render₁ hr₁
    obtain ⟨q₂, hq₂, hr₂'⟩ := playFrame_isSome env keys render₂ hr₂
    have hpair := (screenParts_kept env).playFrame_pair keys (fun _ _ _ _ h => h) (fun _ _ h => h)
      (fun _ _ hrom => congrArg RomAccess.romIoFailed hrom) hr₁ h hq₁ hq₂
    rcases hpair with ⟨hok, hp⟩ | hbad
    · obtain ⟨oks, s₁', s₂', h₁, h₂, hreach, hlast⟩ := play_sameGame frames hr₁' hr₂' hp
      refine ⟨q₁.1 :: oks, s₁', s₂', ?_, ?_, hreach, hlast⟩
      · show (playFrame env keys render₁ s₁).bind _ = _
        rw [hq₁, Option.bind_some, h₁]; rfl
      · show (playFrame env keys render₂ s₂).bind _ = _
        rw [hq₂, Option.bind_some, h₂, hok]; rfl
    · exact hbad.elim

/-- Frame skipping is invisible: whatever the keys and the two schedules of the render flag, the
calls return the same, after every frame and at every head of the outer loop of the next one both
runs are the same game, and a line both draw at the same point has the same pixels. -/
theorem frame_skip_invisible (env : Env σ) (s : Session σ) (h : Reachable env s.core)
    (frames : List (List Keys × Bool × Bool)) :
    ∃ oks s₁ s₂, play env (frames.map fun f => (f.1, f.2.1)) s = some (oks, s₁) ∧
      play env (frames.map fun f => (f.1, f.2.2)) s = some (oks, s₂) ∧ SameGame s₁.core s₂.core ∧
      ∀ keys render₁ render₂ k t₁ t₂, headAt env k (frameBegin keys render₁ s₁) = some t₁ →
        headAt env k (frameBegin keys render₂ s₂) = some t₂ → SameGame t₁.gb t₂.gb ∧
        ∀ line₁ line₂ u₁ u₂, t₁.elapsed < FRAME_CYCLES → DrawsLine env t₁ line₁ u₁ → DrawsLine env t₂ line₂ u₂ →
          line₁ = line₂ ∧ Screen.SameRow line₁ u₁.gb.bus.screen u₂.gb.bus.screen := by
  have hstart : Paired screenParts.Related s.core s.core := ⟨rfl, rfl, rfl, rfl, .refl _, trivial⟩
  obtain ⟨oks, s₁, s₂, h₁, h₂, hreach, hp⟩ := play_sameGame frames h h hstart
  refine ⟨oks, s₁, s₂, h₁, h₂, .ofPaired hp, ?_⟩
  intro keys render₁ render₂ k t₁ t₂ ht₁ ht₂
  have L := screenParts_lockstep env
  have hbegin := (screenParts_kept env).startFrame_pair keys render₁ render₂ (fun _ _ _ _ h => h)
    (fun _ _ h => h) hp
  have hppu := (Reachable.act (.render render₁) (setKeys_reachable keys hreach)).ppuOK
  rcases L.headAt_pair k (L.frameStart_pair hbegin) hppu ht₁ ht₂ with ht | hbad
  · refine ⟨.ofPaired ht.gb, ?_⟩
    intro line₁ line₂ u₁ u₂ he hu₁ hu₂
    exact drawsLine_sameRow ht (headAt_ppuOK k hppu ht₁) he hu₁ hu₂
  · exact hbad.elim

theorem frame_skip_invisible_blank : ∃ g, powerOn blankSetup = some g ∧ ∃ oks s₁ s₂,
    play blankEnv [([{ start := true }], true), ([], true)] ⟨g, false, false⟩ = some (oks, s₁) ∧
    play blankEnv [([{ start := true }], true), ([], false)] ⟨g, false, false⟩ = some (oks, s₂) ∧
    SameGame s₁.core s₂.core := by
  refine ⟨_, rfl, ?_⟩
  obtain ⟨oks, s₁, s₂, h₁, h₂, hsame, -⟩ := frame_skip_invisible blankEnv ⟨_, false,
    false⟩ (.boot blankSetup rfl) [([{ start := true }], true, true), ([], true, false)]
  exact ⟨oks, s₁, s₂, h₁, h₂, hsame⟩

end FoloGameboy

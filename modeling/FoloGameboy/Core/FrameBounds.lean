/-
Whole frames with every access checked. The window's row counter advances at most once a visible line
and is cleared with the line number, so it stays within the lines of a frame; with that and the buffer
sizes as invariants of every step, no instruction and no scanline of a frame faults.
-/
import FoloGameboy.Core.LineBounds

namespace FoloGameboy

open Effect

variable {σ : Type} {env : Env σ}

/-! ## Steps and frames -/

/-- The other bus operations touch only registers. -/
def busStepChecked (env : Env σ) : (o : BusOp) → Bus σ → Option (o.Res × Bus σ)
  | .read addr, b => readByteChecked env addr b
  | .write addr val, b => (writeByteChecked env addr val b).map fun b => ((), b)
  | .pending, b => some (busStep env .pending b)
  | .acknowledge mask, b => some (busStep env (.acknowledge mask) b)
  | .stop, b => some (busStep env .stop b)

def runCpuChecked {α : Type} (env : Env σ) (m : CpuM α) (g : GBEmulator σ) : Option (α × GBEmulator σ) :=
  ((m.run g.cpu).tryRun (busStepChecked env) g.bus).map fun r => (r.1.1,
    { g with cpu := r.1.2, bus := r.2 })

def cpuStepChecked (env : Env σ) (idleBudget : Int) (g : GBEmulator σ) : Option (Int × GBEmulator σ) :=
  let pending := pendingIrqs g.bus.irq
  if pending ≠ 0 ∧ g.cpu.ime then
    (runCpuChecked env (dispatch pending) { g with cpu := { g.cpu with halted := false } }).map
      fun r => (20, r.2)
  else
    let g := if pending ≠ 0 then { g with cpu := { g.cpu with halted := false } } else g
    if g.cpu.halted then some (haltSkip idleBudget g.bus.timer g.bus.irq, g)
    else runCpuChecked env instruction g

def chunkLoopChecked (env : Env σ) (budget : Int) : Nat → Int → GBEmulator σ → Option (Int × GBEmulator σ)
  | fuel, cycles, g =>
    if cycles < budget ∧ ¬ g.bus.lcd.lcdChanged then
      match fuel with
      | 0 => none
      | fuel + 1 => do
        let (c, g) ← cpuStepChecked env (budget - cycles) g
        chunkLoopChecked env budget fuel (cycles + c) { g with bus := updateTimer c g.bus }
    else some (cycles, g)

def finishLineChecked (b : Bus σ) : Option (Bus σ) :=
  if b.renderThisFrame ∧ ¬ b.lcd.lcdFirstFrame then renderLineChecked b b.lcd.ly.toNat
  else if windowVisible b b.lcd.ly.toNat then
    some { b with lcd := { b.lcd with windowLine := b.lcd.windowLine + 1 } }
  else some b

def enterHBlankChecked (b : Bus σ) : Option (Bus σ) := do
  if b.lcd.ly < 144 ∧ b.lcd.ppuMode = 3 ∧ 252 ≤ b.lcd.ppuDots then
    let b ← finishLineChecked b
    return checkStatInterrupt { b with lcd := { b.lcd with ppuMode := 0 } }
  else return b

def ppuAdvanceChecked (dots : Int) (b : Bus σ) : Option (Bus σ) := do
  let b := enterTransfer { b with lcd := { b.lcd with ppuDots := b.lcd.ppuDots + dots } }
  let b ← enterHBlankChecked b
  return enterNextLine b

def endChunkChecked (s : FrameState σ) (r : Int × GBEmulator σ) : Option (FrameState σ) := do
  let dots := r.1 / speedOf s.gb.bus.cgb
  let bus ← (if ¬ hasBits s.gb.bus.lcd.lcdc 0x80 ∨ r.2.bus.lcd.lcdChanged then some r.2.bus
    else ppuAdvanceChecked dots r.2.bus)
  return { elapsed := s.elapsed + dots, spent := s.spent + r.1, gb := { r.2 with bus := bus } }

def frameStepChecked (env : Env σ) (s : FrameState σ) : Option (FrameState σ) := do
  let r ← chunkLoopChecked env (chunkBudget s) (chunkFuel (chunkBudget s)) 0 (clearLcdChanged s.gb)
  endChunkChecked s r

def frameLoopChecked (env : Env σ) : Nat → FrameState σ → Option (FrameState σ)
  | fuel, s =>
    if s.elapsed < FRAME_CYCLES then
      match fuel with
      | 0 => none
      | fuel + 1 => (frameStepChecked env s).bind (frameLoopChecked env fuel)
    else some s

/-- `runFrame` with every access of its steps and lines checked. -/
def runFrameChecked (env : Env σ) (g : GBEmulator σ) : Option (GBEmulator σ × Int) :=
  (frameLoopChecked env FRAME_CYCLES.toNat { elapsed := g.bus.lcd.frameOvershoot, spent := 0, gb := g }).map
    fun s => (finishFrame s, s.spent)

/-! ## The window's row counter -/

/-- The row counter is at most the visible lines begun before this one, and this one once it is drawn. -/
def WindowOk (l : Lcd) : Prop :=
  l.windowLine ≤ min l.ly.toNat GB_H + if l.ppuMode = 0 ∧ l.ly < 144 then 1 else 0

theorem WindowOk.le {l : Lcd} (h : WindowOk l) : l.windowLine ≤ GB_H := by
  unfold WindowOk GB_H at h
  unfold GB_H
  split at h
  · rename_i hline
    have hly : l.ly.toNat < 144 := UInt8.lt_iff_toNat_lt.mp hline.2
    omega
  · omega

/-- The counter and the line it belongs to are the same. -/
theorem WindowOk.keep {l l' : Lcd} (h : WindowOk l) (hs : l.SamePosition l') : WindowOk l' := by
  unfold WindowOk
  rw [hs.windowLine, hs.ly, hs.ppuMode]
  exact h

theorem WindowOk.cleared {l : Lcd} (h : l.windowLine = 0) : WindowOk l := by
  unfold WindowOk
  rw [h]
  exact Nat.zero_le _

/-- The sizes and the window's row counter: with both, no access of the emulator leaves its buffer. -/
structure Contained (b : Bus σ) : Prop where
  sized : b.Sized
  window : WindowOk b.lcd

theorem Contained.step {b b' : Bus σ} (h : Contained b) (he : BusEffect env b b')
    (hshape : b.SameShape b') : Contained b' := by
  refine ⟨h.sized.step he hshape, ?_⟩
  cases he with
  | quiet hq => exact h.window.keep hq.lcd
  | mapper addr val => exact h.window
  | lcd val hne =>
    refine .cleared ?_
    unfold writeLcdc
    rw [if_pos hne]
    exact (checkStatInterrupt_position _).windowLine

theorem busStep_contained (o : BusOp) {b : Bus σ} (h : Contained b) : Contained (busStep env o b).2 :=
  h.step (busStep_effect env o b) (busStep_shape env o b)

/-! ## Instructions -/

theorem busStepChecked_eq (o : BusOp) {b : Bus σ} (h : Contained b) :
    busStepChecked env o b = some (busStep env o b) := by
  cases o with
  | read addr => exact readByteChecked_eq env addr h.sized
  | write addr val =>
    show (writeByteChecked env addr val b).map (fun b => ((), b)) = _
    rw [writeByteChecked_eq env addr val h.sized]
    rfl
  | pending => rfl
  | acknowledge mask => rfl
  | stop => rfl

theorem runCpuChecked_eq {α : Type} (m : CpuM α) {g : GBEmulator σ} (h : Contained g.bus) :
    runCpuChecked env m g = some (runCpu env m g) := by
  unfold runCpuChecked runCpu
  rw [Prog.tryRun_eq (fun o _ hb => busStepChecked_eq o hb) (fun o _ hb => busStep_contained o hb)
    (m.run g.cpu) g.bus h]
  rfl

theorem cpuStepChecked_eq (idleBudget : Int) {g : GBEmulator σ} (h : Contained g.bus) :
    cpuStepChecked env idleBudget g = some (cpuStep env idleBudget g) := by
  by_cases hd : dispatches g
  · have hstep : cpuStepChecked env idleBudget g = (runCpuChecked env (dispatch (pendingIrqs g.bus.irq))
        { g with cpu := { g.cpu with halted := false } }).map fun r => (20, r.2) := if_pos hd
    rw [hstep, runCpuChecked_eq (g := { g with cpu := { g.cpu with halted := false } }) _ h,
      cpuStep_dispatch hd]
    rfl
  · have hstep : cpuStepChecked env idleBudget g = if (wake g).cpu.halted = true then
        some (haltSkip idleBudget (wake g).bus.timer (wake g).bus.irq, wake g)
          else runCpuChecked env instruction (wake g) := if_neg hd
    rw [hstep]
    cases hh : (wake g).cpu.halted with
    | false =>
      rw [if_neg Bool.false_ne_true, cpuStep_instruction hd hh]
      exact runCpuChecked_eq instruction (by rw [wake_bus]; exact h)
    | true => rw [if_pos rfl, cpuStep_halted hd hh, wake_bus]

variable (env) in
theorem timedStep_contained (idleBudget : Int) {g : GBEmulator σ} (h : Contained g.bus) :
    Contained (timedStep env idleBudget g).2.bus := by
  have hstep : Contained (cpuStep env idleBudget g).2.bus :=
    cpuStep_ops (fun o _ hb => busStep_contained o hb) idleBudget h
  obtain ⟨t, i, ht⟩ := updateTimer_eq (cpuStep env idleBudget g).1 (cpuStep env idleBudget g).2.bus
  unfold timedStep
  dsimp only
  rw [ht]
  exact ⟨{ hstep.sized with }, hstep.window⟩

variable (env) in
/-- No step of a chunk faults, and the chunk keeps the invariants. -/
theorem chunkLoopChecked_eq (budget : Int) : ∀ (fuel : Nat) (cycles : Int) {g : GBEmulator σ},
    Contained g.bus →
    chunkLoopChecked env budget fuel cycles g = chunkLoop env budget fuel cycles g ∧
      ∀ r, chunkLoop env budget fuel cycles g = some r → Contained r.2.bus
  | fuel, cycles, g, h => by
    by_cases hc : cycles < budget ∧ ¬ g.bus.lcd.lcdChanged = true
    · cases fuel with
      | zero =>
        rw [chunkLoop_zero hc]
        refine ⟨?_, fun _ hr => nomatch hr⟩
        unfold chunkLoopChecked
        exact if_pos hc
      | succ fuel =>
        obtain ⟨hrest, hkeep⟩ := chunkLoopChecked_eq budget fuel
          (cycles + (timedStep env (budget - cycles) g).1)
          (timedStep_contained env (budget - cycles) h)
        rw [chunkLoop_succ hc]
        refine ⟨?_, hkeep⟩
        rw [chunkLoopChecked, if_pos hc]
        dsimp only
        rw [Checked.bind (cpuStepChecked_eq (budget - cycles) h)]
        exact hrest
    · rw [chunkLoop_done hc]
      refine ⟨?_, fun r hr => ?_⟩
      · unfold chunkLoopChecked
        exact if_neg hc
      · obtain rfl := Option.some.inj hr
        exact h

/-! ## Scanlines -/

theorem storeLine_sized {s : Screen} (hf : Buffer.OfSize s.framebuf GB_FB_SIZE)
    (hc : Buffer.OfSize s.colorFramebuf (GB_W * GB_H))
    (line : Nat) (lb : LineBuf) : Buffer.OfSize (storeLine s line lb).framebuf GB_FB_SIZE ∧
      Buffer.OfSize (storeLine s line lb).colorFramebuf (GB_W * GB_H) := by
  refine ⟨hf.keep ?_, hc.keep ?_⟩
  · unfold storeLine
    rw [Option.map_map]
    rfl
  · unfold storeLine
    rw [Option.map_map]
    rfl

theorem checkStatInterrupt_contained {b : Bus σ} (h : Contained b) : Contained (checkStatInterrupt b) := by
  obtain ⟨line, irq, heq, -⟩ := checkStatInterrupt_eq b
  rw [heq]
  exact ⟨{ h.sized with }, h.window⟩

theorem enterTransfer_contained {b : Bus σ} (h : Contained b) : Contained (enterTransfer b) := by
  unfold enterTransfer
  split
  · rename_i hc
    refine checkStatInterrupt_contained ⟨{ h.sized with }, ?_⟩
    have hwindow := h.window
    unfold WindowOk at hwindow
    rw [if_neg (fun hm => absurd (hc.2.1.symm.trans hm.1) (by decide))] at hwindow
    exact Nat.le_trans hwindow (Nat.le_add_right _ _)
  · exact h

/-- The drawn line, or the skipped one: the sizes stay, and the row counter advances at most once. -/
theorem finishLine_sized {b : Bus σ} (h : b.Sized) : (finishLine b).Sized ∧
    ∃ n ≤ 1, (finishLine b).lcd = { b.lcd with windowLine := b.lcd.windowLine + n } := by
  unfold finishLine
  split
  · unfold renderLine
    split
    · exact ⟨h, 0, by decide, rfl⟩
    · obtain ⟨hf, hc⟩ :=
        storeLine_sized h.framebuf h.colorFramebuf b.lcd.ly.toNat (lineBuf b b.lcd.ly.toNat)
      refine ⟨{ h with framebuf := hf, colorFramebuf := hc }, ?_⟩
      dsimp only
      split
      · exact ⟨1, Nat.le_refl _, rfl⟩
      · exact ⟨0, by decide, rfl⟩
  split
  · exact ⟨{ h with }, 1, Nat.le_refl _, rfl⟩
  · exact ⟨h, 0, by decide, rfl⟩

theorem finishLineChecked_eq {b : Bus σ} (h : Contained b) (hly : b.lcd.ly < 144) :
    finishLineChecked b = some (finishLine b) := by
  unfold finishLineChecked finishLine
  split
  · exact renderLineChecked_eq h.sized h.window.le (UInt8.lt_iff_toNat_lt.mp hly)
  split
  · rfl
  · rfl

theorem enterHBlankChecked_eq {b : Bus σ} (h : Contained b) :
    enterHBlankChecked b = some (enterHBlank b) ∧ Contained (enterHBlank b) := by
  unfold enterHBlankChecked enterHBlank
  split
  · rename_i hc
    obtain ⟨hly, hmode, -⟩ := hc
    obtain ⟨hsized, n, hn, hlcd⟩ := finishLine_sized h.sized
    refine ⟨Checked.bind (finishLineChecked_eq h hly) _, checkStatInterrupt_contained ⟨{ hsized with }, ?_⟩⟩
    have hwindow := h.window
    unfold WindowOk at hwindow ⊢
    rw [if_neg (fun hm => absurd (hmode.symm.trans hm.1) (by decide))] at hwindow
    dsimp only
    rw [hlcd, if_pos ⟨rfl, hly⟩]
    exact Nat.add_le_add hwindow hn
  · exact ⟨rfl, h⟩

/-- The next line keeps what the counter has reached, and line 0 clears it. -/
theorem advanceLine_window {l : Lcd} (h : WindowOk l) (hly : l.ly < 154) : WindowOk (advanceLine l) := by
  have hlt : l.ly.toNat < 154 := UInt8.lt_iff_toNat_lt.mp hly
  have hsucc : (l.ly + 1).toNat = l.ly.toNat + 1 := by
    rw [UInt8.toNat_add]
    exact Nat.mod_eq_of_lt (by show l.ly.toNat + 1 < 256; omega)
  by_cases hwrap : 154 ≤ l.ly + 1
  · refine .cleared ?_
    unfold advanceLine
    dsimp only
    rw [if_pos hwrap]
  · have hly' : (advanceLine l).ly = l.ly + 1 := by
      unfold advanceLine
      dsimp only
      rw [if_neg hwrap]
    have hline : (advanceLine l).windowLine = l.windowLine := by
      unfold advanceLine
      dsimp only
      rw [if_neg hwrap]
    have hle := h.le
    unfold WindowOk at h ⊢
    refine Nat.le_trans ?_ (Nat.le_add_right _ _)
    rw [hline, hly', hsucc]
    refine Nat.le_min.mpr ⟨?_, hle⟩
    split at h <;> omega

theorem enterNextLine_contained {b : Bus σ} (h : Contained b) (hly : b.lcd.ly < 154) :
    Contained (enterNextLine b) := by
  unfold enterNextLine
  split
  · exact checkStatInterrupt_contained ⟨{ h.sized with }, advanceLine_window h.window hly⟩
  · exact h

theorem ppuAdvanceChecked_eq (dots : Int) {b : Bus σ} (h : Contained b) (hly : b.lcd.ly < 154) :
    ppuAdvanceChecked dots b = some (ppuAdvance dots b) ∧ Contained (ppuAdvance dots b) := by
  have hstart : Contained { b with lcd := { b.lcd with ppuDots := b.lcd.ppuDots + dots } } :=
    ⟨{ h.sized with }, h.window⟩
  obtain ⟨heq, hblank⟩ := enterHBlankChecked_eq (enterTransfer_contained hstart)
  have hat : b.lcd.At { b.lcd with ppuDots := b.lcd.ppuDots + dots } b.lcd.ly (b.lcd.ppuDots + dots)
    b.lcd.ppuMode :=
    ⟨rfl, rfl, rfl, rfl, rfl⟩
  have hline :=
    enterHBlank_at
      (enterTransfer_at (b := { b with lcd := { b.lcd with ppuDots := b.lcd.ppuDots + dots } }) hat)
  unfold ppuAdvanceChecked ppuAdvance
  exact ⟨Checked.bind heq _, enterNextLine_contained hblank (by rw [hline.ly]; exact hly)⟩

/-! ## Frames -/

theorem endChunkChecked_eq {s : FrameState σ} {r : Int × GBEmulator σ} (hppu : PpuOK s.gb.bus.lcd)
    (he : s.elapsed < FRAME_CYCLES) (hr : runChunk env s = some r) (h : Contained r.2.bus) :
    endChunkChecked s r = some (endChunk s r) ∧ Contained (endChunk s r).gb.bus := by
  unfold endChunkChecked endChunk
  dsimp only
  split
  · exact ⟨rfl, h⟩
  · rename_i hstop
    rw [not_or, not_not] at hstop
    obtain ⟨hsame, -, -⟩ := endChunk_running hppu he hr hstop.1 (eq_false_of_ne_true hstop.2)
    have hly : r.2.bus.lcd.ly < 154 := by
      rw [hsame.ly]
      exact hppu.ly hstop.1
    obtain ⟨heq, hkeep⟩ := ppuAdvanceChecked_eq (r.1 / speedOf s.gb.bus.cgb) h hly
    exact ⟨Checked.bind heq _, hkeep⟩

variable (env) in
theorem frameStepChecked_eq {s : FrameState σ} (hppu : PpuOK s.gb.bus.lcd) (he : s.elapsed < FRAME_CYCLES)
    (h : Contained s.gb.bus) : frameStepChecked env s = frameStep env s ∧
      ∀ s', frameStep env s = some s' → Contained s'.gb.bus := by
  have hclear : Contained (clearLcdChanged s.gb).bus := ⟨{ h.sized with }, h.window⟩
  obtain ⟨heq, hkeep⟩ := chunkLoopChecked_eq env (chunkBudget s) (chunkFuel (chunkBudget s)) 0 hclear
  have hsome : (runChunk env s).isSome := runChunk_isSome s
  obtain ⟨r, hr⟩ := Option.isSome_iff_exists.mp hsome
  obtain ⟨hend, hkeep'⟩ := endChunkChecked_eq hppu he hr (hkeep r hr)
  have hstep : frameStep env s = some (endChunk s r) := by
    unfold frameStep
    rw [hr]
    rfl
  refine ⟨?_, fun s' hs' => ?_⟩
  · unfold frameStepChecked
    rw [hstep, Checked.bind (heq.trans hr)]
    exact hend
  · obtain rfl := Option.some.inj (hstep.symm.trans hs')
    exact hkeep'

variable (env) in
theorem frameLoopChecked_eq : ∀ (fuel : Nat) {s : FrameState σ}, PpuOK s.gb.bus.lcd → Contained s.gb.bus →
    frameLoopChecked env fuel s = frameLoop env fuel s ∧ ∀ s', frameLoop env fuel s = some s' →
      Contained s'.gb.bus
  | fuel, s, hppu, h => by
    unfold frameLoopChecked frameLoop
    split
    · rename_i he
      cases fuel with
      | zero =>
        refine ⟨rfl, fun s' hs => ?_⟩
        cases hs
      | succ fuel =>
        obtain ⟨heq, hkeep⟩ := frameStepChecked_eq env hppu he h
        obtain ⟨s₁, hs₁⟩ := Option.isSome_iff_exists.mp (frameStep_isSome env s)
        have hrest := frameLoopChecked_eq fuel (frameStep_ok hppu he hs₁).ppu (hkeep s₁ hs₁)
        dsimp only
        rw [heq, hs₁]
        exact hrest
    · exact ⟨rfl, fun s' hs => Option.some.inj hs ▸ h⟩

variable (env) in
/-- A whole frame stays inside the buffers. -/
theorem runFrameChecked_eq {g : GBEmulator σ} (hppu : PpuOK g.bus.lcd) (h : Contained g.bus) :
    runFrameChecked env g = runFrame env g ∧ ∀ g' spent, runFrame env g = some (g', spent) →
      Contained g'.bus := by
  obtain ⟨heq, hkeep⟩ := frameLoopChecked_eq env FRAME_CYCLES.toNat
    (s := { elapsed := g.bus.lcd.frameOvershoot, spent := 0, gb := g }) hppu h
  unfold runFrameChecked runFrame
  rw [heq]
  refine ⟨rfl, fun g' spent hg => ?_⟩
  obtain ⟨s, hs, hfinish⟩ := Option.map_eq_some_iff.mp hg
  obtain ⟨rfl, -⟩ := Prod.mk.inj hfinish
  have hs' := hkeep s hs
  exact ⟨{ hs'.sized with }, hs'.window⟩

end FoloGameboy

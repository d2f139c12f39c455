/-
Two emulators in lockstep. When a relation of two buses is kept by every bus operation with equal
answers, and covers what the frame loop itself reads and does, it is kept by steps, chunks, outer
iterations and whole frames. The second emulator may go bad instead, which it then stays.
-/
import FoloGameboy.Core.Schedule

namespace FoloGameboy

open Effect

variable {σ : Type}

/-- `R` relates the buses of two emulators under their environments, unless the second one is in a
bad state `B`. -/
structure Lockstep (env₁ env₂ : Env σ) (R : Bus σ → Bus σ → Prop) (B : Bus σ → Prop) : Prop where
  op : ∀ o b₁ b₂, R b₁ b₂ → ((busStep env₁ o b₁).1 = (busStep env₂ o b₂).1 ∧
    R (busStep env₁ o b₁).2 (busStep env₂ o b₂).2) ∨ B (busStep env₂ o b₂).2
  bad : ∀ o b, B b → B (busStep env₂ o b).2
  view : ∀ b₁ b₂, R b₁ b₂ → b₂.lcd = b₁.lcd ∧ b₂.timer = b₁.timer ∧ b₂.irq = b₁.irq ∧ b₂.cgb = b₁.cgb
  clock : ∀ b₁ b₂ t i, R b₁ b₂ → R { b₁ with timer := t, irq := i } { b₂ with timer := t, irq := i }
  lcd : ∀ b₁ b₂ l, R b₁ b₂ → R { b₁ with lcd := l } { b₂ with lcd := l }
  ppu : ∀ dots b₁ b₂, LcdOn b₁.lcd → R b₁ b₂ → R (ppuAdvance dots b₁) (ppuAdvance dots b₂)
  badClock : ∀ b t i, B b → B { b with timer := t, irq := i }
  badPpu : ∀ b l i s, B b → B { b with lcd := l, irq := i, screen := s }

/-- The registers of both processors are equal, and `R` relates the buses. -/
structure Paired (R : Bus σ → Bus σ → Prop) (g₁ g₂ : GBEmulator σ) : Prop where
  cpu : g₂.cpu = g₁.cpu
  frameCount : g₂.frameCount = g₁.frameCount
  bus : R g₁.bus g₂.bus

/-- The same point of a frame in both runs. -/
structure PairedFrame (R : Bus σ → Bus σ → Prop) (s₁ s₂ : FrameState σ) : Prop where
  elapsed : s₂.elapsed = s₁.elapsed
  spent : s₂.spent = s₁.spent
  gb : Paired R s₁.gb s₂.gb

/-- The `k`-th state at the head of the outer loop of `runFrame`, if the frame has that many. -/
def headAt (env : Env σ) : Nat → FrameState σ → Option (FrameState σ)
  | 0, s => some s
  | k + 1, s => if s.elapsed < FRAME_CYCLES then (frameStep env s).bind (headAt env k) else none

theorem headAt_succ {env : Env σ} {k : Nat} {s s' : FrameState σ} (h : headAt env (k + 1) s = some s') :
    s.elapsed < FRAME_CYCLES ∧ ∃ s₁, frameStep env s = some s₁ ∧ headAt env k s₁ = some s' := by
  unfold headAt at h
  split at h
  · rename_i he
    exact ⟨he, Option.bind_eq_some_iff.mp h⟩
  · cases h

theorem headAt_ppuOK {env : Env σ} : ∀ (k : Nat) {s s' : FrameState σ}, PpuOK s.gb.bus.lcd →
    headAt env k s = some s' → PpuOK s'.gb.bus.lcd
  | 0, s, s', h, hs => by
    obtain rfl := Option.some.inj hs
    exact h
  | k + 1, s, s', h, hs => by
    obtain ⟨he, s₁, hs₁, hs⟩ := headAt_succ hs
    exact headAt_ppuOK k (frameStep_ok h he hs₁).ppu hs

namespace Lockstep

variable {env₁ env₂ : Env σ} {R : Bus σ → Bus σ → Prop} {B : Bus σ → Prop} (L : Lockstep env₁ env₂ R B)

include L

/-! ## Steps -/

/-- A bad emulator stays bad. -/
theorem bad_frameInv : FrameInv env₂ fun g => B g.bus where
  step idleBudget _ h := cpuStep_ops L.bad idleBudget h
  timer g t i h := L.badClock g.bus t i h
  ppu g l i s h := L.badPpu g.bus l i s h

theorem runCpu_pair {α : Type} (m : CpuM α) {g₁ g₂ : GBEmulator σ} (h : Paired R g₁ g₂) :
    ((runCpu env₁ m g₁).1 = (runCpu env₂ m g₂).1 ∧ Paired R (runCpu env₁ m g₁).2 (runCpu env₂ m g₂).2) ∨
      B (runCpu env₂ m g₂).2.bus := by
  unfold runCpu
  dsimp only
  rw [h.cpu]
  rcases Prog.run_sim_or L.op L.bad (m.run g₁.cpu) _ _ h.bus with ⟨hres, hbus⟩ | hbad
  · refine .inl ⟨by rw [hres], ?_, h.frameCount, hbus⟩
    show _ = _
    rw [hres]
  · exact .inr hbad

theorem wake_pair {g₁ g₂ : GBEmulator σ} (h : Paired R g₁ g₂) : Paired R (wake g₁) (wake g₂) := by
  obtain ⟨-, -, hirq, -⟩ := L.view _ _ h.bus
  unfold wake
  rw [hirq, h.cpu]
  split
  · exact ⟨rfl, h.frameCount, h.bus⟩
  · exact h

theorem cpuStep_pair (idleBudget : Int) {g₁ g₂ : GBEmulator σ} (h : Paired R g₁ g₂) :
    ((cpuStep env₁ idleBudget g₁).1 = (cpuStep env₂ idleBudget g₂).1 ∧
      Paired R (cpuStep env₁ idleBudget g₁).2 (cpuStep env₂ idleBudget g₂).2) ∨
      B (cpuStep env₂ idleBudget g₂).2.bus := by
  obtain ⟨-, htimer, hirq, -⟩ := L.view _ _ h.bus
  have hdisp : dispatches g₂ ↔ dispatches g₁ := by unfold dispatches; rw [hirq, h.cpu]
  have hwake := L.wake_pair h
  by_cases hd : dispatches g₁
  · rw [cpuStep_dispatch hd, cpuStep_dispatch (hdisp.mpr hd), hirq]
    have hawake : Paired R { g₁ with cpu := { g₁.cpu with halted := false } }
        { g₂ with cpu := { g₂.cpu with halted := false } } := ⟨by rw [h.cpu], h.frameCount, h.bus⟩
    rcases L.runCpu_pair (dispatch (pendingIrqs g₁.bus.irq)) hawake with ⟨-, hp⟩ | hb
    · exact .inl ⟨rfl, hp⟩
    · exact .inr hb
  have hd₂ : ¬ dispatches g₂ := fun hd' => hd (hdisp.mp hd')
  cases hh : (wake g₁).cpu.halted with
  | true =>
    rw [cpuStep_halted hd hh, cpuStep_halted hd₂ (by rw [hwake.cpu]; exact hh), htimer, hirq]
    exact .inl ⟨rfl, hwake⟩
  | false =>
    rw [cpuStep_instruction hd hh, cpuStep_instruction hd₂ (by rw [hwake.cpu]; exact hh)]
    exact L.runCpu_pair instruction hwake

omit L in
/-- The timer computes from its registers and the requests only. -/
theorem updateTimer_pair (cycles : Int) {b₁ b₂ : Bus σ} (ht : b₂.timer = b₁.timer) (hi : b₂.irq = b₁.irq) :
    ∃ t i, updateTimer cycles b₁ = { b₁ with timer := t, irq := i } ∧
      updateTimer cycles b₂ = { b₂ with timer := t, irq := i } := by
  unfold updateTimer
  dsimp only
  rw [ht, hi]
  split
  · exact ⟨_, b₁.irq, rfl, by rw [← hi]⟩
  · exact ⟨_, _, rfl, rfl⟩

theorem timedStep_pair (idleBudget : Int) {g₁ g₂ : GBEmulator σ} (h : Paired R g₁ g₂) :
    ((timedStep env₁ idleBudget g₁).1 = (timedStep env₂ idleBudget g₂).1 ∧
      Paired R (timedStep env₁ idleBudget g₁).2 (timedStep env₂ idleBudget g₂).2) ∨
      B (timedStep env₂ idleBudget g₂).2.bus := by
  rcases L.cpuStep_pair idleBudget h with ⟨hcost, hp⟩ | hb
  · obtain ⟨-, htimer, hirq, -⟩ := L.view _ _ hp.bus
    obtain ⟨t, i, h₁, h₂⟩ := updateTimer_pair (cpuStep env₁ idleBudget g₁).1 htimer hirq
    refine .inl ⟨hcost, hp.cpu, hp.frameCount, ?_⟩
    show R (updateTimer _ _) (updateTimer _ _)
    rw [← hcost, h₁, h₂]
    exact L.clock _ _ t i hp.bus
  · obtain ⟨t, i, ht⟩ := updateTimer_eq (cpuStep env₂ idleBudget g₂).1 (cpuStep env₂ idleBudget g₂).2.bus
    refine .inr ?_
    show B (updateTimer _ _)
    rw [ht]
    exact L.badClock _ t i hb

/-! ## Frames -/

theorem chunkLoop_pair (budget : Int) :
    ∀ (fuel : Nat) (cycles : Int) {g₁ g₂ : GBEmulator σ} {r₁ r₂ : Int × GBEmulator σ},
    Paired R g₁ g₂ → chunkLoop env₁ budget fuel cycles g₁ = some r₁ →
      chunkLoop env₂ budget fuel cycles g₂ = some r₂ →
    (r₁.1 = r₂.1 ∧ Paired R r₁.2 r₂.2) ∨ B r₂.2.bus
  | fuel, cycles, g₁, g₂, r₁, r₂, h, h₁, h₂ => by
    obtain ⟨hlcd, -⟩ := L.view _ _ h.bus
    by_cases hc : cycles < budget ∧ ¬ g₁.bus.lcd.lcdChanged = true
    · have hc₂ : cycles < budget ∧ ¬ g₂.bus.lcd.lcdChanged = true := by rw [hlcd]; exact hc
      cases fuel with
      | zero => rw [chunkLoop_zero hc] at h₁; cases h₁
      | succ fuel =>
        rw [chunkLoop_succ hc] at h₁
        rw [chunkLoop_succ hc₂] at h₂
        rcases L.timedStep_pair (budget - cycles) h with ⟨hcost, hp⟩ | hb
        · rw [← hcost] at h₂
          exact chunkLoop_pair budget fuel _ hp h₁ h₂
        · exact .inr (L.bad_frameInv.chunkLoop_inv budget fuel _ _ r₂ hb h₂)
    · have hc₂ : ¬ (cycles < budget ∧ ¬ g₂.bus.lcd.lcdChanged = true) := by rw [hlcd]; exact hc
      rw [chunkLoop_done hc] at h₁
      rw [chunkLoop_done hc₂] at h₂
      obtain rfl := Option.some.inj h₁
      obtain rfl := Option.some.inj h₂
      exact .inl ⟨rfl, h⟩

theorem runChunk_pair {s₁ s₂ : FrameState σ} {r₁ r₂ : Int × GBEmulator σ} (h : PairedFrame R s₁ s₂)
    (h₁ : runChunk env₁ s₁ = some r₁) (h₂ : runChunk env₂ s₂ = some r₂) :
    (r₁.1 = r₂.1 ∧ Paired R r₁.2 r₂.2) ∨ B r₂.2.bus := by
  obtain ⟨hlcd, -, -, hcgb⟩ := L.view _ _ h.gb.bus
  have hbudget : chunkBudget s₂ = chunkBudget s₁ := by unfold chunkBudget; rw [h.elapsed, hlcd, hcgb]
  have hclear : Paired R (clearLcdChanged s₁.gb) (clearLcdChanged s₂.gb) := by
    refine ⟨h.gb.cpu, h.gb.frameCount, ?_⟩
    unfold clearLcdChanged
    rw [hlcd]
    exact L.lcd _ _ _ h.gb.bus
  unfold runChunk at h₂
  rw [hbudget] at h₂
  exact L.chunkLoop_pair _ _ 0 hclear h₁ h₂

theorem endChunk_pair {s₁ s₂ : FrameState σ} {r₁ r₂ : Int × GBEmulator σ} (h : PairedFrame R s₁ s₂)
    (hppu : PpuOK s₁.gb.bus.lcd) (he : s₁.elapsed < FRAME_CYCLES) (hr : runChunk env₁ s₁ = some r₁)
    (hcost : r₁.1 = r₂.1) (hp : Paired R r₁.2 r₂.2) : PairedFrame R (endChunk s₁ r₁) (endChunk s₂ r₂) := by
  obtain ⟨hlcd, -, -, hcgb⟩ := L.view _ _ h.gb.bus
  obtain ⟨hlcd', -⟩ := L.view _ _ hp.bus
  have hspeed : speedOf s₂.gb.bus.cgb = speedOf s₁.gb.bus.cgb := by rw [hcgb]
  refine ⟨?_, ?_, hp.cpu, hp.frameCount, ?_⟩
  · show s₂.elapsed + r₂.1 / speedOf s₂.gb.bus.cgb = s₁.elapsed + r₁.1 / speedOf s₁.gb.bus.cgb
    rw [h.elapsed, hcost, hspeed]
  · show s₂.spent + r₂.1 = s₁.spent + r₁.1
    rw [h.spent, hcost]
  · by_cases hstop : ¬ LcdOn s₁.gb.bus.lcd ∨ r₁.2.bus.lcd.lcdChanged = true
    · rw [endChunk_stopped hstop, endChunk_stopped (by rw [hlcd, hlcd']; exact hstop)]
      exact hp.bus
    · have hstop₂ : ¬ (¬ LcdOn s₂.gb.bus.lcd ∨ r₂.2.bus.lcd.lcdChanged = true) := by
        rw [hlcd, hlcd']; exact hstop
      have hbus₂ : (endChunk s₂ r₂).gb.bus = ppuAdvance (r₂.1 / speedOf s₂.gb.bus.cgb) r₂.2.bus :=
        if_neg hstop₂
      rw [not_or, not_not] at hstop
      obtain ⟨hsame, hbus, -⟩ := endChunk_running hppu he hr hstop.1 (eq_false_of_ne_true hstop.2)
      rw [hbus, hbus₂, ← hcost, hspeed]
      exact L.ppu _ _ _ (hsame.enabled.trans hstop.1) hp.bus

theorem frameStep_pair {s₁ s₂ s₁' s₂' : FrameState σ} (h : PairedFrame R s₁ s₂) (hppu : PpuOK s₁.gb.bus.lcd)
    (he : s₁.elapsed < FRAME_CYCLES) (h₁ : frameStep env₁ s₁ = some s₁')
    (h₂ : frameStep env₂ s₂ = some s₂') :
    PairedFrame R s₁' s₂' ∨ B s₂'.gb.bus := by
  obtain ⟨r₁, hr₁, rfl⟩ := Option.map_eq_some_iff.mp h₁
  obtain ⟨r₂, hr₂, rfl⟩ := Option.map_eq_some_iff.mp h₂
  rcases L.runChunk_pair h hr₁ hr₂ with ⟨hcost, hp⟩ | hb
  · exact .inl (L.endChunk_pair h hppu he hr₁ hcost hp)
  · exact .inr (L.bad_frameInv.endChunk_inv s₂ hb)

theorem bad_headAt : ∀ (k : Nat) {s s' : FrameState σ}, B s.gb.bus → headAt env₂ k s = some s' → B s'.gb.bus
  | 0, s, s', h, hs => by
    obtain rfl := Option.some.inj hs
    exact h
  | k + 1, s, s', h, hs => by
    obtain ⟨-, s₁, hs₁, hs⟩ := headAt_succ hs
    exact bad_headAt k (L.bad_frameInv.frameStep_inv h hs₁) hs

/-- The runs stay in lockstep at every head of the outer loop. -/
theorem headAt_pair : ∀ (k : Nat) {s₁ s₂ s₁' s₂' : FrameState σ}, PairedFrame R s₁ s₂ →
    PpuOK s₁.gb.bus.lcd →
    headAt env₁ k s₁ = some s₁' → headAt env₂ k s₂ = some s₂' → PairedFrame R s₁' s₂' ∨ B s₂'.gb.bus
  | 0, s₁, s₂, s₁', s₂', h, hppu, h₁, h₂ => by
    obtain rfl := Option.some.inj h₁
    obtain rfl := Option.some.inj h₂
    exact .inl h
  | k + 1, s₁, s₂, s₁', s₂', h, hppu, h₁, h₂ => by
    obtain ⟨he, t₁, hs₁, h₁⟩ := headAt_succ h₁
    obtain ⟨-, t₂, hs₂, h₂⟩ := headAt_succ h₂
    rcases L.frameStep_pair h hppu he hs₁ hs₂ with hp | hb
    · exact headAt_pair k hp (frameStep_ok hppu he hs₁).ppu h₁ h₂
    · exact .inr (L.bad_headAt k hb h₂)

theorem frameStart_pair {g₁ g₂ : GBEmulator σ} (h : Paired R g₁ g₂) :
    PairedFrame R (frameStart g₁) (frameStart g₂) := by
  obtain ⟨hlcd, -⟩ := L.view _ _ h.bus
  refine ⟨?_, rfl, h⟩
  show g₂.bus.lcd.frameOvershoot = g₁.bus.lcd.frameOvershoot
  rw [hlcd]

theorem frameLoop_pair : ∀ (fuel : Nat) {s₁ s₂ s₁' s₂' : FrameState σ}, PairedFrame R s₁ s₂ →
    PpuOK s₁.gb.bus.lcd →
    frameLoop env₁ fuel s₁ = some s₁' → frameLoop env₂ fuel s₂ = some s₂' → PairedFrame R s₁' s₂' ∨
      B s₂'.gb.bus
  | fuel, s₁, s₂, s₁', s₂', h, hppu, h₁, h₂ => by
    have hend := h₂
    unfold frameLoop at h₁ h₂
    rw [h.elapsed] at h₂
    split at h₁
    · rename_i he
      rw [if_pos he] at h₂
      cases fuel with
      | zero => cases h₁
      | succ fuel =>
        obtain ⟨t₁, hs₁, h₁⟩ := Option.bind_eq_some_iff.mp h₁
        obtain ⟨t₂, hs₂, h₂⟩ := Option.bind_eq_some_iff.mp h₂
        rcases L.frameStep_pair h hppu he hs₁ hs₂ with hp | hb
        · exact frameLoop_pair fuel hp (frameStep_ok hppu he hs₁).ppu h₁ h₂
        · exact .inr (L.bad_frameInv.frameLoop_inv fuel hb h₂)
    · rename_i he
      rw [if_neg he] at h₂
      obtain rfl := Option.some.inj h₁
      obtain rfl := Option.some.inj h₂
      exact .inl h

/-- Two related emulators finish a frame related and after the same cycles. -/
theorem runFrame_pair {g₁ g₂ g₁' g₂' : GBEmulator σ} {c₁ c₂ : Int} (h : Paired R g₁ g₂)
    (hppu : PpuOK g₁.bus.lcd)
    (h₁ : runFrame env₁ g₁ = some (g₁', c₁)) (h₂ : runFrame env₂ g₂ = some (g₂', c₂)) :
    (Paired R g₁' g₂' ∧ c₁ = c₂) ∨ B g₂'.bus := by
  obtain ⟨s₁, hs₁, hg₁⟩ := Option.map_eq_some_iff.mp h₁
  obtain ⟨s₂, hs₂, hg₂⟩ := Option.map_eq_some_iff.mp h₂
  obtain ⟨rfl, rfl⟩ := Prod.mk.inj hg₁
  obtain ⟨rfl, rfl⟩ := Prod.mk.inj hg₂
  rcases L.frameLoop_pair _ (L.frameStart_pair h) hppu hs₁ hs₂ with hp | hb
  · obtain ⟨hlcd, -⟩ := L.view _ _ hp.gb.bus
    refine .inl ⟨⟨hp.gb.cpu, hp.gb.frameCount, ?_⟩, hp.spent.symm⟩
    show R { s₁.gb.bus with lcd := _ } { s₂.gb.bus with lcd := _ }
    rw [hlcd, hp.elapsed]
    exact L.lcd _ _ _ hp.gb.bus
  · exact .inr (L.badPpu _ _ _ _ hb)

end Lockstep

end FoloGameboy

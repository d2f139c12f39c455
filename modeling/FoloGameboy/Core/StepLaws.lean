/-
The step laws of the emulator: `cpu_step` is a dispatch, a halted skip or one instruction; its
costs; what the timer and the PPU touch; and the induction rules for `runFrame` and for every state
a host can reach.
-/
import FoloGameboy.Core.BusLaws
import FoloGameboy.Core.CpuLaws
import FoloGameboy.Core.Frame

namespace FoloGameboy

open Effect

variable {σ : Type} {env : Env σ}

/-! ## Processor programs on a bus -/

@[simp] theorem runCpu_pure {α : Type} (a : α) (g : GBEmulator σ) : runCpu env (pure a) g = (a, g) := rfl

theorem runCpu_bind {α β : Type} (m : CpuM α) (f : α → CpuM β) (g : GBEmulator σ) :
    runCpu env (m >>= f) g = runCpu env (f (runCpu env m g).1) (runCpu env m g).2 := by
  show (_, _) = (_, _)
  have h : ((m >>= f).run g.cpu).run (busStep env) g.bus =
      ((f ((m.run g.cpu).run (busStep env) g.bus).1.1).run ((m.run g.cpu).run (busStep env) g.bus).1.2).run
        (busStep env) ((m.run g.cpu).run (busStep env) g.bus).2 :=
    Prog.run_bind (busStep env) (m.run g.cpu) (fun r => (f r.1).run r.2) g.bus
  rw [h]; rfl

/-- What every bus operation keeps, every processor program keeps. -/
theorem runCpu_inv {α : Type} {P : Bus σ → Prop} (hP : ∀ o b, P b → P (busStep env o b).2) (m : CpuM α)
    {g : GBEmulator σ} (h : P g.bus) : P (runCpu env m g).2.bus :=
  Prog.run_inv hP _ g.bus h

theorem runCpu_modify (f : Cpu → Cpu) (g : GBEmulator σ) :
    runCpu env (modify f) g = (⟨⟩, { g with cpu := f g.cpu }) := rfl

theorem runCpu_fetch (g : GBEmulator σ) :
    runCpu env fetch g = ((readByte env g.cpu.pc g.bus).1,
      { g with cpu := { g.cpu with pc := g.cpu.pc + 1 }, bus := (readByte env g.cpu.pc g.bus).2 }) := rfl

/-! ## One step -/

/-- An interrupt is dispatched by the next step. -/
def dispatches (g : GBEmulator σ) : Prop := pendingIrqs g.bus.irq ≠ 0 ∧ g.cpu.ime = true

instance (g : GBEmulator σ) : Decidable (dispatches g) := by unfold dispatches; infer_instance

/-- A pending interrupt ends HALT, whether or not it is dispatched. -/
def wake (g : GBEmulator σ) : GBEmulator σ :=
  if pendingIrqs g.bus.irq ≠ 0 then { g with cpu := { g.cpu with halted := false } } else g

@[simp] theorem wake_bus (g : GBEmulator σ) : (wake g).bus = g.bus := by unfold wake; split <;> rfl
@[simp] theorem wake_pc (g : GBEmulator σ) : (wake g).cpu.pc = g.cpu.pc := by unfold wake; split <;> rfl
@[simp] theorem wake_ime (g : GBEmulator σ) : (wake g).cpu.ime = g.cpu.ime := by unfold wake; split <;> rfl
@[simp] theorem wake_eiPending (g : GBEmulator σ) : (wake g).cpu.eiPending = g.cpu.eiPending := by
  unfold wake; split <;> rfl
@[simp] theorem wake_haltBug (g : GBEmulator σ) : (wake g).cpu.haltBug = g.cpu.haltBug := by
  unfold wake; split <;> rfl

theorem cpuStep_dispatch {idleBudget : Int} {g : GBEmulator σ} (h : dispatches g) :
    cpuStep env idleBudget g = (20, (runCpu env (dispatch (pendingIrqs g.bus.irq))
      { g with cpu := { g.cpu with halted := false } }).2) :=
  if_pos h

theorem cpuStep_halted {idleBudget : Int} {g : GBEmulator σ} (h : ¬ dispatches g)
    (hh : (wake g).cpu.halted = true) :
    cpuStep env idleBudget g = (haltSkip idleBudget g.bus.timer g.bus.irq, wake g) := by
  refine (if_neg h).trans ((if_pos hh).trans ?_)
  show (haltSkip idleBudget (wake g).bus.timer (wake g).bus.irq, wake g) = _
  rw [wake_bus]

theorem cpuStep_instruction {idleBudget : Int} {g : GBEmulator σ} (h : ¬ dispatches g)
    (hh : (wake g).cpu.halted = false) : cpuStep env idleBudget g = runCpu env instruction (wake g) :=
  (if_neg h).trans (if_neg (ne_true_of_eq_false hh))

/-- The opcode the next instruction fetches. -/
def opcodeAt (env : Env σ) (g : GBEmulator σ) : UInt8 := (readByte env g.cpu.pc g.bus).1

/-- A pending EI takes effect. -/
def promote (c : Cpu) : Cpu := if c.eiPending then { c with eiPending := false, ime := true } else c

/-- The halt bug takes the increment of PC back. -/
def undoHaltBug (c : Cpu) : Cpu := if c.haltBug then { c with pc := c.pc - 1, haltBug := false } else c

/-- The registers when a fetched opcode starts to execute. -/
def afterFetch (c : Cpu) : Cpu := undoHaltBug { promote c with pc := c.pc + 1 }

theorem promote_pc (c : Cpu) : (promote c).pc = c.pc := by unfold promote; split <;> rfl

theorem runCpu_instruction (g : GBEmulator σ) :
    runCpu env instruction g = runCpu env (execute (opcodeAt env g))
      { g with cpu := afterFetch g.cpu, bus := (readByte env g.cpu.pc g.bus).2 } := by
  show runCpu env (do modify promote; let op ← fetch; modify undoHaltBug; execute op) g = _
  rw [runCpu_bind, runCpu_modify, runCpu_bind, runCpu_fetch, runCpu_bind, runCpu_modify]
  simp only [promote_pc]
  rfl

@[simp] theorem afterFetch_ime (c : Cpu) : (afterFetch c).ime = (c.ime || c.eiPending) := by
  unfold afterFetch undoHaltBug promote
  cases h : c.eiPending <;> cases h' : c.haltBug <;> simp [h, h']

@[simp] theorem afterFetch_eiPending (c : Cpu) : (afterFetch c).eiPending = false := by
  unfold afterFetch undoHaltBug promote
  cases h : c.eiPending <;> cases h' : c.haltBug <;> simp [h, h']

@[simp] theorem afterFetch_haltBug (c : Cpu) : (afterFetch c).haltBug = false := by
  unfold afterFetch undoHaltBug promote
  cases h : c.eiPending <;> cases h' : c.haltBug <;> simp [h, h']

theorem afterFetch_pc (c : Cpu) : (afterFetch c).pc = if c.haltBug then c.pc else c.pc + 1 := by
  unfold afterFetch undoHaltBug promote
  cases h : c.eiPending <;> cases h' : c.haltBug <;> simp [h, h']

/-- An illegal opcode only moves PC. -/
theorem runCpu_illegal {g : GBEmulator σ} (h : illegal (opcodeAt env g).toNat = true) :
    runCpu env instruction g =
      (0, { g with cpu := afterFetch g.cpu, bus := (readByte env g.cpu.pc g.bus).2 }) := by
  rw [runCpu_instruction]
  unfold runCpu
  dsimp only
  rw [execute_illegal h]; rfl

/-- What every bus operation keeps, every step keeps. -/
theorem cpuStep_ops {P : Bus σ → Prop} (hP : ∀ o b, P b → P (busStep env o b).2) (idleBudget : Int)
    {g : GBEmulator σ} (h : P g.bus) : P (cpuStep env idleBudget g).2.bus := by
  by_cases hd : dispatches g
  · rw [cpuStep_dispatch hd]; exact runCpu_inv hP _ h
  cases hh : (wake g).cpu.halted
  · rw [cpuStep_instruction hd hh]; exact runCpu_inv hP _ (by rw [wake_bus]; exact h)
  · rw [cpuStep_halted hd hh]; show P (wake g).bus; rw [wake_bus]; exact h

theorem cpuStep_inv {P : Bus σ → Prop} (hP : ∀ b b', P b → BusEffect env b b' → P b') (idleBudget : Int)
    {g : GBEmulator σ} (h : P g.bus) : P (cpuStep env idleBudget g).2.bus :=
  cpuStep_ops (fun o b hb => hP b _ hb (busStep_effect env o b)) idleBudget h

/-! ## Costs -/

/-- How far PC is from the unusable address range, where every byte reads as RST 38; a halt bug
repeats one fetch. -/
def idleDistance (c : Cpu) : Nat := (0xFEA0 - c.pc).toNat + if c.haltBug then 1 else 0

theorem idleDistance_le (c : Cpu) : idleDistance c ≤ 65536 := by
  have := (0xFEA0 - c.pc).toNat_lt
  unfold idleDistance; split <;> omega

theorem readByte_unusable (b : Bus σ) : readByte env 0xFEA0 b = (0xFF, b) := by
  unfold readByte readByteRam readByteSlow
  simp

theorem sub_succ_lt {p : UInt16} (h : p ≠ 0xFEA0) : (0xFEA0 - (p + 1)).toNat < (0xFEA0 - p).toNat := by
  have hp : p.toNat ≠ (0xFEA0 : UInt16).toNat := fun he => h (UInt16.toNat_inj.mp he)
  have hlt := p.toNat_lt
  have hlit : (0xFEA0 : UInt16).toNat = 0xFEA0 := rfl
  have hone : (1 : UInt16).toNat = 1 := rfl
  rw [UInt16.toNat_sub, UInt16.toNat_sub, UInt16.toNat_add, hlit, hone]
  omega

/-- A sum with a flag gets smaller when the flag is cleared or else the number shrinks. -/
theorem add_flag_lt {d d' : Nat} (b : Bool) (h : b = true → d' ≤ d) (h' : b = false → d' < d) :
    d' + (if false = true then 1 else 0) < d + if b = true then 1 else 0 := by
  cases b with
  | true => exact Nat.lt_succ_of_le (h rfl)
  | false => exact h' rfl

theorem afterFetch_idleDistance {c : Cpu} (h : c.pc ≠ 0xFEA0) :
    idleDistance (afterFetch c) < idleDistance c := by
  have hpc := afterFetch_pc c
  unfold idleDistance
  rw [afterFetch_haltBug]
  refine add_flag_lt c.haltBug (fun hb => ?_) (fun hb => ?_)
  · exact Nat.le_of_eq (by rw [hpc, if_pos hb])
  · rw [hpc, if_neg (ne_true_of_eq_false hb)]
    exact sub_succ_lt h

theorem haltSkip_ge (idleBudget : Int) (t : Timer) (i : Irq) : 4 ≤ haltSkip idleBudget t i := by
  unfold haltSkip; dsimp only; split <;> omega

/-- The kinds of step by cost: a dispatch or a legal instruction, a halted skip, or an illegal
opcode that only moves PC. -/
theorem cpuStep_cost (env : Env σ) (idleBudget : Int) (g : GBEmulator σ) :
    CostOK (cpuStep env idleBudget g).1 ∨
    cpuStep env idleBudget g = (haltSkip idleBudget g.bus.timer g.bus.irq, wake g) ∨
    (illegal (opcodeAt env g).toNat = true ∧ cpuStep env idleBudget g =
      (0, { wake g with cpu := afterFetch (wake g).cpu, bus := (readByte env g.cpu.pc g.bus).2 })) := by
  by_cases hd : dispatches g
  · rw [cpuStep_dispatch hd]
    have h : CostOK 20 := ⟨by decide, by decide, by decide⟩
    exact .inl h
  cases hh : (wake g).cpu.halted with
  | true => exact .inr (.inl (cpuStep_halted hd hh))
  | false =>
    have hop : opcodeAt env (wake g) = opcodeAt env g := by unfold opcodeAt; rw [wake_pc, wake_bus]
    rw [cpuStep_instruction hd hh]
    cases hill : illegal (opcodeAt env g).toNat with
    | true =>
      refine .inr (.inr ⟨rfl, ?_⟩)
      rw [runCpu_illegal (by rw [hop]; exact hill), wake_pc, wake_bus]
    | false =>
      rw [runCpu_instruction]
      exact .inl ((execute_legal (by rw [hop]; exact hill) _).runCpu env
        (g := { wake g with
          cpu := afterFetch (wake g).cpu, bus := (readByte env (wake g).cpu.pc (wake g).bus).2 })).1

/-- A step without a cost moves PC towards the unusable range, so only finitely many follow each
other. -/
theorem cpuStep_progress (env : Env σ) (idleBudget : Int) (g : GBEmulator σ) :
    4 ≤ (cpuStep env idleBudget g).1 ∨
    ((cpuStep env idleBudget g).1 = 0 ∧ idleDistance (cpuStep env idleBudget g).2.cpu <
      idleDistance g.cpu) := by
  rcases cpuStep_cost env idleBudget g with h | h | ⟨hill, h⟩
  · exact .inl h.pos
  · rw [h]; exact .inl (haltSkip_ge ..)
  · rw [h]
    refine .inr ⟨rfl, ?_⟩
    have hpc : (wake g).cpu.pc ≠ 0xFEA0 := by
      intro hpc
      rw [wake_pc] at hpc
      unfold opcodeAt at hill
      rw [hpc, readByte_unusable] at hill
      exact Bool.noConfusion hill
    have hw : idleDistance (wake g).cpu = idleDistance g.cpu := by
      unfold idleDistance; rw [wake_pc, wake_haltBug]
    rw [← hw]
    exact afterFetch_idleDistance hpc

theorem cpuStep_nonneg (env : Env σ) (idleBudget : Int) (g : GBEmulator σ) :
    0 ≤ (cpuStep env idleBudget g).1 := by
  rcases cpuStep_progress env idleBudget g with h | ⟨h, -⟩ <;> omega

/-! ## The timer -/

theorem whileDo_inv {α : Type} {P : α → Prop} {cond : α → Bool} {body : α → α}
    (hbody : ∀ s, P s → P (body s)) :
    ∀ (n : Nat) (s : α), P s → P (whileDo cond body n s)
  | 0, _, h => h
  | n + 1, s, h => by
    unfold whileDo
    split
    · exact whileDo_inv hbody n _ (hbody s h)
    · exact h

/-- The timer touches its registers and its request. -/
theorem updateTimer_eq (cycles : Int) (b : Bus σ) :
    ∃ t i, updateTimer cycles b = { b with timer := t, irq := i } := by
  unfold updateTimer
  dsimp only
  split
  · exact ⟨_, b.irq, rfl⟩
  · exact ⟨_, _, rfl⟩

theorem ofInt_mod_four {c : Int} (h : c % 4 = 0) : (UInt16.ofInt c).toNat % 4 = 0 := by
  unfold UInt16.ofInt; rw [UInt16.toNat_ofNat']; omega

theorem add_mod_four {a b : UInt16} (ha : a.toNat % 4 = 0) (hb : b.toNat % 4 = 0) :
    (a + b).toNat % 4 = 0 := by
  rw [UInt16.toNat_add]; omega

theorem timaStep_mod_four (tac : UInt8) (s : Timer × Irq) (h : s.1.timerCounter.toNat % 4 = 0) :
    (timaStep (timerFreq tac) s).1.timerCounter.toNat % 4 = 0 := by
  have hfreq : (timerFreq tac).toNat % 4 = 0 := by unfold timerFreq; split <;> rfl
  have hlt := (timerFreq tac).toNat_lt
  have hsub : (s.1.timerCounter - timerFreq tac).toNat % 4 = 0 := by rw [UInt16.toNat_sub]; omega
  unfold timaStep
  dsimp only
  split <;> exact hsub

/-- Whole machine cycles keep the timer's sub-period a whole number of machine cycles. -/
theorem updateTimer_mod_four {cycles : Int} (hc : cycles % 4 = 0) {b : Bus σ}
    (h : b.timer.timerCounter.toNat % 4 = 0) : (updateTimer cycles b).timer.timerCounter.toNat % 4 = 0 := by
  have hdiv : ∀ n (t : Timer), t.timerCounter.toNat % 4 = 0 →
      (whileDo (fun t => decide (256 ≤ t.divCounter)) divStep n t).timerCounter.toNat % 4 = 0 :=
    fun n t => whileDo_inv (P := fun t => t.timerCounter.toNat % 4 = 0)
      (fun t ht => show (divStep t).timerCounter.toNat % 4 = 0 from ht) n t
  unfold updateTimer
  dsimp only
  split
  · exact hdiv _ _ h
  · refine whileDo_inv (P := fun s => s.1.timerCounter.toNat % 4 = 0)
      (fun s hs => timaStep_mod_four _ s hs) _ _ ?_
    exact add_mod_four (hdiv 256 { b.timer with divCounter := b.timer.divCounter + UInt16.ofInt cycles } h)
      (ofInt_mod_four hc)

/-! ## The PPU -/

/-- Output and PPU steps touch the LCD registers, the requests and the framebuffers. -/
structure PpuFrame (b b' : Bus σ) : Prop where
  eq : b' = { b with lcd := b'.lcd, irq := b'.irq, screen := b'.screen }

theorem PpuFrame.trans {b₁ b₂ b₃ : Bus σ} (h : PpuFrame b₁ b₂) (h' : PpuFrame b₂ b₃) : PpuFrame b₁ b₃ :=
  ⟨by rw [h'.eq, h.eq]⟩

theorem checkStatInterrupt_frame (b : Bus σ) : PpuFrame b (checkStatInterrupt b) := by
  unfold checkStatInterrupt; split <;> exact ⟨rfl⟩

theorem enterTransfer_frame (b : Bus σ) : PpuFrame b (enterTransfer b) := by
  unfold enterTransfer; split
  · exact PpuFrame.trans ⟨rfl⟩ (checkStatInterrupt_frame _)
  · exact ⟨rfl⟩

theorem finishLine_frame (b : Bus σ) : PpuFrame b (finishLine b) := by
  unfold finishLine renderLine
  repeat' split
  all_goals exact ⟨rfl⟩

theorem enterHBlank_frame (b : Bus σ) : PpuFrame b (enterHBlank b) := by
  unfold enterHBlank; split
  · exact (finishLine_frame b).trans (PpuFrame.trans ⟨rfl⟩ (checkStatInterrupt_frame _))
  · exact ⟨rfl⟩

theorem enterNextLine_frame (b : Bus σ) : PpuFrame b (enterNextLine b) := by
  unfold enterNextLine; split
  · exact PpuFrame.trans ⟨rfl⟩ (checkStatInterrupt_frame _)
  · exact ⟨rfl⟩

theorem ppuAdvance_frame (dots : Int) (b : Bus σ) : PpuFrame b (ppuAdvance dots b) :=
  (PpuFrame.trans ⟨rfl⟩ (enterTransfer_frame _)).trans ((enterHBlank_frame _).trans (enterNextLine_frame _))

/-! ## Whole frames -/

/-- A step and the timer update that follows it in the inner loop. -/
def timedStep (env : Env σ) (idleBudget : Int) (g : GBEmulator σ) : Int × GBEmulator σ :=
  let r := cpuStep env idleBudget g
  (r.1, { r.2 with bus := updateTimer r.1 r.2.bus })

theorem chunkLoop_done {budget cycles : Int} {g : GBEmulator σ}
    (h : ¬ (cycles < budget ∧ ¬ g.bus.lcd.lcdChanged = true))
    (fuel : Nat) : chunkLoop env budget fuel cycles g = some (cycles, g) := by
  unfold chunkLoop; exact if_neg h

theorem chunkLoop_zero {budget cycles : Int} {g : GBEmulator σ}
    (h : cycles < budget ∧ ¬ g.bus.lcd.lcdChanged = true) :
    chunkLoop env budget 0 cycles g = none := by
  unfold chunkLoop; exact if_pos h

theorem chunkLoop_succ {budget cycles : Int} {g : GBEmulator σ}
    (h : cycles < budget ∧ ¬ g.bus.lcd.lcdChanged = true)
    (fuel : Nat) : chunkLoop env budget (fuel + 1) cycles g =
      chunkLoop env budget fuel (cycles + (timedStep env (budget - cycles) g).1)
        (timedStep env (budget - cycles) g).2 := by
  rw [chunkLoop]
  exact if_pos h

/-- What steps, the timer and PPU updates keep. -/
structure FrameInv (env : Env σ) (P : GBEmulator σ → Prop) : Prop where
  step : ∀ idleBudget g, P g → P (cpuStep env idleBudget g).2
  timer : ∀ g t i, P g → P { g with bus := { g.bus with timer := t, irq := i } }
  ppu : ∀ g l i s, P g → P { g with bus := { g.bus with lcd := l, irq := i, screen := s } }

namespace FrameInv

variable {P : GBEmulator σ → Prop} (hP : FrameInv env P)

include hP

theorem timedStep_inv (idleBudget : Int) {g : GBEmulator σ} (h : P g) :
    P (timedStep env idleBudget g).2 := by
  unfold timedStep
  obtain ⟨t, i, ht⟩ := updateTimer_eq (cpuStep env idleBudget g).1 (cpuStep env idleBudget g).2.bus
  dsimp only
  rw [ht]
  exact hP.timer _ t i (hP.step _ g h)

theorem chunkLoop_inv (budget : Int) :
    ∀ (fuel : Nat) (cycles : Int) (g : GBEmulator σ) (r : Int × GBEmulator σ),
    P g → chunkLoop env budget fuel cycles g = some r → P r.2
  | fuel, cycles, g, r, h, hr => by
    by_cases hc : cycles < budget ∧ ¬ g.bus.lcd.lcdChanged = true
    · cases fuel with
      | zero => rw [chunkLoop_zero hc] at hr; cases hr
      | succ fuel =>
        rw [chunkLoop_succ hc] at hr
        exact chunkLoop_inv budget fuel _ _ r (hP.timedStep_inv _ h) hr
    · rw [chunkLoop_done hc] at hr
      obtain rfl := Option.some.inj hr
      exact h

theorem endChunk_inv (s : FrameState σ) {r : Int × GBEmulator σ} (h : P r.2) : P (endChunk s r).gb := by
  unfold endChunk
  dsimp only
  split
  · exact h
  · rw [(ppuAdvance_frame _ r.2.bus).eq]; exact hP.ppu _ _ _ _ h

theorem frameStep_inv {s s' : FrameState σ} (h : P s.gb) (hs : frameStep env s = some s') : P s'.gb := by
  obtain ⟨r, hr, rfl⟩ := Option.map_eq_some_iff.mp hs
  exact hP.endChunk_inv s (hP.chunkLoop_inv _ _ _ _ r (hP.ppu _ _ _ _ h) hr)

theorem frameLoop_inv : ∀ (fuel : Nat) {s s' : FrameState σ}, P s.gb →
    frameLoop env fuel s = some s' → P s'.gb
  | fuel, s, s', h, hs => by
    unfold frameLoop at hs
    split at hs
    · cases fuel with
      | zero => cases hs
      | succ fuel =>
        obtain ⟨s₁, hs₁, hs⟩ := Option.bind_eq_some_iff.mp hs
        exact frameLoop_inv fuel (hP.frameStep_inv h hs₁) hs
    · obtain rfl := Option.some.inj hs
      exact h

/-- An invariant of steps, timer and PPU is an invariant of whole frames. -/
theorem runFrame_inv {g g' : GBEmulator σ} {spent : Int} (h : P g)
    (hr : runFrame env g = some (g', spent)) : P g' := by
  unfold runFrame at hr
  obtain ⟨s, hs, hg⟩ := Option.map_eq_some_iff.mp hr
  obtain ⟨rfl, -⟩ := Prod.mk.inj hg
  exact hP.ppu _ _ _ _ (hP.frameLoop_inv _ (s := { elapsed := _, spent := 0, gb := g }) h hs)

end FrameInv

end FoloGameboy

/-
Runs of the machine with a log: each bus operation of a step adds its entries, in order, and a relation between
the log and the bus that every operation keeps holds after a run and within the next step.
-/
import FoloGameboy.Core.Stat

namespace FoloGameboy

open Effect

variable {σ ε : Type} {env : Env σ} {w : BusOp → Bus σ → List ε}

/-- What the next step adds to a log, given what each operation adds. -/
def stepLog (env : Env σ) (w : BusOp → Bus σ → List ε) (g : GBEmulator σ) : List ε :=
  (stepTrace env g).flatMap fun e => w e.1 e.2

/-- A run of the machine from a state, with its log: steps of the processor, moves of the timer and the PPU,
and what the host sets between frames. -/
inductive LoggedRun (env : Env σ) (w : BusOp → Bus σ → List ε) (g₀ : GBEmulator σ) : List ε → GBEmulator σ → Prop
  | start : LoggedRun env w g₀ [] g₀
  | step {log : List ε} {g : GBEmulator σ} (idleBudget : Int) (h : LoggedRun env w g₀ log g) :
      LoggedRun env w g₀ (log ++ stepLog env w g) (cpuStep env idleBudget g).2
  | timer {log : List ε} {g : GBEmulator σ} (t : Timer) (i : Irq) (h : LoggedRun env w g₀ log g) :
      LoggedRun env w g₀ log { g with bus := { g.bus with timer := t, irq := i } }
  | ppu {log : List ε} {g : GBEmulator σ} (l : Lcd) (i : Irq) (s : Screen) (h : LoggedRun env w g₀ log g) :
      LoggedRun env w g₀ log { g with bus := { g.bus with lcd := l, irq := i, screen := s } }
  | host {log : List ε} {g : GBEmulator σ} (j : Joypad) (i : Irq) (render : Bool) (frames : Int)
      (h : LoggedRun env w g₀ log g) :
      LoggedRun env w g₀ log
        { g with bus := { g.bus with pad := j, irq := i, renderThisFrame := render }, frameCount := frames }

/-- A relation between the log and the bus that nothing in a run breaks. -/
structure LogInv (env : Env σ) (w : BusOp → Bus σ → List ε) (R : List ε → Bus σ → Prop) : Prop where
  op : ∀ o log b, R log b → R (log ++ w o b) (busStep env o b).2
  timer : ∀ log b t i, R log b → R log { b with timer := t, irq := i }
  ppu : ∀ log b l i s, R log b → R log { b with lcd := l, irq := i, screen := s }
  host : ∀ log b j i render, R log b → R log { b with pad := j, irq := i, renderThisFrame := render }

namespace LogInv

variable {R : List ε → Bus σ → Prop} {log : List ε} {g g₀ : GBEmulator σ}

theorem cpuStep_logged (hR : LogInv env w R) (idleBudget : Int) (h : R log g.bus) :
    R (log ++ stepLog env w g) (cpuStep env idleBudget g).2.bus := by
  unfold stepLog stepTrace
  by_cases hd : dispatches g
  · -- an interrupt is taken: the program is its dispatch
    rw [cpuStep_dispatch hd, if_pos hd]
    exact Prog.run_logged hR.op _ log g.bus h
  rw [if_neg hd]
  cases hh : (wake g).cpu.halted with
  | false =>
    rw [cpuStep_instruction hd hh, if_neg Bool.false_ne_true]
    have hrun := Prog.run_logged hR.op (instruction.run (wake g).cpu) log g.bus h
    rw [← wake_bus g] at hrun ⊢
    exact hrun
  | true =>
    -- a halted processor leaves the bus alone
    rw [cpuStep_halted hd hh, if_pos rfl, List.flatMap_nil, List.append_nil]
    show R log (wake g).bus
    rw [wake_bus]
    exact h

/-- Within a step it holds of what the operations before have added. -/
theorem stepTrace_logged (hR : LogInv env w R) (h : R log g.bus) {pre post : List (BusOp × Bus σ)}
    {e : BusOp × Bus σ} (he : stepTrace env g = pre ++ e :: post) : R (log ++ pre.flatMap fun e => w e.1 e.2) e.2 := by
  unfold stepTrace at he
  split at he
  · exact Prog.trace_logged hR.op _ log g.bus h pre e post he
  split at he
  · exact absurd he.symm (List.append_ne_nil_of_right_ne_nil _ (List.cons_ne_nil _ _))
  · exact Prog.trace_logged hR.op _ log g.bus h pre e post he

theorem run (hR : LogInv env w R) (h₀ : R [] g₀.bus) (hrun : LoggedRun env w g₀ log g) : R log g.bus := by
  induction hrun with
  | start => exact h₀
  | step idleBudget _ ih => exact hR.cpuStep_logged idleBudget ih
  | timer t i _ ih => exact hR.timer _ _ t i ih
  | ppu l i s _ ih => exact hR.ppu _ _ l i s ih
  | host j i render frames _ ih => exact hR.host _ _ j i render ih

end LogInv

namespace LoggedRun

variable {g₀ g g' : GBEmulator σ} {log log' : List ε}

theorem trans (h : LoggedRun env w g₀ log g) (h' : LoggedRun env w g log' g') :
    LoggedRun env w g₀ (log ++ log') g' := by
  induction h' with
  | start => rw [List.append_nil]; exact h
  | step idleBudget _ ih => rw [← List.append_assoc]; exact ih.step idleBudget
  | timer t i _ ih => exact ih.timer t i
  | ppu l i s _ ih => exact ih.ppu l i s
  | host j i render frames _ ih => exact ih.host j i render frames

end LoggedRun

/-- A frame is such a run. -/
theorem runFrame_logged {g g' : GBEmulator σ} {spent : Int} (hr : runFrame env g = some (g', spent)) :
    ∃ log, LoggedRun env w g log g' := by
  have hinv : FrameInv env fun g' : GBEmulator σ => ∃ log, LoggedRun env w g log g' := {
    step := fun idleBudget _ ⟨_, h⟩ => ⟨_, h.step idleBudget⟩
    timer := fun _ t i ⟨_, h⟩ => ⟨_, h.timer t i⟩
    ppu := fun _ l i s ⟨_, h⟩ => ⟨_, h.ppu l i s⟩ }
  exact hinv.runFrame_inv ⟨[], .start⟩ hr

end FoloGameboy

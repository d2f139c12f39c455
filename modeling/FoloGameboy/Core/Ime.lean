/-
The interrupt master enable over runs of `cpu_step`, with the devices free to raise requests between
any two steps: after a dispatch interrupts stay masked until the handler enables them, provided no EI
was still pending when the dispatch happened.
-/
import FoloGameboy.Core.Reach

namespace FoloGameboy

variable {σ : Type} {env : Env σ}

/-! ## Runs of steps -/

/-- What one step did. -/
inductive Event where
  | dispatched
  | halted
  | executed (op : UInt8)
deriving DecidableEq

def stepEvent (env : Env σ) (g : GBEmulator σ) : Event :=
  if dispatches g then .dispatched else if (wake g).cpu.halted then .halted else .executed (opcodeAt env g)

/-- What the devices do to the bus between two steps. -/
inductive DeviceStep (b : Bus σ) : Bus σ → Prop where
  | timer (cycles : Int) : DeviceStep b (updateTimer cycles b)
  | ppu (dots : Int) : DeviceStep b (ppuAdvance dots b)
  | input (buttons : UInt8) : DeviceStep b (setInput buttons b)

/-- Steps from `g₀`, with the devices running in between. -/
inductive Steps (env : Env σ) (g₀ : GBEmulator σ) : List Event → GBEmulator σ → Prop where
  | start : Steps env g₀ [] g₀
  | step {evs : List Event} {g : GBEmulator σ} (idleBudget : Int) (h : Steps env g₀ evs g) :
      Steps env g₀ (evs ++ [stepEvent env g]) (cpuStep env idleBudget g).2
  | device {evs : List Event} {g : GBEmulator σ} {b : Bus σ} (h : Steps env g₀ evs g) (hd : DeviceStep g.bus b) :
      Steps env g₀ evs { g with bus := b }

/-- Some instruction among the events has enabled interrupts: RETI, or EI and one more instruction. -/
def Enabled (evs : List Event) : Prop :=
  .executed 0xD9 ∈ evs ∨ ∃ before after op, evs = before ++ .executed 0xFB :: after ∧ .executed op ∈ after

theorem Enabled.append {evs : List Event} (h : Enabled evs) (tail : List Event) :
    Enabled (evs ++ tail) := by
  rcases h with h | ⟨before, after, op, rfl, hop⟩
  · exact .inl (List.mem_append_left tail h)
  · exact .inr ⟨before, after ++ tail, op, by rw [List.append_assoc]; rfl, List.mem_append_left tail hop⟩

/-- An EI is the last instruction among the events. -/
def EndsInEi (evs : List Event) : Prop :=
  ∃ before after, evs = before ++ .executed 0xFB :: after ∧ ∀ op, .executed op ∉ after

/-! ## One step -/

variable (env) in
theorem step_dispatched {g : GBEmulator σ} (h : dispatches g) (idleBudget : Int) :
    (cpuStep env idleBudget g).2.cpu.ime = false ∧
      (cpuStep env idleBudget g).2.cpu.eiPending = g.cpu.eiPending := by
  rw [cpuStep_dispatch h]
  have hends : Ends (dispatch (pendingIrqs g.bus.irq)) { g.cpu with halted := false }
      fun _ c' => c'.ime = false ∧ c'.eiPending = g.cpu.eiPending := by
    simp [dispatch]
  exact hends.runCpu env (g := { g with cpu := { g.cpu with halted := false } })

variable (env) in
theorem step_halted {g : GBEmulator σ} (h : ¬ dispatches g) (hh : (wake g).cpu.halted = true)
    (idleBudget : Int) :
    (cpuStep env idleBudget g).2.cpu.ime = g.cpu.ime ∧
      (cpuStep env idleBudget g).2.cpu.eiPending = g.cpu.eiPending := by
  rw [cpuStep_halted h hh]
  exact ⟨wake_ime g, wake_eiPending g⟩

variable (env) in
/-- An executed instruction runs with the pending EI promoted, and leaves what its opcode says. -/
theorem step_executed {g : GBEmulator σ} (h : ¬ dispatches g) (hh : (wake g).cpu.halted = false)
    (idleBudget : Int) :
    ((cpuStep env idleBudget g).2.cpu.ime, (cpuStep env idleBudget g).2.cpu.eiPending) =
      imeAfter (opcodeAt env g).toNat { g.cpu with
        ime := g.cpu.ime || g.cpu.eiPending, eiPending := false } := by
  have hop : opcodeAt env (wake g) = opcodeAt env g := by unfold opcodeAt; rw [wake_pc, wake_bus]
  have hafter : imeAfter (opcodeAt env g).toNat (afterFetch (wake g).cpu) =
      imeAfter (opcodeAt env g).toNat { g.cpu with
        ime := g.cpu.ime || g.cpu.eiPending, eiPending := false } := by
    unfold imeAfter
    rw [afterFetch_ime, afterFetch_eiPending, wake_ime, wake_eiPending]
  rw [cpuStep_instruction h hh]
  cases hill : illegal (opcodeAt env g).toNat with
  | true =>
    rw [runCpu_illegal (by rw [hop]; exact hill), ← hafter]
    show ((afterFetch (wake g).cpu).ime, (afterFetch (wake g).cpu).eiPending) = _
    unfold imeAfter
    have hne : ∀ n, illegal n = false → ¬ (opcodeAt env g).toNat = n := by
      rintro n hn rfl
      rw [hill] at hn; cases hn
    rw [if_neg (hne 0xD9 rfl), if_neg (hne 0xF3 rfl), if_neg (hne 0xFB rfl)]
  | false =>
    rw [runCpu_instruction, ← hafter, hop]
    exact ((execute_legal hill _).runCpu env (g := { wake g with
      cpu := afterFetch (wake g).cpu, bus := (readByte env (wake g).cpu.pc (wake g).bus).2 })).2

theorem not_dispatches_of_masked {g : GBEmulator σ} (h : g.cpu.ime = false) : ¬ dispatches g :=
  fun hd => Bool.noConfusion (h.symm.trans hd.2)

/-! ## Inside a handler -/

/-- Interrupts are masked, and a pending EI is the last instruction of the handler so far. -/
structure MaskedOK (evs : List Event) (c : Cpu) : Prop where
  ime : c.ime = false
  eiPending : c.eiPending = true → EndsInEi evs

theorem MaskedOK.step {evs : List Event} {g : GBEmulator σ} (h : MaskedOK evs g.cpu) (idleBudget : Int)
    (hn : ¬ Enabled (evs ++ [stepEvent env g])) :
    MaskedOK (evs ++ [stepEvent env g]) (cpuStep env idleBudget g).2.cpu := by
  have hd := not_dispatches_of_masked h.ime
  cases hh : (wake g).cpu.halted with
  | true =>
    obtain ⟨hime, hei⟩ := step_halted env hd hh idleBudget
    refine ⟨hime.trans h.ime, fun hp => ?_⟩
    obtain ⟨before, after, rfl, hafter⟩ := h.eiPending (hei.symm.trans hp)
    have hev : stepEvent env g = .halted := by unfold stepEvent; rw [if_neg hd, if_pos hh]
    refine ⟨before, after ++ [.halted], by rw [hev, List.append_assoc]; rfl, fun op hop => ?_⟩
    rcases List.mem_append.mp hop with hop | hop
    · exact hafter op hop
    · cases List.mem_singleton.mp hop
  | false =>
    have hev : stepEvent env g = .executed (opcodeAt env g) := by
      unfold stepEvent; rw [if_neg hd, if_neg (ne_true_of_eq_false hh)]
    -- a pending EI would have been followed by this instruction
    have hei : g.cpu.eiPending = false := by
      by_contra hp
      obtain ⟨before, after, rfl, -⟩ := h.eiPending (eq_true_of_ne_false hp)
      refine hn (.inr ⟨before, after ++ [stepEvent env g], opcodeAt env g,
        by rw [List.append_assoc]; rfl, ?_⟩)
      rw [hev]; exact List.mem_append_right _ (List.mem_singleton_self _)
    have hreti : (opcodeAt env g).toNat ≠ 0xD9 := by
      intro hop
      have hop : opcodeAt env g = 0xD9 := UInt8.toNat_inj.mp hop
      refine hn (.inl ?_)
      rw [hev, hop]; exact List.mem_append_right _ (List.mem_singleton_self _)
    have hstep := step_executed env hd hh idleBudget
    unfold imeAfter at hstep
    rw [if_neg hreti, h.ime, hei] at hstep
    split at hstep
    · obtain ⟨h₁, h₂⟩ := Prod.mk.inj hstep
      exact ⟨h₁, fun hp => Bool.noConfusion (h₂.symm.trans hp)⟩
    split at hstep
    · rename_i hop
      have hop : opcodeAt env g = 0xFB := UInt8.toNat_inj.mp hop
      obtain ⟨h₁, -⟩ := Prod.mk.inj hstep
      exact ⟨h₁, fun _ => ⟨evs, [], by rw [hev, hop], fun _ => List.not_mem_nil⟩⟩
    · obtain ⟨h₁, h₂⟩ := Prod.mk.inj hstep
      exact ⟨h₁, fun hp => Bool.noConfusion (h₂.symm.trans hp)⟩

/-! ## Handlers start masked -/

/-- Handlers start masked in every run from `g₀`: after a dispatch, until the handler has enabled
interrupts, IME is off and nothing is dispatched. -/
def MaskedHandlers (Run : List Event → GBEmulator σ → Prop) : Prop :=
  ∀ (evs : List Event) (g : GBEmulator σ), Run evs g → ∀ before evs', evs = before ++ .dispatched :: evs' →
    ¬ Enabled evs' → g.cpu.ime = false ∧ ¬ dispatches g

/-- The runs in which no dispatch happens while an EI is still pending. -/
inductive CleanSteps (env : Env σ) (g₀ : GBEmulator σ) : List Event → GBEmulator σ → Prop where
  | start : CleanSteps env g₀ [] g₀
  | step {evs : List Event} {g : GBEmulator σ} (idleBudget : Int) (h : CleanSteps env g₀ evs g)
      (hc : dispatches g → g.cpu.eiPending = false) :
      CleanSteps env g₀ (evs ++ [stepEvent env g]) (cpuStep env idleBudget g).2
  | device {evs : List Event} {g : GBEmulator σ} {b : Bus σ} (h : CleanSteps env g₀ evs g) (hd : DeviceStep g.bus b) :
      CleanSteps env g₀ evs { g with bus := b }

theorem CleanSteps.masked {g₀ g : GBEmulator σ} {evs : List Event} (h : CleanSteps env g₀ evs g) :
    ∀ before evs', evs = before ++ .dispatched :: evs' → ¬ Enabled evs' → MaskedOK evs' g.cpu := by
  induction h with
  | start =>
    intro before evs' hs
    exact absurd hs (by simp)
  | device _ _ ih => exact ih
  | step idleBudget _ hc ih =>
    rename_i evs g _
    intro before evs' hs hn
    rcases List.eq_nil_or_concat evs' with rfl | ⟨evs₁, ev, rfl⟩
    · -- the dispatch is this step
      obtain ⟨-, hev⟩ := List.append_inj' hs rfl
      have hd : dispatches g := by
        by_contra hd
        unfold stepEvent at hev
        rw [if_neg hd] at hev
        split at hev <;> cases hev
      obtain ⟨hime, hei⟩ := step_dispatched env hd idleBudget
      exact ⟨hime, fun hp => Bool.noConfusion ((hei.trans (hc hd)).symm.trans hp)⟩
    · rw [List.concat_eq_append] at hs hn ⊢
      rw [← List.cons_append, ← List.append_assoc] at hs
      obtain ⟨hprev, hev⟩ := List.append_inj' hs rfl
      obtain rfl := List.singleton_inj.mp hev
      exact (ih before evs₁ hprev fun he => hn (he.append _)).step idleBudget hn

theorem Steps.no_events {g₀ g : GBEmulator σ} {evs : List Event} (h : Steps env g₀ evs g) (hs : evs = []) :
    g.cpu = g₀.cpu := by
  induction h with
  | start => rfl
  | step _ _ _ => exact absurd hs (by simp)
  | device _ _ ih => exact ih hs

theorem Steps.one_event {g₀ g : GBEmulator σ} {evs : List Event} {ev : Event} (h : Steps env g₀ evs g)
    (hs : evs = [ev]) : ∃ g₁ idleBudget, g₁.cpu = g₀.cpu ∧ ev = stepEvent env g₁ ∧
      g.cpu = (cpuStep env idleBudget g₁).2.cpu := by
  induction h with
  | start => cases hs
  | step idleBudget h _ =>
    rename_i evs g₁ _
    obtain ⟨hnil, hev⟩ := List.append_eq_singleton_iff.mp hs |>.resolve_right (by simp)
    exact ⟨g₁, idleBudget, h.no_events hnil, (List.singleton_inj.mp hev).symm, rfl⟩
  | device _ _ ih => exact ih hs

/-- With an EI pending at the dispatch, the first instruction of the handler leaves IME on, unless it
is DI. -/
theorem dispatch_pending {g g' : GBEmulator σ} (hd : dispatches g) (hp : g.cpu.eiPending = true)
    {idleBudget : Int}
    {op : UInt8} (hop : op ≠ 0xF3) (h : Steps env (cpuStep env idleBudget g).2 [.executed op] g') :
    g'.cpu.ime = true := by
  obtain ⟨g₁, idleBudget₁, hcpu, hev, hg'⟩ := h.one_event rfl
  obtain ⟨hime, hei⟩ := step_dispatched env hd idleBudget
  have hd₁ : ¬ dispatches g₁ := not_dispatches_of_masked (by rw [hcpu]; exact hime)
  unfold stepEvent at hev
  rw [if_neg hd₁] at hev
  split at hev
  · cases hev
  rename_i hh
  obtain rfl := Event.executed.inj hev
  have hstep := step_executed env hd₁ (eq_false_of_ne_true hh) idleBudget₁
  rw [hcpu, hei, hp, Bool.or_true] at hstep
  unfold imeAfter at hstep
  rw [hg']
  have hne : (opcodeAt env g₁).toNat ≠ 0xF3 := fun h => hop (UInt8.toNat_inj.mp h)
  rw [if_neg hne] at hstep
  split at hstep
  · exact (Prod.mk.inj hstep).1
  split at hstep
  · exact (Prod.mk.inj hstep).1
  · exact (Prod.mk.inj hstep).1

/-- Handlers start masked in every run in which no dispatch happens while an EI is pending; a dispatch
with one pending lets the handler's first instruction turn IME on again, unless it is DI. -/
theorem handlers_masked (env : Env σ) (g₀ : GBEmulator σ) :
    MaskedHandlers (CleanSteps env g₀) ∧
    ∀ (g : GBEmulator σ), dispatches g → g.cpu.eiPending = true → ∀ (idleBudget : Int) (op : UInt8) (g' : GBEmulator σ),
      op ≠ 0xF3 → Steps env (cpuStep env idleBudget g).2 [.executed op] g' → g'.cpu.ime = true := by
  refine ⟨fun evs g h before evs' hs hn => ?_, fun g hd hp _ _ _ hop h => dispatch_pending hd hp hop h⟩
  have hm := h.masked before evs' hs hn
  exact ⟨hm.ime, not_dispatches_of_masked hm.ime⟩

/-! ## An EI that outlives its dispatch -/

/-- `LD A,10; LDH (FF),A; EI; NOP; EI`, with a NOP at every interrupt vector. -/
def eiProgram (i : Nat) : UInt8 :=
  match i with
  | 0x100 => 0x3E
  | 0x101 => 0x10
  | 0x102 => 0xE0
  | 0x103 => 0xFF
  | 0x104 => 0xFB
  | 0x106 => 0xFB
  | _ => 0x00

def eiSetup : Setup := { data := some ⟨0x8000, eiProgram⟩, size := 0x8000 }

def eiGame : GBEmulator Unit := (init true ((loadRom eiSetup.data eiSetup.size (prepare eiSetup)).getD {})).getD {}

/-- `n` steps of `eiProgram`. -/
def eiSteps : Nat → GBEmulator Unit
  | 0 => eiGame
  | n + 1 => (cpuStep blankEnv 456 (eiSteps n)).2

/-- The button is pressed after the fifth instruction. -/
def eiPressed : GBEmulator Unit := { eiSteps 5 with bus := setInput 0x10 (eiSteps 5).bus }

theorem eiSteps_run : ∀ n, ∃ evs, Steps blankEnv eiGame evs (eiSteps n)
  | 0 => ⟨[], .start⟩
  | n + 1 => by
    obtain ⟨evs, h⟩ := eiSteps_run n
    exact ⟨_, .step 456 h⟩

/-- Right after the second EI the button's interrupt is dispatched, and the handler's first NOP turns
interrupts on again: the next button would be dispatched inside the handler. -/
theorem ei_outlives_dispatch : ¬ ∀ g₀, Reachable blankEnv g₀ → MaskedHandlers (Steps blankEnv g₀) := by
  intro h
  obtain ⟨evs, hrun⟩ := eiSteps_run 5
  have hpressed : Steps blankEnv eiGame evs eiPressed := .device hrun (.input 0x10)
  have hnop := Steps.step 456 (.step 456 hpressed)
  have hdispatch : stepEvent blankEnv eiPressed = .dispatched := by decide +kernel
  have hexec : stepEvent blankEnv (cpuStep blankEnv 456 eiPressed).2 = .executed 0x00 := by decide +kernel
  have hnot : ¬ Enabled [.executed 0x00] := by
    rintro (hreti | ⟨before, after, op, heq, hop⟩)
    · cases List.mem_singleton.mp hreti
    · have hlen := congrArg List.length heq
      have hpos := List.length_pos_of_mem hop
      simp only [List.length_append, List.length_cons, List.length_nil] at hlen
      omega
  have hmask := h eiGame (.boot eiSetup rfl) _ _ hnop evs [.executed 0x00]
    (by rw [hdispatch, hexec, List.append_assoc]; rfl) hnot
  have hime : (cpuStep blankEnv 456 (cpuStep blankEnv 456 eiPressed).2).2.cpu.ime = true := by
    decide +kernel
  exact Bool.noConfusion (hime.symm.trans hmask.1)

end FoloGameboy

/-
The fast-forward of HALT: `cpu_step` in a halted state goes where a reference gets that takes 4
cycles for each halted step, through states in which the reference sleeps as well, so that whole
frames of a single-speed session are the same with and without it.
-/
import FoloGameboy.Core.Schedule
import FoloGameboy.Core.Timer

namespace FoloGameboy

variable {σ : Type} {env : Env σ}

/-! ## The reference -/

/-- `cpu_step` without the fast-forward: a halted step takes 4 cycles. -/
def cpuStepSlow (env : Env σ) (g : GBEmulator σ) : Int × GBEmulator σ :=
  let pending := pendingIrqs g.bus.irq
  if pending ≠ 0 ∧ g.cpu.ime then
    (20, (runCpu env (dispatch pending) { g with cpu := { g.cpu with halted := false } }).2)
  else
    let g := if pending ≠ 0 then { g with cpu := { g.cpu with halted := false } } else g
    if g.cpu.halted then (4, g) else runCpu env instruction g

def timedStepSlow (env : Env σ) (g : GBEmulator σ) : Int × GBEmulator σ :=
  let r := cpuStepSlow env g
  (r.1, { r.2 with bus := updateTimer r.1 r.2.bus })

/-- A number of steps of the reference, with their cycles. -/
def slowRun (env : Env σ) : Nat → GBEmulator σ → Int × GBEmulator σ
  | 0, g => (0, g)
  | n + 1, g =>
    let r := slowRun env n g
    let s := timedStepSlow env r.2
    (r.1 + s.1, s.2)

/-- The CPU is halted and nothing enabled is requested. -/
def Asleep (g : GBEmulator σ) : Prop := g.cpu.halted = true ∧ pendingIrqs g.bus.irq = 0

theorem Asleep.wake {g : GBEmulator σ} (h : Asleep g) : ¬ dispatches g ∧ FoloGameboy.wake g = g := by
  refine ⟨fun hd => hd.1 h.2, ?_⟩
  unfold FoloGameboy.wake
  exact if_neg (not_not.mpr h.2)

theorem cpuStep_asleep {g : GBEmulator σ} (h : Asleep g) (idleBudget : Int) :
    cpuStep env idleBudget g = (haltSkip idleBudget g.bus.timer g.bus.irq, g) := by
  obtain ⟨hd, hw⟩ := h.wake
  rw [cpuStep_halted hd (by rw [hw]; exact h.1), hw]

theorem cpuStepSlow_asleep {g : GBEmulator σ} (h : Asleep g) : cpuStepSlow env g = (4, g) := by
  unfold cpuStepSlow
  dsimp only
  rw [if_neg (fun hd => hd.1 h.2), if_neg (not_not.mpr h.2), if_pos h.1]

/-- The two steps differ in nothing else. -/
theorem cpuStepSlow_awake {g : GBEmulator σ} (h : ¬ Asleep g) (idleBudget : Int) :
    cpuStepSlow env g = cpuStep env idleBudget g := by
  by_cases hd : dispatches g
  · rw [cpuStep_dispatch hd]
    exact if_pos hd
  · have hh : (wake g).cpu.halted = false := by
      unfold wake
      split
      · rfl
      · rename_i hp
        exact eq_false_of_ne_true fun hh => h ⟨hh, not_not.mp hp⟩
    rw [cpuStep_instruction hd hh]
    exact (if_neg hd).trans (if_neg (ne_true_of_eq_false hh))

/-! ## Idle time -/

/-- The emulator after a number of idle cycles. -/
def idled (n : Nat) (g : GBEmulator σ) : GBEmulator σ :=
  { g with
    bus := { g.bus with
      timer := (timerAfter n g.bus.timer g.bus.irq).1, irq := (timerAfter n g.bus.timer g.bus.irq).2 } }

theorem idled_zero {g : GBEmulator σ} (h : Settled g.bus.timer) : idled 0 g = g := by
  unfold idled
  rw [h.timerAfter_zero]

theorem idled_add (m n : Nat) (g : GBEmulator σ) : idled (m + n) g = idled n (idled m g) := by
  unfold idled
  rw [timerAfter_add]

theorem updateTimer_idled {g : GBEmulator σ} (h : Settled g.bus.timer) {n : Nat} (hn : n ≤ 456) :
    { g with bus := updateTimer (n : Int) g.bus } = idled n g := by
  have hdiv := h.div
  have hcounter : hasBits g.bus.timer.tac 0x04 = true → g.bus.timer.timerCounter.toNat + n < 65536 := by
    intro hon
    have hlt := h.counter hon
    have hfreq := (timerFreq_bounds g.bus.timer.tac).2
    omega
  rw [updateTimer_after (by omega) hcounter]
  rfl

theorem Asleep.idled {g : GBEmulator σ} (h : Asleep g) {n : Nat}
    (hn : Armed g.bus.timer g.bus.irq → n < overflowIn g.bus.timer) :
    Asleep (idled n g) :=
  ⟨h.1, (timerAfter_pending hn).trans h.2⟩

/-- The reference sleeps through the cycles before an enabled overflow, 4 at a time. -/
theorem slowRun_asleep {g : GBEmulator σ} (h : Asleep g) (ht : Settled g.bus.timer) : ∀ (k : Nat),
    (Armed g.bus.timer g.bus.irq → 4 * k < overflowIn g.bus.timer + 4) →
      slowRun env k g = (4 * (k : Int), idled (4 * k) g)
  | 0, _ => by
    rw [Nat.mul_zero, idled_zero ht]
    rfl
  | k + 1, hk => by
    have hprev := slowRun_asleep h ht k fun ha => by have := hk ha; omega
    have hsleep : Asleep (idled (4 * k) g) := h.idled fun ha => by have := hk ha; omega
    have hsettled : Settled (idled (4 * k) g).bus.timer := timerAfter_settled _ _ _
    have hstep : timedStepSlow env (idled (4 * k) g) = (4, idled 4 (idled (4 * k) g)) := by
      unfold timedStepSlow
      rw [cpuStepSlow_asleep hsleep]
      exact congrArg (Prod.mk 4) (updateTimer_idled (n := 4) hsettled (by decide))
    have hcycles : 4 * (k : Int) + 4 = 4 * ((k + 1 : Nat) : Int) := by omega
    unfold slowRun
    rw [hprev]
    dsimp only
    rw [hstep, ← idled_add]
    exact congrArg (Prod.mk · _) hcycles

/-! ## The fast-forward -/

/-- Counters in whole machine cycles. -/
structure IdleOK (t : Timer) : Prop extends Settled t where
  mod_four : t.timerCounter.toNat % 4 = 0

theorem overflowIn_mod_four {t : Timer} (h : t.timerCounter.toNat % 4 = 0) : overflowIn t % 4 = 0 := by
  have hfreq := timerFreq_mod_four t.tac
  have hmul : (256 - t.tima.toNat) * (timerFreq t.tac).toNat % 4 = 0 := by
    rw [Nat.mul_mod, hfreq, Nat.mul_zero]
  unfold overflowIn
  omega

theorem Settled.overflowIn_pos {t : Timer} (h : Settled t) (hon : hasBits t.tac 0x04 = true) :
    0 < overflowIn t ∧ (overflowIn t : Int) = (256 - t.tima.toNat : Int) * (timerFreq t.tac).toNat -
      t.timerCounter.toNat := by
  have hcounter := h.counter hon
  have htima := t.tima.toNat_lt
  have hmul : (timerFreq t.tac).toNat ≤ (256 - t.tima.toNat) * (timerFreq t.tac).toNat :=
    Nat.le_mul_of_pos_left _ (by omega)
  have hcast : (((256 - t.tima.toNat) * (timerFreq t.tac).toNat : Nat) : Int) =
      (256 - t.tima.toNat : Int) * (timerFreq t.tac).toNat := by
    rw [Int.natCast_mul, Int.natCast_sub (by omega)]
    rfl
  unfold overflowIn
  rw [← hcast]
  omega

/-- What a halted step skips: whole machine cycles, up to the budget or an enabled overflow. -/
structure SkipOK (idleBudget : Int) (t : Timer) (i : Irq) (k : Nat) : Prop where
  skip : haltSkip idleBudget t i = 4 * (k : Int)
  pos : 1 ≤ k
  le : 4 * (k : Int) ≤ idleBudget
  overflow : Armed t i → 4 * k ≤ overflowIn t
  full : 4 * (k : Int) = idleBudget ∨ (Armed t i ∧ 4 * k = overflowIn t)

theorem haltSkip_ok {idleBudget : Int} (hpos : 1 ≤ idleBudget) (hmod : idleBudget % 4 = 0)
    {t : Timer} (h : IdleOK t) (i : Irq) :
    ∃ k, SkipOK idleBudget t i k := by
  have hover := overflowIn_mod_four h.mod_four
  by_cases ha : Armed t i ∧ (overflowIn t : Int) < idleBudget
  · obtain ⟨harmed, hlt⟩ := ha
    obtain ⟨hover0, hcast⟩ := h.overflowIn_pos harmed.1
    have hskip : haltSkip idleBudget t i = overflowIn t := by
      have hsoon : hasBits t.tac 0x04 = true ∧ hasBits i.ie 0x04 = true ∧ (0 : Int) < overflowIn t ∧
        overflowIn t < idleBudget :=
        ⟨harmed.1, harmed.2, by omega, hlt⟩
      unfold haltSkip
      dsimp only
      rw [← hcast, if_pos hsoon, if_neg (by omega)]
    refine ⟨overflowIn t / 4, ⟨by omega, by omega, by omega, fun _ => by omega, .inr ⟨harmed, by omega⟩⟩⟩
  · have hskip : haltSkip idleBudget t i = idleBudget := by
      have hlate : ¬ (hasBits t.tac 0x04 = true ∧ hasBits i.ie 0x04 = true ∧
          0 < (256 - t.tima.toNat : Int) * (timerFreq t.tac).toNat - t.timerCounter.toNat ∧
          (256 - t.tima.toNat : Int) * (timerFreq t.tac).toNat - t.timerCounter.toNat < idleBudget) := by
        rintro ⟨hon, hie, -, hlt⟩
        rw [← (h.overflowIn_pos hon).2] at hlt
        exact ha ⟨⟨hon, hie⟩, hlt⟩
      unfold haltSkip
      dsimp only
      rw [if_neg hlate, if_neg (by omega)]
    refine ⟨(idleBudget / 4).toNat, ⟨by omega, by omega, by omega, fun harmed => ?_, .inl (by omega)⟩⟩
    have hge : ¬ (overflowIn t : Int) < idleBudget := fun hlt => ha ⟨harmed, hlt⟩
    omega

/-- A halted step goes where the reference gets in steps of 4 cycles, through states in which it
sleeps as well. -/
structure FastForward (env : Env σ) (idleBudget : Int) (g : GBEmulator σ) (k : Nat) : Prop where
  reference : slowRun env k g = timedStep env idleBudget g
  cycles : (timedStep env idleBudget g).1 = 4 * (k : Int)
  pos : 1 ≤ k
  le : 4 * (k : Int) ≤ idleBudget
  asleep : ∀ j < k, slowRun env j g = (4 * (j : Int), idled (4 * j) g) ∧ Asleep (idled (4 * j) g)
  overflow : Armed g.bus.timer g.bus.irq → 4 * k ≤ overflowIn g.bus.timer ∧
    (4 * k = overflowIn g.bus.timer → pendingIrqs (timedStep env idleBudget g).2.bus.irq ≠ 0)

theorem timedStep_fastForward {idleBudget : Int} (hpos : 1 ≤ idleBudget) (hmod : idleBudget % 4 = 0)
    (hle : idleBudget ≤ 456)
    {g : GBEmulator σ} (h : Asleep g) (ht : IdleOK g.bus.timer) : ∃ k, FastForward env idleBudget g k := by
  obtain ⟨k, hskip⟩ := haltSkip_ok hpos hmod ht g.bus.irq
  have hbound := hskip.le
  have hcast : (4 * (k : Int)) = ((4 * k : Nat) : Int) := by omega
  have hstep : timedStep env idleBudget g = (4 * (k : Int), idled (4 * k) g) := by
    unfold timedStep
    rw [cpuStep_asleep h, hskip.skip]
    refine congrArg (Prod.mk _) ?_
    rw [hcast]
    exact updateTimer_idled ht.toSettled (by omega)
  have hslow : ∀ j ≤ k, slowRun env j g = (4 * (j : Int), idled (4 * j) g) := by
    intro j hj
    exact slowRun_asleep h ht.toSettled j fun ha => by have := hskip.overflow ha; omega
  refine ⟨k, ⟨?_, ?_, hskip.pos, hskip.le, ?_, fun ha => ⟨hskip.overflow ha, ?_⟩⟩⟩
  · rw [hstep]
    exact hslow k (Nat.le_refl k)
  · rw [hstep]
  · intro j hj
    exact ⟨hslow j (by omega), h.idled fun ha => by have := hskip.overflow ha; omega⟩
  · intro hend
    rw [hstep, hend]
    exact timerAfter_overflow ht.toSettled ha

/-! ## Chunks -/

/-- The inner loop of `runFrame` with the reference step. -/
def chunkLoopSlow (env : Env σ) (budget : Int) : Nat → Int → GBEmulator σ → Option (Int × GBEmulator σ)
  | fuel, cycles, g =>
    if cycles < budget ∧ ¬ g.bus.lcd.lcdChanged then
      match fuel with
      | 0 => none
      | fuel + 1 =>
        let (c, g) := cpuStepSlow env g
        chunkLoopSlow env budget fuel (cycles + c) { g with bus := updateTimer c g.bus }
    else some (cycles, g)

theorem chunkLoopSlow_done {budget cycles : Int} {g : GBEmulator σ}
    (h : ¬ (cycles < budget ∧ ¬ g.bus.lcd.lcdChanged = true))
    (fuel : Nat) : chunkLoopSlow env budget fuel cycles g = some (cycles, g) := by
  unfold chunkLoopSlow
  exact if_neg h

theorem chunkLoopSlow_succ {budget cycles : Int} {g : GBEmulator σ}
    (h : cycles < budget ∧ ¬ g.bus.lcd.lcdChanged = true)
    (fuel : Nat) : chunkLoopSlow env budget (fuel + 1) cycles g =
      chunkLoopSlow env budget fuel (cycles + (timedStepSlow env g).1) (timedStepSlow env g).2 := by
  rw [chunkLoopSlow]
  exact if_pos h

theorem cpuStepSlow_progress (env : Env σ) (g : GBEmulator σ) : 4 ≤ (cpuStepSlow env g).1 ∨
    ((cpuStepSlow env g).1 = 0 ∧ idleDistance (cpuStepSlow env g).2.cpu < idleDistance g.cpu) := by
  by_cases h : Asleep g
  · rw [cpuStepSlow_asleep h]
    exact .inl (Int.le_refl 4)
  · rw [cpuStepSlow_awake h 4]
    exact cpuStep_progress env 4 g

/-- The fuel of a chunk suffices for the reference too. -/
theorem chunkLoopSlow_isSome {budget : Int} (fuel : Nat) (cycles : Int) (g : GBEmulator σ)
    (hf : (budget - cycles).toNat * 65537 + idleDistance g.cpu ≤ fuel) :
    (chunkLoopSlow env budget fuel cycles g).isSome := by
  induction fuel generalizing cycles g with
  | zero =>
    by_cases hc : cycles < budget ∧ ¬ g.bus.lcd.lcdChanged = true
    · omega
    · rw [chunkLoopSlow_done hc]
      rfl
  | succ fuel ih =>
    by_cases hc : cycles < budget ∧ ¬ g.bus.lcd.lcdChanged = true
    · rw [chunkLoopSlow_succ hc]
      apply ih
      have hdist := idleDistance_le (timedStepSlow env g).2.cpu
      have hstep : 4 ≤ (timedStepSlow env g).1 ∨ ((timedStepSlow env g).1 = 0 ∧
          idleDistance (timedStepSlow env g).2.cpu < idleDistance g.cpu) := cpuStepSlow_progress env g
      rcases hstep with h | ⟨h, hlt⟩
      · exact fuel_step (by omega) (Nat.lt_succ_of_le hdist) hf
      · rw [h, Int.add_zero]
        exact Nat.le_of_lt_succ (Nat.lt_of_lt_of_le (Nat.add_lt_add_left hlt _) hf)
    · rw [chunkLoopSlow_done hc]
      rfl

/-- Two sufficient amounts of fuel give the same result. -/
theorem chunkLoopSlow_unique {budget : Int} :
    ∀ {fuel fuel' : Nat} {cycles : Int} {g : GBEmulator σ} {r r' : Int × GBEmulator σ},
    chunkLoopSlow env budget fuel cycles g = some r → chunkLoopSlow env budget fuel' cycles g =
      some r' → r = r' := by
  intro fuel
  induction fuel with
  | zero =>
    intro fuel' cycles g r r' h h'
    by_cases hc : cycles < budget ∧ ¬ g.bus.lcd.lcdChanged = true
    · unfold chunkLoopSlow at h
      rw [if_pos hc] at h
      cases h
    · rw [chunkLoopSlow_done hc] at h h'
      exact Option.some.inj (h.symm.trans h')
  | succ fuel ih =>
    intro fuel' cycles g r r' h h'
    by_cases hc : cycles < budget ∧ ¬ g.bus.lcd.lcdChanged = true
    · cases fuel' with
      | zero =>
        unfold chunkLoopSlow at h'
        rw [if_pos hc] at h'
        cases h'
      | succ fuel' =>
        rw [chunkLoopSlow_succ hc] at h h'
        exact ih h h'
    · rw [chunkLoopSlow_done hc] at h h'
      exact Option.some.inj (h.symm.trans h')

/-- The loop of the reference over the steps of one skip. -/
theorem FastForward.loop {idleBudget budget cycles : Int} {g : GBEmulator σ} {k : Nat}
    (h : FastForward env idleBudget g k)
    (hbudget : cycles + 4 * (k : Int) ≤ budget) (hch : ¬ g.bus.lcd.lcdChanged = true) (fuel : Nat) :
    ∀ j ≤ k,
    chunkLoopSlow env budget (fuel + j) cycles g =
      chunkLoopSlow env budget fuel (cycles + (slowRun env j g).1) (slowRun env j g).2 := by
  intro j
  induction j generalizing fuel with
  | zero =>
    intro _
    show chunkLoopSlow env budget fuel cycles g = chunkLoopSlow env budget fuel (cycles + 0) g
    rw [Int.add_zero]
  | succ j ih =>
    intro hj
    obtain ⟨hrun, -⟩ := h.asleep j (by omega)
    have hcond : cycles + (slowRun env j g).1 < budget ∧ ¬ (slowRun env j g).2.bus.lcd.lcdChanged =
        true := by
      rw [hrun]
      exact ⟨by show cycles + 4 * (j : Int) < budget; omega, hch⟩
    rw [← Nat.add_assoc, Nat.add_right_comm, ih (fuel + 1) (by omega), chunkLoopSlow_succ hcond,
      Int.add_assoc]
    rfl

/-- A state of the inner loop keeps the counters in whole machine cycles. -/
theorem timedStep_idleOK {idleBudget : Int} (hmod : idleBudget % 4 = 0) {g : GBEmulator σ}
    (h : IdleOK g.bus.timer) :
    (timedStep env idleBudget g).1 % 4 = 0 ∧ IdleOK (timedStep env idleBudget g).2.bus.timer := by
  obtain ⟨hcost, htimer⟩ := timedStep_mod_four env hmod h.mod_four
  exact ⟨hcost, ⟨updateTimer_settled _ _, htimer⟩⟩

theorem chunkLoop_slow {budget : Int} (hmod : budget % 4 = 0) (hle : budget ≤ 456) :
    ∀ (fuel : Nat) (cycles : Int)
    (g : GBEmulator σ) {r : Int × GBEmulator σ}, 0 ≤ cycles → cycles % 4 = 0 → IdleOK g.bus.timer →
    chunkLoop env budget fuel cycles g = some r → ∃ fuel', chunkLoopSlow env budget fuel' cycles g =
      some r := by
  intro fuel
  induction fuel with
  | zero =>
    intro cycles g r _ _ _ hr
    by_cases hc : cycles < budget ∧ ¬ g.bus.lcd.lcdChanged = true
    · rw [chunkLoop_zero hc] at hr
      cases hr
    · rw [chunkLoop_done hc] at hr
      exact ⟨0, (chunkLoopSlow_done hc 0).trans hr⟩
  | succ fuel ih =>
    intro cycles g r hnonneg hcy ht hr
    by_cases hc : cycles < budget ∧ ¬ g.bus.lcd.lcdChanged = true
    · rw [chunkLoop_succ hc] at hr
      obtain ⟨hcost, ht'⟩ := @timedStep_idleOK σ env _ (show (budget - cycles) % 4 = 0 by omega) _ ht
      have hforward : 0 ≤ (timedStep env (budget - cycles) g).1 := cpuStep_nonneg env _ g
      obtain ⟨fuel', hslow⟩ := ih _ _ (by omega) (by omega) ht' hr
      by_cases hsleep : Asleep g
      · obtain ⟨k, hk⟩ :=
          @timedStep_fastForward σ env _ (show 1 ≤ budget - cycles by omega) (by omega) (by omega) _
            hsleep ht
        have hend := hk.le
        have hloop := @FastForward.loop σ env _ budget cycles _ _ hk (by omega) hc.2 fuel' k (Nat.le_refl k)
        rw [hk.reference] at hloop
        exact ⟨fuel' + k, hloop.trans hslow⟩
      · have hstep : timedStepSlow env g = timedStep env (budget - cycles) g := by
          unfold timedStepSlow timedStep
          rw [cpuStepSlow_awake hsleep]
        refine ⟨fuel' + 1, ?_⟩
        rw [chunkLoopSlow_succ hc, hstep]
        exact hslow
    · rw [chunkLoop_done hc] at hr
      exact ⟨0, (chunkLoopSlow_done hc 0).trans hr⟩

/-! ## Frames -/

def runChunkSlow (env : Env σ) (s : FrameState σ) : Option (Int × GBEmulator σ) :=
  chunkLoopSlow env (chunkBudget s) (chunkFuel (chunkBudget s)) 0 (clearLcdChanged s.gb)

def frameStepSlow (env : Env σ) (s : FrameState σ) : Option (FrameState σ) := (runChunkSlow env s).map (endChunk s)

def frameLoopSlow (env : Env σ) : Nat → FrameState σ → Option (FrameState σ)
  | fuel, s =>
    if s.elapsed < FRAME_CYCLES then
      match fuel with
      | 0 => none
      | fuel + 1 => (frameStepSlow env s).bind (frameLoopSlow env fuel)
    else some s

/-- `runFrame` with the reference step. -/
def runFrameSlow (env : Env σ) (g : GBEmulator σ) : Option (GBEmulator σ × Int) :=
  (frameLoopSlow env FRAME_CYCLES.toNat { elapsed := g.bus.lcd.frameOvershoot, spent := 0, gb := g }).map
    fun s => (finishFrame s, s.spent)

theorem chunkBudget_single {start : Int} {s : FrameState σ} (h : PpuOK s.gb.bus.lcd) (ha : Aligned start s)
    (he : s.elapsed < FRAME_CYCLES) (hs : s.gb.bus.cgb.doubleSpeed = false) :
    1 ≤ chunkBudget s ∧ chunkBudget s % 4 = 0 ∧ chunkBudget s ≤ 456 := by
  have hspeed : speedOf s.gb.bus.cgb = 1 := by
    unfold speedOf
    rw [hs]
    rfl
  have hbudget : chunkBudget s = chunkDots s.elapsed s.gb.bus.lcd := by
    unfold chunkBudget
    rw [hspeed, Int.mul_one]
  have hmod := (chunkDots_mod_four ha.elapsed ha.dots).1
  have hle : chunkDots s.elapsed s.gb.bus.lcd ≤ 456 := by
    by_cases hon : LcdOn s.gb.bus.lcd
    · have hend := chunkDots_le s.elapsed hon
      have hphase := phaseBoundary_le s.gb.bus.lcd
      have hdots := (h.dots hon).1
      omega
    · unfold LcdOn at hon
      unfold chunkDots
      dsimp only
      rw [if_neg hon]
      split <;> omega
  exact ⟨chunkBudget_pos h he, by omega, by omega⟩

theorem runChunk_slow {start : Int} {s : FrameState σ} (h : PpuOK s.gb.bus.lcd)
    (ha : Aligned start s) (ht : Settled s.gb.bus.timer)
    (he : s.elapsed < FRAME_CYCLES) (hs : s.gb.bus.cgb.doubleSpeed = false) :
    runChunkSlow env s = runChunk env s := by
  obtain ⟨-, hmod, hle⟩ := chunkBudget_single h ha he hs
  obtain ⟨r, hr⟩ := Option.isSome_iff_exists.mp (@runChunk_isSome σ env s)
  have hfuel : (chunkBudget s - 0).toNat * 65537 + idleDistance (clearLcdChanged s.gb).cpu ≤
      chunkFuel (chunkBudget s) := by
    have hdist := idleDistance_le (clearLcdChanged s.gb).cpu
    unfold chunkFuel
    rw [Int.sub_zero, Nat.add_mul]
    omega
  obtain ⟨r', hr'⟩ := Option.isSome_iff_exists.mp (@chunkLoopSlow_isSome σ env _ _ _ _ hfuel)
  have hidle : IdleOK (clearLcdChanged s.gb).bus.timer := ⟨ht, ha.timer⟩
  obtain ⟨fuel', hslow⟩ := chunkLoop_slow hmod hle _ _ _ (Int.le_refl 0) rfl hidle hr
  obtain rfl := chunkLoopSlow_unique hr' hslow
  exact hr'.trans hr.symm

theorem chunkLoop_settled {budget : Int} {r : Int × GBEmulator σ} :
    ∀ (fuel : Nat) {cycles : Int} {g : GBEmulator σ},
    Settled g.bus.timer → chunkLoop env budget fuel cycles g = some r → Settled r.2.bus.timer := by
  intro fuel
  induction fuel with
  | zero =>
    intro cycles g hg hr
    by_cases hc : cycles < budget ∧ ¬ g.bus.lcd.lcdChanged = true
    · rw [chunkLoop_zero hc] at hr
      cases hr
    · rw [chunkLoop_done hc] at hr
      obtain rfl := Option.some.inj hr
      exact hg
  | succ fuel ih =>
    intro cycles g hg hr
    by_cases hc : cycles < budget ∧ ¬ g.bus.lcd.lcdChanged = true
    · rw [chunkLoop_succ hc] at hr
      exact ih (updateTimer_settled _ _) hr
    · rw [chunkLoop_done hc] at hr
      obtain rfl := Option.some.inj hr
      exact hg

theorem frameStep_settled {s s' : FrameState σ} (ht : Settled s.gb.bus.timer)
    (hs : frameStep env s = some s') :
    Settled s'.gb.bus.timer := by
  obtain ⟨r, hr, rfl⟩ := Option.map_eq_some_iff.mp hs
  have hsettled : Settled r.2.bus.timer := chunkLoop_settled _ (g := clearLcdChanged s.gb) ht hr
  unfold endChunk
  dsimp only
  split
  · exact hsettled
  · rw [(ppuAdvance_frame _ r.2.bus).eq]
    exact hsettled

/-- What every iteration of a frame starts with. -/
structure IterationStart (start : Int) (s : FrameState σ) : Prop where
  ppu : PpuOK s.gb.bus.lcd
  aligned : Aligned start s
  settled : Settled s.gb.bus.timer

theorem IterationStart.next {start : Int} {s s' : FrameState σ} (h : IterationStart start s)
    (he : s.elapsed < FRAME_CYCLES)
    (hspeed : s.gb.bus.cgb.doubleSpeed = false) (hs : frameStep env s = some s') :
    IterationStart start s' := by
  refine ⟨(frameStep_ok h.ppu he hs).ppu, ?_, frameStep_settled h.settled hs⟩
  obtain ⟨r, hr, rfl⟩ := Option.map_eq_some_iff.mp hs
  exact endChunk_aligned h.ppu h.aligned he hspeed hr

theorem Heads.trans {s s₁ s₂ : FrameState σ} (he : s.elapsed < FRAME_CYCLES)
    (hs : frameStep env s = some s₁)
    (h : Heads env s₁ s₂) : Heads env s s₂ := by
  induction h with
  | start => exact .next .start he hs
  | next _ he' hs' ih => exact .next ih he' hs'

theorem Heads.iterationStart {start : Int} {s s' : FrameState σ} (h : IterationStart start s)
    (hspeed : ∀ s₁, Heads env s s₁ → s₁.gb.bus.cgb.doubleSpeed = false) (hh : Heads env s s') :
    IterationStart start s' := by
  induction hh with
  | start => exact h
  | next hh he hs ih => exact ih.next he (hspeed _ hh) hs

theorem frameLoop_slow {start : Int} : ∀ (fuel : Nat) {s : FrameState σ}, IterationStart start s →
    (∀ s₁, Heads env s s₁ → s₁.gb.bus.cgb.doubleSpeed = false) →
      frameLoopSlow env fuel s = frameLoop env fuel s := by
  intro fuel
  induction fuel with
  | zero =>
    intro s _ _
    unfold frameLoopSlow frameLoop
    rfl
  | succ fuel ih =>
    intro s h hspeed
    unfold frameLoopSlow frameLoop
    by_cases he : s.elapsed < FRAME_CYCLES
    · rw [if_pos he, if_pos he]
      have hstep : frameStepSlow env s = frameStep env s := by
        unfold frameStepSlow frameStep
        rw [runChunk_slow h.ppu h.aligned h.settled he (hspeed s .start)]
      show (frameStepSlow env s).bind (frameLoopSlow env fuel) = (frameStep env s).bind (frameLoop env fuel)
      rw [hstep]
      cases hs : frameStep env s with
      | none => rfl
      | some s₁ => exact ih (h.next he (hspeed s .start) hs) fun s₂ hs₂ => hspeed s₂ (.trans he hs hs₂)
    · rw [if_neg he, if_neg he]

theorem frameLoop_settled : ∀ (fuel : Nat) {s s' : FrameState σ}, Settled s.gb.bus.timer →
    frameLoop env fuel s = some s' →
    Settled s'.gb.bus.timer := by
  intro fuel
  induction fuel with
  | zero =>
    intro s s' hs hrun
    unfold frameLoop at hrun
    split at hrun
    · cases hrun
    · obtain rfl := Option.some.inj hrun
      exact hs
  | succ fuel ih =>
    intro s s' hs hrun
    unfold frameLoop at hrun
    split at hrun
    · obtain ⟨s₁, hs₁, hrun⟩ := Option.bind_eq_some_iff.mp hrun
      exact ih (frameStep_settled hs hs₁) hrun
    · obtain rfl := Option.some.inj hrun
      exact hs

theorem runFrame_settled {g g' : GBEmulator σ} {spent : Int} (ht : Settled g.bus.timer)
    (hr : runFrame env g = some (g', spent)) :
    Settled g'.bus.timer := by
  unfold runFrame at hr
  obtain ⟨s, hs, hg⟩ := Option.map_eq_some_iff.mp hr
  obtain ⟨rfl, -⟩ := Prod.mk.inj hg
  exact frameLoop_settled _ (s := frameStart g) ht hs

theorem FramesFrom.settled {g₀ g : GBEmulator σ} {n : Nat} {spent : Int} (h : FramesFrom env g₀ n spent g) :
    Settled g.bus.timer := by
  induction h with
  | start =>
    have hzero : Settled {} := ⟨by decide, fun hon => absurd hon (by decide)⟩
    exact hzero
  | host a ha _ ih => cases a <;> first | exact Bool.noConfusion ha | exact ih
  | frame _ _ hr ih => exact runFrame_settled ih hr

theorem FramesFrom.iterationStart {g₀ g : GBEmulator σ} {n : Nat} {spent : Int}
    (h : FramesFrom env g₀ n spent g) :
    IterationStart g.bus.lcd.frameOvershoot (frameStart g) := by
  have hclock := h.clockOK
  obtain ⟨hmod, hle⟩ := hclock.overshoot
  refine ⟨hclock.ppu, ⟨hmod, ?_, Int.add_zero _, hclock.timer, hclock.dots⟩, h.settled⟩
  show g.bus.lcd.frameOvershoot ≤ FRAME_CYCLES + 20
  unfold FRAME_CYCLES
  omega

/-! ## The fast-forward changes nothing -/

/-- The states of the inner loop, with the cycles it has accumulated. -/
inductive InChunk (env : Env σ) (s : FrameState σ) : Int → GBEmulator σ → Prop where
  | start : InChunk env s 0 (clearLcdChanged s.gb)
  | step {cycles : Int} {g : GBEmulator σ} (h : InChunk env s cycles g)
      (hc : cycles < chunkBudget s ∧ ¬ g.bus.lcd.lcdChanged = true) :
      InChunk env s (cycles + (timedStep env (chunkBudget s - cycles) g).1) (timedStep env (chunkBudget s - cycles) g).2

theorem InChunk.idleOK {s : FrameState σ} {cycles : Int} {g : GBEmulator σ} (hmod : chunkBudget s % 4 = 0)
    (ht : IdleOK s.gb.bus.timer) (h : InChunk env s cycles g) : cycles % 4 = 0 ∧ IdleOK g.bus.timer := by
  induction h with
  | start => exact ⟨rfl, ht⟩
  | @step cycles g _ hc ih =>
    obtain ⟨hcy, hg⟩ := ih
    obtain ⟨hcost, ht'⟩ := @timedStep_idleOK σ env _ (show (chunkBudget s - cycles) % 4 = 0 by omega) _ hg
    exact ⟨by omega, ht'⟩

/-- At single speed a frame is the same with and without the fast-forward of HALT, and wherever the
CPU sleeps in it, a halted step with any budget goes where the reference gets 4 cycles at a time,
which sleeps on until then; it ends at an enabled timer overflow at the latest, and that wakes it. -/
theorem halt_fast_forward (env : Env σ) (g₀ g : GBEmulator σ) (n : Nat) (spent : Int) (h : FramesFrom env g₀ n spent g)
    (hspeed : ∀ s, Heads env (frameStart g) s → s.gb.bus.cgb.doubleSpeed = false) :
    runFrameSlow env g = runFrame env g ∧
    ∀ s, Heads env (frameStart g) s → s.elapsed < FRAME_CYCLES → ∀ cycles g₁, InChunk env s cycles g₁ → Asleep g₁ →
      ∀ idleBudget, 1 ≤ idleBudget → idleBudget % 4 = 0 → idleBudget ≤ 456 → ∃ k, FastForward env idleBudget g₁ k := by
  have hstart := h.iterationStart
  constructor
  · unfold runFrameSlow runFrame
    exact congrArg (Option.map _) (frameLoop_slow _ hstart hspeed)
  · intro s hs he cycles g₁ hchunk hsleep idleBudget hpos hmod hle
    have hhead := hs.iterationStart hstart hspeed
    obtain ⟨-, hbudget, -⟩ := chunkBudget_single hhead.ppu hhead.aligned he (hspeed s hs)
    exact timedStep_fastForward hpos hmod hle hsleep (hchunk.idleOK hbudget ⟨hhead.settled,
      hhead.aligned.timer⟩).2

/-- A cartridge that lets the timer run from F0, enables its interrupt and halts. -/
def haltRom : List (Nat × UInt8) :=
  [(0x100, 0x3E), (0x101, 0xF0), (0x102, 0xE0), (0x103, 0x05),
    (0x104, 0x3E), (0x105, 0x05), (0x106, 0xE0), (0x107, 0x07),
    (0x108, 0xE0), (0x109, 0xFF), (0x10A, 0x76)]

def haltEnv : Env Unit := { blankEnv with rom := fun a => (haltRom.lookup a).getD 0 }

def haltSetup : Setup := { data := some ⟨0x8000, haltEnv.rom⟩, size := 0x8000 }

def haltStart : GBEmulator Unit := (powerOn haltSetup).getD (prepare haltSetup)

/-- The first chunk after a number of instructions, with its cycles. -/
def haltRun : Nat → Int × GBEmulator Unit
  | 0 => (0, clearLcdChanged (reset haltStart))
  | n + 1 =>
    let r := timedStep haltEnv (80 - (haltRun n).1) (haltRun n).2
    ((haltRun n).1 + r.1, r.2)

theorem haltRun_inChunk : InChunk haltEnv (frameStart (reset haltStart)) (haltRun 6).1 (haltRun 6).2 := by
  have hbudget : chunkBudget (frameStart (reset haltStart)) = 80 := by decide +kernel
  have hgoes : ∀ k < 6, (haltRun k).1 < 80 ∧ ¬ (haltRun k).2.bus.lcd.lcdChanged = true := by decide +kernel
  have hrun : ∀ n ≤ 6, InChunk haltEnv (frameStart (reset haltStart)) (haltRun n).1 (haltRun n).2 := by
    intro n
    induction n with
    | zero => exact fun _ => .start
    | succ n ih =>
      intro hn
      have hstep := (ih (by omega)).step (by rw [hbudget]; exact hgoes n (by omega))
      rwa [hbudget] at hstep
  exact hrun 6 (by decide)

/-- Halted there, the processor skips to the overflow of the timer, as the reference does, and is woken. -/
theorem halt_fast_forward_timer : runFrameSlow haltEnv (reset haltStart) = runFrame haltEnv (reset haltStart) ∧
    Asleep (haltRun 6).2 ∧ ∃ k, FastForward haltEnv 456 (haltRun 6).2 k ∧
      4 * k = overflowIn (haltRun 6).2.bus.timer ∧
      pendingIrqs (timedStep haltEnv 456 (haltRun 6).2).2.bus.irq ≠ 0 := by
  have hasleep : Asleep (haltRun 6).2 := ⟨by decide +kernel, by decide +kernel⟩
  have harmed : Armed (haltRun 6).2.bus.timer (haltRun 6).2.bus.irq := ⟨by decide +kernel, by decide +kernel⟩
  have hcycles : (timedStep haltEnv 456 (haltRun 6).2).1 = overflowIn (haltRun 6).2.bus.timer := by decide +kernel
  obtain ⟨hframe, hforward⟩ :=
    halt_fast_forward haltEnv haltStart _ 0 0 .start fun _ hs => (hs.dmg ⟨rfl, rfl⟩).2
  obtain ⟨k, hk⟩ := hforward _ .start (by decide +kernel) _ _ haltRun_inChunk hasleep 456 (by decide) (by decide)
    (by decide)
  have hend : 4 * k = overflowIn (haltRun 6).2.bus.timer := by
    have hsame := hk.cycles.symm.trans hcycles
    omega
  exact ⟨hframe, hasleep, k, hk, hend, (hk.overflow harmed).2 hend⟩
end FoloGameboy

/-
The host frame clock and the PPU's schedule: at single speed the cycles spent are an exact multiple
of the frame plus a small overshoot, every outer iteration starts on a valid PPU position, and a
running LCD starts its lines one after the other with one VBlank request in 154.
-/
import FoloGameboy.Core.Reach

namespace FoloGameboy

variable {σ : Type} {env : Env σ}

/-! ## Machine cycles -/

theorem BusEffect.timerCounter {b b' : Bus σ} (he : BusEffect env b b') :
    b'.timer.timerCounter = b.timer.timerCounter := by
  cases he with
  | quiet hq => exact hq.timerCounter
  | mapper addr val => rfl
  | lcd val hne =>
    unfold writeLcdc
    rw [if_pos hne]
    exact (checkStatInterrupt_quiet _).timerCounter

theorem timerFreq_mod_four (tac : UInt8) : (timerFreq tac).toNat % 4 = 0 := by
  unfold timerFreq; split <;> rfl

theorem haltSkip_mod_four {idleBudget : Int} (hb : idleBudget % 4 = 0) {t : Timer}
    (ht : t.timerCounter.toNat % 4 = 0) (i : Irq) : haltSkip idleBudget t i % 4 = 0 := by
  have hfreq := timerFreq_mod_four t.tac
  have hover : ((256 - t.tima.toNat : Int) * (timerFreq t.tac).toNat - t.timerCounter.toNat) % 4 = 0 := by
    have hmul : ((256 - t.tima.toNat : Int) * (timerFreq t.tac).toNat) % 4 = 0 := by
      rw [Int.mul_emod, show ((timerFreq t.tac).toNat : Int) % 4 = 0 by omega, Int.mul_zero]; rfl
    omega
  unfold haltSkip
  dsimp only
  split
  · split
    · rfl
    · exact hover
  · split
    · rfl
    · exact hb

variable (env) in
theorem timedStep_mod_four {idleBudget : Int} (hb : idleBudget % 4 = 0) {g : GBEmulator σ}
    (ht : g.bus.timer.timerCounter.toNat % 4 = 0) : (timedStep env idleBudget g).1 % 4 = 0 ∧
      (timedStep env idleBudget g).2.bus.timer.timerCounter.toNat % 4 = 0 := by
  have hcost : (cpuStep env idleBudget g).1 % 4 = 0 := by
    rcases cpuStep_cost env idleBudget g with hc | hc | ⟨-, hc⟩
    · exact hc.mod_four
    · rw [hc]; exact haltSkip_mod_four hb ht _
    · rw [hc]; rfl
  have htimer : (cpuStep env idleBudget g).2.bus.timer.timerCounter.toNat % 4 = 0 :=
    cpuStep_inv (P := fun b => b.timer.timerCounter.toNat % 4 = 0)
      (fun _ _ h he => by rw [he.timerCounter]; exact h) idleBudget ht
  exact ⟨hcost, updateTimer_mod_four hcost htimer⟩

theorem chunkLoop_mod_four {budget : Int} (hb : budget % 4 = 0) :
    ∀ (fuel : Nat) (cycles : Int) (g : GBEmulator σ)
    (r : Int × GBEmulator σ), cycles % 4 = 0 → g.bus.timer.timerCounter.toNat % 4 = 0 →
    chunkLoop env budget fuel cycles g = some r → r.1 % 4 = 0 ∧ r.2.bus.timer.timerCounter.toNat % 4 = 0
  | fuel, cycles, g, r, hcy, ht, hr => by
    by_cases hc : cycles < budget ∧ ¬ g.bus.lcd.lcdChanged = true
    · cases fuel with
      | zero => rw [chunkLoop_zero hc] at hr; cases hr
      | succ fuel =>
        rw [chunkLoop_succ hc] at hr
        obtain ⟨h₁, h₂⟩ := timedStep_mod_four env (show (budget - cycles) % 4 = 0 by omega) ht
        exact chunkLoop_mod_four hb fuel _ _ r (by omega) h₂ hr
    · rw [chunkLoop_done hc] at hr
      obtain rfl := Option.some.inj hr
      exact ⟨hcy, ht⟩

/-! ## The frame clock at single speed -/

/-- At single speed every clock stays on whole machine cycles, and the cycles spent are the time
that has elapsed since the frame began at `start`. -/
structure Aligned (start : Int) (s : FrameState σ) : Prop where
  elapsed : s.elapsed % 4 = 0
  le : s.elapsed ≤ FRAME_CYCLES + 20
  spent : start + s.spent = s.elapsed
  timer : s.gb.bus.timer.timerCounter.toNat % 4 = 0
  dots : LcdOn s.gb.bus.lcd → s.gb.bus.lcd.ppuDots % 4 = 0

theorem chunkDots_mod_four {elapsed : Int} (he : elapsed % 4 = 0) {l : Lcd}
    (hd : LcdOn l → l.ppuDots % 4 = 0) :
    chunkDots elapsed l % 4 = 0 ∧ chunkDots elapsed l ≤ FRAME_CYCLES - elapsed := by
  unfold chunkDots phaseBoundary FRAME_CYCLES
  unfold LcdOn at hd
  dsimp only
  by_cases hon : hasBits l.lcdc 0x80 = true
  · have hd := hd hon
    rw [if_pos hon]
    repeat' split
    all_goals omega
  · rw [if_neg hon]
    split <;> omega

theorem endChunk_aligned {start : Int} {s : FrameState σ} {r : Int × GBEmulator σ} (h : PpuOK s.gb.bus.lcd)
    (ha : Aligned start s) (he : s.elapsed < FRAME_CYCLES) (hs : s.gb.bus.cgb.doubleSpeed = false)
    (hr : runChunk env s = some r) : Aligned start (endChunk s r) := by
  have hspeed : speedOf s.gb.bus.cgb = 1 := by unfold speedOf; rw [hs]; rfl
  obtain ⟨hmod, hle⟩ := chunkDots_mod_four ha.elapsed ha.dots
  have hbudget : chunkBudget s = chunkDots s.elapsed s.gb.bus.lcd := by
    unfold chunkBudget; rw [hspeed, Int.mul_one]
  have hok := runChunk_ok (chunkBudget_pos h he) hr
  obtain ⟨hcost, htimer⟩ :=
    chunkLoop_mod_four (by rw [hbudget]; exact hmod) _ 0 (clearLcdChanged s.gb) r rfl ha.timer hr
  have hlt := hok.lt
  have hdots : r.1 / speedOf s.gb.bus.cgb = r.1 := by rw [hspeed, Int.ediv_one]
  have helapsed : (endChunk s r).elapsed = s.elapsed + r.1 := congrArg (s.elapsed + ·) hdots
  have hspent : (endChunk s r).spent = s.spent + r.1 := rfl
  have h1 := ha.elapsed
  have h2 := ha.spent
  -- cycles and timer come from the loop; the dots restart when the LCD was switched
  refine ⟨by omega, by rw [helapsed]; omega, by omega, ?_, ?_⟩ <;>
    by_cases hstop : ¬ LcdOn s.gb.bus.lcd ∨ r.2.bus.lcd.lcdChanged = true
  · rw [endChunk_stopped hstop]; exact htimer
  · rw [not_or, not_not] at hstop
    rw [(endChunk_running h he hr hstop.1 (eq_false_of_ne_true hstop.2)).2.1, (ppuAdvance_frame _ _).eq]
    exact htimer
  · rw [endChunk_stopped hstop]
    intro hon
    rcases hok.tracks with hsame | hre
    · have : r.2.bus.lcd.ppuDots = s.gb.bus.lcd.ppuDots := hsame.ppuDots
      rw [this]
      exact ha.dots (hsame.enabled.symm.trans hon)
    · rw [hre.ppuDots]; rfl
  · rw [not_or, not_not] at hstop
    obtain ⟨hsame, hbus, hend⟩ := endChunk_running h he hr hstop.1 (eq_false_of_ne_true hstop.2)
    have hppu : PpuOK r.2.bus.lcd := (clearLcdChanged_ppuOK h).tracks hok.tracks
    have hon : LcdOn r.2.bus.lcd := hsame.enabled.trans hstop.1
    have hnonneg := (chunk_dots (chunkDots_pos h he) hok).1
    have hadv := ppuAdvance_advanced hppu hon (by omega) hend
    have hd := ha.dots hstop.1
    have hd' : r.2.bus.lcd.ppuDots = s.gb.bus.lcd.ppuDots := hsame.ppuDots
    intro _
    rw [hbus]
    by_cases hn : r.2.bus.lcd.ppuDots + r.1 / speedOf s.gb.bus.cgb < 456
    · rw [(hadv.same hn).2]; omega
    · rw [(hadv.next (by omega)).2]; omega

/-! ## Runs of frames -/

/-- The state in which `runFrame` enters its outer loop. -/
def frameStart (g : GBEmulator σ) : FrameState σ := { elapsed := g.bus.lcd.frameOvershoot, spent := 0, gb := g }

/-- The states at the head of the outer loop of `runFrame`, from a state `s` on. -/
inductive Heads (env : Env σ) (s : FrameState σ) : FrameState σ → Prop where
  | start : Heads env s s
  | next {s₁ s₂ : FrameState σ} (h : Heads env s s₁) (he : s₁.elapsed < FRAME_CYCLES)
      (hs : frameStep env s₁ = some s₂) : Heads env s s₂

/-- The host calls a session makes between frames. -/
def Action.betweenFrames : Action σ → Bool
  | .write .. | .step .. | .reset => false
  | _ => true

/-- `n` frames from reset with any host calls between them, on a session that is at single speed
whenever `runFrame` reads the speed; `spent` is the sum of all costs `cpu_step` has returned. -/
inductive FramesFrom (env : Env σ) (g₀ : GBEmulator σ) : Nat → Int → GBEmulator σ → Prop where
  | start : FramesFrom env g₀ 0 0 (reset g₀)
  | host {n : Nat} {spent : Int} {g : GBEmulator σ} (a : Action σ) (ha : a.betweenFrames = true)
      (h : FramesFrom env g₀ n spent g) : FramesFrom env g₀ n spent (act env a g)
  | frame {n : Nat} {spent c : Int} {g g' : GBEmulator σ} (h : FramesFrom env g₀ n spent g)
      (hspeed : ∀ s, Heads env (frameStart g) s → s.gb.bus.cgb.doubleSpeed = false)
      (hr : runFrame env g = some (g', c)) : FramesFrom env g₀ (n + 1) (spent + c) g'

theorem frameLoop_aligned {start : Int} : ∀ (fuel : Nat) {s s' : FrameState σ}, PpuOK s.gb.bus.lcd →
    Aligned start s →
    (∀ s₁, Heads env s s₁ → s₁.gb.bus.cgb.doubleSpeed = false) → frameLoop env fuel s = some s' →
      Aligned start s'
  | fuel, s, s', h, ha, hspeed, hs => by
    unfold frameLoop at hs
    split at hs
    · rename_i he
      cases fuel with
      | zero => cases hs
      | succ fuel =>
        obtain ⟨s₁, hs₁, hs⟩ := Option.bind_eq_some_iff.mp hs
        have hhead : ∀ s₂, Heads env s₁ s₂ → Heads env s s₂ := by
          intro s₂ h₂
          induction h₂ with
          | start => exact .next .start he hs₁
          | next _ he hs ih => exact .next ih he hs
        have ha₁ : Aligned start s₁ := by
          obtain ⟨r, hr, rfl⟩ := Option.map_eq_some_iff.mp hs₁
          exact endChunk_aligned h ha he (hspeed s .start) hr
        exact frameLoop_aligned fuel (frameStep_ok h he hs₁).ppu ha₁
          (fun s₂ h₂ => hspeed s₂ (hhead s₂ h₂)) hs
    · obtain rfl := Option.some.inj hs
      exact ha

/-- What a frame of a single-speed session starts and ends with. -/
structure ClockOK (n : Nat) (spent : Int) (g : GBEmulator σ) : Prop where
  spent : spent = FRAME_CYCLES * n + g.bus.lcd.frameOvershoot
  overshoot : g.bus.lcd.frameOvershoot % 4 = 0 ∧ g.bus.lcd.frameOvershoot ≤ 20
  ppu : PpuOK g.bus.lcd
  timer : g.bus.timer.timerCounter.toNat % 4 = 0
  dots : LcdOn g.bus.lcd → g.bus.lcd.ppuDots % 4 = 0

theorem FramesFrom.clockOK {g₀ g : GBEmulator σ} {n : Nat} {spent : Int} (h : FramesFrom env g₀ n spent g) :
    ClockOK n spent g := by
  induction h with
  | start => exact ⟨rfl, ⟨rfl, (by decide : (0 : Int) ≤ 20)⟩, reset_ppuOK g₀, rfl, fun _ => rfl⟩
  | host a ha _ ih =>
    obtain ⟨hs, ho, hp, ht, hd⟩ := ih
    cases a <;> first | exact Bool.noConfusion ha | exact ⟨hs, ho, hp, ht, hd⟩
  | frame _ hspeed hr ih =>
    rename_i n spent c g g' _
    unfold runFrame at hr
    obtain ⟨s, hs, hg⟩ := Option.map_eq_some_iff.mp hr
    obtain ⟨rfl, rfl⟩ := Prod.mk.inj hg
    have hover := ih.ppu.overshoot
    have ha : Aligned g.bus.lcd.frameOvershoot (frameStart g) :=
      ⟨ih.overshoot.1,
        by have := ih.overshoot.2; show g.bus.lcd.frameOvershoot ≤ _; unfold FRAME_CYCLES; omega,
        Int.add_zero _, ih.timer, ih.dots⟩
    have ha' := frameLoop_aligned _ ih.ppu ha hspeed hs
    obtain ⟨hppu, hend⟩ := frameLoop_ppuOK _ ih.ppu hs
    have hover' : (finishFrame s).bus.lcd.frameOvershoot = s.elapsed - FRAME_CYCLES := rfl
    have h1 := ha'.spent
    have h2 := ih.spent
    have h3 := ha'.elapsed
    have h4 := ha'.le
    refine ⟨?_, ?_, ⟨by rw [hover']; omega, hppu.ly, hppu.dots, hppu.mode⟩, ha'.timer, ha'.dots⟩
    · rw [hover']; push_cast; unfold FRAME_CYCLES at *; omega
    · rw [hover']; unfold FRAME_CYCLES at *; omega

/-! ## DMG sessions -/

/-- A session without CGB mode, which has no speed switch. -/
def Dmg (b : Bus σ) : Prop := b.cgb.isCgb = false ∧ b.cgb.doubleSpeed = false

theorem BusEffect.dmg {b b' : Bus σ} (h : Dmg b) (he : BusEffect env b b') : Dmg b' := by
  cases he with
  | quiet hq => exact ⟨hq.isCgb.trans h.1, (hq.dmgSpeed h.1).trans h.2⟩
  | mapper addr val => exact h
  | lcd val hne =>
    unfold writeLcdc
    rw [if_pos hne]
    have hq := checkStatInterrupt_quiet { b with
      lcd := toggleLcd b.lcd val, screen := if hasBits val 0x80 then b.screen else blankScreen b.screen }
    exact ⟨hq.isCgb.trans h.1, (hq.dmgSpeed h.1).trans h.2⟩

theorem dmg_frameInv : FrameInv env fun g : GBEmulator σ => Dmg g.bus where
  step idleBudget _ h := cpuStep_inv (fun _ _ hb he => he.dmg hb) idleBudget h
  timer _ _ _ h := h
  ppu _ _ _ _ h := h

/-- No iteration of a DMG session reads double speed. -/
theorem Heads.dmg {s s' : FrameState σ} (h : Dmg s.gb.bus) (hh : Heads env s s') : Dmg s'.gb.bus := by
  induction hh with
  | start => exact h
  | next _ _ hs ih => exact dmg_frameInv.frameStep_inv ih hs

/-! ## Lines of a running LCD -/

/-- The PPU update after a chunk raises the VBlank request: it sets the bit when it is clear. -/
def raisesVBlank (dots : Int) (b : Bus σ) : Bool :=
  hasBits (ppuAdvance dots { b with irq := { b.irq with iflag := b.irq.iflag &&& 0xFE } }).irq.iflag 0x01

/-- The line an iteration starts, if any, and whether it raises the VBlank request. -/
def lineEvents (s : FrameState σ) (r : Int × GBEmulator σ) : List (UInt8 × Bool) :=
  let ly := (endChunk s r).gb.bus.lcd.ly
  let raised := raisesVBlank (r.1 / speedOf s.gb.bus.cgb) r.2.bus
  if ly = s.gb.bus.lcd.ly ∧ raised = false then [] else [(ly, raised)]

/-- A run of outer iterations, over any number of host frames, in which the LCD stays on, with the
lines it starts. -/
inductive LcdRun (env : Env σ) (s : FrameState σ) : List (UInt8 × Bool) → FrameState σ → Prop where
  | start : LcdRun env s [] s
  | iterate {lines : List (UInt8 × Bool)} {s₁ : FrameState σ} {r : Int × GBEmulator σ} (h : LcdRun env s lines s₁)
      (he : s₁.elapsed < FRAME_CYCLES) (hon : LcdOn s₁.gb.bus.lcd) (hr : runChunk env s₁ = some r)
      (hch : r.2.bus.lcd.lcdChanged = false) : LcdRun env s (lines ++ lineEvents s₁ r) (endChunk s₁ r)
  | frame {lines : List (UInt8 × Bool)} {s₁ : FrameState σ} (h : LcdRun env s lines s₁)
      (he : ¬ s₁.elapsed < FRAME_CYCLES) : LcdRun env s lines (frameStart (finishFrame s₁))
  | host {lines : List (UInt8 × Bool)} {g : GBEmulator σ} (a : Action σ) (ha : a.betweenFrames = true)
      (h : LcdRun env s lines (frameStart g)) : LcdRun env s lines (frameStart (act env a g))

/-- The `n`-th line after `ly`. -/
def lineAfter (ly : UInt8) (n : Nat) : UInt8 := UInt8.ofNat ((ly.toNat + n) % 154)

theorem lineAfter_toNat (ly : UInt8) (n : Nat) : (lineAfter ly n).toNat = (ly.toNat + n) % 154 := by
  unfold lineAfter; rw [UInt8.toNat_ofNat']; omega

theorem lineAfter_zero {ly : UInt8} (h : ly < 154) : lineAfter ly 0 = ly := by
  have hlt : ly.toNat < 154 := UInt8.lt_iff_toNat_lt.mp h
  apply UInt8.toNat_inj.mp
  rw [lineAfter_toNat]; omega

theorem nextLine_toNat {ly : UInt8} (h : ly < 154) : (nextLine ly).toNat = (ly.toNat + 1) % 154 := by
  have hlt : ly.toNat < 154 := UInt8.lt_iff_toNat_lt.mp h
  have hsucc : (ly + 1).toNat = ly.toNat + 1 := by
    rw [UInt8.toNat_add]; show (ly.toNat + 1) % 256 = _; omega
  unfold nextLine
  split
  · rename_i hge
    have hge : 154 ≤ (ly + 1).toNat := UInt8.le_iff_toNat_le.mp hge
    show 0 = _; omega
  · rename_i hge
    have hge : ¬ 154 ≤ (ly + 1).toNat := fun h => hge (UInt8.le_iff_toNat_le.mpr h)
    omega

theorem lineAfter_lt (ly : UInt8) (n : Nat) : lineAfter ly n < 154 := by
  rw [UInt8.lt_iff_toNat_lt, lineAfter_toNat]; exact Nat.mod_lt _ (by decide)

theorem lineAfter_succ (ly : UInt8) (n : Nat) : nextLine (lineAfter ly n) = lineAfter ly (n + 1) := by
  apply UInt8.toNat_inj.mp
  rw [nextLine_toNat (lineAfter_lt ly n), lineAfter_toNat, lineAfter_toNat]; omega

theorem nextLine_ne : ∀ ly : UInt8, nextLine ly ≠ ly := fun ⟨b⟩ => by revert b; decide +kernel

/-- The log of `n` lines after `ly`: one after the other, with a request at line 144. -/
def lineLog (ly : UInt8) (n : Nat) : List (UInt8 × Bool) :=
  (List.range n).map fun i => (lineAfter ly (i + 1), decide (lineAfter ly (i + 1) = 144))

theorem lineLog_succ (ly : UInt8) (n : Nat) :
    lineLog ly (n + 1) = lineLog ly n ++ [(lineAfter ly (n + 1), decide (lineAfter ly (n + 1) = 144))] := by
  unfold lineLog; rw [List.range_succ, List.map_append]; rfl

@[simp] theorem lineLog_length (ly : UInt8) (n : Nat) : (lineLog ly n).length = n := by
  unfold lineLog; rw [List.length_map, List.length_range]

theorem lineLog_drop_take (ly : UInt8) {n k m : Nat} (h : k + m ≤ n) :
    ((lineLog ly n).drop k).take m = lineLog (lineAfter ly k) m := by
  have hline : ∀ i, lineAfter (lineAfter ly k) (i + 1) = lineAfter ly (k + i + 1) := by
    intro i
    apply UInt8.toNat_inj.mp
    rw [lineAfter_toNat, lineAfter_toNat, lineAfter_toNat]; omega
  apply List.ext_getElem
  · rw [List.length_take, List.length_drop, lineLog_length, lineLog_length]; omega
  · intro i hi hi'
    rw [List.getElem_take, List.getElem_drop]
    simp only [lineLog, List.getElem_map, List.getElem_range, hline]

/-- Among 154 consecutive lines, one is line 144. -/
theorem lineLog_count (ly : UInt8) : (lineLog ly 154).countP (·.2) = 1 := by
  have hdec : ∀ m < 154, (List.range 154).countP (fun i => Nat.beq ((m + (i + 1)) % 154) 144) = 1 := by
    decide +kernel
  rw [← hdec (ly.toNat % 154) (Nat.mod_lt _ (by decide))]
  unfold lineLog
  rw [List.countP_map]
  congr 1
  funext i
  have hiff : lineAfter ly (i + 1) = 144 ↔ (ly.toNat % 154 + (i + 1)) % 154 = 144 := by
    rw [← UInt8.toNat_inj, lineAfter_toNat, Nat.mod_add_mod]; rfl
  show decide (lineAfter ly (i + 1) = 144) = _
  rw [Bool.eq_iff_iff, decide_eq_true_iff, hiff]
  exact iff_of_eq Nat.beq_eq.symm

/-! ## The VBlank request -/

theorem hasBits_or_stat : ∀ v : UInt8, hasBits (v ||| 0x02) 0x01 = hasBits v 0x01 :=
  fun ⟨b⟩ => by revert b; decide +kernel

theorem hasBits_or_vblank : ∀ v : UInt8, hasBits (v ||| 0x01) 0x01 = true :=
  fun ⟨b⟩ => by revert b; decide +kernel

theorem hasBits_clear_vblank : ∀ v : UInt8, hasBits (v &&& 0xFE) 0x01 = false :=
  fun ⟨b⟩ => by revert b; decide +kernel

def vblankRequested (b : Bus σ) : Bool := hasBits b.irq.iflag 0x01

theorem checkStatInterrupt_request (b : Bus σ) :
    vblankRequested (checkStatInterrupt b) = vblankRequested b := by
  obtain ⟨line, irq, h, -, hi⟩ := checkStatInterrupt_eq b
  unfold vblankRequested
  rw [h]
  rcases hi with hi | hi
  · rw [hi]
  · rw [hi]; exact hasBits_or_stat _

theorem enterTransfer_request (b : Bus σ) : vblankRequested (enterTransfer b) = vblankRequested b := by
  unfold enterTransfer; split
  · exact checkStatInterrupt_request _
  · rfl

theorem enterHBlank_request (b : Bus σ) : vblankRequested (enterHBlank b) = vblankRequested b := by
  have hline : vblankRequested (finishLine b) = vblankRequested b := by
    unfold finishLine renderLine; repeat' split
    all_goals rfl
  unfold enterHBlank; split
  · exact (checkStatInterrupt_request _).trans hline
  · rfl

theorem enterNextLine_request {b : Bus σ} {l : Lcd} {ly mode : UInt8} {dots : Int}
    (h : l.At b.lcd ly dots mode) :
    vblankRequested (enterNextLine b) = (vblankRequested b || decide (456 ≤ dots ∧ nextLine ly = 144)) := by
  have hly := (advanceLine_at h).ly
  unfold enterNextLine
  rw [h.ppuDots]
  by_cases hd : 456 ≤ dots
  · rw [if_pos hd]
    refine (checkStatInterrupt_request _).trans ?_
    unfold vblankRequested
    dsimp only
    rw [hly]
    by_cases hn : nextLine ly = 144
    · rw [if_pos hn, decide_eq_true ⟨hd, hn⟩, Bool.or_true]; exact hasBits_or_vblank _
    · rw [if_neg hn, decide_eq_false (fun h => hn h.2), Bool.or_false]
  · rw [if_neg hd, decide_eq_false (fun h => hd h.1), Bool.or_false]

/-- The PPU update raises the VBlank request exactly when it starts line 144. -/
theorem raisesVBlank_eq (dots : Int) (b : Bus σ) :
    raisesVBlank dots b = decide (456 ≤ b.lcd.ppuDots + dots ∧ nextLine b.lcd.ly = 144) := by
  have hstart :
    b.lcd.At { b.lcd with ppuDots := b.lcd.ppuDots + dots } b.lcd.ly (b.lcd.ppuDots + dots)
    b.lcd.ppuMode :=
    ⟨rfl, rfl, rfl, rfl, rfl⟩
  have hline := enterHBlank_at (enterTransfer_at (b := { b with
    irq := { b.irq with iflag := b.irq.iflag &&& 0xFE }
    lcd := { b.lcd with ppuDots := b.lcd.ppuDots + dots } }) hstart)
  refine (enterNextLine_request hline).trans ?_
  rw [enterHBlank_request, enterTransfer_request]
  show (hasBits (b.irq.iflag &&& 0xFE) 0x01 || _) = _
  rw [hasBits_clear_vblank, Bool.false_or]

/-! ## The lines of a run -/

theorem lineEvents_eq {s : FrameState σ} {r : Int × GBEmulator σ} (h : PpuOK s.gb.bus.lcd)
    (he : s.elapsed < FRAME_CYCLES) (hon : LcdOn s.gb.bus.lcd) (hr : runChunk env s = some r)
    (hch : r.2.bus.lcd.lcdChanged = false) :
    ((endChunk s r).gb.bus.lcd.ly = s.gb.bus.lcd.ly ∧ lineEvents s r = []) ∨
    ((endChunk s r).gb.bus.lcd.ly = nextLine s.gb.bus.lcd.ly ∧
      lineEvents s r = [(nextLine s.gb.bus.lcd.ly, decide (nextLine s.gb.bus.lcd.ly = 144))]) := by
  have hok := runChunk_ok (chunkBudget_pos h he) hr
  have hdots := (chunk_dots (chunkDots_pos h he) hok).1
  have hppu : PpuOK r.2.bus.lcd := (clearLcdChanged_ppuOK h).tracks hok.tracks
  obtain ⟨hsame, hbus, hend⟩ := endChunk_running h he hr hon hch
  have hly : r.2.bus.lcd.ly = s.gb.bus.lcd.ly := hsame.ly
  have hadv := ppuAdvance_advanced hppu (hsame.enabled.trans hon) (by omega) hend
  unfold lineEvents
  rw [raisesVBlank_eq, hbus, hly]
  by_cases hn : r.2.bus.lcd.ppuDots + r.1 / speedOf s.gb.bus.cgb < 456
  · rw [(hadv.same hn).1, hly, decide_eq_false (fun h => absurd h.1 (by omega))]
    exact .inl ⟨rfl, if_pos ⟨rfl, rfl⟩⟩
  · rw [(hadv.next (by omega)).1, hly]
    refine .inr ⟨rfl, ?_⟩
    have hge : 456 ≤ r.2.bus.lcd.ppuDots + r.1 / speedOf s.gb.bus.cgb := by omega
    simp only [hge, true_and, nextLine_ne, false_and, if_false]

theorem LcdRun.lines {s s' : FrameState σ} {lines : List (UInt8 × Bool)} (h : PpuOK s.gb.bus.lcd)
    (hly : s.gb.bus.lcd.ly < 154) (hrun : LcdRun env s lines s') :
    PpuOK s'.gb.bus.lcd ∧ s'.gb.bus.lcd.ly = lineAfter s.gb.bus.lcd.ly lines.length ∧
      lines = lineLog s.gb.bus.lcd.ly lines.length := by
  induction hrun with
  | start => exact ⟨h, (lineAfter_zero hly).symm, rfl⟩
  | iterate _ he hon hr hch ih =>
    obtain ⟨hppu, hcur, hlog⟩ := ih
    refine ⟨(endChunk_ok hppu he hr).ppu, ?_⟩
    rcases lineEvents_eq hppu he hon hr hch with ⟨hline, hev⟩ | ⟨hline, hev⟩
    · rw [hev, List.append_nil, hline]; exact ⟨hcur, hlog⟩
    · rw [hev, hline, hcur, lineAfter_succ, List.length_append, List.length_singleton, lineLog_succ, ← hlog]
      exact ⟨rfl, rfl⟩
  | frame _ he ih =>
    obtain ⟨hppu, hcur, hlog⟩ := ih
    rename_i s₁ _
    have hover : 0 ≤ s₁.elapsed - FRAME_CYCLES := by omega
    exact ⟨⟨hover, hppu.ly, hppu.dots, hppu.mode⟩, hcur, hlog⟩
  | host a ha _ ih =>
    obtain ⟨hppu, hcur, hlog⟩ := ih
    refine ⟨act_ppuOK a hppu, ?_, hlog⟩
    cases a <;> first | exact Bool.noConfusion ha | exact hcur

theorem Heads.ppuOK {s s' : FrameState σ} (h : PpuOK s.gb.bus.lcd) (hh : Heads env s s') :
    PpuOK s'.gb.bus.lcd := by
  induction hh with
  | start => exact h
  | next _ he hs ih => exact (frameStep_ok ih he hs).ppu

/-! ## No other source of the request -/

theorem updateTimer_request (cycles : Int) (b : Bus σ) :
    vblankRequested (updateTimer cycles b) = vblankRequested b := by
  have hstep : ∀ v : UInt8, hasBits (v ||| 0x04) 0x01 = hasBits v 0x01 :=
    fun ⟨b⟩ => by revert b; decide +kernel
  unfold updateTimer
  dsimp only
  split
  · rfl
  · refine whileDo_inv (P := fun s : Timer × Irq => hasBits s.2.iflag 0x01 =
      hasBits b.irq.iflag 0x01) (fun s hs => ?_) _ _ rfl
    unfold timaStep
    dsimp only
    split
    · exact (hstep _).trans hs
    · exact hs

theorem oamDma_irq (env : Env σ) (val : UInt8) : ∀ (n : Nat) (b : Bus σ), (oamDma env val n b).irq = b.irq
  | 0, _ => rfl
  | n + 1, b => by
    have hread := (readByte_frame env ((val.toUInt16 <<< 8) ||| UInt16.ofNat n) (oamDma env val n b)).eq
    show (readByte env _ (oamDma env val n b)).2.irq = _
    rw [hread]
    exact oamDma_irq env val n b

theorem writeMemory_irq (env : Env σ) (addr : UInt16) (val : UInt8) (b : Bus σ) :
    (writeMemory env addr val b).irq = b.irq := by
  unfold writeMemory writeMBC writeVram writeExternalRam writeWram
  dsimp only
  repeat' split
  all_goals rfl

theorem hdmaLoop_irq (env : Env σ) (src dst : Nat) :
    ∀ (n : Nat) (b : Bus σ), (hdmaLoop env src dst n b).irq = b.irq
  | 0, _ => rfl
  | n + 1, b => by
    have hread := (readByte_frame env (UInt16.ofNat (src + n)) (hdmaLoop env src dst n b)).eq
    unfold hdmaLoop
    dsimp only
    split
    · rw [writeMemory_irq, hread]
      exact hdmaLoop_irq env src dst n b
    · exact hdmaLoop_irq env src dst n b

theorem writeHdma5_irq (env : Env σ) (val : UInt8) (b : Bus σ) : (writeHdma5 env val b).irq = b.irq := by
  unfold writeHdma5
  dsimp only
  split
  · rfl
  split
  · rfl
  · exact hdmaLoop_irq env _ _ _ b

theorem writeSerialControl_request (val : UInt8) (b : Bus σ) :
    vblankRequested (writeSerialControl val b) = vblankRequested b := by
  have hserial : ∀ v : UInt8, hasBits (v ||| 0x08) 0x01 = hasBits v 0x01 :=
    fun ⟨b⟩ => by revert b; decide +kernel
  unfold writeSerialControl
  dsimp only
  split
  · exact hserial _
  · rfl

theorem writeLcdc_request (val : UInt8) (b : Bus σ) :
    vblankRequested (writeLcdc val b) = vblankRequested b := by
  unfold writeLcdc
  split
  · exact checkStatInterrupt_request _
  · rfl

theorem vblankRequested_congr {b b' : Bus σ} (h : b'.irq.iflag = b.irq.iflag) :
    vblankRequested b' = vblankRequested b := by
  unfold vblankRequested; rw [h]

theorem writeIo_request (env : Env σ) {addr : UInt16} (haddr : addr.toNat ≠ 0xFF0F) (val : UInt8)
    (b : Bus σ) :
    vblankRequested (writeIo env addr val b) = vblankRequested b := by
  unfold writeIo
  split
  · exact vblankRequested_congr rfl
  split
  case h_3 => exact writeSerialControl_request val b
  case h_8 => exact absurd ‹_› haddr
  case h_9 => exact writeLcdc_request val b
  case h_10 => exact (checkStatInterrupt_request _).trans (vblankRequested_congr rfl)
  case h_11 => exact (checkStatInterrupt_request _).trans (vblankRequested_congr rfl)
  case h_12 => exact vblankRequested_congr (congrArg Irq.iflag (oamDma_irq env val 0xA0 b))
  case h_20 => exact vblankRequested_congr (congrArg Irq.iflag (writeHdma5_irq env val b))
  all_goals first
    | exact vblankRequested_congr rfl
    | split <;> exact vblankRequested_congr rfl

/-- A guest write other than to the request register itself does not touch the VBlank request. -/
theorem writeByte_request (env : Env σ) {addr : UInt16} (haddr : addr ≠ 0xFF0F) (val : UInt8) (b : Bus σ) :
    vblankRequested (writeByte env addr val b) = vblankRequested b := by
  unfold writeByte
  split
  · exact vblankRequested_congr (congrArg Irq.iflag (writeMemory_irq env addr val b))
  · have hlit : (0xFF0F : UInt16).toNat = 0xFF0F := by decide
    exact writeIo_request env (fun h => haddr (UInt16.toNat_inj.mp (h.trans hlit.symm))) val b

/-! ## The schedule -/

/-- After `n` single-speed frames from reset the cycles spent are `n` frames and the overshoot kept
for the next one, which stays within 20 cycles. At every outer iteration after them a running LCD is
on a line and a dot of its frame, in their mode, and while it stays on its lines start one after the
other, with the VBlank request at line 144 alone, once in any 154 of them. Nothing else the hardware
does raises that request. -/
theorem frame_schedule (env : Env σ) (g₀ g : GBEmulator σ) (n : Nat) (spent : Int)
    (h : FramesFrom env g₀ n spent g) :
    (spent = 70224 * n + g.bus.lcd.frameOvershoot ∧ 0 ≤ g.bus.lcd.frameOvershoot ∧ g.bus.lcd.frameOvershoot ≤ 20) ∧
    (∀ s, Heads env (frameStart g) s → LcdOn s.gb.bus.lcd →
      (s.gb.bus.lcd.ly < 154 ∧ 0 ≤ s.gb.bus.lcd.ppuDots ∧ s.gb.bus.lcd.ppuDots < 456 ∧
        s.gb.bus.lcd.ppuMode = modeAt s.gb.bus.lcd.ly s.gb.bus.lcd.ppuDots) ∧
      ∀ lines s', LcdRun env s lines s' →
        lines = lineLog s.gb.bus.lcd.ly lines.length ∧
        ∀ k, k + 154 ≤ lines.length → ((lines.drop k).take 154).countP (·.2) = 1) ∧
    (∀ cycles b, vblankRequested (updateTimer cycles b : Bus σ) = vblankRequested b) ∧
    ∀ addr val b, addr ≠ 0xFF0F → vblankRequested (writeByte env addr val b) = vblankRequested b := by
  have hclock := h.clockOK
  refine ⟨⟨hclock.spent, hclock.ppu.overshoot, hclock.overshoot.2⟩, fun s hs hon => ?_, updateTimer_request,
    fun addr val b haddr => writeByte_request env haddr val b⟩
  have hppu : PpuOK s.gb.bus.lcd := hs.ppuOK hclock.ppu
  have hly := hppu.ly hon
  refine ⟨⟨hly, (hppu.dots hon).1, (hppu.dots hon).2, hppu.mode hon⟩, fun lines s' hrun => ?_⟩
  obtain ⟨-, -, hlog⟩ := hrun.lines hppu hly
  refine ⟨hlog, fun k hk => ?_⟩
  rw [hlog, lineLog_drop_take _ hk]
  exact lineLog_count _

/-- The first frame of a blank cartridge. -/
theorem frame_schedule_blank : ∃ g c, runFrame blankEnv (reset (prepare blankSetup)) = some (g, c) ∧
    0 + c = 70224 * ((0 + 1 : Nat) : Int) + g.bus.lcd.frameOvershoot := by
  obtain ⟨⟨g, c⟩, hr⟩ :=
    Option.isSome_iff_exists.mp (runFrame_isSome blankEnv (reset_ppuOK (prepare blankSetup)))
  have hspeed : ∀ s, Heads blankEnv (frameStart (reset (prepare blankSetup))) s →
    s.gb.bus.cgb.doubleSpeed = false :=
    fun s hs => (hs.dmg ⟨rfl, rfl⟩).2
  exact ⟨g, c, hr,
    (frame_schedule blankEnv (prepare blankSetup) g (0 + 1) (0 + c) (.frame .start hspeed hr)).1.1⟩

end FoloGameboy

/-
The STAT interrupt: at every instruction boundary of every run `prevStatLine` is the STAT line, and
the request is raised on the line's rising edges alone, whichever register write or PPU change made
them.
-/
import FoloGameboy.Core.Schedule

namespace FoloGameboy

open Effect

variable {σ : Type} {env : Env σ}

/-! ## The line and its request -/

/-- The STAT line, which is low while the LCD is off. -/
def statNow (l : Lcd) : Bool := hasBits l.lcdc 0x80 && statLine l

/-- The edge detector remembers the line. -/
def StatOK (l : Lcd) : Prop := l.prevStatLine = statNow l

def statRequested (b : Bus σ) : Bool := hasBits b.irq.iflag 0x02

/-- A change of the bus after which the detector is up to date, and that raises the request exactly
if the line rises. -/
structure FollowsLine (b b' : Bus σ) : Prop where
  memory : StatOK b'.lcd
  request : statRequested b' = (statRequested b || (!statNow b.lcd && statNow b'.lcd))

/-- What the line depends on is unchanged. -/
structure Lcd.SameStat (l l' : Lcd) : Prop where
  now : statNow l' = statNow l
  memory : l'.prevStatLine = l.prevStatLine

theorem Lcd.SameStat.statOK {l l' : Lcd} (h : l.SameStat l') (hs : StatOK l) : StatOK l' :=
  h.memory.trans (hs.trans h.now.symm)

theorem FollowsLine.still {b b' : Bus σ} (hs : StatOK b.lcd) (hl : b.lcd.SameStat b'.lcd)
    (hr : statRequested b' = statRequested b) : FollowsLine b b' := by
  refine ⟨hl.statOK hs, ?_⟩
  rw [hr, hl.now, Bool.not_and_self, Bool.or_false]

theorem hasBits_raise_stat : ∀ v : UInt8, hasBits (v ||| 0x02) 0x02 = true :=
  fun ⟨b⟩ => by revert b; decide +kernel

/-- The check after a change of the registers, with the line before it still in memory. -/
theorem checkStatInterrupt_follows {b b' : Bus σ} (hm : b'.lcd.prevStatLine = statNow b.lcd)
    (hr : statRequested b' = statRequested b) : FollowsLine b (checkStatInterrupt b') := by
  unfold checkStatInterrupt
  split
  · -- off: the line is low
    rename_i hoff
    have hlow : ∀ p, statNow { b'.lcd with prevStatLine := p } = false := fun p => by
      unfold statNow
      rw [eq_false_of_ne_true hoff, Bool.false_and]
    refine ⟨(hlow false).symm, ?_⟩
    rw [hlow false, Bool.and_false, Bool.or_false]
    exact hr
  · rename_i hon
    rw [not_not] at hon
    have hnow : ∀ p, statNow { b'.lcd with prevStatLine := p } = statLine b'.lcd := fun p => by
      unfold statNow
      rw [hon, Bool.true_and]
      rfl
    refine ⟨(hnow _).symm, ?_⟩
    rw [hnow, hm]
    dsimp only
    split
    · rename_i hrise
      rw [hrise.1, eq_false_of_ne_true hrise.2, Bool.not_false, Bool.and_true, Bool.or_true]
      exact hasBits_raise_stat _
    · rename_i hflat
      have hlow : (!statNow b.lcd && statLine b'.lcd) = false := by
        cases hline : statLine b'.lcd
        · rw [Bool.and_false]
        · rw [Bool.and_true, Bool.not_eq_false']
          by_contra hn
          exact hflat ⟨hline, hn⟩
      rw [hlow, Bool.or_false]
      exact hr

/-! ## Bus operations -/

/-- The LCD registers and the request are as they were. -/
structure SameLcd (b b' : Bus σ) : Prop where
  lcd : b'.lcd = b.lcd
  iflag : b'.irq.iflag = b.irq.iflag

theorem SameLcd.follows {b b' : Bus σ} (h : SameLcd b b') (hs : StatOK b.lcd) : FollowsLine b b' := by
  refine .still hs ?_ ?_
  · rw [h.lcd]
    exact ⟨rfl, rfl⟩
  · unfold statRequested
    rw [h.iflag]

theorem SameLcd.trans {b₁ b₂ b₃ : Bus σ} (h : SameLcd b₁ b₂) (h' : SameLcd b₂ b₃) : SameLcd b₁ b₃ :=
  ⟨h'.lcd.trans h.lcd, h'.iflag.trans h.iflag⟩

theorem ReadFrame.sameLcd {b b' : Bus σ} (h : ReadFrame b b') : SameLcd b b' := by
  rw [h.eq]
  exact ⟨rfl, rfl⟩

theorem writeMemory_sameLcd (env : Env σ) (addr : UInt16) (val : UInt8) (b : Bus σ) :
    SameLcd b (writeMemory env addr val b) := by
  unfold writeMemory writeMBC writeVram writeExternalRam writeWram
  dsimp only
  repeat' split
  all_goals exact ⟨rfl, rfl⟩

theorem oamDma_sameLcd (env : Env σ) (val : UInt8) : ∀ (n : Nat) (b : Bus σ), SameLcd b (oamDma env val n b)
  | 0, _ => ⟨rfl, rfl⟩
  | n + 1, b => by
    have hread :=
      (readByte_frame env ((val.toUInt16 <<< 8) ||| UInt16.ofNat n) (oamDma env val n b)).sameLcd
    exact (oamDma_sameLcd env val n b).trans ⟨hread.lcd, hread.iflag⟩

theorem hdmaLoop_sameLcd (env : Env σ) (src dst : Nat) :
    ∀ (n : Nat) (b : Bus σ), SameLcd b (hdmaLoop env src dst n b)
  | 0, _ => ⟨rfl, rfl⟩
  | n + 1, b => by
    have ih := hdmaLoop_sameLcd env src dst n b
    unfold hdmaLoop
    dsimp only
    split
    · have hread := (readByte_frame env (UInt16.ofNat (src + n)) (hdmaLoop env src dst n b)).sameLcd
      exact (ih.trans hread).trans (writeMemory_sameLcd env _ _ _)
    · exact ih

theorem writeHdma5_sameLcd (env : Env σ) (val : UInt8) (b : Bus σ) : SameLcd b (writeHdma5 env val b) := by
  unfold writeHdma5
  dsimp only
  split
  · exact ⟨rfl, rfl⟩
  split
  · exact ⟨rfl, rfl⟩
  · have hloop := hdmaLoop_sameLcd env (((b.cgb.hdma1.toUInt16 <<< 8) ||| b.cgb.hdma2.toUInt16) &&&
      0xFFF0).toNat
      (((0x8000 : UInt16) ||| (b.cgb.hdma3.toUInt16 <<< 8) ||| b.cgb.hdma4.toUInt16) &&& 0x9FF0).toNat
      (((val &&& 0x7F).toNat + 1) * 16) b
    exact ⟨hloop.lcd, hloop.iflag⟩

theorem writeSerialControl_follows (val : UInt8) {b : Bus σ} (hs : StatOK b.lcd) :
    FollowsLine b (writeSerialControl val b) := by
  have hserial : ∀ v : UInt8, hasBits (v ||| 0x08) 0x02 = hasBits v 0x02 :=
    fun ⟨b⟩ => by revert b; decide +kernel
  unfold writeSerialControl
  dsimp only
  split
  · exact .still hs ⟨rfl, rfl⟩ (hserial _)
  · exact .still hs ⟨rfl, rfl⟩ rfl

/-- A switch of the LCD starts from a low line, in both directions. -/
theorem writeLcdc_follows (val : UInt8) {b : Bus σ} (hs : StatOK b.lcd) :
    FollowsLine b (writeLcdc val b) := by
  unfold writeLcdc
  split
  · rename_i hne
    cases hon : hasBits val 0x80 with
    | true =>
      have hoff : hasBits b.lcd.lcdc 0x80 = false := by
        cases h : hasBits b.lcd.lcdc 0x80
        · rfl
        · exact absurd (h.trans hon.symm) hne
      refine checkStatInterrupt_follows ?_ rfl
      unfold statNow
      rw [hoff]
      rfl
    | false =>
      -- the check itself lowers the line
      unfold checkStatInterrupt
      rw [if_pos (by rw [show (toggleLcd b.lcd val).lcdc = val from rfl, hon]; exact Bool.false_ne_true)]
      have hlow : statNow { toggleLcd b.lcd val with prevStatLine := false } = false := by
        unfold statNow
        rw [show ({ toggleLcd b.lcd val with prevStatLine := false } : Lcd).lcdc = val from rfl,
          hon, Bool.false_and]
      refine ⟨hlow.symm, ?_⟩
      rw [hlow, Bool.and_false, Bool.or_false]
      rfl
  · rename_i heq
    refine .still hs ⟨?_, rfl⟩ rfl
    unfold statNow
    rw [not_not.mp heq]
    rfl

theorem statRequested_congr {b b' : Bus σ} (h : b'.irq.iflag = b.irq.iflag) :
    statRequested b' = statRequested b := by
  unfold statRequested
  rw [h]

theorem writeLcdReg_follows (n : Nat) (val : UInt8) {b : Bus σ} (hs : StatOK b.lcd) :
    FollowsLine b { b with lcd := writeLcdReg n val b.lcd } := by
  refine .still hs ?_ rfl
  unfold writeLcdReg
  split <;> exact ⟨rfl, rfl⟩

theorem writeIo_follows (env : Env σ) {addr : UInt16} (haddr : addr.toNat ≠ 0xFF0F) (val : UInt8)
    {b : Bus σ} (hs : StatOK b.lcd) :
    FollowsLine b (writeIo env addr val b) := by
  unfold writeIo
  split
  · exact SameLcd.follows ⟨rfl, rfl⟩ hs
  split
  case h_3 => exact writeSerialControl_follows val hs
  case h_8 => exact absurd ‹_› haddr
  case h_9 => exact writeLcdc_follows val hs
  case h_10 => exact checkStatInterrupt_follows hs rfl
  case h_11 => exact checkStatInterrupt_follows hs rfl
  case h_12 => exact (oamDma_sameLcd env val 0xA0 b).follows hs
  case h_20 => exact (writeHdma5_sameLcd env val b).follows hs
  all_goals first
    | exact SameLcd.follows ⟨rfl, rfl⟩ hs
    | exact writeLcdReg_follows _ val hs
    | split <;> exact SameLcd.follows ⟨rfl, rfl⟩ hs

theorem writeByte_follows (env : Env σ) {addr : UInt16} (haddr : addr ≠ 0xFF0F) (val : UInt8)
    {b : Bus σ} (hs : StatOK b.lcd) :
    FollowsLine b (writeByte env addr val b) := by
  unfold writeByte
  split
  · exact (writeMemory_sameLcd env addr val b).follows hs
  · have hlit : (0xFF0F : UInt16).toNat = 0xFF0F := by decide
    exact writeIo_follows env (fun h => haddr (UInt16.toNat_inj.mp (h.trans hlit.symm))) val hs

/-- The operations with which the processor changes the request itself: a write to IF and the
acknowledgement of a dispatch. -/
def BusOp.setsRequest : BusOp → Prop
  | .write addr _ => addr = 0xFF0F
  | .acknowledge _ => True
  | _ => False

theorem writeByte_iflag_lcd (env : Env σ) {addr : UInt16} (haddr : addr = 0xFF0F) (val : UInt8)
    (b : Bus σ) :
    (writeByte env addr val b).lcd = b.lcd := by
  have hnat : addr.toNat = 0xFF0F := by rw [haddr]; decide
  unfold writeByte writeIo
  rw [if_neg (by rw [haddr]; decide), if_neg (by rw [haddr]; decide)]
  split
  case h_8 => rfl
  all_goals first
    | omega
    | exact absurd hnat ‹_›

theorem busStep_follows (o : BusOp) (ho : ¬ o.setsRequest) {b : Bus σ} (hs : StatOK b.lcd) :
    FollowsLine b (busStep env o b).2 := by
  cases o with
  | read addr => exact (readByte_frame env addr b).sameLcd.follows hs
  | write addr val => exact writeByte_follows env ho val hs
  | pending => exact .still hs ⟨rfl, rfl⟩ rfl
  | acknowledge mask => exact absurd trivial ho
  | stop => exact .still hs ⟨rfl, rfl⟩ rfl

/-- The processor's own changes of the request leave the line alone. -/
theorem busStep_setsRequest {o : BusOp} (ho : o.setsRequest) (b : Bus σ) :
    (busStep env o b).2.lcd = b.lcd := by
  cases o with
  | read addr => exact ho.elim
  | write addr val =>
    exact writeByte_iflag_lcd env ho val b
  | pending => exact ho.elim
  | acknowledge mask => rfl
  | stop => exact ho.elim

theorem busStep_statOK (o : BusOp) (b : Bus σ) (hs : StatOK b.lcd) : StatOK (busStep env o b).2.lcd := by
  by_cases ho : o.setsRequest
  · rw [busStep_setsRequest ho]
    exact hs
  · exact (busStep_follows o ho hs).memory

/-! ## The PPU -/

theorem updateTimer_stat (cycles : Int) (b : Bus σ) :
    statRequested (updateTimer cycles b) = statRequested b := by
  have hstep : ∀ v : UInt8, hasBits (v ||| 0x04) 0x02 = hasBits v 0x02 :=
    fun ⟨b⟩ => by revert b; decide +kernel
  unfold updateTimer
  dsimp only
  split
  · rfl
  · refine whileDo_inv (P := fun s : Timer × Irq => hasBits s.2.iflag 0x02 =
      hasBits b.irq.iflag 0x02) (fun s hs => ?_) _ _ rfl
    unfold timaStep
    dsimp only
    split
    · exact (hstep _).trans hs
    · exact hs

theorem updateTimer_follows (cycles : Int) {b : Bus σ} (hs : StatOK b.lcd) :
    FollowsLine b (updateTimer cycles b) := by
  refine .still hs ?_ (updateTimer_stat cycles b)
  rw [updateTimer_lcd]
  exact ⟨rfl, rfl⟩

theorem enterTransfer_follows {b : Bus σ} (hs : StatOK b.lcd) : FollowsLine b (enterTransfer b) := by
  unfold enterTransfer
  split
  · exact checkStatInterrupt_follows hs rfl
  · exact .still hs ⟨rfl, rfl⟩ rfl

/-- Drawing a line moves nothing but the window's row counter. -/
theorem finishLine_stat (b : Bus σ) : b.lcd.SameStat (finishLine b).lcd ∧ (finishLine b).irq = b.irq := by
  unfold finishLine renderLine
  dsimp only
  repeat' split
  all_goals exact ⟨⟨rfl, rfl⟩, rfl⟩

theorem enterHBlank_follows {b : Bus σ} (hs : StatOK b.lcd) : FollowsLine b (enterHBlank b) := by
  obtain ⟨hlcd, hirq⟩ := finishLine_stat b
  unfold enterHBlank
  split
  · refine checkStatInterrupt_follows ?_ ?_
    · exact hlcd.memory.trans hs
    · exact statRequested_congr (congrArg Irq.iflag hirq)
  · exact .still hs ⟨rfl, rfl⟩ rfl

theorem advanceLine_memory (l : Lcd) : (advanceLine l).prevStatLine = l.prevStatLine := by
  unfold advanceLine
  dsimp only
  split <;> rfl

/-- The line and the mode change together, before the one check. -/
theorem enterNextLine_follows {b : Bus σ} (hs : StatOK b.lcd) : FollowsLine b (enterNextLine b) := by
  have hvblank : ∀ v : UInt8, hasBits (v ||| 0x01) 0x02 = hasBits v 0x02 :=
    fun ⟨b⟩ => by revert b; decide +kernel
  unfold enterNextLine
  dsimp only
  split
  · refine checkStatInterrupt_follows ((advanceLine_memory b.lcd).trans hs) ?_
    unfold statRequested
    dsimp only
    split
    · exact hvblank _
    · rfl
  · exact .still hs ⟨rfl, rfl⟩ rfl

/-- The places of the PPU loop, on the states it reaches them in. -/
def ppuMoves (dots : Int) (b : Bus σ) : List (Bus σ × Bus σ) :=
  let b₁ := { b with lcd := { b.lcd with ppuDots := b.lcd.ppuDots + dots } }
  [(b, b₁), (b₁, enterTransfer b₁), (enterTransfer b₁, enterHBlank (enterTransfer b₁)),
    (enterHBlank (enterTransfer b₁), ppuAdvance dots b)]

theorem ppuMoves_follow (dots : Int) {b : Bus σ} (hs : StatOK b.lcd) :
    ∀ m ∈ ppuMoves dots b, FollowsLine m.1 m.2 := by
  have h₁ : FollowsLine b { b with lcd := { b.lcd with ppuDots := b.lcd.ppuDots + dots } } :=
    .still hs ⟨rfl, rfl⟩ rfl
  have h₂ := enterTransfer_follows h₁.memory
  have h₃ := enterHBlank_follows h₂.memory
  have h₄ := enterNextLine_follows h₃.memory
  intro m hm
  unfold ppuMoves at hm
  simp only [List.mem_cons, List.not_mem_nil, or_false] at hm
  rcases hm with rfl | rfl | rfl | rfl
  · exact h₁
  · exact h₂
  · exact h₃
  · exact h₄

theorem ppuAdvance_statOK (dots : Int) {b : Bus σ} (hs : StatOK b.lcd) : StatOK (ppuAdvance dots b).lcd :=
  (ppuMoves_follow dots hs
    (enterHBlank (enterTransfer { b with lcd := { b.lcd with ppuDots := b.lcd.ppuDots + dots } }),
    ppuAdvance dots b) (by simp [ppuMoves])).memory

/-! ## Runs -/

theorem cpuStep_statOK (idleBudget : Int) {g : GBEmulator σ} (h : StatOK g.bus.lcd) :
    StatOK (cpuStep env idleBudget g).2.bus.lcd :=
  cpuStep_ops (P := fun b => StatOK b.lcd) (fun o b hb => busStep_statOK o b hb) idleBudget h

theorem timedStep_statOK (idleBudget : Int) {g : GBEmulator σ} (h : StatOK g.bus.lcd) :
    StatOK (timedStep env idleBudget g).2.bus.lcd :=
  (updateTimer_follows _ (cpuStep_statOK idleBudget h)).memory

/-- The instruction boundaries of a chunk, with the cycles it has taken. -/
inductive Boundaries (env : Env σ) (s : FrameState σ) : Int → GBEmulator σ → Prop where
  | start : Boundaries env s 0 (clearLcdChanged s.gb)
  | step {cycles : Int} {g : GBEmulator σ} (h : Boundaries env s cycles g) (hc : cycles < chunkBudget s)
      (hl : ¬ g.bus.lcd.lcdChanged = true) :
      Boundaries env s (cycles + (timedStep env (chunkBudget s - cycles) g).1)
        (timedStep env (chunkBudget s - cycles) g).2

theorem Boundaries.statOK {s : FrameState σ} {cycles : Int} {g : GBEmulator σ}
    (h : Boundaries env s cycles g)
    (hs : StatOK s.gb.bus.lcd) : StatOK g.bus.lcd := by
  induction h with
  | start => exact hs
  | step _ _ _ ih => exact timedStep_statOK _ ih

/-- A chunk ends at one of its instruction boundaries. -/
theorem chunkLoop_boundary {s : FrameState σ} :
    ∀ (fuel : Nat) {cycles : Int} {g : GBEmulator σ} {r : Int × GBEmulator σ},
    Boundaries env s cycles g → chunkLoop env (chunkBudget s) fuel cycles g = some r →
      Boundaries env s r.1 r.2
  | fuel, cycles, g, r, h, hr => by
    by_cases hc : cycles < chunkBudget s ∧ ¬ g.bus.lcd.lcdChanged = true
    · cases fuel with
      | zero => rw [chunkLoop_zero hc] at hr; cases hr
      | succ fuel =>
        rw [chunkLoop_succ hc] at hr
        exact chunkLoop_boundary fuel (.step h hc.1 hc.2) hr
    · rw [chunkLoop_done hc] at hr
      obtain rfl := Option.some.inj hr
      exact h

theorem runChunk_statOK {s : FrameState σ} {r : Int × GBEmulator σ} (hs : StatOK s.gb.bus.lcd)
    (hr : runChunk env s = some r) :
    StatOK r.2.bus.lcd :=
  (chunkLoop_boundary _ .start hr).statOK hs

theorem endChunk_statOK (s : FrameState σ) {r : Int × GBEmulator σ} (h : StatOK r.2.bus.lcd) :
    StatOK (endChunk s r).gb.bus.lcd := by
  unfold endChunk
  dsimp only
  split
  · exact h
  · exact ppuAdvance_statOK _ h

theorem frameStep_statOK {s s' : FrameState σ} (h : StatOK s.gb.bus.lcd)
    (hs : frameStep env s = some s') : StatOK s'.gb.bus.lcd := by
  obtain ⟨r, hr, rfl⟩ := Option.map_eq_some_iff.mp hs
  exact endChunk_statOK s (runChunk_statOK h hr)

theorem Heads.statOK {s s' : FrameState σ} (h : StatOK s.gb.bus.lcd) (hh : Heads env s s') :
    StatOK s'.gb.bus.lcd := by
  induction hh with
  | start => exact h
  | next _ _ hs ih => exact frameStep_statOK ih hs

theorem frameLoop_statOK : ∀ (fuel : Nat) {s s' : FrameState σ}, StatOK s.gb.bus.lcd →
    frameLoop env fuel s = some s' → StatOK s'.gb.bus.lcd
  | fuel, s, s', h, hs => by
    unfold frameLoop at hs
    split at hs
    · cases fuel with
      | zero => cases hs
      | succ fuel =>
        obtain ⟨s₁, hs₁, hs⟩ := Option.bind_eq_some_iff.mp hs
        exact frameLoop_statOK fuel (frameStep_statOK h hs₁) hs
    · obtain rfl := Option.some.inj hs
      exact h

theorem runFrame_statOK {g g' : GBEmulator σ} {spent : Int} (h : StatOK g.bus.lcd)
    (hr : runFrame env g = some (g', spent)) :
    StatOK g'.bus.lcd := by
  unfold runFrame at hr
  obtain ⟨s, hs, hg⟩ := Option.map_eq_some_iff.mp hr
  obtain ⟨rfl, -⟩ := Prod.mk.inj hg
  exact frameLoop_statOK _ (s := frameStart g) h hs

/-- No source is enabled after a reset. -/
theorem reset_statOK (g : GBEmulator σ) : StatOK (reset g).bus.lcd := by
  have hnone : statLine (reset g).bus.lcd = false := by
    unfold statLine
    rw [show (reset g).bus.lcd.lcdstat = 0 from rfl]
    simp [hasBits]
  unfold StatOK statNow
  rw [hnone, Bool.and_false]
  rfl

theorem act_statOK (a : Action σ) {g : GBEmulator σ} (h : StatOK g.bus.lcd) :
    StatOK (act env a g).bus.lcd := by
  cases a with
  | write addr val => exact busStep_statOK (.write addr val) g.bus h
  | step idleBudget => exact cpuStep_statOK idleBudget h
  | reset => exact reset_statOK g
  | input buttons => exact h
  | render flag => exact h
  | countFrame => exact h
  | sound chip => exact h
  | sram data dirty => exact h
  | clock r => exact h

theorem Reachable.statOK {g : GBEmulator σ} (h : Reachable env g) : StatOK g.bus.lcd := by
  induction h with
  | boot p h =>
    obtain ⟨g₀, rfl⟩ := powerOn_reset h
    exact reset_statOK g₀
  | act a _ ih => exact act_statOK a ih
  | frame _ hr ih => exact runFrame_statOK ih hr

/-! ## Edges -/

/-- The bus operations of the step from an instruction boundary, each with the bus it is performed on. -/
def stepTrace (env : Env σ) (g : GBEmulator σ) : List (BusOp × Bus σ) :=
  if dispatches g then ((dispatch (pendingIrqs g.bus.irq)).run { g.cpu with halted := false }).trace (busStep env) g.bus
  else if (wake g).cpu.halted then [] else (instruction.run (wake g).cpu).trace (busStep env) g.bus

theorem stepTrace_statOK {g : GBEmulator σ} (h : StatOK g.bus.lcd) :
    ∀ e ∈ stepTrace env g, StatOK e.2.lcd := by
  have hP : ∀ (o : BusOp) (b : Bus σ), StatOK b.lcd → StatOK (busStep env o b).2.lcd :=
    fun o b hb => busStep_statOK o b hb
  intro e he
  unfold stepTrace at he
  split at he
  · exact Prog.trace_inv (P := fun b => StatOK b.lcd) hP _ _ h e he
  split at he
  · exact absurd he List.not_mem_nil
  · exact Prog.trace_inv (P := fun b => StatOK b.lcd) hP _ _ h e he

/-- In every run: at each instruction boundary of each chunk of each frame the detector remembers the
STAT line; every bus operation of the next step, the timer after it, and every move of the PPU after
the chunk raises the request exactly if the line rises over it, and is remembered. The two operations
by which the processor changes the request itself do not move the line. -/
theorem stat_interrupt_edges (env : Env σ) (g₀ : GBEmulator σ) (h : Reachable env g₀) (s : FrameState σ)
    (hs : Heads env (frameStart g₀) s) :
    (∀ cycles g, Boundaries env s cycles g → g.bus.lcd.prevStatLine = statNow g.bus.lcd ∧
      (∀ e ∈ stepTrace env g,
        (¬ e.1.setsRequest → FollowsLine e.2 (busStep env e.1 e.2).2) ∧
          (e.1.setsRequest → (busStep env e.1 e.2).2.lcd = e.2.lcd)) ∧
      ∀ idleBudget, FollowsLine (cpuStep env idleBudget g).2.bus (timedStep env idleBudget g).2.bus) ∧
    ∀ r, runChunk env s = some r → Boundaries env s r.1 r.2 ∧
      ∀ m ∈ ppuMoves (r.1 / speedOf s.gb.bus.cgb) r.2.bus, FollowsLine m.1 m.2 := by
  have hhead : StatOK s.gb.bus.lcd := hs.statOK h.statOK
  refine ⟨fun cycles g hg => ?_,
    fun r hr => ⟨chunkLoop_boundary _ .start hr, ppuMoves_follow _ (runChunk_statOK hhead hr)⟩⟩
  have hok := hg.statOK hhead
  refine ⟨hok, fun e he => ⟨fun ho => ?_, fun ho => busStep_setsRequest ho e.2⟩, fun idleBudget => ?_⟩
  · exact busStep_follows e.1 ho (stepTrace_statOK hok e he)
  · exact updateTimer_follows _ (cpuStep_statOK idleBudget hok)

/-- A cartridge that enables the STAT interrupt of mode 2: LD A,20; LDH (41),A. -/
def statEnv : Env Unit :=
  { blankEnv with rom := fun a => ([(0x100, 0x3E), (0x101, 0x20), (0x102, 0xE0), (0x103, 0x41)].lookup a).getD 0 }

def statSetup : Setup := { data := some ⟨0x8000, statEnv.rom⟩, size := 0x8000 }

def statStart : GBEmulator Unit := (powerOn statSetup).getD (prepare statSetup)

/-- Before its second instruction, which writes the register. -/
def statSecond : GBEmulator Unit := (timedStep statEnv 80 (clearLcdChanged statStart)).2

/-- The line rises over that write, and the interrupt is requested. -/
theorem stat_interrupt_edges_rise : Reachable statEnv statStart ∧
    ∃ cycles, Boundaries statEnv (frameStart statStart) cycles statSecond ∧
    ∃ e ∈ stepTrace statEnv statSecond, e.1 = .write 0xFF41 0x20 ∧ statNow e.2.lcd = false ∧
      statRequested e.2 = false ∧ statNow (busStep statEnv e.1 e.2).2.lcd = true ∧
      statRequested (busStep statEnv e.1 e.2).2 = true := by
  have hreach : Reachable statEnv statStart := .boot statSetup rfl
  have hbudget : chunkBudget (frameStart statStart) = 80 := by decide +kernel
  have hbound : Boundaries statEnv (frameStart statStart) 8 statSecond := by
    have hfirst : Boundaries statEnv (frameStart statStart) _ _ :=
      Boundaries.start.step (by decide +kernel) (by decide +kernel)
    rw [hbudget] at hfirst
    exact hfirst
  obtain ⟨e, he⟩ : ∃ e, (stepTrace statEnv statSecond)[2]? = some e :=
    Option.isSome_iff_exists.1 (by decide +kernel)
  have hat {α : Type} (f : BusOp × Bus Unit → α) {a : α}
      (h : (stepTrace statEnv statSecond)[2]?.map f = some a) : f e = a := by
    rw [he] at h
    exact Option.some.inj h
  have hwrite : e.1 = .write 0xFF41 0x20 := hat Prod.fst (by decide +kernel)
  have hlow : statNow e.2.lcd = false := hat (fun e => statNow e.2.lcd) (by decide +kernel)
  have hnone : statRequested e.2 = false := hat (fun e => statRequested e.2) (by decide +kernel)
  have hhigh : statNow (busStep statEnv e.1 e.2).2.lcd = true :=
    hat (fun e => statNow (busStep statEnv e.1 e.2).2.lcd) (by decide +kernel)
  have hfollows := (((stat_interrupt_edges statEnv statStart hreach _ .start).1 8 _ hbound).2.1 e
    (List.mem_of_getElem? he)).1 (by rw [hwrite]; unfold BusOp.setsRequest; decide)
  refine ⟨hreach, 8, hbound, e, List.mem_of_getElem? he, hwrite, hlow, hnone, hhigh, ?_⟩
  rw [hfollows.request, hlow, hhigh]
  exact Bool.or_true _
end FoloGameboy

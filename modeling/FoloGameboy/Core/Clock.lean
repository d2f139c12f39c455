/-
The clocks of `runFrame`: what a chunk of the inner loop returns and leaves in the LCD registers,
the PPU position every outer iteration starts from, and that each iteration moves time forward.
-/
import FoloGameboy.Core.StepLaws

namespace FoloGameboy

variable {σ : Type} {env : Env σ}

/-! ## The LCD registers during a chunk -/

/-- The PPU was reset by switching the LCD on or off. -/
structure Restarted (l₀ l : Lcd) : Prop where
  changed : l.lcdChanged = true
  ly : l.ly = 0
  ppuDots : l.ppuDots = 0
  ppuMode : l.ppuMode = if hasBits l.lcdc 0x80 then 2 else 0
  frameOvershoot : l.frameOvershoot = l₀.frameOvershoot

/-- The PPU stands where it stood, or it was reset. -/
def Tracks (l₀ l : Lcd) : Prop := l₀.SamePosition l ∨ Restarted l₀ l

theorem Tracks.frameOvershoot {l₀ l : Lcd} (h : Tracks l₀ l) : l.frameOvershoot = l₀.frameOvershoot :=
  h.elim (fun h => h.frameOvershoot) fun h => h.frameOvershoot

theorem Tracks.keep {l₀ l l' : Lcd} (h : Tracks l₀ l) (h' : l.SamePosition l') : Tracks l₀ l' := by
  rcases h with h | h
  · exact .inl (h.trans h')
  · exact .inr ⟨h'.lcdChanged.trans h.changed, h'.ly.trans h.ly, h'.ppuDots.trans h.ppuDots,
      h'.ppuMode.trans (by rw [h'.enabled]; exact h.ppuMode), h'.frameOvershoot.trans h.frameOvershoot⟩

theorem writeLcdc_restarted {val : UInt8} {b : Bus σ} (h : hasBits b.lcd.lcdc 0x80 ≠ hasBits val 0x80) :
    Restarted b.lcd (writeLcdc val b).lcd := by
  unfold writeLcdc
  rw [if_pos h]
  have hpos := checkStatInterrupt_position { b with
    lcd := toggleLcd b.lcd val, screen := if hasBits val 0x80 then b.screen else blankScreen b.screen }
  refine ⟨hpos.lcdChanged, hpos.ly, hpos.ppuDots, hpos.ppuMode.trans ?_, hpos.frameOvershoot⟩
  rw [hpos.enabled]; rfl

/-- Every bus operation keeps the PPU in place or resets it. -/
theorem BusEffect.tracks {l₀ : Lcd} {b b' : Bus σ} (h : Tracks l₀ b.lcd) (he : BusEffect env b b') :
    Tracks l₀ b'.lcd := by
  cases he with
  | quiet hq => exact h.keep hq.lcd
  | mapper addr val => exact h
  | lcd val hne =>
    have hr := writeLcdc_restarted hne
    exact .inr ⟨hr.changed, hr.ly, hr.ppuDots, hr.ppuMode, hr.frameOvershoot.trans h.frameOvershoot⟩

theorem cpuStep_tracks {l₀ : Lcd} (idleBudget : Int) {g : GBEmulator σ} (h : Tracks l₀ g.bus.lcd) :
    Tracks l₀ (cpuStep env idleBudget g).2.bus.lcd :=
  cpuStep_inv (P := fun b => Tracks l₀ b.lcd) (fun _ _ h he => he.tracks h) idleBudget h

theorem updateTimer_lcd (cycles : Int) (b : Bus σ) : (updateTimer cycles b).lcd = b.lcd := by
  obtain ⟨t, i, h⟩ := updateTimer_eq cycles b
  rw [h]

theorem timedStep_tracks {l₀ : Lcd} (idleBudget : Int) {g : GBEmulator σ} (h : Tracks l₀ g.bus.lcd) :
    Tracks l₀ (timedStep env idleBudget g).2.bus.lcd := by
  show Tracks l₀ (updateTimer _ _).lcd
  rw [updateTimer_lcd]
  exact cpuStep_tracks idleBudget h

/-- A step that toggles the LCD has a cost. -/
theorem timedStep_changed (idleBudget : Int) {g : GBEmulator σ} (h : g.bus.lcd.lcdChanged = false)
    (h' : (timedStep env idleBudget g).2.bus.lcd.lcdChanged = true) :
    4 ≤ (timedStep env idleBudget g).1 := by
  have hlcd : (timedStep env idleBudget g).2.bus.lcd = (cpuStep env idleBudget g).2.bus.lcd :=
    updateTimer_lcd _ _
  rw [hlcd] at h'
  show 4 ≤ (cpuStep env idleBudget g).1
  rcases cpuStep_cost env idleBudget g with hc | hc | ⟨-, hc⟩
  · exact hc.pos
  · rw [hc] at h' ⊢
    exact haltSkip_ge ..
  · rw [hc] at h'
    have hread := (readByte_frame env g.cpu.pc g.bus).quiet.lcd.lcdChanged
    rw [h] at hread
    exact Bool.noConfusion (hread.symm.trans h')

variable (env) in
theorem timedStep_le {idleBudget : Int} (hb : 1 ≤ idleBudget) (g : GBEmulator σ) :
    (timedStep env idleBudget g).1 < idleBudget + 24 := by
  show (cpuStep env idleBudget g).1 < idleBudget + 24
  rcases cpuStep_cost env idleBudget g with hc | hc | ⟨-, hc⟩
  · have := hc.le; omega
  · rw [hc]
    show haltSkip _ _ _ < _
    unfold haltSkip
    dsimp only
    split <;> split at * <;> omega
  · rw [hc]; show (0 : Int) < _; omega

/-! ## A whole chunk -/

/-- The result of a chunk: it used its budget, with less than 24 cycles over it, or it stopped at
an LCD toggle after an instruction with a cost. -/
structure ChunkOK (l₀ : Lcd) (budget : Int) (r : Int × GBEmulator σ) : Prop where
  tracks : Tracks l₀ r.2.bus.lcd
  lt : r.1 < budget + 24
  done : budget ≤ r.1 ∨ (r.2.bus.lcd.lcdChanged = true ∧ 4 ≤ r.1)

theorem chunkLoop_ok {l₀ : Lcd} {budget : Int} : ∀ (fuel : Nat) (cycles : Int) (g : GBEmulator σ)
    (r : Int × GBEmulator σ), Tracks l₀ g.bus.lcd → 0 ≤ cycles → cycles < budget + 24 →
    (g.bus.lcd.lcdChanged = true → 4 ≤ cycles) → chunkLoop env budget fuel cycles g = some r →
      ChunkOK l₀ budget r
  | fuel, cycles, g, r, ht, h0, hlt, hch, hr => by
    by_cases hc : cycles < budget ∧ ¬ g.bus.lcd.lcdChanged = true
    · cases fuel with
      | zero => rw [chunkLoop_zero hc] at hr; cases hr
      | succ fuel =>
        rw [chunkLoop_succ hc] at hr
        have hnonneg : 0 ≤ (timedStep env (budget - cycles) g).1 := cpuStep_nonneg env (budget - cycles) g
        have hle := timedStep_le env (show 1 ≤ budget - cycles by omega) g
        refine chunkLoop_ok fuel _ _ r (timedStep_tracks _ ht) (by omega) (by omega) (fun h => ?_) hr
        have := timedStep_changed (budget - cycles) (eq_false_of_ne_true hc.2) h
        omega
    · rw [chunkLoop_done hc] at hr
      obtain rfl := Option.some.inj hr
      refine ⟨ht, hlt, ?_⟩
      by_cases hb : budget ≤ cycles
      · exact .inl hb
      · have hchanged : g.bus.lcd.lcdChanged = true := by
          by_contra hn
          exact hc ⟨by omega, hn⟩
        exact .inr ⟨hchanged, hch hchanged⟩

theorem runChunk_ok {s : FrameState σ} {r : Int × GBEmulator σ} (hb : 1 ≤ chunkBudget s)
    (h : runChunk env s = some r) : ChunkOK (clearLcdChanged s.gb).bus.lcd (chunkBudget s) r :=
  chunkLoop_ok _ 0 (clearLcdChanged s.gb) r (.inl (.refl _)) (by omega) (by omega)
    (fun h => Bool.noConfusion h) h

theorem fuel_step {a b d d' fuel K : Nat} (hab : b + 1 ≤ a) (hd : d' < K) (h : a * K + d ≤ fuel + 1) :
    b * K + d' ≤ fuel := by
  have hmul : b * K + K ≤ a * K := by
    rw [← Nat.succ_mul]; exact Nat.mul_le_mul_right K hab
  omega

/-- Steps without a cost are bounded between two steps with one, so the fuel of a chunk suffices. -/
theorem chunkLoop_isSome {budget : Int} (fuel : Nat) (cycles : Int) (g : GBEmulator σ)
    (hf : (budget - cycles).toNat * 65537 + idleDistance g.cpu ≤ fuel) :
    (chunkLoop env budget fuel cycles g).isSome := by
  induction fuel generalizing cycles g with
  | zero =>
    by_cases hc : cycles < budget ∧ ¬ g.bus.lcd.lcdChanged = true
    · omega
    · rw [chunkLoop_done hc]; rfl
  | succ fuel ih =>
    by_cases hc : cycles < budget ∧ ¬ g.bus.lcd.lcdChanged = true
    · rw [chunkLoop_succ hc]
      apply ih
      have hdist := idleDistance_le (timedStep env (budget - cycles) g).2.cpu
      have hstep : 4 ≤ (timedStep env (budget - cycles) g).1 ∨ ((timedStep env (budget - cycles) g).1 = 0 ∧
          idleDistance (timedStep env (budget - cycles) g).2.cpu < idleDistance g.cpu) :=
        cpuStep_progress env (budget - cycles) g
      rcases hstep with h | ⟨h, hlt⟩
      · exact fuel_step (by omega) (Nat.lt_succ_of_le hdist) hf
      · rw [h, Int.add_zero]
        exact Nat.le_of_lt_succ (Nat.lt_of_lt_of_le (Nat.add_lt_add_left hlt _) hf)
    · rw [chunkLoop_done hc]; rfl

theorem runChunk_isSome (s : FrameState σ) : (runChunk env s).isSome := by
  refine chunkLoop_isSome _ 0 _ ?_
  have hdist := idleDistance_le (clearLcdChanged s.gb).cpu
  unfold chunkFuel
  rw [Int.sub_zero, Nat.add_mul]
  omega

/-! ## Where an outer iteration starts -/

def LcdOn (l : Lcd) : Prop := hasBits l.lcdc 0x80 = true

instance (l : Lcd) : Decidable (LcdOn l) := by unfold LcdOn; infer_instance

/-- The PPU mode of a dot in a line. -/
def modeAt (ly : UInt8) (dots : Int) : UInt8 :=
  if 144 ≤ ly then 1 else if dots < 80 then 2 else if dots < 252 then 3 else 0

/-- The PPU position of a running LCD: a line of the frame, a dot of the line, and their mode. -/
structure PpuOK (l : Lcd) : Prop where
  overshoot : 0 ≤ l.frameOvershoot
  ly : LcdOn l → l.ly < 154
  dots : LcdOn l → 0 ≤ l.ppuDots ∧ l.ppuDots < 456
  mode : LcdOn l → l.ppuMode = modeAt l.ly l.ppuDots

theorem PpuOK.keep {l l' : Lcd} (h : PpuOK l) (hs : l.SamePosition l') : PpuOK l' := by
  have hon : LcdOn l' → LcdOn l := fun hn => hs.enabled.symm.trans hn
  refine ⟨by rw [hs.frameOvershoot]; exact h.overshoot, fun hn => ?_, fun hn => ?_, fun hn => ?_⟩
  · rw [hs.ly]; exact h.ly (hon hn)
  · rw [hs.ppuDots]; exact h.dots (hon hn)
  · rw [hs.ppuMode, hs.ly, hs.ppuDots]; exact h.mode (hon hn)

theorem Restarted.ppuOK {l₀ l : Lcd} (h : Restarted l₀ l) (h₀ : 0 ≤ l₀.frameOvershoot) : PpuOK l := by
  refine ⟨by rw [h.frameOvershoot]; exact h₀, fun _ => ?_, fun _ => ?_, fun hn => ?_⟩
  · rw [h.ly]; decide
  · rw [h.ppuDots]; omega
  · rw [h.ppuMode, h.ly, h.ppuDots, show hasBits l.lcdc 0x80 = true from hn]; rfl

theorem PpuOK.tracks {l₀ l : Lcd} (h₀ : PpuOK l₀) (h : Tracks l₀ l) : PpuOK l :=
  h.elim h₀.keep fun hr => hr.ppuOK h₀.overshoot

/-- A chunk has a budget of at least one dot, and ends at most at the phase boundary. -/
theorem chunkDots_pos {elapsed : Int} {l : Lcd} (h : PpuOK l) (he : elapsed < FRAME_CYCLES) :
    1 ≤ chunkDots elapsed l := by
  have hdots := h.dots
  unfold chunkDots phaseBoundary
  unfold LcdOn at hdots
  by_cases hon : hasBits l.lcdc 0x80 = true
  · have hdots := hdots hon
    rw [if_pos hon]
    dsimp only
    repeat' split
    all_goals omega
  · rw [if_neg hon]
    dsimp only
    split <;> omega

theorem chunkDots_le (elapsed : Int) {l : Lcd} (hon : LcdOn l) :
    l.ppuDots + chunkDots elapsed l ≤ phaseBoundary l := by
  unfold LcdOn at hon
  unfold chunkDots
  rw [if_pos hon]
  dsimp only
  split <;> omega

/-! ## One PPU update -/

/-- The line after `ly`. -/
def nextLine (ly : UInt8) : UInt8 := if 154 ≤ ly + 1 then 0 else ly + 1

/-- `l'` is `l` moved to a line, a dot and a mode. -/
structure Lcd.At (l l' : Lcd) (ly : UInt8) (dots : Int) (mode : UInt8) : Prop where
  ly : l'.ly = ly
  ppuDots : l'.ppuDots = dots
  ppuMode : l'.ppuMode = mode
  frameOvershoot : l'.frameOvershoot = l.frameOvershoot
  enabled : hasBits l'.lcdc 0x80 = hasBits l.lcdc 0x80

section

variable {l l' l'' : Lcd} {ly mode : UInt8} {dots : Int} {b : Bus σ}

theorem Lcd.At.keep (h : l.At l' ly dots mode) (hs : l'.SamePosition l'') : l.At l'' ly dots mode :=
  ⟨hs.ly.trans h.ly, hs.ppuDots.trans h.ppuDots, hs.ppuMode.trans h.ppuMode,
    hs.frameOvershoot.trans h.frameOvershoot, hs.enabled.trans h.enabled⟩

theorem enterTransfer_at (h : l.At b.lcd ly dots mode) :
    l.At (enterTransfer b).lcd ly dots (if ly < 144 ∧ mode = 2 ∧ 80 ≤ dots then 3 else mode) := by
  unfold enterTransfer
  rw [h.ly, h.ppuDots, h.ppuMode]
  split
  · refine Lcd.At.keep ?_ (checkStatInterrupt_position _)
    exact ⟨h.ly, h.ppuDots, rfl, h.frameOvershoot, h.enabled⟩
  · exact h

theorem finishLine_at (h : l.At b.lcd ly dots mode) : l.At (finishLine b).lcd ly dots mode := by
  have hwin : ∀ n, l.At { b.lcd with windowLine := n } ly dots mode := fun n =>
    ⟨h.ly, h.ppuDots, h.ppuMode, h.frameOvershoot, h.enabled⟩
  unfold finishLine renderLine
  split
  · split
    · exact h
    · dsimp only
      split
      · exact hwin _
      · exact h
  split
  · exact hwin _
  · exact h

theorem enterHBlank_at (h : l.At b.lcd ly dots mode) :
    l.At (enterHBlank b).lcd ly dots (if ly < 144 ∧ mode = 3 ∧ 252 ≤ dots then 0 else mode) := by
  unfold enterHBlank
  rw [h.ly, h.ppuDots, h.ppuMode]
  split
  · have hline := finishLine_at h
    refine Lcd.At.keep ?_ (checkStatInterrupt_position _)
    exact ⟨hline.ly, hline.ppuDots, rfl, hline.frameOvershoot, hline.enabled⟩
  · exact h

theorem advanceLine_at (h : l.At l' ly dots mode) :
    l.At (advanceLine l') (nextLine ly) (dots - 456) (if nextLine ly < 144 then 2 else 1) := by
  unfold advanceLine nextLine
  dsimp only
  rw [h.ly, h.ppuDots]
  split
  · exact ⟨rfl, rfl, rfl, h.frameOvershoot, h.enabled⟩
  · exact ⟨rfl, rfl, rfl, h.frameOvershoot, h.enabled⟩

theorem enterNextLine_at (h : l.At b.lcd ly dots mode) (hd : 456 ≤ dots) :
    l.At (enterNextLine b).lcd (nextLine ly) (dots - 456) (if nextLine ly < 144 then 2 else 1) := by
  unfold enterNextLine
  rw [h.ppuDots, if_pos hd]
  refine (advanceLine_at h).keep ?_
  exact checkStatInterrupt_position { b with
    lcd := advanceLine b.lcd
    irq := if (advanceLine b.lcd).ly = 144 then { b.irq with iflag := b.irq.iflag ||| 0x01 } else b.irq }

theorem enterNextLine_same (h : l.At b.lcd ly dots mode) (hd : dots < 456) : enterNextLine b = b := by
  unfold enterNextLine
  rw [h.ppuDots, if_neg (by omega)]

end

/-- The PPU update after a chunk moves the dot, into the next line when the line is over, and the
mode stays that of the dot. -/
structure Advanced (l l' : Lcd) (dots : Int) : Prop where
  same : l.ppuDots + dots < 456 → l'.ly = l.ly ∧ l'.ppuDots = l.ppuDots + dots
  next : 456 ≤ l.ppuDots + dots → l'.ly = nextLine l.ly ∧ l'.ppuDots = l.ppuDots + dots - 456
  mode : l'.ppuMode = modeAt l'.ly l'.ppuDots
  frameOvershoot : l'.frameOvershoot = l.frameOvershoot
  enabled : hasBits l'.lcdc 0x80 = hasBits l.lcdc 0x80

/-- At most one phase boundary is crossed, so the mode changes made are the ones of the new dot. -/
theorem phase_mode {l : Lcd} {d : Int} (hd : l.ppuDots ≤ d) (hlt : d < phaseBoundary l + 24)
    {m : UInt8} (hm : m = modeAt l.ly l.ppuDots) :
    (if l.ly < 144 ∧ (if l.ly < 144 ∧ m = 2 ∧ 80 ≤ d then 3 else m) = 3 ∧ 252 ≤ d then 0
      else if l.ly < 144 ∧ m = 2 ∧ 80 ≤ d then 3 else m) = modeAt l.ly d := by
  unfold modeAt at *
  unfold phaseBoundary at hlt
  by_cases hly : l.ly < 144
  · have hge : ¬ 144 ≤ l.ly := UInt8.not_le.mpr hly
    simp only [hly, hge, true_and, if_false] at *
    by_cases h80 : l.ppuDots < 80
    · simp only [h80, if_true] at hm hlt
      subst hm
      by_cases hd80 : 80 ≤ d
      · simp [hd80, show ¬ 252 ≤ d by omega, show ¬ d < 80 by omega, show d < 252 by omega]
      · simp [hd80, show d < 80 by omega]
    by_cases h252 : l.ppuDots < 252
    · simp only [h80, h252, if_true, if_false] at hm hlt
      subst hm
      by_cases hd252 : 252 ≤ d
      · simp [hd252, show ¬ d < 80 by omega, show ¬ d < 252 by omega]
      · simp [hd252, show ¬ d < 80 by omega, show d < 252 by omega]
    · simp only [h80, h252, if_false] at hm
      subst hm
      simp [show ¬ d < 80 by omega, show ¬ d < 252 by omega]
  · have hge : 144 ≤ l.ly := UInt8.not_lt.mp hly
    simp only [hly, hge, false_and, if_true, if_false] at *
    exact hm

theorem nextLine_mode {ly : UInt8} {d : Int} (hd : d < 80) :
    (if nextLine ly < 144 then 2 else 1) = modeAt (nextLine ly) d := by
  unfold modeAt
  by_cases h : nextLine ly < 144
  · rw [if_pos h, if_neg (UInt8.not_le.mpr h), if_pos hd]
  · rw [if_neg h, if_pos (UInt8.not_lt.mp h)]

theorem phaseBoundary_le (l : Lcd) : phaseBoundary l ≤ 456 := by
  unfold phaseBoundary; split <;> try split
  all_goals omega

theorem ppuAdvance_advanced {b : Bus σ} {dots : Int} (h : PpuOK b.lcd) (hon : LcdOn b.lcd) (hd : 0 ≤ dots)
    (hlt : b.lcd.ppuDots + dots < phaseBoundary b.lcd + 24) :
    Advanced b.lcd (ppuAdvance dots b).lcd dots := by
  have hstart :
    b.lcd.At { b.lcd with ppuDots := b.lcd.ppuDots + dots } b.lcd.ly (b.lcd.ppuDots + dots)
    b.lcd.ppuMode :=
    ⟨rfl, rfl, rfl, rfl, rfl⟩
  have hline := enterHBlank_at (enterTransfer_at
    (b := { b with lcd := { b.lcd with ppuDots := b.lcd.ppuDots + dots } }) hstart)
  unfold ppuAdvance
  by_cases hnext : 456 ≤ b.lcd.ppuDots + dots
  · have hat := enterNextLine_at hline hnext
    have hle := phaseBoundary_le b.lcd
    refine ⟨fun hlt => absurd hnext (by omega), fun _ => ⟨hat.ly, hat.ppuDots⟩, ?_,
      hat.frameOvershoot, hat.enabled⟩
    rw [hat.ppuMode, hat.ly, hat.ppuDots]
    exact nextLine_mode (by omega)
  · rw [enterNextLine_same hline (by omega)]
    refine ⟨fun _ => ⟨hline.ly, hline.ppuDots⟩, fun hge => absurd hge hnext, ?_,
      hline.frameOvershoot, hline.enabled⟩
    rw [hline.ppuMode, hline.ly, hline.ppuDots]
    exact phase_mode (by omega) hlt (h.mode hon)

theorem Advanced.ppuOK {l l' : Lcd} {dots : Int} (ha : Advanced l l' dots) (h : PpuOK l)
    (hon : LcdOn l) (hd : 0 ≤ dots)
    (hlt : l.ppuDots + dots < phaseBoundary l + 24) : PpuOK l' := by
  have hle := phaseBoundary_le l
  have hdots := h.dots hon
  have hnext : ∀ ly : UInt8, ly < 154 → nextLine ly < 154 := by
    intro ly hly
    unfold nextLine
    split
    · decide
    · exact UInt8.not_le.mp ‹_›
  refine ⟨by rw [ha.frameOvershoot]; exact h.overshoot, fun _ => ?_, fun _ => ?_, fun _ => ha.mode⟩
  · by_cases hn : l.ppuDots + dots < 456
    · rw [(ha.same hn).1]; exact h.ly hon
    · rw [(ha.next (by omega)).1]; exact hnext _ (h.ly hon)
  · by_cases hn : l.ppuDots + dots < 456
    · rw [(ha.same hn).2]; omega
    · rw [(ha.next (by omega)).2]; omega

/-! ## One outer iteration -/

theorem speedOf_cases (c : Cgb) : speedOf c = 1 ∨ speedOf c = 2 := by
  unfold speedOf; split
  · exact .inr rfl
  · exact .inl rfl

theorem clearLcdChanged_ppuOK {g : GBEmulator σ} (h : PpuOK g.bus.lcd) :
    PpuOK (clearLcdChanged g).bus.lcd :=
  ⟨h.overshoot, h.ly, h.dots, h.mode⟩

/-- The dots a chunk took: at least one, and less than 24 over its budget. -/
theorem chunk_dots {s : FrameState σ} {r : Int × GBEmulator σ} (hb : 1 ≤ chunkDots s.elapsed s.gb.bus.lcd)
    {l : Lcd} (hr : ChunkOK l (chunkBudget s) r) :
    1 ≤ r.1 / speedOf s.gb.bus.cgb ∧ r.1 / speedOf s.gb.bus.cgb < chunkDots s.elapsed s.gb.bus.lcd +
      24 := by
  have hlt := hr.lt
  have hdone : chunkBudget s ≤ r.1 ∨ 4 ≤ r.1 := hr.done.imp id fun h => h.2
  unfold chunkBudget at hlt hdone
  rcases speedOf_cases s.gb.bus.cgb with hs | hs <;> rw [hs] at hlt hdone ⊢ <;> omega

theorem chunkBudget_pos {s : FrameState σ} (h : PpuOK s.gb.bus.lcd) (he : s.elapsed < FRAME_CYCLES) :
    1 ≤ chunkBudget s := by
  have hdots := chunkDots_pos h he
  unfold chunkBudget
  rcases speedOf_cases s.gb.bus.cgb with hs | hs <;> rw [hs] <;> omega

/-- What an iteration does to a running LCD that no instruction toggled: it advances by the chunk. -/
theorem endChunk_running {s : FrameState σ} {r : Int × GBEmulator σ} (h : PpuOK s.gb.bus.lcd)
    (he : s.elapsed < FRAME_CYCLES) (hr : runChunk env s = some r) (hon : LcdOn s.gb.bus.lcd)
    (hch : r.2.bus.lcd.lcdChanged = false) :
    (clearLcdChanged s.gb).bus.lcd.SamePosition r.2.bus.lcd ∧
    (endChunk s r).gb.bus = ppuAdvance (r.1 / speedOf s.gb.bus.cgb) r.2.bus ∧
    r.2.bus.lcd.ppuDots + r.1 / speedOf s.gb.bus.cgb < phaseBoundary r.2.bus.lcd + 24 := by
  have hok := runChunk_ok (chunkBudget_pos h he) hr
  have hsame : (clearLcdChanged s.gb).bus.lcd.SamePosition r.2.bus.lcd := by
    rcases hok.tracks with hs | hs
    · exact hs
    · exact Bool.noConfusion (hch.symm.trans hs.changed)
  refine ⟨hsame, ?_, ?_⟩
  · unfold endChunk
    dsimp only
    rw [if_neg]
    rintro (hoff | hc)
    · exact hoff hon
    · exact Bool.noConfusion (hch.symm.trans hc)
  · have hdots := (chunk_dots (chunkDots_pos h he) hok).2
    have hle := chunkDots_le s.elapsed hon
    have hb : phaseBoundary r.2.bus.lcd = phaseBoundary s.gb.bus.lcd := by
      unfold phaseBoundary; rw [hsame.ly, hsame.ppuDots]; rfl
    have hd : r.2.bus.lcd.ppuDots = s.gb.bus.lcd.ppuDots := hsame.ppuDots
    rw [hb, hd]; omega

/-- An iteration with the LCD off, or in which it was toggled, leaves the PPU to the chunk. -/
theorem endChunk_stopped {s : FrameState σ} {r : Int × GBEmulator σ}
    (h : ¬ LcdOn s.gb.bus.lcd ∨ r.2.bus.lcd.lcdChanged = true) : (endChunk s r).gb.bus = r.2.bus := by
  unfold endChunk
  exact if_pos h

/-- What an outer iteration does to the clocks: time moves forward and the PPU stays in place. -/
structure IterationOK (s s' : FrameState σ) : Prop where
  forward : s.elapsed + 1 ≤ s'.elapsed
  lt : s'.elapsed < s.elapsed + chunkDots s.elapsed s.gb.bus.lcd + 24
  ppu : PpuOK s'.gb.bus.lcd
  overshoot : s'.gb.bus.lcd.frameOvershoot = s.gb.bus.lcd.frameOvershoot

theorem endChunk_ok {s : FrameState σ} {r : Int × GBEmulator σ} (h : PpuOK s.gb.bus.lcd)
    (he : s.elapsed < FRAME_CYCLES) (hr : runChunk env s = some r) : IterationOK s (endChunk s r) := by
  have hok := runChunk_ok (chunkBudget_pos h he) hr
  obtain ⟨hpos, hlt⟩ := chunk_dots (chunkDots_pos h he) hok
  have helapsed : (endChunk s r).elapsed = s.elapsed + r.1 / speedOf s.gb.bus.cgb := rfl
  have hppu : PpuOK r.2.bus.lcd := (clearLcdChanged_ppuOK h).tracks hok.tracks
  refine ⟨by omega, by omega, ?_, ?_⟩ <;> by_cases hstop : ¬ LcdOn s.gb.bus.lcd ∨
    r.2.bus.lcd.lcdChanged = true
  · rw [endChunk_stopped hstop]; exact hppu
  · rw [not_or, not_not] at hstop
    obtain ⟨hsame, hbus, hend⟩ := endChunk_running h he hr hstop.1 (eq_false_of_ne_true hstop.2)
    have hon : LcdOn r.2.bus.lcd := hsame.enabled.trans hstop.1
    rw [hbus]
    exact (ppuAdvance_advanced hppu hon (by omega) hend).ppuOK hppu hon (by omega) hend
  · rw [endChunk_stopped hstop]; exact hok.tracks.frameOvershoot
  · rw [not_or, not_not] at hstop
    obtain ⟨hsame, hbus, hend⟩ := endChunk_running h he hr hstop.1 (eq_false_of_ne_true hstop.2)
    have hon : LcdOn r.2.bus.lcd := hsame.enabled.trans hstop.1
    rw [hbus, (ppuAdvance_advanced hppu hon (by omega) hend).frameOvershoot]
    exact hok.tracks.frameOvershoot

theorem frameStep_ok {s s' : FrameState σ} (h : PpuOK s.gb.bus.lcd) (he : s.elapsed < FRAME_CYCLES)
    (hs : frameStep env s = some s') : IterationOK s s' := by
  obtain ⟨r, hr, rfl⟩ := Option.map_eq_some_iff.mp hs
  exact endChunk_ok h he hr

variable (env) in
theorem frameStep_isSome (s : FrameState σ) : (frameStep env s).isSome := by
  unfold frameStep
  rw [Option.isSome_map]
  exact runChunk_isSome s

/-- Every iteration takes at least one of the frame's cycles, so the fuel of a frame suffices. -/
theorem frameLoop_isSome (fuel : Nat) (s : FrameState σ) (h : PpuOK s.gb.bus.lcd)
    (hf : (FRAME_CYCLES - s.elapsed).toNat ≤ fuel) : (frameLoop env fuel s).isSome := by
  induction fuel generalizing s with
  | zero =>
    unfold frameLoop
    rw [if_neg (by omega)]; rfl
  | succ fuel ih =>
    unfold frameLoop
    split
    · rename_i he
      obtain ⟨s', hs⟩ := Option.isSome_iff_exists.mp (frameStep_isSome env s)
      have hok := frameStep_ok h he hs
      have hforward := hok.forward
      show ((frameStep env s).bind (frameLoop env fuel)).isSome
      rw [hs]
      exact ih s' hok.ppu (by omega)
    · rfl

end FoloGameboy

/-
Writes to the clock's registers. The clock is brought up to date only when it is polled, and a write does
not poll it: the seconds that are pending then are added to what was written, or lost to a halt, or
counted for a halt. Compared with a clock that goes on between the accesses.
-/
import Mathlib.Algebra.Group.Nat.Defs
import FoloGameboy.Core.Rtc

namespace FoloGameboy

variable {σ : Type} {env : Env σ}

/-! ## A clock that goes on -/

def Calendar.write (bank val : UInt8) (c : Calendar) : Calendar :=
  match bank.toNat with
  | 0x08 => { c with second := (val &&& (0x3F : UInt8)).toNat }
  | 0x09 => { c with minute := (val &&& (0x3F : UInt8)).toNat }
  | 0x0A => { c with hour := (val &&& (0x1F : UInt8)).toNat }
  | 0x0B => { c with day := val.toNat + 256 * (c.day / 256) }
  | 0x0C => { c with day := c.day % 256 + 256 * (val &&& (1 : UInt8)).toNat, carry := hasBits val 0x80 }
  | _ => c

def haltWritten (bank val : UInt8) (halted : Bool) : Bool :=
  match bank.toNat with
  | 0x0C => hasBits val 0x40
  | _ => halted

/-- What the calendar was at a time, and how far into a second. -/
structure WallClock where
  calendar : Calendar
  halted : Bool
  time : Nat
  phase : Nat

namespace WallClock

def millis (c : WallClock) (t : Nat) : Nat := c.phase + (t - c.time)

def read (c : WallClock) (t : Nat) : Calendar := if c.halted then c.calendar else c.calendar.add (c.millis t / 1000)

/-- A write takes effect at its time. A clock that has stood still starts at some point of a second. -/
def write (c : WallClock) (t : Nat) (bank val : UInt8) (phase : Nat) : WallClock where
  calendar := (c.read t).write bank val
  halted := haltWritten bank val c.halted
  time := t
  phase := if c.halted then phase else c.millis t % 1000

/-- The clock may show a calendar after some writes: these and their times alone determine it, up to
the phases of the halts. -/
def Shows (c : WallClock) : List (Nat × UInt8 × UInt8) → Nat → Calendar → Prop
  | [], t, shown => c.read t = shown
  | (t, bank, val) :: writes, last, shown => ∃ phase < 1000, (c.write t bank val phase).Shows writes last shown

end WallClock

/-- What is written is read at once. -/
theorem WallClock.read_write (c : WallClock) (t : Nat) (bank val : UInt8) {phase : Nat} (h : phase < 1000) :
    (c.write t bank val phase).read t = (c.read t).write bank val := by
  have hzero : (c.write t bank val phase).millis t / 1000 = 0 := by
    show ((if c.halted then phase else c.millis t % 1000) + (t - t)) / 1000 = 0
    split <;> omega
  rw [WallClock.read, hzero]
  exact ite_self _

/-! ## Schedules -/

/-- The clock at one time. -/
def atTime (env : Env σ) (t : Nat) : Env σ := { env with millis := fun _ => UInt32.ofNat t }

def timedRun (env : Env σ) (r : Rtc) (ops : List (Nat × RtcOp)) : Rtc :=
  ops.foldl (fun r o => o.2.run (atTime env o.1) r) r

def writesOf (ops : List (Nat × RtcOp)) : List (Nat × UInt8 × UInt8) :=
  ops.filterMap fun
    | (t, .write bank val) => some (t, bank, val)
    | _ => none

/-- The milliseconds since the anchor, as a tick computes them. -/
def pending (r : Rtc) (t : Nat) : Nat := (UInt32.ofNat t - r.rtcLastTickMs).toNat

/-- A write changes a clock that runs, or lets it run again. -/
def ChangesTime (r : Rtc) : RtcOp → Prop
  | .write bank val => rtcHalted r = false ∨ haltWritten bank val (rtcHalted r) = false
  | _ => False

/-- An access finds the anchor set, while the clock runs within a turn of the counter, and with no
whole second pending if it is a write that changes the time. -/
structure Prompt (last : Nat) (r : Rtc) (t : Nat) (op : RtcOp) : Prop where
  later : last ≤ t
  anchored : r.rtcLastTickMs ≠ 0
  turn : rtcHalted r = false → pending r last + (t - last) < 2 ^ 32
  write : ChangesTime r op → pending r t < 1000

/-- Every access of a schedule is prompt, in the state it meets. -/
def AllPrompt (env : Env σ) (last : Nat) (r : Rtc) : List (Nat × RtcOp) → Prop
  | [] => True
  | (t, op) :: ops => Prompt last r t op ∧ AllPrompt env t (op.run (atTime env t) r) ops

/-- Every access of a session is prompt. The time is counted from the anchor: it is set at the start, or the
first poll sets it there, and before that nothing changes the time. -/
inductive SessionPrompt (env : Env σ) (start : Nat) : Rtc → List (Nat × RtcOp) → Prop
  | anchored {r : Rtc} {ops : List (Nat × RtcOp)} (hanchor : r.rtcLastTickMs = UInt32.ofNat start)
    (h : AllPrompt env start r ops) : SessionPrompt env start r ops
  | first {r : Rtc} {op : RtcOp} {ops : List (Nat × RtcOp)} (hunset : r.rtcLastTickMs = 0)
    (hanchor : (op.run (atTime env start) r).rtcLastTickMs ≠ 0)
    (h : AllPrompt env start (op.run (atTime env start) r) ops) : SessionPrompt env start r ((start, op) :: ops)
  | before {r : Rtc} {t : Nat} {op : RtcOp} {ops : List (Nat × RtcOp)} (hunset : r.rtcLastTickMs = 0) (hle : t ≤ start)
    (hkeep : ¬ ChangesTime r op) (h : SessionPrompt env start (op.run (atTime env t) r) ops) :
    SessionPrompt env start r ((t, op) :: ops)

/-! ## Writes -/

theorem calendarOf_writeRtc (bank val : UInt8) (r : Rtc) :
    calendarOf (writeRtc bank val r) = (calendarOf r).write bank val ∧
    rtcHalted (writeRtc bank val r) = haltWritten bank val (rtcHalted r) ∧
      (writeRtc bank val r).rtcLastTickMs = r.rtcLastTickMs := by
  have hday : (calendarOf r).day / 256 = (r.rtcDayHi &&& (1 : UInt8)).toNat ∧
      (calendarOf r).day % 256 = r.rtcDay.toNat := by
    have hlow := r.rtcDay.toNat_lt
    show (_ + 256 * _) / 256 = _ ∧ (_ + 256 * _) % 256 = _
    omega
  have hbits := forall_byte (P := fun v => (v &&& (0xC1 : UInt8)) &&& (1 : UInt8) = v &&& (1 : UInt8) ∧
    hasBits (v &&& (0xC1 : UInt8)) 0x80 = hasBits v 0x80 ∧ hasBits (v &&& (0xC1 : UInt8)) 0x40 =
      hasBits v 0x40) (by decide +kernel) val
  unfold writeRtc Calendar.write haltWritten
  split
  · rename_i h
    rw [h]
    exact ⟨rfl, rfl, rfl⟩
  · rename_i h
    rw [h]
    exact ⟨rfl, rfl, rfl⟩
  · rename_i h
    rw [h]
    exact ⟨rfl, rfl, rfl⟩
  · rename_i h
    rw [h]
    dsimp only
    rw [hday.1]
    exact ⟨rfl, rfl, rfl⟩
  · rename_i h
    rw [h]
    dsimp only
    rw [hday.2, ← hbits.1, ← hbits.2.1, ← hbits.2.2]
    exact ⟨rfl, rfl, rfl⟩
  · grind

/-! ## Every access keeps to the clock -/

/-- The clock that the registers stand for: what is pending makes up for the seconds they are behind it. -/
structure KeepsTime (r : Rtc) (last : Nat) (c : WallClock) : Prop where
  halted : c.halted = rtcHalted r
  time : c.time ≤ last
  running : rtcHalted r = false → ∃ n, pending r last + n * 1000 = c.millis last ∧ calendarOf r = c.calendar.add n
  stopped : rtcHalted r = true → calendarOf r = c.calendar

theorem ofNat_sub {a : UInt32} {t d : Nat} (h : (UInt32.ofNat t - a).toNat + d < 2 ^ 32) :
    (UInt32.ofNat (t + d) - a).toNat = (UInt32.ofNat t - a).toNat + d := by
  have ha := a.toNat_lt
  simp only [UInt32.toNat_sub, UInt32.toNat_ofNat'] at *
  omega

/-- Time adds up until the counter has gone round. -/
theorem pending_later {r : Rtc} {last t : Nat} (h : last ≤ t)
    (hturn : pending r last + (t - last) < 2 ^ 32) :
    pending r t = pending r last + (t - last) := by
  have hsub := ofNat_sub hturn
  rw [Nat.add_sub_cancel' h] at hsub
  exact hsub

theorem WallClock.millis_later {c : WallClock} {last t : Nat} (hc : c.time ≤ last) (h : last ≤ t) :
    c.millis t = c.millis last + (t - last) := by
  unfold millis
  omega

/-- The time goes on. -/
theorem KeepsTime.later {r : Rtc} {last t : Nat} {c : WallClock} (h : KeepsTime r last c) (hle : last ≤ t)
    (hturn : rtcHalted r = false → pending r last + (t - last) < 2 ^ 32) : KeepsTime r t c := by
  refine ⟨h.halted, Nat.le_trans h.time hle, fun hrun => ?_, h.stopped⟩
  obtain ⟨n, hms, hcal⟩ := h.running hrun
  refine ⟨n, ?_, hcal⟩
  rw [pending_later hle (hturn hrun), WallClock.millis_later h.time hle, ← hms]
  omega

theorem KeepsTime.of_registers {r r' : Rtc} {t : Nat} {c : WallClock} (h : KeepsTime r t c)
    (hcal : calendarOf r' = calendarOf r)
    (hhalt : rtcHalted r' = rtcHalted r) (hanchor : r'.rtcLastTickMs = r.rtcLastTickMs) :
    KeepsTime r' t c := by
  obtain ⟨h₁, h₂, h₃, h₄⟩ := h
  have hpending : pending r' t = pending r t := by
    unfold pending
    rw [hanchor]
  rw [← hhalt, ← hcal] at *
  exact ⟨h₁, h₂, fun hrun => hpending ▸ h₃ hrun, h₄⟩

theorem pending_tick (r : Rtc) (now : UInt32) :
    (now - (r.rtcLastTickMs + tickElapsed r now * 1000)).toNat = (now - r.rtcLastTickMs).toNat % 1000 := by
  have hlt := (now - r.rtcLastTickMs).toNat_lt
  have h1000 : (1000 : UInt32).toNat = 1000 := rfl
  have hmul : (tickElapsed r now * 1000).toNat = (now - r.rtcLastTickMs).toNat / 1000 * 1000 := by
    unfold tickElapsed
    rw [UInt32.toNat_mul, UInt32.toNat_div, h1000]
    omega
  have hanchor := r.rtcLastTickMs.toNat_lt
  rw [UInt32.toNat_sub, UInt32.toNat_add, hmul]
  rw [UInt32.toNat_sub] at *
  omega

/-- A tick moves whole seconds from what is pending into the registers. -/
theorem KeepsTime.tick {r : Rtc} {t : Nat} {c : WallClock} (h : KeepsTime r t c)
    (hanchor : r.rtcLastTickMs ≠ 0) :
    KeepsTime (tickRTC (atTime env t) r) t c := by
  cases hhalt : rtcHalted r with
  | true =>
    rw [tickRTC_halted hanchor hhalt]
    exact ⟨h.halted, h.time, fun hrun => absurd (hhalt.symm.trans hrun) (by decide),
      fun _ => h.stopped hhalt⟩
  | false =>
    obtain ⟨n, hms, hcal⟩ := h.running hhalt
    have hsec : (tickElapsed r (UInt32.ofNat t)).toNat = pending r t / 1000 := by
      unfold tickElapsed pending
      rw [UInt32.toNat_div]
      rfl
    rw [tickRTC_eq hanchor hhalt]
    show KeepsTime (if tickElapsed r (UInt32.ofNat t) = 0 then _
      else tickRegisters r (tickElapsed r (UInt32.ofNat t))) t c
    split
    · exact h.of_registers rfl rfl rfl
    · rename_i hne
      obtain ⟨hcal', hhalt'⟩ := tickRegisters_calendar r hne
      refine ⟨h.halted.trans hhalt'.symm, h.time, fun _ => ⟨n + pending r t / 1000, ?_, ?_⟩,
        fun hstop => ?_⟩
      · have hpending : pending (tickRegisters r (tickElapsed r (UInt32.ofNat t))) t =
            pending r t % 1000 := by
          show (UInt32.ofNat t - (r.rtcLastTickMs + tickElapsed r (UInt32.ofNat t) * 1000)).toNat = _
          exact pending_tick r (UInt32.ofNat t)
        rw [hpending, ← hms]
        omega
      · rw [hcal', hcal, Calendar.add_add, hsec]
      · exact absurd (hhalt.symm.trans (hhalt'.symm.trans hstop)) (by decide)

theorem pending_tickRTC {r : Rtc} (t : Nat) (hanchor : r.rtcLastTickMs ≠ 0) (hhalt : rtcHalted r = false) :
    pending (tickRTC (atTime env t) r) t < 1000 := by
  rw [tickRTC_eq hanchor hhalt]
  show pending (if tickElapsed r (UInt32.ofNat t) = 0 then _
    else tickRegisters r (tickElapsed r (UInt32.ofNat t))) t < 1000
  split
  · rename_i h
    have hzero : (UInt32.ofNat t - r.rtcLastTickMs).toNat / 1000 = 0 := by
      have htoNat := congrArg UInt32.toNat h
      unfold tickElapsed at htoNat
      rw [UInt32.toNat_div] at htoNat
      exact htoNat
    show (UInt32.ofNat t - r.rtcLastTickMs).toNat < 1000
    omega
  · have hmod : pending (tickRegisters r (tickElapsed r (UInt32.ofNat t))) t = _ :=
      pending_tick r (UInt32.ofNat t)
    rw [hmod]
    exact Nat.mod_lt _ (by decide)

theorem KeepsTime.poll {r : Rtc} {t : Nat} {c : WallClock} (h : KeepsTime r t c)
    (hanchor : r.rtcLastTickMs ≠ 0) {op : RtcOp}
    (hop : ∀ bank val, op ≠ .write bank val) : KeepsTime (op.run (atTime env t) r) t c := by
  obtain ⟨latched, prev, hrun | hrun⟩ := @RtcOp.run_cases _ (atTime env t) r op hop <;> rw [hrun]
  · exact (h.tick hanchor).of_registers rfl rfl rfl
  · exact h.of_registers rfl rfl rfl

theorem KeepsTime.write {r : Rtc} {t : Nat} {c : WallClock} (h : KeepsTime r t c) {bank val : UInt8}
    (hprompt : ChangesTime r (.write bank val) → pending r t < 1000) :
    KeepsTime (writeRtc bank val r) t (c.write t bank val (pending r t % 1000)) := by
  obtain ⟨hcal, hhalt, hanchor⟩ := calendarOf_writeRtc bank val r
  have hpending : pending (writeRtc bank val r) t = pending r t := by
    unfold pending
    rw [hanchor]
  -- the registers are up to date when they are written
  have hread : c.read t = calendarOf r := by
    unfold WallClock.read
    rw [h.halted]
    cases hr : rtcHalted r with
    | true => exact (h.stopped hr).symm
    | false =>
      obtain ⟨n, hms, hn⟩ := h.running hr
      have hlt := hprompt (.inl hr)
      have hseconds : c.millis t / 1000 = n := by omega
      rw [hn, ← hseconds]
      rfl
  have hphase : rtcHalted (writeRtc bank val r) = false →
      pending r t = (c.write t bank val (pending r t % 1000)).phase := by
    intro hrun
    unfold WallClock.write
    dsimp only
    rw [h.halted]
    cases hr : rtcHalted r with
    | true => exact (Nat.mod_eq_of_lt (hprompt (.inr (hhalt.symm.trans hrun)))).symm
    | false =>
      obtain ⟨n, hms, -⟩ := h.running hr
      have hlt := hprompt (.inl hr)
      show _ = c.millis t % 1000
      omega
  have hcal' : (c.write t bank val (pending r t % 1000)).calendar = calendarOf (writeRtc bank val r) := by
    rw [hcal, ← hread]
    rfl
  refine ⟨?_, Nat.le_refl t, fun hrun => ⟨0, ?_, hcal'.symm⟩, fun _ => hcal'.symm⟩
  · rw [hhalt, ← h.halted]
    rfl
  · rw [hpending]
    show _ = (c.write t bank val (pending r t % 1000)).phase + (t - t)
    rw [← hphase hrun]
    omega

/-! ## Runs -/

theorem timedRun_shows {t : Nat} (ops : List (Nat × RtcOp)) :
    ∀ {r : Rtc} {last : Nat} {c : WallClock}, KeepsTime r last c →
    AllPrompt env last r (ops ++ [(t, .export)]) →
      c.Shows (writesOf ops) t (calendarOf (timedRun env r (ops ++ [(t, .export)]))) := by
  induction ops with
  | nil =>
    intro r last c h hprompt
    obtain ⟨⟨hlater, hanchor, hturn, -⟩, -⟩ := hprompt
    have hkeeps := @KeepsTime.tick _ env _ _ _ (h.later hlater hturn) hanchor
    show c.read t = calendarOf (tickRTC (atTime env t) r)
    unfold WallClock.read
    rw [hkeeps.halted]
    cases hr : rtcHalted (tickRTC (atTime env t) r) with
    | true => exact (hkeeps.stopped hr).symm
    | false =>
      obtain ⟨n, hms, hn⟩ := hkeeps.running hr
      have hlt : pending (tickRTC (atTime env t) r) t < 1000 :=
        pending_tickRTC t hanchor (h.halted.symm.trans (hkeeps.halted.trans hr))
      have hseconds : c.millis t / 1000 = n := by omega
      rw [hn, ← hseconds]
      rfl
  | cons o ops ih =>
    intro r last c h hprompt
    obtain ⟨s, op⟩ := o
    obtain ⟨⟨hlater, hanchor, hturn, hwrite⟩, hrest⟩ := hprompt
    have hnow := h.later hlater hturn
    cases op with
    | write bank val => exact ⟨pending r s % 1000, Nat.mod_lt _ (by decide), ih (hnow.write hwrite) hrest⟩
    | «export» => exact ih (hnow.poll hanchor fun _ _ => RtcOp.noConfusion) hrest
    | read => exact ih (hnow.poll hanchor fun _ _ => RtcOp.noConfusion) hrest
    | latch addr val => exact ih (hnow.poll hanchor fun _ _ => RtcOp.noConfusion) hrest

/-- The clock at its anchor. -/
def wallClock (r : Rtc) (start : Nat) : WallClock :=
  { calendar := calendarOf r, halted := rtcHalted r, time := start, phase := 0 }

/-! ## Sessions -/

/-- A clock that has not been anchored stands where the time will be counted from. -/
structure StandsAt (start : Nat) (r : Rtc) (c : WallClock) : Prop where
  halted : c.halted = rtcHalted r
  calendar : c.calendar = calendarOf r
  time : c.time ≤ start
  running : rtcHalted r = false → c.time = start ∧ c.phase = 0

theorem StandsAt.wallClock (r : Rtc) (start : Nat) : StandsAt start r (wallClock r start) :=
  ⟨rfl, rfl, Nat.le_refl start, fun _ => ⟨rfl, rfl⟩⟩

theorem StandsAt.read {start t : Nat} {r : Rtc} {c : WallClock} (h : StandsAt start r c) (hle : t ≤ start) :
    c.read t = calendarOf r := by
  unfold WallClock.read
  rw [h.halted, ← h.calendar]
  cases hr : rtcHalted r with
  | true => rfl
  | false =>
    obtain ⟨htime, hphase⟩ := h.running hr
    have hzero : c.millis t / 1000 = 0 := by
      unfold WallClock.millis
      omega
    rw [hzero]
    rfl

theorem StandsAt.keepsTime {start : Nat} {r : Rtc} {c : WallClock} (h : StandsAt start r c)
    (hanchor : r.rtcLastTickMs = UInt32.ofNat start) : KeepsTime r start c := by
  have hpending : pending r start = 0 := by
    unfold pending
    rw [hanchor, UInt32.sub_self]
    rfl
  refine ⟨h.halted, h.time, fun hrun => ⟨0, ?_, h.calendar.symm⟩, fun _ => h.calendar.symm⟩
  obtain ⟨htime, hphase⟩ := h.running hrun
  unfold WallClock.millis
  omega

/-- A poll leaves the registers of a clock that has no anchor, and may anchor it. -/
theorem RtcOp.run_unset {r : Rtc} (hunset : r.rtcLastTickMs = 0) {op : RtcOp} (t : Nat)
    (hop : ∀ bank val, op ≠ .write bank val) :
    calendarOf (op.run (atTime env t) r) = calendarOf r ∧ rtcHalted (op.run (atTime env t) r) = rtcHalted r ∧
      ((op.run (atTime env t) r).rtcLastTickMs ≠ 0 →
        (op.run (atTime env t) r).rtcLastTickMs = UInt32.ofNat t) := by
  obtain ⟨latched, prev, hrun | hrun⟩ := @RtcOp.run_cases _ (atTime env t) r op hop <;> rw [hrun]
  · rw [tickRTC_first hunset]
    exact ⟨rfl, rfl, fun _ => rfl⟩
  · exact ⟨rfl, rfl, fun h => absurd hunset h⟩

theorem StandsAt.poll {start : Nat} {r : Rtc} {c : WallClock} (h : StandsAt start r c) (hunset : r.rtcLastTickMs = 0)
    {op : RtcOp} (t : Nat) (hop : ∀ bank val, op ≠ .write bank val) :
    StandsAt start (op.run (atTime env t) r) c := by
  obtain ⟨hcal, hhalt, -⟩ := @RtcOp.run_unset _ env r hunset op t hop
  exact ⟨h.halted.trans hhalt.symm, h.calendar.trans hcal.symm, h.time, fun hrun => h.running (hhalt.symm.trans hrun)⟩

theorem StandsAt.export {start t : Nat} {r : Rtc} {c : WallClock} (h : StandsAt start r c)
    (hunset : r.rtcLastTickMs = 0) (hle : t ≤ start) : c.read t = calendarOf (timedRun env r [(t, .export)]) :=
  (h.poll hunset t fun _ _ => RtcOp.noConfusion : StandsAt start (RtcOp.export.run (atTime env t) r) c).read hle

/-- A write to a clock that stays halted. -/
theorem StandsAt.write {start t : Nat} {r : Rtc} {c : WallClock} (h : StandsAt start r c) (hle : t ≤ start)
    {bank val : UInt8} (hkeep : ¬ ChangesTime r (.write bank val)) (phase : Nat) :
    StandsAt start (writeRtc bank val r) (c.write t bank val phase) := by
  obtain ⟨hcal, hhalt, -⟩ := calendarOf_writeRtc bank val r
  have hstop : haltWritten bank val (rtcHalted r) = true := by
    rw [← Bool.not_eq_false]
    exact fun h => hkeep (.inr h)
  refine ⟨?_, ?_, hle, fun hrun => absurd (hhalt.symm.trans hrun) (by rw [hstop]; decide)⟩
  · rw [hhalt, ← h.halted]
    rfl
  · rw [hcal, ← h.read hle]
    rfl

theorem writeRtc_anchor (bank val : UInt8) (r : Rtc) : (writeRtc bank val r).rtcLastTickMs = r.rtcLastTickMs :=
  (calendarOf_writeRtc bank val r).2.2

theorem session_shows {start t : Nat} (ops : List (Nat × RtcOp)) :
    ∀ {r : Rtc} {c : WallClock}, StandsAt start r c → SessionPrompt env start r (ops ++ [(t, .export)]) →
      c.Shows (writesOf ops) t (calendarOf (timedRun env r (ops ++ [(t, .export)]))) := by
  induction ops with
  | nil =>
    intro r c h hprompt
    cases hprompt with
    | anchored hanchor hall => exact timedRun_shows [] (h.keepsTime hanchor) hall
    | first hunset hanchor hall => exact h.export hunset (Nat.le_refl _)
    | before hunset hle hkeep hall => exact h.export hunset hle
  | cons o ops ih =>
    intro r c h hprompt
    cases hprompt with
    | anchored hanchor hall => exact timedRun_shows (o :: ops) (h.keepsTime hanchor) hall
    | @first _ op _ hunset hanchor hall =>
      have hpoll : ∀ bank val, op ≠ .write bank val := by
        rintro bank val rfl
        exact hanchor ((writeRtc_anchor bank val r).trans hunset)
      have hset := (RtcOp.run_unset hunset start hpoll).2.2 hanchor
      have hwrites : writesOf ((start, op) :: ops) = writesOf ops := by
        cases op with
        | write bank val => exact absurd rfl (hpoll bank val)
        | «export» => rfl
        | read => rfl
        | latch addr val => rfl
      rw [hwrites]
      exact timedRun_shows ops ((h.poll hunset start hpoll).keepsTime hset) hall
    | @before _ s op _ hunset hle hkeep hall =>
      cases op with
      | write bank val => exact ⟨0, by decide, ih (h.write hle hkeep 0) hall⟩
      | «export» => exact ih (h.poll hunset s fun _ _ => RtcOp.noConfusion) hall
      | read => exact ih (h.poll hunset s fun _ _ => RtcOp.noConfusion) hall
      | latch addr val => exact ih (h.poll hunset s fun _ _ => RtcOp.noConfusion) hall

/-- With no whole second pending at the writes, the registers go by the writes and their times,
whatever else polls the clock, from the time at which it is anchored. -/
theorem writes_timely (r : Rtc) (start : Nat) (ops : List (Nat × RtcOp)) (t : Nat)
    (hprompt : SessionPrompt env start r (ops ++ [(t, .export)])) :
    (wallClock r start).Shows (writesOf ops) t (calendarOf (timedRun env r (ops ++ [(t, .export)]))) :=
  session_shows ops (.wallClock r start) hprompt

/-- A session whose clock is first latched and read, then set and halted, and polled before it goes on. -/
def setClock : List (Nat × RtcOp) :=
  [(400, .latch 0x2000 1), (1000, .read), (11000, .latch 0x6000 1), (11500, .write 0x08 30), (11500, .write 0x0C 0x40),
    (20000, .read), (20300, .write 0x0C 0)]

theorem writes_timely_set : (wallClock {} 1000).Shows (writesOf setClock) 23000
    (calendarOf (timedRun blankEnv {} (setClock ++ [(23000, .export)]))) := by
  refine writes_timely {} 1000 setClock 23000 (.before rfl (by decide) id
    (.first rfl (by decide +kernel) ⟨?_, ?_, ?_, ?_, ?_, ?_, trivial⟩))
  · exact ⟨by decide, by decide +kernel, fun _ => by decide +kernel, fun h => h.elim⟩
  · exact ⟨by decide, by decide +kernel, fun _ => by decide +kernel, fun _ => by decide +kernel⟩
  · exact ⟨by decide, by decide +kernel, fun _ => by decide +kernel, fun _ => by decide +kernel⟩
  · exact ⟨by decide, by decide +kernel, fun h => absurd h (by decide +kernel), fun h => h.elim⟩
  · exact ⟨by decide, by decide +kernel, fun h => absurd h (by decide +kernel), fun _ => by decide +kernel⟩
  · exact ⟨by decide, by decide +kernel, fun _ => by decide +kernel, fun h => h.elim⟩

/-- A clock that runs, or is halted, with its anchor at one second. -/
def clockAt (dayHi : UInt8) : Rtc := { rtcLastTickMs := 1000, rtcDayHi := dayHi }

/-- Ten seconds that are pending are added to the second that is written, lost to a halt, and
counted for the end of a halt. -/
theorem writes_late :
    ¬ (wallClock (clockAt 0) 1000).Shows (writesOf [(11000, .write 0x08 0)]) 11000
      (calendarOf (timedRun blankEnv (clockAt 0) [(11000, .write 0x08 0), (11000, .export)])) ∧
    ¬ (wallClock (clockAt 0) 1000).Shows (writesOf [(11000, .write 0x0C 0x40)]) 11000
      (calendarOf (timedRun blankEnv (clockAt 0) [(11000, .write 0x0C 0x40), (11000, .export)])) ∧
    ¬ (wallClock (clockAt 0x40) 1000).Shows (writesOf [(11000, .write 0x0C 0)]) 11000
      (calendarOf (timedRun blankEnv (clockAt 0x40) [(11000, .write 0x0C 0), (11000, .export)])) := by
  refine ⟨?_, ?_, ?_⟩ <;> rintro ⟨phase, hphase, h⟩ <;> have hread :=
    (WallClock.read_write _ _ _ _ hphase).symm.trans h
  · exact absurd hread (by decide +kernel)
  · exact absurd hread (by decide +kernel)
  · exact absurd hread (by decide +kernel)

end FoloGameboy

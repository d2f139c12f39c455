/-
The MBC3 clock: a tick adds the whole seconds since its anchor to a calendar of 512 days, and keeps
the rest of the time for the next tick, so that the registers do not depend on when the clock is
polled. What each computation of a tick needs of its integer types is stated beside it.
-/
import FoloGameboy.Core.Shape
import FoloGameboy.Port.Battery
import Mathlib.Logic.Function.Iterate

namespace FoloGameboy

variable {σ : Type} {env : Env σ}

/-! ## The calendar -/

/-- A day counter of 9 bits and a time of day, with a carry that stays set once the counter has
overflowed. -/
structure Calendar where
  day : Nat
  hour : Nat
  minute : Nat
  second : Nat
  carry : Bool
deriving DecidableEq

namespace Calendar

structure Valid (c : Calendar) : Prop where
  day : c.day < 512
  hour : c.hour < 24
  minute : c.minute < 60
  second : c.second < 60

/-- One second later. -/
def next (c : Calendar) : Calendar :=
  if c.second + 1 < 60 then { c with second := c.second + 1 }
  else if c.minute + 1 < 60 then { c with second := 0, minute := c.minute + 1 }
  else if c.hour + 1 < 24 then { c with second := 0, minute := 0, hour := c.hour + 1 }
  else if c.day + 1 < 512 then { c with second := 0, minute := 0, hour := 0, day := c.day + 1 }
  else { second := 0, minute := 0, hour := 0, day := 0, carry := true }

/-- The seconds since the start of day 0. -/
def total (c : Calendar) : Nat := c.day * 86400 + c.hour * 3600 + c.minute * 60 + c.second

/-- The calendar a number of seconds after the start of day 0, which is modulo 512 days. -/
def ofTotal (carry : Bool) (t : Nat) : Calendar where
  day := t / 86400 % 512
  hour := t % 86400 / 3600
  minute := t % 86400 % 3600 / 60
  second := t % 86400 % 60
  carry := carry || decide (512 ≤ t / 86400)

/-- Some seconds later, from any contents of the registers. -/
def add (c : Calendar) (n : Nat) : Calendar := if n = 0 then c else ofTotal c.carry (c.total + n)

@[simp] theorem add_zero (c : Calendar) : c.add 0 = c := rfl

theorem ofTotal_valid (carry : Bool) (t : Nat) : (ofTotal carry t).Valid := by
  constructor <;> unfold ofTotal <;> dsimp only <;> omega

theorem total_ofTotal (carry : Bool) (t : Nat) : (ofTotal carry t).total = t % 44236800 := by
  unfold ofTotal total
  dsimp only
  omega

/-- Seconds add up. -/
theorem add_add (c : Calendar) (a b : Nat) : (c.add a).add b = c.add (a + b) := by
  unfold add
  by_cases hb : b = 0
  · rw [if_pos hb, hb, Nat.add_zero]
  by_cases ha : a = 0
  · rw [if_pos ha, ha, Nat.zero_add]
  rw [if_neg ha, if_neg hb, if_neg (by omega), total_ofTotal]
  have hday : (c.total + a) / 86400 % 512 = (c.total + a) % 44236800 / 86400 := by omega
  generalize htotal : c.total + a = t at *
  have hsum : c.total + (a + b) = t + b := by omega
  rw [hsum]
  unfold ofTotal
  dsimp only
  have hmod : (t % 44236800 + b) / 86400 % 512 = (t + b) / 86400 % 512 := by omega
  have hrest : (t % 44236800 + b) % 86400 = (t + b) % 86400 := by omega
  rw [hmod, hrest]
  congr 1
  -- the counter overflows before or after, exactly when it does overall
  have hcarry : (512 ≤ t / 86400 ∨ 512 ≤ (t % 44236800 + b) / 86400) ↔ 512 ≤ (t + b) / 86400 := by omega
  rw [Bool.or_assoc, ← Bool.decide_or]
  exact congrArg _ (decide_eq_decide.2 hcarry)

theorem ofTotal_total {c : Calendar} (h : c.Valid) : ofTotal c.carry c.total = c := by
  obtain ⟨hd, hh, hm, hs⟩ := h
  obtain ⟨day, hour, minute, second, carry⟩ := c
  unfold ofTotal total
  dsimp only at *
  rw [Calendar.mk.injEq]
  refine ⟨by omega, by omega, by omega, by omega, ?_⟩
  rw [decide_eq_false (by omega), Bool.or_false]

/-- A calendar whose total is one more. -/
theorem eq_ofTotal {c c' : Calendar} (h : c'.Valid) (hc : c'.carry = c.carry)
    (ht : c'.total = c.total + 1) :
    c' = ofTotal c.carry (c.total + 1) := by rw [← hc, ← ht, ofTotal_total h]

theorem next_eq {c : Calendar} (h : c.Valid) : c.next = c.add 1 := by
  obtain ⟨hd, hh, hm, hs⟩ := h
  show c.next = ofTotal c.carry (c.total + 1)
  unfold next
  split
  · exact eq_ofTotal ⟨hd, hh, hm, by dsimp only; omega⟩ rfl (by unfold total; dsimp only; omega)
  split
  · exact eq_ofTotal ⟨hd, hh, by dsimp only; omega, Nat.succ_pos _⟩ rfl (by unfold total; dsimp only; omega)
  split
  · exact eq_ofTotal ⟨hd, by dsimp only; omega, Nat.succ_pos _, Nat.succ_pos _⟩
      rfl (by unfold total; dsimp only; omega)
  split
  · exact eq_ofTotal ⟨by dsimp only; omega, Nat.succ_pos _, Nat.succ_pos _, Nat.succ_pos _⟩
      rfl (by unfold total; dsimp only; omega)
  · have htotal : c.total + 1 = 44236800 := by
      unfold total
      omega
    rw [htotal]
    unfold ofTotal
    rw [decide_eq_true (by decide), Bool.or_true]

theorem add_valid {c : Calendar} (h : c.Valid) (n : Nat) : (c.add n).Valid := by
  unfold add
  split
  · exact h
  · exact ofTotal_valid ..

/-- From a valid calendar the seconds go by one after another. -/
theorem iterate_next {c : Calendar} (h : c.Valid) : ∀ n, Nat.iterate Calendar.next n c = c.add n
  | 0 => rfl
  | n + 1 => by rw [Function.iterate_succ_apply', iterate_next h n, next_eq (add_valid h n), add_add]

theorem add_carry {c : Calendar} (h : c.Valid) (n : Nat) :
    (c.add n).carry = (c.carry || decide (44236800 ≤ c.total + n)) := by
  obtain ⟨hd, hh, hm, hs⟩ := h
  have hlt : c.total < 44236800 := by
    unfold total
    omega
  unfold add
  split
  · rename_i hn
    rw [decide_eq_false (by omega), Bool.or_false]
  · unfold ofTotal
    dsimp only
    congr 1
    rw [decide_eq_decide]
    omega

end Calendar

/-! ## The registers -/

/-- The calendar the registers hold. -/
def calendarOf (r : Rtc) : Calendar where
  day := r.rtcDay.toNat + 256 * (r.rtcDayHi &&& (1 : UInt8)).toNat
  hour := r.rtcHour.toNat
  minute := r.rtcMin.toNat
  second := r.rtcSec.toNat
  carry := hasBits r.rtcDayHi 0x80

def rtcHalted (r : Rtc) : Bool := hasBits r.rtcDayHi 0x40

theorem low_bit (d : UInt8) : (d &&& (1 : UInt8)) = 0 ∨ (d &&& (1 : UInt8)) = 1 :=
  forall_byte (P := fun d => (d &&& (1 : UInt8)) = 0 ∨ (d &&& (1 : UInt8)) = 1) (by decide +kernel) d

theorem calendarOf_valid {r : Rtc} (hs : r.rtcSec < 60) (hm : r.rtcMin < 60) (hh : r.rtcHour < 24) :
    (calendarOf r).Valid := by
  refine ⟨?_, UInt8.lt_iff_toNat_lt.1 hh, UInt8.lt_iff_toNat_lt.1 hm, UInt8.lt_iff_toNat_lt.1 hs⟩
  show r.rtcDay.toNat + 256 * (r.rtcDayHi &&& (1 : UInt8)).toNat < 512
  have hday := r.rtcDay.toNat_lt
  rcases low_bit r.rtcDayHi with h | h <;> rw [h]
  · show _ + 256 * 0 < 512
    omega
  · show _ + 256 * 1 < 512
    omega

/-- The day counter as `tickRTC` reads it. -/
def tickDay (r : Rtc) : UInt64 := (r.rtcDay.toUInt16 ||| ((r.rtcDayHi &&& 1).toUInt16 <<< 8)).toUInt64

/-- The seconds `tickRTC` computes. -/
def tickTotal (r : Rtc) (elapsed : UInt32) : UInt64 :=
  tickDay r * 86400 + (r.rtcHour.toUInt32 * 3600).toUInt64 +
    (r.rtcMin.toUInt32 * 60).toUInt64 + r.rtcSec.toUInt64 + elapsed.toUInt64

def tickElapsed (r : Rtc) (now : UInt32) : UInt32 := (now - r.rtcLastTickMs) / 1000

theorem tickDay_toNat (r : Rtc) : (tickDay r).toNat = (calendarOf r).day := by
  unfold tickDay calendarOf
  dsimp only
  rw [UInt16.toNat_toUInt64]
  rcases low_bit r.rtcDayHi with h | h <;> rw [h]
  · exact forall_byte (P := fun d => (d.toUInt16 ||| ((0 : UInt8).toUInt16 <<< 8)).toNat =
      d.toNat + 256 * (0 : UInt8).toNat) (by decide +kernel) r.rtcDay
  · exact forall_byte (P := fun d => (d.toUInt16 ||| ((1 : UInt8).toUInt16 <<< 8)).toNat =
      d.toNat + 256 * (1 : UInt8).toNat) (by decide +kernel) r.rtcDay

theorem tickHours_toNat (r : Rtc) : (r.rtcHour.toUInt32 * 3600).toNat = r.rtcHour.toNat * 3600 := by
  have h := r.rtcHour.toNat_lt
  rw [UInt32.toNat_mul, UInt8.toNat_toUInt32]
  exact Nat.mod_eq_of_lt (by show _ * 3600 < _; omega)

theorem tickMinutes_toNat (r : Rtc) : (r.rtcMin.toUInt32 * 60).toNat = r.rtcMin.toNat * 60 := by
  have h := r.rtcMin.toNat_lt
  rw [UInt32.toNat_mul, UInt8.toNat_toUInt32]
  exact Nat.mod_eq_of_lt (by show _ * 60 < _; omega)

theorem tickTotal_toNat (r : Rtc) (elapsed : UInt32) :
    (tickTotal r elapsed).toNat = (calendarOf r).total + elapsed.toNat := by
  have hday : (calendarOf r).day < 512 := by
    have hlow := r.rtcDay.toNat_lt
    unfold calendarOf
    dsimp only
    rcases low_bit r.rtcDayHi with h | h <;> rw [h]
    · show _ + 256 * 0 < 512
      omega
    · show _ + 256 * 1 < 512
      omega
  have hh := r.rtcHour.toNat_lt
  have hm := r.rtcMin.toNat_lt
  have hs := r.rtcSec.toNat_lt
  have he := elapsed.toNat_lt
  unfold tickTotal
  simp only [UInt64.toNat_add, UInt64.toNat_mul, UInt32.toNat_toUInt64, UInt8.toNat_toUInt64,
    tickDay_toNat, tickHours_toNat,
    tickMinutes_toNat]
  unfold Calendar.total
  show _ = (calendarOf r).day * 86400 + r.rtcHour.toNat * 3600 + r.rtcMin.toNat * 60 +
    r.rtcSec.toNat + elapsed.toNat
  have h86400 : (86400 : UInt64).toNat = 86400 := rfl
  rw [h86400]
  omega

/-- No step of a tick overflows its type; the low byte of the day counter is meant to be cut off. -/
structure TickExact (r : Rtc) (now : UInt32) : Prop where
  since : (now - r.rtcLastTickMs).toNat = now.toNat - r.rtcLastTickMs.toNat
  millis : (tickElapsed r now * 1000).toNat = (tickElapsed r now).toNat * 1000
  anchor : (r.rtcLastTickMs + tickElapsed r now * 1000).toNat = r.rtcLastTickMs.toNat + (tickElapsed r now).toNat * 1000
  day : (tickDay r).toNat = (calendarOf r).day
  hours : (r.rtcHour.toUInt32 * 3600).toNat = r.rtcHour.toNat * 3600
  minutes : (r.rtcMin.toUInt32 * 60).toNat = r.rtcMin.toNat * 60
  total : (tickTotal r (tickElapsed r now)).toNat = (calendarOf r).total + (tickElapsed r now).toNat
  hour : (tickTotal r (tickElapsed r now) % 86400 / 3600).toUInt8.toNat
    = (tickTotal r (tickElapsed r now)).toNat % 86400 / 3600
  minute : (tickTotal r (tickElapsed r now) % 86400 % 3600 / 60).toUInt8.toNat =
    (tickTotal r (tickElapsed r now)).toNat % 86400 % 3600 / 60
  second : (tickTotal r (tickElapsed r now) % 86400 % 60).toUInt8.toNat
    = (tickTotal r (tickElapsed r now)).toNat % 86400 % 60
  dayHi : ((tickTotal r (tickElapsed r now) / 86400 % 512) >>> 8).toUInt8.toNat
    = (tickTotal r (tickElapsed r now)).toNat / 86400 % 512 / 256

theorem tickElapsed_toNat {r : Rtc} {now : UInt32} (h : r.rtcLastTickMs ≤ now) :
    (tickElapsed r now).toNat = (now.toNat - r.rtcLastTickMs.toNat) / 1000 := by
  unfold tickElapsed
  rw [UInt32.toNat_div, UInt32.toNat_sub_of_le _ _ h]
  rfl

/-- The parts of a number of seconds fit in their registers. -/
theorem registers_toNat (t : UInt64) : (t % 86400 / 3600).toUInt8.toNat = t.toNat % 86400 / 3600 ∧
    (t % 86400 % 3600 / 60).toUInt8.toNat = t.toNat % 86400 % 3600 / 60 ∧
      (t % 86400 % 60).toUInt8.toNat = t.toNat % 86400 % 60 ∧
    ((t / 86400 % 512) >>> 8).toUInt8.toNat = t.toNat / 86400 % 512 / 256 ∧
      (t / 86400 % 512).toUInt8.toNat = t.toNat / 86400 % 512 % 256 := by
  have h86400 : (86400 : UInt64).toNat = 86400 := rfl
  have h3600 : (3600 : UInt64).toNat = 3600 := rfl
  have h60 : (60 : UInt64).toNat = 60 := rfl
  have h512 : (512 : UInt64).toNat = 512 := rfl
  have h8 : (8 : UInt64).toNat = 8 := rfl
  simp only [UInt64.toNat_toUInt8, UInt64.toNat_mod, UInt64.toNat_div, UInt64.toNat_shiftRight,
    h86400, h3600, h60, h512, h8]
  refine ⟨by omega, by omega, by omega, ?_, trivial⟩
  have h256 : 2 ^ (8 % 64) = 256 := rfl
  rw [Nat.shiftRight_eq_div_pow, h256]
  omega

theorem tick_exact {r : Rtc} {now : UInt32} (h : r.rtcLastTickMs ≤ now) : TickExact r now := by
  have he := tickElapsed_toNat h
  have hnow := now.toNat_lt
  have hle := UInt32.le_iff_toNat_le.1 h
  have hmillis : (tickElapsed r now * 1000).toNat = (tickElapsed r now).toNat * 1000 := by
    rw [UInt32.toNat_mul]
    exact Nat.mod_eq_of_lt (by show _ * 1000 < _; omega)
  obtain ⟨hhour, hminute, hsecond, hdayHi, -⟩ := registers_toNat (tickTotal r (tickElapsed r now))
  refine ⟨UInt32.toNat_sub_of_le _ _ h, hmillis, ?_, tickDay_toNat r, tickHours_toNat r,
    tickMinutes_toNat r, tickTotal_toNat r _,
    hhour, hminute, hsecond, hdayHi⟩
  rw [UInt32.toNat_add, hmillis]
  exact Nat.mod_eq_of_lt (by omega)

/-! ## Ticks -/

theorem dayHi_bits (k : UInt8) (hk : k = 0 ∨ k = 1) (d : UInt8) :
    ((d &&& (0xc0 : UInt8)) ||| k) &&& (1 : UInt8) = k ∧
    hasBits ((d &&& (0xc0 : UInt8)) ||| k) 0x80 = hasBits d 0x80 ∧
      hasBits ((d &&& (0xc0 : UInt8)) ||| k) 0x40 = hasBits d 0x40 := by
  rcases hk with rfl | rfl
  · exact forall_byte (P := fun d => ((d &&& (0xc0 : UInt8)) ||| (0 : UInt8)) &&& (1 : UInt8) = 0 ∧
      hasBits ((d &&& (0xc0 : UInt8)) ||| (0 : UInt8)) 0x80 = hasBits d 0x80 ∧
      hasBits ((d &&& (0xc0 : UInt8)) ||| (0 : UInt8)) 0x40 = hasBits d 0x40) (by decide +kernel) d
  · exact forall_byte (P := fun d => ((d &&& (0xc0 : UInt8)) ||| (1 : UInt8)) &&& (1 : UInt8) = 1 ∧
      hasBits ((d &&& (0xc0 : UInt8)) ||| (1 : UInt8)) 0x80 = hasBits d 0x80 ∧
      hasBits ((d &&& (0xc0 : UInt8)) ||| (1 : UInt8)) 0x40 = hasBits d 0x40) (by decide +kernel) d

theorem carry_bits (d : UInt8) : hasBits (d ||| 0x80) 0x80 = true ∧ hasBits (d ||| 0x80) 0x40 =
    hasBits d 0x40 :=
  forall_byte (P := fun d => hasBits (d ||| 0x80) 0x80 = true ∧ hasBits (d ||| 0x80) 0x40 =
    hasBits d 0x40) (by decide +kernel) d

theorem byte_of_toNat {b : UInt8} (h : b.toNat ≤ 1) : b = 0 ∨ b = 1 := by
  have hcases : b.toNat = 0 ∨ b.toNat = 1 := by omega
  exact hcases.imp (fun h => UInt8.toNat_inj.1 h) fun h => UInt8.toNat_inj.1 h

/-- A tick reads the clock once. -/
@[simp] theorem tickRTC_clockReads (r : Rtc) : (tickRTC env r).clockReads = r.clockReads + 1 := by
  unfold tickRTC
  dsimp only
  repeat' split
  all_goals rfl

/-- The first tick sets the anchor. -/
theorem tickRTC_first {r : Rtc} (h : r.rtcLastTickMs = 0) :
    tickRTC env r =
      { r with clockReads := r.clockReads + 1, rtcLastTickMs := env.millis r.clockReads } := by
  unfold tickRTC
  exact if_pos h

/-- A halted clock moves its anchor. -/
theorem tickRTC_halted {r : Rtc} (h : r.rtcLastTickMs ≠ 0) (hh : rtcHalted r = true) :
    tickRTC env r =
      { r with clockReads := r.clockReads + 1, rtcLastTickMs := env.millis r.clockReads } := by
  unfold tickRTC
  exact (if_neg h).trans (if_pos hh)

/-- The registers after a tick of some seconds, at least one. -/
def tickRegisters (r : Rtc) (elapsed : UInt32) : Rtc :=
  let total := tickTotal r elapsed
  let dayHi := if 512 ≤ total / 86400 then r.rtcDayHi ||| 0x80 else r.rtcDayHi
  { r with
    clockReads := r.clockReads + 1
    rtcLastTickMs := r.rtcLastTickMs + elapsed * 1000
    rtcHour := (total % 86400 / 3600).toUInt8
    rtcMin := (total % 86400 % 3600 / 60).toUInt8
    rtcSec := (total % 86400 % 60).toUInt8
    rtcDay := (total / 86400 % 512).toUInt8
    rtcDayHi := (dayHi &&& (0xc0 : UInt8)) ||| ((total / 86400 % 512) >>> 8).toUInt8 }

theorem tickRTC_eq {r : Rtc} (h : r.rtcLastTickMs ≠ 0) (hh : rtcHalted r = false) :
    tickRTC env r = if tickElapsed r (env.millis r.clockReads) = 0 then { r with
      clockReads := r.clockReads + 1 }
      else tickRegisters r (tickElapsed r (env.millis r.clockReads)) := by
  unfold tickRTC
  refine (if_neg h).trans ((if_neg ?_).trans rfl)
  rw [Bool.not_eq_true]
  exact hh

theorem tickRegisters_calendar (r : Rtc) {elapsed : UInt32} (h : elapsed ≠ 0) :
    calendarOf (tickRegisters r elapsed) = (calendarOf r).add elapsed.toNat ∧
      rtcHalted (tickRegisters r elapsed) = rtcHalted r := by
  obtain ⟨hhour, hminute, hsecond, hdayHi, hday⟩ := registers_toNat (tickTotal r elapsed)
  have htotal := tickTotal_toNat r elapsed
  have hne : elapsed.toNat ≠ 0 := fun h0 => h (UInt32.toNat_inj.1 h0)
  have hbit : ((tickTotal r elapsed / 86400 % 512) >>> 8).toUInt8 = 0 ∨
      ((tickTotal r elapsed / 86400 % 512) >>> 8).toUInt8 = 1 := by
    refine byte_of_toNat ?_
    rw [hdayHi]
    omega
  obtain ⟨hlow, hcarry, hhalt⟩ :=
    dayHi_bits _ hbit (if 512 ≤ tickTotal r elapsed / 86400 then r.rtcDayHi ||| 0x80
      else r.rtcDayHi)
  have hdays : 512 ≤ tickTotal r elapsed / 86400 ↔ 512 ≤ (tickTotal r elapsed).toNat / 86400 := by
    rw [UInt64.le_iff_toNat_le, UInt64.toNat_div]
    rfl
  constructor
  · rw [Calendar.add, if_neg hne, ← htotal, Calendar.ofTotal, calendarOf, Calendar.mk.injEq]
    refine ⟨?_, hhour, hminute, hsecond, ?_⟩
    · have hlow' : (tickRegisters r elapsed).rtcDayHi &&& (1 : UInt8) = _ := hlow
      show (tickTotal r elapsed / 86400 % 512).toUInt8.toNat + 256 *
        ((tickRegisters r elapsed).rtcDayHi &&& (1 : UInt8)).toNat = _
      rw [hlow', hday, hdayHi]
      omega
    · refine hcarry.trans ?_
      show _ = (hasBits r.rtcDayHi 0x80 || decide (512 ≤ (tickTotal r elapsed).toNat / 86400))
      by_cases hd : 512 ≤ tickTotal r elapsed / 86400
      · rw [if_pos hd, (carry_bits r.rtcDayHi).1, decide_eq_true (hdays.1 hd), Bool.or_true]
      · rw [if_neg hd, decide_eq_false (fun hn => hd (hdays.2 hn)), Bool.or_false]
  · refine hhalt.trans ?_
    split
    · exact (carry_bits r.rtcDayHi).2
    · rfl

/-- A clock that runs adds the whole seconds since its anchor, and moves the anchor by them. -/
theorem tickRTC_running {r : Rtc} (h : r.rtcLastTickMs ≠ 0) (hh : rtcHalted r = false)
    (hle : r.rtcLastTickMs ≤ env.millis r.clockReads) :
    let seconds := ((env.millis r.clockReads).toNat - r.rtcLastTickMs.toNat) / 1000
    calendarOf (tickRTC env r) = (calendarOf r).add seconds ∧ rtcHalted (tickRTC env r) = false ∧
      (tickRTC env r).rtcLastTickMs.toNat = r.rtcLastTickMs.toNat + seconds * 1000 := by
  intro seconds
  have he : (tickElapsed r (env.millis r.clockReads)).toNat = seconds := tickElapsed_toNat hle
  rw [tickRTC_eq h hh]
  split
  · rename_i h0
    have hzero : seconds = 0 := by
      rw [← he, h0]
      rfl
    rw [hzero]
    exact ⟨rfl, hh, rfl⟩
  · rename_i hne
    obtain ⟨hcal, hhalt⟩ := tickRegisters_calendar r hne
    refine ⟨he ▸ hcal, hhalt.trans hh, ?_⟩
    rw [← he]
    exact (tick_exact hle).anchor

/-! ## Accesses to the clock -/

/-- What reaches the clock: an export of the port, a read of a selected register, a write to the
mapper, a write to the selected register. -/
inductive RtcOp
  | export
  | read
  | latch (addr : UInt16) (val : UInt8)
  | write (ramBank val : UInt8)
deriving DecidableEq

def RtcOp.run (env : Env σ) (r : Rtc) : RtcOp → Rtc
  | .export | .read => tickRTC env r
  | .latch addr val => mbc3Latch env r addr val
  | .write ramBank val => writeRtc ramBank val r

def rtcRun (env : Env σ) (r : Rtc) (ops : List RtcOp) : Rtc := ops.foldl (RtcOp.run env) r

@[simp] theorem rtcRun_nil (r : Rtc) : rtcRun env r [] = r := rfl

@[simp] theorem rtcRun_cons (r : Rtc) (op : RtcOp) (ops : List RtcOp) :
    rtcRun env r (op :: ops) = rtcRun env (op.run env r) ops := rfl

theorem gbPortExportRtc_run (s : Session σ) :
    (gbPortExportRtc env s).2.core.bus.rtc = RtcOp.export.run env s.core.bus.rtc ∧
    (gbPortExportRtc env s).1 = rtcBytes (RtcOp.export.run env s.core.bus.rtc) := ⟨rfl, rfl⟩

theorem readExternalRam_run (addr : UInt16) {b : Bus σ} (hram : b.mbc.ramEnabled = true)
    (hsel : rtcSelected b.mbc = true) :
    (readExternalRam env addr b).2.rtc = RtcOp.read.run env b.rtc := by
  have hmbc : b.mbc.mbcType = .mbc3 := by
    unfold rtcSelected at hsel
    simp only [Bool.and_eq_true, beq_iff_eq] at hsel
    exact hsel.1.1
  unfold readExternalRam
  rw [if_neg (not_not_intro hram), if_neg (by rw [hmbc]; exact MBCType.noConfusion), if_pos hsel]
  rfl

theorem writeMBC_run (addr : UInt16) (val : UInt8) {b : Bus σ} (hmbc : b.mbc.mbcType = .mbc3) :
    (writeMBC env addr val b).rtc = (RtcOp.latch addr val).run env b.rtc := if_pos hmbc

theorem writeExternalRam_run (addr : UInt16) (val : UInt8) {b : Bus σ}
    (hram : b.mbc.ramEnabled = true) (hsel : rtcSelected b.mbc = true) :
    (writeExternalRam addr val b).rtc = (RtcOp.write b.mbc.ramBank val).run env b.rtc := by
  have hmbc : b.mbc.mbcType = .mbc3 := by
    unfold rtcSelected at hsel
    simp only [Bool.and_eq_true, beq_iff_eq] at hsel
    exact hsel.1.1
  unfold writeExternalRam
  rw [if_neg (not_not_intro hram), if_neg (by rw [hmbc]; exact MBCType.noConfusion), if_pos hsel]
  rfl

/-- An access ticks the clock or leaves its registers and its anchor; only a write to a register
changes them otherwise. -/
theorem RtcOp.run_cases (r : Rtc) {op : RtcOp} (hop : ∀ bank val, op ≠ .write bank val) :
    ∃ latched prev, op.run env r = { tickRTC env r with rtcLatched := latched, rtcLatchPrev := prev } ∨
      op.run env r = { r with rtcLatchPrev := prev } := by
  cases op with
  | «export» => exact ⟨_, _, .inl rfl⟩
  | read => exact ⟨_, _, .inl rfl⟩
  | latch addr val =>
    show ∃ latched prev, mbc3Latch env r addr val = _ ∨ mbc3Latch env r addr val = _
    unfold mbc3Latch
    split
    · exact ⟨r.rtcLatched, r.rtcLatchPrev, .inr rfl⟩
    dsimp only
    split
    · exact ⟨_, _, .inl rfl⟩
    · exact ⟨r.rtcLatched, _, .inr rfl⟩
  | write bank val => exact absurd rfl (hop bank val)

/-! ## Polls -/

/-- A clock that was polled since `r`: its anchor stands a whole number of seconds after the first
poll, and that number is what the polls added. -/
structure Polled (env : Env σ) (r s : Rtc) : Prop where
  reads : r.clockReads < s.clockReads
  running : rtcHalted s = false
  first : 0 < (env.millis r.clockReads).toNat
  last : (env.millis r.clockReads).toNat ≤ (env.millis (s.clockReads - 1)).toNat
  anchor : s.rtcLastTickMs.toNat = (env.millis r.clockReads).toNat +
    ((env.millis (s.clockReads - 1)).toNat - (env.millis r.clockReads).toNat) / 1000 * 1000
  calendar : calendarOf s = (calendarOf r).add
    (((env.millis (s.clockReads - 1)).toNat - (env.millis r.clockReads).toNat) / 1000)

/-- No poll yet. -/
structure Unpolled (r s : Rtc) : Prop where
  reads : s.clockReads = r.clockReads
  running : rtcHalted s = false
  anchor : s.rtcLastTickMs = 0
  calendar : calendarOf s = calendarOf r

theorem Polled.anchor_le {r s : Rtc} (h : Polled env r s)
    (hmono : env.millis (s.clockReads - 1) ≤ env.millis s.clockReads) :
    s.rtcLastTickMs ≤ env.millis s.clockReads := by
  have hle := UInt32.le_iff_toNat_le.1 hmono
  have hlast := h.last
  rw [UInt32.le_iff_toNat_le, h.anchor]
  omega

theorem Polled.tick {r s : Rtc} (h : Polled env r s)
    (hmono : env.millis (s.clockReads - 1) ≤ env.millis s.clockReads) :
    Polled env r (tickRTC env s) := by
  have hanchor := h.anchor
  have hfirst := h.first
  have hlast := h.last
  have hle := UInt32.le_iff_toNat_le.1 hmono
  have hne : s.rtcLastTickMs ≠ 0 := by
    intro h0
    rw [h0] at hanchor
    have hzero : (0 : UInt32).toNat = 0 := rfl
    omega
  obtain ⟨hcal, hrun, hanchor'⟩ := tickRTC_running hne h.running (h.anchor_le hmono)
  refine ⟨?_, hrun, hfirst, ?_, ?_, ?_⟩ <;> rw [tickRTC_clockReads]
  · exact Nat.lt_succ_of_lt h.reads
  all_goals rw [Nat.add_sub_cancel]
  · exact Nat.le_trans hlast hle
  · rw [hanchor', hanchor]
    omega
  · rw [hcal, h.calendar, Calendar.add_add, hanchor]
    congr 1
    omega

theorem Unpolled.tick {r s : Rtc} (h : Unpolled r s) (hfirst : 0 < env.millis r.clockReads) :
    Polled env r (tickRTC env s) := by
  have hfirst' : 0 < (env.millis r.clockReads).toNat := UInt32.lt_iff_toNat_lt.1 hfirst
  rw [tickRTC_first h.anchor, h.reads]
  refine ⟨Nat.lt_succ_self _, h.running, hfirst', Nat.le_refl _, ?_, ?_⟩
  · show (env.millis r.clockReads).toNat = _ + ((env.millis (r.clockReads + 1 - 1)).toNat - _) / 1000 * 1000
    rw [Nat.add_sub_cancel, Nat.sub_self]
    rfl
  · show calendarOf s = (calendarOf r).add (((env.millis (r.clockReads + 1 - 1)).toNat - _) / 1000)
    rw [Nat.add_sub_cancel, Nat.sub_self, h.calendar]
    rfl

theorem RtcOp.run_clockReads_le (r : Rtc) (op : RtcOp) : r.clockReads ≤ (op.run env r).clockReads := by
  by_cases hop : ∀ bank val, op ≠ .write bank val
  · obtain ⟨latched, prev, h | h⟩ := op.run_cases r hop
    · rw [h]
      show _ ≤ (tickRTC env r).clockReads
      rw [tickRTC_clockReads]
      exact Nat.le_succ _
    · exact Nat.le_of_eq (congrArg Rtc.clockReads h).symm
  · simp only [not_forall, not_not] at hop
    obtain ⟨bank, val, rfl⟩ := hop
    show _ ≤ (writeRtc bank val r).clockReads
    unfold writeRtc
    split <;> exact Nat.le_refl _

theorem rtcRun_clockReads_le (ops : List RtcOp) : ∀ r :
    Rtc, r.clockReads ≤ (rtcRun env r ops).clockReads := by
  induction ops with
  | nil => exact fun _ => Nat.le_refl _
  | cons op ops ih => exact fun r => Nat.le_trans (op.run_clockReads_le r) (ih _)

/-- A clock that was polled, or not yet. -/
def Kept (env : Env σ) (r s : Rtc) : Prop := Unpolled r s ∨ Polled env r s

theorem RtcOp.run_kept {r s : Rtc} (h : Kept env r s) {op : RtcOp} (hop : ∀ bank val, op ≠ .write bank val)
    (hfirst : 0 < env.millis r.clockReads)
    (hmono : ∀ k, r.clockReads ≤ k → k + 1 < (op.run env s).clockReads →
      env.millis k ≤ env.millis (k + 1)) :
    Kept env r (op.run env s) := by
  obtain ⟨latched, prev, hrun | hrun⟩ := @RtcOp.run_cases _ env s op hop <;> rw [hrun] at hmono ⊢
  · change ∀ k, r.clockReads ≤ k → k + 1 < (tickRTC env s).clockReads → _ at hmono
    rw [tickRTC_clockReads] at hmono
    obtain h | h := h
    · obtain ⟨h₁, h₂, h₃, h₄, h₅, h₆⟩ := h.tick hfirst
      exact .inr ⟨h₁, h₂, h₃, h₄, h₅, h₆⟩
    · have hreads := h.reads
      have hlast := hmono (s.clockReads - 1) (by omega) (by omega)
      rw [Nat.sub_add_cancel (by omega)] at hlast
      obtain ⟨h₁, h₂, h₃, h₄, h₅, h₆⟩ := h.tick hlast
      exact .inr ⟨h₁, h₂, h₃, h₄, h₅, h₆⟩
  · obtain ⟨h₁, h₂, h₃, h₄⟩ | ⟨h₁, h₂, h₃, h₄, h₅, h₆⟩ := h
    · exact .inl ⟨h₁, h₂, h₃, h₄⟩
    · exact .inr ⟨h₁, h₂, h₃, h₄, h₅, h₆⟩

theorem rtcRun_kept {r : Rtc} (hfirst : 0 < env.millis r.clockReads) (ops : List RtcOp) :
    ∀ s : Rtc, Kept env r s → (∀ op ∈ ops, ∀ bank val, op ≠ .write bank val) →
      (∀ k, r.clockReads ≤ k → k + 1 < (rtcRun env s ops).clockReads → env.millis k ≤ env.millis (k + 1)) →
      Kept env r (rtcRun env s ops) := by
  induction ops with
  | nil => exact fun s h _ _ => h
  | cons op ops ih =>
    intro s h hops hmono
    have hop := op.run_kept h (hops op List.mem_cons_self) hfirst
      fun k hk hlt => hmono k hk (Nat.lt_of_lt_of_le hlt (rtcRun_clockReads_le ops _))
    exact ih _ hop (fun op' hmem => hops op' (List.mem_cons_of_mem _ hmem)) hmono

/-- The clock is right whatever the times it is polled at. -/
theorem rtcRun_calendar (r : Rtc) (ops : List RtcOp) (hsec : r.rtcSec < 60)
    (hmin : r.rtcMin < 60) (hhour : r.rtcHour < 24)
    (hanchor : r.rtcLastTickMs = 0) (hhalt : rtcHalted r = false) (hops : ∀ op ∈ ops, ∀ bank val, op ≠ .write bank val)
    (hpolled : r.clockReads < (rtcRun env r ops).clockReads) (hfirst : 0 < env.millis r.clockReads)
    (hmono : ∀ k, r.clockReads ≤ k → k + 1 < (rtcRun env r ops).clockReads → env.millis k ≤ env.millis (k + 1)) :
    let last := rtcRun env r ops
    let seconds := ((env.millis (last.clockReads - 1)).toNat - (env.millis r.clockReads).toNat) / 1000
    calendarOf last = Nat.iterate Calendar.next seconds (calendarOf r) ∧
      (hasBits last.rtcDayHi 0x80 = true ↔ hasBits r.rtcDayHi 0x80 = true ∨
        512 * 86400 ≤ (calendarOf r).total + seconds) ∧
      rtcHalted last = rtcHalted r ∧
      ∀ before after, ops = before ++ after → (tickRTC env (rtcRun env r before)).rtcLatched
        = (rtcRun env r before).rtcLatched ∧
        ((rtcRun env r before).clockReads < last.clockReads →
          TickExact (rtcRun env r before) (env.millis (rtcRun env r before).clockReads)) := by
  intro last seconds
  have hstart : Kept env r r := .inl ⟨rfl, hhalt, hanchor, rfl⟩
  have hvalid := calendarOf_valid hsec hmin hhour
  have hkept : Kept env r last := rtcRun_kept hfirst ops r hstart hops hmono
  -- the clock was polled, so its anchor is set
  obtain h | h := hkept
  · exact absurd h.reads (Nat.ne_of_gt hpolled)
  have hcal : calendarOf last = (calendarOf r).add seconds := h.calendar
  refine ⟨hcal.trans (Calendar.iterate_next hvalid seconds).symm, ?_, h.running.trans hhalt.symm,
    fun before after hsplit => ⟨?_, ?_⟩⟩
  · have hcarry : hasBits last.rtcDayHi 0x80 = ((calendarOf r).add seconds).carry :=
      congrArg Calendar.carry hcal
    rw [hcarry, Calendar.add_carry hvalid, Bool.or_eq_true, decide_eq_true_eq]
    rfl
  · exact tickRTC_latched env _
  · intro hlt
    have hle : (rtcRun env r before).clockReads ≤ last.clockReads := Nat.le_of_lt hlt
    have hbefore : Kept env r (rtcRun env r before) := rtcRun_kept hfirst before r hstart
      (fun op hmem => hops op (hsplit ▸ List.mem_append_left _ hmem)) fun k hk hk' =>
        hmono k hk (Nat.lt_of_lt_of_le hk' hle)
    -- the anchor is not ahead of the time, so the difference does not wrap
    refine tick_exact ?_
    obtain h | h := hbefore
    · rw [h.anchor]
      exact UInt32.le_iff_toNat_le.2 (Nat.zero_le _)
    · have hreads := h.reads
      have hlast :=
        hmono ((rtcRun env r before).clockReads - 1) (by omega) (Nat.lt_of_le_of_lt (by omega) hlt)
      rw [Nat.sub_add_cancel (by omega)] at hlast
      exact h.anchor_le hlast

/-- The last second of the day counter, polled by an export, a latch and a read. -/
def lastSecond : Rtc := { rtcSec := 59, rtcMin := 59, rtcHour := 23, rtcDay := 255, rtcDayHi := 1 }

def pollEnv : Env Unit := { blankEnv with millis := fun k => if k = 0 then 1000 else if k = 1 then 1900 else 3050 }

def lastSecondPolls : List RtcOp := [.export, .latch 0x6000 1, .latch 0x6000 0, .read]

theorem rtcRun_calendar_overflows : calendarOf (rtcRun pollEnv lastSecond lastSecondPolls) =
      Nat.iterate Calendar.next 2 (calendarOf lastSecond) ∧
    calendarOf (rtcRun pollEnv lastSecond lastSecondPolls) = ⟨0, 0, 0, 1, true⟩ := by
  have hmono : ∀ k, lastSecond.clockReads ≤ k →
      k + 1 < (rtcRun pollEnv lastSecond lastSecondPolls).clockReads →
      pollEnv.millis k ≤ pollEnv.millis (k + 1) := by
    intro k _ hk
    have hreads : (rtcRun pollEnv lastSecond lastSecondPolls).clockReads = 3 := by decide
    rw [hreads] at hk
    have hcases : k = 0 ∨ k = 1 := by omega
    rcases hcases with rfl | rfl <;> decide
  have hops : ∀ op ∈ lastSecondPolls, ∀ bank val, op ≠ .write bank val := by
    rintro op hmem bank val rfl
    simp [lastSecondPolls] at hmem
  have h := @rtcRun_calendar _ pollEnv lastSecond lastSecondPolls (by decide) (by decide)
    (by decide) rfl rfl
    hops (by decide) (by decide) hmono
  exact ⟨h.1, by decide⟩

end FoloGameboy

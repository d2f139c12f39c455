/-
`updateTimer` in closed form: the counters after any number of cycles, that cycles add up, and when
TIMA overflows.
-/
import Mathlib.Logic.Function.Iterate
import FoloGameboy.Core.StepLaws

namespace FoloGameboy

variable {σ : Type}

/-! ## The loops -/

theorem whileDo_divStep : ∀ (n : Nat) (t : Timer), t.divCounter.toNat < 256 * (n + 1) →
    whileDo (fun t => decide (256 ≤ t.divCounter)) divStep n t =
      { t with
        divCounter := UInt16.ofNat (t.divCounter.toNat % 256)
        divReg := t.divReg + UInt8.ofNat (t.divCounter.toNat / 256) }
  | n, t, h => by
    by_cases hc : 256 ≤ t.divCounter
    · have hge : 256 ≤ t.divCounter.toNat := UInt16.le_iff_toNat_le.mp hc
      cases n with
      | zero => omega
      | succ n =>
        have hsub : (t.divCounter - 256).toNat = t.divCounter.toNat - 256 := UInt16.toNat_sub_of_le _ _ hc
        have hdiv : t.divCounter.toNat / 256 = 1 + (t.divCounter.toNat - 256) / 256 := by omega
        have hmod : (t.divCounter.toNat - 256) % 256 = t.divCounter.toNat % 256 := by omega
        unfold whileDo
        rw [if_pos (decide_eq_true hc),
          whileDo_divStep n (divStep t) (by show (t.divCounter - 256).toNat < _; omega)]
        unfold divStep
        dsimp only
        rw [hsub, hmod, hdiv, UInt8.ofNat_add, UInt8.add_assoc]
        rfl
    · have hlt : t.divCounter.toNat < 256 := Nat.lt_of_not_le fun hge => hc (UInt16.le_iff_toNat_le.mpr hge)
      have hdone : whileDo (fun t : Timer => decide (256 ≤ t.divCounter)) divStep n t = t := by
        cases n with
        | zero => rfl
        | succ n => exact if_neg (by simpa using hc)
      rw [hdone, Nat.mod_eq_of_lt hlt, Nat.div_eq_of_lt hlt, UInt16.ofNat_toNat]
      show t = { t with divReg := t.divReg + 0 }
      rw [UInt8.add_zero]

/-- A tick of TIMA, and the requests after it. -/
def tick (tma : UInt8) (s : UInt8 × UInt8) : UInt8 × UInt8 :=
  if s.1 + 1 = 0 then (tma, s.2 ||| 0x04) else (s.1 + 1, s.2)

/-- TIMA and the requests after a number of ticks. -/
def timaTicks (t : Timer) (i : Irq) (n : Nat) : UInt8 × UInt8 := (tick t.tma)^[n] (t.tima, i.iflag)

theorem timaStep_eq (freq : UInt16) (t : Timer) (i : Irq) : timaStep freq (t, i) =
    ({ t with timerCounter := t.timerCounter - freq, tima := (tick t.tma (t.tima, i.iflag)).1 },
      { i with iflag := (tick t.tma (t.tima, i.iflag)).2 }) := by
  unfold timaStep tick
  dsimp only
  split <;> rfl

theorem whileDo_timaStep {freq : UInt16} (hfreq : 0 < freq.toNat) : ∀ (n : Nat) (t : Timer) (i : Irq),
    t.timerCounter.toNat < freq.toNat * (n + 1) →
    whileDo (fun s => decide (freq ≤ s.1.timerCounter)) (timaStep freq) n (t, i) =
      ({ t with timerCounter := UInt16.ofNat (t.timerCounter.toNat % freq.toNat)
                tima := (timaTicks t i (t.timerCounter.toNat / freq.toNat)).1 },
       { i with iflag := (timaTicks t i (t.timerCounter.toNat / freq.toNat)).2 })
  | n, t, i, h => by
    by_cases hc : freq ≤ t.timerCounter
    · have hge : freq.toNat ≤ t.timerCounter.toNat := UInt16.le_iff_toNat_le.mp hc
      cases n with
      | zero => omega
      | succ n =>
        have hsub : (t.timerCounter - freq).toNat = t.timerCounter.toNat - freq.toNat :=
          UInt16.toNat_sub_of_le _ _ hc
        have hdiv : t.timerCounter.toNat / freq.toNat = (t.timerCounter.toNat - freq.toNat) /
          freq.toNat + 1 :=
          Nat.div_eq_sub_div hfreq hge
        have hmod : (t.timerCounter.toNat - freq.toNat) % freq.toNat = t.timerCounter.toNat % freq.toNat :=
          (Nat.mod_eq_sub_mod hge).symm
        have hlt : (t.timerCounter - freq).toNat < freq.toNat * (n + 1) := by
          rw [hsub]
          rw [Nat.mul_succ] at h
          omega
        unfold whileDo
        rw [if_pos (decide_eq_true hc), timaStep_eq, whileDo_timaStep hfreq n _ _ hlt]
        unfold timaTicks
        dsimp only
        rw [hsub, hmod, hdiv, Function.iterate_succ_apply]
    · have hlt : t.timerCounter.toNat < freq.toNat :=
        Nat.lt_of_not_le fun hge => hc (UInt16.le_iff_toNat_le.mpr hge)
      have hdone : whileDo (fun s : Timer × Irq => decide (freq ≤ s.1.timerCounter)) (timaStep freq)
          n (t, i) = (t, i) := by
        cases n with
        | zero => rfl
        | succ n => exact if_neg (by simpa using hc)
      rw [hdone, Nat.mod_eq_of_lt hlt, Nat.div_eq_of_lt hlt, UInt16.ofNat_toNat]
      rfl

/-- The timer and the requests after a number of cycles. -/
def timerAfter (n : Nat) (t : Timer) (i : Irq) : Timer × Irq :=
  let t := { t with divCounter := UInt16.ofNat ((t.divCounter.toNat + n) % 256)
                    divReg := t.divReg + UInt8.ofNat ((t.divCounter.toNat + n) / 256) }
  if ¬ hasBits t.tac 0x04 then (t, i)
  else
    let freq := (timerFreq t.tac).toNat
    let total := t.timerCounter.toNat + n
    ({ t with timerCounter := UInt16.ofNat (total % freq), tima := (timaTicks t i (total / freq)).1 },
      { i with iflag := (timaTicks t i (total / freq)).2 })

theorem timerFreq_bounds (tac : UInt8) : 16 ≤ (timerFreq tac).toNat ∧ (timerFreq tac).toNat ≤ 1024 := by
  unfold timerFreq
  split <;> decide

theorem add_ofInt_toNat {a : UInt16} {n : Nat} (h : a.toNat + n < 65536) :
    (a + UInt16.ofInt (n : Int)).toNat = a.toNat + n := by
  have hn : (UInt16.ofInt (n : Int)).toNat = n := by
    unfold UInt16.ofInt
    rw [UInt16.toNat_ofNat']
    omega
  rw [UInt16.toNat_add, hn, Nat.mod_eq_of_lt h]

/-- While no counter overflows, the loops of `updateTimer` count whole periods. -/
theorem updateTimer_after {n : Nat} {b : Bus σ} (hdiv : b.timer.divCounter.toNat + n < 65536)
    (hcounter : hasBits b.timer.tac 0x04 = true → b.timer.timerCounter.toNat + n < 65536) :
    updateTimer (n : Int) b =
      { b with timer := (timerAfter n b.timer b.irq).1, irq := (timerAfter n b.timer b.irq).2 } := by
  have hd := add_ofInt_toNat hdiv
  have hloop := whileDo_divStep 256 { b.timer with
    divCounter := b.timer.divCounter + UInt16.ofInt (n : Int) }
    (Nat.lt_of_lt_of_le (UInt16.toNat_lt _) (by decide))
  unfold updateTimer timerAfter
  dsimp only at hloop ⊢
  rw [hloop, hd]
  dsimp only
  by_cases hon : hasBits b.timer.tac 0x04 = true
  · obtain ⟨hlow, -⟩ := timerFreq_bounds b.timer.tac
    have hlt := hcounter hon
    have hc := add_ofInt_toNat hlt
    rw [if_neg (not_not.mpr hon), if_neg (not_not.mpr hon), whileDo_timaStep (by omega)]
    · dsimp only
      rw [hc]
      rfl
    · dsimp only
      rw [hc]
      calc b.timer.timerCounter.toNat + n < 16 * (4096 + 1) := by omega
        _ ≤ (timerFreq b.timer.tac).toNat * (4096 + 1) := Nat.mul_le_mul_right _ hlow
  · rw [if_pos hon, if_pos hon]

theorem periods_add (a n : Nat) {freq : Nat} (h : 0 < freq) :
    (a + n) / freq = (a % freq + n) / freq + a / freq := by
  have hsplit : a + n = a % freq + n + freq * (a / freq) := by
    have h := Nat.mod_add_div a freq
    omega
  rw [hsplit, Nat.add_mul_div_left _ _ h]

/-- Whole periods add up. -/
theorem timerAfter_add (m n : Nat) (t : Timer) (i : Irq) :
    timerAfter (m + n) t i = timerAfter n (timerAfter m t i).1 (timerAfter m t i).2 := by
  have hsmall : ∀ x, (UInt16.ofNat (x % 256)).toNat = x % 256 := by
    intro x
    rw [UInt16.toNat_ofNat']
    omega
  have hmod : ∀ d, ((d + m) % 256 + n) % 256 = (d + (m + n)) % 256 := by omega
  have hdiv : ∀ d, (d + (m + n)) / 256 = (d + m) / 256 + ((d + m) % 256 + n) / 256 := by omega
  unfold timerAfter
  dsimp only
  by_cases hon : hasBits t.tac 0x04 = true
  · obtain ⟨hlow, hhigh⟩ := timerFreq_bounds t.tac
    rw [if_neg (not_not.mpr hon), if_neg (not_not.mpr hon)]
    dsimp only
    rw [if_neg (not_not.mpr hon)]
    have hcounter : (UInt16.ofNat ((t.timerCounter.toNat + m) % (timerFreq t.tac).toNat)).toNat =
        (t.timerCounter.toNat + m) % (timerFreq t.tac).toNat := by
      have hlt := Nat.mod_lt (t.timerCounter.toNat + m) (show 0 < (timerFreq t.tac).toNat by omega)
      rw [UInt16.toNat_ofNat']
      omega
    have hperiods : (t.timerCounter.toNat + (m + n)) / (timerFreq t.tac).toNat =
        ((t.timerCounter.toNat + m) % (timerFreq t.tac).toNat + n) / (timerFreq t.tac).toNat +
          (t.timerCounter.toNat + m) / (timerFreq t.tac).toNat := by
      rw [← Nat.add_assoc]
      exact periods_add _ _ (by omega)
    have hrest : ((t.timerCounter.toNat + m) % (timerFreq t.tac).toNat + n) % (timerFreq t.tac).toNat =
        (t.timerCounter.toNat + (m + n)) % (timerFreq t.tac).toNat := by
      rw [Nat.mod_add_mod, Nat.add_assoc]
    rw [hsmall, hcounter, hmod, hdiv, hperiods, hrest, UInt8.ofNat_add, ← UInt8.add_assoc]
    unfold timaTicks
    dsimp only
    rw [Function.iterate_add_apply]
  · rw [if_pos hon, if_pos hon]
    dsimp only
    rw [if_pos hon, hsmall, hmod, hdiv, UInt8.ofNat_add, ← UInt8.add_assoc]

/-! ## Settled counters -/

/-- The counters are below their periods, as every `updateTimer` leaves them. -/
structure Settled (t : Timer) : Prop where
  div : t.divCounter.toNat < 256
  counter : hasBits t.tac 0x04 = true → t.timerCounter.toNat < (timerFreq t.tac).toNat

theorem updateTimer_settled (cycles : Int) (b : Bus σ) : Settled (updateTimer cycles b).timer := by
  have hloop := whileDo_divStep 256 { b.timer with divCounter := b.timer.divCounter + UInt16.ofInt cycles }
    (Nat.lt_of_lt_of_le (UInt16.toNat_lt _) (by decide))
  have hsmall : ∀ x, (UInt16.ofNat (x % 256)).toNat < 256 := by
    intro x
    rw [UInt16.toNat_ofNat']
    omega
  unfold updateTimer
  dsimp only at hloop ⊢
  rw [hloop]
  dsimp only
  by_cases hon : hasBits b.timer.tac 0x04 = true
  · obtain ⟨hlow, hhigh⟩ := timerFreq_bounds b.timer.tac
    rw [if_neg (not_not.mpr hon), whileDo_timaStep (by omega)]
    · refine ⟨hsmall _, fun _ => ?_⟩
      show (UInt16.ofNat (_ % (timerFreq b.timer.tac).toNat)).toNat < (timerFreq b.timer.tac).toNat
      have hlt := Nat.mod_lt (b.timer.timerCounter + UInt16.ofInt cycles).toNat (show 0 <
        (timerFreq b.timer.tac).toNat by omega)
      rw [UInt16.toNat_ofNat']
      exact Nat.lt_of_le_of_lt (Nat.mod_le _ _) hlt
    · have hlt := (b.timer.timerCounter + UInt16.ofInt cycles).toNat_lt
      calc (b.timer.timerCounter + UInt16.ofInt cycles).toNat < 16 * (4096 + 1) := by omega
        _ ≤ (timerFreq b.timer.tac).toNat * (4096 + 1) := Nat.mul_le_mul_right _ hlow
  · rw [if_pos hon]
    exact ⟨hsmall _, fun h => absurd h hon⟩

theorem Settled.timerAfter_zero {t : Timer} (h : Settled t) (i : Irq) : timerAfter 0 t i = (t, i) := by
  unfold timerAfter
  rw [Nat.add_zero, Nat.mod_eq_of_lt h.div, Nat.div_eq_of_lt h.div, UInt16.ofNat_toNat]
  dsimp only
  by_cases hon : hasBits t.tac 0x04 = true
  · have hlt := h.counter hon
    rw [if_neg (not_not.mpr hon), Nat.add_zero, Nat.mod_eq_of_lt hlt, Nat.div_eq_of_lt hlt,
      UInt16.ofNat_toNat]
    show ({ t with divReg := t.divReg + 0 }, i) = _
    rw [UInt8.add_zero]
  · rw [if_pos hon]
    show ({ t with divReg := t.divReg + 0 }, i) = _
    rw [UInt8.add_zero]

theorem timerAfter_settled (n : Nat) (t : Timer) (i : Irq) : Settled (timerAfter n t i).1 := by
  have hsmall : ∀ x, (UInt16.ofNat (x % 256)).toNat < 256 := by
    intro x
    rw [UInt16.toNat_ofNat']
    omega
  unfold timerAfter
  dsimp only
  by_cases hon : hasBits t.tac 0x04 = true
  · obtain ⟨hlow, -⟩ := timerFreq_bounds t.tac
    rw [if_neg (not_not.mpr hon)]
    refine ⟨hsmall _, fun _ => ?_⟩
    have hlt := Nat.mod_lt (t.timerCounter.toNat + n) (show 0 < (timerFreq t.tac).toNat by omega)
    show (UInt16.ofNat _).toNat < (timerFreq t.tac).toNat
    rw [UInt16.toNat_ofNat']
    exact Nat.lt_of_le_of_lt (Nat.mod_le _ _) hlt
  · rw [if_pos hon]
    exact ⟨hsmall _, fun h => absurd h hon⟩

/-! ## The next timer interrupt -/

/-- The timer runs and its interrupt is enabled. -/
def Armed (t : Timer) (i : Irq) : Prop := hasBits t.tac 0x04 = true ∧ hasBits i.ie 0x04 = true

/-- The cycles until TIMA overflows. -/
def overflowIn (t : Timer) : Nat := (256 - t.tima.toNat) * (timerFreq t.tac).toNat - t.timerCounter.toNat

theorem timaTicks_below {t : Timer} {i : Irq} : ∀ {n : Nat}, t.tima.toNat + n < 256 →
    timaTicks t i n = (t.tima + UInt8.ofNat n, i.iflag)
  | 0, _ => by
    show (t.tima, i.iflag) = (t.tima + 0, i.iflag)
    rw [UInt8.add_zero]
  | n + 1, h => by
    have hprev : timaTicks t i n = (t.tima + UInt8.ofNat n, i.iflag) := timaTicks_below (by omega)
    have hne : t.tima + UInt8.ofNat n + 1 ≠ 0 := by
      intro hzero
      have hn := congrArg UInt8.toNat hzero
      rw [UInt8.toNat_add, UInt8.toNat_add, UInt8.toNat_ofNat',
        Nat.mod_eq_of_lt (show n < 2 ^ 8 by omega)] at hn
      have hone : (1 : UInt8).toNat = 1 := rfl
      have hzero' : (0 : UInt8).toNat = 0 := rfl
      omega
    unfold timaTicks at hprev ⊢
    rw [Function.iterate_succ_apply', hprev]
    unfold tick
    rw [if_neg hne, UInt8.add_assoc, UInt8.ofNat_add]
    rfl

/-- The tick after 255 requests the interrupt. -/
theorem timaTicks_overflow (t : Timer) (i : Irq) :
    hasBits (timaTicks t i (256 - t.tima.toNat)).2 0x04 = true := by
  have hlt := t.tima.toNat_lt
  have hrequest : ∀ v : UInt8, hasBits (v ||| 0x04) 0x04 = true := fun ⟨b⟩ => by revert b; decide +kernel
  have hprev : timaTicks t i (255 - t.tima.toNat) = (t.tima + UInt8.ofNat (255 - t.tima.toNat),
      i.iflag) := timaTicks_below (by omega)
  have hlast : t.tima + UInt8.ofNat (255 - t.tima.toNat) + 1 = 0 := by
    apply UInt8.toNat_inj.mp
    have hone : (1 : UInt8).toNat = 1 := rfl
    have hzero : (0 : UInt8).toNat = 0 := rfl
    rw [UInt8.toNat_add, UInt8.toNat_add, UInt8.toNat_ofNat',
      Nat.mod_eq_of_lt (show 255 - t.tima.toNat < 2 ^ 8 by omega)]
    omega
  have hcount : 256 - t.tima.toNat = 255 - t.tima.toNat + 1 := by omega
  unfold timaTicks at hprev ⊢
  rw [hcount, Function.iterate_succ_apply', hprev]
  unfold tick
  rw [if_pos hlast]
  exact hrequest _

/-- Ticks set no other request. -/
theorem timaTicks_requests (t : Timer) (i : Irq) : ∀ n :
    Nat, (timaTicks t i n).2 ||| 0x04 = i.iflag ||| 0x04
  | 0 => rfl
  | n + 1 => by
    have hprev := timaTicks_requests t i n
    unfold timaTicks at hprev ⊢
    rw [Function.iterate_succ_apply']
    unfold tick
    split
    · rw [UInt8.or_assoc, UInt8.or_self]
      exact hprev
    · exact hprev

theorem and_masked {ie f f' : UInt8} (hie : hasBits ie 0x04 = false)
    (h : f ||| 0x04 = f' ||| 0x04) : ie &&& f = ie &&& f' := by
  have hzero : ie &&& 0x04 = 0 := by
    unfold hasBits at hie
    simpa using hie
  have hdrop : ∀ v : UInt8, ie &&& v = ie &&& (v ||| 0x04) := by
    intro v
    have hdistrib : ie &&& (v ||| 0x04) = (ie &&& v) ||| (ie &&& 0x04) :=
      UInt8.toBitVec_inj.mp BitVec.and_or_distrib_left
    rw [hdistrib, hzero, UInt8.or_zero]
  rw [hdrop f, h, ← hdrop f']

/-- Before an enabled overflow the timer requests nothing that is enabled. -/
theorem timerAfter_pending {t : Timer} {i : Irq} {n : Nat} (hn : Armed t i → n < overflowIn t) :
    pendingIrqs (timerAfter n t i).2 = pendingIrqs i := by
  unfold timerAfter
  dsimp only
  by_cases hon : hasBits t.tac 0x04 = true
  · rw [if_neg (not_not.mpr hon)]
    show i.ie &&& (timaTicks t i _).2 &&& 0x1F = i.ie &&& i.iflag &&& 0x1F
    by_cases hie : hasBits i.ie 0x04 = true
    · have hlt := hn ⟨hon, hie⟩
      have htima := t.tima.toNat_lt
      unfold overflowIn at hlt
      have hticks : (t.timerCounter.toNat + n) / (timerFreq t.tac).toNat < 256 - t.tima.toNat :=
        (Nat.div_lt_iff_lt_mul (by have := (timerFreq_bounds t.tac).1; omega)).mpr (by omega)
      rw [timaTicks_below (by omega)]
    · rw [and_masked (eq_false_of_ne_true hie) (timaTicks_requests t i _)]
  · rw [if_pos hon]

theorem enabled_request {ie f : UInt8} (hie : hasBits ie 0x04 = true) (hf : hasBits f 0x04 = true) :
    ie &&& f &&& 0x1F ≠ 0 := by
  have hbit : ∀ v : UInt8, hasBits v 0x04 = true → v &&& 0x04 = 0x04 :=
    fun ⟨b⟩ => by revert b; decide +kernel
  intro hzero
  have hmask : ie &&& f &&& 0x1F &&& 0x04 = ie &&& (f &&& 0x04) := by
    rw [UInt8.and_assoc (ie &&& f), UInt8.and_assoc]
    rfl
  rw [hzero, hbit f hf, hbit ie hie] at hmask
  exact absurd hmask (by decide)

theorem timerAfter_overflow {t : Timer} {i : Irq} (h : Settled t) (ha : Armed t i) :
    pendingIrqs (timerAfter (overflowIn t) t i).2 ≠ 0 := by
  obtain ⟨hon, hie⟩ := ha
  have hcounter := h.counter hon
  have htima := t.tima.toNat_lt
  have hmul : (timerFreq t.tac).toNat ≤ (256 - t.tima.toNat) * (timerFreq t.tac).toNat :=
    Nat.le_mul_of_pos_left _ (by omega)
  have hticks : (t.timerCounter.toNat + overflowIn t) / (timerFreq t.tac).toNat = 256 - t.tima.toNat := by
    have hsum : t.timerCounter.toNat + overflowIn t = (256 - t.tima.toNat) * (timerFreq t.tac).toNat := by
      unfold overflowIn
      omega
    rw [hsum, Nat.mul_div_cancel _ (by omega)]
  unfold timerAfter
  dsimp only
  rw [if_neg (not_not.mpr hon), hticks]
  exact enabled_request hie (timaTicks_overflow t i)

end FoloGameboy

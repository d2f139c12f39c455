/-
What holds of the channels of the sound chip between any two calls, and what their counters do under
it: the length counter, the envelope and the sweep count up to `FREQ_INC_REF` and take at most one
step for each sample.
-/
import FoloGameboy.Apu.Note

namespace FoloGameboy

/-! ## The invariant -/

/-- A counter at rest, and the most it is raised by. -/
structure Counting (counter inc : UInt32) (most : Nat) : Prop where
  counter : counter.toNat ≤ NOTE_REF
  inc : inc.toNat ≤ most

def volumeMax (i : Fin 4) : Nat := if i = WAVE_CHAN then 3 else 15

def freqMax (i : Fin 4) : Nat := if i = NOISE_CHAN then 15 else 2047

/-- `val` is a level of the channel, or a position of the wave channel. -/
def LevelOK (i : Fin 4) (val : Int) : Prop :=
  if i = WAVE_CHAN then 0 ≤ val ∧ val ≤ 31 else -273 ≤ val ∧ val ≤ 273

structure ChanOK (i : Fin 4) (c : Chan) : Prop where
  onLeft : c.onLeft.toNat ≤ 1
  onRight : c.onRight.toNat ≤ 1
  volume : c.volume.toNat ≤ volumeMax i
  volumeInit : c.volumeInit.toNat ≤ volumeMax i
  /-- The sweep may leave a frequency out of range behind when it turns its channel off. -/
  freq : (i = 0 → c.enabled = true) → c.freq.toNat ≤ freqMax i
  freqCounter : c.freqCounter.toNat ≤ NOTE_REF
  val : LevelOK i c.val
  load : i ≠ 2 → c.len.load.toNat ≤ 63
  len : Counting c.len.counter c.len.inc 26880
  env : Counting c.env.counter c.env.inc 6720
  sweep : Counting c.sweep.counter c.sweep.inc 13440
  shift : c.sweep.shift.toNat ≤ 7
  lfsrDiv : i = 3 → c.shape.lfsrDiv.toNat ≤ 7

structure ApuOK (a : Apu) : Prop where
  chans (i : Fin 4) : ChanOK i (a.chans i)
  volL : 0 ≤ a.volL ∧ a.volL ≤ 7
  volR : 0 ≤ a.volR ∧ a.volR ≤ 7
  audioMem : a.audioMem.size = AUDIO_MEM_SIZE

theorem Counting.add_toNat {counter inc : UInt32} {most : Nat} (h : Counting counter inc most)
    (hmost : most ≤ NOTE_REF) : (counter + inc).toNat = counter.toNat + inc.toNat := by
  have h₁ := h.counter
  have h₂ := h.inc
  unfold NOTE_REF at *
  rw [UInt32.toNat_add]
  exact Nat.mod_eq_of_lt (by omega)

theorem Counting.lt_iff {counter inc : UInt32} {most : Nat} (h : Counting counter inc most)
    (hmost : most ≤ NOTE_REF) : FREQ_INC_REF < counter + inc ↔ NOTE_REF < counter.toNat + inc.toNat := by
  rw [UInt32.lt_iff_toNat_lt, h.add_toNat hmost, toNat_ref]

theorem Counting.add {counter inc : UInt32} {most : Nat} (h : Counting counter inc most)
    (hmost : most ≤ NOTE_REF) (hle : ¬ FREQ_INC_REF < counter + inc) : Counting (counter + inc) inc most where
  counter := by
    rw [h.lt_iff hmost] at hle
    rw [h.add_toNat hmost]
    omega
  inc := h.inc

/-- One step is enough: a counter that passes `FREQ_INC_REF` is back below it afterwards. -/
theorem Counting.sub {counter inc : UInt32} {most : Nat} (h : Counting counter inc most)
    (hmost : most ≤ NOTE_REF) (hlt : FREQ_INC_REF < counter + inc) :
    (counter + inc - FREQ_INC_REF).toNat ≤ NOTE_REF := by
  have h₁ := h.counter
  have h₂ := h.inc
  rw [UInt32.toNat_sub_of_le _ _ (UInt32.le_of_lt hlt), h.add_toNat hmost, toNat_ref]
  omega

theorem not_lt_ref {x : UInt32} (h : x.toNat ≤ NOTE_REF) : ¬ FREQ_INC_REF < x := by
  rw [UInt32.lt_iff_toNat_lt, toNat_ref]
  omega

/-! ## Channels of the chip -/

@[simp] theorem setChan_self (i : Fin 4) (c : Chan) (a : Apu) : (a.setChan i c).chans i = c := by
  unfold Apu.setChan
  exact Function.update_self i c a.chans

theorem setChan_of_ne {i j : Fin 4} (h : j ≠ i) (c : Chan) (a : Apu) : (a.setChan i c).chans j = a.chans j := by
  unfold Apu.setChan
  exact Function.update_of_ne h c a.chans

/-- Only channel `i` and the register bytes below the wave memory may differ. -/
structure OnlyChan (i : Fin 4) (a a' : Apu) : Prop where
  others (j : Fin 4) (h : j ≠ i) : a'.chans j = a.chans j
  volL : a'.volL = a.volL
  volR : a'.volR = a.volR
  size : a'.audioMem.size = a.audioMem.size
  wave (k : Nat) (h : 0x20 ≤ k) : a'.audioMem.get k = a.audioMem.get k

namespace OnlyChan

variable {i : Fin 4} {a a' a'' : Apu}

theorem refl (i : Fin 4) (a : Apu) : OnlyChan i a a := ⟨fun _ _ => rfl, rfl, rfl, rfl, fun _ _ => rfl⟩

theorem trans (h : OnlyChan i a a') (h' : OnlyChan i a' a'') : OnlyChan i a a'' where
  others j hj := (h'.others j hj).trans (h.others j hj)
  volL := h'.volL.trans h.volL
  volR := h'.volR.trans h.volR
  size := h'.size.trans h.size
  wave k hk := (h'.wave k hk).trans (h.wave k hk)

theorem setChan (i : Fin 4) (c : Chan) (a : Apu) : OnlyChan i a (a.setChan i c) :=
  ⟨fun _ h => setChan_of_ne h c a, rfl, rfl, rfl, fun _ _ => rfl⟩

/-- The chip keeps its invariant when its channel does. -/
theorem ok (h : OnlyChan i a a') (ha : ApuOK a) (hc : ChanOK i (a'.chans i)) : ApuOK a' where
  chans j := by
    by_cases hj : j = i
    · rw [hj]
      exact hc
    · rw [h.others j hj]
      exact ha.chans j
  volL := by rw [h.volL]; exact ha.volL
  volR := by rw [h.volR]; exact ha.volR
  audioMem := h.size.trans ha.audioMem

end OnlyChan

theorem ApuOK.setChan {a : Apu} (h : ApuOK a) {i : Fin 4} {c : Chan} (hc : ChanOK i c) : ApuOK (a.setChan i c) :=
  (OnlyChan.setChan i c a).ok h (by rw [setChan_self]; exact hc)

/-! ## Switching a channel -/

/-- Switching on a channel that the sweep turned off takes a frequency in range. -/
theorem ChanOK.enable {i : Fin 4} {c : Chan} (h : ChanOK i c) (enable : Bool)
    (hfreq : enable = true → c.freq.toNat ≤ freqMax i) : ChanOK i { c with enabled := enable } :=
  { h with
    freq := fun hi => by
      by_cases hzero : i = 0
      · exact hfreq (hi hzero)
      · exact h.freq fun h => absurd h hzero }

theorem chanEnable_eq {a : Apu} (hsize : a.audioMem.size = AUDIO_MEM_SIZE) (i : Fin 4) (enable : Bool) :
    ∃ a', chanEnable i enable a = some a' ∧ a'.chans i = { a.chans i with enabled := enable } ∧ OnlyChan i a a' := by
  have hin : 0x16 < a.audioMem.size := by
    rw [hsize]
    decide
  have hload : (a.setChan i { a.chans i with enabled := enable }).audioMem.load 0x16 = some (a.audioMem.get 0x16) :=
    Buffer.load_eq hin
  unfold chanEnable
  simp only [hload, Option.bind_eq_bind, Option.bind_some]
  generalize (a.audioMem.get 0x16 &&& 0x80) ||| enabledBits _ = status
  have hput : (a.setChan i { a.chans i with enabled := enable }).audioMem.put 0x16 status =
      some (a.audioMem.set 0x16 status) := Buffer.put_eq hin status
  rw [hput]
  refine ⟨_, rfl, setChan_self i _ a, ?_⟩
  have hset := OnlyChan.setChan i { a.chans i with enabled := enable } a
  exact { hset with
    size := Buffer.size_set _ _ _
    wave := fun k hk => Buffer.get_set_ne _ (by omega) _ }

/-! ## Length -/

def lenStep (c : Chan) : Chan :=
  if c.len.enabled then
    if FREQ_INC_REF < c.len.counter + c.len.inc then
      { c with enabled := false, len := { c.len with counter := 0 } }
    else { c with len := { c.len with counter := c.len.counter + c.len.inc } }
  else c

theorem updateLen_eq {a : Apu} (h : a.audioMem.size = AUDIO_MEM_SIZE) (i : Fin 4) :
    ∃ a', updateLen i a = some a' ∧ a'.chans i = lenStep (a.chans i) ∧ OnlyChan i a a' := by
  unfold updateLen lenStep
  dsimp only
  by_cases hen : (a.chans i).len.enabled = true
  · rw [if_pos hen, if_pos hen]
    by_cases hlt : FREQ_INC_REF < (a.chans i).len.counter + (a.chans i).len.inc
    · rw [if_pos hlt, if_pos hlt]
      have hset := OnlyChan.setChan i
        { a.chans i with len := { (a.chans i).len with counter := (a.chans i).len.counter + (a.chans i).len.inc } } a
      obtain ⟨a', hen', hc, honly⟩ := chanEnable_eq (hset.size.trans h) i false
      rw [hen']
      refine ⟨_, rfl, ?_, (hset.trans honly).trans (OnlyChan.setChan i _ a')⟩
      rw [setChan_self, hc, setChan_self]
    · rw [if_neg hlt, if_neg hlt]
      exact ⟨_, rfl, setChan_self i _ a, OnlyChan.setChan i _ a⟩
  · rw [if_neg hen, if_neg hen]
    exact ⟨a, rfl, rfl, .refl i a⟩

theorem lenStep_ok {i : Fin 4} {c : Chan} (h : ChanOK i c) : ChanOK i (lenStep c) := by
  unfold lenStep
  split
  · split
    · exact { h.enable false nofun with len := ⟨Nat.zero_le _, h.len.inc⟩ }
    · exact { h with len := h.len.add (by decide) ‹_› }
  · exact h

/-! ## Envelope -/

/-- The envelope after one sample. -/
def envAfter (c : Chan) : Chan :=
  let c := { c with env := { c.env with counter := c.env.counter + c.env.inc } }
  if FREQ_INC_REF < c.env.counter then
    let c := envStep c
    { c with env := { c.env with counter := c.env.counter - FREQ_INC_REF } }
  else c

theorem envStep_counter (c : Chan) : (envStep c).env.counter = c.env.counter := by
  unfold envStep
  split <;> rfl

theorem updateEnv_eq {c : Chan} (h : Counting c.env.counter c.env.inc 6720) : updateEnv c = some (envAfter c) := by
  unfold updateEnv envAfter
  dsimp only
  by_cases hlt : FREQ_INC_REF < c.env.counter + c.env.inc
  · rw [if_pos hlt]
    refine Loop.whileDo_once_eq (p := fun c : Chan => FREQ_INC_REF < c.env.counter) ?_ ?_ ?_ ?_
    · exact hlt
    · rfl
    · refine not_lt_ref ?_
      show ((envStep _).env.counter - FREQ_INC_REF).toNat ≤ _
      rw [envStep_counter]
      exact h.sub (by decide) hlt
    · decide
  · rw [if_neg hlt]
    exact Loop.whileDo_of_not (p := fun c : Chan => FREQ_INC_REF < c.env.counter) hlt (by decide)

/-- The envelope touches the volume and its own state only. -/
theorem envAfter_only (c : Chan) : envAfter c = { c with volume := (envAfter c).volume, env := (envAfter c).env } := by
  unfold envAfter envStep
  dsimp only
  split
  · split <;> rfl
  · rfl

theorem clamp_le (volume : UInt8) : (if MAX_CHAN_VOLUME ≤ volume then MAX_CHAN_VOLUME else volume).toNat ≤ 15 := by
  split
  · exact Nat.le_refl 15
  · rename_i hle
    rw [UInt8.not_le, UInt8.lt_iff_toNat_lt] at hle
    exact Nat.le_of_lt hle

theorem envStep_volume {c : Chan} (h : c.volume.toNat ≤ 15) : (envStep c).volume.toNat ≤ 15 := by
  unfold envStep
  split
  · exact clamp_le _
  · exact h

theorem envStep_inc (c : Chan) : (envStep c).env.inc = c.env.inc ∨ (envStep c).env.inc = 0 := by
  unfold envStep
  split
  · exact (ite_eq_or_eq _ _ _).symm
  · exact .inl rfl

theorem envAfter_ok {i : Fin 4} (hi : i ≠ 2) {c : Chan} (h : ChanOK i c) : ChanOK i (envAfter c) := by
  have hmax : volumeMax i = 15 := if_neg hi
  have hvol : c.volume.toNat ≤ 15 := hmax ▸ h.volume
  rw [envAfter_only]
  suffices hnew : (envAfter c).volume.toNat ≤ 15 ∧ Counting (envAfter c).env.counter (envAfter c).env.inc 6720 from
    { h with volume := hmax ▸ hnew.1, env := hnew.2 }
  unfold envAfter
  dsimp only
  split
  · rename_i hlt
    refine ⟨envStep_volume hvol, ?_, ?_⟩
    · show ((envStep _).env.counter - FREQ_INC_REF).toNat ≤ _
      rw [envStep_counter]
      exact h.env.sub (by decide) hlt
    · show (envStep _).env.inc.toNat ≤ _
      rcases envStep_inc { c with env := { c.env with counter := c.env.counter + c.env.inc } } with hinc | hinc
      · rw [hinc]
        exact h.env.inc
      · rw [hinc]
        exact Nat.zero_le _
  · exact ⟨hvol, h.env.add (by decide) ‹_›⟩

/-! ## Frequency and sweep -/

theorem setNoteFreq_eq {c : Chan} (h : c.freq.toNat ≤ 2047) :
    ∃ inc, setNoteFreq c = some { c with freqInc := inc } ∧ inc.toNat = 1048576 / (2048 - c.freq.toNat) * 105 := by
  have hsub : (2048 - c.freq.toUInt32 : UInt32).toNat = 2048 - c.freq.toNat := by
    have hle : c.freq.toUInt32 ≤ 2048 := by
      rw [UInt32.le_iff_toNat_le, UInt16.toNat_toUInt32]
      show c.freq.toNat ≤ 2048
      omega
    rw [UInt32.toNat_sub_of_le _ _ hle, UInt16.toNat_toUInt32]
    rfl
  have hne : (2048 - c.freq.toUInt32 : UInt32) ≠ 0 := fun hz => by
    rw [hz] at hsub
    have hzero : (0 : UInt32).toNat = 0 := rfl
    omega
  have hdiv : (1048576 / (2048 - c.freq.toUInt32) : UInt32).toNat = 1048576 / (2048 - c.freq.toNat) := by
    rw [UInt32.toNat_div, hsub]
    rfl
  have hsmall : 1048576 / (2048 - c.freq.toNat) ≤ 1048576 := Nat.div_le_self _ _
  refine ⟨1048576 / (2048 - c.freq.toUInt32) * FREQ_INC_MULT, ?_, ?_⟩
  · unfold setNoteFreq cDiv
    rw [if_neg hne]
    rfl
  · rw [UInt32.toNat_mul, hdiv]
    show _ * 105 % 4294967296 = _
    exact Nat.mod_eq_of_lt (by omega)

/-- The increment of a square channel. -/
theorem noteInc_le (freq : Nat) : 1048576 / (2048 - freq) * 105 ≤ 110100480 := by
  have h : 1048576 / (2048 - freq) ≤ 1048576 := Nat.div_le_self _ _
  omega

/-- Square channel 1 while it plays. -/
def Sweeping (c : Chan) : Prop := ChanOK SWEEP_CHAN c ∧ c.freqInc.toNat ≤ NOTE_MAX

def Chan.withSweepCounter (x : UInt32) (c : Chan) : Chan := { c with sweep := { c.sweep with counter := x } }

theorem Sweeping.withSweepCounter {c : Chan} (h : Sweeping c) {x : UInt32} (hx : x.toNat ≤ NOTE_REF) :
    Sweeping (c.withSweepCounter x) :=
  ⟨{ h.1 with sweep := ⟨hx, h.1.sweep.inc⟩ }, h.2⟩

/-- A step of the sweep, wherever its counter stands. -/
theorem sweepStep_defined {c : Chan} (h : Sweeping c) (x : UInt32) :
    Defined (sweepStep (c.withSweepCounter x)) fun c' => c'.sweep.counter = x ∧ Sweeping (c'.withSweepCounter 0) := by
  obtain ⟨hc, hinc⟩ := h
  have hshift : (c.withSweepCounter x).sweep.shift < 32 := by
    have hle := hc.shift
    rw [UInt8.lt_iff_toNat_lt]
    show c.sweep.shift.toNat < 32
    omega
  have hzero : ChanOK 0 (c.withSweepCounter 0) := { hc with sweep := ⟨Nat.zero_le _, hc.sweep.inc⟩ }
  unfold sweepStep
  rw [if_pos hshift]
  split
  · dsimp only
    generalize ((c.withSweepCounter x).sweep.freq + if (c.withSweepCounter x).sweep.down = true then _
    else _ : UInt16) = freq
    split
    · exact .pure ⟨rfl, { hzero with freq := fun h => absurd (h rfl) Bool.false_ne_true }, hinc⟩
    · rename_i hle
      rw [UInt16.not_lt, UInt16.le_iff_toNat_le] at hle
      have hle : freq.toNat ≤ 2047 := hle
      obtain ⟨inc, hset, hval⟩ := setNoteFreq_eq (c := { c.withSweepCounter x with freq := freq }) hle
      rw [hset]
      refine .pure ⟨rfl, { hzero with freq := fun _ => hle }, ?_⟩
      show inc.toNat ≤ NOTE_MAX
      rw [hval]
      exact Nat.le_trans (noteInc_le freq.toNat) (by decide)
  · split
    · exact .pure ⟨rfl, hzero.enable false nofun, hinc⟩
    · exact .pure ⟨rfl, hzero, hinc⟩

theorem updateSweep_defined {c : Chan} (h : Sweeping c) : Defined (updateSweep c) Sweeping := by
  unfold updateSweep
  by_cases hlt : FREQ_INC_REF < c.sweep.counter + c.sweep.inc
  · have hback := h.1.sweep.sub (by decide) hlt
    refine Loop.whileDo_once (p := fun c : Chan => FREQ_INC_REF < c.sweep.counter) hlt ?_ (by decide)
    refine .bind (sweepStep_defined h (c.sweep.counter + c.sweep.inc)) fun c' hc' => ?_
    obtain ⟨hcounter, hsweep⟩ := hc'
    rw [← hcounter] at hback
    exact .pure ⟨not_lt_ref hback, hsweep.withSweepCounter hback⟩
  · refine .of_eq (Loop.whileDo_of_not (p := fun c : Chan => FREQ_INC_REF < c.sweep.counter) hlt (by decide)) ?_
    exact h.withSweepCounter (h.1.sweep.add (by decide) hlt).counter

end FoloGameboy

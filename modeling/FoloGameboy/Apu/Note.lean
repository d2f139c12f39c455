/-
The wave steps of one sample. `updateFreq` counts the position up and down so that the loop around it
is a phase accumulator: a channel makes exactly as many steps as its frequency asks for and keeps the
rest, and the part of a sample that the C code adds for each step is always zero.
-/
import FoloGameboy.Apu.Chip
import FoloGameboy.Lib.Phase

namespace FoloGameboy

/-- The largest increment: the wave channel at its highest frequency. -/
def NOTE_MAX : Nat := 220200960

/-- `FREQ_INC_REF` as a number. -/
def NOTE_REF : Nat := 1680000

theorem toNat_ref : FREQ_INC_REF.toNat = NOTE_REF := rfl

theorem ref_pos : 0 < NOTE_REF := by decide

def Chan.withCounter (x : UInt32) (c : Chan) : Chan := { c with freqCounter := x }

@[simp] theorem Chan.withCounter_withCounter (x y : UInt32) (c : Chan) :
    (c.withCounter x).withCounter y = c.withCounter y := rfl

/-- What the accumulator of a note stands at. -/
def Note.due (n : Note) : Nat := n.chan.freqCounter.toNat + (n.chan.freqInc.toNat - n.pos.toNat)

structure Note.InTime (n : Note) : Prop where
  counter : n.chan.freqCounter.toNat ≤ NOTE_REF
  pos : n.pos.toNat ≤ n.chan.freqInc.toNat
  inc : n.chan.freqInc.toNat ≤ NOTE_MAX

theorem Note.InTime.due_lt {n : Note} (h : n.InTime) : n.due < 4294967296 := by
  have h₁ := h.counter
  have h₂ := h.inc
  unfold NOTE_REF at h₁
  unfold NOTE_MAX at h₂
  unfold due
  omega

theorem Note.InTime.counter_eq {n : Note} (h : n.InTime) :
    (n.chan.freqCounter + (n.chan.freqInc - n.pos)).toNat = n.due := by
  rw [UInt32.toNat_add, UInt32.toNat_sub_of_le _ _ (UInt32.le_iff_toNat_le.2 h.pos)]
  exact Nat.mod_eq_of_lt h.due_lt

/-- Without a step to make, the test keeps the whole time in the counter. -/
theorem updateFreq_exit {n : Note} (h : n.InTime) (hdue : n.due ≤ NOTE_REF) :
    updateFreq n = (false, { n with chan := n.chan.withCounter (.ofNat n.due), pos := n.chan.freqInc }) := by
  have hcounter := h.counter_eq
  have hle : ¬ FREQ_INC_REF < n.chan.freqCounter + (n.chan.freqInc - n.pos) := by
    rw [UInt32.lt_iff_toNat_lt, hcounter, toNat_ref]
    omega
  have heq : n.chan.freqCounter + (n.chan.freqInc - n.pos) = .ofNat n.due := by
    rw [← hcounter, UInt32.ofNat_toNat]
  unfold updateFreq
  dsimp only
  rw [if_neg hle, heq]
  rfl

/-- A step takes `NOTE_REF` off what is due, and the position stays below the increment. -/
theorem updateFreq_pass {n : Note} (h : n.InTime) (hdue : NOTE_REF < n.due) :
    ∃ pos, updateFreq n = (true, { n with chan := n.chan.withCounter 0, pos := pos }) ∧
      n.pos.toNat ≤ pos.toNat ∧ pos.toNat < n.chan.freqInc.toNat ∧
      n.chan.freqInc.toNat - pos.toNat = n.due - NOTE_REF := by
  have hcounter := h.counter_eq
  have hlt : FREQ_INC_REF < n.chan.freqCounter + (n.chan.freqInc - n.pos) := by
    rw [UInt32.lt_iff_toNat_lt, hcounter, toNat_ref]
    exact hdue
  have hbefore := h.counter
  have hpos := h.pos
  have hover : (n.chan.freqCounter + (n.chan.freqInc - n.pos) - FREQ_INC_REF).toNat = n.due - NOTE_REF := by
    rw [UInt32.toNat_sub_of_le _ _ (UInt32.le_of_lt hlt), hcounter, toNat_ref]
  have hsmall : n.due - NOTE_REF ≤ n.chan.freqInc.toNat := by
    unfold Note.due
    omega
  have hpos' : (n.chan.freqInc - (n.chan.freqCounter + (n.chan.freqInc - n.pos) - FREQ_INC_REF)).toNat =
      n.chan.freqInc.toNat - (n.due - NOTE_REF) := by
    rw [UInt32.toNat_sub_of_le _ _ (UInt32.le_iff_toNat_le.2 (by rw [hover]; exact hsmall)), hover]
  refine ⟨n.chan.freqInc - (n.chan.freqCounter + (n.chan.freqInc - n.pos) - FREQ_INC_REF), ?_, ?_, ?_, ?_⟩
  · unfold updateFreq
    dsimp only
    rw [if_pos hlt]
    rfl
  · rw [hpos']
    unfold Note.due
    omega
  · rw [hpos']
    omega
  · rw [hpos']
    omega

/-! ## Playing a note -/

/-- The body of a channel's loop makes the step `tick` of the channel and adds nothing to the sample. -/
structure Ticks (body : Note → Option Note) (I : Chan → Prop) (tick : Chan → Chan) : Prop where
  counter (x : UInt32) : Function.Commute tick (Chan.withCounter x)
  inc (c : Chan) : (tick c).freqInc = c.freqInc
  counter_keeps {c : Chan} (h : I c) (x : UInt32) : I (c.withCounter x)
  keeps {c : Chan} (h : I c) : I (tick c)
  body {n : Note} (h : I n.chan) (hprev : n.prevPos.toNat ≤ n.pos.toNat)
    (hpos : n.pos.toNat < n.chan.freqInc.toNat) (hsample : n.sample = 0) :
    body n = some { n with chan := tick n.chan, prevPos := n.pos }

variable {body : Note → Option Note} {I : Chan → Prop} {tick : Chan → Chan}

/-- The division in the body is by an increment above zero, and gives zero. -/
theorem elapsedPart_eq {n : Note} (hprev : n.prevPos.toNat ≤ n.pos.toNat)
    (hpos : n.pos.toNat < n.chan.freqInc.toNat) : elapsedPart n = some 0 := by
  have hne : n.chan.freqInc ≠ 0 := fun h => by simp [h] at hpos
  have hzero : (n.pos - n.prevPos) / n.chan.freqInc = 0 := by
    rw [← UInt32.toNat_inj, UInt32.toNat_div, UInt32.toNat_sub_of_le _ _ (UInt32.le_iff_toNat_le.2 hprev)]
    exact Nat.div_eq_of_lt (by omega)
  unfold elapsedPart cDiv
  rw [if_neg hne, hzero]

theorem whileDo_ticks (h : Ticks body I tick) :
    ∀ (fuel : Nat) {n : Note}, I n.chan → n.InTime → n.prevPos = n.pos → n.sample = 0 →
      Phase.fires NOTE_REF n.due < fuel → ∃ m, Loop.whileDo updateFreq body fuel n = some m ∧
        m.chan = (tick^[Phase.fires NOTE_REF n.due] n.chan).withCounter (.ofNat (Phase.rest NOTE_REF n.due)) ∧
        m.sample = 0
  | 0, _, _, _, _, _, hfuel => absurd hfuel (Nat.not_lt_zero _)
  | fuel + 1, n, hI, ht, hprev, hsample, hfuel => by
    rcases Nat.lt_or_ge NOTE_REF n.due with hdue | hdue
    · obtain ⟨pos, htest, hle, hlt, hleft⟩ := updateFreq_pass ht hdue
      have hfires := Phase.fires_of_lt ref_pos hdue
      have hbody := h.body (n := { n with chan := n.chan.withCounter 0, pos := pos }) (h.counter_keeps hI 0)
        (by rw [hprev]; exact hle) hlt hsample
      have hcomm : tick (n.chan.withCounter 0) = (tick n.chan).withCounter 0 := h.counter 0 n.chan
      have hinc : (tick (n.chan.withCounter 0)).freqInc = n.chan.freqInc := h.inc _
      -- the note after the step, with `NOTE_REF` less to go
      generalize hm : ({ n with chan := tick (n.chan.withCounter 0), pos := pos, prevPos := pos } : Note) = m at hbody
      have hmdue : m.due = n.due - NOTE_REF := by
        rw [← hleft, ← hm]
        show (tick (n.chan.withCounter 0)).freqCounter.toNat +
            ((tick (n.chan.withCounter 0)).freqInc.toNat - pos.toNat) = _
        rw [hinc, hcomm]
        exact Nat.zero_add _
      have hmtime : m.InTime := by
        rw [← hm]
        refine ⟨?_, ?_, ?_⟩
        · show (tick (n.chan.withCounter 0)).freqCounter.toNat ≤ _
          rw [hcomm]
          exact Nat.zero_le _
        · show pos.toNat ≤ (tick (n.chan.withCounter 0)).freqInc.toNat
          rw [hinc]
          exact Nat.le_of_lt hlt
        · show (tick (n.chan.withCounter 0)).freqInc.toNat ≤ _
          rw [hinc]
          exact ht.inc
      obtain ⟨m', hrun, hchan, hs⟩ := whileDo_ticks h fuel (n := m) (by rw [← hm]; exact h.keeps (h.counter_keeps hI 0))
        hmtime (by rw [← hm]) (by rw [← hm]; exact hsample) (by rw [hmdue]; omega)
      refine ⟨m', (Loop.whileDo_pass htest hbody fuel).trans hrun, ?_, hs⟩
      have hmchan : m.chan = (tick n.chan).withCounter 0 := by
        rw [← hm]
        exact hcomm
      rw [hchan, hmdue, Phase.rest_of_lt ref_pos hdue, hfires, Function.iterate_succ_apply, hmchan,
        (h.counter 0).iterate_left _ (tick n.chan), Chan.withCounter_withCounter]
    · refine ⟨_, Loop.whileDo_exit (updateFreq_exit ht hdue) fuel, ?_, hsample⟩
      rw [Phase.fires_of_le hdue, Phase.rest_of_le hdue]
      rfl

/-- What a note leaves: the channel has made the steps that were due. -/
def playedChan (tick : Chan → Chan) (c : Chan) : Chan :=
  let total := c.freqCounter.toNat + c.freqInc.toNat
  (tick^[Phase.fires NOTE_REF total] c).withCounter (.ofNat (Phase.rest NOTE_REF total))

theorem playNote_eq (h : Ticks body I tick) {c : Chan} (hI : I c) (hcounter : c.freqCounter.toNat ≤ NOTE_REF)
    (hinc : c.freqInc.toNat ≤ NOTE_MAX) :
    ∃ n, playNote body c = some n ∧ n.chan = playedChan tick c ∧ n.sample = 0 := by
  have hdue : ({ chan := c } : Note).due = c.freqCounter.toNat + c.freqInc.toNat := rfl
  have hfires := Nat.div_le_div_right (c := NOTE_REF) (Nat.sub_le (c.freqCounter.toNat + c.freqInc.toNat) 1)
  have hmax : (c.freqCounter.toNat + c.freqInc.toNat) / NOTE_REF < loopFuel := by
    unfold NOTE_REF at *
    unfold NOTE_MAX at hinc
    unfold loopFuel
    omega
  have hlt : Phase.fires NOTE_REF ({ chan := c } : Note).due < loopFuel := by
    rw [hdue]
    unfold Phase.fires
    omega
  exact whileDo_ticks h loopFuel (n := { chan := c }) hI ⟨hcounter, Nat.zero_le _, hinc⟩ rfl rfl hlt

/-! ## The channels' steps -/

def squareStep (c : Chan) : Chan :=
  let shape := c.shape.withDutyCounter ((c.shape.dutyCounter + 1) &&& 7)
  { c with
    shape := shape, val := if shape.duty.toNat.testBit shape.dutyCounter.toNat then LEVEL_HIGH else LEVEL_LOW }

theorem squareTick_ticks : Ticks squareTick (fun _ => True) squareStep where
  counter x _ := rfl
  inc _ := rfl
  counter_keeps _ _ := trivial
  keeps _ := trivial
  body := by
    intro n _ hprev hpos hsample
    have hpart := elapsedPart_eq hprev hpos
    have hadd : wrapInt32 (n.sample + (0 : UInt32).toNat * n.chan.val) = n.sample := by
      rw [hsample]
      show wrapInt32 (0 + (0 : Int) * _) = 0
      rw [Int.zero_mul]
      rfl
    unfold squareTick
    simp only [hpart, Option.bind_eq_bind, Option.bind_some, hadd]
    rfl

def noiseStep (c : Chan) : Chan :=
  let reg : UInt16 := (c.shape.lfsrReg <<< 1) ||| if LEVEL_HIGH ≤ c.val then 1 else 0
  { c with val := lfsrLevel reg c.shape.lfsrWide, shape := c.shape.withLfsrReg reg }

theorem noiseTick_ticks : Ticks noiseTick (fun _ => True) noiseStep where
  counter x _ := rfl
  inc _ := rfl
  counter_keeps _ _ := trivial
  keeps _ := trivial
  body := by
    intro n _ hprev hpos hsample
    have hpart := elapsedPart_eq hprev hpos
    have hadd (x : Int) : wrapInt32 (n.sample + (0 : UInt32).toNat * x) = n.sample := by
      rw [hsample]
      show wrapInt32 (0 + (0 : Int) * _) = 0
      rw [Int.zero_mul]
      rfl
    unfold noiseTick
    simp only [hpart, Option.bind_eq_bind, Option.bind_some, hadd]
    rfl

/-- The position of the wave channel: 32 samples in 16 bytes. -/
def WaveOK (c : Chan) : Prop := 0 ≤ c.val ∧ c.val ≤ 31 ∧ c.volume.toNat ≤ 3

/-- A nibble of the wave memory at a volume. -/
def waveLevel (audioMem : Buffer) (pos : Nat) (volume : UInt8) : Int :=
  let byte := audioMem.get (0x20 + pos / 2)
  let sample := if pos % 2 = 1 then byte &&& 0xF else byte >>> 4
  if volume = 0 then 0 else ((sample.toNat : Int) - 8) >>> (volume - 1).toNat

theorem waveSample_eq {audioMem : Buffer} (hsize : audioMem.size = AUDIO_MEM_SIZE) {pos : Nat} (hpos : pos < 32)
    {volume : UInt8} (hvol : volume.toNat ≤ 3) :
    waveSample audioMem pos volume = some (waveLevel audioMem pos volume) := by
  have hin : 0x20 + pos / 2 < audioMem.size := by
    rw [hsize]
    unfold AUDIO_MEM_SIZE
    omega
  have hshift : volume ≠ 0 → volume - 1 < 32 := fun hne => by
    have hpos : 1 ≤ volume.toNat := Nat.pos_of_ne_zero fun h => hne (UInt8.toNat_inj.1 h)
    have hone : (1 : UInt8) ≤ volume := UInt8.le_iff_toNat_le.2 hpos
    rw [UInt8.lt_iff_toNat_lt, UInt8.toNat_sub_of_le _ _ hone]
    show volume.toNat - 1 < 32
    omega
  unfold waveSample waveLevel
  simp only [Buffer.load_eq hin, Option.bind_eq_bind, Option.bind_some]
  by_cases hzero : volume = 0
  · rw [if_pos hzero, if_pos hzero]
    rfl
  · rw [if_neg hzero, if_neg hzero, if_pos (hshift hzero)]
    rfl

def waveStep (audioMem : Buffer) (c : Chan) : Chan :=
  let val := (c.val + 1) % 32
  { c with val := val, shape := c.shape.withSample (waveLevel audioMem val.toNat c.volume) }

theorem wave_index {val : Int} (hlow : 0 ≤ val) (hhigh : val ≤ 31) : (val % 4294967296).toNat = val.toNat := by
  rw [Int.emod_eq_of_lt hlow (by omega)]

theorem waveTick_ticks {audioMem : Buffer} (hsize : audioMem.size = AUDIO_MEM_SIZE) :
    Ticks (waveTick audioMem) WaveOK (waveStep audioMem) where
  counter x _ := rfl
  inc _ := rfl
  counter_keeps h _ := h
  keeps := by
    intro c h
    obtain ⟨-, -, hvol⟩ := h
    exact ⟨Int.emod_nonneg _ (by decide), by show (c.val + 1) % 32 ≤ 31; omega, hvol⟩
  body := by
    intro n h hprev hpos hsample
    have hpart := elapsedPart_eq hprev hpos
    have hval : cInt (n.chan.val + 1) = some (n.chan.val + 1) := if_pos (by obtain ⟨hlow, hhigh, -⟩ := h; omega)
    have hlow : 0 ≤ (n.chan.val + 1) % 32 := Int.emod_nonneg _ (by decide)
    have hhigh : (n.chan.val + 1) % 32 ≤ 31 := by omega
    have hindex : ((n.chan.val + 1) % 32).toNat < 32 := by omega
    have hnext := waveSample_eq hsize hindex h.2.2
    have hadd (x : Int) : wrapInt16 (n.sample + (0 : UInt32).toNat * x * AUDIO_STEP) = n.sample := by
      rw [hsample]
      show wrapInt16 (0 + (0 : Int) * _ * _) = 0
      rw [Int.zero_mul, Int.zero_mul]
      rfl
    unfold waveTick
    simp only [hval, hpart, wave_index hlow hhigh, hnext, Option.bind_eq_bind, Option.bind_some, hadd]
    rfl

end FoloGameboy

/-
The wave channel as a synthesizer. While nothing is written, the sample number `n` of the channel is
the nibble of the wave memory at the position that the frequency gives for the time `n`, over any
number of calls: nothing is lost where one call ends and the next begins, and the length counter
ends the note at the sample it was loaded for.
-/
import FoloGameboy.Apu.Registers

namespace FoloGameboy

/-! ## The voice, by time -/

/-- What a sample adds to the phase of the wave channel. -/
def waveInc (freq : UInt16) : Nat := 1048576 / (2048 - freq.toNat) * 105 * 2

def wavePhase (c : Chan) (n : Nat) : Nat := c.freqCounter.toNat + n * waveInc c.freq

/-- The position in the wave memory after `n` samples. -/
def wavePos (c : Chan) (n : Nat) : Nat := (c.val.toNat + Phase.fires NOTE_REF (wavePhase c n)) % 32

/-- The length counter has not run out after `n` samples. -/
def LengthLeft (c : Chan) (n : Nat) : Prop :=
  c.len.enabled = true → c.len.counter.toNat + n * c.len.inc.toNat ≤ NOTE_REF

instance (c : Chan) (n : Nat) : Decidable (LengthLeft c n) := inferInstanceAs (Decidable (_ → _))

/-- The sample number `n` of the wave channel from `a` on. -/
def waveAt (a : Apu) (n : Nat) : StereoSample :=
  if LengthLeft (a.chans WAVE_CHAN) (n + 1) then
    contribution WAVE_CHAN a (waveOut a.audioMem (wavePos (a.chans WAVE_CHAN) (n + 1)) (a.chans WAVE_CHAN).volume)
  else .silent

theorem LengthLeft.of_le {c : Chan} {n m : Nat} (h : LengthLeft c m) (hle : n ≤ m) : LengthLeft c n := fun hen => by
  have hm := h hen
  have hmul := Nat.mul_le_mul_right c.len.inc.toNat hle
  omega

theorem waveOut_congr {audioMem audioMem' : Buffer} (h : ∀ k, 0x20 ≤ k → audioMem'.get k = audioMem.get k) (pos : Nat)
    (volume : UInt8) : waveOut audioMem' pos volume = waveOut audioMem pos volume := by
  unfold waveOut waveLevel
  rw [h _ (Nat.le_add_right _ _)]

/-! ## One sample -/

/-- `b` is `a` after `n` samples, as far as the wave channel goes. -/
structure WaveFrom (a b : Apu) (n : Nat) : Prop where
  ok : ApuOK b
  volL : b.volL = a.volL
  volR : b.volR = a.volR
  onLeft : (b.chans 2).onLeft = (a.chans 2).onLeft
  onRight : (b.chans 2).onRight = (a.chans 2).onRight
  powered : (b.chans 2).powered = (a.chans 2).powered
  volume : (b.chans 2).volume = (a.chans 2).volume
  freq : (b.chans 2).freq = (a.chans 2).freq
  lenEnabled : (b.chans 2).len.enabled = (a.chans 2).len.enabled
  lenInc : (b.chans 2).len.inc = (a.chans 2).len.inc
  mem (k : Nat) (h : 0x20 ≤ k) : b.audioMem.get k = a.audioMem.get k
  enabled : (b.chans 2).enabled = decide (LengthLeft (a.chans 2) n)
  lenCounter (h : LengthLeft (a.chans 2) n) (hen : (a.chans 2).len.enabled = true) :
    (b.chans 2).len.counter.toNat = (a.chans 2).len.counter.toNat + n * (a.chans 2).len.inc.toNat
  phase (h : LengthLeft (a.chans 2) n) :
    (b.chans 2).freqCounter.toNat = Phase.rest NOTE_REF (wavePhase (a.chans 2) n)
  pos (h : LengthLeft (a.chans 2) n) : (b.chans 2).val.toNat = wavePos (a.chans 2) n

variable {a b : Apu} {n : Nat}

theorem WaveFrom.start (h : ApuOK a) (hen : (a.chans 2).enabled = true) : WaveFrom a a 0 := by
  have hc := h.chans 2
  have hphase : wavePhase (a.chans 2) 0 = (a.chans 2).freqCounter.toNat := by
    unfold wavePhase
    rw [Nat.zero_mul, Nat.add_zero]
  have hval := hc.val
  unfold LevelOK at hval
  rw [if_pos rfl] at hval
  have hleft : LengthLeft (a.chans 2) 0 := fun _ => by
    have hcounter := hc.len.counter
    omega
  exact {
    ok := h, volL := rfl, volR := rfl, onLeft := rfl, onRight := rfl, powered := rfl, volume := rfl, freq := rfl
    lenEnabled := rfl, lenInc := rfl, mem := fun _ _ => rfl
    enabled := by rw [hen, decide_eq_true hleft]
    lenCounter := fun _ _ => by omega
    phase := fun _ => by rw [hphase, Phase.rest_of_le hc.freqCounter]
    pos := fun _ => by
      unfold wavePos
      rw [hphase, Phase.fires_of_le hc.freqCounter]
      omega }

/-- The other channels leave the wave channel alone. -/
theorem WaveFrom.only (h : WaveFrom a b n) {b' : Apu} {i : Fin 4}
    (honly : OnlyChan i b b') (hi : 2 ≠ i) (hok : ApuOK b') :
    WaveFrom a b' n := by
  have hc := honly.others 2 hi
  exact { h with
    ok := hok, volL := honly.volL.trans h.volL, volR := honly.volR.trans h.volR
    onLeft := by rw [hc]; exact h.onLeft
    onRight := by rw [hc]; exact h.onRight
    powered := by rw [hc]; exact h.powered
    volume := by rw [hc]; exact h.volume
    freq := by rw [hc]; exact h.freq
    lenEnabled := by rw [hc]; exact h.lenEnabled
    lenInc := by rw [hc]; exact h.lenInc
    mem := fun k hk => (honly.wave k hk).trans (h.mem k hk)
    enabled := by rw [hc]; exact h.enabled
    lenCounter := by rw [hc]; exact h.lenCounter
    phase := by rw [hc]; exact h.phase
    pos := by rw [hc]; exact h.pos }

/-- Once off, the channel stays off. -/
theorem WaveFrom.later (h : WaveFrom a b n) (hoff : ¬ LengthLeft (a.chans 2) n) {m : Nat} (hle : n ≤ m) :
    WaveFrom a b m := by
  have hoff' : ¬ LengthLeft (a.chans 2) m := fun h => hoff (h.of_le hle)
  exact { h with
    enabled := by rw [h.enabled, decide_eq_false hoff, decide_eq_false hoff']
    lenCounter := fun h => absurd h hoff'
    phase := fun h => absurd h hoff'
    pos := fun h => absurd h hoff' }

/-- The steps of a note change the position, the loaded sample and the phase only. -/
theorem wavePlayed_only (audioMem : Buffer) (c : Chan) :
    wavePlayed audioMem c = { c with
      val := (wavePlayed audioMem c).val, shape := (wavePlayed audioMem c).shape
      freqCounter := (wavePlayed audioMem c).freqCounter } := by
  have hstep {c' : Chan} (h : c' = { c with val := c'.val, shape := c'.shape, freqCounter := c'.freqCounter }) :
      waveStep audioMem c' = { c with
        val := (waveStep audioMem c').val, shape := (waveStep audioMem c').shape
        freqCounter := (waveStep audioMem c').freqCounter } := by
    rw [h]
    rfl
  have hcounter {c' : Chan} {x : UInt32}
      (h : c' = { c with val := c'.val, shape := c'.shape, freqCounter := c'.freqCounter })
      (_ : x.toNat ≤ NOTE_REF) : c'.withCounter x = { c with
        val := (c'.withCounter x).val, shape := (c'.withCounter x).shape,
          freqCounter := (c'.withCounter x).freqCounter } := by
    rw [h]
    rfl
  exact playedChan_keeps
    (P := fun c' => c' = { c with val := c'.val, shape := c'.shape, freqCounter := c'.freqCounter })
    hstep hcounter rfl

theorem iterate_waveStep_val (audioMem : Buffer) {c : Chan} (hlow : 0 ≤ c.val) (hhigh : c.val ≤ 31) :
    ∀ k : Nat, ((waveStep audioMem)^[k] c).val = (c.val + k) % 32
  | 0 => by
    show c.val = (c.val + 0) % 32
    omega
  | k + 1 => by
    rw [Function.iterate_succ_apply']
    show (((waveStep audioMem)^[k] c).val + 1) % 32 = (c.val + (k + 1 : Nat)) % 32
    rw [iterate_waveStep_val audioMem hlow hhigh k]
    omega

theorem wavePlayed_val (audioMem : Buffer) {c : Chan} (hlow : 0 ≤ c.val) (hhigh : c.val ≤ 31) :
    (wavePlayed audioMem c).val.toNat =
      (c.val.toNat + Phase.fires NOTE_REF (c.freqCounter.toNat + c.freqInc.toNat)) % 32 := by
  show ((waveStep audioMem)^[Phase.fires NOTE_REF (c.freqCounter.toNat + c.freqInc.toNat)]
      (loadWave audioMem c)).val.toNat = _
  rw [iterate_waveStep_val audioMem (c := loadWave audioMem c) hlow hhigh]
  show ((c.val + _) % 32).toNat = _
  omega

theorem wavePlayed_counter (audioMem : Buffer) (c : Chan) :
    (wavePlayed audioMem c).freqCounter.toNat = Phase.rest NOTE_REF (c.freqCounter.toNat + c.freqInc.toNat) := by
  have hrest := Phase.rest_le ref_pos (c.freqCounter.toNat + c.freqInc.toNat)
  exact UInt32.toNat_ofNat_of_lt' (Nat.lt_of_le_of_lt hrest (by decide))

theorem lenStep_only (c : Chan) : lenStep c = { c with enabled := (lenStep c).enabled, len := (lenStep c).len } := by
  unfold lenStep
  split
  · split <;> rfl
  · rfl

theorem lenStep_flags (c : Chan) : (lenStep c).len.enabled = c.len.enabled ∧ (lenStep c).len.inc = c.len.inc := by
  unfold lenStep
  split
  · split <;> exact ⟨rfl, rfl⟩
  · exact ⟨rfl, rfl⟩

/-- The length counter of a channel that is on after `n` samples. -/
theorem lenStep_left {c c₀ : Chan} (hlen : Counting c.len.counter c.len.inc 26880) (hen : c.enabled = true)
    (hflag : c.len.enabled = c₀.len.enabled) (hinc : c.len.inc = c₀.len.inc)
    (hcounter : c₀.len.enabled = true → c.len.counter.toNat = c₀.len.counter.toNat + n * c₀.len.inc.toNat) :
    (lenStep c).enabled = decide (LengthLeft c₀ (n + 1)) ∧ (LengthLeft c₀ (n + 1) → c₀.len.enabled = true →
      (lenStep c).len.counter.toNat = c₀.len.counter.toNat + (n + 1) * c₀.len.inc.toNat) := by
  unfold lenStep LengthLeft
  by_cases hon : c₀.len.enabled = true
  · have hsum : c.len.counter.toNat + c.len.inc.toNat = c₀.len.counter.toNat + (n + 1) * c₀.len.inc.toNat := by
      rw [hcounter hon, hinc, Nat.add_mul, Nat.one_mul, Nat.add_assoc]
    rw [hflag, if_pos hon]
    by_cases hlt : FREQ_INC_REF < c.len.counter + c.len.inc
    · rw [if_pos hlt]
      rw [hlen.lt_iff (by decide), hsum] at hlt
      have hnot : ¬ (c₀.len.enabled = true → c₀.len.counter.toNat + (n + 1) * c₀.len.inc.toNat ≤ NOTE_REF) :=
        fun h => absurd (h hon) (by omega)
      exact ⟨(decide_eq_false hnot).symm, fun h => absurd h hnot⟩
    · rw [if_neg hlt]
      have hle := hlt
      rw [hlen.lt_iff (by decide), hsum] at hle
      have hyes : c₀.len.enabled = true → c₀.len.counter.toNat + (n + 1) * c₀.len.inc.toNat ≤ NOTE_REF :=
        fun _ => by omega
      refine ⟨hen.trans (decide_eq_true hyes).symm, fun _ _ => ?_⟩
      show (c.len.counter + c.len.inc).toNat = _
      rw [hlen.add_toNat (by decide), hsum]
  · have hyes : c₀.len.enabled = true → c₀.len.counter.toNat + (n + 1) * c₀.len.inc.toNat ≤ NOTE_REF :=
      fun h => absurd h hon
    rw [hflag, if_neg hon]
    exact ⟨hen.trans (decide_eq_true hyes).symm, fun _ h => absurd h hon⟩

theorem WaveFrom.left (h : WaveFrom a b n) (hleft : LengthLeft (a.chans 2) n) :
    (lenStep (b.chans 2)).enabled = decide (LengthLeft (a.chans 2) (n + 1)) ∧
      (LengthLeft (a.chans 2) (n + 1) → (a.chans 2).len.enabled = true → (lenStep (b.chans 2)).len.counter.toNat =
        (a.chans 2).len.counter.toNat + (n + 1) * (a.chans 2).len.inc.toNat) :=
  lenStep_left (h.ok.chans 2).len (h.enabled.trans (decide_eq_true hleft)) h.lenEnabled h.lenInc (h.lenCounter hleft)

theorem WaveFrom.position (h : WaveFrom a b n) : 0 ≤ (b.chans 2).val ∧ (b.chans 2).val ≤ 31 := by
  have hval := (h.ok.chans 2).val
  unfold LevelOK at hval
  rwa [if_pos rfl] at hval

/-- What is played after `n` samples is the sample number `n`. -/
theorem wavePass_from (h : WaveFrom a b n) (hleft : LengthLeft (a.chans 2) n)
    (hinc : (b.chans 2).freqInc.toNat = waveInc (a.chans 2).freq) :
    ∃ b', WaveFrom a b' (n + 1) ∧ (b'.chans 2).freqInc = (b.chans 2).freqInc ∧
      wavePass b = some (if LengthLeft (a.chans 2) (n + 1) then
        .sample (waveOut a.audioMem (wavePos (a.chans 2) (n + 1)) (a.chans 2).volume) else .stop, b') := by
  have hmax : (b.chans 2).freqInc.toNat ≤ NOTE_MAX := by
    have hle := noteInc_le (a.chans 2).freq.toNat
    rw [hinc]
    unfold waveInc NOTE_MAX
    omega
  have hplaying : Playing 2 b.volL b.volR b := ⟨h.ok, rfl, rfl, hmax⟩
  obtain ⟨b₁, -, hc₁, honly, hpass⟩ := wavePass_eq hplaying
  have h₁ := hplaying.len honly hc₁
  obtain ⟨hen, hcounter⟩ := h.left hleft
  obtain ⟨hflag, hlenInc⟩ := lenStep_flags (b.chans 2)
  have hsame := lenStep_only (b.chans 2)
  rw [hpass, hc₁, hen]
  have hmem (k : Nat) (hk : 0x20 ≤ k) : b₁.audioMem.get k = a.audioMem.get k := (honly.wave k hk).trans (h.mem k hk)
  -- the length counter runs out with this sample, or the channel plays on
  by_cases hnext : LengthLeft (a.chans 2) (n + 1)
  · rw [if_pos (decide_eq_true hnext), if_pos hnext]
    obtain ⟨hlow, hhigh⟩ := h.position
    have hval : (lenStep (b.chans 2)).val = (b.chans 2).val := by rw [hsame]
    have hphase₀ : (lenStep (b.chans 2)).freqCounter = (b.chans 2).freqCounter := by rw [hsame]
    have hstep : (lenStep (b.chans 2)).freqInc = (b.chans 2).freqInc := by rw [hsame]
    have hsum : (lenStep (b.chans 2)).freqCounter.toNat + (lenStep (b.chans 2)).freqInc.toNat =
        Phase.rest NOTE_REF (wavePhase (a.chans 2) n) + waveInc (a.chans 2).freq := by
      rw [hphase₀, hstep, hinc, h.phase hleft]
    have hadd : wavePhase (a.chans 2) n + waveInc (a.chans 2).freq = wavePhase (a.chans 2) (n + 1) := by
      unfold wavePhase
      rw [Nat.add_mul, Nat.one_mul, Nat.add_assoc]
    -- the position moves by as many steps as the phase has passed
    have hpos : (wavePlayed b₁.audioMem (lenStep (b.chans 2))).val.toNat = wavePos (a.chans 2) (n + 1) := by
      have hfires := Phase.fires_rest_add ref_pos (wavePhase (a.chans 2) n) (waveInc (a.chans 2).freq)
      rw [hadd] at hfires
      rw [wavePlayed_val _ (by rw [hval]; exact hlow) (by rw [hval]; exact hhigh), hsum, hval, h.pos hleft]
      unfold wavePos
      omega
    have hrest : (wavePlayed b₁.audioMem (lenStep (b.chans 2))).freqCounter.toNat =
        Phase.rest NOTE_REF (wavePhase (a.chans 2) (n + 1)) := by
      rw [wavePlayed_counter, hsum, Phase.rest_rest_add ref_pos, hadd]
    have hplayed := wavePlayed_only b₁.audioMem (lenStep (b.chans 2))
    have hnote : NoteOK 2 (lenStep (b.chans 2)) := by
      rw [← hc₁]
      exact ⟨h₁.ok.chans 2, h₁.inc⟩
    have hwave := wavePlayed_note b₁.audioMem hnote
    have hvol : (wavePlayed b₁.audioMem (lenStep (b.chans 2))).volume = (a.chans 2).volume := by
      rw [hplayed]
      show (lenStep (b.chans 2)).volume = _
      rw [hsame]
      exact h.volume
    have hset := setChan_self 2 (wavePlayed b₁.audioMem (lenStep (b.chans 2))) b₁
    refine ⟨b₁.setChan 2 (wavePlayed b₁.audioMem (lenStep (b.chans 2))), ?_, ?_, ?_⟩
    · exact {
        ok := h₁.ok.setChan hwave.note.ok
        volL := honly.volL.trans h.volL
        volR := honly.volR.trans h.volR
        onLeft := by rw [hset, hplayed]; show (lenStep (b.chans 2)).onLeft = _; rw [hsame]; exact h.onLeft
        onRight := by rw [hset, hplayed]; show (lenStep (b.chans 2)).onRight = _; rw [hsame]; exact h.onRight
        powered := by rw [hset, hplayed]; show (lenStep (b.chans 2)).powered = _; rw [hsame]; exact h.powered
        volume := by rw [hset]; exact hvol
        freq := by rw [hset, hplayed]; show (lenStep (b.chans 2)).freq = _; rw [hsame]; exact h.freq
        lenEnabled := by rw [hset, hplayed]; exact hflag.trans h.lenEnabled
        lenInc := by rw [hset, hplayed]; exact hlenInc.trans h.lenInc
        mem := hmem
        enabled := by rw [hset, hplayed]; exact hen
        lenCounter := by rw [hset, hplayed]; exact hcounter
        phase := fun _ => by rw [hset]; exact hrest
        pos := fun _ => by rw [hset]; exact hpos }
    · rw [hset, hplayed]
      exact hstep
    · rw [waveOut_congr hmem, hpos, hvol]
  · rw [if_neg (by rw [decide_eq_false hnext]; exact Bool.false_ne_true), if_neg hnext]
    refine ⟨b₁, ?_, ?_, rfl⟩
    · exact {
        ok := h₁.ok
        volL := honly.volL.trans h.volL
        volR := honly.volR.trans h.volR
        onLeft := by rw [hc₁, hsame]; exact h.onLeft
        onRight := by rw [hc₁, hsame]; exact h.onRight
        powered := by rw [hc₁, hsame]; exact h.powered
        volume := by rw [hc₁, hsame]; exact h.volume
        freq := by rw [hc₁, hsame]; exact h.freq
        lenEnabled := by rw [hc₁]; exact hflag.trans h.lenEnabled
        lenInc := by rw [hc₁]; exact hlenInc.trans h.lenInc
        mem := hmem
        enabled := by rw [hc₁]; exact hen
        lenCounter := fun h => absurd h hnext
        phase := fun h => absurd h hnext
        pos := fun h => absurd h hnext }
    · rw [hc₁, hsame]

/-! ## One call -/

theorem contribution_from (h : WaveFrom a b n) (x : Int) : contribution 2 b x = contribution 2 a x := by
  unfold contribution
  rw [h.onLeft, h.onRight, h.volL, h.volR]

/-- The sample numbers from `n` on. -/
def waveVoice (a : Apu) (n count : Nat) : List StereoSample := (List.range count).map fun j => waveAt a (n + j)

theorem waveVoice_succ (a : Apu) (n count : Nat) :
    waveVoice a n (count + 1) = waveAt a n :: waveVoice a (n + 1) count := by
  unfold waveVoice
  rw [List.range_succ_eq_map, List.map_cons, List.map_map]
  refine congrArg (waveAt a n :: ·) (List.map_congr_left fun j _ => ?_)
  show waveAt a (n + (j + 1)) = waveAt a (n + 1 + j)
  rw [Nat.add_comm j 1, Nat.add_assoc]

theorem waveVoice_off : ∀ (count : Nat) {n : Nat}, ¬ LengthLeft (a.chans 2) (n + 1) →
    waveVoice a n count = List.replicate count .silent
  | 0, _, _ => rfl
  | count + 1, n, hoff => by
    have hoff' : ¬ LengthLeft (a.chans 2) (n + 1 + 1) := fun h => hoff (h.of_le (Nat.le_succ _))
    have hsilent : waveAt a n = .silent := if_neg hoff
    rw [waveVoice_succ, hsilent, waveVoice_off count hoff', List.replicate_succ]

theorem eachSample_wave : ∀ (count : Nat) {n : Nat} {b : Apu}, WaveFrom a b n → LengthLeft (a.chans 2) n →
    (b.chans 2).freqInc.toNat = waveInc (a.chans 2).freq →
    ∃ b', eachSample 2 wavePass (List.replicate count .silent) b = some (waveVoice a n count, b') ∧
      WaveFrom a b' (n + count)
  | 0, _, b, h, _, _ => ⟨b, rfl, h⟩
  | count + 1, n, b, h, hleft, hinc => by
    obtain ⟨b', h', hinc', hpass⟩ := wavePass_from h hleft hinc
    rw [List.replicate_succ, waveVoice_succ]
    unfold eachSample
    rw [hpass]
    by_cases hnext : LengthLeft (a.chans 2) (n + 1)
    · obtain ⟨b'', hrun, h''⟩ := eachSample_wave count h' hnext (by rw [hinc']; exact hinc)
      have hvol : (a.chans 2).volume.toNat ≤ 3 := by
        rw [← h.volume]
        exact (h.ok.chans 2).volume
      have hmix := mixSample_silent h'.ok 2 waveLoudness (waveOut_bounds a.audioMem (wavePos (a.chans 2) (n + 1)) hvol)
      have hat : contribution 2 b' (waveOut a.audioMem (wavePos (a.chans 2) (n + 1)) (a.chans 2).volume)
          = waveAt a n := by
        rw [contribution_from h']
        exact (if_pos hnext).symm
      refine ⟨b'', ?_, ?_⟩
      · rw [if_pos hnext]
        simp only [Option.bind_eq_bind, Option.bind_some, hmix, hrun, hat]
        rfl
      · rw [Nat.add_assoc, Nat.add_comm 1 count] at h''
        exact h''
    · have hsilent : waveAt a n = .silent := if_neg hnext
      refine ⟨b', ?_, h'.later hnext (by omega)⟩
      rw [if_neg hnext, hsilent, waveVoice_off count fun h => hnext (h.of_le (Nat.le_succ _))]
      rfl

/-- The wave channel's part of a call, `n` samples after `a`. -/
theorem updateWave_from (h : WaveFrom a b n) (hpow : (a.chans 2).powered = true) (hvol : (a.chans 2).volume ≠ 0) :
    ∃ b', updateWave clearStream b = some (waveVoice a n AUDIO_SAMPLES, b') ∧ WaveFrom a b' (n + AUDIO_SAMPLES) := by
  unfold updateWave
  dsimp only
  by_cases hleft : LengthLeft (a.chans 2) n
  · have hon : (b.chans 2).powered = true ∧ (b.chans 2).enabled = true ∧ (b.chans 2).volume ≠ 0 := by
      rw [h.powered, h.enabled, h.volume]
      exact ⟨hpow, decide_eq_true hleft, hvol⟩
    have hok := h.ok.chans 2
    obtain ⟨inc, hset, hval⟩ := setNoteFreq_eq (hok.freq fun h => absurd h (by decide))
    have hmax := noteInc_le (b.chans 2).freq.toNat
    have hinc : (inc * 2).toNat = waveInc (a.chans 2).freq := by
      rw [UInt32.toNat_mul, hval, h.freq]
      rw [h.freq] at hmax
      show _ * 2 % 4294967296 = _
      exact Nat.mod_eq_of_lt (by omega)
    have hstart : WaveFrom a (b.setChan 2 { b.chans 2 with freqInc := inc * 2 }) n := by
      have hself := setChan_self 2 { b.chans 2 with freqInc := inc * 2 } b
      exact { h with
        ok := h.ok.setChan { hok with }
        onLeft := by rw [hself]; exact h.onLeft
        onRight := by rw [hself]; exact h.onRight
        powered := by rw [hself]; exact h.powered
        volume := by rw [hself]; exact h.volume
        freq := by rw [hself]; exact h.freq
        lenEnabled := by rw [hself]; exact h.lenEnabled
        lenInc := by rw [hself]; exact h.lenInc
        enabled := by rw [hself]; exact h.enabled
        lenCounter := by rw [hself]; exact h.lenCounter
        phase := by rw [hself]; exact h.phase
        pos := by rw [hself]; exact h.pos }
    rw [if_pos hon, hset]
    exact eachSample_wave AUDIO_SAMPLES hstart hleft (by rw [setChan_self]; exact hinc)
  · have hoff : ¬ ((b.chans 2).powered = true ∧ (b.chans 2).enabled = true ∧ (b.chans 2).volume ≠ 0) := by
      rintro ⟨-, hen, -⟩
      rw [h.enabled, decide_eq_false hleft] at hen
      exact absurd hen Bool.false_ne_true
    rw [if_neg hoff, waveVoice_off AUDIO_SAMPLES fun h => hleft (h.of_le (Nat.le_succ n))]
    exact ⟨b, rfl, h.later hleft (Nat.le_add_right _ _)⟩

/-- A call plays the next samples of the wave channel, among the other voices. -/
theorem callback_from (h : WaveFrom a b n) (hpow : (a.chans 2).powered = true) (hvol : (a.chans 2).volume ≠ 0) :
    ∃ v₀ v₁ v₃ b', Voices b b' v₀ v₁ (waveVoice a n AUDIO_SAMPLES) v₃ ∧
      minigbApuAudioCallback b = some ((voiceSum v₀ v₁ (waveVoice a n AUDIO_SAMPLES) v₃).map StereoSample.wrap, b') ∧
      WaveFrom a b' (n + AUDIO_SAMPLES) := by
  obtain ⟨v₀, v₁, v₂, v₃, b₀, b₁, b₂, b₃, h₀, h₁, h₂, h₃, hcall⟩ := callback_sounds h.ok
  have hfrom := (h.only h₀.only (by decide) h₀.ok).only h₁.only (by decide) h₁.ok
  obtain ⟨b', hwave, hnext⟩ := updateWave_from hfrom hpow hvol
  obtain ⟨rfl, rfl⟩ := Prod.mk.inj (Option.some.inj ((h₂.alone h₁.ok).symm.trans hwave))
  exact ⟨v₀, v₁, v₃, b₃, ⟨b₀, b₁, b₂, h₀.alone h.ok, h₁.alone h₀.ok, h₂.alone h₁.ok, h₃.alone h₂.ok⟩, hcall,
    hnext.only h₃.only (by decide) h₃.ok⟩

/-! ## Any number of calls -/

/-- The chip after a number of calls, with nothing written in between. -/
def callbacks : Nat → Apu → Option Apu
  | 0, a => some a
  | m + 1, a => (callbacks m a).bind fun b => (minigbApuAudioCallback b).map Prod.snd

theorem callbacks_from (hok : ApuOK a) (hen : (a.chans 2).enabled = true) (hpow : (a.chans 2).powered = true)
    (hvol : (a.chans 2).volume ≠ 0) : ∀ m : Nat, ∃ b, callbacks m a = some b ∧ WaveFrom a b (m * AUDIO_SAMPLES)
  | 0 => ⟨a, rfl, by rw [Nat.zero_mul]; exact .start hok hen⟩
  | m + 1 => by
    obtain ⟨b, hrun, h⟩ := callbacks_from hok hen hpow hvol m
    obtain ⟨v₀, v₁, v₃, b', -, hcall, h'⟩ := callback_from h hpow hvol
    refine ⟨b', ?_, by rw [Nat.add_mul, Nat.one_mul]; exact h'⟩
    unfold callbacks
    rw [hrun, Option.bind_some, hcall]
    rfl

/-- A wave note that nothing disturbs: call after call the wave channel plays the nibbles of its memory at
the exact positions of its frequency, until its length has run out. -/
theorem wave_note_exact {ops : List ApuOp} (hops : ∀ op ∈ ops, op.InRange) {a : Apu} (h : runApu ops = some a)
    (hen : (a.chans 2).enabled = true) (hpow : (a.chans 2).powered = true) (hvol : (a.chans 2).volume ≠ 0) (m : Nat) :
    ∃ b v₀ v₁ v₃ b', callbacks m a = some b ∧
      Voices b b' v₀ v₁ ((List.range AUDIO_SAMPLES).map fun j => waveAt a (m * AUDIO_SAMPLES + j)) v₃ ∧
      minigbApuAudioCallback b = some ((voiceSum v₀ v₁
        ((List.range AUDIO_SAMPLES).map fun j => waveAt a (m * AUDIO_SAMPLES + j)) v₃).map StereoSample.wrap, b') := by
  have hok := (runApu_defined hops).of_some h
  obtain ⟨b, hrun, hfrom⟩ := callbacks_from hok hen hpow hvol m
  obtain ⟨v₀, v₁, v₃, b', hvoices, hcall, -⟩ := callback_from hfrom hpow hvol
  exact ⟨b, v₀, v₁, v₃, b', hrun, hvoices, hcall⟩

/-- The wave channel at half volume with a length of 64 / 256 seconds. -/
def waveNoteOps : List ApuOp := [.write 0xFF1A 0x80, .write 0xFF1B 0xC0, .write 0xFF1C 0x40, .write 0xFF1E 0xC7]

theorem waveNoteOps_inRange : ∀ op ∈ waveNoteOps, op.InRange := by simp [waveNoteOps, ApuOp.InRange, SoundAddr]

theorem waveNoteOps_on : (runApu waveNoteOps).map (fun a =>
    ((a.chans 2).enabled, (a.chans 2).powered, (a.chans 2).volume)) = some (true, true, 2) := by decide +kernel

/-- Its fourth call. -/
theorem wave_note_exact_fourth : ∃ a, runApu waveNoteOps = some a ∧ ∃ b v₀ v₁ v₃ b', callbacks 3 a = some b ∧
    Voices b b' v₀ v₁ ((List.range AUDIO_SAMPLES).map fun j => waveAt a (3 * AUDIO_SAMPLES + j)) v₃ ∧
    minigbApuAudioCallback b = some ((voiceSum v₀ v₁
      ((List.range AUDIO_SAMPLES).map fun j => waveAt a (3 * AUDIO_SAMPLES + j)) v₃).map StereoSample.wrap, b') := by
  obtain ⟨a, hrun, hon⟩ := Option.map_eq_some_iff.1 waveNoteOps_on
  obtain ⟨hen, hon⟩ := Prod.mk.inj hon
  obtain ⟨hpow, hvol⟩ := Prod.mk.inj hon
  have hne : (a.chans 2).volume ≠ 0 := by
    rw [hvol]
    decide
  exact ⟨a, hrun, wave_note_exact waveNoteOps_inRange hrun hen hpow hne 3⟩

end FoloGameboy

/-
One call of the sound chip. Each channel plays a voice that does not depend on what the others have
left in the buffer; the buffer holds the sum of the voices, in 16 bits. No step of a channel faults,
and the loudness of its voice is bounded by the master volumes.
-/
import FoloGameboy.Apu.Chan

namespace FoloGameboy

/-! ## Samples -/

def IsInt16 (x : Int) : Prop := -32768 ≤ x ∧ x ≤ 32767

theorem wrapInt16_isInt16 (x : Int) : IsInt16 (wrapInt16 x) := by
  have hle : -((65536 : Nat) : Int) / 2 ≤ wrapInt16 x := Int.le_bmod (by decide)
  have hlt : wrapInt16 x < (((65536 : Nat) : Int) + 1) / 2 := Int.bmod_lt (by decide)
  unfold IsInt16
  omega

theorem wrapInt16_eq {x : Int} (h : IsInt16 x) : wrapInt16 x = x := by
  obtain ⟨hlow, hhigh⟩ := h
  unfold wrapInt16
  rw [Int.bmod_eq_of_le] <;> omega

namespace StereoSample

def silent : StereoSample := ⟨0, 0⟩

/-- What a channel adds to its samples. -/
def add (out voice : StereoSample) : StereoSample :=
  ⟨wrapInt16 (out.left + voice.left), wrapInt16 (out.right + voice.right)⟩

def IsInt16 (s : StereoSample) : Prop := FoloGameboy.IsInt16 s.left ∧ FoloGameboy.IsInt16 s.right

/-- Between `low` and `high` times the master volumes. -/
def Within (low high : Int) (volL volR : Int) (s : StereoSample) : Prop :=
  (low * volL ≤ s.left ∧ s.left ≤ high * volL) ∧ low * volR ≤ s.right ∧ s.right ≤ high * volR

end StereoSample

/-- Samples of a channel before the volumes are applied. -/
structure Loudness where
  low : Int
  high : Int
  low_le : low ≤ 0
  high_ge : 0 ≤ high
  bound : -2046 ≤ low ∧ high ≤ 2046

/-- A factor of 0 or 1 keeps a bound. -/
theorem switch_bound {low high x : Int} {on : UInt8} (hon : on.toNat ≤ 1) (hlow : low ≤ 0) (hhigh : 0 ≤ high)
    (hx : low ≤ x ∧ x ≤ high) : low ≤ x * on.toNat ∧ x * on.toNat ≤ high := by
  rcases Nat.le_one_iff_eq_zero_or_eq_one.1 hon with h | h <;> rw [h]
  · exact ⟨by simpa using hlow, by simpa using hhigh⟩
  · simpa using hx

theorem addSample_eq (l : Loudness) {out x vol : Int} {on : UInt8} (hout : IsInt16 out) (hx : l.low ≤ x ∧ x ≤ l.high)
    (hon : on.toNat ≤ 1) (hvol : 0 ≤ vol ∧ vol ≤ 7) :
    addSample out x on vol = some (wrapInt16 (out + x * on.toNat * vol)) ∧
      l.low * vol ≤ x * on.toNat * vol ∧ x * on.toNat * vol ≤ l.high * vol := by
  obtain ⟨houtlow, houthigh⟩ := hout
  obtain ⟨hlow, hhigh⟩ := switch_bound hon l.low_le l.high_ge hx
  have hmlow := Int.mul_le_mul_of_nonneg_right hlow hvol.1
  have hmhigh := Int.mul_le_mul_of_nonneg_right hhigh hvol.1
  obtain ⟨hblow, hbhigh⟩ := l.bound
  have hfar : -14322 ≤ l.low * vol ∧ l.high * vol ≤ 14322 := by
    obtain ⟨hvol0, hvol7⟩ := hvol
    have h₁ := Int.mul_le_mul_of_nonneg_right hblow hvol0
    have h₂ := Int.mul_le_mul_of_nonneg_right hbhigh hvol0
    omega
  have hint {y : Int} (hy : -50000 ≤ y ∧ y ≤ 50000) : cInt y = some y := if_pos ⟨by omega, by omega⟩
  refine ⟨?_, hmlow, hmhigh⟩
  unfold addSample
  rw [hint ⟨by omega, by omega⟩]
  simp only [Option.bind_eq_bind, Option.bind_some]
  rw [hint ⟨by omega, by omega⟩]
  simp only [Option.bind_some]
  rw [hint ⟨by omega, by omega⟩]
  rfl

/-- What a channel contributes when its sample is `x`. -/
def contribution (i : Fin 4) (a : Apu) (x : Int) : StereoSample :=
  ⟨x * (a.chans i).onLeft.toNat * a.volL, x * (a.chans i).onRight.toNat * a.volR⟩

theorem mixSample_eq {a : Apu} (h : ApuOK a) (i : Fin 4) (l : Loudness) {x : Int} (hx : l.low ≤ x ∧ x ≤ l.high)
    {out : StereoSample} (hout : out.IsInt16) :
    mixSample i a x out = some (out.add (contribution i a x)) ∧
      (contribution i a x).Within l.low l.high a.volL a.volR := by
  obtain ⟨hleft, hwleft⟩ := addSample_eq l hout.1 hx (h.chans i).onLeft h.volL
  obtain ⟨hright, hwright⟩ := addSample_eq l hout.2 hx (h.chans i).onRight h.volR
  refine ⟨?_, hwleft, hwright⟩
  unfold mixSample
  rw [hleft]
  simp only [Option.bind_eq_bind, Option.bind_some, hright]
  rfl

/-! ## The loop over the samples -/

/-- The chip while channel `i` plays at the given master volumes. -/
structure Playing (i : Fin 4) (volL volR : Int) (a : Apu) : Prop where
  ok : ApuOK a
  volL : a.volL = volL
  volR : a.volR = volR
  inc : (a.chans i).freqInc.toNat ≤ NOTE_MAX

def Pass.Within (l : Loudness) : Pass → Prop
  | .sample x => l.low ≤ x ∧ x ≤ l.high
  | _ => True

/-- What a loop over `n` samples does: it adds the voice `v` to whatever the buffer holds. -/
def AddsVoice (run : List StereoSample → Apu → Option (List StereoSample × Apu)) (n : Nat) (a a' : Apu)
    (v : List StereoSample) : Prop :=
  ∀ out : List StereoSample, out.length = n → (∀ s ∈ out, s.IsInt16) →
    run out a = some (List.zipWith StereoSample.add out v, a')

section
variable {i : Fin 4} {volL volR : Int} {pass : Apu → Option (Pass × Apu)}

theorem within_silent (l : Loudness) (h : 0 ≤ volL) (h' : 0 ≤ volR) :
    StereoSample.silent.Within l.low l.high volL volR :=
  ⟨⟨Int.mul_nonpos_of_nonpos_of_nonneg l.low_le h, Int.mul_nonneg l.high_ge h⟩,
    Int.mul_nonpos_of_nonpos_of_nonneg l.low_le h', Int.mul_nonneg l.high_ge h'⟩

theorem add_silent {s : StereoSample} (h : s.IsInt16) : s.add .silent = s := by
  unfold StereoSample.add StereoSample.silent
  dsimp only
  rw [Int.add_zero, Int.add_zero, wrapInt16_eq h.1, wrapInt16_eq h.2]

theorem zipWith_silent : ∀ {out : List StereoSample}, (∀ s ∈ out, s.IsInt16) →
    List.zipWith StereoSample.add out (List.replicate out.length .silent) = out
  | [], _ => rfl
  | s :: out, h => by
    show s.add .silent :: List.zipWith StereoSample.add out (List.replicate out.length .silent) = s :: out
    rw [add_silent (h s List.mem_cons_self), zipWith_silent fun s hs => h s (List.mem_cons_of_mem _ hs)]

/-- What a pass of channel `i` does. -/
def Passes (i : Fin 4) (volL volR : Int) (l : Loudness) (pass : Apu → Option (Pass × Apu)) : Prop :=
  ∀ a, Playing i volL volR a → ∃ p a', pass a = some (p, a') ∧ Playing i volL volR a' ∧ p.Within l ∧ OnlyChan i a a'

theorem eachSample_adds {l : Loudness} (hpass : Passes i volL volR l pass) :
    ∀ (n : Nat) {a : Apu}, Playing i volL volR a → ∃ v a', v.length = n ∧ Playing i volL volR a' ∧
      (∀ s ∈ v, s.Within l.low l.high volL volR) ∧ OnlyChan i a a' ∧ AddsVoice (eachSample i pass) n a a' v
  | 0, a, h => by
    refine ⟨[], a, rfl, h, fun s hs => absurd hs List.not_mem_nil, .refl i a, fun out hlen _ => ?_⟩
    obtain rfl := List.length_eq_zero_iff.1 hlen
    rfl
  | n + 1, a, h => by
    obtain ⟨p, a₁, hp, h₁, hwithin, honly⟩ := hpass a h
    have hL : 0 ≤ volL := h.volL ▸ h.ok.volL.1
    have hR : 0 ≤ volR := h.volR ▸ h.ok.volR.1
    have hsilent := within_silent l hL hR
    cases p with
    | stop =>
      refine ⟨List.replicate (n + 1) .silent, a₁, List.length_replicate,
        h₁, fun s hs => ?_, honly, fun out hlen hin => ?_⟩
      · rw [List.eq_of_mem_replicate hs]
        exact hsilent
      · rw [← hlen, zipWith_silent hin]
        obtain ⟨s, out, rfl⟩ := List.exists_cons_of_length_eq_add_one hlen
        unfold eachSample
        rw [hp]
        rfl
    | skip =>
      obtain ⟨v, a', hlen, h', hv, honly', hadds⟩ := eachSample_adds hpass n h₁
      refine ⟨.silent :: v, a', congrArg (· + 1) hlen, h', ?_, honly.trans honly', fun out hout hin => ?_⟩
      · exact List.forall_mem_cons.2 ⟨hsilent, hv⟩
      · obtain ⟨s, out, rfl⟩ := List.exists_cons_of_length_eq_add_one hout
        obtain ⟨hs, hin⟩ := List.forall_mem_cons.1 hin
        unfold eachSample
        rw [hp]
        simp only [Option.bind_eq_bind, Option.bind_some, hadds out (Nat.succ.inj hout) hin]
        show some (s :: _, a') = some (s.add .silent :: _, a')
        rw [add_silent hs]
    | sample x =>
      obtain ⟨v, a', hlen, h', hv, honly', hadds⟩ := eachSample_adds hpass n h₁
      have hmix (s : StereoSample) (hs : s.IsInt16) := mixSample_eq h₁.ok i l hwithin hs
      refine ⟨contribution i a₁ x :: v, a', congrArg (· + 1) hlen, h', ?_, honly.trans honly', fun out hout hin => ?_⟩
      · refine List.forall_mem_cons.2 ⟨?_, hv⟩
        have hw := (hmix .silent ⟨⟨by decide, by decide⟩, by decide, by decide⟩).2
        rwa [h₁.volL, h₁.volR] at hw
      · obtain ⟨s, out, rfl⟩ := List.exists_cons_of_length_eq_add_one hout
        obtain ⟨hs, hin⟩ := List.forall_mem_cons.1 hin
        unfold eachSample
        rw [hp]
        simp only [Option.bind_eq_bind, Option.bind_some, (hmix s hs).1, hadds out (Nat.succ.inj hout) hin]
        rfl

end

/-! ## The steps of a channel keep its invariant -/

theorem playedChan_keeps {tick : Chan → Chan} {P : Chan → Prop} (hkeep : ∀ {c}, P c → P (tick c))
    (hcounter : ∀ {c} {x : UInt32}, P c → x.toNat ≤ NOTE_REF → P (c.withCounter x)) {c : Chan} (h : P c) :
    P (playedChan tick c) := by
  have hiter : P (tick^[Phase.fires NOTE_REF (c.freqCounter.toNat + c.freqInc.toNat)] c) :=
    Function.Iterate.rec P h (fun _ => hkeep) _
  refine hcounter hiter ?_
  have hrest := Phase.rest_le ref_pos (c.freqCounter.toNat + c.freqInc.toNat)
  rw [UInt32.toNat_ofNat_of_lt' (Nat.lt_of_le_of_lt hrest (by decide))]
  exact hrest

theorem ChanOK.withCounter {i : Fin 4} {c : Chan} (h : ChanOK i c) {x : UInt32} (hx : x.toNat ≤ NOTE_REF) :
    ChanOK i (c.withCounter x) := { h with freqCounter := hx }

/-- The channel at the end of a pass, and its increment. -/
structure NoteOK (i : Fin 4) (c : Chan) : Prop where
  ok : ChanOK i c
  inc : c.freqInc.toNat ≤ NOTE_MAX

theorem level_bounds (b : Bool) :
    -273 ≤ (if b then LEVEL_HIGH else LEVEL_LOW) ∧ (if b then LEVEL_HIGH else LEVEL_LOW) ≤ 273 := by
  cases b <;> decide

theorem levelOK_of_bounds {i : Fin 4} (hi : i ≠ 2) {val : Int} (h : -273 ≤ val ∧ val ≤ 273) : LevelOK i val := by
  unfold LevelOK
  rw [if_neg hi]
  exact h

theorem squareStep_ok {i : Fin 4} (hi : i ≠ 2) (hi' : i ≠ 3) {c : Chan} (h : ChanOK i c) : ChanOK i (squareStep c) :=
  { h with
    val := levelOK_of_bounds hi (level_bounds _)
    lfsrDiv := fun h => absurd h hi' }

theorem lfsrLevel_bounds (reg : UInt16) (wide : Bool) : -273 ≤ lfsrLevel reg wide ∧ lfsrLevel reg wide ≤ 273 := by
  unfold lfsrLevel
  dsimp only
  generalize (if wide = true then 14 else 6) = bit
  split <;> decide

theorem noiseStep_ok {c : Chan} (h : ChanOK 3 c) : ChanOK 3 (noiseStep c) := by
  refine { h with val := levelOK_of_bounds (by decide) ?_ }
  exact lfsrLevel_bounds _ _

theorem waveStep_ok (audioMem : Buffer) {c : Chan} (h : ChanOK 2 c) : ChanOK 2 (waveStep audioMem c) := by
  refine { h with val := ?_, lfsrDiv := fun h => absurd h (by decide) }
  show LevelOK 2 ((c.val + 1) % 32)
  unfold LevelOK
  rw [if_pos rfl]
  omega

/-- A note of a channel that plays: its steps are made and its invariant is kept. -/
theorem playNote_ok {i : Fin 4} {body : Note → Option Note} {I : Chan → Prop} {tick : Chan → Chan}
    (h : Ticks body I tick) (hkeep : ∀ {c}, ChanOK i c → ChanOK i (tick c)) {c : Chan} (hc : NoteOK i c) (hI : I c) :
    ∃ n, playNote body c = some n ∧ n.chan = playedChan tick c ∧ n.sample = 0 ∧ NoteOK i n.chan := by
  obtain ⟨n, hplay, hchan, hsample⟩ := playNote_eq h hI hc.ok.freqCounter hc.inc
  refine ⟨n, hplay, hchan, hsample, ?_⟩
  rw [hchan]
  refine playedChan_keeps (P := NoteOK i) (fun h' => ⟨hkeep h'.ok, ?_⟩) (fun h' hx => ⟨h'.ok.withCounter hx, h'.inc⟩) hc
  rw [h.inc]
  exact h'.inc

/-! ## Tones -/

/-- The samples of the square channels and of the noise channel. -/
def toneLoudness : Loudness := ⟨-1023, 1023, by decide, by decide, by decide⟩

theorem tdiv_four {x : Int} (h : -4095 ≤ x ∧ x ≤ 4095) : -1023 ≤ x.tdiv 4 ∧ x.tdiv 4 ≤ 1023 := by
  rcases Int.le_total 0 x with hx | hx
  · rw [Int.tdiv_eq_ediv_of_nonneg hx]
    omega
  · obtain ⟨y, rfl⟩ : ∃ y, x = -y := ⟨-x, by omega⟩
    rw [Int.neg_tdiv, Int.tdiv_eq_ediv_of_nonneg (by omega)]
    omega

theorem scaleSample_ok {i : Fin 4} (hi : i ≠ 2) {c : Chan} (h : ChanOK i c) :
    scaleSample c 0 = some ((c.val * c.volume.toNat).tdiv 4) ∧
      (Pass.sample ((c.val * c.volume.toNat).tdiv 4)).Within toneLoudness := by
  have hval : -273 ≤ c.val ∧ c.val ≤ 273 := by
    have hl := h.val
    unfold LevelOK at hl
    rwa [if_neg hi] at hl
  have hvol : c.volume.toNat ≤ 15 := by
    have hv := h.volume
    unfold volumeMax at hv
    rwa [if_neg hi] at hv
  have hprod : -4095 ≤ c.val * c.volume.toNat ∧ c.val * c.volume.toNat ≤ 4095 := by
    have h₁ := Int.mul_le_mul_of_nonneg_right hval.1 (Int.natCast_nonneg c.volume.toNat)
    have h₂ := Int.mul_le_mul_of_nonneg_right hval.2 (Int.natCast_nonneg c.volume.toNat)
    omega
  have hint {y : Int} (hy : -50000 ≤ y ∧ y ≤ 50000) : cInt y = some y := if_pos ⟨by omega, by omega⟩
  refine ⟨?_, tdiv_four hprod⟩
  unfold scaleSample
  rw [Int.zero_add, hint ⟨by omega, by omega⟩]
  simp only [Option.bind_eq_bind, Option.bind_some]
  rw [hint ⟨by omega, by omega⟩]
  rfl

section
variable {i : Fin 4} {volL volR : Int}

/-- Putting a channel back keeps the chip playing. -/
theorem Playing.setChan {a a' : Apu} (h : Playing i volL volR a)
    (honly : OnlyChan i a a') {c : Chan} (hc : NoteOK i c) :
    Playing i volL volR (a'.setChan i c) := by
  have hset := honly.trans (OnlyChan.setChan i c a')
  exact {
    ok := hset.ok h.ok (by rw [setChan_self]; exact hc.ok)
    volL := hset.volL.trans h.volL
    volR := hset.volR.trans h.volR
    inc := by rw [setChan_self]; exact hc.inc }

theorem Playing.len {a a' : Apu} (h : Playing i volL volR a) (honly : OnlyChan i a a')
    (hc : a'.chans i = lenStep (a.chans i)) : Playing i volL volR a' where
  ok := honly.ok h.ok (by rw [hc]; exact lenStep_ok (h.ok.chans i))
  volL := honly.volL.trans h.volL
  volR := honly.volR.trans h.volR
  inc := by
    rw [hc]
    unfold lenStep
    split
    · split <;> exact h.inc
    · exact h.inc

theorem squarePass_ok (hi : i = 0 ∨ i = 1) : Passes i volL volR toneLoudness (squarePass i) := by
  intro a h
  have hi2 : i ≠ 2 := by rintro rfl; revert hi; decide
  have hi3 : i ≠ 3 := by rintro rfl; revert hi; decide
  obtain ⟨a₁, hlen, hc₁, honly⟩ := updateLen_eq h.ok.audioMem i
  have h₁ := h.len honly hc₁
  unfold squarePass
  simp only [hlen, Option.bind_eq_bind, Option.bind_some]
  split
  · have henv := envAfter_ok hi2 (h₁.ok.chans i)
    have hinc : (envAfter (a₁.chans i)).freqInc.toNat ≤ NOTE_MAX := by
      rw [envAfter_only]
      exact h₁.inc
    simp only [updateEnv_eq (h₁.ok.chans i).env, Option.bind_some]
    split
    · exact ⟨_, _, rfl, h.setChan honly ⟨henv, hinc⟩, trivial, honly.trans (.setChan _ _ a₁)⟩
    · -- the sweep belongs to channel 0
      have hsweep : Defined (if i = 0 then updateSweep (envAfter (a₁.chans i)) else some (envAfter (a₁.chans i)))
          (NoteOK i) := by
        split
        · rename_i hzero
          subst hzero
          exact (updateSweep_defined ⟨henv, hinc⟩).mono fun c hc => ⟨hc.1, hc.2⟩
        · exact .pure ⟨henv, hinc⟩
      obtain ⟨c₂, hc₂, hok₂⟩ := hsweep
      obtain ⟨n, hplay, -, hsample, hn⟩ := playNote_ok squareTick_ticks (squareStep_ok hi2 hi3) hok₂ trivial
      obtain ⟨hscale, hwithin⟩ := scaleSample_ok hi2 hn.ok
      rw [hc₂]
      simp only [Option.bind_some, hplay, hsample, hscale]
      exact ⟨_, _, rfl, h.setChan honly hn, hwithin, honly.trans (.setChan _ _ a₁)⟩
  · exact ⟨_, _, rfl, h₁, trivial, honly⟩

theorem noisePass_ok : Passes 3 volL volR toneLoudness noisePass := by
  intro a h
  obtain ⟨a₁, hlen, hc₁, honly⟩ := updateLen_eq h.ok.audioMem 3
  have h₁ := h.len honly hc₁
  unfold noisePass
  simp only [hlen, Option.bind_eq_bind, Option.bind_some]
  split
  · have henv := envAfter_ok (i := 3) (by decide) (h₁.ok.chans 3)
    have hinc : (envAfter (a₁.chans 3)).freqInc.toNat ≤ NOTE_MAX := by
      rw [envAfter_only]
      exact h₁.inc
    simp only [updateEnv_eq (h₁.ok.chans 3).env, Option.bind_some]
    split
    · exact ⟨_, _, rfl, h.setChan honly ⟨henv, hinc⟩, trivial, honly.trans (.setChan _ _ a₁)⟩
    · obtain ⟨n, hplay, -, hsample, hn⟩ := playNote_ok noiseTick_ticks noiseStep_ok ⟨henv, hinc⟩ trivial
      obtain ⟨hscale, hwithin⟩ := scaleSample_ok (by decide) hn.ok
      simp only [hplay, hsample, hscale, Option.bind_some]
      exact ⟨_, _, rfl, h.setChan honly hn, hwithin, honly.trans (.setChan _ _ a₁)⟩
  · exact ⟨_, _, rfl, h₁, trivial, honly⟩

end

/-! ## The wave channel -/

def waveLoudness : Loudness := ⟨-2046, 1790, by decide, by decide, by decide⟩

/-- The sample of the wave channel at a position of its memory. -/
def waveOut (audioMem : Buffer) (pos : Nat) (volume : UInt8) : Int :=
  ((waveLevel audioMem pos volume * AUDIO_STEP).tdiv (waveDiv.getD volume.toNat 1)).tdiv 4

theorem nibble_lt (pos : Nat) (byte : UInt8) : (if pos % 2 = 1 then byte &&& 0xF else byte >>> 4).toNat < 16 := by
  split
  · exact forall_byte (P := fun b => (b &&& 0xF).toNat < 16) (by decide +kernel) byte
  · exact forall_byte (P := fun b => (b >>> 4).toNat < 16) (by decide +kernel) byte

theorem waveLevel_bounds (audioMem : Buffer) (pos : Nat) (volume : UInt8) :
    -8 ≤ waveLevel audioMem pos volume ∧ waveLevel audioMem pos volume ≤ 7 := by
  have hnibble := nibble_lt pos (audioMem.get (0x20 + pos / 2))
  unfold waveLevel
  dsimp only
  split
  · decide
  · generalize (if pos % 2 = 1 then audioMem.get (0x20 + pos / 2) &&& 0xF
    else audioMem.get (0x20 + pos / 2) >>> 4).toNat = x at hnibble
    rw [Int.shiftRight_eq_div_pow]
    generalize (volume - 1).toNat = k
    have hpow : 1 ≤ 2 ^ k := Nat.one_le_two_pow
    have hlow : -8 ≤ (x : Int) - 8 := by omega
    have hhigh : (x : Int) - 8 ≤ 7 := by omega
    have hpos : (0 : Int) < ((2 ^ k : Nat) : Int) := by omega
    constructor
    · rw [Int.le_ediv_iff_mul_le hpos]
      have hneg : -8 * ((2 ^ k : Nat) : Int) ≤ -8 := by omega
      omega
    · rw [← Int.lt_add_one_iff, Int.ediv_lt_iff_lt_mul hpos]
      omega

theorem withSample_sample {x : Int} (h : -8 ≤ x ∧ x ≤ 7) (s : Shape) : (s.withSample x).sample = x := by
  show (Int8.ofInt x).toUInt8.toInt8.toInt = x
  rw [Int8.toInt8_toUInt8, Int8.toInt_ofInt_of_le (by omega) (by omega)]

/-- The wave channel while it plays: the current sample stands at its position. -/
structure WaveNote (audioMem : Buffer) (c : Chan) : Prop where
  note : NoteOK 2 c
  sample : c.shape.sample = waveLevel audioMem c.val.toNat c.volume

theorem WaveNote.waveOK {audioMem : Buffer} {c : Chan} (h : WaveNote audioMem c) : WaveOK c := by
  have hval := h.note.ok.val
  have hvol := h.note.ok.volume
  unfold LevelOK at hval
  rw [if_pos rfl] at hval
  exact ⟨hval.1, hval.2, hvol⟩

theorem waveStep_note {audioMem : Buffer} {c : Chan} (h : WaveNote audioMem c) :
    WaveNote audioMem (waveStep audioMem c) where
  note := ⟨waveStep_ok audioMem h.note.ok, h.note.inc⟩
  sample := withSample_sample (waveLevel_bounds _ _ _) _

theorem WaveNote.withCounter {audioMem : Buffer} {c : Chan} (h : WaveNote audioMem c) {x : UInt32}
    (hx : x.toNat ≤ NOTE_REF) : WaveNote audioMem (c.withCounter x) :=
  ⟨⟨h.note.ok.withCounter hx, h.note.inc⟩, h.sample⟩

/-- The divisor of a volume. -/
theorem waveDiv_eq {volume : UInt8} (h : volume.toNat ≤ 3) :
    waveDiv[volume.toNat]? = some (waveDiv.getD volume.toNat 1) := by
  have hlt : volume.toNat < waveDiv.length := Nat.lt_of_le_of_lt h (by decide)
  rw [List.getElem?_eq_getElem hlt, List.getD_eq_getElem _ _ hlt]

theorem tdiv_bounds {x d : Int} (hd : 1 ≤ d) {low high : Int}
    (hlow : low ≤ 0) (hhigh : 0 ≤ high) (hx : low ≤ x ∧ x ≤ high) :
    low ≤ x.tdiv d ∧ x.tdiv d ≤ high := by
  rcases Int.le_total 0 x with hpos | hneg
  · have h₀ := Int.tdiv_nonneg hpos (b := d) (by omega)
    have h₁ := Int.tdiv_le_self d hpos
    omega
  · obtain ⟨y, rfl⟩ : ∃ y, x = -y := ⟨-x, by omega⟩
    have h₀ := Int.tdiv_nonneg (a := y) (b := d) (by omega) (by omega)
    have h₁ := Int.tdiv_le_self (a := y) d (by omega)
    rw [Int.neg_tdiv]
    omega

theorem waveOut_bounds (audioMem : Buffer) (pos : Nat) {volume : UInt8} (h : volume.toNat ≤ 3) :
    (Pass.sample (waveOut audioMem pos volume)).Within waveLoudness := by
  have hlevel := waveLevel_bounds audioMem pos volume
  have hstep : AUDIO_STEP = 1023 := by decide
  have hdiv : ∀ k ≤ 3, 1 ≤ waveDiv.getD k 1 := by decide
  have hscaled : -8184 ≤ waveLevel audioMem pos volume * AUDIO_STEP ∧
      waveLevel audioMem pos volume * AUDIO_STEP ≤ 7161 := by
    rw [hstep]
    omega
  have hpart := tdiv_bounds (hdiv _ h) (by decide) (by decide) hscaled
  show -2046 ≤ waveOut audioMem pos volume ∧ waveOut audioMem pos volume ≤ 1790
  unfold waveOut
  generalize (waveLevel audioMem pos volume * AUDIO_STEP).tdiv (waveDiv.getD volume.toNat 1) = x at hpart
  rcases Int.le_total 0 x with hx | hx
  · rw [Int.tdiv_eq_ediv_of_nonneg hx]
    omega
  · obtain ⟨y, rfl⟩ : ∃ y, x = -y := ⟨-x, by omega⟩
    rw [Int.neg_tdiv, Int.tdiv_eq_ediv_of_nonneg (by omega)]
    omega

/-- The channel with the sample at its position. -/
def loadWave (audioMem : Buffer) (c : Chan) : Chan :=
  { c with shape := c.shape.withSample (waveLevel audioMem c.val.toNat c.volume) }

theorem loadWave_note (audioMem : Buffer) {c : Chan} (h : NoteOK 2 c) : WaveNote audioMem (loadWave audioMem c) where
  note := ⟨{ h.ok with lfsrDiv := fun h => absurd h (by decide) }, h.inc⟩
  sample := withSample_sample (waveLevel_bounds _ _ _) _

/-- The wave channel after a sample. -/
def wavePlayed (audioMem : Buffer) (c : Chan) : Chan := playedChan (waveStep audioMem) (loadWave audioMem c)

theorem wavePlayed_note (audioMem : Buffer) {c : Chan} (h : NoteOK 2 c) : WaveNote audioMem (wavePlayed audioMem c) :=
  playedChan_keeps waveStep_note (fun h hx => h.withCounter hx) (loadWave_note audioMem h)

theorem wavePlayed_volume (audioMem : Buffer) (c : Chan) : (wavePlayed audioMem c).volume = c.volume := by
  have hstep {c' : Chan} (h : c'.volume = c.volume) : (waveStep audioMem c').volume = c.volume := h
  exact playedChan_keeps (P := fun c' => c'.volume = c.volume) hstep (fun h _ => h) rfl

/-- A pass of the wave channel plays its memory at the position it has reached. -/
theorem wavePass_eq {volL volR : Int} {a : Apu} (h : Playing 2 volL volR a) :
    ∃ a₁, updateLen 2 a = some a₁ ∧ a₁.chans 2 = lenStep (a.chans 2) ∧ OnlyChan 2 a a₁ ∧
      wavePass a = if (a₁.chans 2).enabled then
          some (.sample (waveOut a₁.audioMem (wavePlayed a₁.audioMem (a₁.chans 2)).val.toNat
            (wavePlayed a₁.audioMem (a₁.chans 2)).volume), a₁.setChan 2 (wavePlayed a₁.audioMem (a₁.chans 2)))
        else some (.stop, a₁) := by
  obtain ⟨a₁, hlen, hc₁, honly⟩ := updateLen_eq h.ok.audioMem 2
  refine ⟨a₁, hlen, hc₁, honly, ?_⟩
  have h₁ := h.len honly hc₁
  have hsize := h₁.ok.audioMem
  have hnote : NoteOK 2 (a₁.chans 2) := ⟨h₁.ok.chans 2, h₁.inc⟩
  have hload := loadWave_note a₁.audioMem hnote
  have hposition : WaveOK (a₁.chans 2) := hload.waveOK
  obtain ⟨n, hplay, hchan, hsample⟩ :=
    playNote_eq (waveTick_ticks hsize) hload.waveOK hload.note.ok.freqCounter hload.note.inc
  have hplayed := wavePlayed_note a₁.audioMem hnote
  have hn : n.chan = wavePlayed a₁.audioMem (a₁.chans 2) := hchan
  unfold wavePass
  simp only [hlen, Option.bind_eq_bind, Option.bind_some]
  split
  · have hindex : (a₁.chans 2).val.toNat < 32 := by
      obtain ⟨hlow, hhigh, -⟩ := hposition
      omega
    have hfirst := waveSample_eq hsize hindex hposition.2.2
    have hlevel := waveLevel_bounds a₁.audioMem n.chan.val.toNat n.chan.volume
    have hwrap : wrapInt16 (n.sample + n.chan.shape.sample * AUDIO_STEP) =
        waveLevel a₁.audioMem n.chan.val.toNat n.chan.volume * AUDIO_STEP := by
      have hstep : AUDIO_STEP = 1023 := by decide
      rw [hsample, Int.zero_add, hn, hplayed.sample, ← hn, hstep]
      refine wrapInt16_eq ⟨by omega, by omega⟩
    rw [wave_index hposition.1 hposition.2.1, hfirst]
    simp only [Option.bind_some]
    show (playNote (waveTick a₁.audioMem) (loadWave a₁.audioMem (a₁.chans 2))).bind _ = _
    rw [hplay]
    simp only [Option.bind_some]
    have hvolume := wavePlayed_volume a₁.audioMem (a₁.chans 2)
    rw [hwrap, hn, waveDiv_eq hposition.2.2, hvolume]
    rfl
  · rfl

theorem wavePass_ok {volL volR : Int} : Passes 2 volL volR waveLoudness wavePass := by
  intro a h
  obtain ⟨a₁, hlen, hc₁, honly, hpass⟩ := wavePass_eq h
  have h₁ := h.len honly hc₁
  have hplayed := wavePlayed_note a₁.audioMem ⟨h₁.ok.chans 2, h₁.inc⟩
  rw [hpass]
  split
  · exact ⟨_, _, rfl, h.setChan honly hplayed.note, waveOut_bounds _ _ hplayed.waveOK.2.2,
      honly.trans (.setChan _ _ a₁)⟩
  · exact ⟨_, _, rfl, h₁, trivial, honly⟩

/-! ## The voices of the channels -/

/-- A channel's part of a call: its voice, and the chip after it. -/
structure Sounds (i : Fin 4) (run : List StereoSample → Apu → Option (List StereoSample × Apu)) (l : Loudness)
    (a a' : Apu) (v : List StereoSample) : Prop where
  length : v.length = AUDIO_SAMPLES
  ok : ApuOK a'
  only : OnlyChan i a a'
  within : ∀ s ∈ v, s.Within l.low l.high a.volL a.volR
  adds : AddsVoice run AUDIO_SAMPLES a a' v

section
variable {i : Fin 4} {run : List StereoSample → Apu → Option (List StereoSample × Apu)} {l : Loudness} {a a' : Apu}

/-- A channel that is off. -/
theorem Sounds.off (h : ApuOK a) (h' : ApuOK a') (honly : OnlyChan i a a') (hrun : ∀ out, run out a = some (out, a')) :
    Sounds i run l a a' (List.replicate AUDIO_SAMPLES .silent) where
  length := List.length_replicate
  ok := h'
  only := honly
  within := fun s hs => by
    rw [List.eq_of_mem_replicate hs]
    exact within_silent l h.volL.1 h.volR.1
  adds := fun out hlen hin => by
    rw [hrun, ← hlen, zipWith_silent hin]

/-- A channel that plays. -/
theorem Sounds.on {pass : Apu → Option (Pass × Apu)} (hpass : Passes i a.volL a.volR l pass) {c : Chan} (h : ApuOK a)
    (hc : NoteOK i c) (hrun : ∀ out, run out a = eachSample i pass out (a.setChan i c)) :
    ∃ v a', Sounds i run l a a' v := by
  have hset := OnlyChan.setChan i c a
  have hstart : Playing i a.volL a.volR (a.setChan i c) := {
    ok := h.setChan hc.ok
    volL := hset.volL
    volR := hset.volR
    inc := by rw [setChan_self]; exact hc.inc }
  obtain ⟨v, a', hlen, h', hv, honly, hadds⟩ := eachSample_adds hpass AUDIO_SAMPLES hstart
  refine ⟨v, a', hlen, h'.ok, hset.trans honly, hv, fun out hout hin => ?_⟩
  rw [hrun]
  exact hadds out hout hin

end

theorem updateSquare_sounds (ch2 : Bool) {a : Apu} (h : ApuOK a) :
    ∃ v a', Sounds (if ch2 then 1 else 0) (updateSquare ch2) toneLoudness a a' v := by
  have hi : (if ch2 then (1 : Fin 4) else 0) = 0 ∨ (if ch2 then (1 : Fin 4) else 0) = 1 := by
    cases ch2
    · exact .inl rfl
    · exact .inr rfl
  by_cases hplay : (a.chans (if ch2 then 1 else 0)).powered = true ∧ (a.chans (if ch2 then 1 else 0)).enabled = true
  · have hmax : freqMax (if ch2 then 1 else 0) = 2047 := by cases ch2 <;> rfl
    have hok := h.chans (if ch2 then 1 else 0)
    obtain ⟨inc, hset, hval⟩ := setNoteFreq_eq (Nat.le_trans (hok.freq fun _ => hplay.2) (Nat.le_of_eq hmax))
    refine Sounds.on (squarePass_ok hi) h (c := { a.chans (if ch2 then 1 else 0) with freqInc := inc })
      ⟨{ hok with }, ?_⟩ fun out => ?_
    · show inc.toNat ≤ NOTE_MAX
      rw [hval]
      exact Nat.le_trans (noteInc_le _) (by decide)
    · unfold updateSquare
      dsimp only
      rw [if_pos hplay, hset]
      rfl
  · refine ⟨_, a, Sounds.off h h (.refl _ a) fun out => ?_⟩
    unfold updateSquare
    dsimp only
    rw [if_neg hplay]
    rfl

theorem updateWave_sounds {a : Apu} (h : ApuOK a) : ∃ v a', Sounds 2 updateWave waveLoudness a a' v := by
  have hok := h.chans 2
  by_cases hplay : (a.chans 2).powered = true ∧ (a.chans 2).enabled = true ∧ (a.chans 2).volume ≠ 0
  · obtain ⟨inc, hset, hval⟩ := setNoteFreq_eq (hok.freq fun h => absurd h (by decide))
    have hmax := noteInc_le (a.chans 2).freq.toNat
    rw [← hval] at hmax
    refine Sounds.on wavePass_ok h (c := { a.chans 2 with freqInc := inc * 2 })
      ⟨{ hok with }, ?_⟩ fun out => ?_
    · show (inc * 2).toNat ≤ NOTE_MAX
      rw [UInt32.toNat_mul]
      show inc.toNat * 2 % 4294967296 ≤ 220200960
      rw [Nat.mod_eq_of_lt (by omega)]
      omega
    · unfold updateWave
      dsimp only
      rw [if_pos hplay, hset]
      rfl
  · refine ⟨_, a, Sounds.off h h (.refl _ a) fun out => ?_⟩
    unfold updateWave
    dsimp only
    rw [if_neg hplay]
    rfl

theorem lfsrDivLut_bounds : ∀ k < 8, (lfsrDivLut[k]?).any (fun d => 8 ≤ d.toNat ∧ d.toNat ≤ 112) = true := by decide

theorem noiseFreq_eq {c : Chan} (hdiv : c.shape.lfsrDiv.toNat ≤ 7) (hfreq : c.freq.toNat < 14) :
    ∃ inc, noiseFreq c = some { c with freqInc := inc } ∧ inc.toNat ≤ NOTE_MAX := by
  obtain ⟨d, hlut, hd⟩ := (Option.any_eq_true _ _).1 (lfsrDivLut_bounds _ (Nat.lt_succ_of_le hdiv))
  obtain ⟨hlow, hhigh⟩ := of_decide_eq_true hd
  have hlt : c.freq < 32 := by
    rw [UInt16.lt_iff_toNat_lt]
    show c.freq.toNat < 32
    omega
  have hshift : (d <<< c.freq.toUInt32).toNat = d.toNat * 2 ^ c.freq.toNat := by
    have hpow : 2 ^ c.freq.toNat ≤ 2 ^ 13 := Nat.pow_le_pow_right (by decide) (by omega)
    have hmul := Nat.mul_le_mul hhigh hpow
    rw [UInt32.toNat_shiftLeft, UInt16.toNat_toUInt32, Nat.mod_eq_of_lt (by omega : c.freq.toNat < 32),
      Nat.shiftLeft_eq]
    exact Nat.mod_eq_of_lt (by omega)
  have hbig : 8 ≤ (d <<< c.freq.toUInt32).toNat := by
    have hpow : 1 ≤ 2 ^ c.freq.toNat := Nat.one_le_two_pow
    have hmul := Nat.mul_le_mul hlow hpow
    rw [hshift]
    omega
  have hne : d <<< c.freq.toUInt32 ≠ 0 := fun hz => by
    rw [hz] at hbig
    exact absurd hbig (by decide)
  refine ⟨4194304 / (d <<< c.freq.toUInt32) * FREQ_INC_MULT, ?_, ?_⟩
  · unfold noiseFreq cDiv
    rw [hlut]
    simp only [Option.bind_eq_bind, Option.bind_some]
    rw [if_pos hlt, if_neg hne]
    rfl
  · have hquot : (4194304 / (d <<< c.freq.toUInt32)).toNat ≤ 524288 := by
      rw [UInt32.toNat_div]
      exact Nat.div_le_of_le_mul (Nat.le_trans (by decide) (Nat.mul_le_mul_right 524288 hbig))
    rw [UInt32.toNat_mul]
    show _ * 105 % 4294967296 ≤ 220200960
    rw [Nat.mod_eq_of_lt (by omega)]
    omega

theorem updateNoise_sounds {a : Apu} (h : ApuOK a) : ∃ v a', Sounds 3 updateNoise toneLoudness a a' v := by
  have hok := h.chans 3
  have hstart : ChanOK 3 (if 14 ≤ (a.chans 3).freq then { a.chans 3 with enabled := false } else a.chans 3) := by
    split
    · exact hok.enable false nofun
    · exact hok
  generalize hc : (if 14 ≤ (a.chans 3).freq then { a.chans 3 with enabled := false } else a.chans 3) = c at hstart
  by_cases hplay : c.powered = true ∧ c.enabled = true
  · have hfreq : c.freq.toNat < 14 := by
      by_cases hbig : 14 ≤ (a.chans 3).freq
      · rw [if_pos hbig] at hc
        rw [← hc] at hplay
        exact absurd hplay.2 Bool.false_ne_true
      · rw [if_neg hbig] at hc
        rw [← hc]
        rw [UInt16.not_le, UInt16.lt_iff_toNat_lt] at hbig
        exact hbig
    obtain ⟨inc, hset, hinc⟩ := noiseFreq_eq (hstart.lfsrDiv rfl) hfreq
    refine Sounds.on noisePass_ok h (c := { c with freqInc := inc }) ⟨{ hstart with }, hinc⟩ fun out => ?_
    unfold updateNoise
    dsimp only
    rw [hc, if_pos hplay, hset]
    rfl
  · refine ⟨_, a.setChan 3 c, Sounds.off h (h.setChan hstart) (.setChan 3 c a) fun out => ?_⟩
    unfold updateNoise
    dsimp only
    rw [hc, if_neg hplay]
    rfl

end FoloGameboy

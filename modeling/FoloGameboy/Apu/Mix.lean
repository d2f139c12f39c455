/-
The mix of one call. The four channels are added up in 16 bits one after the other; the result is
their exact sum taken modulo 2^16, and up to master volume 6 the sum itself.
-/
import FoloGameboy.Apu.Voice

namespace FoloGameboy

namespace StereoSample

def plus (s t : StereoSample) : StereoSample := ⟨s.left + t.left, s.right + t.right⟩

def wrap (s : StereoSample) : StereoSample := ⟨wrapInt16 s.left, wrapInt16 s.right⟩

theorem wrap_eq {s : StereoSample} (h : s.IsInt16) : s.wrap = s := by
  unfold wrap
  rw [wrapInt16_eq h.1, wrapInt16_eq h.2]

theorem wrapInt16_add (x y : Int) : wrapInt16 (wrapInt16 x + y) = wrapInt16 (x + y) := Int.bmod_add_bmod

/-- Wrapping at each addition is wrapping once. -/
theorem add_wrap (s t : StereoSample) : s.wrap.add t = (s.plus t).wrap := by
  unfold add wrap plus
  dsimp only
  rw [wrapInt16_add, wrapInt16_add]

theorem zipWith_add_wrap : ∀ s t : List StereoSample,
    List.zipWith add (s.map wrap) t = (List.zipWith plus s t).map wrap
  | [], _ => rfl
  | _ :: _, [] => rfl
  | s :: ss, t :: ts => by
    show s.wrap.add t :: List.zipWith add (ss.map wrap) ts = (s.plus t).wrap :: (List.zipWith plus ss ts).map wrap
    rw [add_wrap, zipWith_add_wrap ss ts]

theorem Within.plus {low high low' high' volL volR : Int} {s t : StereoSample} (hs : s.Within low high volL volR)
    (ht : t.Within low' high' volL volR) : (s.plus t).Within (low + low') (high + high') volL volR := by
  obtain ⟨⟨h₁, h₂⟩, h₃, h₄⟩ := hs
  obtain ⟨⟨h₁', h₂'⟩, h₃', h₄'⟩ := ht
  refine ⟨⟨?_, ?_⟩, ?_, ?_⟩ <;> rw [Int.add_mul] <;> exact Int.add_le_add ‹_› ‹_›

theorem forall_zipWith_plus {low high low' high' volL volR : Int} {s t : List StereoSample}
    (hs : ∀ x ∈ s, x.Within low high volL volR) (ht : ∀ x ∈ t, x.Within low' high' volL volR) :
    ∀ x ∈ List.zipWith StereoSample.plus s t, x.Within (low + low') (high + high') volL volR := by
  induction s generalizing t with
  | nil => exact fun x hx => absurd hx List.not_mem_nil
  | cons a s ih =>
    cases t with
    | nil => exact fun x hx => absurd hx List.not_mem_nil
    | cons b t =>
      obtain ⟨ha, hs⟩ := List.forall_mem_cons.1 hs
      obtain ⟨hb, ht⟩ := List.forall_mem_cons.1 ht
      exact List.forall_mem_cons.2 ⟨ha.plus hb, ih hs ht⟩

theorem silent_plus (s : StereoSample) : silent.plus s = s := by
  unfold plus silent
  rw [Int.zero_add, Int.zero_add]

theorem zipWith_silent_plus : ∀ v : List StereoSample, List.zipWith plus (List.replicate v.length silent) v = v
  | [] => rfl
  | s :: v => by
    show silent.plus s :: List.zipWith plus (List.replicate v.length silent) v = s :: v
    rw [silent_plus, zipWith_silent_plus v]

/-- Bounds of a voice or of a sum of voices that leave room in 16 bits. -/
theorem Within.isInt16 {low high volL volR : Int} {s : StereoSample} (h : s.Within low high volL volR)
    (hL : -32768 ≤ low * volL ∧ high * volL ≤ 32767) (hR : -32768 ≤ low * volR ∧ high * volR ≤ 32767) : s.IsInt16 :=
  ⟨⟨Int.le_trans hL.1 h.1.1, Int.le_trans h.1.2 hL.2⟩, Int.le_trans hR.1 h.2.1, Int.le_trans h.2.2 hR.2⟩

end StereoSample

theorem silent_isInt16 : StereoSample.silent.IsInt16 := ⟨⟨by decide, by decide⟩, by decide, by decide⟩

/-- A buffer of samples that nothing has been played to. -/
def clearStream : List StereoSample := List.replicate AUDIO_SAMPLES .silent

theorem mul_volume {low high vol : Int} (hlow : -2046 ≤ low) (hhigh : high ≤ 2046) (hvol : 0 ≤ vol ∧ vol ≤ 7) :
    -32768 ≤ low * vol ∧ high * vol ≤ 32767 := by
  have h₁ := Int.mul_le_mul_of_nonneg_right hlow hvol.1
  have h₂ := Int.mul_le_mul_of_nonneg_right hhigh hvol.1
  omega

/-- A channel that mixes into silence. -/
theorem mixSample_silent {a : Apu} (h : ApuOK a) (i : Fin 4) (l : Loudness) {x : Int} (hx : l.low ≤ x ∧ x ≤ l.high) :
    mixSample i a x .silent = some (contribution i a x) := by
  obtain ⟨hmix, hwithin⟩ := mixSample_eq h i l hx silent_isInt16
  have hfits := hwithin.isInt16 (mul_volume l.bound.1 l.bound.2 h.volL) (mul_volume l.bound.1 l.bound.2 h.volR)
  have hclear : StereoSample.silent = StereoSample.silent.wrap := rfl
  rw [hmix, hclear, StereoSample.add_wrap, StereoSample.silent_plus, StereoSample.wrap_eq hfits]

/-- The four voices of a call, each as its channel plays it alone. -/
structure Voices (a a' : Apu) (v₀ v₁ v₂ v₃ : List StereoSample) : Prop where
  play : ∃ a₀ a₁ a₂, updateSquare false clearStream a = some (v₀, a₀) ∧
    updateSquare true clearStream a₀ = some (v₁, a₁) ∧
    updateWave clearStream a₁ = some (v₂, a₂) ∧ updateNoise clearStream a₂ = some (v₃, a')

/-- Their sum. -/
def voiceSum (v₀ v₁ v₂ v₃ : List StereoSample) : List StereoSample :=
  List.zipWith StereoSample.plus (List.zipWith StereoSample.plus (List.zipWith StereoSample.plus v₀ v₁) v₂) v₃

theorem length_zipWith_plus {v w : List StereoSample} (hv : v.length = AUDIO_SAMPLES) (hw : w.length = AUDIO_SAMPLES) :
    (List.zipWith StereoSample.plus v w).length = AUDIO_SAMPLES := by
  rw [List.length_zipWith, hv, hw, Nat.min_self]

theorem map_wrap_isInt16 (v : List StereoSample) : ∀ s ∈ v.map StereoSample.wrap, s.IsInt16 := fun s hs => by
  obtain ⟨t, -, rfl⟩ := List.mem_map.1 hs
  exact ⟨wrapInt16_isInt16 _, wrapInt16_isInt16 _⟩

/-- A channel that adds its voice to a buffer that holds a wrapped sum. -/
theorem Sounds.adds_wrap {i : Fin 4} {run : List StereoSample → Apu → Option (List StereoSample × Apu)} {l : Loudness}
    {a a' : Apu} {v : List StereoSample} (h : Sounds i run l a a' v) {s : List StereoSample}
    (hlen : s.length = AUDIO_SAMPLES) :
    run (s.map StereoSample.wrap) a = some ((List.zipWith StereoSample.plus s v).map StereoSample.wrap, a') := by
  rw [h.adds (s.map StereoSample.wrap) (by rw [List.length_map, hlen]) (map_wrap_isInt16 s),
    StereoSample.zipWith_add_wrap]

/-- A channel that starts with a cleared buffer. -/
theorem Sounds.first {i : Fin 4} {run : List StereoSample → Apu → Option (List StereoSample × Apu)} {l : Loudness}
    {a a' : Apu} {v : List StereoSample} (h : Sounds i run l a a' v) :
    run clearStream a = some (v.map StereoSample.wrap, a') := by
  have hsilent : StereoSample.silent.wrap = .silent := rfl
  have hclear : clearStream.map StereoSample.wrap = clearStream := by
    unfold clearStream
    rw [List.map_replicate, hsilent]
  have hzip := StereoSample.zipWith_silent_plus v
  rw [h.length] at hzip
  have hout := h.adds_wrap (s := clearStream) List.length_replicate
  rw [hclear] at hout
  unfold clearStream at hout ⊢
  rwa [hzip] at hout

/-- A channel alone plays its voice. -/
theorem Sounds.alone {i : Fin 4} {run : List StereoSample → Apu → Option (List StereoSample × Apu)} {l : Loudness}
    {a a' : Apu} {v : List StereoSample} (h : Sounds i run l a a' v) (ha : ApuOK a) :
    run clearStream a = some (v, a') := by
  have hv : ∀ s ∈ v, s.wrap = s := fun s hs => StereoSample.wrap_eq ((h.within s hs).isInt16
    (mul_volume l.bound.1 l.bound.2 ha.volL) (mul_volume l.bound.1 l.bound.2 ha.volR))
  rw [h.first]
  exact congrArg (fun w => some (w, a')) ((List.map_congr_left hv).trans (List.map_id' v))

/-- A call of the chip mixes the voices of its channels. -/
theorem callback_sounds {a : Apu} (h : ApuOK a) : ∃ v₀ v₁ v₂ v₃ a₀ a₁ a₂ a₃,
    Sounds 0 (updateSquare false) toneLoudness a a₀ v₀ ∧ Sounds 1 (updateSquare true) toneLoudness a₀ a₁ v₁ ∧
      Sounds 2 updateWave waveLoudness a₁ a₂ v₂ ∧ Sounds 3 updateNoise toneLoudness a₂ a₃ v₃ ∧
      minigbApuAudioCallback a = some ((voiceSum v₀ v₁ v₂ v₃).map StereoSample.wrap, a₃) := by
  obtain ⟨v₀, a₀, h₀⟩ := updateSquare_sounds false h
  obtain ⟨v₁, a₁, h₁⟩ := updateSquare_sounds true h₀.ok
  obtain ⟨v₂, a₂, h₂⟩ := updateWave_sounds h₁.ok
  obtain ⟨v₃, a₃, h₃⟩ := updateNoise_sounds h₂.ok
  refine ⟨v₀, v₁, v₂, v₃, a₀, a₁, a₂, a₃, h₀, h₁, h₂, h₃, ?_⟩
  have hl₁ := length_zipWith_plus h₀.length h₁.length
  have hl₂ := length_zipWith_plus hl₁ h₂.length
  unfold minigbApuAudioCallback
  show (updateSquare false clearStream a).bind _ = _
  rw [h₀.first]
  simp only [Option.bind_eq_bind, Option.bind_some, h₁.adds_wrap h₀.length, h₂.adds_wrap hl₁]
  exact h₃.adds_wrap hl₂

/-- The sum of the voices stays within these multiples of the master volumes. -/
theorem voiceSum_within {a a₀ a₁ a₂ a₃ : Apu} {v₀ v₁ v₂ v₃ : List StereoSample}
    (h₀ : Sounds 0 (updateSquare false) toneLoudness a a₀ v₀) (h₁ : Sounds 1 (updateSquare true) toneLoudness a₀ a₁ v₁)
    (h₂ : Sounds 2 updateWave waveLoudness a₁ a₂ v₂) (h₃ : Sounds 3 updateNoise toneLoudness a₂ a₃ v₃) :
    ∀ s ∈ voiceSum v₀ v₁ v₂ v₃, s.Within (-5115) 4859 a.volL a.volR := by
  have hw₁ := h₁.within
  have hw₂ := h₂.within
  have hw₃ := h₃.within
  rw [h₀.only.volL, h₀.only.volR] at hw₁
  rw [h₁.only.volL, h₁.only.volR, h₀.only.volL, h₀.only.volR] at hw₂
  rw [h₂.only.volL, h₂.only.volR, h₁.only.volL, h₁.only.volR, h₀.only.volL, h₀.only.volR] at hw₃
  have hsum := StereoSample.forall_zipWith_plus (StereoSample.forall_zipWith_plus
    (StereoSample.forall_zipWith_plus h₀.within hw₁) hw₂) hw₃
  exact hsum

end FoloGameboy

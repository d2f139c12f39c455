/-
The long press of Select: what a `gb_select_pause_t` makes of a timeline of samples, in which it may
be initialised again at any point. The machine remembers three flags and a time; whether it fires is
a matter of the timeline alone.

What drives it: `Waiting`, the stretch of samples since Select was last seen up, as long as it has
been down in all of them and none has fired. The machine is armed exactly while there is one, and
the start it remembers is the first sample of it.
-/
import Mathlib.Data.List.Induction
import FoloGameboy.Game.Input

namespace FoloGameboy

/-! ## Timelines -/

/-- What is done with a `gb_select_pause_t`. -/
inductive HoldEvent where
  | init (pad : PadSample)
  | step (pad : PadSample) (nowUs : Int)

def HoldEvent.pad : HoldEvent → PadSample
  | .init pad => pad
  | .step pad _ => pad

def HoldEvent.apply (s : SelectPause) : HoldEvent → SelectPause
  | .init pad => gbSelectPauseInit pad
  | .step pad nowUs => (gbSelectPauseStep s pad nowUs).2

/-- A `gb_select_pause_t` after a timeline; what it is before its first initialisation makes no
difference. -/
def holdAfter (timeline : List HoldEvent) : SelectPause := timeline.foldl HoldEvent.apply (gbSelectPauseInit {})

/-- After the timeline, `gb_select_pause_step` answers true. -/
def Fires (timeline : List HoldEvent) (pad : PadSample) (nowUs : Int) : Prop :=
  (gbSelectPauseStep (holdAfter timeline) pad nowUs).1 = true

/-- Select is seen released. -/
def PadSample.SelectUp (pad : PadSample) : Prop := pad.connected = true ∧ pad.view = false

/-- Select is seen pressed. -/
def PadSample.SelectDown (pad : PadSample) : Prop := pad.connected = true ∧ pad.view = true

/-- When a hold began that goes on at `nowUs`. -/
def downSince (nowUs : Int) : (held : List HoldEvent) → Int
  | .step _ startUs :: _ => startUs
  | _ => nowUs

/-- The timeline ends with Select seen up, by the initialisation or by a step, and then down in every
step of `held`, of which none has fired. -/
structure Waiting (timeline before : List HoldEvent) (released : HoldEvent) (held : List HoldEvent) : Prop where
  split : timeline = before ++ released :: held
  up : released.pad.SelectUp
  down : ∀ e ∈ held, ∃ pad nowUs, e = .step pad nowUs ∧ pad.SelectDown
  unfired : ∀ earlier pad nowUs later, held = earlier ++ .step pad nowUs :: later →
    ¬ Fires (before ++ released :: earlier) pad nowUs

/-- The gesture: since Select was seen up it has been down in every step, this one included, for as
long as it takes, and that has not fired before. -/
def Gesture (timeline : List HoldEvent) (pad : PadSample) (nowUs : Int) : Prop :=
  ∃ before released held, Waiting timeline before released held ∧ pad.SelectDown ∧
    GB_SELECT_PAUSE_US ≤ nowUs - downSince nowUs held

/-! ## One more event -/

@[simp] theorem holdAfter_concat (timeline : List HoldEvent) (e : HoldEvent) :
    holdAfter (timeline ++ [e]) = e.apply (holdAfter timeline) := by
  simp [holdAfter]

theorem not_waiting_nil {before held : List HoldEvent} {released : HoldEvent}
    (h : Waiting [] before released held) : False := by
  have hsplit := h.split
  simp at hsplit

theorem Waiting.start {timeline : List HoldEvent} {e : HoldEvent} (he : e.pad.SelectUp) :
    Waiting (timeline ++ [e]) timeline e [] :=
  ⟨rfl, he, by simp, by simp⟩

theorem Waiting.step {timeline before held : List HoldEvent} {released : HoldEvent}
    {pad : PadSample} {nowUs : Int}
    (h : Waiting timeline before released held) (hpad : pad.SelectDown)
    (hquiet : ¬ Fires timeline pad nowUs) :
    Waiting (timeline ++ [.step pad nowUs]) before released (held ++ [.step pad nowUs]) := by
  refine ⟨by simp [h.split], h.up, ?_, ?_⟩
  · intro e he
    rcases List.mem_append.mp he with he | he
    · exact h.down e he
    · exact ⟨pad, nowUs, List.mem_singleton.mp he, hpad⟩
  · intro earlier pad' nowUs' later hheld
    rcases List.eq_nil_or_concat later with rfl | ⟨later, last, rfl⟩
    · obtain ⟨rfl, hlast⟩ := List.append_inj' hheld rfl
      obtain ⟨rfl, rfl⟩ : pad = pad' ∧ nowUs = nowUs' := by simpa using hlast
      rwa [← h.split]
    · have hinit : held ++ [.step pad nowUs] = (earlier ++ .step pad' nowUs' :: later) ++
          [last] := by simpa using hheld
      exact h.unfired earlier pad' nowUs' later (List.append_inj_left' hinit rfl)

/-- A timeline waits because Select has just been seen up, or because it waited and the hold goes on
without firing. -/
theorem waiting_concat {timeline before held : List HoldEvent} {released e : HoldEvent}
    (h : Waiting (timeline ++ [e]) before released held) :
    (held = [] ∧ released = e ∧ e.pad.SelectUp) ∨
      ∃ held' pad nowUs, held = held' ++ [.step pad nowUs] ∧ e = .step pad nowUs ∧
        Waiting timeline before released held' ∧
        pad.SelectDown ∧ ¬ Fires timeline pad nowUs := by
  rcases List.eq_nil_or_concat held with rfl | ⟨held', last, rfl⟩
  · obtain ⟨-, hlast⟩ := List.append_inj' h.split rfl
    obtain rfl : e = released := by simpa using hlast
    exact .inl ⟨rfl, rfl, h.up⟩
  · have hsplit : timeline ++ [e] = (before ++ released :: held') ++ [last] := by simpa using h.split
    obtain ⟨htimeline, hlast⟩ := List.append_inj' hsplit rfl
    obtain rfl : e = last := by simpa using hlast
    obtain ⟨pad, nowUs, rfl, hpad⟩ := h.down e (by simp)
    refine .inr ⟨held', pad, nowUs, by simp, rfl,
      ⟨htimeline, h.up, fun e' he' => h.down e' (by simp [he']), ?_⟩, hpad, ?_⟩
    · intro earlier pad' nowUs' later hheld
      exact h.unfired earlier pad' nowUs' (later ++ [.step pad nowUs]) (by simp [hheld])
    · rw [htimeline]
      exact h.unfired held' pad nowUs [] (by simp)

/-! ## What the machine remembers -/

/-- The start that a step at `nowUs` measures from. -/
def SelectPause.startAt (s : SelectPause) (nowUs : Int) : Int := if s.holding then s.startedUs else nowUs

/-- The flags and the time as what they say of the timeline. -/
structure Remembers (timeline : List HoldEvent) (s : SelectPause) : Prop where
  armed : s.armed = true → ∃ before released held, Waiting timeline before released held
  waiting : ∀ before released held, Waiting timeline before released held →
    s.connected = true ∧ s.armed = true ∧ ∀ nowUs, s.startAt nowUs = downSince nowUs held

/-- What a step does: it initialises, arms, waits for a release, or measures the hold. -/
theorem gbSelectPauseStep_cases (s : SelectPause) (pad : PadSample) (nowUs : Int) :
    ((¬ pad.connected ∨ ¬ s.connected) ∧ gbSelectPauseStep s pad nowUs = (false, gbSelectPauseInit pad)) ∨
      (pad.SelectUp ∧ s.connected = true ∧ gbSelectPauseStep s pad nowUs =
        (false, { s with armed := true, holding := false })) ∨
      (pad.SelectDown ∧ s.armed = false ∧ gbSelectPauseStep s pad nowUs = (false, s)) ∨
      (pad.SelectDown ∧ s.connected = true ∧ s.armed = true ∧ nowUs - s.startAt nowUs < GB_SELECT_PAUSE_US ∧
        gbSelectPauseStep s pad nowUs = (false, { s with holding := true, startedUs := s.startAt nowUs })) ∨
      (pad.SelectDown ∧ s.connected = true ∧ s.armed = true ∧ GB_SELECT_PAUSE_US ≤ nowUs - s.startAt nowUs ∧
        gbSelectPauseStep s pad nowUs =
          (true, { s with armed := false, holding := true, startedUs := s.startAt nowUs })) := by
  unfold gbSelectPauseStep
  by_cases hconnected : ¬ pad.connected ∨ ¬ s.connected
  · exact .inl ⟨hconnected, if_pos hconnected⟩
  rw [if_neg hconnected]
  obtain ⟨hp, hs⟩ : pad.connected = true ∧ s.connected = true := by simpa using hconnected
  by_cases hview : pad.view = true
  · have hdown : pad.SelectDown := ⟨hp, hview⟩
    rw [if_neg (by simp [hview])]
    by_cases harmed : s.armed = true
    · have hgoing : (if s.holding then s else { s with holding := true, startedUs := nowUs }) =
          { s with holding := true, startedUs := s.startAt nowUs } := by
        unfold SelectPause.startAt
        cases s with
        | mk connected armed holding startedUs => cases holding <;> rfl
      rw [if_neg (by simp [harmed]), hgoing]
      by_cases htime : nowUs - s.startAt nowUs < GB_SELECT_PAUSE_US
      · exact .inr (.inr (.inr (.inl ⟨hdown, hs, harmed, htime, if_pos htime⟩)))
      · exact .inr (.inr (.inr (.inr ⟨hdown, hs, harmed, by omega, if_neg htime⟩)))
    · exact .inr (.inr (.inl ⟨hdown, by simpa using harmed, if_pos harmed⟩))
  · exact .inr (.inl ⟨⟨hp, by simpa using hview⟩, hs, if_pos hview⟩)

theorem downSince_concat {held : List HoldEvent}
    (hdown : ∀ e ∈ held, ∃ pad nowUs, e = .step pad nowUs ∧ pad.SelectDown)
    (pad : PadSample) (startUs nowUs : Int) :
    downSince nowUs (held ++ [.step pad startUs]) = downSince startUs held := by
  cases held with
  | nil => rfl
  | cons e rest =>
    obtain ⟨first, firstUs, rfl, -⟩ := hdown e (by simp)
    rfl

/-- A machine that is initialised, by the event or because the pad was or is not connected. -/
theorem remembers_init {timeline : List HoldEvent} {e : HoldEvent}
    (hwait : ∀ before released held, Waiting (timeline ++ [e]) before released held → held = [] ∧
      e.pad.SelectUp) :
    Remembers (timeline ++ [e]) (gbSelectPauseInit e.pad) := by
  refine ⟨fun harmed => ?_, fun before released held h => ?_⟩
  · have hup : e.pad.SelectUp := by simpa [gbSelectPauseInit, PadSample.SelectUp] using harmed
    exact ⟨timeline, e, [], .start hup⟩
  · obtain ⟨rfl, hconnected, hview⟩ := hwait before released held h
    exact ⟨hconnected, by simp [gbSelectPauseInit, hconnected, hview], fun nowUs => rfl⟩

/-- A step with Select down at which it waits for the release, or which fires: nothing waits after it. -/
theorem remembers_unarmed {timeline : List HoldEvent} {pad : PadSample} {nowUs : Int}
    (hdown : pad.SelectDown)
    (hquiet : ∀ before released held, Waiting timeline before released held → Fires timeline pad nowUs)
    {s : SelectPause} (hs : s.armed = false) : Remembers (timeline ++ [.step pad nowUs]) s := by
  refine ⟨fun harmed => absurd (hs.symm.trans harmed) (by simp), fun before released held hw => ?_⟩
  rcases waiting_concat hw with ⟨-, -, hup⟩ | ⟨held', pad', nowUs', -, heq, hw', -, hnot⟩
  · exact absurd (hup.2.symm.trans hdown.2) (by simp)
  · obtain ⟨rfl, rfl⟩ : pad = pad' ∧ nowUs = nowUs' := by simpa using heq
    exact (hnot (hquiet _ _ _ hw')).elim

theorem Remembers.step {timeline : List HoldEvent} (h : Remembers timeline (holdAfter timeline))
    (pad : PadSample) (nowUs : Int) :
    Remembers (timeline ++ [.step pad nowUs]) (gbSelectPauseStep (holdAfter timeline) pad nowUs).2 := by
  rcases gbSelectPauseStep_cases (holdAfter timeline) pad nowUs with
    ⟨hgone, hstep⟩ | ⟨hup, hs, hstep⟩ | ⟨hdown, hs, hstep⟩ |
    ⟨hdown, hs, harmed, htime, hstep⟩ | ⟨hdown, hs, harmed, htime, hstep⟩
  all_goals rw [hstep]
  · refine remembers_init (e := .step pad nowUs) fun before released held hw => ?_
    rcases waiting_concat hw with ⟨rfl, -, hup⟩ | ⟨held', pad', nowUs', -, heq, hw', hdown, -⟩
    · exact ⟨rfl, hup⟩
    · obtain ⟨rfl, rfl⟩ : pad = pad' ∧ nowUs = nowUs' := by simpa using heq
      exact (hgone.elim (· hdown.1) (· (h.waiting _ _ _ hw').1)).elim
  · refine ⟨fun _ => ⟨timeline, .step pad nowUs, [], .start hup⟩, fun before released held hw => ?_⟩
    rcases waiting_concat hw with ⟨rfl, -, -⟩ | ⟨held', pad', nowUs', -, heq, -, hdown, -⟩
    · exact ⟨hs, rfl, fun nowUs => rfl⟩
    · obtain ⟨rfl, rfl⟩ : pad = pad' ∧ nowUs = nowUs' := by simpa using heq
      exact absurd (hup.2.symm.trans hdown.2) (by simp)
  · refine remembers_unarmed hdown (fun before released held hw => ?_) hs
    exact absurd (hs.symm.trans (h.waiting _ _ _ hw).2.1) (by simp)
  · have hquiet : ¬ Fires timeline pad nowUs := by simp [Fires, hstep]
    obtain ⟨before, released, held, hw⟩ := h.armed harmed
    refine ⟨fun _ => ⟨before, released, _, hw.step hdown hquiet⟩, fun before released held hw => ?_⟩
    rcases waiting_concat hw with ⟨-, -, hup⟩ | ⟨held', pad', nowUs', rfl, heq, hw', -⟩
    · exact absurd (hup.2.symm.trans hdown.2) (by simp)
    · obtain ⟨rfl, rfl⟩ : pad = pad' ∧ nowUs = nowUs' := by simpa using heq
      refine ⟨hs, harmed, fun laterUs => ?_⟩
      rw [downSince_concat hw'.down, ← (h.waiting _ _ _ hw').2.2]
      rfl
  · exact remembers_unarmed hdown (fun _ _ _ _ => by simp [Fires, hstep]) rfl

theorem remembers (timeline : List HoldEvent) : Remembers timeline (holdAfter timeline) := by
  induction timeline using List.reverseRecOn with
  | nil => exact ⟨nofun, fun _ _ _ h => (not_waiting_nil h).elim⟩
  | append_singleton timeline e ih =>
    rw [holdAfter_concat]
    cases e with
    | init pad =>
      refine remembers_init fun before released held hw => ?_
      rcases waiting_concat hw with ⟨rfl, -, hup⟩ | ⟨_, _, _, -, heq, -⟩
      · exact ⟨rfl, hup⟩
      · cases heq
    | step pad nowUs => exact ih.step pad nowUs

/-! ## The gesture -/

theorem fires_iff (timeline : List HoldEvent) (pad : PadSample) (nowUs : Int) :
    Fires timeline pad nowUs ↔ Gesture timeline pad nowUs := by
  have hr := remembers timeline
  constructor
  · intro hfires
    rcases gbSelectPauseStep_cases (holdAfter timeline) pad nowUs with
      ⟨-, hstep⟩ | ⟨-, -, hstep⟩ | ⟨-, -, hstep⟩ | ⟨-, -, -, -, hstep⟩ | ⟨hdown, -, harmed, htime, -⟩
    · simp [Fires, hstep] at hfires
    · simp [Fires, hstep] at hfires
    · simp [Fires, hstep] at hfires
    · simp [Fires, hstep] at hfires
    · obtain ⟨before, released, held, hw⟩ := hr.armed harmed
      rw [(hr.waiting _ _ _ hw).2.2] at htime
      exact ⟨before, released, held, hw, hdown, htime⟩
  · rintro ⟨before, released, held, hw, hdown, htime⟩
    obtain ⟨hs, harmed, hstart⟩ := hr.waiting _ _ _ hw
    rw [← hstart] at htime
    rcases gbSelectPauseStep_cases (holdAfter timeline) pad nowUs with
      ⟨hgone, -⟩ | ⟨hup, -⟩ | ⟨-, hnot, -⟩ | ⟨-, -, -, hshort, -⟩ | ⟨-, -, -, -, hstep⟩
    · exact (hgone.elim (· hdown.1) (· hs)).elim
    · exact absurd (hup.2.symm.trans hdown.2) (by simp)
    · exact absurd (hnot.symm.trans harmed) (by simp)
    · omega
    · simp [Fires, hstep]

/-! ## Where the release is -/

/-- An event of the timeline that is not part of the hold comes no later than the release. -/
theorem Waiting.released_since {timeline before held earlier since : List HoldEvent}
    {released e : HoldEvent}
    (h : Waiting timeline before released held) (hsplit : timeline = earlier ++ e :: since)
    (hnot : ∀ first, held = first ++ e :: since → earlier ≠ before ++ released :: first) :
    released ∈ e :: since := by
  have heq : earlier ++ e :: since = before ++ released :: held := hsplit.symm.trans h.split
  rcases List.append_eq_append_iff.mp heq with ⟨between, -, hlater⟩ | ⟨between, hearlier, hlater⟩
  · rw [hlater]
    simp
  · cases between with
    | nil =>
      rw [← List.nil_append (e :: since), ← hlater]
      simp
    | cons first between =>
      obtain ⟨rfl, hheld⟩ := List.cons.inj hlater
      exact (hnot between hheld hearlier).elim

/-- After a firing there is a release before the next one. -/
theorem released_after_fired {earlier since : List HoldEvent} {pad pad' : PadSample} {nowUs nowUs' : Int}
    (hfired : Fires earlier pad nowUs) (hfires : Fires (earlier ++ .step pad nowUs :: since) pad' nowUs') :
    ∃ e ∈ since, e.pad.SelectUp := by
  obtain ⟨before, released, held, hw, -⟩ := (fires_iff _ _ _).mp hfires
  obtain ⟨-, -, -, -, hdown, -⟩ := (fires_iff _ _ _).mp hfired
  have hmem := hw.released_since rfl fun first hheld hearlier =>
    hw.unfired first pad nowUs since hheld (hearlier ▸ hfired)
  rcases List.mem_cons.mp hmem with rfl | hmem
  · exact absurd (hw.up.2.symm.trans hdown.2) (by simp)
  · exact ⟨released, hmem, hw.up⟩

/-- After an initialisation Select is seen up before the first firing. -/
theorem released_after_init {earlier since : List HoldEvent} {pad0 pad : PadSample} {nowUs : Int}
    (hfires : Fires (earlier ++ .init pad0 :: since) pad nowUs) :
    ∃ e ∈ .init pad0 :: since, e.pad.SelectUp := by
  obtain ⟨before, released, held, hw, -⟩ := (fires_iff _ _ _).mp hfires
  refine ⟨released, hw.released_since rfl fun first hheld => ?_, hw.up⟩
  obtain ⟨pad', nowUs', heq, -⟩ := hw.down (.init pad0) (by simp [hheld])
  cases heq

/-- After a disconnect Select is seen up before the next firing. -/
theorem released_after_disconnect {earlier since : List HoldEvent} {e : HoldEvent} {pad : PadSample}
    {nowUs : Int}
    (hgone : ¬ e.pad.connected) (hfires : Fires (earlier ++ e :: since) pad nowUs) :
    ∃ e' ∈ since, e'.pad.SelectUp := by
  obtain ⟨before, released, held, hw, -⟩ := (fires_iff _ _ _).mp hfires
  have hmem := hw.released_since rfl fun first hheld => by
    obtain ⟨pad', nowUs', rfl, hdown⟩ := hw.down e (by simp [hheld])
    exact (hgone hdown.1).elim
  rcases List.mem_cons.mp hmem with rfl | hmem
  · exact (hgone hw.up.1).elim
  · exact ⟨released, hmem, hw.up⟩

/-! ## One hold -/

/-- How often a run of steps fires. -/
def firings (s : SelectPause) : List (PadSample × Int) → Nat
  | [] => 0
  | (pad, nowUs) :: rest =>
    let (fired, s) := gbSelectPauseStep s pad nowUs
    firings s rest + fired.toNat

/-- Unarmed, a hold does not fire, and leaves the machine unarmed. -/
theorem firings_unarmed {s : SelectPause} (hs : s.armed = false) {held : List (PadSample × Int)}
    (hdown : ∀ x ∈ held, x.1.SelectDown) : firings s held = 0 := by
  induction held generalizing s with
  | nil => rfl
  | cons x rest ih =>
    obtain ⟨pad, nowUs⟩ := x
    have hx : pad.SelectDown := hdown (pad, nowUs) (by simp)
    have hrest : ∀ x ∈ rest, x.1.SelectDown := fun x hx => hdown x (by simp [hx])
    have hinit : (gbSelectPauseInit pad).armed = false := by simp [gbSelectPauseInit, hx.2]
    rcases gbSelectPauseStep_cases s pad nowUs with
      ⟨-, hstep⟩ | ⟨hup, -⟩ | ⟨-, -, hstep⟩ | ⟨-, -, harmed, -⟩ | ⟨-, -, harmed, -⟩
    · simp only [firings, hstep]
      rw [ih hinit hrest]
      rfl
    · exact absurd (hup.2.symm.trans hx.2) (by simp)
    · simp only [firings, hstep]
      rw [ih hs hrest]
      rfl
    · exact absurd (hs.symm.trans harmed) (by simp)
    · exact absurd (hs.symm.trans harmed) (by simp)

theorem gbSelectPauseStep_unarms {s s' : SelectPause} {pad : PadSample} {nowUs : Int}
    (h : gbSelectPauseStep s pad nowUs = (true, s')) : s'.armed = false := by
  rcases gbSelectPauseStep_cases s pad nowUs with
    ⟨-, hstep⟩ | ⟨-, -, hstep⟩ | ⟨-, -, hstep⟩ | ⟨-, -, -, -, hstep⟩ | ⟨-, -, -, -, hstep⟩
  · cases hstep.symm.trans h
  · cases hstep.symm.trans h
  · cases hstep.symm.trans h
  · cases hstep.symm.trans h
  · obtain rfl := (Prod.mk.inj (hstep.symm.trans h)).2
    rfl

/-- A continuous hold fires at most once. -/
theorem firings_le_one (s : SelectPause) {held : List (PadSample × Int)}
    (hdown : ∀ x ∈ held, x.1.SelectDown) :
    firings s held ≤ 1 := by
  induction held generalizing s with
  | nil => exact Nat.zero_le 1
  | cons x rest ih =>
    obtain ⟨pad, nowUs⟩ := x
    have hrest : ∀ x ∈ rest, x.1.SelectDown := fun x hx => hdown x (by simp [hx])
    cases hstep : gbSelectPauseStep s pad nowUs with
    | mk fired s' =>
      simp only [firings, hstep]
      cases fired with
      | false => exact ih s' hrest
      | true =>
        have harmed : s'.armed = false := gbSelectPauseStep_unarms hstep
        rw [firings_unarmed harmed hrest]
        exact Nat.le_refl 1

end FoloGameboy

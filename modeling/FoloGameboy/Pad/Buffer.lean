/-
The input buffer over its runs: the ring as a queue, the samples of it as the changes of the buttons
that the game has not seen yet, and what is left of them by the two rules that drop and by the latch
that arms.
-/
import FoloGameboy.Lib.Queue
import FoloGameboy.Pad.Input

namespace FoloGameboy

open Queue

/-! ## The queue -/

theorem capacity_pos : 0 < GB_INPUT_BUFFER_CAPACITY := by decide

namespace InputBuffer

/-- The samples that wait, the oldest first. -/
def queue (s : InputBuffer) : List InputEvent := ring s.event GB_INPUT_BUFFER_CAPACITY s.head s.count

def queueBits (s : InputBuffer) : List UInt32 := s.queue.map fun e => sampleBits e.sample

/-- The buttons, and the changes of them that wait. -/
def signal (s : InputBuffer) : Signal UInt32 := ⟨s.queueBits, sampleBits s.latest⟩

variable {s : InputBuffer}

theorem queue_length (s : InputBuffer) : s.queue.length = s.count := ring_length _ _ _ _

theorem queue_nil (h : s.count = 0) : s.queue = [] := List.length_eq_zero_iff.1 ((queue_length s).trans h)

theorem queue_eq_nil (s : InputBuffer) : s.queue = [] ↔ s.count = 0 := by
  rw [← List.length_eq_zero_iff, queue_length]

theorem queue_cons (hhead : s.head < GB_INPUT_BUFFER_CAPACITY) (hcount : s.count ≠ 0) :
    s.queue = s.event s.head ::
      { s with head := (s.head + 1) % GB_INPUT_BUFFER_CAPACITY, count := s.count - 1 }.queue := by
  obtain ⟨count, hsucc⟩ := Nat.exists_eq_succ_of_ne_zero hcount
  rw [queue, hsucc, ring_succ, Nat.mod_eq_of_lt hhead]
  rfl

theorem queue_push (hcount : s.count < GB_INPUT_BUFFER_CAPACITY) (e : InputEvent) :
    { s with
      events := s.events.setIfInBounds ((s.head + s.count) % GB_INPUT_BUFFER_CAPACITY) e,
      count := s.count + 1 }.queue = s.queue ++ [e] := by
  have htail : (s.head + s.count) % GB_INPUT_BUFFER_CAPACITY < GB_INPUT_BUFFER_CAPACITY :=
    Nat.mod_lt _ capacity_pos
  refine ring_push hcount ?_ fun i hi => ?_
  · rw [event, Vector.getElem?_setIfInBounds, if_pos rfl, if_pos htail]
    rfl
  · rw [event, Vector.getElem?_setIfInBounds, if_neg hi.symm, event]

end InputBuffer

/-! ## Steps -/

/-- A call of `gb_input_buffer_push` or of `gb_input_buffer_take`. -/
inductive InputOp where
  | push (sample : PadSample) (nowUs : Int)
  | take (nowUs : Int)

namespace InputOp

def step : InputOp → InputBuffer → InputBuffer
  | .push sample nowUs, s => gbInputBufferPush s sample nowUs
  | .take nowUs, s => (gbInputBufferTake s nowUs).2

/-- A change of the buttons finds the buffer full, or a take finds its oldest sample too old. -/
def Drops (s : InputBuffer) : InputOp → Prop
  | .push sample _ =>
      s.armed ∧ sample.connected ∧ sampleBits sample ≠ sampleBits s.latest ∧ s.count = GB_INPUT_BUFFER_CAPACITY
  | .take nowUs => s.armed ∧ ∃ e, s.queue.head? = some e ∧ GB_INPUT_BUFFER_MAX_AGE_US < nowUs - e.atUs

end InputOp

/-- What holds between the calls: the queue follows some value of the buttons. -/
structure InputInv (s : InputBuffer) : Prop where
  head : s.head < GB_INPUT_BUFFER_CAPACITY
  count : s.count ≤ GB_INPUT_BUFFER_CAPACITY
  enabled : s.armed → s.enabled
  locked : s.armed = false → s.count = 0
  follows : ∃ bits, s.signal.Follows bits

section Steps

variable {s : InputBuffer}

theorem signal_empty (h : s.count = 0) : s.signal = s.signal.drop := by
  rw [Signal.drop, InputBuffer.signal, InputBuffer.queueBits, InputBuffer.queue_nil h]
  rfl

theorem signal_follows (h : s.count = 0) : ∃ bits, s.signal.Follows bits := by
  rw [signal_empty h]
  exact ⟨_, s.signal.follows_drop⟩

/-- A push that the buffer does not take in. -/
theorem push_locked (hinv : InputInv s) {p : PadSample} (h : s.armed = false ∨ p.connected = false)
    (nowUs : Int) :
    let s' := gbInputBufferPush s p nowUs
    s'.latest = p ∧ s'.enabled = s.enabled ∧ s'.dropped = s.dropped ∧
      s'.head < GB_INPUT_BUFFER_CAPACITY ∧ s'.count = 0 ∧
      (s'.armed → released p ∧ s.enabled) := by
  unfold gbInputBufferPush
  dsimp only
  split
  · exact ⟨rfl, rfl, rfl, capacity_pos, rfl, nofun⟩
  rename_i hcond
  obtain ⟨hconn, henabled⟩ := not_or.1 hcond
  have harmed : s.armed = false :=
    h.resolve_right fun hfalse => hconn (by rw [hfalse]; exact Bool.false_ne_true)
  rw [harmed, if_pos Bool.false_ne_true]
  exact ⟨rfl, rfl, rfl, hinv.head, hinv.locked harmed, fun hreleased => ⟨hreleased, not_not.1 henabled⟩⟩

/-- A push that it takes in, by the buttons. -/
theorem push_armed (hinv : InputInv s) (harmed : s.armed) {p : PadSample} (hconn : p.connected)
    (nowUs : Int) :
    let s' := gbInputBufferPush s p nowUs
    s'.latest = p ∧ s'.enabled = s.enabled ∧ s'.armed ∧ s'.head < GB_INPUT_BUFFER_CAPACITY ∧
      ((sampleBits p = sampleBits s.latest ∧ s'.queue = s.queue ∧ s'.dropped = s.dropped) ∨
        (sampleBits p ≠ sampleBits s.latest ∧ s.count = GB_INPUT_BUFFER_CAPACITY ∧ s'.queue = [⟨p, nowUs⟩] ∧
          s'.dropped = s.dropped + UInt32.ofNat s.count) ∨
        (sampleBits p ≠ sampleBits s.latest ∧ s.count < GB_INPUT_BUFFER_CAPACITY ∧
          s'.queue = s.queue ++ [⟨p, nowUs⟩] ∧
          s'.dropped = s.dropped)) := by
  unfold gbInputBufferPush
  dsimp only
  rw [if_neg (not_or.2 ⟨not_not.2 hconn, not_not.2 (hinv.enabled harmed)⟩), if_neg (not_not.2 harmed)]
  split
  · rename_i hsame
    exact ⟨rfl, rfl, harmed, hinv.head, .inl ⟨hsame, rfl, rfl⟩⟩
  rename_i hchange
  split
  · rename_i hfull
    refine ⟨rfl, rfl, harmed, capacity_pos, .inr (.inl ⟨hchange, hfull, ?_, rfl⟩)⟩
    exact InputBuffer.queue_push (s := { s with latest := p, head := 0, count := 0 }) capacity_pos
      ⟨p, nowUs⟩
  · rename_i hfull
    have hcount : s.count < GB_INPUT_BUFFER_CAPACITY := Nat.lt_of_le_of_ne hinv.count hfull
    refine ⟨rfl, rfl, harmed, hinv.head, .inr (.inr ⟨hchange, hcount, ?_, rfl⟩)⟩
    exact InputBuffer.queue_push (s := { s with latest := p }) hcount ⟨p, nowUs⟩

theorem take_locked (h : s.armed = false) (nowUs : Int) :
    gbInputBufferTake s nowUs = ({ connected := s.latest.connected }, s) := by
  rw [gbInputBufferTake, if_pos (.inr (by rw [h]; exact Bool.false_ne_true))]

/-- A take of an armed buffer: too old, empty, or the oldest sample. -/
theorem take_armed (hinv : InputInv s) (harmed : s.armed) (nowUs : Int) :
    let r := gbInputBufferTake s nowUs
    r.2.latest = s.latest ∧ r.2.enabled = s.enabled ∧ r.2.armed ∧ r.2.head < GB_INPUT_BUFFER_CAPACITY ∧
      (((InputOp.take nowUs).Drops s ∧ r.2.queue = [] ∧
        r.2.dropped = s.dropped + UInt32.ofNat s.count ∧ r.1 = s.latest) ∨
        (¬ (InputOp.take nowUs).Drops s ∧ s.queue = [] ∧ r = (s.latest, s)) ∨
        (¬ (InputOp.take nowUs).Drops s ∧ r.2.dropped = s.dropped ∧ ∃ e, s.queue = e :: r.2.queue ∧
          r.1 = e.sample)) := by
  have hdrops : (InputOp.take nowUs).Drops s ↔ s.count ≠ 0 ∧ GB_INPUT_BUFFER_MAX_AGE_US <
      nowUs - (s.event s.head).atUs := by
    by_cases hcount : s.count = 0
    · rw [InputOp.Drops, InputBuffer.queue_nil hcount]
      exact ⟨fun ⟨_, _, h, _⟩ => (nomatch h), fun h => absurd hcount h.1⟩
    · rw [InputOp.Drops, InputBuffer.queue_cons hinv.head hcount]
      refine ⟨fun ⟨_, e, he, hage⟩ => ⟨hcount, ?_⟩, fun h => ⟨harmed, _, rfl, h.2⟩⟩
      rwa [← Option.some.inj he] at hage
  rw [hdrops]
  unfold gbInputBufferTake
  dsimp only
  rw [if_neg (not_or.2 ⟨not_not.2 (hinv.enabled harmed), not_not.2 harmed⟩)]
  split
  · rename_i hold
    exact ⟨rfl, rfl, harmed, capacity_pos, .inl ⟨hold, rfl, rfl, rfl⟩⟩
  rename_i hfresh
  split
  · rename_i hcount
    exact ⟨rfl, rfl, harmed, hinv.head, .inr (.inl ⟨hfresh, InputBuffer.queue_nil hcount, rfl⟩)⟩
  · rename_i hcount
    exact ⟨rfl, rfl, harmed, Nat.mod_lt _ capacity_pos,
      .inr (.inr ⟨hfresh, rfl, _, InputBuffer.queue_cons hinv.head hcount, rfl⟩)⟩

theorem push_kept (hinv : InputInv s) (harmed : s.armed) {p : PadSample} (hconn : p.connected) {nowUs : Int}
    (hkept : ¬ (InputOp.push p nowUs).Drops s) :
    (gbInputBufferPush s p nowUs).signal = s.signal.push (sampleBits p) ∧
      (gbInputBufferPush s p nowUs).dropped = s.dropped := by
  obtain ⟨hlatest, -, -, -, ⟨hsame, hqueue, hdropped⟩ | ⟨hchange, hfull, -, -⟩ | ⟨hchange, -,
    hqueue, hdropped⟩⟩ :=
    push_armed hinv harmed hconn nowUs
  · refine ⟨?_, hdropped⟩
    rw [Signal.push_same (s := s.signal) hsame, InputBuffer.signal, InputBuffer.queueBits, hqueue,
      hlatest, hsame]
    rfl
  · exact absurd ⟨harmed, hconn, hchange, hfull⟩ hkept
  · refine ⟨?_, hdropped⟩
    rw [Signal.push_change (s := s.signal) hchange, InputBuffer.signal, InputBuffer.queueBits,
      hqueue, hlatest, List.map_append]
    rfl

theorem push_drops (hinv : InputInv s) {p : PadSample} {nowUs : Int}
    (hdrops : (InputOp.push p nowUs).Drops s) :
    (gbInputBufferPush s p nowUs).queue = [⟨p, nowUs⟩] ∧ (gbInputBufferPush s p nowUs).dropped =
      s.dropped + UInt32.ofNat s.count := by
  obtain ⟨harmed, hconn, hchange, hfull⟩ := hdrops
  obtain ⟨-, -, -, -, ⟨hsame, -⟩ | ⟨-, -, hqueue, hdropped⟩ | ⟨-, hcount, -⟩⟩ :=
    push_armed hinv harmed hconn nowUs
  · exact absurd hsame hchange
  · exact ⟨hqueue, hdropped⟩
  · exact absurd hfull (Nat.ne_of_lt hcount)

theorem take_kept (hinv : InputInv s) (harmed : s.armed) {nowUs : Int}
    (hkept : ¬ (InputOp.take nowUs).Drops s) :
    (sampleBits (gbInputBufferTake s nowUs).1, (gbInputBufferTake s nowUs).2.signal) = s.signal.take ∧
      (gbInputBufferTake s nowUs).2.dropped = s.dropped := by
  obtain ⟨hlatest, -, -, -, ⟨hdrops, -⟩ | ⟨-, hempty, hr⟩ | ⟨-, hdropped, e, hqueue, hresult⟩⟩ :=
    take_armed hinv harmed nowUs
  · exact absurd hdrops hkept
  · rw [hr, Signal.take, InputBuffer.signal, InputBuffer.queueBits, hempty]
    exact ⟨rfl, rfl⟩
  · refine ⟨?_, hdropped⟩
    rw [Signal.take, InputBuffer.signal, InputBuffer.signal, InputBuffer.queueBits, hlatest,
      hresult, InputBuffer.queueBits, hqueue]
    rfl

theorem take_drops (hinv : InputInv s) {nowUs : Int} (hdrops : (InputOp.take nowUs).Drops s) :
    (gbInputBufferTake s nowUs).2.queue = [] ∧ (gbInputBufferTake s nowUs).2.dropped =
      s.dropped + UInt32.ofNat s.count ∧
      (gbInputBufferTake s nowUs).1 = s.latest := by
  obtain ⟨-, -, -, -, ⟨-, hqueue, hdropped, hresult⟩ | ⟨hkept, -⟩ | ⟨hkept, -⟩⟩ :=
    take_armed hinv hdrops.1 nowUs
  · exact ⟨hqueue, hdropped, hresult⟩
  · exact absurd hdrops hkept
  · exact absurd hdrops hkept

theorem InputInv.push (hinv : InputInv s) (p : PadSample) (nowUs : Int) :
    InputInv (gbInputBufferPush s p nowUs) := by
  by_cases hlocked : s.armed = false ∨ p.connected = false
  · obtain ⟨-, henabled, -, hhead, hcount, harmed⟩ := push_locked hinv hlocked nowUs
    exact ⟨hhead, hcount ▸ Nat.zero_le _, fun h => henabled.trans (harmed h).2,
      fun _ => hcount, signal_follows hcount⟩
  obtain ⟨harmed, hconn⟩ := not_or.1 hlocked
  rw [Bool.not_eq_false] at harmed hconn
  obtain ⟨hlatest, henabled, harmed', hhead, hqueue⟩ := push_armed hinv harmed hconn nowUs
  obtain ⟨bits, hfollows⟩ := hinv.follows
  refine ⟨hhead, ?_, fun _ => henabled.trans (hinv.enabled harmed),
    fun h => absurd h (by rw [harmed']; exact Bool.true_eq_false_eq_False), ?_⟩
  · rw [← InputBuffer.queue_length]
    obtain ⟨-, hqueue, -⟩ | ⟨-, -, hqueue, -⟩ | ⟨-, hcount, hqueue, -⟩ := hqueue
    · rw [hqueue, InputBuffer.queue_length]
      exact hinv.count
    · rw [hqueue]
      exact capacity_pos
    · rw [hqueue, List.length_append, InputBuffer.queue_length]
      exact hcount
  · by_cases hdrops : (InputOp.push p nowUs).Drops s
    · refine ⟨sampleBits s.latest, ?_⟩
      have hsignal : (gbInputBufferPush s p nowUs).signal = s.signal.drop.push (sampleBits p) := by
        rw [Signal.push_change (s := s.signal.drop) hdrops.2.2.1, InputBuffer.signal,
          InputBuffer.queueBits, (push_drops hinv hdrops).1, hlatest]
        rfl
      rw [hsignal]
      exact s.signal.follows_drop.push _
    · rw [(push_kept hinv harmed hconn hdrops).1]
      exact ⟨bits, hfollows.push _⟩

theorem InputInv.take (hinv : InputInv s) (nowUs : Int) : InputInv (gbInputBufferTake s nowUs).2 := by
  cases harmed : s.armed with
  | false =>
    rw [take_locked harmed]
    exact hinv
  | true =>
    obtain ⟨-, henabled, harmed', hhead, hqueue⟩ := take_armed hinv harmed nowUs
    obtain ⟨bits, hfollows⟩ := hinv.follows
    have hcount : (gbInputBufferTake s nowUs).2.count ≤ s.count := by
      rw [← InputBuffer.queue_length, ← InputBuffer.queue_length]
      obtain ⟨-, hqueue, -⟩ | ⟨-, -, hr⟩ | ⟨-, -, e, hqueue, -⟩ := hqueue
      · rw [hqueue]
        exact Nat.zero_le _
      · rw [hr]
      · rw [hqueue]
        exact Nat.le_succ _
    refine ⟨hhead, hcount.trans hinv.count, fun _ => henabled.trans (hinv.enabled harmed),
      fun h => absurd (harmed'.symm.trans h) (by decide), ?_⟩
    by_cases hdrops : (InputOp.take nowUs).Drops s
    · exact signal_follows ((InputBuffer.queue_eq_nil _).1 (take_drops hinv hdrops).1)
    · have hsignal := congrArg Prod.snd (take_kept hinv harmed hdrops).1
      rw [show (gbInputBufferTake s nowUs).2.signal = _ from hsignal]
      exact ⟨_, hfollows.take⟩

end Steps

/-! ## Runs -/

/-- The buffer stays armed and nothing is dropped. -/
def Undropped : List InputOp → InputBuffer → Prop
  | [], s => s.armed
  | op :: ops, s => s.armed ∧ ¬ op.Drops s ∧ Undropped ops (op.step s)

theorem Undropped.armed {ops : List InputOp} {s : InputBuffer} (h : Undropped ops s) : s.armed := by
  cases ops with
  | nil => exact h
  | cons op ops => exact h.1

end FoloGameboy

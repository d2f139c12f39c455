/-
The calls of the game, one access at a time, whatever the audio task does in between: a block that is
submitted is queued in the end, and a start or a stop leaves the audio running or off.
-/
import FoloGameboy.Audio.Task

namespace FoloGameboy

open Effect

/-! ## Between the accesses of the game -/

/-- The counters of the game, with blocks that are dropped and not counted yet, and blocks that are
counted and not sent yet. -/
structure Ledger (uncounted pending : Nat) (s : AudioState) : Prop where
  dropped : s.dropped + UInt32.ofNat uncounted = UInt32.ofNat (s.gone.filter fun e => e.2 = Gone.dropped).length
  submitted : s.submittedBlocks.toNat = s.accepted.length + pending
  played : s.failed = false → s.outputSamples = UInt32.ofNat s.played.length

/-- The handles tell whether the audio runs, and a task that has ended has said so. -/
structure AudioSettled (s : AudioState) : Prop where
  handle : s.handle = s.queue.isSome
  off : s.queue.isSome = false → s.task = none ∧ s.stopped = none
  ended : s.queue.isSome = true → s.task = none → s.stopped = some true

theorem AudioInv.taskStep {s s' : AudioState} (h : AudioInv s) (hstep : TaskStep s s') :
    AudioInv s' ∧ TaskFrame s s' := by
  obtain ⟨c, rfl⟩ := hstep
  exact audioTask_spec h c

theorem Ledger.frame {uncounted pending : Nat} {s s' : AudioState} (h : Ledger uncounted pending s)
    (hframe : TaskFrame s s') : Ledger uncounted pending s' := by
  refine ⟨?_, ?_, fun hok => ?_⟩
  · rw [hframe.dropped, hframe.lost .dropped (by decide)]
    exact h.dropped
  · unfold AudioState.accepted
    rw [hframe.submittedBlocks, hframe.sent]
    exact h.submitted
  · obtain ⟨hfailed, hcount⟩ := hframe.counted hok
    rw [h.played hfailed, UInt32.add_comm (UInt32.ofNat s.played.length)] at hcount
    exact (UInt32.add_left_inj _).1 hcount

theorem AudioSettled.frame {s s' : AudioState} (h : AudioSettled s) (hframe : TaskFrame s s') : AudioSettled s' := by
  refine ⟨?_, fun hoff => ?_, fun hon hnone => ?_⟩
  · rw [hframe.handle, hframe.hasQueue]
    exact h.handle
  · have hsame := hframe.ended (h.off (hframe.hasQueue ▸ hoff)).1
    rw [hsame] at hoff ⊢
    exact h.off hoff
  · cases hframe.ends hnone with
    | inl hold =>
      have hsame := hframe.ended hold
      rw [hsame] at hon hnone ⊢
      exact h.ended hon hnone
    | inr hgiven => exact hgiven

/-- Between two calls, of which at most `n` have submitted a block. -/
structure Resting (n : Nat) (s : AudioState) : Prop where
  inv : AudioInv s
  settled : AudioSettled s
  few : s.submittedBlocks.toNat ≤ n
  ledger : s.queue.isSome = true → Ledger 0 0 s

/-- While a block is submitted to a queue, which was sent `sent`. -/
structure Sending (n uncounted pending : Nat) (sent : List AudioBlock) (s : AudioState) : Prop where
  inv : AudioInv s
  settled : AudioSettled s
  few : s.submittedBlocks.toNat ≤ n
  hasQueue : s.queue.isSome = true
  ledger : Ledger uncounted pending s
  sent : s.sent = sent

theorem Resting.step {n : Nat} {s s' : AudioState} (h : Resting n s) (hstep : TaskStep s s') : Resting n s' := by
  obtain ⟨hinv, hframe⟩ := h.inv.taskStep hstep
  refine ⟨hinv, h.settled.frame hframe, ?_, fun hon => (h.ledger (hframe.hasQueue ▸ hon)).frame hframe⟩
  rw [hframe.submittedBlocks]
  exact h.few

theorem Resting.mono {n m : Nat} {s : AudioState} (h : Resting n s) (hle : n ≤ m) : Resting m s :=
  { h with few := Nat.le_trans h.few hle }

section
variable {n uncounted pending : Nat} {sent : List AudioBlock} {s s' : AudioState}

theorem Sending.step (h : Sending n uncounted pending sent s) (hstep : TaskStep s s') :
    Sending n uncounted pending sent s' := by
  obtain ⟨hinv, hframe⟩ := h.inv.taskStep hstep
  refine ⟨hinv, h.settled.frame hframe, ?_, ?_, h.ledger.frame hframe, hframe.sent.trans h.sent⟩
  · rw [hframe.submittedBlocks]
    exact h.few
  · rw [hframe.hasQueue]
    exact h.hasQueue

theorem Sending.resting (h : Sending n 0 0 sent s) : Resting n s := ⟨h.inv, h.settled, h.few, fun _ => h.ledger⟩

/-! ## The queue -/

/-- Room for one more block. -/
def HasRoom (s : AudioState) : Prop := (s.queue.getD []).length < 8

theorem HasRoom.step (hinv : AudioInv s) (h : HasRoom s) (hstep : TaskStep s s') : HasRoom s' :=
  Nat.lt_of_le_of_lt (hinv.taskStep hstep).2.shorter h

theorem accepted_snoc {block : AudioBlock} {queue : Option (List AudioBlock)} (s : AudioState) :
    AudioState.accepted { s with queue := queue, sent := s.sent ++ [block] } = s.accepted ++ sounding [block] :=
  sounding_append _ _

/-- A send is an append, or it finds the queue full. -/
theorem audioQueueSend_cases (block : AudioBlock) (h : s.queue.isSome = true) :
    (∃ queue, s.queue = some queue ∧ queue.length < 8 ∧
      audioQueueSend block s = (true, { s with queue := some (queue ++ [block]), sent := s.sent ++ [block] })) ∨
    ¬ HasRoom s ∧ audioQueueSend block s = (false, s) := by
  unfold audioQueueSend
  split
  case h_1 hnone =>
    rw [hnone] at h
    cases h
  case h_2 queue hsome =>
    by_cases hroom : queue.length < 8
    · rw [if_pos hroom]
      exact .inl ⟨queue, hsome, hroom, rfl⟩
    · rw [if_neg hroom]
      refine .inr ⟨?_, rfl⟩
      unfold HasRoom
      rw [hsome]
      exact hroom

/-- A block that was sent is the last in the queue. -/
theorem Sending.queued {block : AudioBlock} {queue : List AudioBlock} {pending' : Nat}
    (h : Sending n uncounted pending sent s) (hsome : s.queue = some queue) (hroom : queue.length < 8)
    (hblock : BlockOK block) (hpending : pending = pending' + (sounding [block]).length) :
    Sending n uncounted pending' (sent ++ [block])
      { s with queue := some (queue ++ [block]), sent := s.sent ++ [block] } := by
  obtain ⟨hinv, hsettled, hfew, hqueue, hledger, hsent⟩ := h
  refine ⟨{ hinv with alive := fun ht => ⟨rfl, (hinv.alive ht).2⟩, full := ?_, blocks := ?_, fifo := ?_ },
    ?_, hfew, rfl, ?_, ?_⟩
  · show (queue ++ [block]).length ≤ 8
    rw [List.length_append]
    exact hroom
  · intro b hb
    cases List.mem_append.1 hb with
    | inl hold => exact hinv.blocks b hold
    | inr hnew =>
      rw [List.mem_singleton.1 hnew]
      exact hblock
  · show s.sent ++ [block] = _ ++ (queue ++ [block])
    rw [hinv.fifo, hsome, List.append_assoc]
    rfl
  · refine ⟨?_, fun hoff => (by cases hoff), fun _ => hsettled.ended hqueue⟩
    rw [hsettled.handle, hsome]
    rfl
  · refine ⟨hledger.dropped, ?_, hledger.played⟩
    rw [accepted_snoc, List.length_append]
    have hsub := hledger.submitted
    show s.submittedBlocks.toNat = _
    omega
  · show s.sent ++ [block] = _
    rw [hsent]

/-- What is in the way leaves the queue, or the task has emptied it. -/
theorem audioQueueReceive_spec (h : Sending n 0 pending sent s) :
    HasRoom (audioQueueReceive s).2 ∧
      Sending n (if (audioQueueReceive s).1.isSome then 1 else 0) pending sent (audioQueueReceive s).2 := by
  unfold audioQueueReceive
  split
  case h_1 hnone =>
    have hqueue := h.hasQueue
    rw [hnone] at hqueue
    cases hqueue
  case h_2 hempty =>
    refine ⟨?_, h⟩
    unfold HasRoom
    rw [hempty]
    decide
  case h_3 block queue hsome =>
    obtain ⟨hinv, hsettled, hfew, hqueue, hledger, hsent⟩ := h
    have hfull := hinv.full
    rw [hsome] at hfull
    refine ⟨hfull, { hinv with alive := fun ht =>
      ⟨rfl, (hinv.alive ht).2⟩, full := Nat.le_of_succ_le hfull, fifo := ?_, task := ?_ },
      ?_, hfew, rfl, ?_, hsent⟩
    · show s.sent = (s.gone ++ [(block, Gone.dropped)]).map Prod.fst ++ queue
      rw [hinv.fifo, hsome, List.map_append, List.append_assoc]
      rfl
    · have hleft : AudioState.left .taken { s with queue := some queue, gone := s.gone ++ [(block, .dropped)] }
          = s.left .taken := by
        unfold AudioState.left
        rw [filter_snoc_other (by decide)]
      rw [hleft]
      exact hinv.task
    · refine ⟨?_, fun hoff => (by cases hoff), fun _ => hsettled.ended hqueue⟩
      rw [hsettled.handle, hsome]
      rfl
    · refine ⟨?_, hledger.submitted, hledger.played⟩
      show s.dropped + 1 = UInt32.ofNat ((s.gone ++ [(block, Gone.dropped)]).filter fun e => e.2 = Gone.dropped).length
      have hold := hledger.dropped
      rw [List.filter_append, List.length_append, UInt32.ofNat_add, ← hold]
      show _ = s.dropped + 0 + 1
      rw [UInt32.add_zero]

end

/-! ## `gb_audio_submit` -/

section
variable {n : Nat} {sent : List AudioBlock} {s : AudioState}

/-- A rule for an access of the game, from an assertion that the task keeps. -/
theorem wp_access {α : Type} {P : AudioState → Prop} {Q : α → AudioState → Prop}
    {o : AudioOp} {f : AudioRes o → AudioM α}
    (hstep : ∀ s s', P s → TaskStep s s' → P s') (hinv : ∀ s, P s → AudioInv s) (hs : P s)
    (h : ∀ s' r s'', P s' → AudioDone o s' r s'' → (f r).wp audioDevice Q AudioInv s'') :
    (audioAsk o >>= f).wp audioDevice Q AudioInv s :=
  Prog.wp_among hstep hinv hs h

/-- The block is queued in the end: after it failed once there is room, whatever the task does. -/
theorem audioSend_spec {block : AudioBlock} (h : Sending n 0 1 sent s) (hblock : BlockOK block)
    (hstop : block.stop = false) :
    (audioSend block).wp audioDevice (fun _ s' => Sending n 0 0 (sent ++ [block]) s') AudioInv s := by
  have hone : 1 = 0 + (sounding [block]).length := by rw [sounding_sound hstop]; rfl
  have hsent (s : AudioState) (queue : List AudioBlock) (h : Sending n 0 1 sent s) (hsome : s.queue = some queue)
      (hroom : queue.length < 8) := h.queued hsome hroom hblock hone
  unfold audioSend
  refine wp_access (fun _ _ => Sending.step) (fun _ h => h.inv) h fun s₁ r s₂ h₁ hdone => ?_
  have hdone : (r, s₂) = audioQueueSend block s₁ := hdone
  rcases audioQueueSend_cases block h₁.hasQueue with ⟨queue, hsome, hroom, heq⟩ | ⟨-, heq⟩
  · rw [heq] at hdone
    obtain ⟨rfl, rfl⟩ := Prod.mk.inj hdone
    exact hsent s₁ queue h₁ hsome hroom
  rw [heq] at hdone
  obtain ⟨rfl, rfl⟩ := Prod.mk.inj hdone
  refine wp_access (fun _ _ => Sending.step) (fun _ h => h.inv) h₁ fun s₃ stale s₄ h₃ hdone => ?_
  have hdone : (stale, s₄) = audioQueueReceive s₃ := hdone
  have hroom := audioQueueReceive_spec h₃
  rw [← hdone] at hroom
  obtain ⟨hroom, h₄⟩ := hroom
  -- the rest, with all that was dropped counted
  have hrest (s : AudioState) (h : Sending n 0 1 sent s) (hroom : HasRoom s) :
      (do let queued ← audioAsk (.queueSend block)
          (if queued then pure () else audioAsk .countDropped) : AudioM Unit).wp audioDevice
        (fun _ s' => Sending n 0 0 (sent ++ [block]) s') AudioInv s := by
    refine wp_access (P := fun s => Sending n 0 1 sent s ∧ HasRoom s)
      (fun _ _ h hstep => ⟨h.1.step hstep, h.2.step h.1.inv hstep⟩)
        (fun _ h => h.1.inv) ⟨h, hroom⟩ fun s₁ r s₂ h₁ hdone => ?_
    have hdone : (r, s₂) = audioQueueSend block s₁ := hdone
    rcases audioQueueSend_cases block h₁.1.hasQueue with ⟨queue, hsome, hroom, heq⟩ | ⟨hfull, -⟩
    · rw [heq] at hdone
      obtain ⟨rfl, rfl⟩ := Prod.mk.inj hdone
      exact hsent s₁ queue h₁.1 hsome hroom
    · exact absurd h₁.2 hfull
  cases stale with
  | none => exact hrest s₄ h₄ hroom
  | some stale =>
    refine wp_access (P := fun s => Sending n 1 1 sent s ∧ HasRoom s)
      (fun _ _ h hstep => ⟨h.1.step hstep, h.2.step h.1.inv hstep⟩)
        (fun _ h => h.1.inv) ⟨h₄, hroom⟩ fun s₅ r s₆ h₅ hdone => ?_
    have hdone : s₆ = { s₅ with dropped := s₅.dropped + 1 } := hdone
    rw [hdone]
    obtain ⟨h₅, hroom⟩ := h₅
    refine hrest _ ⟨{ h₅.inv with }, { h₅.settled with }, h₅.few,
      h₅.hasQueue, ⟨?_, h₅.ledger.submitted, h₅.ledger.played⟩, h₅.sent⟩ hroom
    show s₅.dropped + 1 + 0 = _
    rw [UInt32.add_zero]
    exact h₅.ledger.dropped

/-- The samples were queued as one block, or the call was ignored. -/
def Submitted (samples : Option (List Int)) (count : Nat) (s s' : AudioState) : Prop :=
  (∃ l block, samples = some l ∧ s'.sent = s.sent ++ [block] ∧
    block.stop = false ∧ block.samples = l.take GB_AUDIO_SAMPLES) ∨
  s'.sent = s.sent ∧ (s.queue = none ∨ samples = none ∨ count ≠ GB_AUDIO_SAMPLES ∨ s'.failed = true)

theorem gbAudioSubmit_spec {samples : Option (List Int)} {count : Nat} (h : Resting n s) (hn : n < BLOCKS_MAX)
    (hsamples : ∀ l, samples = some l → count ≤ l.length) :
    (gbAudioSubmit samples count).wp audioDevice
      (fun _ s' => Resting (n + 1) s' ∧ Submitted samples count s s') AudioInv s := by
  -- what the task leaves as it was
  have hsame (s₁ s₂ : AudioState) (h : Resting n s₁ ∧ s₁.sent = s.sent ∧ s₁.queue.isSome = s.queue.isSome)
      (hstep : TaskStep s₁ s₂) : Resting n s₂ ∧ s₂.sent = s.sent ∧ s₂.queue.isSome = s.queue.isSome := by
    have hframe := (h.1.inv.taskStep hstep).2
    exact ⟨h.1.step hstep, hframe.sent.trans h.2.1, hframe.hasQueue.trans h.2.2⟩
  unfold gbAudioSubmit
  refine wp_access hsame (fun _ h => h.1.inv) ⟨h, rfl, rfl⟩ fun s₁ hasQueue s₂ h₁ hdone => ?_
  obtain ⟨rfl, rfl⟩ := hdone
  obtain ⟨h₁, hsent, hqueue⟩ := h₁
  cases samples with
  | none => exact ⟨h₁.mono (Nat.le_succ n), .inr ⟨hsent, .inr (.inl rfl)⟩⟩
  | some samples =>
    by_cases hignored : ¬ s₂.queue.isSome = true ∨ count ≠ GB_AUDIO_SAMPLES
    · show Prog.wp _ _ _ (if _ then _ else _) _
      rw [if_pos hignored]
      refine ⟨h₁.mono (Nat.le_succ n), .inr ⟨hsent, ?_⟩⟩
      cases hignored with
      | inl hnone =>
        rw [hqueue] at hnone
        exact .inl (Option.not_isSome_iff_eq_none.1 hnone)
      | inr hcount => exact .inr (.inr (.inl hcount))
    · show Prog.wp _ _ _ (if _ then _ else _) _
      rw [if_neg hignored]
      obtain ⟨hsome, hcount⟩ := not_or.1 hignored
      have hsome := not_not.1 hsome
      have hcount := not_not.1 hcount
      refine wp_access hsame (fun _ h => h.1.inv) ⟨h₁, hsent, hqueue⟩ fun s₃ failed s₄ h₃ hdone => ?_
      obtain ⟨rfl, rfl⟩ := hdone
      obtain ⟨h₃, hsent, hqueue'⟩ := h₃
      by_cases hfailed : s₄.failed = true
      · rw [if_pos hfailed]
        exact ⟨h₃.mono (Nat.le_succ n), .inr ⟨hsent, .inr (.inr (.inr hfailed))⟩⟩
      rw [if_neg hfailed]
      refine wp_access hsame (fun _ h => h.1.inv) ⟨h₃, hsent, hqueue'⟩ fun s₅ number s₆ h₅ hdone => ?_
      obtain ⟨rfl, rfl⟩ := hdone
      obtain ⟨h₅, hsent, hqueue''⟩ := h₅
      have hon : s₅.queue.isSome = true := hqueue''.trans (hqueue.symm.trans hsome)
      have hfew := h₅.few
      have hnumber : (s₅.submittedBlocks + 1).toNat = s₅.submittedBlocks.toNat + 1 := by
        have hmax : n < 4000000000000 := hn
        rw [UInt64.toNat_add]
        exact Nat.mod_eq_of_lt (by show _ + 1 < _; omega)
      have hledger := h₅.ledger hon
      have h₆ : Sending (n + 1) 0 1 s.sent { s₅ with submittedBlocks := s₅.submittedBlocks + 1 } := by
        refine ⟨{ h₅.inv with }, { h₅.settled with }, ?_, hon, ⟨hledger.dropped, ?_, hledger.played⟩, hsent⟩
        · show (s₅.submittedBlocks + 1).toNat ≤ n + 1
          omega
        · show (s₅.submittedBlocks + 1).toNat = _
          have hsub := hledger.submitted
          rw [hnumber, hsub]
          rfl
      have hok : BlockOK (audioBlock (s₅.submittedBlocks + 1) samples) := by
        refine audioBlock_ok (by omega) (by omega) ?_
        rw [← hcount]
        exact hsamples samples rfl
      refine Prog.wp_mono (fun _ s' h => ?_) (fun _ h => h) (audioSend_spec h₆ hok rfl)
      have h : Sending (n + 1) 0 0 (s.sent ++ [audioBlock (s₅.submittedBlocks + 1) samples]) s' := h
      exact ⟨h.resting, .inl ⟨samples, _, rfl, h.sent, rfl, rfl⟩⟩

/-! ## `gb_audio_start` and `gb_audio_stop` -/

/-- Without a task nothing happens between two accesses. -/
theorem wp_still {α : Type} {Q : α → AudioState → Prop} {o : AudioOp} {f : AudioRes o → AudioM α} (hinv : AudioInv s)
    (hnone : s.task = none) (h : ∀ r s', AudioDone o s r s' → (f r).wp audioDevice Q AudioInv s') :
    (audioAsk o >>= f).wp audioDevice Q AudioInv s := by
  refine wp_access (P := (· = s)) ?_ (fun s' heq => heq ▸ hinv) rfl fun s' r s'' heq hdone => h r s'' (heq ▸ hdone)
  rintro s₁ s₂ rfl hstep
  exact (hinv.taskStep hstep).2.ended hnone

theorem left_discard (queue : List AudioBlock) (left : Option (List AudioBlock)) :
    (audioDiscard s queue left).left .taken = s.left .taken := by
  have hnone : (queue.map fun block => (block, Gone.discarded)).filter (fun e => e.2 = Gone.taken) = [] := by
    simp
  unfold AudioState.left audioDiscard
  rw [List.filter_append, hnone, List.append_nil]

/-- What waits is discarded, and the queue is empty or gone. -/
theorem AudioInv.discard {queue : List AudioBlock} {left : Option (List AudioBlock)} (h : AudioInv s)
    (hsome : s.queue = some queue) (hleft : left.getD [] = []) (htask : left = none → s.task = none) :
    AudioInv (audioDiscard s queue left) := by
  refine { h with alive := fun ht => ⟨?_, (h.alive ht).2⟩, full := ?_, fifo := ?_, task := ?_ }
  · cases left with
    | none =>
      have hnone := htask rfl
      have ht : s.task.isSome = true := ht
      rw [hnone] at ht
      cases ht
    | some left => rfl
  · show (left.getD []).length ≤ 8
    rw [hleft]
    exact Nat.zero_le _
  · show s.sent = (s.gone ++ _).map Prod.fst ++ left.getD []
    rw [hleft, List.append_nil, List.map_append, List.map_map, h.fifo, hsome]
    exact congrArg _ (List.map_id _).symm
  · rw [left_discard]
    exact h.task

/-- The audio is off, up to a semaphore or a queue nobody uses. -/
structure AudioOff (n : Nat) (s : AudioState) : Prop where
  inv : AudioInv s
  task : s.task = none
  handle : s.handle = false
  few : s.submittedBlocks.toNat ≤ n

theorem AudioOff.resting (h : AudioOff n s) (hqueue : s.queue = none) (hstopped : s.stopped = none) : Resting n s := by
  refine ⟨h.inv, ⟨?_, fun _ => ⟨h.task, hstopped⟩, fun hon => ?_⟩, h.few, fun hon => ?_⟩
  · rw [h.handle, hqueue]
    rfl
  · rw [hqueue] at hon
    cases hon
  · rw [hqueue] at hon
    cases hon

theorem AudioOff.withSemaphore (h : AudioOff n s) (stopped : Option Bool) (hstopped : stopped ≠ some true) :
    AudioOff n { s with stopped := stopped } := by
  refine ⟨{ h.inv with alive := fun ht => ?_, silent := ?_ }, h.task, h.handle, h.few⟩
  · have ht : s.task.isSome = true := ht
    rw [h.task] at ht
    cases ht
  · rintro (hgive | hgiven)
    · have hgive : s.task = some .give := hgive
      rw [h.task] at hgive
      cases hgive
    · exact absurd hgiven hstopped

theorem audioSemaphoreDelete_eq {given : Bool} (h : s.stopped = some given) :
    audioSemaphoreDelete s = { s with stopped := none } := by
  unfold audioSemaphoreDelete
  rw [h]

/-- What exists is deleted, and the audio is off. -/
theorem audioUndo_spec {queue stopped : Bool} (h : AudioOff n s) (hqueue : s.queue.isSome = queue)
    (hstopped : s.stopped.isSome = stopped) :
    (audioUndo queue stopped).wp audioDevice (fun _ s' => Resting n s') AudioInv s := by
  subst hqueue hstopped
  unfold audioUndo
  have hsemaphore (s : AudioState) (h : AudioOff n s) (hqueue : s.queue = none) :
      (do (if s.stopped.isSome then audioAsk .semaphoreDelete else pure ())
          pure false : AudioM Bool).wp audioDevice (fun _ s' => Resting n s') AudioInv s := by
    cases hstopped : s.stopped with
    | none => exact h.resting hqueue hstopped
    | some b =>
      refine wp_still h.inv h.task fun r s' hdone => ?_
      have hdone : s' = audioSemaphoreDelete s := hdone
      rw [hdone, audioSemaphoreDelete_eq hstopped]
      exact (h.withSemaphore none (fun heq => by cases heq)).resting hqueue rfl
  cases hqueue : s.queue with
  | none => exact hsemaphore s h hqueue
  | some queue =>
    refine wp_still h.inv h.task fun r s' hdone => ?_
    have hdone : s' = audioQueueReset none s := hdone
    unfold audioQueueReset at hdone
    rw [hqueue] at hdone
    have hdone : s' = audioDiscard s queue none := hdone
    rw [hdone]
    exact hsemaphore _ ⟨h.inv.discard hqueue rfl fun _ => h.task, h.task, h.handle, h.few⟩ rfl

/-- Nothing has been sent yet. -/
structure Unused (s : AudioState) : Prop where
  queue : s.queue = some []
  sent : s.sent = []
  gone : s.gone = []
  played : s.played = []

theorem AudioOff.withVolume (h : AudioOff n s) (hstopped : s.stopped ≠ some true) (volume : UInt8) :
    AudioOff n { s with volume := volume } := by
  refine ⟨{ h.inv with silent := ?_ }, h.task, h.handle, h.few⟩
  rintro (hgive | hgiven)
  · have hgive : s.task = some .give := hgive
    rw [h.task] at hgive
    cases hgive
  · exact absurd hgiven hstopped

theorem AudioOff.created (h : AudioOff n s) :
    AudioOff n { s with queue := some [], sent := [], gone := [], played := [] } := by
  refine ⟨{ h.inv with
    alive := fun ht => ?_, full := Nat.zero_le _, blocks := fun _ hb =>
      (by cases hb), fifo := rfl, task := ?_, silent := ?_ },
    h.task, h.handle, h.few⟩
  · have ht : s.task.isSome = true := ht
    rw [h.task] at ht
    cases ht
  · show TaskOK s.task s.output [] (pcm [])
    rw [h.task]
    exact ⟨[], rfl, Nat.zero_le _⟩
  · exact h.inv.silent

/-- The statics as `gb_audio_start` sets them. -/
def audioReset (s : AudioState) : AudioState :=
  { s with
    failed := false, stopRequested := false, dropped := 0, outputSamples := 0, waits := 0, maxWaitUs := 0
    submittedBlocks := 0 }

theorem AudioOff.reset (h : AudioOff n s) : AudioOff n (audioReset s) :=
  ⟨{ h.inv with }, h.task, h.handle, Nat.zero_le _⟩

/-- With a new task everything is counted from zero. -/
theorem Unused.launched (h : AudioOff n s) (hs : Unused s) (hstopped : s.stopped = some false)
    (hdropped : s.dropped = 0) (hsubmitted : s.submittedBlocks = 0) (houtput : s.outputSamples = 0) :
    Resting n { s with task := some .prebuffer, handle := true } := by
  obtain ⟨hqueue, hsent, hgone, hplayed⟩ := hs
  have hon : s.queue.isSome = true := by rw [hqueue]; rfl
  refine ⟨{ h.inv with alive := fun _ => ⟨hon, hstopped⟩, task := ?_, silent := ?_ },
    ⟨hon.symm, fun hoff => ?_, fun _ hnone => ?_⟩,
    h.few, fun _ => ⟨?_, ?_, fun _ => ?_⟩⟩
  · show s.played = pcm (sounding ((s.gone.filter _).map _))
    rw [hplayed, hgone]
    rfl
  · rintro (hgive | hgiven)
    · cases hgive
    · have hgiven : s.stopped = some true := hgiven
      rw [hstopped] at hgiven
      cases hgiven
  · have hoff : s.queue.isSome = false := hoff
    rw [hon] at hoff
    cases hoff
  · cases hnone
  · show s.dropped + 0 = UInt32.ofNat (s.gone.filter _).length
    rw [hdropped, hgone]
    rfl
  · show s.submittedBlocks.toNat = (sounding s.sent).length + 0
    rw [hsubmitted, hsent]
    rfl
  · show s.outputSamples = UInt32.ofNat s.played.length
    rw [houtput, hplayed]
    rfl

theorem audioLaunch_spec (volume : UInt8) (h : AudioOff n s) (hs : Unused s) (hstopped : s.stopped = some false) :
    (audioLaunch volume).wp audioDevice (fun _ s' => Resting n s') AudioInv s := by
  have hgiven : s.stopped ≠ some true := by
    rw [hstopped]
    decide
  unfold audioLaunch
  refine wp_still h.inv h.task fun _ s₁ hdone => ?_
  obtain rfl := hdone
  refine wp_still h.reset.inv h.task fun _ s₂ hdone => ?_
  obtain rfl := hdone
  have h₂ := h.reset.withVolume hgiven volume
  refine wp_still h₂.inv h.task fun created s₃ hdone => ?_
  obtain rfl := hdone
  cases created with
  | true => exact Unused.launched h₂ ⟨hs.queue, hs.sent, hs.gone, hs.played⟩ hstopped rfl rfl rfl
  | false =>
    refine wp_still h₂.inv h.task fun _ s₄ hdone => ?_
    obtain rfl := hdone
    have h₄ := h₂.withVolume hgiven 0
    refine audioUndo_spec h₄ ?_ ?_
    · show s.queue.isSome = true
      rw [hs.queue]
      rfl
    · show s.stopped.isSome = true
      rw [hstopped]
      rfl

theorem gbAudioStart_spec (volume : UInt8) (h : Resting n s) :
    (gbAudioStart volume).wp audioDevice (fun _ s' => Resting n s') AudioInv s := by
  unfold gbAudioStart
  refine wp_access (P := Resting n) (fun _ _ => Resting.step) (fun _ h => h.inv) h fun s₁ inUse s₂ h₁ hdone => ?_
  obtain ⟨rfl, rfl⟩ := hdone
  by_cases hinUse : (s₂.handle || s₂.queue.isSome) = true
  · rw [if_pos hinUse]
    exact h₁
  rw [if_neg hinUse]
  rw [h₁.settled.handle, Bool.or_self] at hinUse
  have hnone : s₂.queue = none := Option.not_isSome_iff_eq_none.1 hinUse
  obtain ⟨htask, hstopped⟩ := h₁.settled.off (Bool.eq_false_iff.2 hinUse)
  have hoff : AudioOff n s₂ := ⟨h₁.inv, htask, by rw [h₁.settled.handle, hnone]; rfl, h₁.few⟩
  refine wp_still h₁.inv htask fun playback s₃ hdone => ?_
  obtain rfl := hdone
  -- the codec is ready or not
  have hready : ∀ ready : Bool, Prog.wp audioDevice (fun _ s' => Resting n s') AudioInv
      (if ¬ ready then pure false
       else do
        let queue ← audioAsk .queueCreate
        let stopped ← audioAsk .semaphoreCreate
        if ¬ queue ∨ ¬ stopped then audioUndo queue stopped else audioLaunch volume : AudioM Bool) s₃ := by
    intro ready
    cases ready with
    | false => exact h₁
    | true =>
      rw [if_neg (by decide)]
      refine wp_still h₁.inv htask fun queue s₄ hdone => ?_
      have hdone : s₄ = if queue then { s₃ with queue := some [], sent := [], gone := [], played := [] }
          else s₃ := hdone
      have h₄ : AudioOff n s₄ ∧ s₄.queue.isSome = queue ∧ s₄.stopped = none ∧ (queue = true → Unused s₄) := by
        cases queue with
        | false =>
          rw [hdone]
          exact ⟨hoff, by show s₃.queue.isSome = false; rw [hnone]; rfl, hstopped, fun heq => by cases heq⟩
        | true =>
          rw [hdone]
          exact ⟨hoff.created, rfl, hstopped, fun _ => ⟨rfl, rfl, rfl, rfl⟩⟩
      clear hdone
      obtain ⟨h₄, hqueue, hstopped, hunused⟩ := h₄
      refine wp_still h₄.inv h₄.task fun stopped s₅ hdone => ?_
      have hdone : s₅ = if stopped then { s₄ with stopped := some false } else s₄ := hdone
      have h₅ : AudioOff n s₅ ∧ s₅.queue = s₄.queue ∧ s₅.stopped.isSome = stopped ∧
          (stopped = true → s₅.stopped = some false ∧ (Unused s₄ → Unused s₅)) := by
        cases stopped with
        | false =>
          rw [hdone]
          exact ⟨h₄, rfl, by show s₄.stopped.isSome = false; rw [hstopped]; rfl, fun heq => by cases heq⟩
        | true =>
          rw [hdone]
          exact ⟨h₄.withSemaphore _ (by decide), rfl, rfl, fun _ => ⟨rfl, fun h => ⟨h.queue, h.sent, h.gone, h.played⟩⟩⟩
      clear hdone
      obtain ⟨h₅, hqueue', hsemaphore, hready⟩ := h₅
      by_cases hfail : ¬ queue = true ∨ ¬ stopped = true
      · rw [if_pos hfail]
        exact audioUndo_spec h₅ (hqueue' ▸ hqueue) hsemaphore
      · rw [if_neg hfail]
        obtain ⟨hqueue, hstopped⟩ := not_or.1 hfail
        obtain ⟨hfalse, hunused'⟩ := hready (not_not.1 hstopped)
        exact audioLaunch_spec volume h₅ (hunused' (hunused (not_not.1 hqueue))) hfalse
  cases playback with
  | false => exact hready false
  | true =>
    refine wp_still h₁.inv htask fun ready s₄ hdone => ?_
    obtain rfl := hdone
    exact hready ready

/-- The task is to stop, and will not wait for a block in vain. -/
structure Stopping (n : Nat) (s : AudioState) : Prop where
  resting : Resting n s
  hasQueue : s.queue.isSome = true
  requested : s.stopRequested = true
  queued : ∀ i count, s.task = some (.receive i count) → ∃ block ∈ s.queue.getD [], block.stop = true

theorem Resting.sending (h : Resting n s) (hon : s.queue.isSome = true) : Sending n 0 0 s.sent s :=
  ⟨h.inv, h.settled, h.few, hon, h.ledger hon, rfl⟩

/-- With a stop requested, all that waits is discarded. -/
theorem Resting.discarded {queue : List AudioBlock} (h : Resting n s) (hsome : s.queue = some queue) :
    Resting n (audioDiscard s queue (some [])) := by
  have hon : s.queue.isSome = true := by rw [hsome]; rfl
  refine ⟨h.inv.discard hsome rfl fun hnone => (by cases hnone),
    ⟨?_, fun hoff => (by cases hoff), fun _ => h.settled.ended hon⟩,
    h.few, fun _ => { h.ledger hon with dropped := ?_ }⟩
  · show s.handle = true
    rw [h.settled.handle, hon]
  · have hnone : (queue.map fun block => (block, Gone.discarded)).filter (fun e => e.2 = Gone.dropped) = [] := by
      simp
    show _ = UInt32.ofNat ((s.gone ++ _).filter _).length
    rw [List.filter_append, hnone, List.append_nil]
    exact (h.ledger hon).dropped

theorem audioSignal_spec (h : Resting n s) (hon : s.queue.isSome = true) :
    (audioSignal).wp audioDevice (fun _ s' => Stopping n s') AudioInv s := by
  -- what the task leaves as it was
  have hsame (s₁ s₂ : AudioState) (h : Resting n s₁ ∧ s₁.queue.isSome = true ∧ s₁.stopRequested = true)
      (hstep : TaskStep s₁ s₂) : Resting n s₂ ∧ s₂.queue.isSome = true ∧ s₂.stopRequested = true := by
    have hframe := (h.1.inv.taskStep hstep).2
    exact ⟨h.1.step hstep, hframe.hasQueue.trans h.2.1, hframe.stopRequested.trans h.2.2⟩
  unfold audioSignal
  refine wp_access (P := fun s => Resting n s ∧ s.queue.isSome = true)
    (fun _ _ h hstep => ⟨h.1.step hstep, (h.1.inv.taskStep hstep).2.hasQueue.trans h.2⟩) (fun _ h => h.1.inv) ⟨h, hon⟩
    fun s₁ _ s₂ h₁ hdone => ?_
  have h₂ : Resting n s₂ ∧ s₂.queue.isSome = true ∧ s₂.stopRequested = true := by
    obtain rfl := hdone
    obtain ⟨h₁, hon⟩ := h₁
    exact ⟨⟨{ h₁.inv with }, { h₁.settled with }, h₁.few, fun hon => { h₁.ledger hon with }⟩, hon, rfl⟩
  clear hdone
  refine wp_access hsame (fun _ h => h.1.inv) h₂ fun s₃ _ s₄ h₃ hdone => ?_
  obtain ⟨h₃, hon₃, hstop₃⟩ := h₃
  obtain ⟨queue, hqueue⟩ := Option.isSome_iff_exists.1 hon₃
  have h₄ : (Resting n s₄ ∧ s₄.queue.isSome = true ∧ s₄.stopRequested = true) ∧ HasRoom s₄ := by
    have hdone : s₄ = audioQueueReset (some []) s₃ := hdone
    unfold audioQueueReset at hdone
    rw [hqueue] at hdone
    rw [hdone]
    refine ⟨⟨h₃.discarded hqueue, rfl, hstop₃⟩, ?_⟩
    show ([] : List AudioBlock).length < 8
    decide
  clear hdone
  refine wp_access (P := fun s => (Resting n s ∧ s.queue.isSome = true ∧ s.stopRequested = true) ∧ HasRoom s)
    (fun _ _ h hstep => ⟨hsame _ _ h.1 hstep, h.2.step h.1.1.inv hstep⟩)
      (fun _ h => h.1.1.inv) h₄ fun s₅ r s₆ h₅ hdone => ?_
  obtain ⟨⟨h₅, hon₅, hstop₅⟩, hroom⟩ := h₅
  have hdone : (r, s₆) = audioQueueSend { stop := true } s₅ := hdone
  rcases audioQueueSend_cases { stop := true } hon₅ with ⟨queue, hsome, hlt, heq⟩ | ⟨hfull, -⟩
  · rw [heq] at hdone
    obtain ⟨rfl, rfl⟩ := Prod.mk.inj hdone
    have hok : BlockOK { stop := true } := fun hstop => (by cases hstop)
    have hsent := @Sending.queued _ _ _ _ _ _ _ 0 (h₅.sending hon₅) hsome hlt hok (by rw [sounding_stop rfl]; rfl)
    exact ⟨hsent.resting, rfl, hstop₅, fun _ _ _ => ⟨_, List.mem_append_right _ List.mem_cons_self, rfl⟩⟩
  · exact absurd hroom hfull

/-- Nothing of the audio is left. -/
structure Released (s : AudioState) : Prop where
  task : s.task = none
  queue : s.queue = none
  stopped : s.stopped = none
  handle : s.handle = false

theorem audioRelease_spec {given : Bool} (hinv : AudioInv s) (hfew : s.submittedBlocks.toNat ≤ n)
    (hon : s.queue.isSome = true) (hstopped : s.stopped = some given) (htask : s.task = none) :
    (audioRelease).wp audioDevice
      (fun r s' => Resting n s' ∧ Released s' ∧ r = !s'.failed ∧ s'.volume = s.volume) AudioInv s := by
  unfold audioRelease
  refine wp_still hinv htask fun _ s₁ hdone => ?_
  obtain rfl := hdone
  have h₁ : AudioOff n { s with handle := false } := ⟨{ hinv with }, htask, rfl, hfew⟩
  refine wp_still h₁.inv htask fun _ s₂ hdone => ?_
  obtain ⟨queue, hqueue⟩ := Option.isSome_iff_exists.1 hon
  have hdone : s₂ = audioQueueReset none { s with handle := false } := hdone
  unfold audioQueueReset at hdone
  dsimp only at hdone
  rw [hqueue] at hdone
  have h₂ : AudioOff n s₂ ∧ s₂.queue = none ∧ s₂.stopped = some given ∧ s₂.volume = s.volume := by
    rw [hdone]
    exact ⟨⟨h₁.inv.discard hqueue rfl fun _ => htask, htask, rfl, hfew⟩, rfl, hstopped, rfl⟩
  clear hdone
  obtain ⟨h₂, hnone, hstopped, hvolume⟩ := h₂
  refine wp_still h₂.inv h₂.task fun _ s₃ hdone => ?_
  obtain rfl : s₃ = { s₂ with stopped := none } := Eq.trans hdone (audioSemaphoreDelete_eq hstopped)
  have h₃ := h₂.withSemaphore none (fun heq => by cases heq)
  refine wp_still h₃.inv h₃.task fun failed s₄ hdone => ?_
  obtain ⟨rfl, rfl⟩ := hdone
  exact ⟨h₃.resting hnone rfl, ⟨h₃.task, hnone, rfl, h₃.handle⟩, rfl, hvolume⟩

/-- Once the semaphore is given the task has ended, and everything is released. -/
theorem audioEnded_spec (h : Stopping n s) (hgiven : s.stopped = some true) :
    (audioRelease).wp audioDevice
      (fun r s' => Resting n s' ∧ Released s' ∧ r = !s'.failed ∧ s'.volume = 0) AudioInv
      { s with stopped := some false } := by
  have hinv := h.resting.inv
  have htask : s.task = none := by
    cases hsome : s.task with
    | none => rfl
    | some at? =>
      have halive := (hinv.alive (by rw [hsome]; rfl)).2
      rw [hgiven] at halive
      cases halive
  have hnot : (some false : Option Bool) ≠ some true := by decide
  have hinv' : AudioInv { s with stopped := some false } := by
    refine { hinv with alive := fun ht => ?_, silent := ?_ }
    · have ht : s.task.isSome = true := ht
      rw [htask] at ht
      cases ht
    · rintro (hgive | hfalse)
      · exact hinv.silent (.inl hgive)
      · exact absurd hfalse hnot
  have hvolume := hinv.silent (.inr hgiven)
  refine Prog.wp_mono (fun r s' hs => ?_) (fun _ h => h) (audioRelease_spec hinv' h.resting.few h.hasQueue rfl htask)
  have hs : Resting n s' ∧ Released s' ∧ r = !s'.failed ∧ s'.volume = s.volume := hs
  exact ⟨hs.1, hs.2.1, hs.2.2.1, hs.2.2.2.trans hvolume⟩

theorem Resting.released (h : Resting n s) (hoff : s.queue = none) : Released s := by
  have hnone : s.queue.isSome = false := by rw [hoff]; rfl
  exact ⟨(h.settled.off hnone).1, hoff, (h.settled.off hnone).2, h.settled.handle.trans hnone⟩

end

end FoloGameboy

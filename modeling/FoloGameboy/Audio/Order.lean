/-
What is heard. Over every schedule of the game and the audio task, the codec is handed the samples of
submitted blocks, in the order of their submission and none twice; what it is not handed was dropped,
discarded by a stop, or still waits, and no access is to a queue, a semaphore or a sample that does
not exist. A stop ends the task within seven of its steps.
-/
import FoloGameboy.Audio.Calls

namespace FoloGameboy

open Effect

/-! ## The way of the task to its end -/

/-- How many steps the task has left when it is to stop. -/
def stepsLeft : Option TaskAt → Nat
  | some (.receive 0 _) => 7
  | some (.receive _ _) => 6
  | some .prebuffer => 6
  | some .prebufferStop => 5
  | some (.write _) => 5
  | some .round => 4
  | some .quiet => 3
  | some .give => 2
  | none => 0

theorem stepsLeft_le (at? : Option TaskAt) : stepsLeft at? ≤ 7 := by
  unfold stepsLeft
  split <;> decide

section
variable {n : Nat} {s s' : AudioState}

/-- The stop is still in the queue while the task waits for blocks. -/
theorem audioTask_queued (h : Stopping n s) (c : TaskChance) :
    (∀ i count, (audioTask c s).task = some (.receive i count) →
      ∃ block ∈ (audioTask c s).queue.getD [], block.stop = true) ∧
    (s.task ≠ none → stepsLeft (audioTask c s).task < stepsLeft s.task) := by
  have hinv := h.resting.inv
  obtain ⟨queue, hsome⟩ := Option.isSome_iff_exists.1 h.hasQueue
  have hok := hinv.task
  unfold audioTask
  split
  case h_1 hnone =>
    refine ⟨fun i count htask => ?_, fun hsome => absurd hnone hsome⟩
    rw [hnone] at htask
    cases htask
  case h_2 htask =>
    rw [hsome, htask]
    dsimp only
    split
    · exact ⟨fun _ _ heq => (by cases heq), fun _ => by decide⟩
    · exact ⟨fun _ _ heq => (by cases heq), fun _ => by decide⟩
  case h_3 htask =>
    rw [htask, h.requested, if_pos rfl]
    exact ⟨fun _ _ heq => (by cases heq), fun _ => by show 4 < 5; decide⟩
  case h_4 htask =>
    rw [htask, h.requested, if_pos rfl]
    exact ⟨fun _ _ heq => (by cases heq), fun _ => by show 3 < 4; decide⟩
  case h_5 i count htask =>
    -- the wait cannot last: the stop is in the queue, so there is a block to take
    obtain ⟨block, hmem, hstop⟩ := h.queued i count htask
    have hrank : stepsLeft s.task = stepsLeft (some (.receive i count)) := by rw [htask]
    rw [htask] at hok
    rw [hsome] at hmem ⊢
    obtain ⟨hi, hcount, -⟩ := hok
    cases queue with
    | nil => cases hmem
    | cons first queue =>
      dsimp only
      by_cases hfirst : first.stop = true
      · have heq : audioReceived c i count first { s with queue := some queue, gone := s.gone ++ [(first, .taken)] } =
            { s with queue := some queue, gone := s.gone ++ [(first, .taken)], task := some .quiet } := if_pos hfirst
        rw [heq, hrank]
        refine ⟨fun _ _ heq => (by cases heq), fun _ => ?_⟩
        cases i with
        | zero => show 3 < 7; decide
        | succ i => show 3 < 6; decide
      · have hfirst : first.stop = false := Bool.eq_false_iff.2 hfirst
        have hsent : first ∈ s.sent := by
          rw [hinv.fifo, hsome]
          exact List.mem_append_right _ List.mem_cons_self
        have hsamples := (hinv.blocks first hsent hfirst).2
        have hroom := round_room hi hcount hsamples hinv.output
        obtain ⟨output', -, -, heq⟩ := audioReceived_eq (c := c) (i := i) (hinv.blocks first hsent) hfirst
          (s := { s with queue := some queue, gone := s.gone ++ [(first, .taken)] }) hroom
        rw [heq, hrank]
        -- the stop is behind the block taken
        have hrest : ∃ block ∈ queue, block.stop = true := by
          cases List.mem_cons.1 hmem with
          | inl heq =>
            rw [heq, hfirst] at hstop
            cases hstop
          | inr hrest => exact ⟨block, hrest, hstop⟩
        refine ⟨fun _ _ _ => hrest, fun _ => ?_⟩
        dsimp only
        split
        · have hzero : i = 0 := by omega
          rw [hzero]
          show 6 < 7
          decide
        · have hone : i = 1 := by omega
          rw [hone]
          show 5 < 6
          decide
  case h_6 count htask =>
    rw [htask]
    unfold audioWrite
    split
    · exact ⟨fun _ _ heq => (by cases heq), fun _ => by show 4 < 5; decide⟩
    · exact ⟨fun _ _ heq => (by cases heq), fun _ => by show 3 < 5; decide⟩
  case h_7 htask =>
    rw [htask]
    exact ⟨fun _ _ heq => (by cases heq), fun _ => by show 2 < 3; decide⟩
  case h_8 htask =>
    rw [htask]
    have halive := (hinv.alive (by rw [htask]; rfl)).2
    rw [halive]
    exact ⟨fun _ _ heq => (by cases heq), fun _ => by show 0 < 2; decide⟩

theorem Stopping.step (h : Stopping n s) (hstep : TaskStep s s') :
    Stopping n s' ∧ stepsLeft s'.task ≤ stepsLeft s.task - 1 := by
  have hframe := (h.resting.inv.taskStep hstep).2
  have hresting := h.resting.step hstep
  have hrequested := hframe.stopRequested.trans h.requested
  have hqueue := hframe.hasQueue.trans h.hasQueue
  obtain ⟨c, rfl⟩ := hstep
  obtain ⟨hqueued, hless⟩ := audioTask_queued h c
  refine ⟨⟨hresting, hqueue, hrequested, hqueued⟩, ?_⟩
  by_cases hnone : s.task = none
  · rw [hframe.ended hnone, hnone]
    decide
  · exact Nat.le_sub_one_of_lt (hless hnone)

/-! ## `gb_audio_stop` -/

theorem stopping_stable (s s' : AudioState) (h : Stopping n s) (hstep : TaskStep s s') : Stopping n s' :=
  (h.step hstep).1

/-- A stop finds the audio off, releases everything, or its wait is over too early. -/
theorem gbAudioStop_wp {D : Device AudioOp AudioRes AudioState} (hD : D.Refines audioDevice)
    {Q : Bool → AudioState → Prop} (h : Resting n s)
    (hoff : ∀ s', Resting n s' → Released s' → s.queue.isSome = false → Q true s')
    (hended : ∀ r s', Resting n s' → Released s' → r = !s'.failed → s'.volume = 0 → s.queue.isSome = true → Q r s')
    (hlate : ∀ s₁ s₂, Stopping n s₁ → D.done .semaphoreTake s₁ false s₂ → Q false s₂) :
    (gbAudioStop).wp D Q AudioInv s := by
  have hstable (s₁ s₂ : AudioState) (h : Resting n s₁ ∧ s₁.queue.isSome = s.queue.isSome) (hstep : TaskStep s₁ s₂) :
      Resting n s₂ ∧ s₂.queue.isSome = s.queue.isSome :=
    ⟨h.1.step hstep, (h.1.inv.taskStep hstep).2.hasQueue.trans h.2⟩
  unfold gbAudioStop
  refine Prog.wp_perform (fun hasQueue s₂ hdone => ?_) (fun s' hcut => ?_)
  case refine_2 => exact (stable_reflTransGen hstable ⟨h, rfl⟩ (hD.cut _ _ _ hcut)).1.inv
  obtain ⟨s₁, henv, hdone⟩ := hD.done _ _ _ _ hdone
  obtain ⟨h₁, hqueue⟩ := stable_reflTransGen hstable ⟨h, rfl⟩ henv
  obtain ⟨rfl, rfl⟩ := hdone
  by_cases hon : s₂.queue.isSome = true
  · rw [if_neg (not_not.2 hon)]
    refine Prog.wp_seq (Prog.wp_refines hD (audioSignal_spec h₁ hon)) fun _ s₃ h₃ => ?_
    refine Prog.wp_perform (fun ended s₄ hdone => ?_) (fun s' hcut => ?_)
    case refine_2 => exact (stable_reflTransGen stopping_stable h₃ (hD.cut _ _ _ hcut)).resting.inv
    cases ended with
    | false => exact hlate s₃ s₄ h₃ hdone
    | true =>
      obtain ⟨s₅, henv, htaken, hdone⟩ := hD.done _ _ _ _ hdone
      have h₅ := stable_reflTransGen stopping_stable h₃ henv
      have hgiven : s₅.stopped = some true := eq_of_beq htaken.symm
      rw [hgiven] at hdone
      have hdone : s₄ = { s₅ with stopped := some false } := hdone
      rw [hdone]
      refine Prog.wp_mono (fun r s' hs => ?_) (fun _ h => h) (Prog.wp_refines hD (audioEnded_spec h₅ hgiven))
      have hs : Resting n s' ∧ Released s' ∧ r = !s'.failed ∧ s'.volume = 0 := hs
      exact hended r s' hs.1 hs.2.1 hs.2.2.1 hs.2.2.2 (hqueue ▸ hon)
  · rw [if_pos hon]
    have hnone := Option.not_isSome_iff_eq_none.1 hon
    exact hoff s₂ h₁ (h₁.released hnone) (hqueue ▸ Bool.eq_false_iff.2 hon)

theorem gbAudioStop_spec (h : Resting n s) :
    (gbAudioStop).wp audioDevice (fun r s' => Resting n s' ∧ (r = true → Released s')) AudioInv s := by
  refine gbAudioStop_wp ⟨fun _ _ _ _ h => h, fun _ _ _ h => h⟩ h (fun s' h hs _ => ⟨h, fun _ => hs⟩)
    (fun r s' h hs _ _ _ => ⟨h, fun _ => hs⟩) fun s₁ s₂ h₁ hdone => ?_
  obtain ⟨s₀, henv, htaken, hdone⟩ := hdone
  have h₀ := stable_reflTransGen stopping_stable h₁ henv
  have hsame : s₂ = s₀ := by
    cases hstopped : s₀.stopped with
    | none =>
      have hended := h₀.resting.settled.ended h₀.hasQueue
      cases htask : s₀.task with
      | none =>
        rw [hstopped] at hended
        cases hended htask
      | some at? =>
        have halive := (h₀.resting.inv.alive (by rw [htask]; rfl)).2
        rw [hstopped] at halive
        cases halive
    | some given =>
      rw [hstopped] at htaken hdone
      cases given with
      | true => cases htaken
      | false =>
        have hdone : s₂ = { s₀ with stopped := some false } := hdone
        rw [hdone, ← hstopped]
  rw [hsame]
  exact ⟨h₀.resting, fun heq => by cases heq⟩

end

/-! ## Runs -/

/-- A call of the game: what `gb_audio_submit` is given holds as many samples as it is told. -/
inductive AudioCall where
  | start (volume : UInt8)
  | submit (samples : Option (List Int)) (count : Nat) (h : ∀ l, samples = some l → count ≤ l.length)
  | stop

def AudioCall.prog : AudioCall → AudioM Unit
  | .start volume => do
    let _ ← gbAudioStart volume
    pure ()
  | .submit samples count _ => gbAudioSubmit samples count
  | .stop => do
    let _ ← gbAudioStop
    pure ()

/-- The states between calls, the last one first. -/
inductive AudioRun : List AudioCall → AudioState → Prop where
  | boot : AudioRun [] {}
  | task {calls : List AudioCall} {s s' : AudioState} (h : AudioRun calls s) (hstep : TaskStep s s') : AudioRun calls s'
  | call {calls : List AudioCall} {s s' : AudioState} {call : AudioCall} (h : AudioRun calls s)
      (hcall : call.prog.Exec audioDevice s (some ()) s') : AudioRun (call :: calls) s'

/-- The states of a run, those within its last call included. -/
inductive AudioReached : List AudioCall → AudioState → Prop where
  | between {calls : List AudioCall} {s : AudioState} (h : AudioRun calls s) : AudioReached calls s
  | within {calls : List AudioCall} {s s' : AudioState} {call : AudioCall} (h : AudioRun calls s)
      (hcall : call.prog.Exec audioDevice s none s') : AudioReached (call :: calls) s'

theorem AudioCall.prog_spec {n : Nat} {s : AudioState} (call : AudioCall) (h : Resting n s) (hn : n < BLOCKS_MAX) :
    call.prog.wp audioDevice (fun _ s' => Resting (n + 1) s') AudioInv s := by
  cases call with
  | start volume =>
    exact Prog.wp_seq (gbAudioStart_spec volume h) fun _ s' h => Resting.mono h (Nat.le_succ n)
  | submit samples count hsamples =>
    exact Prog.wp_mono (fun _ _ h => And.left h) (fun _ h => h) (gbAudioSubmit_spec h hn hsamples)
  | stop => exact Prog.wp_seq (gbAudioStop_spec h) fun _ s' h => Resting.mono (And.left h) (Nat.le_succ n)

theorem AudioRun.resting {calls : List AudioCall} {s : AudioState}
    (h : AudioRun calls s) (hlen : calls.length ≤ BLOCKS_MAX) :
    Resting calls.length s := by
  induction h with
  | boot =>
    refine ⟨⟨rfl, fun h => (by cases h), Nat.zero_le _, fun _ h => (by cases h), rfl, List.length_replicate,
      ⟨[], rfl, Nat.zero_le _⟩, fun _ => rfl⟩, ⟨rfl, fun _ => ⟨rfl, rfl⟩, fun h => (by cases h)⟩,
        Nat.zero_le _, fun h => (by cases h)⟩
  | task _ hstep ih => exact (ih hlen).step hstep
  | call _ hcall ih =>
    exact Prog.wp_exec (AudioCall.prog_spec _ (ih (Nat.le_of_succ_le hlen)) hlen) hcall

/-! ## What was submitted -/

/-- The samples the calls have submitted, the first ones first. -/
def submissions : List AudioCall → List (List Int)
  | [] => []
  | .submit (some samples) _ _ :: calls => submissions calls ++ [samples.take GB_AUDIO_SAMPLES]
  | _ :: calls => submissions calls

/-- All that was accepted, block by block, is part of `l`. -/
def AcceptedFrom (l : List (List Int)) (s : AudioState) : Prop := (s.accepted.map AudioBlock.samples).Sublist l

theorem audioTask_sent (c : TaskChance) (s : AudioState) : (audioTask c s).sent = s.sent := by
  unfold audioTask
  split
  case h_5 =>
    split
    · rfl
    · rfl
    · unfold audioReceived
      dsimp only
      split
      · rfl
      · split <;> rfl
  case h_6 =>
    unfold audioWrite
    split <;> rfl
  all_goals first | rfl | (split <;> rfl)

theorem AcceptedFrom.of_sent {l : List (List Int)} {s s' : AudioState}
    (h : AcceptedFrom l s) (hsent : s'.sent = s.sent) :
    AcceptedFrom l s' := by
  unfold AcceptedFrom AudioState.accepted at *
  rw [hsent]
  exact h

theorem AcceptedFrom.taskStep {l : List (List Int)} (s s' : AudioState) (h : AcceptedFrom l s) (hstep : TaskStep s s') :
    AcceptedFrom l s' := by
  obtain ⟨c, rfl⟩ := hstep
  exact h.of_sent (audioTask_sent c s)

/-- The operations that submit nothing. -/
def SendsNothing (o : AudioOp) : Prop := ∀ block, o = .queueSend block → block.stop = true

theorem AcceptedFrom.done {l : List (List Int)} {o : AudioOp}
    {s s' : AudioState} {r : AudioRes o} (hquiet : SendsNothing o)
    (h : AcceptedFrom l s) (hdone : AudioDone o s r s') : AcceptedFrom l s' := by
  cases o with
  | queueCreate =>
    have hdone : s' = if r then { s with queue := some [], sent := [], gone := [], played := [] } else s := hdone
    rw [hdone]
    split
    · exact List.nil_sublist l
    · exact h
  | queueSend block =>
    have hdone : (r, s') = audioQueueSend block s := hdone
    unfold audioQueueSend at hdone
    split at hdone
    · obtain ⟨-, rfl⟩ := Prod.mk.inj hdone
      exact h
    split at hdone
    · obtain ⟨-, rfl⟩ := Prod.mk.inj hdone
      -- of what is sent here only a stop gets into the queue
      unfold AcceptedFrom
      rw [accepted_snoc, sounding_stop (hquiet block rfl), List.append_nil]
      exact h
    · obtain ⟨-, rfl⟩ := Prod.mk.inj hdone
      exact h
  | queueReceive =>
    have hdone : (r, s') = audioQueueReceive s := hdone
    unfold audioQueueReceive at hdone
    split at hdone
    all_goals
      obtain ⟨-, rfl⟩ := Prod.mk.inj hdone
      exact h
  | queueReset =>
    have hdone : s' = audioQueueReset (some []) s := hdone
    rw [hdone]
    unfold audioQueueReset
    split <;> exact h
  | queueDelete =>
    have hdone : s' = audioQueueReset none s := hdone
    rw [hdone]
    unfold audioQueueReset
    split <;> exact h
  | semaphoreTake =>
    obtain ⟨-, hdone⟩ := hdone
    rw [hdone]
    split <;> exact h
  | semaphoreCreate =>
    have hdone : s' = if r then { s with stopped := some false } else s := hdone
    rw [hdone]
    split <;> exact h
  | taskCreate =>
    have hdone : s' = if r then { s with task := some .prebuffer, handle := true } else s := hdone
    rw [hdone]
    split <;> exact h
  | inUse => exact hdone.1 ▸ h
  | hasQueue => exact hdone.1 ▸ h
  | failed => exact hdone.1 ▸ h
  | nextBlock => exact hdone.1 ▸ h
  | initPlayback => exact (show s' = s from hdone) ▸ h
  | setFormat => exact (show s' = s from hdone) ▸ h
  | setVolume volume => exact (show s' = { s with volume := volume } from hdone) ▸ h
  | reset => exact (show s' = audioReset s from hdone) ▸ h
  | countDropped => exact (show s' = { s with dropped := s.dropped + 1 } from hdone) ▸ h
  | requestStop => exact (show s' = { s with stopRequested := true } from hdone) ▸ h
  | forgetTask => exact (show s' = { s with handle := false } from hdone) ▸ h
  | semaphoreDelete =>
    have hdone : s' = audioSemaphoreDelete s := hdone
    rw [hdone]
    unfold audioSemaphoreDelete
    split <;> exact h

theorem AcceptedFrom.only {α : Type} {l : List (List Int)} {p : AudioM α} (hp : p.Only SendsNothing) {s : AudioState}
    (h : AcceptedFrom l s) : p.wp audioDevice (fun _ => AcceptedFrom l) (AcceptedFrom l) s := by
  refine Prog.Only.wp_inv (fun o s r s' ho hs hdone => ?_) (fun o s s' ho hs hcut => ?_) hp h
  · obtain ⟨s₀, henv, hdone⟩ := hdone
    exact (stable_reflTransGen AcceptedFrom.taskStep hs henv).done ho hdone
  · exact stable_reflTransGen AcceptedFrom.taskStep hs hcut

theorem only_access {α : Type} {o : AudioOp} {f : AudioRes o → AudioM α} (ho : SendsNothing o)
    (hf : ∀ r, (f r).Only SendsNothing) : (audioAsk o >>= f).Only SendsNothing := Prog.only_bind (Prog.only_op ho) hf

theorem audioUndo_only (queue stopped : Bool) : (audioUndo queue stopped).Only SendsNothing := by
  unfold audioUndo
  have hsemaphore :
      (do (if stopped then audioAsk .semaphoreDelete else pure ()); pure false : AudioM Bool).Only SendsNothing := by
    cases stopped with
    | true => exact only_access (fun _ heq => (by cases heq)) fun _ => trivial
    | false => trivial
  cases queue with
  | true => exact only_access (fun _ heq => (by cases heq)) fun _ => hsemaphore
  | false => exact hsemaphore

theorem gbAudioStart_only (volume : UInt8) : (gbAudioStart volume).Only SendsNothing := by
  have hlaunch : (audioLaunch volume).Only SendsNothing := by
    refine only_access (fun _ heq => (by cases heq)) fun _ => only_access (fun _ heq => (by cases heq)) fun _ =>
      only_access (fun _ heq => (by cases heq)) fun created => ?_
    cases created with
    | true => trivial
    | false => exact only_access (fun _ heq => (by cases heq)) fun _ => audioUndo_only true true
  have hready (ready : Bool) : (if ¬ ready then pure false
      else do
        let queue ← audioAsk .queueCreate
        let stopped ← audioAsk .semaphoreCreate
        if ¬ queue ∨ ¬ stopped then audioUndo queue stopped else audioLaunch volume : AudioM Bool).Only
          SendsNothing := by
    cases ready with
    | false => trivial
    | true =>
      rw [if_neg (by decide)]
      refine only_access (fun _ heq => (by cases heq)) fun queue =>
        only_access (fun _ heq => (by cases heq)) fun stopped => ?_
      split
      · exact audioUndo_only queue stopped
      · exact hlaunch
  unfold gbAudioStart
  refine only_access (fun _ heq => (by cases heq)) fun inUse => ?_
  cases inUse with
  | true => trivial
  | false =>
    refine only_access (fun _ heq => (by cases heq)) fun playback => ?_
    cases playback with
    | true => exact only_access (fun _ heq => (by cases heq)) hready
    | false => exact hready false

theorem gbAudioStop_only : (gbAudioStop).Only SendsNothing := by
  unfold gbAudioStop
  refine only_access (fun _ heq => (by cases heq)) fun hasQueue => ?_
  cases hasQueue with
  | false => trivial
  | true =>
    refine Prog.only_bind ?_ fun _ => only_access (fun _ heq => (by cases heq)) fun ended => ?_
    · unfold audioSignal
      refine only_access (fun _ heq => (by cases heq)) fun _ => only_access (fun _ heq => (by cases heq)) fun _ =>
        only_access (fun block heq => ?_) fun _ => trivial
      cases heq
      rfl
    · cases ended with
      | false => trivial
      | true =>
        unfold audioRelease
        exact only_access (fun _ heq => (by cases heq)) fun _ => only_access (fun _ heq => (by cases heq)) fun _ =>
          only_access (fun _ heq => (by cases heq)) fun _ => only_access (fun _ heq => (by cases heq)) fun _ => trivial

/-- What a submission adds to what is accepted. -/
theorem Submitted.accepted {samples : Option (List Int)} {count : Nat} {s s' : AudioState} {l : List (List Int)}
    (h : Submitted samples count s s') (hl : AcceptedFrom l s) :
    AcceptedFrom (l ++ (samples.map fun samples => samples.take GB_AUDIO_SAMPLES).toList) s' := by
  rcases h with ⟨samples', block, rfl, hsent, hstop, hsamples⟩ | ⟨hsent, -⟩
  · unfold AcceptedFrom AudioState.accepted at *
    rw [hsent, sounding_append, sounding_sound hstop, List.map_append]
    refine hl.append ?_
    show [block.samples].Sublist [samples'.take GB_AUDIO_SAMPLES]
    rewrite [hsamples]
    exact .refl _
  · exact (hl.of_sent hsent).trans (List.sublist_append_left l _)

theorem AudioRun.accepted {calls : List AudioCall} {s : AudioState}
    (h : AudioRun calls s) (hlen : calls.length ≤ BLOCKS_MAX) :
    AcceptedFrom (submissions calls) s := by
  induction h with
  | boot => exact List.nil_sublist _
  | task _ hstep ih => exact (ih hlen).taskStep _ _ hstep
  | @call calls s s' call hrun hcall ih =>
    have hold := ih (Nat.le_of_succ_le hlen)
    cases call with
    | start volume =>
      have honly : (AudioCall.start volume).prog.Only SendsNothing :=
        Prog.only_bind (gbAudioStart_only volume) fun _ => trivial
      exact Prog.wp_exec (AcceptedFrom.only honly hold) hcall
    | stop =>
      have honly : AudioCall.stop.prog.Only SendsNothing := Prog.only_bind gbAudioStop_only fun _ => trivial
      exact Prog.wp_exec (AcceptedFrom.only honly hold) hcall
    | submit samples count hsamples =>
      have hspec := gbAudioSubmit_spec (hrun.resting (Nat.le_of_succ_le hlen)) hlen hsamples
      have hnew := ((Prog.wp_exec hspec hcall).2.accepted hold)
      cases samples with
      | none => rw [← List.append_nil (submissions _)]; exact hnew
      | some samples => exact hnew

/-! ## Results -/

/-- An access before the task takes another step. -/
theorem exec_access {α : Type} {o : AudioOp} {f : AudioRes o → AudioM α} {s s₁ s₂ : AudioState} {r : AudioRes o}
    {out : Option α} (hdone : AudioDone o s r s₁) (h : (f r).Exec audioDevice s₁ out s₂) :
    (audioAsk o >>= f).Exec audioDevice s out s₂ := .perform ⟨s, .refl, hdone⟩ h

/-- Steps of the task, each with what it finds. -/
def audioSteps (cs : List TaskChance) (s : AudioState) : AudioState := cs.foldl (fun s c => audioTask c s) s

/-- The audio as a start leaves it. -/
def audioStarted (volume : UInt8) : AudioState :=
  { queue := some [], stopped := some false, handle := true, task := some .prebuffer, volume := volume }

theorem start_exec (volume : UInt8) :
    (AudioCall.start volume).prog.Exec audioDevice {} (some ()) (audioStarted volume) := by
  refine Prog.exec_bind (a := true) ?_ (.pure _ _)
  refine exec_access (r := false) ⟨rfl, rfl⟩ ?_
  refine exec_access (r := true) rfl ?_
  refine exec_access (r := true) rfl ?_
  refine exec_access (r := true) rfl ?_
  refine exec_access (r := true) rfl ?_
  refine exec_access (r := ()) rfl ?_
  refine exec_access (r := ()) rfl ?_
  exact exec_access (r := true) rfl (.pure _ _)

/-- The oldest block is taken out of the queue and counted. -/
def audioMadeRoom (s : AudioState) : AudioState :=
  let stale := audioQueueReceive s
  if stale.1.isSome then { stale.2 with dropped := stale.2.dropped + 1 } else stale.2

/-- The audio after a submission during which the task takes no step. -/
def audioSubmitted (samples : List Int) (s : AudioState) : AudioState :=
  let block := audioBlock (s.submittedBlocks + 1) samples
  let first := audioQueueSend block { s with submittedBlocks := s.submittedBlocks + 1 }
  if first.1 then first.2
  else
    let second := audioQueueSend block (audioMadeRoom first.2)
    if second.1 then second.2 else { second.2 with dropped := second.2.dropped + 1 }

theorem submit_exec (samples : List Int) {s : AudioState} (hon : s.queue.isSome = true) (hfailed : s.failed = false) :
    (gbAudioSubmit (some samples) GB_AUDIO_SAMPLES).Exec audioDevice s (some ()) (audioSubmitted samples s) := by
  refine exec_access (o := .hasQueue) (r := true) ⟨rfl, hon.symm⟩ ?_
  refine exec_access (o := .failed) (r := false) ⟨rfl, hfailed.symm⟩ ?_
  refine exec_access (o := .nextBlock) (r := s.submittedBlocks + 1) ⟨rfl, rfl⟩ ?_
  unfold audioSubmitted audioMadeRoom
  dsimp only
  generalize hs₁ : ({ s with submittedBlocks := s.submittedBlocks + 1 } : AudioState) = s₁
  generalize audioBlock (s.submittedBlocks + 1) samples = block
  have hsend (s : AudioState) :
      AudioDone (.queueSend block) s (audioQueueSend block s).1 (audioQueueSend block s).2 := rfl
  have hreceive (s : AudioState) : AudioDone .queueReceive s (audioQueueReceive s).1 (audioQueueReceive s).2 := rfl
  refine exec_access (hsend s₁) ?_
  obtain ⟨queued, s₂⟩ := audioQueueSend block s₁
  cases queued with
  | true => exact .pure _ _
  | false =>
    refine exec_access (hreceive s₂) ?_
    have hagain (s₃ : AudioState) : (do
        let queued ← audioAsk (.queueSend block)
        (if queued then pure () else audioAsk .countDropped) : AudioM Unit).Exec audioDevice s₃ (some ())
        (if (audioQueueSend block s₃).1 then (audioQueueSend block s₃).2
          else { (audioQueueSend block s₃).2 with dropped := (audioQueueSend block s₃).2.dropped + 1 }) := by
      refine exec_access (hsend s₃) ?_
      obtain ⟨queued, s₄⟩ := audioQueueSend block s₃
      cases queued with
      | true => exact .pure _ _
      | false => exact exec_access (o := .countDropped) (r := ()) rfl (.pure _ _)
    obtain ⟨stale, s₃⟩ := audioQueueReceive s₂
    cases stale with
    | none => exact hagain s₃
    | some stale => exact exec_access (o := .countDropped) (r := ()) rfl (hagain _)

/-- A block of one note. -/
def noteSamples (v : Int) : List Int := List.replicate GB_AUDIO_SAMPLES v

/-- The submission of such a block. -/
def submitNote (v : Int) : AudioCall := .submit (some (noteSamples v)) GB_AUDIO_SAMPLES fun l heq => by
  obtain rfl := Option.some.inj heq
  exact Nat.le_of_eq List.length_replicate.symm

/-- A start and nine submissions, one more than the queue holds, before the task takes its first step. -/
def nineNotes : List AudioCall := ([1, 2, 3, 4, 5, 6, 7, 8, 9].map submitNote).reverse ++ [.start 50]

def audioNine : AudioState :=
  ([1, 2, 3, 4, 5, 6, 7, 8, 9] : List Int).foldl (fun s v => audioSubmitted (noteSamples v) s) (audioStarted 50)

/-- The audio runs, and the codec has not failed. -/
def Sounding (s : AudioState) : Prop := s.queue.isSome = true ∧ s.failed = false

theorem Sounding.send {s : AudioState} (h : Sounding s) (block : AudioBlock) : Sounding (audioQueueSend block s).2 := by
  unfold audioQueueSend
  split
  · exact h
  · split
    · exact ⟨rfl, h.2⟩
    · exact h

theorem Sounding.madeRoom {s : AudioState} (h : Sounding s) : Sounding (audioMadeRoom s) := by
  have hreceive : Sounding (audioQueueReceive s).2 := by
    unfold audioQueueReceive
    split
    · exact h
    · exact h
    · exact ⟨rfl, h.2⟩
  unfold audioMadeRoom
  dsimp only
  split <;> exact hreceive

theorem Sounding.submitted {s : AudioState} (h : Sounding s) (samples : List Int) :
    Sounding (audioSubmitted samples s) := by
  have hnext : Sounding { s with submittedBlocks := s.submittedBlocks + 1 } := h
  unfold audioSubmitted
  dsimp only
  split
  · exact hnext.send _
  · split <;> exact (hnext.send _).madeRoom.send _

theorem AudioRun.notes {calls : List AudioCall} {s : AudioState}
    (h : AudioRun calls s) (hs : Sounding s) (vs : List Int) :
    AudioRun ((vs.map submitNote).reverse ++ calls) (vs.foldl (fun s v => audioSubmitted (noteSamples v) s) s) := by
  induction vs generalizing calls s with
  | nil => exact h
  | cons v vs ih =>
    have hnext : AudioRun (submitNote v :: calls) (audioSubmitted (noteSamples v) s) :=
      .call h (submit_exec (noteSamples v) hs.1 hs.2)
    rw [List.map_cons, List.reverse_cons, List.append_assoc]
    exact ih hnext (hs.submitted _)

theorem AudioRun.steps {calls : List AudioCall} {s : AudioState} (h : AudioRun calls s) (cs : List TaskChance) :
    AudioRun calls (audioSteps cs s) := by
  induction cs generalizing s with
  | nil => exact h
  | cons c cs ih => exact ih (.task h ⟨c, rfl⟩)

theorem nineNotes_run : AudioRun nineNotes audioNine :=
  AudioRun.notes (.call .boot (start_exec 50)) ⟨rfl, rfl⟩ _

/-- Whenever the game and the task are looked at, nothing has faulted, and the codec has played the
samples of blocks that left the queue to be played, in the order they were accepted in, all but the two
blocks that the task may hold. -/
theorem audio_in_order {calls : List AudioCall} {s : AudioState} (h : AudioReached calls s)
    (hlen : calls.length ≤ BLOCKS_MAX) :
    s.fault = false ∧ s.played <+: pcm (s.left .taken) ∧
      (pcm (s.left .taken)).length ≤ s.played.length + GB_AUDIO_SAMPLES * 2 ∧
      (s.left .taken).Sublist s.accepted := by
  have hinv : AudioInv s := by
    cases h with
    | between h => exact (h.resting hlen).inv
    | within h hcall => exact Prog.wp_exec (AudioCall.prog_spec _ (h.resting (Nat.le_of_succ_le hlen)) hlen) hcall
  obtain ⟨rest, hplayed, hrest⟩ := hinv.task.ended
  refine ⟨hinv.sound, ⟨rest, hplayed⟩, ?_, ?_⟩
  · rw [← hplayed, List.length_append]
    exact Nat.add_le_add_left hrest _
  · unfold AudioState.left AudioState.accepted
    rw [hinv.fifo, sounding_append]
    refine List.Sublist.trans ?_ (List.sublist_append_left _ _)
    exact (List.filter_sublist.map Prod.fst).filter _

/-- The first of the nine was dropped, and after five steps of the task the next two have been played. -/
theorem audio_in_order_notes : AudioRun nineNotes (audioSteps (List.replicate 5 {}) audioNine) ∧
    (audioSteps (List.replicate 5 {}) audioNine).played = noteSamples 2 ++ noteSamples 3 ∧
    (audioSteps (List.replicate 5 {}) audioNine).fault = false ∧
    (audioSteps (List.replicate 5 {}) audioNine).played <+: pcm
      ((audioSteps (List.replicate 5 {}) audioNine).left .taken) ∧
    ((audioSteps (List.replicate 5 {}) audioNine).left .taken).Sublist
      (audioSteps (List.replicate 5 {}) audioNine).accepted := by
  have hrun := nineNotes_run.steps (List.replicate 5 {})
  have horder := audio_in_order (.between hrun) (by decide)
  exact ⟨hrun, by decide +kernel, horder.1, horder.2.1, horder.2.2.2⟩

/-- The three ways out of the queue account for all that left it. -/
theorem left_perm (s : AudioState) : (sounding (s.gone.map Prod.fst)).Perm
    (s.left .taken ++ s.left .dropped ++ s.left .discarded) := by
  unfold AudioState.left
  induction s.gone with
  | nil => exact .nil
  | cons e gone ih =>
    obtain ⟨block, g⟩ := e
    unfold sounding at *
    cases hstop : block.stop with
    | true => cases g <;> simpa [hstop] using ih
    | false =>
      have hcons := ih.cons block
      cases g with
      | taken => simpa [hstop] using hcons
      | dropped => simpa [hstop] using hcons.trans (List.perm_middle.symm.append_right _)
      | discarded => simpa [hstop] using hcons.trans List.perm_middle.symm

/-- Between two calls, while there is a queue: the blocks accepted are, in their order, some of those
submitted, and each was taken to be played, dropped, discarded, or waits; the counters of the log say
how many were submitted, dropped and played. -/
theorem audio_accounted {calls : List AudioCall} {s : AudioState} {queue : List AudioBlock} (h : AudioRun calls s)
    (hlen : calls.length ≤ BLOCKS_MAX) (hqueue : s.queue = some queue) :
    (s.accepted.map AudioBlock.samples).Sublist (submissions calls) ∧
      s.accepted.Perm (s.left .taken ++ s.left .dropped ++ s.left .discarded ++ sounding queue) ∧
      s.submittedBlocks.toNat = s.accepted.length ∧
      s.dropped = UInt32.ofNat (s.gone.filter fun e => e.2 = Gone.dropped).length ∧
      (s.failed = false → s.outputSamples = UInt32.ofNat s.played.length) := by
  have hrest := h.resting hlen
  have hledger := hrest.ledger (by rw [hqueue]; rfl)
  refine ⟨h.accepted hlen, ?_, hledger.submitted, ?_, hledger.played⟩
  · unfold AudioState.accepted
    rw [hrest.inv.fifo, hqueue, sounding_append]
    exact (left_perm s).append_right _
  · rw [← hledger.dropped]
    exact (UInt32.add_zero _).symm

/-- Of the nine one is dropped, two are played and six wait. -/
theorem audio_accounted_notes : ∃ queue, (audioSteps (List.replicate 5 {}) audioNine).queue = some queue ∧
    queue.map AudioBlock.samples = [4, 5, 6, 7, 8, 9].map noteSamples ∧
    ((audioSteps (List.replicate 5 {}) audioNine).left .dropped).map AudioBlock.samples = [noteSamples 1] ∧
    (audioSteps (List.replicate 5 {}) audioNine).accepted.Perm
      ((audioSteps (List.replicate 5 {}) audioNine).left .taken ++
        (audioSteps (List.replicate 5 {}) audioNine).left .dropped ++
        (audioSteps (List.replicate 5 {}) audioNine).left .discarded ++ sounding queue) ∧
    (audioSteps (List.replicate 5 {}) audioNine).submittedBlocks.toNat =
      (audioSteps (List.replicate 5 {}) audioNine).accepted.length := by
  have hqueue : (audioSteps (List.replicate 5 {}) audioNine).queue =
      some ((audioSteps (List.replicate 5 {}) audioNine).queue.getD []) := by decide +kernel
  have hall := audio_accounted (nineNotes_run.steps (List.replicate 5 {})) (by decide) hqueue
  exact ⟨_, hqueue, by decide +kernel, by decide +kernel, hall.2.1, hall.2.2.1⟩

/-! ## A stop that waits long enough -/

/-- The accesses of the game when the task takes at least seven steps while a stop waits for it. -/
def patientDevice : Device AudioOp AudioRes AudioState where
  done o s r s' := ∃ cs, (o = .semaphoreTake → 7 ≤ cs.length) ∧ AudioDone o (audioSteps cs s) r s'
  cut _ s s' := ∃ cs, s' = audioSteps cs s

theorem audioSteps_env (cs : List TaskChance) (s : AudioState) :
    Relation.ReflTransGen TaskStep s (audioSteps cs s) := by
  induction cs generalizing s with
  | nil => exact .refl
  | cons c cs ih => exact .head ⟨c, rfl⟩ (ih _)

theorem patientDevice_refines : patientDevice.Refines audioDevice := by
  constructor
  · rintro o s r s' ⟨cs, -, hdone⟩
    exact ⟨_, audioSteps_env cs s, hdone⟩
  · rintro o s s' ⟨cs, rfl⟩
    exact audioSteps_env cs s

theorem Stopping.steps {n : Nat} {s : AudioState} (h : Stopping n s) (cs : List TaskChance) :
    Stopping n (audioSteps cs s) ∧ stepsLeft (audioSteps cs s).task ≤ stepsLeft s.task - cs.length := by
  induction cs generalizing s with
  | nil => exact ⟨h, Nat.le_refl _⟩
  | cons c cs ih =>
    obtain ⟨hnext, hless⟩ := h.step ⟨c, rfl⟩
    obtain ⟨hend, hleft⟩ := ih hnext
    refine ⟨hend, Nat.le_trans hleft ?_⟩
    rw [List.length_cons]
    omega

/-- A stop whose wait lets the task take seven steps ends the task, wherever it stood, whatever waited,
and even if the codec failed: nothing of the audio is left and the output is silent, and the game is
told whether a failure occurred. -/
theorem audio_stop_ends {calls : List AudioCall} {s s' : AudioState} {r : Bool} (h : AudioRun calls s)
    (hlen : calls.length ≤ BLOCKS_MAX) (hstop : (gbAudioStop).Exec patientDevice s (some r) s') :
    Released s' ∧ (s.queue.isSome = true → r = !s'.failed ∧ s'.volume = 0) := by
  have hspec : (gbAudioStop).wp patientDevice
      (fun r s' => Released s' ∧ (s.queue.isSome = true → r = !s'.failed ∧ s'.volume = 0)) AudioInv s := by
    refine gbAudioStop_wp patientDevice_refines (h.resting hlen) (fun s' _ hs hoff => ⟨hs, fun hon => ?_⟩)
      (fun r s' _ hs hr hvolume _ => ⟨hs, fun _ => ⟨hr, hvolume⟩⟩) fun s₁ s₂ h₁ hdone => ?_
    · rw [hoff] at hon
      cases hon
    · obtain ⟨cs, hlong, htaken, -⟩ := hdone
      obtain ⟨hend, hleft⟩ := h₁.steps cs
      have hzero : stepsLeft (audioSteps cs s₁).task = 0 := by
        have hle := stepsLeft_le s₁.task
        have hseven := hlong rfl
        omega
      have hnone : (audioSteps cs s₁).task = none := by
        unfold stepsLeft at hzero
        split at hzero
        all_goals first | assumption | cases hzero
      rw [hend.resting.settled.ended hend.hasQueue hnone] at htaken
      cases htaken
  exact Prog.wp_exec hspec hstop

/-- An access, after the task has taken the steps it is waited for. -/
theorem exec_patient {o : AudioOp} {f : AudioRes o → AudioM Bool}
    {s s₁ : AudioState} {r : AudioRes o} {out : Option Bool}
    (cs : List TaskChance) (hcs : o = .semaphoreTake → 7 ≤ cs.length) (hdone : AudioDone o (audioSteps cs s) r s₁)
    (h : ∃ s₂, (f r).Exec patientDevice s₁ out s₂) : ∃ s₂, (audioAsk o >>= f).Exec patientDevice s out s₂ := by
  obtain ⟨s₂, h⟩ := h
  exact ⟨s₂, .perform ⟨cs, hcs, hdone⟩ h⟩

theorem audio_stop_ends_started : ∃ s', Released s' ∧ true = (!s'.failed) ∧ s'.volume = 0 := by
  have hexec : ∃ s', (gbAudioStop).Exec patientDevice (audioStarted 50) (some true) s' := by
    refine exec_patient (o := .hasQueue) (r := true) [] (fun heq => by cases heq) ⟨rfl, rfl⟩ ?_
    refine exec_patient (o := .requestStop) (r := ()) [] (fun heq => by cases heq) rfl ?_
    refine exec_patient (o := .queueReset) (r := ()) [] (fun heq => by cases heq) rfl ?_
    refine exec_patient (o := .queueSend { stop := true }) (r := true) [] (fun heq => by cases heq) rfl ?_
    refine exec_patient (o := .semaphoreTake) (r := true) (List.replicate 7 {}) (fun _ => by decide) ⟨rfl, rfl⟩ ?_
    refine exec_patient (o := .forgetTask) (r := ()) [] (fun heq => by cases heq) rfl ?_
    refine exec_patient (o := .queueDelete) (r := ()) [] (fun heq => by cases heq) rfl ?_
    refine exec_patient (o := .semaphoreDelete) (r := ()) [] (fun heq => by cases heq) rfl ?_
    exact exec_patient (o := .failed) (r := false) [] (fun heq => by cases heq) ⟨rfl, rfl⟩ ⟨_, .pure _ _⟩
  obtain ⟨s', hexec⟩ := hexec
  have hends := audio_stop_ends (.call .boot (start_exec 50)) (by decide) hexec
  exact ⟨s', hends.1, hends.2 rfl⟩

end FoloGameboy

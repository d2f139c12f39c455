/-
The audio task. What it has taken from the queue it has handed to the codec, up to the one or two
blocks in its output buffer; and whatever step it takes, it leaves the counters of the game alone.
-/
import FoloGameboy.Audio.Output

namespace FoloGameboy

open Effect

/-! ## Blocks of samples -/

/-- The blocks that carry samples. -/
def sounding (blocks : List AudioBlock) : List AudioBlock := blocks.filter fun block => !block.stop

def pcm (blocks : List AudioBlock) : List Int := blocks.flatMap AudioBlock.samples

namespace AudioState

/-- What was submitted since the queue was created. -/
def accepted (s : AudioState) : List AudioBlock := sounding s.sent

/-- The blocks that left the queue in one of the three ways. -/
def left (g : Gone) (s : AudioState) : List AudioBlock :=
  sounding ((s.gone.filter fun e => e.2 = g).map Prod.fst)

end AudioState

@[simp] theorem sounding_append (l l' : List AudioBlock) : sounding (l ++ l') = sounding l ++ sounding l' :=
  List.filter_append l l'

theorem sounding_stop {block : AudioBlock} (h : block.stop = true) : sounding [block] = [] := by
  simp [sounding, h]

theorem sounding_sound {block : AudioBlock} (h : block.stop = false) : sounding [block] = [block] := by
  simp [sounding, h]

@[simp] theorem pcm_append (l l' : List AudioBlock) : pcm (l ++ l') = pcm l ++ pcm l' := List.flatMap_append

/-- A block of the length that is played as it is. -/
def BlockOK (block : AudioBlock) : Prop :=
  block.stop = false → block.outputCount.toNat = GB_AUDIO_SAMPLES ∧ block.samples.length = GB_AUDIO_SAMPLES

/-- How many blocks can be numbered before the samples they take no longer fit 64 bits. -/
def BLOCKS_MAX : Nat := 4000000000000

/-- The source and the output have one rate, so every block is played as it is. -/
theorem gbAudioResampledCount_eq {number : UInt64} (hpos : 0 < number.toNat) (hmax : number.toNat ≤ BLOCKS_MAX) :
    gbAudioResampledCount number = 267 := by
  have hmax : number.toNat ≤ 4000000000000 := hmax
  have hprev : (number - 1).toNat = number.toNat - 1 := by
    rw [UInt64.toNat_sub_of_le]
    · rfl
    · exact UInt64.le_iff_toNat_le.2 hpos
  have hcount (n : UInt64) (hn : n.toNat ≤ 4000000000000) :
      (n * UInt64.ofNat GB_AUDIO_SAMPLES * GB_AUDIO_OUTPUT_RATE / GB_AUDIO_SOURCE_RATE).toNat = n.toNat * 267 := by
    have hone : (n * UInt64.ofNat GB_AUDIO_SAMPLES).toNat = n.toNat * 267 := by
      rw [UInt64.toNat_mul]
      exact Nat.mod_eq_of_lt (by show n.toNat * 267 < _; omega)
    have htwo : (n * UInt64.ofNat GB_AUDIO_SAMPLES * GB_AUDIO_OUTPUT_RATE).toNat = n.toNat * 267 * 16000 := by
      rw [UInt64.toNat_mul, hone]
      exact Nat.mod_eq_of_lt (by show n.toNat * 267 * 16000 < _; omega)
    rw [UInt64.toNat_div, htwo]
    exact Nat.mul_div_cancel _ (by decide)
  have htotal := hcount number hmax
  have hprevious := hcount (number - 1) (by omega)
  unfold gbAudioResampledCount
  apply UInt32.toNat_inj.1
  rw [UInt64.toNat_toUInt32, UInt64.toNat_sub_of_le]
  · rw [htotal, hprevious, hprev]
    show (number.toNat * 267 - (number.toNat - 1) * 267) % 4294967296 = 267
    omega
  · rw [UInt64.le_iff_toNat_le, htotal, hprevious]
    omega

theorem audioBlock_ok {number : UInt64} (hpos : 0 < number.toNat) (hmax : number.toNat ≤ BLOCKS_MAX)
    {samples : List Int} (h : GB_AUDIO_SAMPLES ≤ samples.length) : BlockOK (audioBlock number samples) := by
  intro _
  refine ⟨?_, ?_⟩
  · show (gbAudioResampledCount number).toUInt16.toNat = _
    rw [gbAudioResampledCount_eq hpos hmax]
    rfl
  · show (samples.take _).length = _
    rw [List.length_take, Nat.min_eq_left h]

theorem BlockOK.resample {block : AudioBlock} (h : BlockOK block) (hstop : block.stop = false) :
    resampleBlock block.samples block.outputCount.toNat = some block.samples := by
  obtain ⟨hcount, hlen⟩ := h hstop
  unfold resampleBlock
  rw [hcount, if_pos rfl, if_neg (by omega), ← hlen, List.take_length]

theorem storeSamples_eq {output : List Int} {offset : Nat} {samples : List Int}
    (h : offset + samples.length ≤ output.length) :
    ∃ output', storeSamples output offset samples = some output' ∧ output'.length = output.length ∧
      output'.take (offset + samples.length) = output.take offset ++ samples := by
  refine ⟨_, if_pos h, ?_, ?_⟩
  · simp only [List.length_append, List.length_take, List.length_drop]
    omega
  · have hlen : (output.take offset ++ samples).length = offset + samples.length := by
      rw [List.length_append, List.length_take]
      omega
    rw [← hlen, List.take_left']
    rfl

/-! ## The invariant -/

/-- What the task has taken and not yet handed to the codec is in its output buffer. -/
def TaskOK (at? : Option TaskAt) (output played taken : List Int) : Prop :=
  match at? with
  | some (.receive i count) => i < 2 ∧ count = GB_AUDIO_SAMPLES * i ∧ played ++ output.take count = taken
  | some (.write count) => count = GB_AUDIO_SAMPLES * 2 ∧ played ++ output.take count = taken
  | some .quiet => ∃ rest, played ++ rest = taken ∧ rest.length ≤ GB_AUDIO_SAMPLES * 2
  | some .give => ∃ rest, played ++ rest = taken ∧ rest.length ≤ GB_AUDIO_SAMPLES * 2
  | none => ∃ rest, played ++ rest = taken ∧ rest.length ≤ GB_AUDIO_SAMPLES * 2
  | _ => played = taken

structure AudioInv (s : AudioState) : Prop where
  sound : s.fault = false
  alive : s.task.isSome = true → s.queue.isSome = true ∧ s.stopped = some false
  full : (s.queue.getD []).length ≤ 8
  blocks : ∀ block ∈ s.sent, BlockOK block
  fifo : s.sent = s.gone.map Prod.fst ++ s.queue.getD []
  output : s.output.length = GB_AUDIO_SAMPLES * 2
  task : TaskOK s.task s.output s.played (pcm (s.left .taken))
  silent : s.task = some .give ∨ s.stopped = some true → s.volume = 0

/-- What a step of the task leaves alone. -/
structure TaskFrame (s s' : AudioState) : Prop where
  handle : s'.handle = s.handle
  stopRequested : s'.stopRequested = s.stopRequested
  dropped : s'.dropped = s.dropped
  submittedBlocks : s'.submittedBlocks = s.submittedBlocks
  sent : s'.sent = s.sent
  hasQueue : s'.queue.isSome = s.queue.isSome
  shorter : (s'.queue.getD []).length ≤ (s.queue.getD []).length
  lost : ∀ g, g ≠ Gone.taken → s'.gone.filter (fun e => e.2 = g) = s.gone.filter (fun e => e.2 = g)
  /-- Without a failure, what is played is counted. -/
  counted : s'.failed = false →
    s.failed = false ∧ s'.outputSamples + UInt32.ofNat s.played.length = s.outputSamples + UInt32.ofNat s'.played.length
  ends : s'.task = none → s.task = none ∨ s'.stopped = some true
  ended : s.task = none → s' = s

theorem TaskOK.ended {at? : Option TaskAt} {output played taken : List Int} (h : TaskOK at? output played taken) :
    ∃ rest, played ++ rest = taken ∧ rest.length ≤ GB_AUDIO_SAMPLES * 2 := by
  unfold TaskOK at h
  split at h
  · obtain ⟨hi, rfl, h⟩ := h
    exact ⟨_, h, Nat.le_trans (List.length_take_le _ _) (Nat.mul_le_mul_left _ (Nat.le_of_lt hi))⟩
  · obtain ⟨rfl, h⟩ := h
    exact ⟨_, h, List.length_take_le _ _⟩
  · exact h
  · exact h
  · exact h
  · exact ⟨[], by rw [h, List.append_nil], Nat.zero_le _⟩

/-! ## A step of the task -/

theorem left_snoc {s s' : AudioState} {block : AudioBlock} {g : Gone} (h : s'.gone = s.gone ++ [(block, g)]) :
    s'.left g = s.left g ++ sounding [block] := by
  unfold AudioState.left
  rw [h, List.filter_append, List.map_append, sounding_append]
  simp

theorem pcm_sounding {block : AudioBlock} (h : block.stop = false) : pcm (sounding [block]) = block.samples := by
  rw [sounding_sound h]
  exact List.append_nil _

theorem filter_snoc_other {gone : List (AudioBlock × Gone)} {block : AudioBlock} {g g' : Gone} (h : g' ≠ g) :
    (gone ++ [(block, g)]).filter (fun e => e.2 = g') = gone.filter fun e => e.2 = g' := by
  rw [List.filter_append]
  simp [h.symm]

/-- The block received goes behind what the round has stored already. -/
theorem audioReceived_eq {c : TaskChance} {i count : Nat} {block : AudioBlock} {s : AudioState} (hok : BlockOK block)
    (hstop : block.stop = false) (hroom : count + block.samples.length ≤ s.output.length) :
    ∃ output', output'.length = s.output.length ∧
      output'.take (count + block.samples.length) = s.output.take count ++ block.samples ∧
      audioReceived c i count block s = { s with
        waits := if 5000 < c.waited then s.waits + 1 else s.waits
        maxWaitUs := if s.maxWaitUs < c.waited then c.waited else s.maxWaitUs
        output := output'
        task := some (if i + 1 < 2 then .receive (i + 1) (count + block.outputCount.toNat)
          else .write (count + block.outputCount.toNat)) } := by
  obtain ⟨output', hstore, houtput', htake⟩ := storeSamples_eq hroom
  refine ⟨output', houtput', htake, ?_⟩
  unfold audioReceived
  rw [hstop, if_neg Bool.false_ne_true, hok.resample hstop]
  dsimp only [Option.bind_some]
  rw [hstore]

/-- There is room for both blocks of a round. -/
theorem round_room {i count : Nat} {block : AudioBlock} {output : List Int} (hi : i < 2)
    (hcount : count = GB_AUDIO_SAMPLES * i) (hsamples : block.samples.length = GB_AUDIO_SAMPLES)
    (houtput : output.length = GB_AUDIO_SAMPLES * 2) : count + block.samples.length ≤ output.length := by
  rw [houtput, hsamples, hcount]
  have hmul := Nat.mul_le_mul_left GB_AUDIO_SAMPLES (show i + 1 ≤ 2 from hi)
  rw [Nat.mul_add, Nat.mul_one] at hmul
  exact hmul

theorem audioReceived_spec {c : TaskChance} {i count : Nat} {block : AudioBlock} {queue : List AudioBlock}
    {s : AudioState} (h : AudioInv s) (htask : s.task = some (.receive i count))
    (hqueue : s.queue = some (block :: queue)) :
    let s' := audioReceived c i count block
      { s with queue := some queue, gone := s.gone ++ [(block, .taken)] }
    AudioInv s' ∧ TaskFrame s s' := by
  obtain ⟨hsound, halive, hfull, hblocks, hfifo, houtput, hok, hsilent⟩ := h
  rw [htask] at hok
  obtain ⟨hi, hcount, hplayed⟩ := hok
  rw [hqueue] at hfifo hfull
  have hfifo' : s.sent = (s.gone ++ [(block, Gone.taken)]).map Prod.fst ++ queue := by
    rw [hfifo, List.map_append, List.append_assoc]
    rfl
  have halive' := halive (by rw [htask]; rfl)
  have hmem : block ∈ s.sent := by
    rw [hfifo]
    exact List.mem_append_right _ List.mem_cons_self
  have hfull' : queue.length ≤ 8 := Nat.le_of_succ_le hfull
  have hlost (g : Gone) (hg : g ≠ .taken) := @filter_snoc_other s.gone block _ _ hg
  have hshorter : queue.length ≤ (s.queue.getD []).length := by
    rw [hqueue]
    exact Nat.le_succ _
  have hsome : s.queue.isSome = true := by
    rw [hqueue]
    rfl
  have hended (s' : AudioState) (hnone : s.task = none) : s' = s := by
    rw [htask] at hnone
    cases hnone
  intro s'
  have hleft : s'.gone = s.gone ++ [(block, .taken)] → s'.left .taken = s.left .taken ++ sounding [block] := left_snoc
  -- a stop ends the task; any other block is expanded behind the ones before it
  by_cases hstop : block.stop = true
  · have heq : s' = { s with queue := some queue, gone := s.gone ++ [(block, .taken)], task := some .quiet } :=
      if_pos hstop
    rw [sounding_stop hstop, List.append_nil] at hleft
    clear_value s'
    subst heq
    refine ⟨⟨hsound, fun _ => ⟨rfl, halive'.2⟩, hfull', hblocks, hfifo', houtput, ?_, ?_⟩,
      ⟨rfl, rfl, rfl, rfl, rfl, hsome.symm, hshorter, hlost,
        fun h => ⟨h, rfl⟩, fun hnone => (by cases hnone), hended _⟩⟩
    · rw [hleft rfl]
      exact @TaskOK.ended (some (.receive i count)) _ _ _ ⟨hi, hcount, hplayed⟩
    · rintro (hgive | hgiven)
      · cases hgive
      · exact hsilent (.inr hgiven)
  · have hstop : block.stop = false := Bool.eq_false_iff.2 hstop
    obtain ⟨hlen, hsamples⟩ := hblocks block hmem hstop
    have hroom := round_room hi hcount hsamples houtput
    obtain ⟨output', houtput', htake, heq⟩ := audioReceived_eq (c := c) (i := i) (hblocks block hmem) hstop
      (s := { s with queue := some queue, gone := s.gone ++ [(block, .taken)] }) hroom
    have heq : s' = _ := heq
    clear_value s'
    subst heq
    refine ⟨⟨hsound, fun _ => ⟨rfl, halive'.2⟩, hfull', hblocks, hfifo', houtput'.trans houtput, ?_, ?_⟩,
      ⟨rfl, rfl, rfl, rfl, rfl, hsome.symm, hshorter, hlost,
        fun h => ⟨h, rfl⟩, fun hnone => (by cases hnone), hended _⟩⟩
    -- the output so far is what was played of the blocks taken
    · have hnew : s.played ++ output'.take (count + GB_AUDIO_SAMPLES) = pcm (s.left .taken) ++ block.samples := by
        rw [← hsamples, htake, ← List.append_assoc, hplayed]
      rw [hleft rfl, pcm_append, pcm_sounding hstop, ← hnew, hlen, hcount]
      split
      · rename_i hlt
        exact ⟨hlt, rfl, rfl⟩
      · have hone : i = 1 := by omega
        subst hone
        exact ⟨rfl, rfl⟩
    · rintro (hgive | hgiven)
      · dsimp only at hgive
        split at hgive <;> cases hgive
      · exact hsilent (.inr hgiven)

theorem audioTask_spec {s : AudioState} (h : AudioInv s) (c : TaskChance) :
    AudioInv (audioTask c s) ∧ TaskFrame s (audioTask c s) := by
  have hsame : TaskFrame s s :=
    ⟨rfl, rfl, rfl, rfl, rfl, rfl, Nat.le_refl _, fun _ _ => rfl, fun h => ⟨h, rfl⟩, .inl, fun _ => rfl⟩
  -- a step that only moves on
  have hmove (at? : TaskAt) (hsome : s.task.isSome = true)
      (hok : TaskOK (some at?) s.output s.played (pcm (s.left .taken))) (hgive : at? ≠ .give) :
      AudioInv { s with task := some at? } ∧ TaskFrame s { s with task := some at? } := by
    refine ⟨{ h with alive := fun _ => h.alive hsome, task := hok, silent := ?_ },
      { hsame with ends := fun hnone => (by cases hnone), ended := fun hnone => ?_ }⟩
    · rintro (heq | hgiven)
      · exact absurd (Option.some.inj heq) hgive
      · exact h.silent (.inr hgiven)
    · rw [hnone] at hsome
      cases hsome
  have hok := h.task
  unfold audioTask
  split
  case h_1 => exact ⟨h, hsame⟩
  -- waiting for four blocks or a stop
  case h_2 htask =>
    rw [htask] at hok
    have hsome : s.task.isSome = true := by rw [htask]; rfl
    split
    case h_1 hnone =>
      have hqueue := (h.alive hsome).1
      rw [hnone] at hqueue
      cases hqueue
    case h_2 =>
      split
      · exact hmove _ hsome hok (fun heq => by cases heq)
      · exact hmove _ hsome hok (fun heq => by cases heq)
  case h_3 htask =>
    rw [htask] at hok
    have hsome : s.task.isSome = true := by rw [htask]; rfl
    split
    · exact hmove _ hsome hok (fun heq => by cases heq)
    · exact hmove _ hsome hok (fun heq => by cases heq)
  case h_4 htask =>
    rw [htask] at hok
    have hsome : s.task.isSome = true := by rw [htask]; rfl
    split
    · exact hmove .quiet hsome hok.ended (fun heq => by cases heq)
    · refine hmove (.receive 0 0) hsome ⟨by decide, rfl, ?_⟩ (fun heq => by cases heq)
      rw [List.take_zero, List.append_nil]
      exact hok
  -- on an empty queue the task waits, with nothing changed
  case h_5 i count htask =>
    split
    case h_1 hnone =>
      have hqueue := (h.alive (by rw [htask]; rfl)).1
      rw [hnone] at hqueue
      cases hqueue
    case h_2 => exact ⟨h, hsame⟩
    case h_3 block queue hqueue => exact audioReceived_spec h htask hqueue
  -- a full write is counted; a failed one ends the task, and its rest is never played
  case h_6 count htask =>
    rw [htask] at hok
    have hsome : s.task.isSome = true := by rw [htask]; rfl
    obtain ⟨hcount, hplayed⟩ := hok
    have hended (s' : AudioState) (hnone : s.task = none) : s' = s := by
      rw [htask] at hnone
      cases hnone
    unfold audioWrite
    split
    case h_1 =>
      have hlen : (s.output.take count).length = count := by
        rw [List.length_take, h.output, hcount, Nat.min_self]
      refine ⟨{ h with alive := fun _ => h.alive hsome, task := hplayed, silent := ?_ },
        { hsame with counted := fun hok => ⟨hok, ?_⟩, ends := fun hnone => (by cases hnone), ended := hended _ }⟩
      · rintro (heq | hgiven)
        · cases heq
        · exact h.silent (.inr hgiven)
      · show s.outputSamples + UInt32.ofNat count + _ = s.outputSamples +
            UInt32.ofNat (s.played ++ s.output.take count).length
        rw [List.length_append, hlen, UInt32.ofNat_add, UInt32.add_assoc, UInt32.add_comm (UInt32.ofNat count)]
    case h_2 n _ =>
      refine ⟨{ h with alive := fun _ => h.alive hsome, task := ?_, silent := ?_ },
        { hsame with counted := fun hok => (by cases hok), ends := fun hnone => (by cases hnone), ended := hended _ }⟩
      · refine ⟨(s.output.take count).drop n, ?_, ?_⟩
        · show s.played ++ _ ++ _ = _
          rw [List.append_assoc, List.take_append_drop]
          exact hplayed
        · rw [List.length_drop, hcount]
          exact Nat.le_trans (Nat.sub_le _ _) (List.length_take_le _ _)
      · rintro (heq | hgiven)
        · cases heq
        · exact h.silent (.inr hgiven)
  case h_7 htask =>
    rw [htask] at hok
    refine ⟨{ h with alive := fun _ => h.alive (by rw [htask]; rfl), task := hok, silent := fun _ => rfl },
      { hsame with ends := fun hnone => (by cases hnone), ended := fun hnone => ?_ }⟩
    rw [htask] at hnone
    cases hnone
  -- the semaphore is there as long as the task is
  case h_8 htask =>
    rw [htask] at hok
    have halive := h.alive (by rw [htask]; rfl)
    split
    case h_1 hnone =>
      rw [hnone] at halive
      cases halive.2
    case h_2 =>
      refine ⟨{ h with alive := fun hsome => ?_, task := hok, silent := fun _ => h.silent (.inl htask) },
        { hsame with ends := fun _ => .inr rfl, ended := fun hnone => ?_ }⟩
      · cases hsome
      · rw [htask] at hnone
        cases hnone

end FoloGameboy

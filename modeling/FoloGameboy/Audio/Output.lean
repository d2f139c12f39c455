/-
`gb_audio.c`: the sound blocks of a game go through a queue of eight to the audio task, which hands
them to the codec in pairs. The task may take steps between any two accesses of the game. A queue or
a semaphore that does not exist, and an index outside its array, is a fault.
-/
import FoloGameboy.Apu.Chip
import FoloGameboy.Game.Input
import FoloGameboy.Lib.Interleave

namespace FoloGameboy

open Effect

/-! ## Blocks -/

def GB_AUDIO_OUTPUT_RATE : UInt64 := 16000
def GB_AUDIO_MAX_OUTPUT_SAMPLES : Nat := 267

/-- `gb_audio_resampled_count`; `size_t` has 32 bits. -/
def gbAudioResampledCount (generatedBlocks : UInt64) : UInt32 :=
  let total := generatedBlocks * UInt64.ofNat GB_AUDIO_SAMPLES * GB_AUDIO_OUTPUT_RATE / GB_AUDIO_SOURCE_RATE
  let previous := (generatedBlocks - 1) * UInt64.ofNat GB_AUDIO_SAMPLES * GB_AUDIO_OUTPUT_RATE / GB_AUDIO_SOURCE_RATE
  (total - previous).toUInt32

/-- `audio_block_t`; `samples` is an array of `GB_AUDIO_SAMPLES`. -/
structure AudioBlock where
  stop : Bool
  outputCount : UInt16 := 0
  samples : List Int := List.replicate GB_AUDIO_SAMPLES 0
deriving DecidableEq

/-- A sample between two of the source; `>> 8` of a negative number rounds down. -/
def resampleAt (source : List Int) (position : UInt32) : Option Int :=
  let index := (position >>> 8).toNat
  if GB_AUDIO_SAMPLES - 1 ≤ index then source[GB_AUDIO_SAMPLES - 1]?
  else do
    let sample ← source[index]?
    let next ← source[index + 1]?
    let delta := next - sample
    return wrapInt16 (sample + delta * ((position &&& 255).toNat : Int) / 256)

/-- `resample_block`: what is stored from `output` on. -/
def resampleBlock (source : List Int) (count : Nat) : Option (List Int) :=
  if count = GB_AUDIO_SAMPLES then
    if source.length < count then none else some (source.take count)
  -- `count - 1u` wraps or divides by zero
  else if count ≤ 1 then none
  else do
    let step := ((UInt32.ofNat GB_AUDIO_SAMPLES - 1) <<< 8) / (UInt32.ofNat count - 1)
    let output ← (List.range count).mapM fun i => resampleAt source (UInt32.ofNat i * step)
    let last ← source[GB_AUDIO_SAMPLES - 1]?
    return output.set (count - 1) last

/-- A store into an array. -/
def storeSamples (output : List Int) (offset : Nat) (samples : List Int) : Option (List Int) :=
  if offset + samples.length ≤ output.length then
    some (output.take offset ++ samples ++ output.drop (offset + samples.length))
  else none

/-! ## State -/

/-- Where `audio_task` stands. -/
inductive TaskAt where
  /-- It asks whether the queue holds four blocks. -/
  | prebuffer
  /-- It holds fewer; is a stop requested? -/
  | prebufferStop
  /-- The test of the second loop. -/
  | round
  /-- It waits for block `i` of the round, `count` samples being in `s_output`. -/
  | receive (i count : Nat)
  | write (count : Nat)
  | quiet
  | give
deriving DecidableEq

/-- How a block left the queue. -/
inductive Gone where
  | taken | dropped | discarded
deriving DecidableEq

/-- The statics of `gb_audio.c`, what they stand for, and what has happened since the queue was created:
what was sent, what left the queue and how, and what the codec has played. -/
structure AudioState where
  queue : Option (List AudioBlock) := none
  /-- Whether the semaphore is given. -/
  stopped : Option Bool := none
  handle : Bool := false
  task : Option TaskAt := none
  failed : Bool := false
  stopRequested : Bool := false
  dropped : UInt32 := 0
  outputSamples : UInt32 := 0
  waits : UInt32 := 0
  maxWaitUs : UInt32 := 0
  submittedBlocks : UInt64 := 0
  output : List Int := List.replicate (GB_AUDIO_MAX_OUTPUT_SAMPLES * 2) 0
  volume : UInt8 := 0
  sent : List AudioBlock := []
  gone : List (AudioBlock × Gone) := []
  played : List Int := []
  fault : Bool := false

def AudioState.faulted (s : AudioState) : AudioState := { s with fault := true }

/-! ## `audio_task` -/

/-- What a step of the task finds: the time it has waited, and whether the codec takes all samples or
fails after some. -/
structure TaskChance where
  waited : UInt32 := 0
  failsAfter : Option Nat := none

/-- The rest of a pass through the inner loop, with the block received. -/
def audioReceived (c : TaskChance) (i count : Nat) (block : AudioBlock) (s : AudioState) : AudioState :=
  if block.stop then { s with task := some .quiet }
  else
    let s := { s with
      waits := if 5000 < c.waited then s.waits + 1 else s.waits
      maxWaitUs := if s.maxWaitUs < c.waited then c.waited else s.maxWaitUs }
    let stored := (resampleBlock block.samples block.outputCount.toNat).bind (storeSamples s.output count)
    match stored with
    | none => s.faulted
    | some output =>
      let count := count + block.outputCount.toNat
      { s with output := output, task := some (if i + 1 < 2 then .receive (i + 1) count else .write count) }

/-- `bsp_audio_write` and what follows. The write and its count are one step: `outputSamples` says what
was played whenever the task is not between the two. -/
def audioWrite (c : TaskChance) (count : Nat) (s : AudioState) : AudioState :=
  match c.failsAfter with
  | none => { s with
      played := s.played ++ s.output.take count
      outputSamples := s.outputSamples + UInt32.ofNat count
      task := some .round }
  | some n => { s with
      played := s.played ++ (s.output.take count).take n
      failed := true
      task := some .quiet }

/-- A step of the task, up to its next access to what it shares with the game. -/
def audioTask (c : TaskChance) (s : AudioState) : AudioState :=
  match s.task with
  | none => s
  | some .prebuffer =>
    match s.queue with
    | none => s.faulted
    | some queue => { s with task := some (if queue.length < 4 then .prebufferStop else .round) }
  | some .prebufferStop => { s with task := some (if s.stopRequested then .round else .prebuffer) }
  | some .round => { s with task := some (if s.stopRequested then .quiet else .receive 0 0) }
  | some (.receive i count) =>
    match s.queue with
    | none => s.faulted
    | some [] => s
    | some (block :: queue) =>
      audioReceived c i count block { s with queue := some queue, gone := s.gone ++ [(block, .taken)] }
  | some (.write count) => audioWrite c count s
  | some .quiet => { s with volume := 0, task := some .give }
  | some .give =>
    match s.stopped with
    | none => s.faulted
    | some _ => { s with stopped := some true, task := none }

/-! ## The accesses of the game -/

inductive AudioOp where
  | initPlayback
  | setFormat
  | setVolume (volume : UInt8)
  | queueCreate
  | semaphoreCreate
  | taskCreate
  /-- `s_task || s_queue` -/
  | inUse
  /-- `s_queue` -/
  | hasQueue
  /-- The statics of a start. -/
  | reset
  | failed
  /-- `++s_submitted_blocks` -/
  | nextBlock
  /-- `s_dropped++` -/
  | countDropped
  /-- Without waiting. -/
  | queueSend (block : AudioBlock)
  | queueReceive
  | requestStop
  | queueReset
  /-- For two seconds. -/
  | semaphoreTake
  /-- `s_task = NULL` -/
  | forgetTask
  /-- The queue is deleted, and `s_queue = NULL`. -/
  | queueDelete
  | semaphoreDelete

abbrev AudioRes : AudioOp → Type
  | .setVolume _ => Unit
  | .reset => Unit
  | .nextBlock => UInt64
  | .countDropped => Unit
  | .queueReceive => Option AudioBlock
  | .requestStop => Unit
  | .queueReset => Unit
  | .forgetTask => Unit
  | .queueDelete => Unit
  | .semaphoreDelete => Unit
  | _ => Bool

def audioQueueSend (block : AudioBlock) (s : AudioState) : Bool × AudioState :=
  match s.queue with
  | none => (false, s.faulted)
  | some queue =>
    if queue.length < 8 then (true, { s with queue := some (queue ++ [block]), sent := s.sent ++ [block] })
    else (false, s)

def audioQueueReceive (s : AudioState) : Option AudioBlock × AudioState :=
  match s.queue with
  | none => (none, s.faulted)
  | some [] => (none, s)
  | some (block :: queue) => (some block, { s with queue := some queue, gone := s.gone ++ [(block, .dropped)] })

/-- What waits leaves the queue unplayed. -/
def audioDiscard (s : AudioState) (queue : List AudioBlock) (left : Option (List AudioBlock)) : AudioState :=
  { s with queue := left, gone := s.gone ++ queue.map fun block => (block, .discarded) }

def audioQueueReset (left : Option (List AudioBlock)) (s : AudioState) : AudioState :=
  match s.queue with
  | none => s.faulted
  | some queue => audioDiscard s queue left

def audioSemaphoreDelete (s : AudioState) : AudioState :=
  match s.stopped with
  | none => s.faulted
  | some _ => { s with stopped := none }

/-- Memory may be short, and the codec may not answer. -/
def AudioDone : (o : AudioOp) → AudioState → AudioRes o → AudioState → Prop
  | .initPlayback, s, _, s' => s' = s
  | .setFormat, s, _, s' => s' = s
  | .setVolume volume, s, _, s' => s' = { s with volume := volume }
  | .queueCreate, s, r, s' => s' = if r then { s with queue := some [], sent := [], gone := [], played := [] } else s
  | .semaphoreCreate, s, r, s' => s' = if r then { s with stopped := some false } else s
  | .taskCreate, s, r, s' => s' = if r then { s with task := some .prebuffer, handle := true } else s
  | .inUse, s, r, s' => s' = s ∧ r = (s.handle || s.queue.isSome)
  | .hasQueue, s, r, s' => s' = s ∧ r = s.queue.isSome
  | .reset, s, _, s' => s' = { s with
      failed := false, stopRequested := false, dropped := 0, outputSamples := 0, waits := 0, maxWaitUs := 0
      submittedBlocks := 0 }
  | .failed, s, r, s' => s' = s ∧ r = s.failed
  | .nextBlock, s, r, s' => s' = { s with submittedBlocks := s.submittedBlocks + 1 } ∧ r = s.submittedBlocks + 1
  | .countDropped, s, _, s' => s' = { s with dropped := s.dropped + 1 }
  | .queueSend block, s, r, s' => (r, s') = audioQueueSend block s
  | .queueReceive, s, r, s' => (r, s') = audioQueueReceive s
  | .requestStop, s, _, s' => s' = { s with stopRequested := true }
  | .queueReset, s, _, s' => s' = audioQueueReset (some []) s
  | .semaphoreTake, s, r, s' => r = (s.stopped == some true) ∧
      s' = match s.stopped with
        | none => s.faulted
        | some _ => { s with stopped := some false }
  | .forgetTask, s, _, s' => s' = { s with handle := false }
  | .queueDelete, s, _, s' => s' = audioQueueReset none s
  | .semaphoreDelete, s, _, s' => s' = audioSemaphoreDelete s

/-- A step of the task, whatever it finds. -/
def TaskStep (s s' : AudioState) : Prop := ∃ c, s' = audioTask c s

/-- The accesses of the game, and the task. -/
def audioDevice : Device AudioOp AudioRes AudioState :=
  Device.among TaskStep { done := AudioDone, cut := fun _ s s' => s' = s }

/-! ## What the game calls -/

abbrev AudioM : Type → Type := Prog AudioOp AudioRes

def audioAsk (o : AudioOp) : AudioM (AudioRes o) := Prog.op o

/-- What exists is deleted again. -/
def audioUndo (queue stopped : Bool) : AudioM Bool := do
  (if queue then audioAsk .queueDelete else pure ())
  (if stopped then audioAsk .semaphoreDelete else pure ())
  pure false

/-- The rest of `gb_audio_start`, with the queue and the semaphore created. -/
def audioLaunch (volume : UInt8) : AudioM Bool := do
  audioAsk .reset
  audioAsk (.setVolume volume)
  let created ← audioAsk .taskCreate
  if created then pure true
  else do
    audioAsk (.setVolume 0)
    audioUndo true true

def gbAudioStart (volume : UInt8) : AudioM Bool := do
  let inUse ← audioAsk .inUse
  if inUse then pure false
  else do
    let playback ← audioAsk .initPlayback
    let ready ← (if playback then audioAsk .setFormat else pure false)
    if ¬ ready then pure false
    else do
      let queue ← audioAsk .queueCreate
      let stopped ← audioAsk .semaphoreCreate
      if ¬ queue ∨ ¬ stopped then audioUndo queue stopped else audioLaunch volume

/-- The block of the samples; `memcpy` copies `GB_AUDIO_SAMPLES` of them. -/
def audioBlock (number : UInt64) (samples : List Int) : AudioBlock :=
  ⟨false, (gbAudioResampledCount number).toUInt16, samples.take GB_AUDIO_SAMPLES⟩

/-- The block goes into the queue, in a full one instead of the oldest. -/
def audioSend (block : AudioBlock) : AudioM Unit := do
  let queued ← audioAsk (.queueSend block)
  if queued then pure ()
  else do
    let stale ← audioAsk .queueReceive
    (if stale.isSome then audioAsk .countDropped else pure ())
    let queued ← audioAsk (.queueSend block)
    (if queued then pure () else audioAsk .countDropped)

def gbAudioSubmit (samples : Option (List Int)) (count : Nat) : AudioM Unit := do
  let hasQueue ← audioAsk .hasQueue
  match samples with
  | none => pure ()
  | some samples =>
    if ¬ hasQueue ∨ count ≠ GB_AUDIO_SAMPLES then pure ()
    else do
      let failed ← audioAsk .failed
      if failed then pure ()
      else do
        let number ← audioAsk .nextBlock
        audioSend (audioBlock number samples)

/-- The queue holds nothing but the stop. -/
def audioSignal : AudioM Unit := do
  audioAsk .requestStop
  audioAsk .queueReset
  let _ ← audioAsk (.queueSend { stop := true })
  pure ()

/-- The rest of `gb_audio_stop`, once the task has ended. -/
def audioRelease : AudioM Bool := do
  audioAsk .forgetTask
  audioAsk .queueDelete
  audioAsk .semaphoreDelete
  let failed ← audioAsk .failed
  pure (!failed)

def gbAudioStop : AudioM Bool := do
  let hasQueue ← audioAsk .hasQueue
  if ¬ hasQueue then pure true
  else do
    audioSignal
    let ended ← audioAsk .semaphoreTake
    if ended then audioRelease else pure false

end FoloGameboy

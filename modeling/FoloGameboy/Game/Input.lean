/-
What the game screen makes of its inputs: `gb_input`, the button messages of the board, the pacing of
drawn frames and of audio blocks.
-/
import FoloGameboy.Port.Session

namespace FoloGameboy

/-! ## `gb_input` -/

/-- `pad_sample_t`. -/
structure PadSample where
  connected : Bool := false
  right : Bool := false
  left : Bool := false
  up : Bool := false
  down : Bool := false
  a : Bool := false
  b : Bool := false
  view : Bool := false
  menu : Bool := false
  anyButton : Bool := false

def gbInputMap (sample : PadSample) : Keys :=
  if ¬ sample.connected then {}
  else
    { right := sample.right && !sample.left
      left := sample.left && !sample.right
      up := sample.up && !sample.down
      down := sample.down && !sample.up
      a := sample.a
      b := sample.b
      select := sample.view
      start := sample.menu }

def GB_SELECT_PAUSE_US : Int := 1000000

/-- `gb_select_pause_t`. -/
structure SelectPause where
  connected : Bool
  armed : Bool
  holding : Bool := false
  startedUs : Int := 0

def gbSelectPauseInit (p : PadSample) : SelectPause := { connected := p.connected, armed := p.connected && !p.view }

def gbSelectPauseStep (s : SelectPause) (p : PadSample) (nowUs : Int) : Bool × SelectPause :=
  if ¬ p.connected ∨ ¬ s.connected then (false, gbSelectPauseInit p)
  else if ¬ p.view then (false, { s with armed := true, holding := false })
  else if ¬ s.armed then (false, s)
  else
    let s := if s.holding then s else { s with holding := true, startedUs := nowUs }
    if nowUs - s.startedUs < GB_SELECT_PAUSE_US then (false, s) else (true, { s with armed := false })

inductive MenuAction where
  | none | up | down | confirm | back
deriving DecidableEq

/-- `gb_menu_input_t`. -/
structure MenuInput where
  connected : Bool
  up : Bool
  down : Bool
  a : Bool
  b : Bool

def gbMenuInputInit (sample : PadSample) : MenuInput :=
  { connected := sample.connected
    up := sample.connected && sample.up
    down := sample.connected && sample.down
    a := sample.connected && sample.a
    b := sample.connected && sample.b }

def gbMenuInputStep (state : MenuInput) (sample : PadSample) : MenuAction × MenuInput :=
  if ¬ sample.connected ∨ ¬ state.connected then (.none, gbMenuInputInit sample)
  else
    let action : MenuAction :=
      if sample.up ∧ ¬ sample.down ∧ ¬ state.up then .up
      else if sample.down ∧ ¬ sample.up ∧ ¬ state.down then .down
      else if sample.a ∧ ¬ state.a then .confirm
      else if sample.b ∧ ¬ state.b then .back
      else .none
    (action, gbMenuInputInit sample)

/-! ## Board buttons -/

inductive Button where
  | up | down | ok
deriving DecidableEq

inductive ButtonEvent where
  | press | click | double | long
deriving DecidableEq

structure ButtonMessage where
  button : Button
  event : ButtonEvent
deriving DecidableEq

def boardMenuAction (msg : ButtonMessage) : MenuAction :=
  if msg.event ≠ .click then .none
  else
    match msg.button with
    | .up => .up
    | .down => .down
    | .ok => .confirm

/-- `game_button_actions_t`. -/
structure GameButtonActions where
  pause : Bool := false
  start : Bool := false
  select : Bool := false

/-- The loop body of `poll_game_buttons`. -/
def pollButton (actions : GameButtonActions) (msg : ButtonMessage) : GameButtonActions :=
  if msg = ⟨.ok, .long⟩ then { actions with pause := true }
  else if msg = ⟨.ok, .click⟩ then { actions with start := true }
  else if msg = ⟨.up, .click⟩ then { actions with select := true }
  else actions

/-! ## Pacing -/

/-- `gb_frame_pacing_t`; `gb_frame_pacing_init` is its default. -/
structure FramePacing where
  drawInterval : UInt8 := 2
  frames : UInt32 := 0
  lastDrawFrame : UInt32 := 0
  hasDrawn : Bool := false
  windowFrames : UInt32 := 0
  windowWorkUs : UInt64 := 0

def gbFramePacingDraw (pacing : FramePacing) : Bool :=
  !pacing.hasDrawn || pacing.drawInterval.toUInt32 ≤ pacing.frames - pacing.lastDrawFrame

def gbFramePacingMarkDrawn (pacing : FramePacing) : FramePacing :=
  { pacing with lastDrawFrame := pacing.frames, hasDrawn := true }

def gbFramePacingRecord (pacing : FramePacing) (workUs : UInt32) : FramePacing :=
  let pacing := { pacing with
    frames := pacing.frames + 1
    windowFrames := pacing.windowFrames + 1
    windowWorkUs := pacing.windowWorkUs + workUs.toUInt64 }
  if pacing.windowFrames < 60 then pacing
  else
    let average := pacing.windowWorkUs / pacing.windowFrames.toUInt64
    let interval :=
      if 16000 < average ∧ pacing.drawInterval < 4 then pacing.drawInterval + 1
      else if average < 14000 ∧ 2 < pacing.drawInterval then pacing.drawInterval - 1
      else pacing.drawInterval
    { pacing with drawInterval := interval, windowFrames := 0, windowWorkUs := 0 }

def GB_AUDIO_SOURCE_RATE : UInt64 := 16000
def GB_AUDIO_SAMPLES : Nat := 267

def gbAudioBlocksDue (elapsedUs generatedBlocks : UInt64) : Nat :=
  let sourceSamples := elapsedUs * GB_AUDIO_SOURCE_RATE / 1000000
  let due := (sourceSamples + UInt64.ofNat GB_AUDIO_SAMPLES - 1) / UInt64.ofNat GB_AUDIO_SAMPLES
  if due ≤ generatedBlocks then 0
  else
    let needed := due - generatedBlocks
    if 4 < needed then 4 else needed.toNat

end FoloGameboy

/-
The states a controller report goes through: the samples of keyboards and sticks, the buffer of
`gb_input` that the game reads frame by frame, and the state of the tester screen.
-/
import FoloGameboy.Game.Input

namespace FoloGameboy

/-! ## Samples -/

def sampleBits (p : PadSample) : UInt32 :=
  (if p.right then 1 else 0) ||| (if p.left then 2 else 0) ||| (if p.up then 4 else 0) ||| (if p.down then 8 else 0) |||
    (if p.a then 16 else 0) ||| (if p.b then 32 else 0) ||| (if p.view then 64 else 0) ||| (if p.menu then 128 else 0)

def released (p : PadSample) : Bool := p.connected && !p.anyButton && sampleBits p == 0

def gbInputLeftStick (sample : PadSample) (x y : Int) : PadSample :=
  if ¬ sample.connected then sample
  else
    let sample :=
      if !sample.left && !sample.right then { sample with left := decide (x < -160), right := decide (160 < x) }
      else sample
    let sample :=
      if !sample.up && !sample.down then { sample with up := decide (y < -160), down := decide (160 < y) } else sample
    { sample with anyButton := sample.anyButton || (sample.left || sample.right || sample.up || sample.down) }

/-- The switch of `gb_input_keyboard`. -/
def pressKey (key : UInt8) (out : PadSample) : PadSample :=
  if key = 0x1a then { out with up := true }
  else if key = 0x04 then { out with left := true }
  else if key = 0x16 then { out with down := true }
  else if key = 0x07 then { out with right := true }
  else if key = 0x0d then { out with a := true }
  else if key = 0x0e then { out with b := true }
  else if key = 0x0f then { out with menu := true }
  else if key = 0x0c then { out with view := true }
  else out

/-- The loop of `gb_input_keyboard`; an error code in place of a key releases all. -/
def pressKeys (out : PadSample) : List UInt8 → PadSample
  | [] => out
  | key :: keys =>
    if 1 ≤ key ∧ key ≤ 3 then { connected := true }
    else pressKeys (pressKey key { out with anyButton := out.anyButton || key != 0 }) keys

def gbInputKeyboard (keys : List UInt8) (modifiers : UInt8) : PadSample :=
  pressKeys { connected := true, anyButton := modifiers != 0 } keys

/-! ## The buffer -/

def GB_INPUT_BUFFER_CAPACITY : Nat := 16
def GB_INPUT_BUFFER_MAX_AGE_US : Int := 100000

/-- `gb_input_event_t`. -/
structure InputEvent where
  sample : PadSample := {}
  atUs : Int := 0

/-- `gb_input_buffer_t`. -/
structure InputBuffer where
  latest : PadSample := {}
  events : Vector InputEvent GB_INPUT_BUFFER_CAPACITY := .replicate _ {}
  head : Nat := 0
  count : Nat := 0
  enabled : Bool := false
  armed : Bool := false
  dropped : UInt32 := 0

def gbInputBufferReset (s : InputBuffer) (p : PadSample) (enabled : Bool) : InputBuffer :=
  { s with latest := p, head := 0, count := 0, enabled := enabled, armed := enabled && released p }

def gbInputBufferPush (s : InputBuffer) (p : PadSample) (nowUs : Int) : InputBuffer :=
  let previous := sampleBits s.latest
  let s := { s with latest := p }
  if ¬ p.connected ∨ ¬ s.enabled then { s with head := 0, count := 0, armed := false }
  else if ¬ s.armed then { s with armed := released p }
  else if sampleBits p = previous then s
  else
    -- a full buffer is discarded whole
    let s :=
      if s.count = GB_INPUT_BUFFER_CAPACITY then
        { s with dropped := s.dropped + UInt32.ofNat s.count, head := 0, count := 0 } else s
    let tail := (s.head + s.count) % GB_INPUT_BUFFER_CAPACITY
    { s with events := s.events.setIfInBounds tail { sample := p, atUs := nowUs }, count := s.count + 1 }

def InputBuffer.event (s : InputBuffer) (i : Nat) : InputEvent := s.events[i]?.getD {}

/-- The sample of the next frame, and the buffer without it. -/
def gbInputBufferTake (s : InputBuffer) (nowUs : Int) : PadSample × InputBuffer :=
  if ¬ s.enabled ∨ ¬ s.armed then ({ connected := s.latest.connected }, s)
  else
    let s :=
      if s.count ≠ 0 ∧ GB_INPUT_BUFFER_MAX_AGE_US < nowUs - (s.event s.head).atUs then
        { s with dropped := s.dropped + UInt32.ofNat s.count, head := 0, count := 0 }
      else s
    if s.count = 0 then (s.latest, s)
    else ((s.event s.head).sample, { s with head := (s.head + 1) % GB_INPUT_BUFFER_CAPACITY, count := s.count - 1 })

/-! ## The tester -/

/-- `gamepad_test_state_t`. -/
structure GamepadTestState where
  connected : Bool := false
  keyboard : Bool := false
  iine : Bool := false
  firmware : UInt16 := 0
  buttons : UInt16 := 0
  dpad : UInt8 := 0
  axes : Vector Int 4 := .replicate 4 0
  triggers : Vector Int 2 := .replicate 2 0
  reports : UInt32 := 0
  pressedAt : Vector UInt32 18 := .replicate 18 0
  seenPress : UInt32 := 0

def gamepadTestReset (connected keyboard : Bool) : GamepadTestState := { connected := connected, keyboard := keyboard }

def gamepadTestUpdate (s : GamepadTestState) (buttons : UInt16)
    (dpad : UInt8) (axes : Vector Int 4) (triggers : Vector Int 2)
    (now : UInt32) : GamepadTestState :=
  if ¬ s.connected then s
  else
    let previous := s.buttons.toUInt32 ||| s.dpad.toUInt32 <<< 14
    let current := (buttons &&& 0x3fff).toUInt32 ||| (dpad &&& 15).toUInt32 <<< 14
    let rising := current &&& ~~~previous
    { s with
      pressedAt := .ofFn fun bit => if rising &&& (1 <<< UInt32.ofNat bit.val) ≠ 0 then now else s.pressedAt.get bit
      seenPress := s.seenPress ||| rising
      buttons := buttons &&& 0x3fff
      dpad := dpad &&& 15
      axes := axes
      triggers := triggers
      reports := s.reports + 1 }

end FoloGameboy

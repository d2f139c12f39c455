/-
`gamepad`: the callbacks of the Bluetooth thread, as programs whose operations are the critical
sections, and the calls of the game between them. Scanning, the passkey timer and the log are left out;
the other callbacks of the thread change the pairing state only, and are its operations.
-/
import FoloGameboy.Lib.Interleave
import FoloGameboy.Pad.Discovery
import FoloGameboy.Pad.Input

namespace FoloGameboy

open Effect

/-! ## The state -/

/-- The statics of `gamepad`, and `esp_timer_get_time`. Devices are the slots of `uni_hid_device`. -/
structure PadState where
  sample : PadSample := {}
  test : GamepadTestState := {}
  inputBuffer : InputBuffer := {}
  discovery : GamepadDiscovery := {}
  owner : Option Nat := none
  nowUs : Int := 0

/-- What a callback does to the statics. -/
inductive PadOp where
  /-- Read `s_owner`, which only this thread writes. -/
  | owner
  | update (f : PadState → PadState)
  /-- The first section of `device_ready`. -/
  | checkSelected (address : Vector UInt8 6)

abbrev PadRes : PadOp → Type
  | .owner => Option Nat
  | .update _ => Unit
  | .checkSelected _ => Bool

abbrev PadProg (α : Type) : Type := Prog PadOp PadRes α

def padHandle : (o : PadOp) → PadState → PadRes o × PadState
  | .owner, s => (s.owner, s)
  | .update f, s => ((), f s)
  | .checkSelected address, s =>
    let selected := gamepadDiscoveryShouldConnect s.discovery address
    (selected, if selected then { s with discovery := gamepadDiscoveryPairingDone address true s.discovery } else s)

def readOwner : PadProg (Option Nat) := Prog.op PadOp.owner
def update (f : PadState → PadState) : PadProg Unit := Prog.op (PadOp.update f)
def checkSelected (address : Vector UInt8 6) : PadProg Bool := Prog.op (PadOp.checkSelected address)

/-! ## Callbacks -/

def setSample (sample : PadSample) : PadProg Unit :=
  update fun s => { s with sample := sample, inputBuffer := gbInputBufferPush s.inputBuffer sample s.nowUs }

def deviceDisconnected (device : Nat) (address : Vector UInt8 6) : PadProg Unit := do
  update fun s => { s with discovery := gamepadDiscoveryPairingDone address false s.discovery }
  let owner ← readOwner
  if owner ≠ some device then return ()
  update fun s => { s with owner := none }
  update fun s => { s with test := gamepadTestReset false false }
  setSample {}

/-- What `device_ready` reads of the device. -/
structure ReadyDevice where
  gamepad : Bool
  keyboard : Bool
  iine : Bool
  firmware : UInt16

/-- Whether the device is accepted. -/
def deviceReady (device : Nat) (address : Vector UInt8 6) (ready : ReadyDevice) : PadProg Bool := do
  let owner ← readOwner
  if owner ≠ none ∧ owner ≠ some device then return false
  let selected ← checkSelected address
  if ¬ selected ∨ (¬ ready.gamepad ∧ ¬ ready.keyboard) then return false
  update fun s => { s with owner := some device }
  update fun s =>
    { s with test := { gamepadTestReset true ready.keyboard with iine := ready.iine, firmware := ready.firmware } }
  setSample { connected := true }
  return true

/-- The fields of `uni_gamepad_t` that are read. -/
structure UniGamepad where
  dpad : UInt8
  axisX : Int
  axisY : Int
  axisRx : Int
  axisRy : Int
  brake : Int
  throttle : Int
  buttons : UInt16
  miscButtons : UInt8

/-- `uni_controller_t`, by class. -/
inductive UniController where
  | keyboard (pressedKeys : Vector UInt8 10) (modifiers : UInt8)
  | gamepad (gp : UniGamepad)
  | other

def DPAD_UP : UInt8 := 1
def DPAD_DOWN : UInt8 := 2
def DPAD_RIGHT : UInt8 := 4
def DPAD_LEFT : UInt8 := 8
def BUTTON_A : UInt16 := 1
def BUTTON_B : UInt16 := 2
def MISC_BUTTON_SYSTEM : UInt8 := 1
def MISC_BUTTON_SELECT : UInt8 := 2
def MISC_BUTTON_START : UInt8 := 4
def MISC_BUTTON_CAPTURE : UInt8 := 8

def keyboardButtons (next : PadSample) : UInt16 :=
  (if next.a then BUTTON_A else 0) ||| (if next.b then BUTTON_B else 0) |||
    (if next.view then (1 : UInt16) <<< 10 else 0) |||
    (if next.menu then (1 : UInt16) <<< 11 else 0)

def keyboardDpad (next : PadSample) : UInt8 :=
  (if next.up then DPAD_UP else 0) ||| (if next.down then DPAD_DOWN else 0) |||
    (if next.right then DPAD_RIGHT else 0) |||
    (if next.left then DPAD_LEFT else 0)

def gamepadButtons (gp : UniGamepad) : UInt16 :=
  gp.buttons ||| (if gp.miscButtons &&& MISC_BUTTON_SELECT ≠ 0 then (1 : UInt16) <<< 10 else 0) |||
    (if gp.miscButtons &&& MISC_BUTTON_START ≠ 0 then (1 : UInt16) <<< 11 else 0) |||
    (if gp.miscButtons &&& MISC_BUTTON_SYSTEM ≠ 0 then (1 : UInt16) <<< 12 else 0) |||
    (if gp.miscButtons &&& MISC_BUTTON_CAPTURE ≠ 0 then (1 : UInt16) <<< 13 else 0)

def gamepadSample (gp : UniGamepad) : PadSample :=
  gbInputLeftStick
    { connected := true
      right := gp.dpad &&& DPAD_RIGHT != 0
      left := gp.dpad &&& DPAD_LEFT != 0
      up := gp.dpad &&& DPAD_UP != 0
      down := gp.dpad &&& DPAD_DOWN != 0
      a := gp.buttons &&& BUTTON_A != 0
      b := gp.buttons &&& BUTTON_B != 0
      view := gp.miscButtons &&& MISC_BUTTON_SELECT != 0
      menu := gp.miscButtons &&& MISC_BUTTON_START != 0
      anyButton := gp.buttons != 0 || gp.miscButtons != 0 ||
        gp.dpad != 0 || decide (64 < gp.brake) || decide (64 < gp.throttle) }
    gp.axisX gp.axisY

def updateTest (buttons : UInt16) (dpad : UInt8) (axes : Vector Int 4) (triggers : Vector Int 2) : PadProg Unit :=
  update fun s =>
    { s with test := gamepadTestUpdate s.test buttons dpad axes triggers (UInt32.ofInt (s.nowUs.tdiv 1000)) }

def controllerData (device : Nat) (ctl : UniController) : PadProg Unit := do
  let owner ← readOwner
  if owner ≠ some device then return ()
  match ctl with
  | .keyboard pressedKeys modifiers =>
    let next := gbInputKeyboard pressedKeys.toList modifiers
    updateTest (keyboardButtons next) (keyboardDpad next) (.replicate 4 0) (.replicate 2 0)
    setSample next
  | .gamepad gp =>
    updateTest (gamepadButtons gp) gp.dpad #v[gp.axisX, gp.axisY, gp.axisRx, gp.axisRy] #v[gp.brake, gp.throttle]
    setSample (gamepadSample gp)
  | .other => return ()

/-! ## The calls of the game -/

/-- What other tasks do, each in one section, and the passing of time. -/
inductive PadCall where
  | setGameplay (enabled : Bool)
  | frameSnapshot
  | beginDiscovery
  | discovery (op : DiscoveryOp)
  | tick (nowUs : Int)

def gamepadSetGameplay (enabled : Bool) (s : PadState) : PadState :=
  { s with inputBuffer := gbInputBufferReset s.inputBuffer s.sample enabled }

def gamepadFrameSnapshot (s : PadState) : PadSample × PadState :=
  let r := gbInputBufferTake s.inputBuffer s.nowUs
  (r.1, { s with inputBuffer := r.2 })

def gamepadBeginDiscovery (s : PadState) : PadState :=
  if ¬ s.sample.connected then { s with discovery := gamepadDiscoveryBeginScan s.discovery } else s

def PadCall.apply : PadCall → PadState → PadState
  | .setGameplay enabled, s => gamepadSetGameplay enabled s
  | .frameSnapshot, s => (gamepadFrameSnapshot s).2
  | .beginDiscovery, s => gamepadBeginDiscovery s
  | .discovery op, s => { s with discovery := op.apply s.discovery }
  | .tick nowUs, s => { s with nowUs := nowUs }

/-! ## The threads -/

/-- A connection, as long as its slot is not reused. -/
structure PadDevice where
  connection : Nat
  address : Vector UInt8 6

/-- A callback for the device in a slot. -/
inductive PadCallback where
  | ready (device : Nat) (state : ReadyDevice)
  | data (device : Nat) (ctl : UniController)
  | disconnected (device : Nat)

def PadCallback.slot : PadCallback → Nat
  | .ready device _ => device
  | .data device _ => device
  | .disconnected device => device

def PadCallback.program (address : Vector UInt8 6) : PadCallback → PadProg Unit
  | .ready device state => do
    let _ ← deviceReady device address state
    return ()
  | .data device ctl => controllerData device ctl
  | .disconnected device => deviceDisconnected device address

/-- A callback that has begun: the operations it has performed, the latest first, each with the state it
was performed in, and the rest of it. -/
structure PadRunning where
  callback : PadCallback
  device : PadDevice
  log : List (PadOp × PadState) := []
  rest : PadProg Unit

structure PadSystem where
  state : PadState := {}
  slots : Nat → Option PadDevice := fun _ => none
  running : Option PadRunning := none

inductive PadAction where
  /-- A new connection takes a free slot. -/
  | attach (slot : Nat) (device : PadDevice)
  | begin (callback : PadCallback)
  /-- The Bluetooth thread performs one operation of its callback, or returns from it. -/
  | advance
  | call (c : PadCall)

/-- The slot of a device is free again after its disconnection was delivered. -/
def PadCallback.slotsAfter (slots : Nat → Option PadDevice) : PadCallback → Nat → Option PadDevice
  | .disconnected device => fun slot => if slot = device then none else slots slot
  | .ready _ _ => slots
  | .data _ _ => slots

/-- One action; what is not possible changes nothing. -/
def padStep (a : PadAction) (c : PadSystem) : PadSystem :=
  match a with
  | .attach slot device =>
    match c.slots slot with
    | none => { c with slots := fun i => if i = slot then some device else c.slots i }
    | some _ => c
  | .begin callback =>
    match c.running, c.slots callback.slot with
    | none, some device =>
      { c with running := some { callback := callback, device := device, rest := callback.program device.address } }
    | _, _ => c
  | .advance =>
    match c.running with
    | none => c
    | some r =>
      match r.rest with
      | .pure () => { c with running := none, slots := r.callback.slotsAfter c.slots }
      | .perform o k =>
        { c with
          state := (padHandle o c.state).2
          running := some { r with log := (o, c.state) :: r.log, rest := k (padHandle o c.state).1 } }
  | .call call => { c with state := call.apply c.state }

def padRun (schedule : List PadAction) (c : PadSystem) : PadSystem := schedule.foldl (fun c a => padStep a c) c

end FoloGameboy

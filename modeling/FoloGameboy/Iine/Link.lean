/-
`uni_bt_le_iine`: the links to controllers, from the discovery of their service to their input. The
client, the platform and the clock answer as an environment does; timers may fire at any time, and
connection timers and the log are left out. What happens on a link is kept in a history.
-/
import FoloGameboy.Iine.Protocol
import FoloGameboy.Pad.Gamepad

namespace FoloGameboy

/-! ## Links -/

def REQUEST_TIMEOUT_MS : UInt32 := 4500

/-- The UUIDs of the configuration service, which differ in one byte. -/
def iineUuid (id : UInt8) : List UInt8 :=
  [0xd7, 0xf0, 0x10, id, 0x66, 0x0d, 0x46, 0xe9, 0x96, 0xc3, 0x19, 0xc4, 0x14, 0x8b, 0xda, 0xb5]

def writeUuid : List UInt8 := iineUuid 0xe1
def notifyUuid : List UInt8 := iineUuid 0xe2
def modePayload : List UInt8 := [2, 0xdf, 0xab]
def testPayload : List UInt8 := [5, 0xdf, 0xab, 0, 6, 5]
def capsPayload : List UInt8 := [0, 1]
def identityPrefix : List UInt8 := [7, 0x10, 2, 0x20]

/-- `step_t`. -/
inductive IineStep where
  | service | characteristics | subscribe | info | confirm | caps | mode | delay | test | running
deriving DecidableEq

def IineStep.toNat : IineStep → Nat
  | .service => 0
  | .characteristics => 1
  | .subscribe => 2
  | .info => 3
  | .confirm => 4
  | .caps => 5
  | .mode => 6
  | .delay => 7
  | .test => 8
  | .running => 9

/-- The start of `gatt_client_service_t`. -/
structure GattService where
  startGroupHandle : UInt16 := 0
  endGroupHandle : UInt16 := 0

/-- `gatt_client_characteristic_t`. -/
structure GattCharacteristic where
  startHandle : UInt16 := 0
  valueHandle : UInt16 := 0
  endHandle : UInt16 := 0
  properties : UInt16 := 0
  uuid128 : List UInt8 := []

/-- `iine_link_t`. The connection tells links in one slot apart; the program does not have it. -/
structure IineLink where
  connection : Nat := 0
  device : Option Nat := none
  handle : UInt16 := 0
  step : IineStep := .service
  busy : Bool := false
  listening : Bool := false
  replied : Bool := false
  ready : Bool := false
  serialCounter : UInt8 := 0
  serial : UInt8 := 0
  attempts : UInt8 := 0
  firmware : UInt16 := 0
  deadline : UInt32 := 0
  nextKeepalive : UInt32 := 0
  service : GattService := {}
  write : GattCharacteristic := {}
  notify : GattCharacteristic := {}
  wire : List UInt8 := .replicate IINE_PACKET_MAX 0
  reply : IinePacket := { opcode := 0, serial := 0, payload := [] }
  input : IineInputState := {}

/-! ## What happens -/

/-- What happens on a connection. -/
inductive IineEvent where
  | started (connection : Nat)
  /-- The client has accepted an operation. -/
  | requested (connection : Nat)
  | completed (connection : Nat)
  /-- The link is reset. -/
  | ended (connection : Nat)
  /-- A packet is built in the wire buffer. -/
  | built (connection : Nat)
  /-- The wire buffer is given to the client to write. -/
  | wrote (connection : Nat) (bytes : List UInt8)
  | notified (connection : Nat) (value : List UInt8)
  /-- The link begins to wait for the user. -/
  | waiting (connection : Nat) (now : UInt32)
  /-- The user confirms, at a step of the link with its deadline. -/
  | confirmed (connection : Nat) (step : IineStep) (now deadline : UInt32)
  /-- The confirmation callback. -/
  | asked (device : Nat) (pending : Bool) (firmware : UInt16)
  /-- An input report changes the input state. -/
  | applied (connection : Nat)
  /-- The device is announced as ready. -/
  | ready (connection : Nat)
  | published (connection : Nat) (gp : UniGamepad)

/-- What `uni_hid_device_set_ready_complete` may do. -/
inductive ReadyAnswer where
  | accepted
  /-- The platform declined; the device was deleted. -/
  | declined
  | already
deriving DecidableEq

/-- The answers of the clock, the client and the platform, in order. -/
structure IineEnv where
  clock : Nat → UInt32
  status : Nat → UInt8
  ready : Nat → ReadyAnswer

/-- The parts of `uni_hid_device_t` that are read. -/
structure IineDevice where
  handle : UInt16
  bleIine : Bool

structure Iine (n : Nat) where
  env : IineEnv
  devices : Nat → IineDevice
  links : Fin n → IineLink := fun _ => {}
  /-- Whether a confirmation callback is set. -/
  callback : Bool := false
  clocks : Nat := 0
  statuses : Nat := 0
  readies : Nat := 0
  connections : Nat := 0
  /-- The latest first. -/
  history : List IineEvent := []

variable {n : Nat}

def Iine.setLink (s : Iine n) (i : Fin n) (l : IineLink) : Iine n := { s with links := Function.update s.links i l }
def Iine.record (s : Iine n) (e : IineEvent) : Iine n := { s with history := e :: s.history }

def getTimeMs (s : Iine n) : UInt32 × Iine n := (s.env.clock s.clocks, { s with clocks := s.clocks + 1 })
def gattStatus (s : Iine n) : UInt8 × Iine n := (s.env.status s.statuses, { s with statuses := s.statuses + 1 })

/-- `(int32_t)(now - deadline) >= 0`. -/
def due (now deadline : UInt32) : Bool := decide ((now - deadline).toNat < 2 ^ 31)

def forHandle (s : Iine n) (handle : UInt16) : Option (Fin n) :=
  (List.finRange n).find? fun i => (s.links i).device.isSome && (s.links i).handle == handle

/-! ## Helpers -/

def askUser (device : Nat) (pending : Bool) (firmware : UInt16) (s : Iine n) : Iine n :=
  if s.callback then s.record (.asked device pending firmware) else s

/-- The body of the loop in `uni_bt_le_iine_reset`. -/
def resetLink (device : Nat) (s : Iine n) (i : Fin n) : Iine n :=
  if (s.links i).device = some device then
    ((askUser device false 0 s).record (.ended (s.links i).connection)).setLink i {}
  else s

def uniBtLeIineReset (device : Nat) (s : Iine n) : Iine n := (List.finRange n).foldl (resetLink device) s

/-- The disconnection that follows has no link left to reset. -/
def fail (i : Fin n) (s : Iine n) : Iine n :=
  match (s.links i).device with
  | none => s
  | some device => uniBtLeIineReset device s

def advance (i : Fin n) (step : IineStep) (s : Iine n) : Iine n :=
  let (now, s) := getTimeMs s
  s.setLink i { s.links i with step := step, attempts := 0, replied := false, deadline := now }

def uniBtLeIineFirmware (device : Nat) (s : Iine n) : UInt16 :=
  match forHandle s (s.devices device).handle with
  | none => 0
  | some i => if (s.links i).device = some device then (s.links i).firmware else 0

def uniBtLeIineConfirm (device : Nat) (s : Iine n) : Iine n :=
  match forHandle s (s.devices device).handle with
  | none => s
  | some i =>
    let l := s.links i
    if l.device ≠ some device ∨ l.step ≠ .confirm then s
    else
      let (now, s) := getTimeMs s
      let s := s.record (.confirmed l.connection l.step now l.deadline)
      if due now l.deadline then fail i s else advance i .caps (askUser device false 0 s)

def checkStart (i : Fin n) (status : UInt8) (s : Iine n) : Bool × Iine n :=
  if status ≠ 0 then (false, fail i s)
  else
    let s := s.record (.requested (s.links i).connection)
    let (now, s) := getTimeMs s
    (true, s.setLink i { s.links i with busy := true, deadline := now + REQUEST_TIMEOUT_MS })

/-- An operation of the client that does not use the wire buffer. -/
def startQuery (i : Fin n) (s : Iine n) : Bool × Iine n :=
  let (status, s) := gattStatus s
  checkStart i status s

def nextSerial (counter : UInt8) : UInt8 := (counter &&& 0x7f) ||| (if counter &&& 1 ≠ 0 then 0 else 0x80)

/-- The link after a packet was built in its wire buffer. -/
def buildRequest (l : IineLink) (now : UInt32) (opcode : UInt8) (payload : Option (List UInt8)) :
    IineLink × List UInt8 :=
  let counter := l.serialCounter + 1
  let serial := nextSerial counter
  let bytes := iinePacketBuild IINE_PACKET_MAX opcode serial now.toUInt8 (payload.getD [])
  ({ l with serialCounter := counter, serial := serial, replied := false, wire := bytes ++ l.wire.drop bytes.length },
    bytes)

def sendRequest (i : Fin n) (opcode : UInt8) (payload : Option (List UInt8)) (s : Iine n) : Bool × Iine n :=
  let l := s.links i
  if l.busy ∨ ¬ iineRequestAllowed opcode payload then (false, s)
  else
    let (now, s) := getTimeMs s
    let (l, bytes) := buildRequest l now opcode payload
    let s := (s.record (.built l.connection)).setLink i l
    if bytes = [] then (false, fail i s)
    else
      let (status, s) := gattStatus (s.record (.wrote l.connection (l.wire.take bytes.length)))
      checkStart i status s

/-- The gamepad of an input state. -/
def inputGamepad (input : IineInputState) : UniGamepad :=
  let axis : Nat → Int := fun i => input.axes[i]?.getD 0
  let button : UInt32 → UInt32 := fun bit => input.buttons &&& (1 <<< bit)
  { dpad := input.dpad
    buttons :=
      ((input.buttons &&& (0xff : UInt32)) ||| ((input.buttons >>> (2 : UInt32)) &&& (0x300 : UInt32))).toUInt16
    miscButtons := (if button 8 ≠ 0 then MISC_BUTTON_SELECT else 0) ||| (if button 9 ≠ 0 then MISC_BUTTON_START else 0)
    axisX := (axis 0 - 128) * 4
    axisY := (axis 1 - 128) * 4
    axisRx := (axis 3 - 128) * 4
    axisRy := (axis 4 - 128) * 4
    brake := (axis 2 * 1023).tdiv 255
    throttle := (axis 5 * 1023).tdiv 255 }

def publishInput (i : Fin n) (s : Iine n) : Iine n :=
  s.record (.published (s.links i).connection (inputGamepad (s.links i).input))

/-! ## The timer -/

def replyFirmware (reply : List UInt8) : UInt16 := (reply.getD 4 0).toUInt16 <<< 8 ||| (reply.getD 5 0).toUInt16

/-- A reply to the identity request. -/
def checkIdentity (i : Fin n) (now : UInt32) (s : Iine n) : Iine n :=
  let l := s.links i
  let reply := l.reply.payload
  if reply.length ≠ 8 ∨ reply.take 4 ≠ identityPrefix then fail i s
  else if reply.getD 4 0 = 0x27 ∧ reply.getD 5 0 = 2 then advance i .caps (s.setLink i { l with firmware := 0x2702 })
  else if s.callback then
    let firmware := replyFirmware reply
    let s := advance i .confirm (s.setLink i { l with firmware := firmware })
    let s := (s.record (.waiting l.connection now)).setLink i { s.links i with deadline := now + 60000 }
    match l.device with
    | none => s
    | some device => askUser device true firmware s
  else fail i s

/-- The steps that ask for something and wait for its reply. -/
def tickRequest (i : Fin n) (now : UInt32) (s : Iine n) : Iine n :=
  let l := s.links i
  if l.replied then
    if l.step = .info then checkIdentity i now s else advance i .mode s
  else if due now l.deadline then
    if 2 ≤ l.attempts then
      if l.step = .info then fail i s else advance i .mode s
    else
      let s := s.setLink i { l with attempts := l.attempts + 1 }
      if l.step = .info then (sendRequest i 0x91 none s).2 else (sendRequest i 0xb0 (some capsPayload) s).2
  else s

/-- The controller is announced as ready and its input is published. -/
def tickReady (i : Fin n) (now : UInt32) (s : Iine n) : Iine n :=
  let s := s.setLink i { s.links i with step := .running }
  let s := s.record (.ready (s.links i).connection)
  let answer := s.env.ready s.readies
  let s := { s with readies := s.readies + 1 }
  match answer with
  | .already => s
  | .declined =>
    match (s.links i).device with
    | none => s
    | some device => uniBtLeIineReset device s
  | .accepted => publishInput i (s.setLink i { s.links i with ready := true, nextKeepalive := now + 1000 })

/-- `tick`, at the time it reads first. -/
def tickLink (i : Fin n) (now : UInt32) (s : Iine n) : Iine n :=
  let l := s.links i
  if l.busy then
    if due now l.deadline then fail i s else s
  else
    match l.step with
    | .info => tickRequest i now s
    | .caps => tickRequest i now s
    | .confirm => if due now l.deadline then fail i s else s
    | .mode =>
      let (sent, s) := sendRequest i 0x1d (some modePayload) s
      if sent then s.setLink i { s.links i with step := .delay, nextKeepalive := now + 500 } else s
    | .delay =>
      if due now l.nextKeepalive then
        let (sent, s) := sendRequest i 0x1d (some testPayload) s
        if sent then s.setLink i { s.links i with step := .test } else s
      else s
    | .test => tickReady i now s
    | .running =>
      if due now l.nextKeepalive then
        let s := (sendRequest i 0x1d (some testPayload) s).2
        s.setLink i { s.links i with nextKeepalive := now + 1000 }
      else s
    | .service => s
    | .characteristics => s
    | .subscribe => s

def iineTick (i : Fin n) (s : Iine n) : Iine n :=
  if (s.links i).device.isNone then s
  else
    let (now, s) := getTimeMs s
    tickLink i now s

/-! ## Events of the client -/

def HCI_EVENT_PACKET : UInt8 := 0x04
def GATT_EVENT_QUERY_COMPLETE : UInt8 := 0xA0
def GATT_EVENT_SERVICE_QUERY_RESULT : UInt8 := 0xA1
def GATT_EVENT_CHARACTERISTIC_QUERY_RESULT : UInt8 := 0xA2
def GATT_EVENT_NOTIFICATION : UInt8 := 0xA7
def ATT_PROPERTY_WRITE : UInt16 := 0x08
def ATT_PROPERTY_NOTIFY : UInt16 := 0x10

def littleEndianRead16 (packet : List UInt8) (offset : Nat) : UInt16 :=
  (packet.getD offset 0).toUInt16 ||| (packet.getD (offset + 1) 0).toUInt16 <<< 8

/-- `gatt_client_deserialize_service`, as far as it is used. -/
def getService (packet : List UInt8) : GattService :=
  { startGroupHandle := littleEndianRead16 packet 8, endGroupHandle := littleEndianRead16 packet 10 }

/-- `gatt_client_deserialize_characteristic`. -/
def getCharacteristic (packet : List UInt8) : GattCharacteristic :=
  { startHandle := littleEndianRead16 packet 8
    valueHandle := littleEndianRead16 packet 10
    endHandle := littleEndianRead16 packet 12
    properties := littleEndianRead16 packet 14
    uuid128 := ((packet.drop 16).take 16).reverse }

def serviceResult (i : Fin n) (packet : List UInt8) (s : Iine n) : Iine n :=
  let l := s.links i
  if l.step ≠ .service ∨ packet.length < 28 then s
  else if l.service.startGroupHandle ≠ 0 then fail i s
  else s.setLink i { l with service := getService packet }

def characteristicResult (i : Fin n) (packet : List UInt8) (s : Iine n) : Iine n :=
  let l := s.links i
  if l.step ≠ .characteristics ∨ packet.length < 32 then s
  else
    let chr := getCharacteristic packet
    let isWrite := chr.uuid128 = writeUuid ∧ chr.properties &&& ATT_PROPERTY_WRITE ≠ 0
    let isNotify := chr.uuid128 = notifyUuid ∧ chr.properties &&& ATT_PROPERTY_NOTIFY ≠ 0
    if isWrite ∧ l.write.valueHandle ≠ 0 then fail i s
    else
      let s := if isWrite then s.setLink i { l with write := chr } else s
      if isNotify ∧ (s.links i).notify.valueHandle ≠ 0 then fail i s
      else if isNotify then s.setLink i { s.links i with notify := chr }
      else s

/-- The next operation of the discovery. -/
def queryComplete (i : Fin n) (packet : List UInt8) (s : Iine n) : Iine n :=
  if packet.length < 9 ∨ ¬ (s.links i).busy then s
  else
    let s := s.setLink i { s.links i with busy := false }
    let l := s.links i
    if packet.getD 8 0 ≠ 0 then fail i s
    else
      match l.step with
      | .service =>
        if l.service.startGroupHandle = 0 then fail i s
        else (startQuery i (s.setLink i { l with step := .characteristics })).2
      | .characteristics =>
        if l.write.valueHandle = 0 ∨ l.notify.valueHandle = 0 then fail i s
        else (startQuery i (s.setLink i { l with step := .subscribe, listening := true })).2
      | .subscribe => advance i .info s
      | _ => s

/-- A value that was notified, once it is parsed. -/
def receivePacket (i : Fin n) (decoded : IinePacket) (s : Iine n) : Iine n :=
  let l := s.links i
  if (l.step = .info ∨ l.step = .caps) ∧ l.attempts ≠ 0 ∧ ¬ l.replied ∧
    decoded.opcode = 0x19 ∧ decoded.serial = l.serial then
    s.setLink i { l with reply := decoded, replied := true }
  else if IineStep.mode.toNat ≤ l.step.toNat ∧ decoded.opcode = 0x1f then
    match iineInputDecode decoded.payload l.input with
    | none => s
    | some input =>
      let s := (s.record (.applied l.connection)).setLink i { l with input := input }
      if l.ready then publishInput i s else s
  else s

def notification (i : Fin n) (packet : List UInt8) (s : Iine n) : Iine n :=
  let l := s.links i
  if packet.length < 12 ∨ littleEndianRead16 packet 8 ≠ l.notify.valueHandle then s
  else if (littleEndianRead16 packet 10).toNat ≠ packet.length - 12 then s
  else
    let value := packet.drop 12
    let s := s.record (.notified l.connection value)
    match iinePacketParse value with
    | none => s
    | some decoded => receivePacket i decoded s

def packetHandler (type : UInt8) (packet : List UInt8) (s : Iine n) : Iine n :=
  if type ≠ HCI_EVENT_PACKET ∨ packet.length < 4 ∨ (packet.getD 1 0).toNat + 2 ≠ packet.length then s
  else
    match forHandle s (littleEndianRead16 packet 2) with
    | none => s
    | some i =>
      let event := packet.getD 0 0
      if event = GATT_EVENT_SERVICE_QUERY_RESULT then serviceResult i packet s
      else if event = GATT_EVENT_CHARACTERISTIC_QUERY_RESULT then characteristicResult i packet s
      else if event = GATT_EVENT_QUERY_COMPLETE then queryComplete i packet s
      else if event = GATT_EVENT_NOTIFICATION then notification i packet s
      else s

/-- The input of a link that starts. -/
def neutralInput : IineInputState := { axes := #v[128, 128, 0, 128, 128, 0], hat := -1 }

def uniBtLeIineStart (device : Nat) (s : Iine n) : Iine n :=
  let d := s.devices device
  if ¬ d.bleIine ∨ (forHandle s d.handle).isSome then s
  else
    match (List.finRange n).find? fun i => (s.links i).device.isNone with
    | none => s
    | some i =>
      let l : IineLink :=
        { connection := s.connections, device := some device,
          handle := d.handle, step := .service, input := neutralInput }
      let s := { s with connections := s.connections + 1 }
      (startQuery i ((s.record (.started l.connection)).setLink i l)).2

/-! ## Runs -/

/-- Whether an operation of a connection is with the client. -/
def inFlight (connection : Nat) : List IineEvent → Bool
  | [] => false
  | .requested c :: history => c == connection || inFlight connection history
  | .completed c :: history => c != connection && inFlight connection history
  | .ended c :: history => c != connection && inFlight connection history
  | _ :: history => inFlight connection history

/-- What comes from outside, in any order. -/
inductive IineInput (n : Nat) where
  | packet (type : UInt8) (packet : List UInt8)
  | tick (i : Fin n)
  | confirm (device : Nat)
  | reset (device : Nat)
  | start (device : Nat)
  /-- The device table changes. -/
  | device (device : Nat) (state : IineDevice)
  | setCallback (set : Bool)

/-- The connection an event of the client completes an operation of. -/
def completion (type : UInt8) (packet : List UInt8) (s : Iine n) : Option Nat :=
  if type = HCI_EVENT_PACKET ∧ 4 ≤ packet.length ∧ packet.getD 0 0 = GATT_EVENT_QUERY_COMPLETE then
    (forHandle s (littleEndianRead16 packet 2)).map fun i => (s.links i).connection
  else none

/-- The client reports a completion only for an operation that it has accepted, once. -/
def deliverPacket (type : UInt8) (packet : List UInt8) (s : Iine n) : Iine n :=
  match completion type packet s with
  | none => packetHandler type packet s
  | some connection =>
      if inFlight connection s.history then packetHandler type packet (s.record (.completed connection)) else s

def IineInput.step : IineInput n → Iine n → Iine n
  | .packet type bytes, s => deliverPacket type bytes s
  | .tick i, s => iineTick i s
  | .confirm d, s => uniBtLeIineConfirm d s
  | .reset d, s => uniBtLeIineReset d s
  | .start d, s => uniBtLeIineStart d s
  | .device d state, s => { s with devices := Function.update s.devices d state }
  | .setCallback set, s => { s with callback := set }

def iineRun (inputs : List (IineInput n)) (s : Iine n) : Iine n := inputs.foldl (fun s input => input.step s) s

end FoloGameboy

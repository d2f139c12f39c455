/-
`gamepad_discovery`: the candidates a scan has found, the selected one, its passkey and its pending
firmware confirmation; and the redraw rule of the pairing screen, which looks at the revision only.
-/
import FoloGameboy.Storage.Layout

namespace FoloGameboy

/-! ## The state -/

def GAMEPAD_DISCOVERY_MAX : Nat := 8

/-- `gamepad_candidate_t`. -/
structure GamepadCandidate where
  address : Vector UInt8 6 := .replicate 6 0
  name : Vector UInt8 32 := .replicate 32 0
  keyboard : Bool := false
  typePending : Bool := false
deriving DecidableEq

/-- `gamepad_discovery_t`. -/
structure GamepadDiscovery where
  candidates : Vector GamepadCandidate GAMEPAD_DISCOVERY_MAX := .replicate _ {}
  count : Nat := 0
  selected : Bool := false
  selectedAddress : Vector UInt8 6 := .replicate 6 0
  passkeyVisible : Bool := false
  passkey : UInt32 := 0
  pairingFailed : Bool := false
  iineConfirmationPending : Bool := false
  iineConfirmationRequested : Bool := false
  iineFirmware : UInt16 := 0
  revision : UInt32 := 0
deriving DecidableEq

def GamepadDiscovery.candidate (d : GamepadDiscovery) (i : Nat) : GamepadCandidate := d.candidates[i]?.getD {}

/-- Write a slot of the table and count the change. -/
def GamepadDiscovery.setCandidate (d : GamepadDiscovery) (i : Nat) (c : GamepadCandidate) : GamepadDiscovery :=
  { d with candidates := d.candidates.setIfInBounds i c, revision := d.revision + 1 }

/-! ## Names -/

/-- The length of a name cut before a character that does not fit: back over continuation bytes. -/
def nameEnd (name : List UInt8) : Nat → Nat
  | 0 => 0
  | len + 1 => if name.getD (len + 1) 0 &&& 0xC0 = 0x80 then nameEnd name len else len + 1

/-- The buffer after a copy; a null name is the empty one. -/
def gamepadCopyName {capacity : Nat} (out : Vector UInt8 capacity) (name : Option (List UInt8)) :
    Vector UInt8 capacity :=
  let name := cstr (name.getD [])
  let len := if capacity ≤ name.length then nameEnd name (capacity - 1) else name.length
  .ofFn fun i => if i.val < len then name.getD i.val 0 else if i.val = len then 0 else out.get i

/-! ## Operations -/

/-- The first candidate with an address. -/
def findCandidate (d : GamepadDiscovery) (address : Vector UInt8 6) : Option Nat :=
  (List.range d.count).find? fun i => (d.candidate i).address = address

def updateType (keyboard hidProbe : Bool) (i : Nat) (d : GamepadDiscovery) : GamepadDiscovery :=
  if (d.candidate i).keyboard ≠ keyboard ∨ (d.candidate i).typePending ≠ hidProbe then
    d.setCandidate i { d.candidate i with keyboard := keyboard, typePending := hidProbe }
  else d

def updateName (name : Option (List UInt8)) (i : Nat) (d : GamepadDiscovery) : GamepadDiscovery :=
  let shortened := cstr (gamepadCopyName (.replicate 32 0) name).toList
  if shortened ≠ [] ∧ cstr (d.candidate i).name.toList ≠ shortened then
    d.setCandidate i { d.candidate i with name := gamepadCopyName (d.candidate i).name (some shortened) }
  else d

/-- Whether the device was taken into the table, and the new state. -/
def gamepadDiscoveryObserve (address : Vector UInt8 6) (cod : UInt16)
    (name : Option (List UInt8)) (d : GamepadDiscovery) :
    Bool × GamepadDiscovery :=
  let keyboard := cod &&& 0x1FC0 == 0x0540
  let gamepad := cod == 0x0508 || cod == 0x0504
  -- a BLE-only probe for an advertised HID service
  let hidProbe := cod == 0x0500
  if !keyboard && !gamepad && !hidProbe then (false, d)
  else
    match findCandidate d address with
    | some i => (true, updateName name i (updateType keyboard hidProbe i d))
    | none =>
      if d.count = GAMEPAD_DISCOVERY_MAX then (false, d)
      else
        let c : GamepadCandidate :=
          { address := address
            keyboard := keyboard
            typePending := hidProbe
            name :=
              if name.isSome then gamepadCopyName (d.candidate d.count).name name else (d.candidate d.count).name }
        (true, { d.setCandidate d.count c with count := d.count + 1 })

def gamepadDiscoverySelect (index : Nat) (d : GamepadDiscovery) : Bool × GamepadDiscovery :=
  if d.count ≤ index then (false, d)
  else
    (true, { d with
      selectedAddress := (d.candidate index).address
      selected := true
      iineConfirmationPending := false
      iineConfirmationRequested := false
      iineFirmware := 0
      passkeyVisible := false
      passkey := 0
      pairingFailed := false
      revision := d.revision + 1 })

def gamepadDiscoveryBeginScan (d : GamepadDiscovery) : GamepadDiscovery :=
  if d.selected ∨ d.count = 0 then d
  else { d with candidates := .replicate _ {}, count := 0, revision := d.revision + 1 }

def gamepadDiscoveryClearSelection (d : GamepadDiscovery) : GamepadDiscovery :=
  let d := gamepadDiscoveryBeginScan { d with
    selected := false
    iineConfirmationPending := false
    iineConfirmationRequested := false
    iineFirmware := 0
    passkeyVisible := false
    passkey := 0
    pairingFailed := false
    selectedAddress := .replicate 6 0 }
  { d with revision := d.revision + 1 }

def gamepadDiscoveryShouldConnect (d : GamepadDiscovery) (address : Vector UInt8 6) : Bool :=
  d.selected && d.selectedAddress = address

def gamepadDiscoveryPasskey (address : Vector UInt8 6) (passkey : UInt32) (d : GamepadDiscovery) : GamepadDiscovery :=
  if ¬ gamepadDiscoveryShouldConnect d address ∨ 999999 < passkey then d
  else { d with passkeyVisible := true, passkey := passkey, pairingFailed := false, revision := d.revision + 1 }

def gamepadDiscoveryPairingDone (address : Vector UInt8 6) (success : Bool) (d : GamepadDiscovery) : GamepadDiscovery :=
  if ¬ gamepadDiscoveryShouldConnect d address then d
  else
    let d := { d with passkeyVisible := false, passkey := 0, pairingFailed := !success }
    let d :=
      if success then d
      else { d with iineConfirmationPending := false, iineConfirmationRequested := false, iineFirmware := 0 }
    { d with revision := d.revision + 1 }

def gamepadDiscoveryIineConfirmation (address : Vector UInt8 6)
    (pending : Bool) (firmware : UInt16) (d : GamepadDiscovery) :
    GamepadDiscovery :=
  if ¬ gamepadDiscoveryShouldConnect d address then d
  else
    { d with
      iineConfirmationPending := pending
      iineConfirmationRequested := false
      iineFirmware := firmware
      revision := d.revision + 1 }

def gamepadDiscoveryConfirmIine (d : GamepadDiscovery) : Bool × GamepadDiscovery :=
  if ¬ d.selected ∨ ¬ d.iineConfirmationPending ∨ d.iineConfirmationRequested then (false, d)
  else (true, { d with iineConfirmationRequested := true, revision := d.revision + 1 })

/-- `apply_scan_policy` takes the user's request for a device over. -/
def takeConfirmation (address : Vector UInt8 6) (d : GamepadDiscovery) : GamepadDiscovery :=
  if gamepadDiscoveryShouldConnect d address ∧ d.iineConfirmationPending ∧ d.iineConfirmationRequested then
    { d with iineConfirmationRequested := false }
  else d

inductive DiscoveryOp where
  | observe (address : Vector UInt8 6) (cod : UInt16) (name : Option (List UInt8))
  | select (index : Nat)
  | beginScan
  | clearSelection
  | passkey (address : Vector UInt8 6) (value : UInt32)
  | pairingDone (address : Vector UInt8 6) (success : Bool)
  | iineConfirmation (address : Vector UInt8 6) (pending : Bool) (firmware : UInt16)
  | confirmIine
  | takeConfirmation (address : Vector UInt8 6)

def DiscoveryOp.apply : DiscoveryOp → GamepadDiscovery → GamepadDiscovery
  | .observe address cod name, d => (gamepadDiscoveryObserve address cod name d).2
  | .select index, d => (gamepadDiscoverySelect index d).2
  | .beginScan, d => gamepadDiscoveryBeginScan d
  | .clearSelection, d => gamepadDiscoveryClearSelection d
  | .passkey address value, d => gamepadDiscoveryPasskey address value d
  | .pairingDone address success, d => gamepadDiscoveryPairingDone address success d
  | .iineConfirmation address pending firmware, d => gamepadDiscoveryIineConfirmation address pending firmware d
  | .confirmIine, d => (gamepadDiscoveryConfirmIine d).2
  | .takeConfirmation address, d => FoloGameboy.takeConfirmation address d

/-- The address an event carries. -/
def DiscoveryOp.address? : DiscoveryOp → Option (Vector UInt8 6)
  | .observe address _ _ => some address
  | .passkey address _ => some address
  | .pairingDone address _ => some address
  | .iineConfirmation address _ _ => some address
  | .takeConfirmation address => some address
  | .select _ | .beginScan | .clearSelection | .confirmIine => none

def discoveryRun (ops : List DiscoveryOp) (d : GamepadDiscovery) : GamepadDiscovery :=
  ops.foldl (fun d op => op.apply d) d

/-! ## The pairing screen -/

/-- What the pairing screen shows of the state. -/
structure PairingView where
  candidates : List GamepadCandidate
  selected : Bool
  selectedAddress : Vector UInt8 6
  passkeyVisible : Bool
  passkey : UInt32
  pairingFailed : Bool
  iineConfirmationPending : Bool
  iineFirmware : UInt16
deriving DecidableEq

def pairingView (d : GamepadDiscovery) : PairingView :=
  { candidates := d.candidates.toList.take d.count
    selected := d.selected
    selectedAddress := d.selectedAddress
    passkeyVisible := d.passkeyVisible
    passkey := d.passkey
    pairingFailed := d.pairingFailed
    iineConfirmationPending := d.iineConfirmationPending
    iineFirmware := d.iineFirmware }

/-- The drawing state of `pairing_loop`. -/
structure PairingScreen where
  shownRevision : UInt32 := 0xFFFFFFFF
  dirty : Bool := true
  drawn : Option PairingView := none

/-- The end of an iteration: draw when marked, or when the revision is not the one shown. -/
def redraw (d : GamepadDiscovery) (s : PairingScreen) : PairingScreen :=
  let dirty := s.dirty || d.revision != s.shownRevision
  if dirty then { shownRevision := d.revision, dirty := false, drawn := some (pairingView d) } else s

end FoloGameboy

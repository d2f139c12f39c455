/-
`uni_bt_le_advertisement`: the fields of an advertisement and the cache of what the peers have sent.
Every load of the payload is checked: in what parses it, the outer option is a load outside the payload
and the inner one `return NULL`.
-/
import FoloGameboy.Lib.Loads
import FoloGameboy.Core.State
import FoloGameboy.Storage.Layout

namespace FoloGameboy

open LoadAt

def UNI_BT_LE_ADV_CACHE_SIZE : Nat := 16

def UNI_BT_LE_ADV_TTL_MS : UInt32 := 5000

def UNI_BT_LE_ADV_NAME_SIZE : Nat := 64

theorem advNameSize_pos : 0 < UNI_BT_LE_ADV_NAME_SIZE := by decide

structure AdvEntry where
  used : Bool := false
  completeName : Bool := false
  hidService : Bool := false
  iineService : Bool := false
  address : Vector UInt8 6 := .replicate 6 0
  addressType : UInt8 := 0
  appearance : UInt16 := 0
  lastSeenMs : UInt32 := 0
  name : Vector UInt8 UNI_BT_LE_ADV_NAME_SIZE := .replicate UNI_BT_LE_ADV_NAME_SIZE 0
deriving DecidableEq

structure AdvCache where
  entries : List AdvEntry
  size : entries.length = UNI_BT_LE_ADV_CACHE_SIZE
deriving DecidableEq

/-! ## Fields -/

def advHidUuid : List UInt8 :=
  [0xfb, 0x34, 0x9b, 0x5f, 0x80, 0x00, 0x00, 0x80, 0x00, 0x10, 0x00, 0x00, 0x12, 0x18, 0x00, 0x00]

def advIineUuid : List UInt8 :=
  [0xb5, 0xda, 0x8b, 0x14, 0xc4, 0x19, 0xc3, 0x96, 0xe9, 0x46, 0x0d, 0x66, 0xe0, 0x10, 0xf0, 0xd7]

/-- The fields of a packet so far, and whether one was an appearance. -/
structure AdvFields where
  fields : AdvEntry := {}
  hasAppearance : Bool := false
deriving DecidableEq

/-- The loop that shortens a name from `n` on until it cuts no UTF-8 sequence. -/
def nameLength (data : List UInt8) (value : Nat) : (n : Nat) → Option Nat
  | 0 => some 0
  | n + 1 =>
    match data[value + (n + 1)]? with
    | none => none
    | some b => if b &&& 0xc0 = 0x80 then nameLength data value n else some (n + 1)

/-- Copy some bytes to a name and end them with a NUL; what is behind it stays. -/
def copyName (bytes : List UInt8) (name : Vector UInt8 UNI_BT_LE_ADV_NAME_SIZE) :
    Vector UInt8 UNI_BT_LE_ADV_NAME_SIZE :=
  .ofFn fun i => if i.val < bytes.length then bytes.getD i.val 0 else if i.val = bytes.length then 0 else name[i]

def foundHid (b : Bool) (fields : AdvEntry) : AdvEntry := { fields with hidService := fields.hidService || b }

def foundIine (b : Bool) (fields : AdvEntry) : AdvEntry := { fields with iineService := fields.iineService || b }

/-- `memcmp` loads all the bytes. -/
def memcmpAt (data : List UInt8) (uuid : List UInt8) (pos : Nat) : Option Bool :=
  (bytesAt data pos uuid.length).map (· == uuid)

/-- A list of service UUIDs of one width. -/
def uuidList (width : Nat) (body : Nat → AdvEntry → Option AdvEntry) (value n : Nat) (p : AdvFields) :
    Option (Option AdvFields) :=
  if n % width ≠ 0 then some none
  else (foldAt body width (n / width) value p.fields).map fun fields => some { p with fields := fields }

/-- One field of `n` bytes from `value` on. -/
def advField (data : List UInt8) (type : UInt8) (value n : Nat) (p : AdvFields) : Option (Option AdvFields) :=
  if type = 0x02 ∨ type = 0x03 then
    uuidList 2 (fun i fields => (matchAt data i [0x12, 0x18]).map (foundHid · fields)) value n p
  else if type = 0x04 ∨ type = 0x05 then
    uuidList 4 (fun i fields => (matchAt data i [0x12, 0x18, 0, 0]).map (foundHid · fields)) value n p
  else if type = 0x16 then
    if n < 2 then some none
    else (matchAt data value [0x12, 0x18]).map fun b => some { p with fields := foundHid b p.fields }
  else if type = 0x06 ∨ type = 0x07 then
    uuidList 16 (fun i fields =>
      ((memcmpAt data advHidUuid i).map (foundHid · fields)).bind fun fields =>
        (memcmpAt data advIineUuid i).map (foundIine · fields)) value n p
  else if type = 0x19 then
    if n ≠ 2 then some none
    else
      match data[value]?, data[value + 1]? with
      | some low, some high =>
        some (some
          { fields := { p.fields with appearance := low.toUInt16 ||| (high.toUInt16 <<< 8) }, hasAppearance := true })
      | _, _ => none
  else if (type = 0x09 ∨ type = 0x08) ∧ n ≠ 0 ∧ (type = 0x09 ∨ p.fields.completeName = false) then
    (if UNI_BT_LE_ADV_NAME_SIZE ≤ n then nameLength data value (UNI_BT_LE_ADV_NAME_SIZE - 1) else some n).bind fun n =>
      (bytesAt data value n).map fun bytes =>
        some { p with fields := { p.fields with name := copyName bytes p.fields.name, completeName := type == 0x09 } }
  else some (some p)

/-- The fields from `pos` on. -/
def advFields (data : List UInt8) (pos : Nat) (p : AdvFields) : Option (Option AdvFields) :=
  if pos < data.length then
    match data[pos]? with
    | none => none
    | some fieldLength =>
      if fieldLength = 0 then some (some p)
      else if data.length - (pos + 1) < fieldLength.toNat then some none
      else
        match data[pos + 1]? with
        | none => none
        | some type =>
          match advField data type (pos + 2) (fieldLength.toNat - 1) p with
          | some (some p) => advFields data (pos + 1 + fieldLength.toNat) p
          | r => r
  else some (some p)
termination_by data.length - pos

/-! ## The cache -/

/-- What the loop over the cache has found: the peer's entry, the first free slot, and the entry
seen longest ago. -/
structure AdvScan where
  entry : Option Nat := none
  spare : Option Nat := none
  oldest : Option (Nat × AdvEntry) := none

/-- An entry whose last packet is too old is cleared. -/
def advExpire (nowMs : UInt32) (item : AdvEntry) : AdvEntry :=
  if item.used ∧ UNI_BT_LE_ADV_TTL_MS ≤ nowMs - item.lastSeenMs then {} else item

/-- The loop over the cache from the slot `i` on. -/
def advScan (address : Vector UInt8 6) (addressType : UInt8) (nowMs : UInt32) :
    (i : Nat) → List AdvEntry → AdvScan → List AdvEntry × AdvScan
  | _, [], s => ([], s)
  | i, item :: items, s =>
    let item := advExpire nowMs item
    let s :=
      if ¬ item.used then { s with spare := some (s.spare.getD i) }
      else
        { s with
          entry := if item.addressType = addressType ∧ item.address = address then some i else s.entry
          oldest :=
            match s.oldest with
            | none => some (i, item)
            | some (j, old) =>
                if nowMs - old.lastSeenMs < nowMs - item.lastSeenMs then some (i, item) else some (j, old) }
    let (items, s) := advScan address addressType nowMs (i + 1) items s
    (item :: items, s)

theorem advScan_entries (address : Vector UInt8 6) (addressType : UInt8) (nowMs : UInt32) :
    ∀ (items : List AdvEntry) (i : Nat) (s : AdvScan),
    (advScan address addressType nowMs i items s).1 = items.map (advExpire nowMs)
  | [], _, _ => rfl
  | item :: items, i, _ =>
    congrArg (advExpire nowMs item :: ·) (advScan_entries address addressType nowMs items (i + 1) _)

/-- What a packet adds to its peer's entry. -/
def advMerge (p : AdvFields) (nowMs : UInt32) (entry : AdvEntry) : AdvEntry :=
  let entry := { entry with lastSeenMs := nowMs }
  let entry := if p.hasAppearance then { entry with appearance := p.fields.appearance } else entry
  let entry := { entry with
    hidService := entry.hidService || p.fields.hidService, iineService := entry.iineService || p.fields.iineService }
  if p.fields.name.get ⟨0, advNameSize_pos⟩ ≠ 0 ∧ (p.fields.completeName = true ∨ entry.completeName = false) then
    { entry with name := p.fields.name, completeName := p.fields.completeName }
  else entry

/-- The slot of the peer and its entry before the merge. -/
def advSlot (address : Vector UInt8 6) (addressType : UInt8) (s : AdvScan) (entries : List AdvEntry) :
    Option (Nat × AdvEntry) :=
  match s.entry with
  | some i => entries[i]?.map (i, ·)
  | none => (s.spare <|> s.oldest.map (·.1)).map (·, { used := true, address := address, addressType := addressType })

/-- Store the fields of a packet; the result is the slot of its peer. -/
def advUpdate (p : AdvFields) (address : Vector UInt8 6) (addressType : UInt8) (nowMs : UInt32) (cache : AdvCache) :
    Option Nat × AdvCache :=
  let r := advScan address addressType nowMs 0 cache.entries {}
  have hsize : r.1.length = UNI_BT_LE_ADV_CACHE_SIZE := by rw [advScan_entries, List.length_map, cache.size]
  match advSlot address addressType r.2 r.1 with
  | none => (none, ⟨r.1, hsize⟩)
  | some (i, entry) => (some i, ⟨r.1.set i (advMerge p nowMs entry), by rw [List.length_set, hsize]⟩)

/-- The slot of the entry that is returned, or nothing for NULL, and the cache; nothing at all is a
load outside the payload. -/
def uniBtLeAdvObserve (cache : AdvCache) (address : Vector UInt8 6)
    (addressType : UInt8) (data : List UInt8) (nowMs : UInt32) :
    Option (Option Nat × AdvCache) :=
  match advFields data 0 {} with
  | none => none
  | some none => some (none, cache)
  | some (some p) => some (advUpdate p address addressType nowMs cache)

def uniBtLeAdvReset : AdvCache := ⟨List.replicate UNI_BT_LE_ADV_CACHE_SIZE {}, List.length_replicate⟩

/-! ## What an entry is taken for -/

/-- `strcmp` with a literal. -/
def nameIs (entry : AdvEntry) (name : String) : Bool := cstr entry.name.toList == name.toUTF8.toList

def uniBtLeAdvIsIine (entry : AdvEntry) : Bool :=
  !entry.hidService && (entry.appearance == 0 || entry.appearance == 0x03c0 ||
    entry.appearance == 0x03c3 || entry.appearance == 0x03c4) &&
    (entry.iineService || (entry.completeName && nameIs entry "IINE GAMEPAD"))

def uniBtLeAdvCod (entry : AdvEntry) : UInt16 :=
  if uniBtLeAdvIsIine entry then 0x0508
  else
    let xiaomiCandidate := entry.completeName && (nameIs entry "MI RC" || nameIs entry "Xiaomi RC")
    match entry.appearance.toNat with
    | 0x03c1 => 0x0540
    | 0x03c2 => 0x0580
    | 0x03c3 => 0x0504
    | 0x03c4 => 0x0508
    | 0 | 0x03c0 => if entry.hidService || xiaomiCandidate then 0x0500 else 0
    | 0x0180 => if xiaomiCandidate then 0x0500 else 0
    | _ => 0

end FoloGameboy

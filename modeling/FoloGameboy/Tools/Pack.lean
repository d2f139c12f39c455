/-
`tools/pack_roms.py`: packing ROM files and names into an image of the `roms` partition, and
inspecting an image. The layouts of `struct` are those of the partition's records.
-/
import FoloGameboy.Storage.Layout

namespace FoloGameboy

/-! ## Constants -/

def MAX_IMAGE : Nat := 0x400000
def MAX_ROMS : Nat := 16

def SUPPORTED_TYPES : List UInt8 :=
  [0x00, 0x01, 0x02, 0x03, 0x05, 0x06, 0x0F, 0x10, 0x11, 0x12, 0x13, 0x19, 0x1A, 0x1B, 0x1C, 0x1D, 0x1E]

def aligned (value boundary : Nat) : Nat := (value + boundary - 1) / boundary * boundary

def declaredSize (code : UInt8) : Nat :=
  if code ≤ 7 then 32768 <<< code.toNat
  else if code = 0x52 then 72 * 16384
  else if code = 0x53 then 80 * 16384
  else if code = 0x54 then 96 * 16384
  else 0

/-! ## Names -/

/-- `encode("utf-8")`; a string with a lone surrogate, which does not encode, is none here. -/
def utf8Bytes (name : String) : List UInt8 := name.toUTF8.data.toList

/-- `decode("utf-8")`. -/
def utf8Decode (bytes : List UInt8) : Option String := String.fromUTF8? bytes.toByteArray

/-- The characters `encode_name` refuses. -/
def refusedChar (c : Char) : Bool :=
  let ord := c.toNat
  decide (ord < 0x20) || (decide (0x7F ≤ ord) && decide (ord < 0xA0)) || decide (ord = 0x2F) || decide (ord = 0x5C) ||
    decide (0xFFFF < ord) || (decide (0xD800 ≤ ord) && decide (ord ≤ 0xDFFF)) ||
    (decide (0x2000 ≤ ord) && decide (ord ≤ 0x200F)) ||
    decide (ord = 0x2028) || decide (ord = 0x2029) || decide (ord = 0xFEFF)

/-- What `pack` raises. -/
inductive PackError where
  | romCount
  | nameCount
  | romLength (index : Nat)
  | romHeader (index : Nat)
  | invalidName (name : String)
  | duplicateName (index : Nat)
  | partitionFull

def encodeName (name : String) : Except PackError (List UInt8) :=
  let encoded := utf8Bytes name
  if encoded = [] ∨ 31 < encoded.length ∨ name.toList.any refusedChar then .error (.invalidName name) else .ok encoded

/-! ## `pack` -/

/-- A path: its stem and what it reads as. -/
structure RomFile where
  stem : String
  data : List UInt8

/-- A name in its field. -/
def nameField (name : List UInt8) : Vector UInt8 32 :=
  .ofFn fun i => (name ++ List.replicate (32 - name.length) 0).getD i 0

structure PackState where
  image : List UInt8
  entries : List (List UInt8)
  names : List (List UInt8)

/-- The loop body, with `hashlib.sha256`. -/
def packRom (sha256 : List UInt8 → Vector UInt8 32) (index : Nat)
    (data : List UInt8) (display : String) (st : PackState) :
    Except PackError PackState := do
  if data.length < 32768 ∨ MAX_IMAGE < data.length ∨ data.length % 16384 ≠ 0 then .error (.romLength index)
  else if declaredSize (data.getD 0x148 0) ≠ data.length ∨ data.getD 0x143 0 = 0xC0 ∨
    ¬ SUPPORTED_TYPES.contains (data.getD 0x147 0) then
    .error (.romHeader index)
  else
    let name ← encodeName display
    if st.names.contains name then .error (.duplicateName index)
    else
      let offset := aligned st.image.length 4096
      if MAX_IMAGE < offset + data.length then .error .partitionFull
      else
        let e : RomEntry := ⟨nameField name, UInt32.ofNat offset, UInt32.ofNat data.length, sha256 data⟩
        .ok { image := st.image ++ List.replicate (offset - st.image.length) 0xFF ++ data
              entries := st.entries ++ [romEntryCodec.bytes e]
              names := st.names ++ [name] }

def packRoms (sha256 : List UInt8 → Vector UInt8 32) :
    (index : Nat) → List (List UInt8 × String) → PackState → Except PackError PackState
  | _, [], st => .ok st
  | index, (data, display) :: roms, st => do packRoms sha256 (index + 1) roms (← packRom sha256 index data display st)

/-- The names an image is packed with. -/
def displayed (paths : List RomFile) (displayNames : Option (List String)) : List String :=
  displayNames.getD (paths.map RomFile.stem)

def pack (sha256 : List UInt8 → Vector UInt8 32) (paths : List RomFile) (displayNames : Option (List String)) :
    Except PackError (List UInt8) := do
  if ¬ (1 ≤ paths.length ∧ paths.length ≤ MAX_ROMS) then .error .romCount
  else if displayNames.any (fun names => decide (names.length ≠ paths.length)) then .error .nameCount
  else
    let roms := (paths.map RomFile.data).zip (displayed paths displayNames)
    let st ← packRoms sha256 0 roms ⟨List.replicate 4096 0xFF, [], []⟩
    let header := romHeaderCodec.bytes ⟨legacyMagic, 1, UInt16.ofNat st.entries.length⟩
    let directory := header ++ st.entries.flatten
    .ok (directory ++ st.image.drop directory.length)

/-! ## `inspect_image` -/

/-- What `inspect_image` raises. -/
inductive InspectError where
  | container
  | directory
  | entry (index : Nat)
  | outside (index : Nat)
  | overlaps (index : Nat)
  | hash (index : Nat)
  | unsupported (index : Nat)
  | decode (index : Nat)

/-- `ENTRY.unpack_from` of a row of the table. -/
def unpackEntry (data : List UInt8) (i : Nat) : RomEntry :=
  romEntryCodec.get fun k => data.getD (romHeaderCodec.size + (i * romEntryCodec.size + k)) 0

/-- `data[offset:end]`. -/
def imageRom (data : List UInt8) (e : RomEntry) : List UInt8 := (data.drop e.offset.toNat).take e.size.toNat

theorem entryName_pos : 0 < 32 := by decide

/-- The loop body: the name of a row and the range of its ROM. -/
def inspectEntry (sha256 : List UInt8 → Vector UInt8 32) (data : List UInt8) (i : Nat) (ranges : List (Nat × Nat)) :
    Except InspectError (String × (Nat × Nat)) :=
  let e := unpackEntry data i
  let start := e.offset.toNat
  let stop := start + e.size.toNat
  if ¬ e.name.toList.contains 0 ∨ e.name.get ⟨0, entryName_pos⟩ = 0 ∨ start % 4096 ≠ 0 then .error (.entry i)
  else if start < 4096 ∨ e.size.toNat < 32768 ∨ e.size.toNat % 16384 ≠ 0 ∨ data.length < stop then .error (.outside i)
  else if ranges.any (fun r => decide (start < r.2) && decide (r.1 < stop)) then .error (.overlaps i)
  else
    let rom := imageRom data e
    if sha256 rom ≠ e.sha256 then .error (.hash i)
    else if declaredSize (rom.getD 0x148 0) ≠ e.size.toNat ∨
      rom.getD 0x143 0 = 0xC0 ∨ ¬ SUPPORTED_TYPES.contains (rom.getD 0x147 0) then
      .error (.unsupported i)
    else
      match utf8Decode (cstr e.name.toList) with
      | none => .error (.decode i)
      | some name => .ok (name, (start, stop))

def inspectFrom (sha256 : List UInt8 → Vector UInt8 32) (data : List UInt8) :
    (remaining i : Nat) → (names : List String) → (ranges : List (Nat × Nat)) → Except InspectError (List String)
  | 0, _, names, _ => .ok names
  | remaining + 1, i, names, ranges => do
    let (name, range) ← inspectEntry sha256 data i ranges
    inspectFrom sha256 data remaining (i + 1) (names ++ [name]) (ranges ++ [range])

/-- The header of an image. -/
def imageHeader (data : List UInt8) : RomHeader := romHeaderCodec.get fun k => data.getD k 0

def inspectImage (sha256 : List UInt8 → Vector UInt8 32) (data : List UInt8) : Except InspectError (List String) :=
  if MAX_IMAGE < data.length ∨ data.length < 4096 ∨ (imageHeader data).magic ≠ legacyMagic then .error .container
  else
    let count := (imageHeader data).count.toNat
    if (imageHeader data).version ≠ 1 ∨ ¬ (1 ≤ count ∧ count ≤ MAX_ROMS) ∨ 4096 < 8 + count * romEntryCodec.size then
      .error .directory
    else inspectFrom sha256 data count 0 [] []

end FoloGameboy

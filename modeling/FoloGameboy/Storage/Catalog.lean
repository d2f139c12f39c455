/-
`gb_storage`: the ROM catalog in RAM, its two directory slots on Flash, and the operations that load,
change and publish it.
-/
import FoloGameboy.Storage.Flash

namespace FoloGameboy

open Effect

/-! ## State -/

/-- The static variables; `entries` holds the first `s_count` entries of `s_entries`. -/
structure Catalog where
  partition : Bool := false
  entries : List RomEntry := []
  selected : Option RomEntry := none
  mapped : Bool := false
  directorySlot : Option Nat := none
  generation : UInt32 := 0
  catalogTrusted : Bool := false
  needsReload : Bool := false
  directoryReadError : Bool := false

section
variable (P : Partition)

def dataEnd : UInt32 := P.size - 2 * SECTOR_BYTES

def unmapSelected (s : Catalog) : Catalog := { s with mapped := false, selected := none }

/-! ## Directory slots -/

def slotOffset (slot : Nat) : UInt32 := dataEnd P + UInt32.ofNat slot * SECTOR_BYTES

/-- The bytes the digest covers: all before it. -/
def hashedBytes (d : DirectoryHead) : List UInt8 := directoryHeadCodec.bytes d

/-- What `read_directory` checks before it hashes. -/
def directoryShaped (d : Directory) : Bool :=
  d.magic = directoryMagic && entriesValid d.entries.toList d.count.toNat (dataEnd P)

/-- The checks `read_directory` makes of what it has read, when it can be hashed. -/
def checkDirectory (d : Directory) : Option Directory :=
  if directoryShaped P d && P.sha256 (hashedBytes d.toDirectoryHead) = d.digest then some d else none

def readDirectory (slot : Nat) (s : Catalog) : StorageM (Option Directory × Catalog) := do
  match ← partitionRead (slotOffset P slot).toNat directoryCodec.size with
  | none => pure (none, { s with directoryReadError := true })
  | some m =>
    let d := directoryCodec.get m
    if ¬ directoryShaped P d then pure (none, s)
    else
      -- a failing hash is not noted as a read error
      match ← mbedtlsSha256 P (hashedBytes d.toDirectoryHead) with
      | none => pure (none, s)
      | some digest => pure (if digest = d.digest then some d else none, s)

/-- `(int32_t)(a - b) > 0`. -/
def newer (a b : UInt32) : Bool := 0 < (a - b).toInt32

theorem newer_next (g : UInt32) : newer (g + 1) g = true := by
  have h : g + 1 - g = 1 := by
    refine UInt32.toNat_inj.mp ?_
    rw [UInt32.toNat_sub, UInt32.toNat_add]
    have := g.toNat_lt
    have h1 : (1 : UInt32).toNat = 1 := rfl
    omega
  unfold newer
  rw [h]
  decide

theorem not_newer_previous (g : UInt32) : newer g (g + 1) = false := by
  have h : g - (g + 1) = 0xFFFFFFFF := by
    refine UInt32.toNat_inj.mp ?_
    rw [UInt32.toNat_sub, UInt32.toNat_add]
    have := g.toNat_lt
    have h1 : (1 : UInt32).toNat = 1 := rfl
    have hm : (0xFFFFFFFF : UInt32).toNat = 4294967295 := rfl
    omega
  unfold newer
  rw [h]
  decide

/-- One iteration of the slot loop of `gb_storage_init`. -/
def considerSlot (slot : Nat) (s : Catalog) : StorageM Catalog := do
  let (d, s) ← readDirectory P slot s
  match d with
  | none => pure s
  | some d =>
    if s.directorySlot = none ∨ newer d.generation s.generation then
      pure { s with
        directorySlot := some slot, generation := d.generation, entries := d.entries.toList.take d.count.toNat }
    else pure s

/-! ## `gb_storage_init` -/

/-- What the fallback to the legacy table loads. -/
def loadLegacy (s : Catalog) : StorageM (Bool × Catalog) := do
  match ← partitionRead 0 romHeaderCodec.size with
  | none => pure (false, s)
  | some m =>
    let header := romHeaderCodec.get m
    if header.magic ≠ legacyMagic ∨ header.version ≠ 1 ∨ header.count = 0 ∨
      GB_STORAGE_MAX_ROMS < header.count.toNat then
      pure (true, { s with needsReload := false })
    else
      let count := header.count.toNat
      if ¬ validRange P.size (UInt32.ofNat romHeaderCodec.size) (UInt32.ofNat (count * romEntryCodec.size)) then
        pure (false, s)
      else
        match ← partitionRead romHeaderCodec.size (count * romEntryCodec.size) with
        | none => pure (false, s)
        | some m =>
          let entries := (List.range count).map fun k => romEntryCodec.get fun i => m (k * romEntryCodec.size + i)
          if ¬ entriesValid entries count (dataEnd P) then pure (false, s)
          else pure (true, { s with entries := entries, catalogTrusted := true, needsReload := false })

def gbStorageInit (s : Catalog) : StorageM (Bool × Catalog) := do
  let s :=
    { unmapSelected s with
      entries := [], catalogTrusted := false, needsReload := true, directoryReadError := false
      directorySlot := none, generation := 0 }
  let found ← partitionFind
  let s := { s with partition := found }
  if ¬ found then pure (false, s)
  else
    let dir ← allocate
    if ¬ dir then pure (false, s)
    else
      let s ← considerSlot P 0 s
      let s ← considerSlot P 1 s
      -- a read error could hide a newer committed slot
      if s.directoryReadError then pure (false, { s with entries := [] })
      else if s.directorySlot.isSome then pure (true, { s with catalogTrusted := true, needsReload := false })
      else loadLegacy P s

/-! ## Tokens and `gb_storage_open` -/

def hexDigit (n : UInt8) : UInt8 := if n < 10 then 0x30 + n else 0x61 + (n - 10)

/-- Two lowercase hex digits a byte. -/
def hexBytes (bytes : List UInt8) : List UInt8 :=
  bytes.flatMap fun (b : UInt8) => [hexDigit (b >>> 4), hexDigit (b &&& 15)]

theorem hexDigit_inj {a b : UInt8} (ha : a < 16) (hb : b < 16) (h : hexDigit a = hexDigit b) : a = b := by
  have hall : ∀ i < 16, ∀ j < 16, hexDigit (UInt8.ofNat i) = hexDigit (UInt8.ofNat j) → i = j := by decide
  have := hall a.toNat (UInt8.lt_iff_toNat_lt.mp ha) b.toNat (UInt8.lt_iff_toNat_lt.mp hb)
  rw [UInt8.ofNat_toNat, UInt8.ofNat_toNat] at this
  exact UInt8.toNat_inj.mp (this h)

theorem toNat_high (b : UInt8) : (b >>> 4).toNat = b.toNat / 16 := by
  rw [UInt8.toNat_shiftRight]
  exact Nat.shiftRight_eq_div_pow b.toNat 4

theorem toNat_low (b : UInt8) : (b &&& 15).toNat = b.toNat % 16 := by
  rw [UInt8.toNat_and]
  exact Nat.and_two_pow_sub_one_eq_mod b.toNat 4

theorem nibbles_lt (b : UInt8) : b >>> 4 < 16 ∧ b &&& 15 < 16 := by
  have h := b.toNat_lt
  have h16 : (16 : UInt8).toNat = 16 := rfl
  rw [UInt8.lt_iff_toNat_lt, UInt8.lt_iff_toNat_lt, toNat_high, toNat_low, h16]
  omega

@[simp] theorem hexBytes_cons (b : UInt8) (bytes : List UInt8) :
    hexBytes (b :: bytes) = hexDigit (b >>> 4) :: hexDigit (b &&& 15) :: hexBytes bytes := rfl

@[simp] theorem length_hexBytes (bytes : List UInt8) : (hexBytes bytes).length = 2 * bytes.length := by
  induction bytes with
  | nil => rfl
  | cons b bytes ih =>
    rw [hexBytes_cons, List.length_cons, List.length_cons, List.length_cons, ih]
    omega

theorem hexBytes_inj : ∀ {l l' : List UInt8}, hexBytes l = hexBytes l' → l = l'
  | [], [], _ => rfl
  | [], _ :: _, h => by cases h
  | _ :: _, [], h => by cases h
  | b :: l, b' :: l', h => by
    rw [hexBytes_cons, hexBytes_cons, List.cons.injEq, List.cons.injEq] at h
    obtain ⟨hhigh, hlow, hrest⟩ := h
    have hh := congrArg UInt8.toNat (hexDigit_inj (nibbles_lt b).1 (nibbles_lt b').1 hhigh)
    have hl := congrArg UInt8.toNat (hexDigit_inj (nibbles_lt b).2 (nibbles_lt b').2 hlow)
    rw [toNat_high, toNat_high] at hh
    rw [toNat_low, toNat_low] at hl
    have hb : b = b' := UInt8.toNat_inj.mp (by omega)
    rw [hb, hexBytes_inj hrest]

/-- What a token hashes: the generation, the row and the complete entry. -/
def tokenBytes (generation : UInt32) (row : Nat) (e : RomEntry) : List UInt8 :=
  Codec.le32.bytes generation ++ Codec.le32.bytes (UInt32.ofNat row) ++ romEntryCodec.bytes e

def tokenOf (generation : UInt32) (row : Nat) (e : RomEntry) : List UInt8 :=
  hexBytes (P.sha256 (tokenBytes generation row e)).toList

/-- The updates of one hash, up to the first that fails. -/
def mbedtlsSha256Updates : List (List UInt8) → StorageM Bool
  | [] => pure true
  | bytes :: rest => do
    let updated ← mbedtlsSha256Update bytes
    if updated then mbedtlsSha256Updates rest else pure false

def gbStorageToken (index : Nat) (s : Catalog) : StorageM (Option (List UInt8)) :=
  if s.needsReload then pure none
  else
    match s.entries[index]? with
    | none => pure none
    | some e => do
      let started ← mbedtlsSha256Starts
      let updated ← (if started then
          mbedtlsSha256Updates [Codec.le32.bytes s.generation,
            Codec.le32.bytes (UInt32.ofNat index), romEntryCodec.bytes e]
        else pure false)
      if ¬ updated then pure none
      else
        let digest ← mbedtlsSha256Finish P (tokenBytes s.generation index e)
        pure (digest.map fun digest => hexBytes digest.toList)

/-- The loop of `gb_storage_resolve_token` over the rows. -/
def resolveRows (token : List UInt8) (s : Catalog) : List Nat → StorageM (Option Nat)
  | [] => pure none
  | i :: rows => do
    let expected ← gbStorageToken P i s
    if expected = some (cstr token) then pure (some i) else resolveRows token s rows

def gbStorageResolveToken (token : List UInt8) (s : Catalog) : StorageM (Option Nat) :=
  if (cstr token).length ≠ 64 ∨ s.needsReload then pure none
  else resolveRows P token s (List.range s.entries.length)

/-- The callback `read_selected` of an opened ROM. -/
def readSelected (e : RomEntry) (offset bytes : Nat) : StorageM (Option (Nat → UInt8)) :=
  if offset ≤ e.size.toNat ∧ bytes ≤ e.size.toNat - offset then partitionRead (e.offset.toNat + offset) bytes
  else pure none

/-- The hash loop of `gb_storage_open`: the bytes of the ROM, unless a read or an update fails. -/
def hashRom (e : RomEntry) (data : List UInt8) : StorageM (Option (List UInt8)) :=
  if data.length < e.size.toNat then do
    let bytes := if 1024 < e.size.toNat - data.length then 1024 else e.size.toNat - data.length
    match ← readSelected e data.length bytes with
    | none => pure none
    | some m => do
      let updated ← mbedtlsSha256Update ((List.range bytes).map m)
      if updated then hashRom e (data ++ (List.range bytes).map m) else pure none
  else pure (some data)
termination_by e.size.toNat - data.length
decreasing_by
  simp only [List.length_append, List.length_map, List.length_range]
  split <;> omega

/-- The end of `gb_storage_open`, with the digest of what was read. -/
def openRom (e : RomEntry) (digest : Option (Vector UInt8 32)) (s : Catalog) :
    StorageM (Option (RomEntry × Bool) × Catalog) := do
  if digest ≠ some e.sha256 then pure (none, s)
  else
    let mapped ← (if 32768 ≤ e.size then partitionMmap e.offset.toNat e.size.toNat else pure false)
    pure (some (e, mapped), { unmapSelected s with mapped := mapped, selected := some e })

/-- `gb_storage_open`: the ROM to read from, and whether it is mapped. -/
def gbStorageOpen (index : Nat) (s : Catalog) : StorageM (Option (RomEntry × Bool) × Catalog) := do
  if s.needsReload then pure (none, s)
  else
    match s.entries[index]? with
    | none => pure (none, s)
    | some e =>
      let started ← mbedtlsSha256Starts
      match ← (if started then hashRom e [] else pure none) with
      | none => pure (none, s)
      | some data =>
        let digest ← mbedtlsSha256Finish P data
        openRom e digest s

/-! ## Free space -/

/-- One iteration of the entry loop of `find_gap`: whether the candidate is occupied, and the next
one. -/
def conflictStep (candidate bytes : UInt32) (r : Bool × UInt32) (e : RomEntry) : Bool × UInt32 :=
  if candidate < e.offset + e.size ∧ e.offset < candidate + bytes then
    (true, if r.2 < e.offset + e.size then e.offset + e.size else r.2)
  else r

def conflicts (candidate bytes : UInt32) (entries : List RomEntry) : Bool × UInt32 :=
  entries.foldl (conflictStep candidate bytes) (false, candidate)

theorem conflictStep_next {candidate bytes : UInt32} {r : Bool × UInt32}
    (hr : r.1 = true → candidate < r.2) (e : RomEntry)
    (h : (conflictStep candidate bytes r e).1 = true) :
    candidate < (conflictStep candidate bytes r e).2 := by
  unfold conflictStep at h ⊢
  split
  · rename_i hin
    dsimp only
    split
    · exact hin.1
    · rename_i hge
      exact UInt32.lt_of_lt_of_le hin.1 (UInt32.not_lt.mp hge)
  · rename_i hout
    rw [if_neg hout] at h
    exact hr h

theorem foldl_next {candidate bytes : UInt32} (entries : List RomEntry) {r : Bool × UInt32}
    (hr : r.1 = true → candidate < r.2)
    (h : (entries.foldl (conflictStep candidate bytes) r).1 = true) :
    candidate < (entries.foldl (conflictStep candidate bytes) r).2 := by
  induction entries generalizing r with
  | nil => exact hr h
  | cons e entries ih => exact ih (conflictStep_next hr e) h

theorem next_candidate {candidate bytes : UInt32} {entries : List RomEntry}
    (h : (conflicts candidate bytes entries).1 = true) :
    candidate < (conflicts candidate bytes entries).2 :=
  foldl_next entries (by intro hf; cases hf) h

/-- The candidate loop of `find_gap`. -/
def findGapFrom (bytes : UInt32) (entries : List RomEntry) (candidate : UInt32) : UInt32 :=
  if candidate + bytes ≤ dataEnd P then
    if _h : (conflicts candidate bytes entries).1 = true then
      findGapFrom bytes entries (conflicts candidate bytes entries).2
    else candidate
  else 0
termination_by UInt32.size - candidate.toNat
decreasing_by
  have hlt := UInt32.lt_iff_toNat_lt.mp (next_candidate _h)
  have := (conflicts candidate bytes entries).2.toNat_lt
  have := candidate.toNat_lt
  simp only [UInt32.size] at *
  omega

def findGap (bytes : UInt32) (entries : List RomEntry) : UInt32 := findGapFrom P bytes entries SECTOR_BYTES

def gbStorageLimit (s : Catalog) : Nat :=
  if ¬ s.partition ∨ P.size ≤ 3 * SECTOR_BYTES then 0
  else (P.size - 3 * SECTOR_BYTES).toNat / ROM_BANK_BYTES * ROM_BANK_BYTES

def gbStorageUsed (s : Catalog) : Nat := (s.entries.map fun e => e.size.toNat).sum

/-- The entry loop of `gb_storage_available`: `from` lies in an entry and goes on at its end, or the
space from it on is free up to the result. -/
def freeUntil (start : UInt32) : UInt32 → List RomEntry → Sum UInt32 UInt32
  | stop, [] => .inr stop
  | stop, e :: entries =>
    if e.offset ≤ start ∧ start < e.offset + e.size then .inl (e.offset + e.size)
    else freeUntil start (if start < e.offset ∧ e.offset < stop then e.offset else stop) entries

/-- Both lie beyond the start. -/
def BeyondStart (start : UInt32) : Sum UInt32 UInt32 → Prop
  | .inl next => start < next
  | .inr stop => start < stop

theorem freeUntil_beyond {start : UInt32} (entries : List RomEntry) {stop : UInt32} (h : start < stop) :
    BeyondStart start (freeUntil start stop entries) := by
  induction entries generalizing stop with
  | nil => exact h
  | cons e entries ih =>
    unfold freeUntil
    by_cases hin : e.offset ≤ start ∧ start < e.offset + e.size
    · rw [if_pos hin]
      exact hin.2
    · rw [if_neg hin]
      refine ih ?_
      split
      · rename_i hlt
        exact hlt.1
      · exact h

/-- The scan of `gb_storage_available`: the longest free region. -/
def longestGap (entries : List RomEntry) (start best : UInt32) : UInt32 :=
  if _h : start < dataEnd P then
    match _hfree : freeUntil start (dataEnd P) entries with
    | .inl next => longestGap entries next best
    | .inr stop => longestGap entries stop (if best < stop - start then stop - start else best)
  else best
termination_by UInt32.size - start.toNat
decreasing_by
  all_goals
    have hgt := freeUntil_beyond entries _h
    rw [_hfree] at hgt
    have hlt := UInt32.lt_iff_toNat_lt.mp hgt
    have := start.toNat_lt
    simp only [UInt32.size] at *
    omega

def gbStorageAvailable (s : Catalog) : Nat :=
  if ¬ s.partition then 0
  else
    let used := gbStorageUsed s
    let limit := gbStorageLimit P s
    if limit ≤ used then 0
    else
      let best := (longestGap P s.entries SECTOR_BYTES 0).toNat
      let available := (if best < limit - used then best else limit - used) / ROM_BANK_BYTES * ROM_BANK_BYTES
      if 32768 ≤ available then available else 0

/-! ## `publish_directory` -/

def newDirectoryHead (generation : UInt32) (entries : List RomEntry) : DirectoryHead :=
  { magic := directoryMagic, generation := generation, count := UInt16.ofNat entries.length, reserved := 0
    entries := .ofFn fun i => entries.getD i .zero }

def newDirectory (generation : UInt32) (entries : List RomEntry) : Directory :=
  { newDirectoryHead generation entries with digest := P.sha256 (hashedBytes (newDirectoryHead generation entries)) }

/-- The slot that is not in use. -/
def otherSlot (s : Catalog) : Nat := if s.directorySlot = some 0 then 1 else 0

/-- `publish_directory` from the erase of the slot on, with both buffers and the digest at hand. -/
def replaceDirectory (dir : Directory) (entries : List RomEntry) (s : Catalog) : StorageM (Bool × Catalog) := do
  let slot := otherSlot s
  let erased ← partitionErase (slotOffset P slot).toNat SECTOR_BYTES.toNat
  if ¬ erased then pure (false, s)
  else
    -- even a failed write may have reached Flash
    let s := { s with needsReload := true, catalogTrusted := false }
    let written ← partitionWrite (slotOffset P slot).toNat (directoryCodec.bytes dir)
    if ¬ written then pure (false, s)
    else
      let (verify, s) ← readDirectory P slot s
      if verify = some dir then
        pure (true, { s with entries := entries, generation := dir.generation, directorySlot := some slot
                             catalogTrusted := true, needsReload := false })
      else pure (false, s)

def publishDirectory (entries : List RomEntry) (s : Catalog) : StorageM (Bool × Catalog) := do
  let buffers ← allocate
  if ¬ buffers then pure (false, s)
  else
    let head := newDirectoryHead (s.generation + 1) entries
    match ← mbedtlsSha256 P (hashedBytes head) with
    | none => pure (false, s)
    | some digest => replaceDirectory P { head with digest := digest } entries s

/-! ## Upload, delete, rename -/

/-- A name in its 32 byte field, as `memset` and `strcpy` leave it. -/
def padName (name : List UInt8) : Vector UInt8 32 := .ofFn fun i => (cstr name).getD i 0

/-- `valid_name`, with `except` the row that may keep its name. -/
def validName (name : List UInt8) (except : Option Nat) (entries : List RomEntry) : Bool :=
  gbNameValid name && entries.zipIdx.all fun (e, i) => some i == except || cstr name != cstr e.name.toList

/-- `supported_type` and `declared_rom_size` of a ROM header. -/
def supportedType (type : UInt8) : Bool :=
  [0x00, 0x01, 0x02, 0x03, 0x05, 0x06, 0x0F, 0x10, 0x11, 0x12, 0x13, 0x19, 0x1A, 0x1B, 0x1C, 0x1D, 0x1E].contains type

def romSizeOf (code : UInt8) : Nat :=
  if code ≤ 7 then 32768 <<< code.toNat
  else if code = 0x52 then 72 * 16384
  else if code = 0x53 then 80 * 16384
  else if code = 0x54 then 96 * 16384
  else 0

/-- The reader of an upload: what its `n`-th call delivers when asked for so many bytes; nothing is
an error. -/
abbrev Reader : Type := (n want : Nat) → List UInt8

/-- The write loop of `gb_storage_upload`: the bytes received, written from `offset` on and hashed. -/
def writeChunks (reader : Reader) (offset bytes n : Nat) (data : List UInt8) : StorageM (Option (List UInt8)) :=
  if data.length < bytes then
    let want := if 1024 < bytes - data.length then 1024 else bytes - data.length
    let buffer := reader n want
    if _h : buffer.length = 0 ∨ want < buffer.length then pure none
    else do
      let written ← partitionWrite (offset + data.length) buffer
      let updated ← (if written then mbedtlsSha256Update buffer else pure false)
      if updated then writeChunks reader offset bytes (n + 1) (data ++ buffer) else pure none
  else pure (some data)
termination_by bytes - data.length
decreasing_by
  change bytes - (data ++ buffer).length < bytes - data.length
  rw [List.length_append]
  omega

/-- The end of `gb_storage_upload`, with what was received and its digest. -/
def addRom (name : List UInt8) (bytes : Nat) (offset : UInt32) (data : List UInt8) (digest : Option (Vector UInt8 32))
    (s : Catalog) : StorageM (Bool × Catalog) :=
  match digest with
  | none => pure (false, s)
  | some digest =>
    if data.getD 0x143 0 = 0xC0 ∨ ¬ supportedType (data.getD 0x147 0) ∨ romSizeOf (data.getD 0x148 0) ≠ bytes then
      pure (false, s)
    else
      let e : RomEntry := { name := padName name, offset := offset, size := UInt32.ofNat bytes, sha256 := digest }
      publishDirectory P (s.entries ++ [e]) s

def gbStorageUpload (name : List UInt8) (bytes : Nat) (reader : Reader) (s : Catalog) : StorageM (Bool × Catalog) := do
  if ¬ s.partition ∨ s.needsReload ∨ ¬ validName name none s.entries ∨ GB_STORAGE_MAX_ROMS ≤ s.entries.length ∨
      bytes < 32768 ∨ gbStorageLimit P s < bytes ∨ bytes % ROM_BANK_BYTES ≠ 0 ∨ gbStorageAvailable P s < bytes then
    pure (false, s)
  else
    let offset := findGap P (UInt32.ofNat bytes) s.entries
    if offset = 0 then pure (false, s)
    else
      let s := unmapSelected s
      let erased ← partitionErase offset.toNat bytes
      if ¬ erased then pure (false, s)
      else
        let started ← mbedtlsSha256Starts
        match ← (if started then writeChunks reader offset.toNat bytes 0 [] else pure none) with
        | none => pure (false, s)
        | some data =>
          let digest ← mbedtlsSha256Finish P data
          addRom P name bytes offset data digest s

def gbStorageDelete (index : Nat) (s : Catalog) : StorageM (Bool × Catalog) := do
  if ¬ s.partition ∨ s.needsReload ∨ s.entries.length ≤ index then pure (false, s)
  else publishDirectory P (s.entries.eraseIdx index) (unmapSelected s)

def gbStorageRename (index : Nat) (name : List UInt8) (s : Catalog) : StorageM (Bool × Catalog) := do
  if ¬ s.partition ∨ s.needsReload ∨ s.entries.length ≤ index ∨ ¬ validName name (some index) s.entries then
    pure (false, s)
  else
    match s.entries[index]? with
    | none => pure (false, s)
    | some e =>
      if cstr e.name.toList = cstr name then pure (true, s)
      else publishDirectory P (s.entries.set index { e with name := padName name }) (unmapSelected s)

end

end FoloGameboy

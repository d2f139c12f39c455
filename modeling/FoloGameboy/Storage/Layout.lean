/-
The records of the `roms` partition: the name rules of `gb_name`, the directory and legacy tables of
`gb_storage` byte for byte, and `entries_valid` with what it means.
-/
import FoloGameboy.Lib.Codec
import Mathlib.Data.List.Pairwise

namespace FoloGameboy

/-! ## Names -/

/-- The bytes a C string function sees: up to the terminator. -/
def cstr (m : List UInt8) : List UInt8 := m.takeWhile (· ≠ 0)

/-- The bits of the code point in a lead byte, and how many bytes follow it. -/
def leadByte (first : UInt8) : Option (Nat × Nat) :=
  if 0xC2 ≤ first ∧ first ≤ 0xDF then some (first.toNat &&& 0x1F, 1)
  else if 0xE0 ≤ first ∧ first ≤ 0xEF then some (first.toNat &&& 0x0F, 2)
  else if 0xF0 ≤ first ∧ first ≤ 0xF4 then some (first.toNat &&& 0x07, 3)
  else none

/-- The code point with its `remaining` continuation bytes, and what follows them. -/
def tailBytes : (remaining codepoint : Nat) → List UInt8 → Option (Nat × List UInt8)
  | 0, codepoint, s => some (codepoint, s)
  | _ + 1, _, [] => none
  | remaining + 1, codepoint, next :: s =>
    if next &&& 0xC0 ≠ 0x80 then none else tailBytes remaining ((codepoint <<< 6) ||| (next.toNat &&& 0x3F)) s

def codepointAllowed (remaining codepoint : Nat) : Bool :=
  ¬ ((remaining = 1 ∧ codepoint < 0x80) ∨ (remaining = 2 ∧ codepoint < 0x800) ∨ (remaining = 3 ∧ codepoint < 0x10000) ∨
    (0xD800 ≤ codepoint ∧ codepoint ≤ 0xDFFF) ∨ 0xFFFF < codepoint ∨ codepoint = 0x2028 ∨ codepoint = 0x2029 ∨
    codepoint = 0xFEFF ∨ codepoint < 0xA0 ∨ (0x2000 ≤ codepoint ∧ codepoint ≤ 0x200F))

/-- The character loop of `gb_name_valid`, for at most `fuel` characters. -/
def nameChars : (fuel : Nat) → List UInt8 → Bool
  | _, [] => true
  | 0, _ :: _ => false
  | fuel + 1, first :: s =>
    if first < 0x80 then
      if first < 0x20 ∨ first = 0x7F ∨ first = 0x2F ∨ first = 0x5C then false else nameChars fuel s
    else
      match leadByte first with
      | none => false
      | some (codepoint, remaining) =>
        match tailBytes remaining codepoint s with
        | none => false
        | some (codepoint, s) => codepointAllowed remaining codepoint && nameChars fuel s

def gbNameValid (name : List UInt8) : Bool :=
  let s := cstr (name.take 32)
  if s.length = 0 ∨ 32 ≤ s.length then false else nameChars s.length s

/-! ## Records -/

def GB_STORAGE_MAX_ROMS : Nat := 16
def DIRECTORY_SECTORS : Nat := 2
def SECTOR_BYTES : UInt32 := 4096
def ROM_BANK_BYTES : Nat := 16384

/-- `gb_rom_entry_t`. -/
structure RomEntry where
  name : Vector UInt8 32
  offset : UInt32
  size : UInt32
  sha256 : Vector UInt8 32
deriving DecidableEq

def romEntryCodec : Codec RomEntry :=
  ((Codec.raw 32).pair (Codec.le32.pair (Codec.le32.pair (Codec.raw 32)))).iso
    { toFun := fun ⟨name, offset, size, sha256⟩ => ⟨name, offset, size, sha256⟩
      invFun := fun e => (e.name, e.offset, e.size, e.sha256)
      left_inv := fun _ => rfl
      right_inv := fun _ => rfl }

/-- A zeroed `gb_rom_entry_t`. -/
def RomEntry.zero : RomEntry := ⟨.replicate 32 0, 0, 0, .replicate 32 0⟩

/-- The part of `directory_t` before the digest. -/
structure DirectoryHead where
  magic : Vector UInt8 4
  generation : UInt32
  count : UInt16
  reserved : UInt16
  entries : Vector RomEntry GB_STORAGE_MAX_ROMS
deriving DecidableEq

/-- `directory_t`. -/
structure Directory extends DirectoryHead where
  digest : Vector UInt8 32
deriving DecidableEq

def directoryHeadCodec : Codec DirectoryHead :=
  ((Codec.raw 4).pair
    (Codec.le32.pair (Codec.le16.pair (Codec.le16.pair (Codec.array GB_STORAGE_MAX_ROMS romEntryCodec))))).iso
    { toFun := fun ⟨magic, generation, count, reserved, entries⟩ => ⟨magic, generation, count, reserved, entries⟩
      invFun := fun d => (d.magic, d.generation, d.count, d.reserved, d.entries)
      left_inv := fun _ => rfl
      right_inv := fun _ => rfl }

def directoryCodec : Codec Directory :=
  (directoryHeadCodec.pair (Codec.raw 32)).iso
    { toFun := fun ⟨head, digest⟩ => { head with digest := digest }
      invFun := fun d => (d.toDirectoryHead, d.digest)
      left_inv := fun _ => rfl
      right_inv := fun _ => rfl }

/-- `rom_header_t`, the start of the legacy table. -/
structure RomHeader where
  magic : Vector UInt8 4
  version : UInt16
  count : UInt16

def romHeaderCodec : Codec RomHeader :=
  ((Codec.raw 4).pair (Codec.le16.pair Codec.le16)).iso
    { toFun := fun ⟨magic, version, count⟩ => ⟨magic, version, count⟩
      invFun := fun h => (h.magic, h.version, h.count)
      left_inv := fun _ => rfl
      right_inv := fun _ => rfl }

/-- `"FGB2"`. -/
def directoryMagic : Vector UInt8 4 := #v[0x46, 0x47, 0x42, 0x32]

/-- `"FGBR"`. -/
def legacyMagic : Vector UInt8 4 := #v[0x46, 0x47, 0x42, 0x52]

theorem romEntryCodec_size : romEntryCodec.size = 72 := rfl

theorem directoryCodec_size : directoryCodec.size = 1196 := rfl

theorem romHeaderCodec_size : romHeaderCodec.size = 8 := rfl

/-! ## `entries_valid` -/

def validRange (length offset bytes : UInt32) : Bool := offset ≤ length && bytes ≤ length - offset

/-- The checks of one entry. -/
def entryValid (dataEnd : UInt32) (e : RomEntry) : Bool :=
  gbNameValid e.name.toList && e.offset % SECTOR_BYTES = 0 && SECTOR_BYTES ≤ e.offset && 32768 ≤ e.size &&
    e.size % 16384 = 0 && validRange dataEnd e.offset e.size

def sameName (e other : RomEntry) : Bool := cstr e.name.toList = cstr other.name.toList

def overlaps (e other : RomEntry) : Bool := e.offset < other.offset + other.size && other.offset < e.offset + e.size

/-- The outer loop of `entries_valid`, with the entries already passed. -/
def entriesFrom (dataEnd : UInt32) : (before : List RomEntry) → List RomEntry → Bool
  | _, [] => true
  | before, e :: rest =>
    entryValid dataEnd e && before.all (fun other => !(sameName e other || overlaps e other)) &&
      entriesFrom dataEnd (before ++ [e]) rest

def entriesValid (entries : List RomEntry) (count : Nat) (dataEnd : UInt32) : Bool :=
  if GB_STORAGE_MAX_ROMS < count then false else entriesFrom dataEnd [] (entries.take count)

/-- Two entries of one catalog: different names, disjoint regions. -/
structure Apart (e e' : RomEntry) : Prop where
  name : sameName e' e = false
  region : overlaps e' e = false

/-- What `entries_valid` accepts. -/
structure CatalogOK (dataEnd : UInt32) (entries : List RomEntry) : Prop where
  count : entries.length ≤ GB_STORAGE_MAX_ROMS
  entry : ∀ e ∈ entries, entryValid dataEnd e = true
  apart : entries.Pairwise Apart

theorem entriesFrom_iff (dataEnd : UInt32) (before entries : List RomEntry) :
    entriesFrom dataEnd before entries = true ↔ (∀ e ∈ entries, entryValid dataEnd e = true) ∧
      entries.Pairwise Apart ∧ ∀ other ∈ before, ∀ e ∈ entries, Apart other e := by
  induction entries generalizing before with
  | nil => simp [entriesFrom]
  | cons e rest ih =>
    unfold entriesFrom
    rw [Bool.and_eq_true, Bool.and_eq_true, ih, List.all_eq_true, List.pairwise_cons]
    constructor
    · rintro ⟨⟨he, hbefore⟩, hrest, hpair, hcross⟩
      refine ⟨?_, ⟨?_, hpair⟩, ?_⟩
      · intro e' he'
        rcases List.mem_cons.mp he' with rfl | he'
        · exact he
        · exact hrest e' he'
      · intro e' he'
        exact hcross e (by simp) e' he'
      · intro other hother e' he'
        rcases List.mem_cons.mp he' with rfl | he'
        · have h := hbefore other hother
          rw [Bool.not_eq_true', Bool.or_eq_false_iff] at h
          exact ⟨h.1, h.2⟩
        · exact hcross other (by simp [hother]) e' he'
    · rintro ⟨hall, ⟨hhead, hpair⟩, hcross⟩
      refine ⟨⟨hall e (by simp), ?_⟩, ?_, hpair, ?_⟩
      · intro other hother
        have h := hcross other hother e (by simp)
        rw [h.name, h.region]
        rfl
      · intro e' he'
        exact hall e' (by simp [he'])
      · intro other hother e' he'
        rcases List.mem_append.mp hother with hother | hother
        · exact hcross other hother e' (by simp [he'])
        · obtain rfl := List.mem_singleton.mp hother
          exact hhead e' he'

/-- `entries_valid` accepts exactly the well-formed catalogs. -/
theorem entriesValid_iff (dataEnd : UInt32) (entries : List RomEntry) :
    entriesValid entries entries.length dataEnd = true ↔ CatalogOK dataEnd entries := by
  unfold entriesValid
  rw [List.take_length]
  split
  · rename_i h
    constructor
    · intro hf
      cases hf
    · intro hok
      exact absurd hok.count (Nat.not_le.mpr h)
  · rename_i h
    rw [entriesFrom_iff]
    constructor
    · rintro ⟨hall, hpair, -⟩
      exact ⟨Nat.le_of_not_lt h, hall, hpair⟩
    · intro hok
      exact ⟨hok.entry, hok.apart, by simp⟩

/-- Only the first `count` entries are checked. -/
theorem entriesValid_take {entries : List RomEntry} {count : Nat} {dataEnd : UInt32}
    (hlen : count ≤ entries.length) :
    entriesValid entries count dataEnd =
      entriesValid (entries.take count) (entries.take count).length dataEnd := by
  have hcount : (entries.take count).length = count := List.length_take_of_le hlen
  unfold entriesValid
  rw [hcount, List.take_take, Nat.min_self]

end FoloGameboy

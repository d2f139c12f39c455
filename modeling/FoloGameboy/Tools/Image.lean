/-
What the firmware makes of an image at the start of an otherwise erased `roms` partition.
-/
import FoloGameboy.Lib.Devices
import FoloGameboy.Storage.Recovery
import FoloGameboy.Tools.Pack

namespace FoloGameboy

open Effect

variable {P : Partition} {f : Flash} {s : Catalog} {data : List UInt8}

/-! ## Loading -/

/-- The partition with an image written at its start, and erased after it. -/
def burned (image : List UInt8) : Flash := fun i => image.getD i 0xFF

/-- `gb_storage_init`, while nothing fails, succeeds with this catalog. -/
structure Loads (P : Partition) (f : Flash) (s : Catalog) : Prop where
  runs : ∀ s₀, ∃ out f', (gbStorageInit P s₀).Exec (flashSucceeding P) f out f'
  succeeds : ∀ s₀ out f', (gbStorageInit P s₀).Exec (flashSucceeding P) f out f' → out = some (true, s)

theorem loads_iff : Loads P f s ↔ reload P f = some s := by
  constructor
  · rintro ⟨hruns, hall⟩
    obtain ⟨out, f', he⟩ := hruns {}
    obtain rfl := hall {} out f' he
    exact (Prog.wp_exec (gbStorageInit_hashed P anyTear {} f)
      (he.refines (flashSucceeding_init P anyTear))).2.reloaded rfl
  · intro hs
    refine ⟨fun s₀ => ⟨_, _, gbStorageInit_exec s₀ hs⟩, fun s₀ out f' he => ?_⟩
    have hpost := Prog.wp_exec (gbStorageInit_succeeds s₀ hs) he
    cases out with
    | none => exact hpost.elim
    | some r => exact congrArg some hpost.2

/-! ## The table -/

/-- The rows of the table of an image. -/
def imageEntries (data : List UInt8) : List RomEntry :=
  (List.range (imageHeader data).count.toNat).map (unpackEntry data)

/-- What both tools ask of the first sector. -/
structure Container (data : List UInt8) : Prop where
  sector : 4096 ≤ data.length
  magic : (imageHeader data).magic = legacyMagic
  version : (imageHeader data).version = 1
  low : 1 ≤ (imageHeader data).count.toNat
  high : (imageHeader data).count.toNat ≤ 16

theorem burned_get {i : Nat} (h : i < data.length) : burned data i = data.getD i 0 := by
  unfold burned
  rw [List.getD_eq_getElem _ _ h, List.getD_eq_getElem _ _ h]

theorem burned_header (h : 4096 ≤ data.length) :
    (romHeaderCodec.get fun i => burned data (0 + i)) = imageHeader data := by
  refine romHeaderCodec.get_congr fun i hi => ?_
  have hlt : i < 8 := hi
  rw [Nat.zero_add]
  exact burned_get (by omega)

theorem burned_entries (h : Container data) :
    legacyEntries (burned data) (imageHeader data).count.toNat = imageEntries data := by
  have hlen := h.sector
  have hcount := h.high
  refine List.map_congr_left fun k hk => romEntryCodec.get_congr fun i hi => burned_get ?_
  have hk' := List.mem_range.mp hk
  have hi' : i < 72 := hi
  rw [romHeaderCodec_size, romEntryCodec_size]
  omega

/-- The catalog of the table, if it is acceptable. -/
theorem legacyCatalog_image (h : Container data) : legacyCatalog P (burned data) =
    if entriesValid (imageEntries data) (imageEntries data).length (dataEnd P) then
      some { partition := true, entries := imageEntries data, catalogTrusted := true } else none := by
  have hcount : (imageEntries data).length = (imageHeader data).count.toNat := by
    unfold imageEntries
    rw [List.length_map, List.length_range]
  have hheader : ¬ ((imageHeader data).magic ≠ legacyMagic ∨ (imageHeader data).version ≠ 1 ∨
      (imageHeader data).count = 0 ∨
      GB_STORAGE_MAX_ROMS < (imageHeader data).count.toNat) := by
    have hmax : GB_STORAGE_MAX_ROMS = 16 := rfl
    rintro (hne | hne | hzero | hlt)
    · exact hne h.magic
    · exact hne h.version
    · have hlow := h.low
      rw [hzero] at hlow
      exact absurd hlow (by decide)
    · exact absurd h.high (by omega)
  unfold legacyCatalog
  dsimp only
  rw [burned_header h.sector, if_neg hheader, burned_entries h, hcount]
  by_cases hvalid : entriesValid (imageEntries data) (imageHeader data).count.toNat (dataEnd P) = true
  · rw [if_neg (not_not.mpr hvalid), if_pos hvalid]
  · rw [if_pos hvalid, if_neg hvalid]

/-- An image that ends before the slots leaves them erased. -/
theorem burned_slot (hr : slotReadable P 0) (hlen : data.length ≤ (dataEnd P).toNat) {slot : Nat}
    (hslot : slot < 2) :
    slotDirectory P (burned data) slot = none := by
  obtain ⟨-, h0, h1⟩ := slot_geometry hr
  refine slotDirectory_erased fun i _ => List.getD_eq_default _ _ ?_
  obtain rfl | rfl : slot = 0 ∨ slot = 1 := by omega
  · rw [h0]
    omega
  · rw [h1]
    omega

theorem reload_image (hr : slotReadable P 0 ∧ slotReadable P 1) (hlen : data.length ≤ (dataEnd P).toNat) :
    reload P (burned data) = legacyCatalog P (burned data) := by
  unfold reload
  rw [if_neg (not_not.mpr hr), burned_slot hr.1 hlen (by decide), burned_slot hr.1 hlen (by decide)]
  rfl

end FoloGameboy

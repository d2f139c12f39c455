/-
An image `inspect_image` passes is one the firmware loads exactly when its names are allowed and
distinct, no ROM reaches the directory sectors and no newer directory lies there: the checks that
`inspect_image` leaves out.
-/
import FoloGameboy.Tools.Packed

namespace FoloGameboy

open Effect

variable {P : Partition} {sha256 : List UInt8 → Vector UInt8 32} {data : List UInt8} {names : List String}

/-! ## What `inspect_image` has checked -/

/-- The checks of one row. -/
structure InspectedRow (data : List UInt8) (e : RomEntry) (name : String) : Prop where
  name : utf8Bytes name = cstr e.name.toList
  aligned : e.offset.toNat % 4096 = 0
  low : 4096 ≤ e.offset.toNat
  min : 32768 ≤ e.size.toNat
  banks : e.size.toNat % 16384 = 0
  inside : e.stop ≤ data.length

/-- Two rows whose ROMs are disjoint. -/
def RowsApart (e e' : RomEntry) : Prop := ¬ (e'.offset.toNat < e.stop ∧ e.offset.toNat < e'.stop)

theorem utf8Decode_bytes {bytes : List UInt8} {name : String} (h : utf8Decode bytes = some name) :
    utf8Bytes name = bytes := by
  unfold utf8Decode String.fromUTF8? at h
  split at h
  · obtain rfl := Option.some.inj h
    exact List.toList_data_toByteArray
  · cases h

theorem inspectEntry_row {i : Nat} {ranges : List (Nat × Nat)} {name : String} {range : Nat × Nat}
    (h : inspectEntry sha256 data i ranges = .ok (name, range)) :
    InspectedRow data (unpackEntry data i) name ∧
      range = ((unpackEntry data i).offset.toNat, (unpackEntry data i).stop) ∧
      ∀ r ∈ ranges, ¬ ((unpackEntry data i).offset.toNat < r.2 ∧ r.1 < (unpackEntry data i).stop) := by
  unfold inspectEntry at h
  dsimp only at h
  split at h
  · cases h
  rename_i hentry
  split at h
  · cases h
  rename_i hrange
  split at h
  · cases h
  rename_i hapart
  split at h
  · cases h
  split at h
  · cases h
  split at h
  · cases h
  rename_i decoded hdecoded
  obtain ⟨rfl, rfl⟩ := Prod.mk.inj (Except.ok.inj h)
  simp only [not_or, not_not, Nat.not_lt] at hentry hrange
  obtain ⟨-, -, haligned⟩ := hentry
  obtain ⟨hlow, hmin, hbanks, hinside⟩ := hrange
  refine ⟨⟨utf8Decode_bytes hdecoded, haligned, hlow, hmin, hbanks, hinside⟩, rfl,
    fun r hr hboth => hapart ?_⟩
  refine List.any_eq_true.mpr ⟨r, hr, ?_⟩
  rw [Bool.and_eq_true, decide_eq_true_eq, decide_eq_true_eq]
  exact hboth

/-- The rows from some index on. -/
def rowsFrom (data : List UInt8) (i remaining : Nat) : List RomEntry := (List.range' i remaining).map (unpackEntry data)

theorem rowsFrom_succ (data : List UInt8) (i remaining : Nat) :
    rowsFrom data i (remaining + 1) = unpackEntry data i :: rowsFrom data (i + 1) remaining := by
  unfold rowsFrom
  rw [List.range'_succ, List.map_cons]

theorem rowsFrom_zero (data : List UInt8) (remaining : Nat) :
    rowsFrom data 0 remaining = (List.range remaining).map (unpackEntry data) := by
  unfold rowsFrom
  rw [List.range_eq_range']

/-- A row whose range is apart from a list of ranges. -/
def ApartFrom (ranges : List (Nat × Nat)) (e : RomEntry) : Prop := ∀ r ∈ ranges, ¬ (e.offset.toNat < r.2 ∧ r.1 < e.stop)

theorem inspectFrom_rows (remaining : Nat) :
    ∀ (i : Nat) {before : List String} {ranges : List (Nat × Nat)} {names : List String},
    inspectFrom sha256 data remaining i before ranges = .ok names →
      ∃ found, names = before ++ found ∧
        List.Forall₂ (InspectedRow data) (rowsFrom data i remaining) found ∧
        (rowsFrom data i remaining).Pairwise RowsApart ∧ ∀ e ∈ rowsFrom data i remaining,
          ApartFrom ranges e := by
  induction remaining with
  | zero =>
    intro i before ranges names h
    obtain rfl := Except.ok.inj h
    exact ⟨[], by simp, .nil, .nil, by simp [rowsFrom]⟩
  | succ remaining ih =>
    intro i before ranges names h
    unfold inspectFrom at h
    cases hrow : inspectEntry sha256 data i ranges with
    | error e =>
      rw [hrow] at h
      cases h
    | ok r =>
      obtain ⟨name, range⟩ := r
      rw [hrow] at h
      obtain ⟨hinspected, rfl, hbefore⟩ := inspectEntry_row hrow
      obtain ⟨found, rfl, hrows, hpair, hranges⟩ := ih (i + 1) h
      rw [rowsFrom_succ]
      refine ⟨name :: found, by simp, .cons hinspected hrows, List.pairwise_cons.mpr ⟨?_, hpair⟩, ?_⟩
      · intro e he
        exact hranges e he _ (List.mem_append_right _ (List.mem_singleton_self _))
      · intro e he
        rcases List.mem_cons.mp he with rfl | hlater
        · exact hbefore
        · exact fun r hr => hranges e hlater r (List.mem_append_left _ hr)

/-- What an image that is passed is. -/
structure Inspected (data : List UInt8) (names : List String) : Prop where
  container : Container data
  limit : data.length ≤ MAX_IMAGE
  rows : List.Forall₂ (InspectedRow data) (imageEntries data) names
  apart : (imageEntries data).Pairwise RowsApart

theorem inspectImage_ok (h : inspectImage sha256 data = .ok names) : Inspected data names := by
  unfold inspectImage at h
  split at h
  · cases h
  rename_i hcontainer
  dsimp only at h
  split at h
  · cases h
  rename_i hdirectory
  simp only [not_or, not_not, Nat.not_lt] at hcontainer hdirectory
  obtain ⟨hlimit, hsector, hmagic⟩ := hcontainer
  obtain ⟨hversion, ⟨hlow, hhigh⟩, -⟩ := hdirectory
  obtain ⟨found, rfl, hrows, hpair, -⟩ := inspectFrom_rows _ 0 h
  have hall : rowsFrom data 0 (imageHeader data).count.toNat = imageEntries data := rowsFrom_zero _ _
  rw [hall] at hrows hpair
  exact ⟨⟨hsector, hmagic, hversion, hlow, hhigh⟩, hlimit, hrows, hpair⟩

theorem Inspected.listed (h : Inspected data names) :
    names.map utf8Bytes = (imageEntries data).map fun e => cstr e.name.toList :=
  (map_eq_of_forall₂ (fun _ _ hrow => hrow.name.symm) h.rows.flip).symm

theorem Inspected.row (h : Inspected data names) :
    ∀ e ∈ imageEntries data, ∃ name, InspectedRow data e name := by
  intro e he
  obtain ⟨i, hi, rfl⟩ := List.mem_iff_getElem.mp he
  obtain ⟨hlen, hall⟩ := List.forall₂_iff_get.mp h.rows
  exact ⟨_, hall i hi (by omega)⟩

/-! ## What the firmware asks besides -/

/-- `gb_storage_init` loads a trusted catalog of the names listed, with the offsets and the sizes of
the table. -/
def LoadsListed (P : Partition) (data : List UInt8) (names : List String) : Prop :=
  ∃ s, Loads P (burned data) s ∧ s.catalogTrusted = true ∧
    (s.entries.map fun e => cstr e.name.toList) = names.map utf8Bytes ∧
    (s.entries.map fun e => (e.offset, e.size)) = (imageEntries data).map fun e => (e.offset, e.size)

/-- What a catalog shows of a ROM. -/
def shown (e : RomEntry) : List UInt8 × UInt32 × UInt32 := (cstr e.name.toList, e.offset, e.size)

/-- The rules of `entries_valid` that `inspect_image` lacks, and what the image may have where the
directories are. -/
structure FirmwareRules (P : Partition) (data : List UInt8) : Prop where
  allowed : ∀ e ∈ imageEntries data, gbNameValid e.name.toList = true
  distinct : ((imageEntries data).map fun e => cstr e.name.toList).Nodup
  below : ∀ e ∈ imageEntries data, e.stop ≤ (dataEnd P).toNat
  directory : ∀ slot d, newestSlot (slotDirectory P (burned data) 0) (slotDirectory P (burned data) 1)
    = some (slot, d) →
    (d.entries.toList.take d.count.toNat).map shown = (imageEntries data).map shown

/-- Only the bytes before the terminator of a field count. -/
theorem gbNameValid_field {name name' : Vector UInt8 32} (h : cstr name.toList = cstr name'.toList) :
    gbNameValid name.toList = gbNameValid name'.toList := by
  have htake : ∀ v : Vector UInt8 32, v.toList.take 32 = v.toList :=
    fun v => List.take_of_length_le (by simp)
  unfold gbNameValid
  rw [htake, htake, h]

theorem map_shown_iff {l l' : List RomEntry} : l.map shown = l'.map shown ↔
    (l.map fun e => cstr e.name.toList) = (l'.map fun e => cstr e.name.toList) ∧
      (l.map fun e => (e.offset, e.size)) = l'.map fun e => (e.offset, e.size) := by
  constructor
  · intro h
    have hfst := congrArg (List.map Prod.fst) h
    have hsnd := congrArg (List.map Prod.snd) h
    rw [List.map_map, List.map_map] at hfst hsnd
    exact ⟨hfst, hsnd⟩
  · rintro ⟨hname, hregion⟩
    have hzip := congrArg₂ List.zip hname hregion
    rw [List.zip_map', List.zip_map'] at hzip
    exact hzip

/-- What an entry shows decides whether it is acceptable. -/
theorem shown_valid {l l' : List RomEntry} {dataEnd : UInt32} (h : l.map shown = l'.map shown)
    (hok : CatalogOK dataEnd l) :
    (∀ e ∈ l', gbNameValid e.name.toList = true ∧ e.stop ≤ dataEnd.toNat) := by
  intro e' he'
  obtain ⟨e, he, heq⟩ := List.mem_map.mp (h ▸ List.mem_map_of_mem (f := shown) he')
  obtain ⟨hname, hoffset, hsize⟩ : cstr e.name.toList = cstr e'.name.toList ∧ e.offset = e'.offset ∧
      e.size = e'.size := by
    simpa only [shown, Prod.mk.injEq] using heq
  have hhigh := (hok.region e he).high
  constructor
  · rw [← gbNameValid_field hname]
    exact entryValid_name (hok.entry e he)
  · unfold RomEntry.stop at hhigh ⊢
    rw [← hoffset, ← hsize]
    exact hhigh

theorem CatalogOK.distinct {l : List RomEntry} {dataEnd : UInt32} (h : CatalogOK dataEnd l) :
    (l.map fun e => cstr e.name.toList).Nodup :=
  List.pairwise_map.mpr (h.apart.imp fun hapart => (sameName_false.mp hapart.name).symm)

theorem LoadsListed.rules (hinspected : Inspected data names) (h : LoadsListed P data names) :
    FirmwareRules P data := by
  obtain ⟨s, hloads, -, hnames, hregions⟩ := h
  rw [hinspected.listed] at hnames
  have hreload := loads_iff.mp hloads
  have hok := reload_catalogOK hreload
  have hshown := map_shown_iff.mpr ⟨hnames, hregions⟩
  refine ⟨fun e he => (shown_valid hshown hok e he).1, ?_, fun e he => (shown_valid hshown hok e he).2, ?_⟩
  · rw [← hnames]
    exact hok.distinct
  · intro slot d hnewest
    unfold reload reloadWith at hreload
    rw [if_neg (not_not.mpr (reload_readable (loads_iff.mp hloads))), hnewest] at hreload
    obtain rfl := Option.some.inj hreload
    exact hshown

/-- The rows `inspect_image` passes need the rules of names and the bound besides. -/
theorem FirmwareRules.catalogOK (hinspected : Inspected data names) (h : FirmwareRules P data) :
    CatalogOK (dataEnd P) (imageEntries data) := by
  have hcount : (imageEntries data).length = (imageHeader data).count.toNat := by
    unfold imageEntries
    rw [List.length_map, List.length_range]
  have hregion : ∀ e ∈ imageEntries data, RegionOK (dataEnd P) e := by
    intro e he
    obtain ⟨name, hrow⟩ := hinspected.row e he
    exact ⟨hrow.aligned, hrow.low, hrow.min, hrow.banks, h.below e he⟩
  refine ⟨Nat.le_trans (Nat.le_of_eq hcount) hinspected.container.high, ?_, ?_⟩
  · intro e he
    exact entryValid_of_region (h.allowed e he) (hregion e he)
  · refine (hinspected.apart.and (List.pairwise_map.mp h.distinct)).imp_of_mem fun {e e'} he he' hboth => ?_
    obtain ⟨hrows, hname⟩ := hboth
    constructor
    · exact sameName_false.mpr (Ne.symm hname)
    · unfold overlaps
      rw [Bool.and_eq_false_iff, decide_eq_false_iff_not, decide_eq_false_iff_not,
        UInt32.lt_iff_toNat_lt, UInt32.lt_iff_toNat_lt,
        (hregion e he).toNat_stop, (hregion e' he').toNat_stop]
      unfold RowsApart at hrows
      exact not_and_or.mp hrows

theorem FirmwareRules.loads (hr : slotReadable P 0 ∧ slotReadable P 1) (hinspected : Inspected data names)
    (h : FirmwareRules P data) : LoadsListed P data names := by
  have hnames := hinspected.listed
  cases hnewest : newestSlot (slotDirectory P (burned data) 0) (slotDirectory P (burned data) 1) with
  | none =>
    have hreload :
        reload P (burned data) =
        some { partition := true, entries := imageEntries data, catalogTrusted := true } := by
      unfold reload reloadWith
      rw [if_neg (not_not.mpr hr), hnewest, legacyCatalog_image hinspected.container,
        if_pos ((entriesValid_iff _ _).mpr (h.catalogOK hinspected))]
    exact ⟨_, loads_iff.mpr hreload, rfl, hnames.symm, rfl⟩
  | some found =>
    obtain ⟨slot, d⟩ := found
    have hreload : reload P (burned data) = some (slotCatalog slot d) := by
      unfold reload reloadWith
      rw [if_neg (not_not.mpr hr), hnewest]
    obtain ⟨hname, hregion⟩ := map_shown_iff.mp (h.directory slot d hnewest)
    exact ⟨_, loads_iff.mpr hreload, rfl, hname.trans hnames.symm, hregion⟩

/-! ## When a verified image is accepted -/

/-- The entry of a blank ROM. -/
def blankEntry (sha256 : List UInt8 → Vector UInt8 32) (name : List UInt8) : RomEntry :=
  ⟨nameField name, 4096, 32768, sha256 (List.replicate 32768 0)⟩

/-- An image of one blank ROM. -/
def blankImage (sha256 : List UInt8 → Vector UInt8 32) (name : List UInt8) : List UInt8 :=
  packedTable [([], blankEntry sha256 name)] ++ (List.replicate 4016 0xFF ++ List.replicate 32768 0)

theorem blankImage_entries (sha256 : List UInt8 → Vector UInt8 32) (name : List UInt8) :
    imageEntries (blankImage sha256 name) = [blankEntry sha256 name] :=
  packedTable_entries _ (by simp)

theorem blankImage_length (sha256 : List UInt8 → Vector UInt8 32) (name : List UInt8) :
    (blankImage sha256 name).length = 36864 := by
  unfold blankImage
  rw [List.length_append, packedTable_length, List.length_append, List.length_replicate,
    List.length_replicate, List.length_singleton]

theorem blankImage_rom (sha256 : List UInt8 → Vector UInt8 32) (name : List UInt8) :
    imageRom (blankImage sha256 name) (blankEntry sha256 name) = List.replicate 32768 0 := by
  have htable : (packedTable [([], blankEntry sha256 name)]).length = 80 := packedTable_length _
  have hdrop : (blankImage sha256 name).drop 4096 = List.replicate 32768 0 := by
    unfold blankImage
    rw [List.drop_append, List.drop_eq_nil_of_le (by omega), htable, List.nil_append]
    exact List.drop_left' List.length_replicate
  show ((blankImage sha256 name).drop 4096).take 32768 = _
  rw [hdrop, List.take_of_length_le (by rw [List.length_replicate])]

/-- Any name that decodes passes. -/
theorem blankImage_inspected (sha256 : List UInt8 → Vector UInt8 32) {name : List UInt8} {decoded : String}
    (hfield : (nameField name).toList.contains 0 = true ∧ (nameField name).get ⟨0, entryName_pos⟩ ≠ 0)
    (hdecoded : utf8Decode (cstr (nameField name).toList) = some decoded) :
    inspectImage sha256 (blankImage sha256 name) = .ok [decoded] := by
  obtain ⟨hzero, hfirst⟩ := hfield
  have hheader : imageHeader (blankImage sha256 name) = ⟨legacyMagic, 1, 1⟩ := packedTable_header _ _
  have hentry : unpackEntry (blankImage sha256 name) 0 = blankEntry sha256 name := by
    have h := blankImage_entries sha256 name
    unfold imageEntries at h
    rw [hheader] at h
    exact List.head_eq_of_cons_eq h
  have hrow : inspectEntry sha256 (blankImage sha256 name) 0 [] = .ok (decoded, (4096, 36864)) := by
    have hget : ∀ i < 32768, (List.replicate 32768 (0 : UInt8)).getD i 0 = 0 :=
      fun i hi => List.getD_replicate _ hi
    have hmultiple : ¬ ((4096 : UInt32).toNat % 4096 ≠ 0) := by decide
    unfold inspectEntry
    dsimp only
    rw [hentry, blankImage_rom, blankImage_length, hget _ (by decide), hget _ (by decide),
      hget _ (by decide)]
    unfold blankEntry
    dsimp only
    rw [if_neg (not_or.mpr ⟨not_not.mpr hzero, not_or.mpr ⟨hfirst, hmultiple⟩⟩), if_neg (by decide),
      if_neg (by simp),
      if_neg (not_not.mpr rfl), if_neg (by decide), hdecoded]
    rfl
  unfold inspectImage
  rw [blankImage_length, hheader, if_neg (by decide), if_neg (by decide)]
  show inspectFrom sha256 (blankImage sha256 name) 1 0 [] [] = _
  unfold inspectFrom
  rw [hrow]
  rfl

theorem letter_inspected (sha256 : List UInt8 → Vector UInt8 32) :
    inspectImage sha256 (blankImage sha256 [0x41]) = .ok ["A"] :=
  blankImage_inspected sha256 (by decide) rfl

theorem slash_inspected (sha256 : List UInt8 → Vector UInt8 32) :
    inspectImage sha256 (blankImage sha256 [0x2F]) = .ok ["/"] :=
  blankImage_inspected sha256 (by decide) rfl

theorem blankImage_rules (sha256 : List UInt8 → Vector UInt8 32) :
    FirmwareRules ⟨0x400000, sha256⟩ (blankImage sha256 [0x41]) := by
  have hentries := blankImage_entries sha256 [0x41]
  have hend : (dataEnd ⟨0x400000, sha256⟩).toNat = 0x3FE000 := by
    unfold dataEnd
    dsimp only
    decide
  have hreadable : slotReadable ⟨0x400000, sha256⟩ 0 := by
    unfold slotReadable slotOffset dataEnd
    dsimp only
    decide
  have hfits : (blankImage sha256 [0x41]).length ≤ (dataEnd ⟨0x400000, sha256⟩).toNat := by
    rw [blankImage_length, hend]
    decide
  refine ⟨?_, ?_, ?_, ?_⟩
  · rw [hentries]
    intro e he
    obtain rfl := List.mem_singleton.mp he
    show gbNameValid (nameField [0x41]).toList = true
    decide
  · rw [hentries]
    exact List.pairwise_singleton ..
  · rw [hentries, hend]
    intro e he
    obtain rfl := List.mem_singleton.mp he
    show (4096 : UInt32).toNat + (32768 : UInt32).toNat ≤ 0x3FE000
    decide
  · intro slot d hnewest
    rw [burned_slot hreadable hfits (by decide), burned_slot hreadable hfits (by decide)] at hnewest
    cases hnewest

theorem verified_image_loads (P : Partition) (hsize : P.size = 0x400000) (data : List UInt8) (names : List String)
    (h : inspectImage P.sha256 data = .ok names) : LoadsListed P data names ↔ FirmwareRules P data := by
  have hr : slotReadable P 0 ∧ slotReadable P 1 := by
    unfold slotReadable slotOffset dataEnd
    rw [hsize]
    decide
  constructor
  · exact LoadsListed.rules (inspectImage_ok h)
  · exact FirmwareRules.loads hr (inspectImage_ok h)

theorem verified_image_loads_blank : ∃ image, inspectImage (fun _ => .replicate 32 0) image = .ok ["A"] ∧
    LoadsListed ⟨0x400000, fun _ => .replicate 32 0⟩ image ["A"] := by
  generalize hsha : (fun _ => .replicate 32 0 : List UInt8 → Vector UInt8 32) = sha256
  have hinspected := letter_inspected sha256
  exact ⟨_, hinspected, (verified_image_loads ⟨0x400000, sha256⟩ rfl _ _ hinspected).mpr
    (blankImage_rules sha256)⟩

/-- A name the firmware refuses passes, whatever the hash. -/
theorem verified_image_slash : ∃ image : (List UInt8 → Vector UInt8 32) → List UInt8, ∀ sha256,
    inspectImage sha256 (image sha256) = .ok ["/"] ∧ ¬ LoadsListed ⟨0x400000, sha256⟩ (image sha256) ["/"] := by
  refine ⟨fun sha256 => blankImage sha256 [0x2F], fun sha256 => ⟨slash_inspected sha256, fun hloads => ?_⟩⟩
  have hrules := hloads.rules (inspectImage_ok (slash_inspected sha256))
  have hvalid :=
    hrules.allowed (blankEntry sha256 [0x2F])
      (by rw [blankImage_entries]; exact List.mem_singleton_self _)
  have hslash : gbNameValid (nameField [0x2F]).toList = false := by decide
  exact absurd (hslash.symm.trans hvalid) (by decide)

end FoloGameboy

/-
The packer and the firmware agree: an image `pack` returns, written to the partition, is loaded as
exactly the given ROMs under the given names, and never reaches the directory sectors.
-/
import FoloGameboy.Storage.Invariant
import FoloGameboy.Storage.Open
import FoloGameboy.Tools.Image
import FoloGameboy.Tools.Names
import Mathlib.Data.List.Forall2

namespace FoloGameboy

open Effect

variable {sha256 : List UInt8 → Vector UInt8 32}

/-! ## The loop of `pack` -/

/-- A ROM of the image: its file and encoded name, and its row. -/
structure StoredRom (sha256 : List UInt8 → Vector UInt8 32) (image : List UInt8) (rom : List UInt8 × String)
    (row : List UInt8 × RomEntry) : Prop where
  encoded : EncodedName rom.2 row.1
  name : row.2.name = padName row.1
  size : row.2.size.toNat = rom.1.length
  digest : row.2.sha256 = sha256 rom.1
  aligned : row.2.offset.toNat % 4096 = 0
  low : 4096 ≤ row.2.offset.toNat
  min : 32768 ≤ rom.1.length
  banks : rom.1.length % 16384 = 0
  inside : row.2.stop ≤ image.length
  stored : (image.drop row.2.offset.toNat).take rom.1.length = rom.1

/-- The image so far: the table's sector and whole banks. -/
structure ImageShape (image : List UInt8) : Prop where
  sector : 4096 ≤ image.length
  banks : (image.length - 4096) % 16384 = 0
  limit : image.length ≤ MAX_IMAGE

theorem ImageShape.append {image data : List UInt8} (h : ImageShape image)
    (hbanks : data.length % 16384 = 0)
    (hfits : image.length + data.length ≤ MAX_IMAGE) : ImageShape (image ++ data) := by
  obtain ⟨hsector, hbank, -⟩ := h
  constructor
  · rw [List.length_append]
    omega
  · rw [List.length_append, Nat.sub_add_comm hsector, Nat.add_mod, hbank, hbanks]
  · rw [List.length_append]
    exact hfits

/-- The loop has appended these rows, one after the other. -/
structure PackRows (sha256 : List UInt8 → Vector UInt8 32) (roms : List (List UInt8 × String)) (st st' : PackState)
    (rows : List (List UInt8 × RomEntry)) : Prop where
  entries : st'.entries = st.entries ++ rows.map fun row => romEntryCodec.bytes row.2
  names : st'.names = st.names ++ rows.map Prod.fst
  grown : ∃ rest, st'.image = st.image ++ rest
  shape : ImageShape st'.image
  stored : List.Forall₂ (StoredRom sha256 st'.image) roms rows
  ordered : rows.Pairwise fun row row' => row.2.stop ≤ row'.2.offset.toNat
  after : ∀ row ∈ rows, st.image.length ≤ row.2.offset.toNat
  nodup : st.names.Nodup → st'.names.Nodup

theorem StoredRom.grown {image rest : List UInt8} {rom : List UInt8 × String} {row : List UInt8 × RomEntry}
    (h : StoredRom sha256 image rom row) : StoredRom sha256 (image ++ rest) rom row := by
  have hinside := h.inside
  have hsize := h.size
  unfold RomEntry.stop at hinside
  refine { h with inside := ?_, stored := ?_ }
  · unfold RomEntry.stop
    rw [List.length_append]
    omega
  · rw [List.drop_append_of_le_length (by omega),
      List.take_append_of_le_length (by rw [List.length_drop]; omega)]
    exact h.stored

/-- One ROM is appended at the end, which is aligned. -/
theorem packRom_rows {index : Nat} {data : List UInt8} {display : String} {st st' : PackState}
    (hshape : ImageShape st.image)
    (h : packRom sha256 index data display st = .ok st') :
    ∃ row, PackRows sha256 [(data, display)] st st' [row] := by
  unfold packRom at h
  split at h
  · cases h
  rename_i hlength
  split at h
  · cases h
  cases hname : encodeName display with
  | error e =>
    rw [hname] at h
    cases h
  | ok name =>
    rw [hname] at h
    simp only [bind, Except.bind] at h
    split at h
    · cases h
    rename_i hnew
    split at h
    · cases h
    rename_i hfull
    simp only [not_or, Nat.not_lt, not_not] at hlength
    obtain ⟨hmin, -, hbanks⟩ := hlength
    have hmax : MAX_IMAGE = 4194304 := rfl
    have hsector := hshape.sector
    have hbank := hshape.banks
    -- whole banks keep the end aligned
    have haligned : aligned st.image.length 4096 = st.image.length := by
      unfold aligned
      omega
    rw [haligned, Nat.sub_self, List.replicate_zero, List.append_nil] at h
    rw [haligned] at hfull
    obtain rfl := (Except.ok.inj h).symm
    have hoffset : (UInt32.ofNat st.image.length).toNat = st.image.length := by
      rw [UInt32.toNat_ofNat', Nat.mod_eq_of_lt (by omega)]
    have hsize : (UInt32.ofNat data.length).toNat = data.length := by
      rw [UInt32.toNat_ofNat', Nat.mod_eq_of_lt (by omega)]
    have hencoded := encodeName_ok hname
    have hgrown : ImageShape (st.image ++ data) := hshape.append hbanks (Nat.not_lt.mp hfull)
    refine ⟨(name, ⟨nameField name, UInt32.ofNat st.image.length, UInt32.ofNat data.length,
      sha256 data⟩), ⟨?_, ?_, ⟨data, rfl⟩,
      hgrown, .cons ?_ .nil, List.pairwise_singleton .., ?_, ?_⟩⟩
    · rw [List.map_singleton]
    · rw [List.map_singleton]
    · refine ⟨hencoded, hencoded.field, hsize, rfl, ?_, ?_, hmin, hbanks, ?_, ?_⟩
      · rw [hoffset]
        omega
      · rw [hoffset]
        exact hsector
      · unfold RomEntry.stop
        rw [hoffset, hsize, List.length_append]
      · rw [hoffset, List.drop_left, List.take_length]
    · intro row hrow
      obtain rfl := List.mem_singleton.mp hrow
      exact Nat.le_of_eq hoffset.symm
    · intro hnodup
      rw [List.nodup_append]
      refine ⟨hnodup, List.pairwise_singleton .., ?_⟩
      rintro a ha b hb rfl
      obtain rfl := List.mem_singleton.mp hb
      exact hnew (List.contains_iff_mem.mpr ha)

theorem packRoms_rows : ∀ (roms : List (List UInt8 × String)) (index : Nat) {st st' : PackState},
    ImageShape st.image →
    packRoms sha256 index roms st = .ok st' → ∃ rows, PackRows sha256 roms st st' rows
  | [], _, st, st', hshape, h => by
    obtain rfl := Except.ok.inj h
    exact ⟨[], ⟨by simp, by simp, ⟨[], by simp⟩, hshape, .nil, .nil, by simp, id⟩⟩
  | (data, display) :: roms, index, st, st', hshape, h => by
    unfold packRoms at h
    cases hrom : packRom sha256 index data display st with
    | error e =>
      rw [hrom] at h
      cases h
    | ok st₁ =>
      rw [hrom] at h
      obtain ⟨row, hrow⟩ := packRom_rows hshape hrom
      obtain ⟨rows, hrows⟩ := packRoms_rows roms (index + 1) hrow.shape h
      obtain ⟨rest₁, hrest₁⟩ := hrow.grown
      obtain ⟨rest, hrest⟩ := hrows.grown
      obtain ⟨hstored, -⟩ := List.forall₂_cons.mp hrow.stored
      refine ⟨row :: rows, ⟨?_, ?_, ⟨rest₁ ++ rest, ?_⟩, hrows.shape, .cons ?_ hrows.stored,
        List.pairwise_cons.mpr ⟨?_, hrows.ordered⟩, ?_,
        fun hnodup => hrows.nodup (hrow.nodup hnodup)⟩⟩
      · rw [hrows.entries, hrow.entries, List.append_assoc]
        rfl
      · rw [hrows.names, hrow.names, List.append_assoc]
        rfl
      · rw [hrest, hrest₁, List.append_assoc]
      · rw [hrest]
        exact hstored.grown
      · intro row' hrow'
        exact Nat.le_trans hstored.inside (hrows.after row' hrow')
      · intro row' hrow'
        rcases List.mem_cons.mp hrow' with rfl | hlater
        · exact hrow.after row' List.mem_cons_self
        · have hle := hrows.after row' hlater
          rw [hrest₁, List.length_append] at hle
          omega

/-! ## The finished image -/

/-- A byte of one of many blocks of the same length. -/
theorem flatten_getD {m : Nat} : ∀ {blocks : List (List UInt8)} (rest : List UInt8),
    (∀ b ∈ blocks, b.length = m) →
    ∀ {k i : Nat}, (h : k < blocks.length) → i < m → (blocks.flatten ++ rest).getD (k * m + i) 0 =
      blocks[k].getD i 0
  | [], _, _, _, _, h, _ => absurd h (Nat.not_lt_zero _)
  | b :: blocks, rest, hall, 0, i, _, hi => by
    have hb := hall b List.mem_cons_self
    rw [List.flatten_cons, List.append_assoc, Nat.zero_mul, Nat.zero_add,
      List.getD_append _ _ _ _ (by omega)]
    rfl
  | b :: blocks, rest, hall, k + 1, i, h, hi => by
    have hb := hall b List.mem_cons_self
    have hindex : (k + 1) * m + i - b.length = k * m + i := by
      rw [hb, Nat.add_mul, Nat.one_mul]
      omega
    have hge : b.length ≤ (k + 1) * m + i := by
      rw [hb, Nat.add_mul, Nat.one_mul]
      omega
    rw [List.flatten_cons, List.append_assoc, List.getD_append_right _ _ _ _ hge, hindex]
    exact flatten_getD rest (fun b' hb' => hall b' (List.mem_cons_of_mem _ hb'))
      (Nat.lt_of_succ_lt_succ h) hi

/-- The table of an image. -/
def packedTable (rows : List (List UInt8 × RomEntry)) : List UInt8 :=
  romHeaderCodec.bytes ⟨legacyMagic, 1, UInt16.ofNat rows.length⟩ ++
    (rows.map fun row => romEntryCodec.bytes row.2).flatten

/-- An image `pack` returns: the table over the first sector, and the ROMs. -/
structure Packed (sha256 : List UInt8 → Vector UInt8 32) (roms : List (List UInt8 × String)) (image : List UInt8)
    (rows : List (List UInt8 × RomEntry)) : Prop where
  count : 1 ≤ rows.length ∧ rows.length ≤ 16
  table : ∃ rest, image = packedTable rows ++ rest
  shape : ImageShape image
  stored : List.Forall₂ (StoredRom sha256 image) roms rows
  ordered : rows.Pairwise fun row row' => row.2.stop ≤ row'.2.offset.toNat
  distinct : (rows.map Prod.fst).Nodup

theorem packedTable_length (rows : List (List UInt8 × RomEntry)) :
    (packedTable rows).length = 8 + 72 * rows.length := by
  have hflat : ((rows.map fun row => romEntryCodec.bytes row.2).flatten).length = 72 * rows.length := by
    induction rows with
    | nil => rfl
    | cons row rows ih =>
      rw [List.map_cons, List.flatten_cons, List.length_append, ih, Codec.length_bytes,
        romEntryCodec_size, List.length_cons]
      omega
  unfold packedTable
  rw [List.length_append, hflat, Codec.length_bytes, romHeaderCodec_size]

theorem packedTable_header (rows : List (List UInt8 × RomEntry)) (rest : List UInt8) :
    imageHeader (packedTable rows ++ rest) = ⟨legacyMagic, 1, UInt16.ofNat rows.length⟩ := by
  unfold imageHeader packedTable
  rw [List.append_assoc]
  exact romHeaderCodec.get_bytes_append _ _

theorem packedTable_entries {rows : List (List UInt8 × RomEntry)} (rest : List UInt8)
    (hcount : rows.length ≤ 16) :
    imageEntries (packedTable rows ++ rest) = rows.map Prod.snd := by
  have htoNat : (imageHeader (packedTable rows ++ rest)).count.toNat = rows.length := by
    rw [packedTable_header]
    exact (UInt16.toNat_ofNat').trans (Nat.mod_eq_of_lt (by omega))
  unfold imageEntries
  rw [htoNat]
  refine List.ext_getElem (by simp) fun k h₁ h₂ => ?_
  rw [List.getElem_map, List.getElem_range, List.getElem_map]
  have hk : k < rows.length := by simpa using h₂
  refine romEntryCodec.get_put fun i hi => ?_
  unfold packedTable
  have hheader : (romHeaderCodec.bytes ⟨legacyMagic, 1, UInt16.ofNat rows.length⟩).length =
      romHeaderCodec.size := Codec.length_bytes _ _
  have hblocks : ∀ b ∈ rows.map fun row => romEntryCodec.bytes row.2, b.length = romEntryCodec.size := by
    intro b hb
    obtain ⟨row, -, rfl⟩ := List.mem_map.mp hb
    exact Codec.length_bytes _ _
  rw [List.append_assoc, List.getD_append_right _ _ _ _ (by omega), hheader, Nat.add_sub_cancel_left,
    flatten_getD rest hblocks (by simpa using hk) hi, List.getElem_map]
  exact Codec.bytes_getD _ _ hi

theorem StoredRom.retable {image image' : List UInt8} {rom : List UInt8 × String}
    {row : List UInt8 × RomEntry}
    (h : StoredRom sha256 image rom row) (hlen : image'.length = image.length)
    (hdrop : ∀ o, 4096 ≤ o → image'.drop o = image.drop o) : StoredRom sha256 image' rom row := by
  refine { h with inside := ?_, stored := ?_ }
  · rw [hlen]
    exact h.inside
  · rw [hdrop _ h.low]
    exact h.stored

theorem pack_packed {paths : List RomFile} {displayNames : Option (List String)} {image : List UInt8}
    (h : pack sha256 paths displayNames = .ok image) :
    (displayed paths displayNames).length = paths.length ∧
      ∃ rows, Packed sha256 ((paths.map RomFile.data).zip (displayed paths displayNames)) image rows := by
  unfold pack at h
  split at h
  · cases h
  rename_i hcount
  rw [not_not] at hcount
  split at h
  · cases h
  rename_i hnames
  have hlen : (displayed paths displayNames).length = paths.length := by
    unfold displayed
    cases displayNames with
    | none => exact List.length_map _
    | some names => simpa using hnames
  refine ⟨hlen, ?_⟩
  generalize hroms : (paths.map RomFile.data).zip (displayed paths displayNames) = roms at h ⊢
  have hlength : roms.length = paths.length := by
    rw [← hroms, List.length_zip, List.length_map, hlen, Nat.min_self]
  dsimp only at h
  cases hloop : packRoms sha256 0 roms ⟨List.replicate 4096 0xFF, [], []⟩ with
  | error e =>
    rw [hloop] at h
    cases h
  | ok st =>
    rw [hloop] at h
    have hfirst : ImageShape (List.replicate 4096 0xFF) := by
      constructor
      · exact Nat.le_of_eq List.length_replicate.symm
      · rw [List.length_replicate]
      · rw [List.length_replicate]
        decide
    obtain ⟨rows, hrows⟩ := packRoms_rows roms 0 hfirst hloop
    have hmany : rows.length = paths.length := hrows.stored.length_eq.symm.trans hlength
    have hmax : MAX_ROMS = 16 := rfl
    have hentries : st.entries.length = rows.length := by
      rw [hrows.entries, List.nil_append, List.length_map]
    have himage : image = packedTable rows ++ st.image.drop (packedTable rows).length := by
      obtain rfl := Except.ok.inj h
      unfold packedTable
      rw [hentries, hrows.entries, List.nil_append]
    have htable := packedTable_length rows
    have hsector := hrows.shape.sector
    have hsame : image.length = st.image.length := by
      rw [himage, List.length_append, List.length_drop, htable]
      omega
    have hdrop : ∀ o, 4096 ≤ o → image.drop o = st.image.drop o := by
      intro o ho
      rw [himage, List.drop_append, List.drop_eq_nil_of_le (by omega), List.nil_append, List.drop_drop]
      congr 1
      omega
    refine ⟨rows, ⟨by omega, ⟨_, himage⟩, ?_, ?_, hrows.ordered, ?_⟩⟩
    · obtain ⟨h₁, h₂, h₃⟩ := hrows.shape
      rw [← hsame] at h₁ h₂ h₃
      exact ⟨h₁, h₂, h₃⟩
    · exact hrows.stored.imp fun _ _ hrow => hrow.retable hsame hdrop
    · have hnodup := hrows.nodup List.nodup_nil
      rw [hrows.names, List.nil_append] at hnodup
      exact hnodup

/-! ## What the firmware finds -/

section
variable {roms : List (List UInt8 × String)} {image : List UInt8} {rows : List (List UInt8 × RomEntry)}

theorem Packed.header (h : Packed sha256 roms image rows) :
    imageHeader image = ⟨legacyMagic, 1, UInt16.ofNat rows.length⟩ := by
  obtain ⟨rest, rfl⟩ := h.table
  exact packedTable_header rows rest

theorem Packed.container (h : Packed sha256 roms image rows) : Container image := by
  obtain ⟨hlow, hhigh⟩ := h.count
  have hcount : (UInt16.ofNat rows.length).toNat = rows.length := by
    rw [UInt16.toNat_ofNat', Nat.mod_eq_of_lt (by omega)]
  refine ⟨h.shape.sector, ?_, ?_, ?_, ?_⟩
  · rw [h.header]
  · rw [h.header]
  · rw [h.header]
    exact Nat.le_trans hlow (Nat.le_of_eq hcount.symm)
  · rw [h.header]
    exact Nat.le_trans (Nat.le_of_eq hcount) hhigh

theorem Packed.entries (h : Packed sha256 roms image rows) : imageEntries image = rows.map Prod.snd := by
  obtain ⟨rest, hrest⟩ := h.table
  rw [hrest]
  exact packedTable_entries rest h.count.2

/-- Whole banks after one sector end three sectors before the end of the partition at the latest. -/
theorem ImageShape.high (h : ImageShape image) : image.length + 8192 ≤ MAX_IMAGE := by
  obtain ⟨hsector, hbanks, hlimit⟩ := h
  have hmax : MAX_IMAGE = 256 * 16384 := rfl
  obtain ⟨banks, hlen⟩ : ∃ banks, image.length = 4096 + 16384 * banks :=
    ⟨(image.length - 4096) / 16384, by omega⟩
  omega

theorem Packed.row (h : Packed sha256 roms image rows) :
    ∀ row ∈ rows, ∃ rom ∈ roms, StoredRom sha256 image rom row := by
  intro row hrow
  obtain ⟨i, hi, rfl⟩ := List.mem_iff_getElem.mp hrow
  obtain ⟨hlen, hall⟩ := List.forall₂_iff_get.mp h.stored
  exact ⟨roms[i], List.getElem_mem _, hall i (by omega) hi⟩

theorem Packed.catalogOK (h : Packed sha256 roms image rows) {dataEnd : UInt32}
    (hend : image.length ≤ dataEnd.toNat) :
    CatalogOK dataEnd (rows.map Prod.snd) := by
  refine ⟨?_, ?_, ?_⟩
  · rw [List.length_map]
    exact h.count.2
  · intro e he
    obtain ⟨row, hrow, rfl⟩ := List.mem_map.mp he
    obtain ⟨rom, -, hstored⟩ := h.row row hrow
    refine entryValid_of_region ?_ ⟨hstored.aligned, hstored.low, ?_, ?_, Nat.le_trans hstored.inside hend⟩
    · rw [hstored.name]
      exact gbNameValid_padName hstored.encoded.valid
    · rw [hstored.size]
      exact hstored.min
    · rw [hstored.size]
      exact hstored.banks
  · rw [List.pairwise_map]
    have hnames := List.pairwise_map.mp h.distinct
    refine (h.ordered.and hnames).imp_of_mem fun {row row'} hrow hrow' hboth => ?_
    obtain ⟨hbefore, hne⟩ := hboth
    obtain ⟨rom, -, hstored⟩ := h.row row hrow
    obtain ⟨rom', -, hstored'⟩ := h.row row' hrow'
    have hcstr : ∀ {rom : List UInt8 × String} {row : List UInt8 × RomEntry},
        StoredRom sha256 image rom row →
        cstr row.2.name.toList = row.1 := by
      intro rom row hstored
      rw [hstored.name, cstr_padName (by rw [hstored.encoded.cstr_eq]; exact hstored.encoded.short),
        hstored.encoded.cstr_eq]
    refine ⟨sameName_false.mpr ?_, ?_⟩
    · rw [hcstr hstored, hcstr hstored']
      exact fun heq => hne heq.symm
    · -- the earlier ROM ends where the later one may start
      have hlt := hstored'.inside
      have hlt' := hstored.inside
      unfold RomEntry.stop at hbefore hlt hlt'
      have hbound := dataEnd.toNat_lt
      have hstop : (row.2.offset + row.2.size).toNat = row.2.offset.toNat + row.2.size.toNat := by
        rw [UInt32.toNat_add, Nat.mod_eq_of_lt (by omega)]
      unfold overlaps
      rw [Bool.and_eq_false_iff]
      refine .inl (decide_eq_false ?_)
      rw [UInt32.lt_iff_toNat_lt, hstop]
      omega

end

/-! ## The firmware delivers what was packed -/

/-- The bytes of a packed ROM on the partition. -/
theorem StoredRom.romBytes {image : List UInt8} {rom : List UInt8 × String} {row : List UInt8 × RomEntry}
    (h : StoredRom sha256 image rom row) : romBytes (burned image) row.2 = rom.1 := by
  have hinside := h.inside
  have hsize := h.size
  unfold RomEntry.stop at hinside
  unfold FoloGameboy.romBytes
  refine List.ext_getElem ?_ fun i h₁ h₂ => ?_
  · rw [List.length_map, List.length_range, hsize]
  · have hstored := congrArg (fun l => l.getD i 0) h.stored
    rw [List.getElem_map, List.getElem_range,
      burned_get (by omega), ← List.getD_eq_getElem _ 0 h₂, ← hstored]
    rw [List.getD_eq_getElem?_getD, List.getD_eq_getElem?_getD, List.getElem?_take, if_pos h₂,
      List.getElem?_drop]

theorem map_eq_of_forall₂ {α β γ : Type} {R : α → β → Prop} {g : β → γ} {k : α → γ}
    (hR : ∀ a b, R a b → g b = k a) {l : List α}
    {l' : List β} (h : List.Forall₂ R l l') : l'.map g = l.map k := by
  induction h with
  | nil => rfl
  | cons hab _ ih => rw [List.map_cons, List.map_cons, hR _ _ hab, ih]

/-- Every image `pack` returns, at the start of an otherwise erased 4 MiB partition: it ends at least
two sectors before the end; `gb_storage_init` succeeds with a trusted catalog of exactly the given
names, sizes and digests, in order; and every row opens and delivers its file. -/
theorem packed_image_loads (P : Partition) (hsize : P.size = 0x400000)
    (paths : List RomFile) (displayNames : Option (List String))
    (image : List UInt8) (hpack : pack P.sha256 paths displayNames = .ok image) :
    image.length + 8192 ≤ 0x400000 ∧ ∃ s, Loads P (burned image) s ∧ s.catalogTrusted = true ∧
      s.entries.map (fun e => cstr e.name.toList) = (displayed paths displayNames).map utf8Bytes ∧
      s.entries.map (fun e => e.size.toNat) = paths.map (fun path => path.data.length) ∧
      s.entries.map RomEntry.sha256 = paths.map (fun path => P.sha256 path.data) ∧
      ∀ index path, paths[index]? = some path → Delivers P (burned image) s index path.data := by
  obtain ⟨hlen, rows, hpacked⟩ := pack_packed hpack
  generalize hroms : (paths.map RomFile.data).zip (displayed paths displayNames) = roms at hpacked
  have hdata : roms.map Prod.fst = paths.map RomFile.data := by
    rw [← hroms, List.map_fst_zip (by rw [List.length_map, hlen])]
  have hnames : roms.map Prod.snd = displayed paths displayNames := by
    rw [← hroms, List.map_snd_zip (by rw [List.length_map, hlen])]
  have hhigh := hpacked.shape.high
  -- the packer leaves the last two sectors, where the directory slots are
  have hend : (dataEnd P).toNat = 0x3FE000 := by
    unfold dataEnd
    rw [hsize]
    rfl
  have hmax : MAX_IMAGE = 0x400000 := rfl
  have hfits : image.length ≤ (dataEnd P).toNat := by omega
  have hok := hpacked.catalogOK hfits
  have hr : slotReadable P 0 ∧ slotReadable P 1 := by
    unfold slotReadable slotOffset dataEnd
    rw [hsize]
    decide
  -- both slots are erased, so the catalog of the image is what is loaded
  have hreload :
      reload P (burned image) =
      some { partition := true, entries := rows.map Prod.snd, catalogTrusted := true } := by
    rw [reload_image hr hfits, legacyCatalog_image hpacked.container, hpacked.entries,
      if_pos ((entriesValid_iff _ _).mpr hok)]
  -- each column of the catalog is that of the files
  have hmap : ∀ {γ : Type} {g : RomEntry → γ} {k : List UInt8 × String → γ},
      (∀ rom row, StoredRom P.sha256 image rom row → g row.2 = k rom) → (rows.map Prod.snd).map g =
        roms.map k := by
    intro γ g k hgk
    rw [List.map_map]
    exact map_eq_of_forall₂ hgk hpacked.stored
  have hfiles : ∀ {γ : Type} (k : List UInt8 → γ), paths.map (fun path => k path.data) =
      roms.map fun rom => k rom.1 := by
    intro γ k
    have h := congrArg (List.map k) hdata
    rw [List.map_map, List.map_map] at h
    exact h.symm
  refine ⟨by omega, _, loads_iff.mpr hreload, rfl, ?_, ?_, ?_, ?_⟩
  · have hutf8 : (displayed paths displayNames).map utf8Bytes = roms.map fun rom => utf8Bytes rom.2 := by
      rw [← hnames, List.map_map]
      rfl
    rw [hutf8]
    refine hmap fun rom row hrow => ?_
    have hencoded := hrow.encoded
    rw [hrow.name, cstr_padName (by rw [hencoded.cstr_eq]; exact hencoded.short), hencoded.cstr_eq,
      hencoded.bytes]
  · rw [hfiles List.length]
    exact hmap fun rom row hrow => hrow.size
  · rw [hfiles P.sha256]
    exact hmap fun rom row hrow => hrow.digest
  · intro index path hpath
    obtain ⟨hlength, hall⟩ := List.forall₂_iff_get.mp hpacked.stored
    have hrom : (roms.map Prod.fst)[index]? = some path.data := by
      rw [hdata, List.getElem?_map, hpath]
      rfl
    rw [List.getElem?_map, Option.map_eq_some_iff] at hrom
    obtain ⟨rom, hrom, hpathdata⟩ := hrom
    obtain ⟨hlt, rfl⟩ := List.getElem?_eq_some_iff.mp hrom
    have hstored := hall index hlt (by omega)
    refine delivers_row (e := (rows.get ⟨index, by omega⟩).2) rfl ?_ ?_
      (hstored.romBytes.trans hpathdata) ?_
    · intro e he
      have hstop := (hok.region e he).high
      rw [hsize]
      exact Nat.le_trans hstop (Nat.le_trans (Nat.le_of_eq hend) (by decide))
    · rw [List.getElem?_map, List.getElem?_eq_getElem (by omega)]
      rfl
    · rw [← hpathdata]
      exact hstored.digest.symm

theorem packed_image_loads_one :
    ∃ image s, pack (fun _ => .replicate 32 0) [⟨"A", List.replicate 32768 0⟩] none = .ok image ∧
    Loads ⟨0x400000, fun _ => .replicate 32 0⟩ (burned image) s ∧
      s.entries.map (fun e => cstr e.name.toList) = [[0x41]] := by
  have hget : ∀ i < 32768, (List.replicate 32768 (0 : UInt8)).getD i 0 = 0 :=
    fun i hi => List.getD_replicate _ hi
  have hrom : ∃ st, packRom (fun _ => .replicate 32 0) 0 (List.replicate 32768 0) "A"
      ⟨List.replicate 4096 0xFF, [], []⟩ = .ok st := by
    unfold packRom
    rw [List.length_replicate, hget _ (by decide), hget _ (by decide), hget _ (by decide),
      if_neg (by decide), if_neg (by decide)]
    rw [show encodeName "A" = .ok [0x41] from rfl]
    simp only [bind, Except.bind]
    rw [if_neg (by decide), List.length_replicate, if_neg (by decide)]
    exact ⟨_, rfl⟩
  obtain ⟨st, hst⟩ := hrom
  have hpack : ∃ image, pack (fun _ => .replicate 32 0) [⟨"A", List.replicate 32768 0⟩] none =
      .ok image := by
    unfold pack
    simp only [displayed, Option.getD_none, List.map_cons, List.map_nil, List.zip_cons_cons,
      List.zip_nil_left, packRoms, hst]
    exact ⟨_, rfl⟩
  obtain ⟨image, hpack⟩ := hpack
  obtain ⟨-, s, hloads, -, hnames, -⟩ :=
    packed_image_loads ⟨0x400000, fun _ => .replicate 32 0⟩ rfl _ _ image hpack
  exact ⟨image, s, hpack, hloads, hnames⟩

end FoloGameboy

/-
The catalog in RAM: every reachable one is well formed, a call that fails leaves it and every ROM as
they were, and what upload, delete and rename build passes the check of `publish_directory`.
-/
import FoloGameboy.Storage.Durable

namespace FoloGameboy

open Effect

variable {P : Partition} {torn : Flash → Flash → Flash → Prop} {s : Catalog} {f f' : Flash} {entries : List RomEntry}
  {out : Option (Bool × Catalog)}

/-! ## Names in their fields -/

theorem cstr_ne_zero (m : List UInt8) : ∀ b ∈ cstr m, b ≠ 0 := by
  intro b hb
  have hall : (cstr m).all (· ≠ 0) = true := List.all_takeWhile
  exact of_decide_eq_true (List.all_eq_true.mp hall b hb)

theorem cstr_append_zero {m : List UInt8} (hm : ∀ b ∈ m, b ≠ 0) (rest : List UInt8) :
    cstr (m ++ 0 :: rest) = m := by
  induction m with
  | nil => rfl
  | cons b m ih =>
    have hb : b ≠ 0 := hm b List.mem_cons_self
    show List.takeWhile _ (b :: (m ++ 0 :: rest)) = _
    rw [List.takeWhile_cons_of_pos (by simpa using hb)]
    exact congrArg (List.cons b) (ih fun c hc => hm c (List.mem_cons_of_mem b hc))

/-- A name that ends within a prefix ends there. -/
theorem cstr_take {m : List UInt8} {n : Nat} (h : (cstr (m.take n)).length < n) :
    cstr (m.take n) = cstr m := by
  induction n generalizing m with
  | zero => exact absurd h (Nat.not_lt_zero _)
  | succ n ih =>
    cases m with
    | nil => rfl
    | cons b m =>
      unfold cstr at h ih ⊢
      rw [List.take_succ_cons] at h ⊢
      by_cases hb : b = 0
      · rw [List.takeWhile_cons_of_neg (by simpa using hb), List.takeWhile_cons_of_neg (by simpa using hb)]
      · rw [List.takeWhile_cons_of_pos (by simpa using hb)] at h ⊢
        rw [List.takeWhile_cons_of_pos (by simpa using hb), ih (by simpa using h)]

/-- The field holds the name and zeros. -/
theorem padName_toList {name : List UInt8} (h : (cstr name).length < 32) :
    ∃ rest, (padName name).toList = cstr name ++ 0 :: rest := by
  refine ⟨List.replicate (31 - (cstr name).length) 0, ?_⟩
  have hlen : (0 :: List.replicate (31 - (cstr name).length) (0 : UInt8)) =
      List.replicate (32 - (cstr name).length) 0 := by
    rw [← List.replicate_succ]
    congr 1
    omega
  have hfield : (padName name).toList = List.ofFn fun i : Fin 32 => (cstr name).getD i 0 := by
    unfold padName
    exact Vector.toList_ofFn
  rw [hlen, hfield]
  refine List.ext_getElem ?_ ?_
  · rw [List.length_ofFn, List.length_append, List.length_replicate]
    omega
  · intro i h₁ h₂
    rw [List.getElem_ofFn, List.getElem_append]
    split
    · rename_i hi
      exact List.getD_eq_getElem _ _ hi
    · rename_i hi
      rw [List.getElem_replicate]
      exact List.getD_eq_default _ _ (Nat.le_of_not_lt hi)

theorem cstr_padName {name : List UInt8} (h : (cstr name).length < 32) :
    cstr (padName name).toList = cstr name := by
  obtain ⟨rest, hrest⟩ := padName_toList h
  rw [hrest]
  exact cstr_append_zero (cstr_ne_zero name) rest

theorem gbNameValid_length {name : List UInt8} (h : gbNameValid name = true) :
    (cstr name).length < 32 ∧ cstr (name.take 32) = cstr name := by
  unfold gbNameValid at h
  dsimp only at h
  split at h
  · cases h
  · rename_i hlen
    rw [not_or, Nat.not_le] at hlen
    have heq := cstr_take hlen.2
    exact ⟨heq ▸ hlen.2, heq⟩

/-- A valid name is valid in its field. -/
theorem gbNameValid_padName {name : List UInt8} (h : gbNameValid name = true) :
    gbNameValid (padName name).toList = true := by
  obtain ⟨hlen, htake⟩ := gbNameValid_length h
  unfold gbNameValid at h ⊢
  have hfield : (padName name).toList.take 32 = (padName name).toList := List.take_of_length_le (by simp)
  rw [hfield, cstr_padName hlen]
  rw [htake] at h
  exact h

/-! ## Well-formed catalogs -/

theorem Apart.symm {e e' : RomEntry} (h : Apart e e') : Apart e' e := by
  obtain ⟨hname, hregion⟩ := h
  constructor
  · unfold sameName at *
    rw [decide_eq_false_iff_not] at *
    exact fun heq => hname heq.symm
  · unfold overlaps at *
    rw [Bool.and_comm]
    exact hregion

theorem sameName_false {e e' : RomEntry} :
    sameName e e' = false ↔ cstr e.name.toList ≠ cstr e'.name.toList := by
  unfold sameName
  rw [decide_eq_false_iff_not]

/-- The checks of one entry, from a valid name and a good region. -/
theorem entryValid_of_region {dataEnd : UInt32} {e : RomEntry} (hname : gbNameValid e.name.toList = true)
    (h : RegionOK dataEnd e) : entryValid dataEnd e = true := by
  have hhigh := h.high
  unfold RomEntry.stop at hhigh
  have hoff : e.offset ≤ dataEnd := UInt32.le_iff_toNat_le.mpr (by omega)
  unfold entryValid validRange
  simp only [Bool.and_eq_true, decide_eq_true_eq]
  refine ⟨⟨⟨⟨⟨hname, ?_⟩, ?_⟩, ?_⟩, ?_⟩, hoff, ?_⟩
  · exact UInt32.toNat_inj.mp ((UInt32.toNat_mod _ _).trans h.aligned)
  · exact UInt32.le_iff_toNat_le.mpr h.low
  · exact UInt32.le_iff_toNat_le.mpr h.min
  · exact UInt32.toNat_inj.mp ((UInt32.toNat_mod _ _).trans h.banks)
  · rw [UInt32.le_iff_toNat_le, UInt32.toNat_sub_of_le _ _ hoff]
    omega

theorem entryValid_name {dataEnd : UInt32} {e : RomEntry} (h : entryValid dataEnd e = true) :
    gbNameValid e.name.toList = true := by
  unfold entryValid at h
  simp only [Bool.and_eq_true] at h
  exact h.1.1.1.1.1

theorem CatalogOK.nil (dataEnd : UInt32) : CatalogOK dataEnd [] := ⟨Nat.zero_le _, by simp, .nil⟩

theorem CatalogOK.eraseIdx {dataEnd : UInt32} (h : CatalogOK dataEnd entries) (index : Nat) :
    CatalogOK dataEnd (entries.eraseIdx index) :=
  ⟨Nat.le_trans (List.length_eraseIdx_le ..) h.count, fun e he => h.entry e (List.mem_of_mem_eraseIdx he),
    h.apart.sublist (List.eraseIdx_sublist ..)⟩

/-- `valid_name`, in words: a valid name no other row has. -/
theorem validName_iff {name : List UInt8} {except : Option Nat} : validName name except entries = true ↔
    gbNameValid name = true ∧ ∀ i (h : i < entries.length), some i ≠ except →
      cstr name ≠ cstr entries[i].name.toList := by
  unfold validName
  rw [Bool.and_eq_true, List.all_eq_true]
  refine and_congr_right fun _ => ?_
  constructor
  · intro hall i hi hne
    have hmem : (entries[i], i) ∈ entries.zipIdx :=
      List.mem_zipIdx_iff_getElem?.mpr (List.getElem?_eq_getElem hi)
    have h := hall _ hmem
    simp only [Bool.or_eq_true, beq_iff_eq, bne_iff_ne] at h
    exact h.resolve_left hne
  · rintro hall ⟨e, i⟩ hmem
    have hget : entries[i]? = some e := List.mem_zipIdx_iff_getElem?.mp hmem
    obtain ⟨hi, rfl⟩ := List.getElem?_eq_some_iff.mp hget
    simp only [Bool.or_eq_true, beq_iff_eq, bne_iff_ne]
    by_cases hne : some i = except
    · exact .inl hne
    · exact .inr (hall i hi hne)

theorem renamedEntry_name (name : List UInt8) (e : RomEntry) :
    (renamedEntry name e).name = padName name := by
  unfold renamedEntry
  rfl

theorem renamedEntry_offset (name : List UInt8) (e : RomEntry) :
    (renamedEntry name e).offset = e.offset := by
  unfold renamedEntry
  rfl

theorem renamedEntry_size (name : List UInt8) (e : RomEntry) : (renamedEntry name e).size = e.size := by
  unfold renamedEntry
  rfl

theorem renamedEntry_region {dataEnd : UInt32} {name : List UInt8} {e : RomEntry} (h : RegionOK dataEnd e) :
    RegionOK dataEnd (renamedEntry name e) := by
  constructor
  · rw [renamedEntry_offset]
    exact h.aligned
  · rw [renamedEntry_offset]
    exact h.low
  · rw [renamedEntry_size]
    exact h.min
  · rw [renamedEntry_size]
    exact h.banks
  · rw [renamedEntry_stop]
    exact h.high

theorem renamedEntry_apart {name : List UInt8} {e e' : RomEntry} (hname : (cstr name).length < 32)
    (hne : cstr name ≠ cstr e'.name.toList) (h : Apart e e') : Apart (renamedEntry name e) e' := by
  constructor
  · rw [sameName_false, renamedEntry_name, cstr_padName hname]
    exact fun heq => hne heq.symm
  · have hregion := h.region
    unfold overlaps at hregion ⊢
    rw [renamedEntry_offset, renamedEntry_size]
    exact hregion

/-- Renaming keeps a catalog well formed. -/
theorem CatalogOK.rename {dataEnd : UInt32} (h : CatalogOK dataEnd entries) {name : List UInt8}
    {index : Nat} {e : RomEntry}
    (hname : validName name (some index) entries = true) (he : entries[index]? = some e) :
    CatalogOK dataEnd (entries.set index (renamedEntry name e)) := by
  obtain ⟨hvalid, hother⟩ := validName_iff.mp hname
  obtain ⟨hlt, rfl⟩ := List.getElem?_eq_some_iff.mp he
  obtain ⟨hlen, -⟩ := gbNameValid_length hvalid
  refine ⟨?_, ?_, ?_⟩
  · rw [List.length_set]
    exact h.count
  · intro e' he'
    rcases List.mem_or_eq_of_mem_set he' with hmem | rfl
    · exact h.entry e' hmem
    · refine entryValid_of_region ?_
        (renamedEntry_region (entryValid_region (h.entry _ (List.getElem_mem hlt))))
      rw [renamedEntry_name]
      exact gbNameValid_padName hvalid
  · rw [List.pairwise_iff_getElem]
    intro i j hi hj hij
    rw [List.length_set] at hi hj
    have hapart := List.pairwise_iff_getElem.mp h.apart i j hi hj hij
    rw [List.getElem_set, List.getElem_set]
    by_cases hleft : index = i
    · subst hleft
      rw [if_pos rfl, if_neg (Nat.ne_of_lt hij)]
      exact renamedEntry_apart hlen (hother j hj fun heq => Nat.ne_of_gt hij (Option.some.inj heq)) hapart
    · rw [if_neg hleft]
      by_cases hright : index = j
      · subst hright
        rw [if_pos rfl]
        exact (renamedEntry_apart hlen (hother i hi fun heq => hleft (Option.some.inj heq).symm)
          hapart.symm).symm
      · rw [if_neg hright]
        exact hapart

theorem GapFound.entryValid {bytes : Nat} {data name : List UInt8}
    (hgap : GapFound P entries bytes (findGap P (UInt32.ofNat bytes) entries))
    (hmin : 32768 ≤ bytes) (hbanks : bytes % ROM_BANK_BYTES = 0) (hname : gbNameValid name = true) :
    entryValid (dataEnd P) (uploadedEntry P name bytes data entries) = true := by
  have hlt := (dataEnd P).toNat_lt
  have hhigh := hgap.high
  have hbytes : (UInt32.ofNat bytes).toNat = bytes := by
    rw [UInt32.toNat_ofNat', Nat.mod_eq_of_lt (by omega)]
  refine entryValid_of_region (gbNameValid_padName hname) ⟨hgap.aligned, hgap.low, ?_, ?_, ?_⟩
  · exact hbytes.symm ▸ hmin
  · exact hbytes.symm ▸ hbanks
  · show _ + (UInt32.ofNat bytes).toNat ≤ _
    rw [hbytes]
    exact hhigh

/-- Appending an uploaded ROM keeps a catalog well formed. -/
theorem CatalogOK.upload (h : CatalogOK (dataEnd P) entries) {name data : List UInt8} {bytes : Nat}
    (hroom : entries.length < GB_STORAGE_MAX_ROMS) (hname : validName name none entries = true)
    (hmin : 32768 ≤ bytes)
    (hbanks : bytes % ROM_BANK_BYTES = 0)
    (hgap : GapFound P entries bytes (findGap P (UInt32.ofNat bytes) entries)) :
    CatalogOK (dataEnd P) (entries ++ [uploadedEntry P name bytes data entries]) := by
  obtain ⟨hvalid, hother⟩ := validName_iff.mp hname
  have hnew : FoloGameboy.entryValid (dataEnd P) (uploadedEntry P name bytes data entries) = true :=
    hgap.entryValid hmin hbanks hvalid
  refine ⟨?_, ?_, ?_⟩
  · rw [List.length_append]
    exact hroom
  · intro e he
    rcases List.mem_append.mp he with he | he
    · exact h.entry e he
    · exact List.mem_singleton.mp he ▸ hnew
  -- the new row is apart from the others: its name is new and its region was free
  · rw [List.pairwise_append]
    refine ⟨h.apart, List.pairwise_singleton _ _, ?_⟩
    intro e he e' he'
    obtain rfl := List.mem_singleton.mp he'
    obtain ⟨i, hi, rfl⟩ := List.mem_iff_getElem.mp he
    have hregion := entryValid_region (h.entry _ (List.getElem_mem hi))
    have hnewRegion := entryValid_region hnew
    constructor
    · rw [sameName_false]
      show cstr (padName name).toList ≠ _
      rw [cstr_padName (gbNameValid_length hvalid).1]
      exact hother i hi (by simp)
    · have hfree := hgap.free _ (List.getElem_mem hi)
      have hstop : (uploadedEntry P name bytes data entries).stop =
          (findGap P (UInt32.ofNat bytes) entries).toNat + bytes := by
        have hlt := (dataEnd P).toNat_lt
        have hhigh := hgap.high
        show _ + (UInt32.ofNat bytes).toNat = _
        rw [UInt32.toNat_ofNat', Nat.mod_eq_of_lt (by omega)]
        rfl
      unfold overlaps
      rw [Bool.and_eq_false_iff, decide_eq_false_iff_not, decide_eq_false_iff_not, UInt32.lt_iff_toNat_lt,
        UInt32.lt_iff_toNat_lt, hregion.toNat_stop, hnewRegion.toNat_stop, hstop]
      show ¬ (findGap P (UInt32.ofNat bytes) entries).toNat < _ ∨ _
      omega

/-! ## The catalogs calls build -/

/-- The catalog a call publishes. -/
inductive Built (P : Partition) (s : Catalog) : StorageCall → List RomEntry → Prop where
  | upload {name : List UInt8} {bytes : Nat} {reader : Reader} {data : List UInt8} (hok : UploadOK P s name bytes)
      (hdata : received reader bytes 0 [] = some data) (hheader : HeaderOK bytes data) :
      Built P s (.upload name bytes reader) (s.entries ++ [uploadedEntry P name bytes data s.entries])
  | delete {index : Nat} (hpart : s.partition = true) (hreload : s.needsReload = false)
      (hindex : index < s.entries.length) :
      Built P s (.delete index) (s.entries.eraseIdx index)
  | rename {index : Nat} {name : List UInt8} {e : RomEntry} (hpart : s.partition = true)
      (hreload : s.needsReload = false)
      (hname : validName name (some index) s.entries = true) (he : s.entries[index]? = some e) :
      Built P s (.rename index name) (s.entries.set index (renamedEntry name e))

theorem UploadOK.found {name : List UInt8} {bytes : Nat} (hok : UploadOK P s name bytes)
    (h : CatalogOK (dataEnd P) s.entries) :
    GapFound P s.entries bytes (findGap P (UInt32.ofNat bytes) s.entries) :=
  findGap_found h.region rfl (Nat.lt_of_lt_of_le (by decide) hok.min) hok.available

theorem Built.catalogOK {c : StorageCall} (hb : Built P s c entries) (h : CatalogOK (dataEnd P) s.entries) :
    CatalogOK (dataEnd P) entries := by
  cases hb with
  | upload hok hdata hheader => exact h.upload hok.room hok.name hok.min hok.banks (hok.found h)
  | delete hpart hreload hindex => exact h.eraseIdx _
  | rename hpart hreload hname he => exact h.rename hname he

/-! ## The invariant -/

/-- The catalog in RAM is well formed, and calls are accepted only with the slots in place. -/
structure RamOK (P : Partition) (s : Catalog) : Prop where
  catalog : CatalogOK (dataEnd P) s.entries
  slots : s.partition = true → s.needsReload = false → slotReadable P 0 ∧ slotReadable P 1

theorem ramOK_boot (P : Partition) : RamOK P {} := ⟨.nil _, fun h => by cases h⟩

/-- What publishing leaves in RAM when it returns. -/
structure PublishEnd (entries : List RomEntry) (s : Catalog) (out : Option (Bool × Catalog)) : Prop where
  confirmed : ∀ s', out = some (true, s') → s' = committed entries s
  failed : ∀ s', out = some (false, s') → s'.entries = s.entries ∧ (s' = s ∨ s'.needsReload = true)

theorem Published.end (h : Published P torn entries s f out f') : PublishEnd entries s out := by
  cases h with
  | cut => exact ⟨by simp, by simp⟩
  | unprepared => exact ⟨by simp, by rintro s' h; cases h; exact ⟨rfl, .inl rfl⟩⟩
  | eraseFailed h => exact ⟨by simp, by rintro s' h; cases h; exact ⟨rfl, .inl rfl⟩⟩
  | eraseCut h => exact ⟨by simp, by simp⟩
  | writeFailed ha h => exact ⟨by simp, by rintro s' h; cases h; exact ⟨rfl, .inr rfl⟩⟩
  | writeCut ha h => exact ⟨by simp, by simp⟩
  | verifyCut ha => exact ⟨by simp, by simp⟩
  | unread ha => exact ⟨by simp, by rintro s' h; cases h; exact ⟨rfl, .inr rfl⟩⟩
  | unverified ha => exact ⟨by simp, by rintro s' h; cases h; exact ⟨rfl, .inr rfl⟩⟩
  | committed ha hv => exact ⟨by rintro s' h; cases h; rfl, by simp⟩

theorem RamOK.published (h : RamOK P s) {s₁ : Catalog} (hs : s₁.entries = s.entries)
    (hpart : s.partition = true)
    (hreload : s.needsReload = false) (hentries : CatalogOK (dataEnd P) entries)
    (hp : PublishEnd entries s₁ out) : RamOK P (afterwards out) := by
  cases out with
  | none => exact ramOK_boot P
  | some r =>
    obtain ⟨ok, s'⟩ := r
    cases ok with
    | true =>
      obtain rfl := hp.confirmed s' rfl
      exact ⟨hentries, fun _ _ => h.slots hpart hreload⟩
    | false =>
      obtain ⟨he, hs'⟩ := hp.failed s' rfl
      refine ⟨?_, fun _ _ => h.slots hpart hreload⟩
      show CatalogOK _ s'.entries
      rw [he, hs]
      exact h.catalog

/-- How a call can end: with what it found, loaded, or having published a catalog it built. -/
inductive CallEnd (P : Partition) (torn : Flash → Flash → Flash → Prop) (c : StorageCall) (s : Catalog) (f : Flash)
    (out : Option (Bool × Catalog)) (f' : Flash) : Prop where
  | kept (hs : ∀ ok s', out = some (ok, s') → s' = s ∨ s' = unmapSelected s)
      (hroms : romsOf f' s.entries = romsOf f s.entries)
  | loaded {r : Bool × Catalog} (hc : c = .init) (hout : out = some r)
      (h : InitResult P (fun _ _ _ => True) f r) (hf : f' = f)
  | published {entries : List RomEntry} {f₁ : Flash} (hb : Built P s c entries) (hpart : s.partition = true)
      (hreload : s.needsReload = false) (hroms : romsOf f₁ s.entries = romsOf f s.entries)
      (h : Published P torn entries (unmapSelected s) f₁ out f')

theorem CallEnd.refused {c : StorageCall} {ok : Bool} : CallEnd P torn c s f (some (ok, s)) f :=
  .kept (by rintro ok' s' h; cases h; exact .inl rfl) rfl

theorem changed_end {c : StorageCall} {same : Prop} {target : List RomEntry → Prop}
    (hb : ∀ entries, s.partition = true → s.needsReload = false → target entries → Built P s c entries)
    (hc : Changed P torn same target s f out f') : CallEnd P torn c s f out f' := by
  cases hc with
  | refused => exact .refused
  | same h => exact .refused
  | published hpart hreload hto h => exact .published (hb _ hpart hreload hto) hpart hreload rfl h

theorem upload_end (h : RamOK P s) {name : List UInt8} {bytes : Nat} {reader : Reader}
    (hc : Uploaded P torn name bytes reader s f out f') :
    CallEnd P torn (.upload name bytes reader) s f out f' := by
  have hroms : ∀ {g : Flash}, UploadOK P s name bytes →
      SameOutside (findGap P (UInt32.ofNat bytes) s.entries).toNat bytes f g →
        romsOf g s.entries = romsOf f s.entries :=
    fun hok hout => sameOutside_roms (hok.found h.catalog) hout
  cases hc with
  | refused => exact .refused
  | stopped hok hout => exact .kept (by rintro ok s' hs; cases hs; exact .inr rfl) (hroms hok hout)
  | cut hok hout => exact .kept (by rintro ok s' hs; cases hs) (hroms hok hout)
  | published hok hdata hlen hheader hw hp =>
    exact .published (.upload hok hdata hheader) hok.partition hok.noReload (hroms hok hw.outside) hp

/-- The cases of a call. -/
theorem call_end (h : RamOK P s) (c : StorageCall) (he : (c.run P s).Exec (flashDevice P torn) f out f') :
    CallEnd P torn c s f out f' := by
  cases c with
  | init =>
    have hpost := Prog.wp_exec (gbStorageInit_wp P torn s f) he
    cases out with
    | none => exact .kept (by rintro ok s' hs; cases hs) (hpost ▸ rfl)
    | some r => exact .loaded rfl rfl hpost.2 hpost.1
  | upload name bytes reader =>
    have hpost := Prog.wp_exec (gbStorageUpload_wp P torn name bytes reader s f) he
    cases out with
    | none => exact upload_end h hpost
    | some r => exact upload_end h hpost
  | delete index =>
    have hpost := Prog.wp_exec (gbStorageDelete_wp P torn index s f) he
    have hb : ∀ entries, s.partition = true → s.needsReload = false → Deleting index s entries →
        Built P s (.delete index) entries := by
      rintro entries hpart hreload ⟨hlt, rfl⟩
      exact .delete hpart hreload hlt
    cases out with
    | none => exact changed_end hb hpost
    | some r => exact changed_end hb hpost
  | rename index name =>
    have hpost := Prog.wp_exec (gbStorageRename_wp P torn index name s f) he
    have hb : ∀ entries, s.partition = true → s.needsReload = false → Renaming index name s entries →
        Built P s (.rename index name) entries := by
      rintro entries hpart hreload ⟨hname, e, he, rfl⟩
      exact .rename hpart hreload hname he
    cases out with
    | none => exact changed_end hb hpost
    | some r => exact changed_end hb hpost

/-- Every call keeps the invariant. -/
theorem call_ramOK (h : RamOK P s) (c : StorageCall) (he : (c.run P s).Exec (flashDevice P torn) f out f') :
    RamOK P (afterwards out) := by
  cases call_end h c he with
  | kept hs hroms =>
    cases out with
    | none => exact ramOK_boot P
    | some r =>
      rcases hs r.1 r.2 rfl with heq | heq
      · exact (congrArg (RamOK P) heq).mpr h
      · exact (congrArg (RamOK P) heq).mpr ⟨h.catalog, h.slots⟩
  | @loaded r hc hout hi hf =>
    subst hout
    obtain ⟨ok, s'⟩ := r
    cases ok with
    | true =>
      obtain ⟨hreadable, d₀, d₁, h₀, h₁, hload⟩ := hi.loaded rfl
      exact ⟨reloadWith_catalogOK h₀ h₁ hload, fun _ _ => hreadable⟩
    | false =>
      obtain ⟨hclosed, -, hempty⟩ := hi.closed rfl
      refine ⟨?_, fun _ hopen => ?_⟩
      · show CatalogOK _ s'.entries
        rw [show s'.entries = [] from hempty]
        exact .nil _
      · exact absurd (hclosed.symm.trans hopen) Bool.noConfusion
  | published hb hpart hreload hroms hp =>
    exact h.published (show (unmapSelected s).entries = s.entries from rfl) hpart hreload
      (hb.catalogOK h.catalog) hp.end

theorem storageRun_ramOK (h : RamOK P s) {s' : Catalog} (hrun : StorageRun P torn s f s' f') :
    RamOK P s' := by
  induction hrun with
  | start => exact h
  | call _ c he ih => exact call_ramOK ih c he

/-- A call other than a load that returns false leaves the catalog and the ROMs. -/
theorem call_failed (h : RamOK P s) {c : StorageCall} (hc : c ≠ .init) {s' : Catalog}
    (he : (c.run P s).Exec (flashDevice P torn) f (some (false, s')) f') :
    s'.entries = s.entries ∧ romsOf f' s.entries = romsOf f s.entries := by
  cases call_end h c he with
  | kept hs hroms =>
    refine ⟨?_, hroms⟩
    rcases hs false s' rfl with rfl | rfl
    · rfl
    · rfl
  | loaded hinit => exact absurd hinit hc
  | published hb hpart hreload hroms hp =>
    refine ⟨(hp.end.failed s' rfl).1, ?_⟩
    rw [hp.roms (h.slots hpart hreload).1 fun e he => (h.catalog.region e he).high, hroms]

/-! ## When every operation succeeds -/

/-- A well-formed catalog is published. -/
theorem publishDirectory_succeeds (s : Catalog) (h : CatalogOK (dataEnd P) entries) :
    (publishDirectory P entries s).wp (flashSucceeding P) (fun r _ => r =
      (true, committed entries s)) (fun _ => False) f := by
  unfold publishDirectory
  refine succeeding_perform fun _ => ?_
  dsimp only [success]
  rw [if_neg (not_not.mpr rfl)]
  refine succeeding_sha256 ?_
  unfold replaceDirectory
  refine succeeding_perform fun _ => ?_
  dsimp only [success]
  rw [if_neg (not_not.mpr rfl)]
  refine succeeding_perform fun _ => ?_
  dsimp only [success]
  rw [if_neg (not_not.mpr rfl), Prog.wp_bind]
  refine readDirectory_succeeds fun _ => ?_
  have hverify : slotDirectory P (writtenFlash P entries s f) (otherSlot s) =
      some (nextDirectory P entries s) := by
    unfold slotDirectory
    rw [writtenFlash_slot]
    exact checkDirectory_built h
  show Prog.wp _ _ _
    (if slotDirectory P (writtenFlash P entries s f) (otherSlot s) = some (nextDirectory P entries
    s) then _ else _) _
  rw [if_pos hverify]
  rfl

/-- On a partition of whole sectors every operation of a publication is accepted. -/
theorem publishDirectory_accepted {entries : List RomEntry} (hr : slotReadable P 0)
    (hsize : P.size.toNat % 4096 = 0) (s : Catalog) :
    (publishDirectory P entries s).Only (accepted P) := by
  obtain ⟨hend, h0, h1⟩ := slot_geometry hr
  -- the slots are the last two sectors
  have hslot : (slotOffset P (otherSlot s)).toNat % 4096 = 0 ∧
      (slotOffset P (otherSlot s)).toNat + 4096 ≤ P.size.toNat := by
    have hother := otherSlot_lt s
    obtain hs | hs : otherSlot s = 0 ∨ otherSlot s = 1 := by omega
    · rw [hs, h0]
      omega
    · rw [hs, h1]
      omega
  have hfits : (slotOffset P (otherSlot s)).toNat + directoryCodec.size ≤ P.size.toNat := by
    rw [directoryCodec_size]
    omega
  have hreplace : ∀ dir, (replaceDirectory P dir entries s).Only (accepted P) := by
    intro dir
    unfold replaceDirectory partitionErase partitionWrite
    refine Prog.only_bind (Prog.only_op ⟨hslot.1, rfl, hslot.2⟩) fun erased => ?_
    split
    · exact trivial
    refine Prog.only_bind (Prog.only_op ?_) fun written => ?_
    · show _ + (directoryCodec.bytes _).length ≤ _
      rw [Codec.length_bytes]
      exact hfits
    split
    · exact trivial
    refine Prog.only_bind (readDirectory_accepted hfits _) fun verify => ?_
    split
    split <;> exact trivial
  unfold publishDirectory allocate
  refine Prog.only_bind (Prog.only_op trivial) fun buffers => ?_
  split
  · exact trivial
  refine Prog.only_bind ⟨trivial, fun _ => trivial⟩ fun digest => ?_
  split
  · exact trivial
  · exact hreplace _

/-- And so there is an execution that succeeds. -/
theorem publishDirectory_exec (hr : slotReadable P 0) (hsize : P.size.toNat % 4096 = 0)
    (h : CatalogOK (dataEnd P) entries)
    (s : Catalog) (f : Flash) : (publishDirectory P entries s).Exec (flashSucceeding P) f
      (some (true, committed entries s)) (writtenFlash P entries s f) := by
  obtain ⟨r, f', he⟩ := Prog.Only.exec (flashSucceeding_done P) (@publishDirectory_accepted P entries hr hsize s) f
  obtain rfl : r = (true, committed entries s) := Prog.wp_exec (publishDirectory_succeeds s h) he
  have hp := Prog.wp_exec (publishDirectory_wp P anyTear entries s f) (he.refines (flashSucceeding_refines P anyTear))
  cases hp with
  | committed ha hv => exact he

theorem writeChunks_succeeds (reader : Reader) (offset bytes n : Nat) (data : List UInt8) {f : Flash} :
    (writeChunks reader offset bytes n data).wp (flashSucceeding P) (fun r _ => r =
      received reader bytes n data)
      (fun _ => False) f := by
  unfold writeChunks received
  by_cases hlt : data.length < bytes
  · rw [if_pos hlt, if_pos hlt]
    dsimp only
    generalize hwant : (if 1024 < bytes - data.length then 1024 else bytes - data.length) = want
    by_cases hbuf : (reader n want).length = 0 ∨ want < (reader n want).length
    · rw [dif_pos hbuf, dif_pos hbuf]
      rfl
    · rw [dif_neg hbuf, dif_neg hbuf]
      refine succeeding_perform fun _ => ?_
      dsimp only [success]
      rw [if_pos rfl]
      refine succeeding_perform fun _ => ?_
      dsimp only [success]
      rw [if_pos rfl]
      exact writeChunks_succeeds reader offset bytes (n + 1) (data ++ reader n want)
  · rw [if_neg hlt, if_neg hlt]
    rfl
termination_by bytes - data.length
decreasing_by
  rw [List.length_append]
  omega

theorem built_succeeds (h : RamOK P s) {c : StorageCall} (hb : Built P s c entries) (f : Flash) :
    (c.run P s).wp (flashSucceeding P) (fun r _ => r.1 = true) (fun _ => False) f := by
  have hpublish : ∀ {f : Flash},
      (publishDirectory P entries (unmapSelected s)).wp (flashSucceeding P) (fun r _ => r.1 = true)
      (fun _ => False) f := fun {f} =>
    Prog.wp_mono (fun _ _ hr => by rw [hr]) (fun _ hf => hf)
      (publishDirectory_succeeds (unmapSelected s) (hb.catalogOK h.catalog))
  cases hb with
  | @upload name bytes reader data hok hdata hheader =>
    show (gbStorageUpload P name bytes reader s).wp _ _ _ _
    -- the checks of the upload, as the source makes them
    have hchecks : ¬ (¬ s.partition ∨ s.needsReload ∨ ¬ validName name none s.entries ∨
        GB_STORAGE_MAX_ROMS ≤ s.entries.length ∨
        bytes < 32768 ∨ gbStorageLimit P s < bytes ∨ bytes % ROM_BANK_BYTES ≠ 0 ∨
          gbStorageAvailable P s < bytes) := by
      simp only [not_or, not_not, Nat.not_le, Nat.not_lt]
      refine ⟨hok.partition, ?_, hok.name, hok.room, hok.min, hok.limit, hok.banks, hok.available⟩
      rw [hok.noReload]
      exact Bool.false_ne_true
    unfold gbStorageUpload
    rw [if_neg hchecks]
    dsimp only
    rw [if_neg hok.gap]
    refine succeeding_perform fun _ => ?_
    dsimp only [success]
    rw [if_neg (not_not.mpr rfl)]
    refine succeeding_perform fun _ => ?_
    dsimp only [success]
    rw [if_pos rfl, Prog.wp_bind]
    refine Prog.wp_mono ?_ (fun _ hf => hf) (writeChunks_succeeds reader _ bytes 0 [])
    rintro r f' rfl
    rw [hdata]
    refine succeeding_finish ?_
    unfold addRom
    dsimp only
    obtain ⟨hmode, htype, hsize⟩ := hheader
    rw [if_neg (by rw [not_or, not_or, not_not, not_not]; exact ⟨hmode, htype, hsize⟩)]
    exact hpublish
  | @delete index hpart hreload hindex =>
    show (gbStorageDelete P index s).wp _ _ _ _
    unfold gbStorageDelete
    rw [if_neg (by rw [hpart, hreload]; simp; exact hindex)]
    exact hpublish
  | @rename index name e hpart hreload hname he =>
    show (gbStorageRename P index name s).wp _ _ _ _
    have hindex : index < s.entries.length := (List.getElem?_eq_some_iff.mp he).1
    unfold gbStorageRename
    rw [if_neg (by rw [hpart, hreload, hname]; simp; exact hindex), he]
    dsimp only
    split
    · rfl
    · exact hpublish

/-- What `entries_valid` asks of a catalog. -/
structure WellFormed (P : Partition) (entries : List RomEntry) : Prop where
  count : entries.length ≤ 16
  names : ∀ e ∈ entries, gbNameValid e.name.toList = true
  distinct : entries.Pairwise fun e e' => cstr e.name.toList ≠ cstr e'.name.toList
  aligned : ∀ e ∈ entries, e.offset.toNat % 4096 = 0 ∧ 4096 ≤ e.offset.toNat
  sizes : ∀ e ∈ entries, 32768 ≤ e.size.toNat ∧ e.size.toNat % 16384 = 0
  high : ∀ e ∈ entries, e.stop ≤ (dataEnd P).toNat
  disjoint : entries.Pairwise fun e e' => e.stop ≤ e'.offset.toNat ∨ e'.stop ≤ e.offset.toNat

theorem CatalogOK.wellFormed (h : CatalogOK (dataEnd P) entries) : WellFormed P entries where
  count := h.count
  names e he := entryValid_name (h.entry e he)
  distinct := by
    refine h.apart.imp ?_
    intro e e' ha hname
    exact sameName_false.mp ha.name hname.symm
  aligned e he := ⟨(h.region e he).aligned, (h.region e he).low⟩
  sizes e he := ⟨(h.region e he).min, (h.region e he).banks⟩
  high e he := (h.region e he).high
  disjoint := h.apart.imp_of_mem fun he he' ha => ha.disjoint (h.region _ he) (h.region _ he')

/-- In every run, with any arguments, readers, failures and power cuts: the catalog in RAM is well
formed; an upload, delete or rename that returns false leaves it and every byte of every catalogued
ROM as they were; and a catalog that such a call builds is published when every operation succeeds. -/
theorem catalog_invariant (P : Partition) (f₀ : Flash) (s : Catalog)
    (f : Flash) (hrun : StorageRun P anyTear {} f₀ s f) :
    WellFormed P s.entries ∧
      (∀ (c : StorageCall) s' f', c ≠ .init → (c.run P s).Exec (flashDevice P anyTear) f (some (false, s')) f' →
        s'.entries = s.entries ∧ ∀ e ∈ s.entries, romBytes f' e = romBytes f e) ∧
      ∀ (c : StorageCall) entries, Built P s c entries →
        (∀ g out g', (publishDirectory P entries (unmapSelected s)).Exec (flashSucceeding P) g out g' →
          out = some (true, committed entries (unmapSelected s))) ∧
        ∀ out f', (c.run P s).Exec (flashSucceeding P) f out f' → ∃ s', out = some (true, s') := by
  have hok := storageRun_ramOK (ramOK_boot P) hrun
  refine ⟨hok.catalog.wellFormed, ?_, ?_⟩
  · intro c s' f' hc he
    obtain ⟨hentries, hroms⟩ := call_failed hok hc he
    refine ⟨hentries, fun e hmem => ?_⟩
    obtain ⟨-, hbytes⟩ := Rom.mk.inj (List.map_inj_left.mp hroms e hmem)
    exact hbytes
  · intro c entries hb
    constructor
    · intro g out g' he
      have hpost := Prog.wp_exec (publishDirectory_succeeds (unmapSelected s) (hb.catalogOK hok.catalog)) he
      cases out with
      | none => exact hpost.elim
      | some r => exact congrArg some hpost
    · intro out f' he
      have hpost := Prog.wp_exec (built_succeeds hok hb f) he
      cases out with
      | none => exact hpost.elim
      | some r => exact ⟨r.2, congrArg some (Prod.ext hpost rfl)⟩

/-- A reader that fails after one byte. -/
def oneByte : Reader := fun n _ => if n = 0 then [0] else []

/-- What its upload leaves: the byte, in the region it erased. -/
def oneByteFlash : Flash := completed (.write 36864 [0]) (completed (.erase 36864 32768) oneGameFlash)

theorem oneByte_chunks : (writeChunks oneByte 36864 32768 0 []).Exec (flashDevice gamePartition anyTear)
    (completed (.erase 36864 32768) oneGameFlash) (some none) oneByteFlash := by
  have hstop : (writeChunks oneByte 36864 32768 1 [0]).Exec (flashDevice gamePartition anyTear) oneByteFlash (some none)
      oneByteFlash := by
    unfold writeChunks
    rw [if_pos (by decide)]
    dsimp only
    rw [dif_pos (by decide)]
    exact .pure _ _
  unfold writeChunks
  rw [if_pos (by decide)]
  dsimp only
  rw [dif_neg (by decide)]
  exact Prog.exec_perform (.inl ⟨by decide, rfl, rfl⟩) (Prog.exec_perform (.inl ⟨trivial, rfl, rfl⟩) hstop)

theorem oneByte_upload : ((StorageCall.upload [0x42] 32768 oneByte).run gamePartition oneGameCatalog).Exec
    (flashDevice gamePartition anyTear) oneGameFlash (some (false, unmapSelected oneGameCatalog)) oneByteFlash := by
  have hchecks : ¬ (¬ oneGameCatalog.partition ∨ oneGameCatalog.needsReload ∨
      ¬ validName [0x42] none oneGameCatalog.entries ∨ GB_STORAGE_MAX_ROMS ≤ oneGameCatalog.entries.length ∨
      32768 < 32768 ∨ gbStorageLimit gamePartition oneGameCatalog < 32768 ∨ 32768 % ROM_BANK_BYTES ≠ 0 ∨
      gbStorageAvailable gamePartition oneGameCatalog < 32768) := by decide +kernel
  have hgap : findGap gamePartition (UInt32.ofNat 32768) oneGameCatalog.entries = 36864 := by decide +kernel
  show (gbStorageUpload gamePartition [0x42] 32768 oneByte oneGameCatalog).Exec _ _ _ _
  unfold gbStorageUpload
  rw [if_neg hchecks, hgap]
  dsimp only
  have hoffset : (36864 : UInt32).toNat = 36864 := rfl
  rw [if_neg (by decide), hoffset]
  exact Prog.exec_perform (.inl ⟨by decide, rfl, rfl⟩) (Prog.exec_perform (.inl ⟨trivial, rfl, rfl⟩)
    (Prog.exec_bind oneByte_chunks (.pure _ _)))

theorem catalog_invariant_upload :
    oneByteFlash 36864 ≠ oneGameFlash 36864 ∧ WellFormed gamePartition [oneGame] ∧
      ((unmapSelected oneGameCatalog).entries = [oneGame] ∧ ∀ e ∈ [oneGame],
        romBytes oneByteFlash e = romBytes oneGameFlash e) ∧
      ∀ out f', ((StorageCall.delete 0).run gamePartition oneGameCatalog).Exec
        (flashSucceeding gamePartition) oneGameFlash out f' →
        ∃ s', out = some (true, s') := by
  obtain ⟨hformed, hfailed, hbuilt⟩ := catalog_invariant gamePartition oneGameFlash oneGameCatalog oneGameFlash
    (oneGame_run (flashSucceeding_refines _ _))
  exact ⟨by decide +kernel, hformed, hfailed _ _ _ (by simp) oneByte_upload,
    (hbuilt (.delete 0) [] (.delete rfl rfl (by decide))).2⟩

end FoloGameboy

/-
The catalog survives power cuts: after any history of loading, uploading, deleting and renaming with
any failures and cuts, one more interrupted call leaves exactly the catalog before it or exactly the
one after it, with every byte of every ROM.
-/
import FoloGameboy.Storage.Recovery
import FoloGameboy.Storage.Gap

namespace FoloGameboy

open Effect

variable {P : Partition} {s l : Catalog} {f f' : Flash} {entries : List RomEntry} {out : Option (Bool × Catalog)}

/-! ## ROMs -/

/-- A catalogued ROM with its bytes. -/
structure Rom where
  entry : RomEntry
  bytes : List UInt8

def romBytes (f : Flash) (e : RomEntry) : List UInt8 := (List.range e.size.toNat).map fun i => f (e.offset.toNat + i)

def romsOf (f : Flash) (entries : List RomEntry) : List Rom := entries.map fun e => ⟨e, romBytes f e⟩

/-- The ROMs the next `gb_storage_init` whose reads all succeed finds. -/
def recovered (P : Partition) (f : Flash) : Option (List Rom) := (reload P f).map fun l => romsOf f l.entries

theorem romsOf_entries (f : Flash) (entries : List RomEntry) :
    (romsOf f entries).map Rom.entry = entries := by
  unfold romsOf
  rw [List.map_map]
  exact List.map_id _

theorem romBytes_congr {e : RomEntry} (h : ∀ i, e.offset.toNat ≤ i → i < e.stop → f' i = f i) :
    romBytes f' e = romBytes f e := by
  refine List.map_congr_left fun i hi => h _ (Nat.le_add_right _ _) ?_
  have hlt := List.mem_range.mp hi
  unfold RomEntry.stop
  omega

theorem romsOf_congr (h : ∀ e ∈ entries, ∀ i, e.offset.toNat ≤ i → i < e.stop → f' i = f i) :
    romsOf f' entries = romsOf f entries :=
  List.map_congr_left fun e he => by rw [romBytes_congr (h e he)]

theorem romsOf_eraseIdx (f : Flash) (entries : List RomEntry) (index : Nat) :
    romsOf f (entries.eraseIdx index) = (romsOf f entries).eraseIdx index := by
  induction entries generalizing index with
  | nil => rfl
  | cons e es ih =>
    cases index with
    | zero => rfl
    | succ index => exact congrArg (List.cons _) (ih index)

/-! A renaming keeps the region of the entry. -/

theorem renamedEntry_stop (name : List UInt8) (e : RomEntry) : (renamedEntry name e).stop = e.stop := by
  unfold RomEntry.stop renamedEntry
  rfl

theorem romBytes_renamed (f : Flash) (name : List UInt8) (e : RomEntry) :
    romBytes f (renamedEntry name e) = romBytes f e := by
  unfold romBytes renamedEntry
  rfl

theorem romsOf_rename (f : Flash) {index : Nat} {e : RomEntry} (he : entries[index]? = some e)
    (name : List UInt8) :
    ((romsOf f entries)[index]?.map fun rom => (romsOf f entries).set index { rom with
      entry := renamedEntry name rom.entry }) =
      some (romsOf f (entries.set index (renamedEntry name e))) := by
  unfold romsOf
  rw [List.getElem?_map, he, List.map_set, romBytes_renamed]
  simp only [Option.map_some]

/-! ## Loaded catalogs are well formed -/

theorem directoryShaped_entries {d : Directory} (h : directoryShaped P d = true) :
    CatalogOK (dataEnd P) (d.entries.toList.take d.count.toNat) := by
  unfold directoryShaped at h
  rw [Bool.and_eq_true] at h
  have hvalid := h.2
  have hcount : d.count.toNat ≤ d.entries.toList.length := by
    rw [Vector.length_toList]
    by_contra hlt
    unfold entriesValid at hvalid
    rw [if_pos (Nat.lt_of_not_le hlt)] at hvalid
    cases hvalid
  rw [entriesValid_take hcount] at hvalid
  exact (entriesValid_iff _ _).mp hvalid

theorem checkDirectory_entries {d d' : Directory} (h : checkDirectory P d = some d') :
    CatalogOK (dataEnd P) (d'.entries.toList.take d'.count.toNat) := by
  obtain rfl := checkDirectory_some h
  unfold checkDirectory at h
  split at h
  · rename_i hc
    exact directoryShaped_entries (Bool.and_eq_true .. ▸ hc).1
  · cases h

/-- A directory built from a well-formed catalog passes its check. -/
theorem checkDirectory_built {g : UInt32} (h : CatalogOK (dataEnd P) entries) :
    checkDirectory P (newDirectory P g entries) = some (newDirectory P g entries) := by
  have hvalid :
      entriesValid (newDirectory P g entries).entries.toList (newDirectory P g entries).count.toNat
      (dataEnd P) = true := by
    have hle : (newDirectory P g entries).count.toNat ≤
        (newDirectory P g entries).entries.toList.length := by
      rw [newDirectory_count h.count, Vector.length_toList]
      exact h.count
    rw [entriesValid_take hle, newDirectory_entries h.count]
    exact (entriesValid_iff _ _).mpr h
  have hmagic : (newDirectory P g entries).magic = directoryMagic := rfl
  have hdigest : P.sha256 (hashedBytes (newDirectory P g entries).toDirectoryHead)
      = (newDirectory P g entries).digest := rfl
  unfold checkDirectory directoryShaped
  rw [hmagic, hvalid, hdigest]
  simp

/-- What the directories found in the slots load is well formed, whichever could be hashed. -/
theorem reloadWith_catalogOK {ok : Answers} {d₀ d₁ : Option Directory} (h₀ : SlotFound P ok f 0 d₀)
    (h₁ : SlotFound P ok f 1 d₁) (h : reloadWith P f d₀ d₁ = some l) : CatalogOK (dataEnd P) l.entries := by
  rcases reloadWith_cases h₀ h₁ h with ⟨slot, d, hd, hl⟩ | hl
  · rw [hl]
    exact checkDirectory_entries hd
  · rcases (legacyCatalog_some hl).2.2.2 with he | he
    · rw [he]
      exact ⟨Nat.zero_le _, by simp, .nil⟩
    · exact (entriesValid_iff _ _).mp he

theorem reload_catalogOK (h : reload P f = some l) : CatalogOK (dataEnd P) l.entries := by
  unfold reload at h
  split at h
  · cases h
  · exact @reloadWith_catalogOK _ _ _ (HashesNewest P) _ _ .checked .checked h

theorem CatalogOK.region {dataEnd : UInt32} (h : CatalogOK dataEnd entries) :
    ∀ e ∈ entries, RegionOK dataEnd e :=
  fun e he => entryValid_region (h.entry e he)

/-- A nonempty catalog leaves the slots well above the legacy table. -/
theorem CatalogOK.dataEnd_le {dataEnd : UInt32} (h : CatalogOK dataEnd entries)
    (hne : entries ≠ []) : 4096 ≤ dataEnd.toNat := by
  obtain ⟨e, he⟩ := List.exists_mem_of_ne_nil entries hne
  have hr := h.region e he
  have hlow := hr.low
  have hhigh := hr.high
  unfold RomEntry.stop at hhigh
  omega

/-! ## Calls -/

inductive StorageCall where
  | init
  | upload (name : List UInt8) (bytes : Nat) (reader : Reader)
  | delete (index : Nat)
  | rename (index : Nat) (name : List UInt8)

def StorageCall.run (P : Partition) : StorageCall → Catalog → StorageM (Bool × Catalog)
  | .init, s => gbStorageInit P s
  | .upload name bytes reader, s => gbStorageUpload P name bytes reader s
  | .delete index, s => gbStorageDelete P index s
  | .rename index name, s => gbStorageRename P index name s

/-- The static variables after a call: after a power cut they are zero. -/
def afterwards : Option (Bool × Catalog) → Catalog
  | some r => r.2
  | none => {}

/-- Any sequence of calls, each possibly cut, with what its device lets fail. -/
inductive CallRun (P : Partition) (D : StorageCall → Device FlashOp FlashRes Flash) :
    Catalog → Flash → Catalog → Flash → Prop where
  | start (s : Catalog) (f : Flash) : CallRun P D s f s f
  | call {s s' : Catalog} {f f' f'' : Flash} {out : Option (Bool × Catalog)}
      (h : CallRun P D s f s' f') (c : StorageCall)
      (he : (c.run P s').Exec (D c) f' out f'') : CallRun P D s f (afterwards out) f''

/-- With any failures and cuts. -/
abbrev StorageRun (P : Partition) (torn : Flash → Flash → Flash → Prop) : Catalog → Flash → Catalog → Flash → Prop :=
  CallRun P fun _ => flashDevice P torn

/-- The partition during a call, when each `gb_storage_init` can hash the newest directory. -/
def callDevice (P : Partition) (torn : Flash → Flash → Flash → Prop) : StorageCall → Device FlashOp FlashRes Flash
  | .init => initDevice P torn
  | _ => flashDevice P torn

/-- The catalog after a call that takes effect. -/
def StorageCall.effect (P : Partition) : StorageCall → List Rom → Option (List Rom)
  | .init, _ => none
  | .upload name bytes reader, roms =>
    (received reader bytes 0 []).map fun data => roms ++ [⟨uploadedEntry P name bytes data (roms.map Rom.entry), data⟩]
  | .delete index, roms => if index < roms.length then some (roms.eraseIdx index) else none
  | .rename index name, roms =>
      roms[index]?.map fun rom => roms.set index { rom with entry := renamedEntry name rom.entry }

/-! ## The invariant -/

/-- The Flash holds an acceptable catalog, and whenever the storage functions accept calls, the
catalog in RAM is that one. -/
structure Synced (P : Partition) (s : Catalog) (f : Flash) (l : Catalog) : Prop where
  loads : reload P f = some l
  inSync : s.partition = true → s.needsReload = false → InSync s l

theorem synced_boot (h : reload P f = some l) : Synced P {} f l := ⟨h, fun hp => by cases hp⟩

/-- What a call leaves: the Flash loads the catalog from before with its bytes, or its effect. -/
structure AtomicStep (P : Partition) (c : StorageCall) (l : Catalog)
    (f : Flash) (out : Option (Bool × Catalog)) (f' : Flash) :
    Prop where
  synced : ∃ l', Synced P (afterwards out) f' l'
  either : recovered P f' = some (romsOf f l.entries) ∨
    ∃ roms, c.effect P (romsOf f l.entries) = some roms ∧ recovered P f' = some roms

theorem AtomicStep.unchanged {c : StorageCall} (h : Synced P s f l)
    (hout : ∀ s', out = some (false, s') ∨ out = some (true, s') → s' = s) :
    AtomicStep P c l f out f := by
  refine ⟨⟨l, ?_⟩, .inl ?_⟩
  · cases out with
    | none => exact synced_boot h.loads
    | some r =>
      obtain ⟨ok, s'⟩ := r
      obtain rfl : s' = s := by
        cases ok with
        | false => exact hout s' (.inl rfl)
        | true => exact hout s' (.inr rfl)
      exact h
  · unfold recovered
    rw [h.loads]
    rfl

/-- Publishing leaves every ROM below the slots as it was. -/
theorem Published.roms {torn : Flash → Flash → Flash → Prop} {es : List RomEntry}
    (h : Published P torn entries s f out f')
    (hr : slotReadable P 0) (hes : ∀ e ∈ es, e.stop ≤ (dataEnd P).toNat) : romsOf f' es = romsOf f es := by
  have hslots := slot_geometry hr
  have hother := otherSlot_lt s
  refine romsOf_congr fun e he i _ hi => h.outside i ?_
  have hstop := hes e he
  unfold InRegion
  obtain hslot | hslot : otherSlot s = 0 ∨ otherSlot s = 1 := by omega
  · rw [hslot, hslots.2.1]
    omega
  · rw [hslot, hslots.2.2]
    omega

/-- Publishing keeps the Flash and the RAM in step, with the old catalog or the published one. -/
theorem published_synced (h : Synced P s f l) (hpart : s.partition = true) (hreload : s.needsReload = false)
    {f₁ : Flash} (hl₁ : reload P f₁ = some l) (hdata : 4096 ≤ (dataEnd P).toNat)
    (hlen : entries.length ≤ GB_STORAGE_MAX_ROMS)
    (hp : Published P (slotsTorn P) entries (unmapSelected s) f₁ out f') :
    PublishedState P entries (unmapSelected s) l out f' ∧
      ∃ l', Synced P (afterwards out) f' l' ∧ (l' = l ∨ l' = committed entries l) := by
  have hsync := h.inSync hpart hreload
  have hs : InSync (unmapSelected s) l := ⟨by rw [← hsync.eq]; rfl, hsync.loaded⟩
  have hst := hp.state hl₁ hs hdata hlen
  refine ⟨hst, ?_⟩
  have heither : ∃ l', reload P f' = some l' ∧ (l' = l ∨ l' = committed entries l) := by
    rcases hst.either with h | h
    · exact ⟨_, h, .inl rfl⟩
    · exact ⟨_, h, .inr rfl⟩
  obtain ⟨l', hl', hcases⟩ := heither
  cases out with
  | none => exact ⟨l', synced_boot hl', hcases⟩
  | some r =>
    obtain ⟨ok, s'⟩ := r
    cases ok with
    | true =>
      obtain ⟨rfl, hnew⟩ := hst.confirmed s' rfl
      exact ⟨_, ⟨hnew, fun _ _ => hs.committed entries⟩, .inr rfl⟩
    | false =>
      rcases (hst.failed s' rfl).2 with ⟨rfl, hold⟩ | hclosed
      · exact ⟨l, ⟨hold, fun _ _ => hs⟩, .inl rfl⟩
      · refine ⟨l', ⟨hl', fun _ hopen => ?_⟩, hcases⟩
        rw [show s'.needsReload = false from hopen] at hclosed
        cases hclosed

/-- Publishing a catalog whose ROMs are on Flash is atomic. -/
theorem published_atomic {c : StorageCall} (h : Synced P s f l) (hpart : s.partition = true)
    (hreload : s.needsReload = false)
    {f₁ : Flash} (hl₁ : reload P f₁ = some l) (hroms : romsOf f₁ l.entries = romsOf f l.entries)
    (hdata : 4096 ≤ (dataEnd P).toNat) (hlen : entries.length ≤ GB_STORAGE_MAX_ROMS)
    (hin : ∀ e ∈ entries, e.stop ≤ (dataEnd P).toNat)
    (heffect : c.effect P (romsOf f l.entries) = some (romsOf f₁ entries))
    (hp : Published P (slotsTorn P) entries (unmapSelected s) f₁ out f') : AtomicStep P c l f out f' := by
  obtain ⟨hst, l', hsynced, -⟩ := published_synced h hpart hreload hl₁ hdata hlen hp
  have hkept := fun {es : List RomEntry} => @Published.roms _ _ _ _ _ _ _ es hp (reload_readable hl₁).1
  have hold : romsOf f' l.entries = romsOf f l.entries := by
    rw [hkept fun e he => ((reload_catalogOK h.loads).region e he).high, hroms]
  refine ⟨⟨l', hsynced⟩, ?_⟩
  rcases hst.either with hreloaded | hreloaded
  · refine .inl ?_
    unfold recovered
    rw [hreloaded]
    exact congrArg some hold
  · refine .inr ⟨_, heffect, ?_⟩
    unfold recovered
    rw [hreloaded]
    exact congrArg some (hkept hin)

/-! ## Each call is atomic -/

theorem changed_atomic {c : StorageCall} {same : Prop} {target : List RomEntry → Prop} (h : Synced P s f l)
    (htarget : ∀ entries, InSync s l → target entries → l.entries ≠ [] ∧ entries.length ≤ l.entries.length ∧
      (∀ e ∈ entries, e.stop ≤ (dataEnd P).toNat) ∧ c.effect P
        (romsOf f l.entries) = some (romsOf f entries))
    (hc : Changed P (slotsTorn P) same target s f out f') : AtomicStep P c l f out f' := by
  cases hc with
  | refused =>
    refine .unchanged h fun s' hs' => ?_
    rcases hs' with hs' | hs'
    · exact (Prod.mk.inj (Option.some.inj hs')).2.symm
    · exact (Prod.mk.inj (Option.some.inj hs')).2.symm
  | same =>
    refine .unchanged h fun s' hs' => ?_
    rcases hs' with hs' | hs'
    · exact (Prod.mk.inj (Option.some.inj hs')).2.symm
    · exact (Prod.mk.inj (Option.some.inj hs')).2.symm
  | @published entries _ _ hpart hreload hto hp =>
    obtain ⟨hne, hlen, hin, heffect⟩ := htarget entries (h.inSync hpart hreload) hto
    have hok := reload_catalogOK h.loads
    exact published_atomic h hpart hreload h.loads rfl (hok.dataEnd_le hne)
      (Nat.le_trans hlen hok.count) hin heffect hp

theorem delete_atomic (h : Synced P s f l) (index : Nat)
    (hc : Changed P (slotsTorn P) False (Deleting index s) s f out f') :
    AtomicStep P (.delete index) l f out f' := by
  refine changed_atomic h ?_ hc
  rintro entries hsync ⟨hlt, rfl⟩
  have hok := (reload_catalogOK h.loads).region
  rw [hsync.entries_eq] at hlt ⊢
  refine ⟨List.ne_nil_of_length_pos (by omega), ?_, ?_, ?_⟩
  · rw [List.length_eraseIdx_of_lt hlt]
    omega
  · intro e he
    exact (hok e (List.mem_of_mem_eraseIdx he)).high
  · show (if index < (romsOf f l.entries).length then some ((romsOf f l.entries).eraseIdx index)
      else none) = _
    have hlen : (romsOf f l.entries).length = l.entries.length := List.length_map _
    rw [hlen, if_pos hlt, romsOf_eraseIdx]

theorem rename_atomic (h : Synced P s f l) (index : Nat) (name : List UInt8)
    (hc : Changed P (slotsTorn P) (SameName index name s) (Renaming index name s) s f out f') :
    AtomicStep P (.rename index name) l f out f' := by
  refine changed_atomic h ?_ hc
  rintro entries hsync ⟨-, e, he, rfl⟩
  have hok := (reload_catalogOK h.loads).region
  rw [hsync.entries_eq] at he ⊢
  obtain ⟨hlt, rfl⟩ := List.getElem?_eq_some_iff.mp he
  refine ⟨List.ne_nil_of_length_pos (by omega), ?_, ?_, ?_⟩
  · exact Nat.le_of_eq List.length_set
  · intro e' he'
    rcases List.mem_or_eq_of_mem_set he' with hmem | hmem
    · exact (hok e' hmem).high
    · rw [hmem, renamedEntry_stop]
      exact (hok _ (List.getElem_mem hlt)).high
  · exact romsOf_rename f he name

/-- An upload that publishes has written its region and nothing else. -/
theorem upload_regions (h : Synced P s f l) {name : List UInt8} {bytes : Nat}
    (hok : UploadOK P s name bytes) :
    GapFound P l.entries bytes (findGap P (UInt32.ofNat bytes) s.entries) := by
  have hsync := h.inSync hok.partition hok.noReload
  have hmin := hok.min
  rw [hsync.entries_eq]
  exact findGap_found (reload_catalogOK h.loads).region hsync.entries_eq (by omega) hok.available

theorem sameOutside_roms {offset : UInt32} {bytes : Nat}
    (hgap : GapFound P entries bytes offset) (hout : SameOutside offset.toNat bytes f f') :
    romsOf f' entries = romsOf f entries := by
  refine romsOf_congr fun e he i hlo hhi => hout i ?_
  have hfree := hgap.free e he
  unfold InRegion
  omega

theorem sameOutside_reload (h : reload P f = some l) {offset : UInt32} {bytes : Nat}
    (hgap : GapFound P entries bytes offset)
    (hout : SameOutside offset.toNat bytes f f') : reload P f' = some l := by
  obtain ⟨hr, hfrom⟩ := reload_iff.mp h
  have hgeo := slot_geometry hr.1
  have hslot : ∀ slot < 2, slotDirectory P f' slot = slotDirectory P f slot := by
    intro slot hslot
    refine congrArg (checkDirectory P) (slotAt_congr fun i _ => hout _ ?_)
    have hhigh := hgap.high
    unfold InRegion
    obtain rfl | rfl : slot = 0 ∨ slot = 1 := by omega
    · rw [hgeo.2.1]
      omega
    · rw [hgeo.2.2]
      omega
  have hlegacy : legacyCatalog P f' = legacyCatalog P f := by
    refine legacyCatalog_congr fun i hi => hout i ?_
    have hlow := hgap.low
    unfold InRegion
    omega
  refine Eq.trans ?_ h
  unfold reload reloadWith
  rw [hslot 0 (by decide), hslot 1 (by decide), hlegacy]

/-- The new region holds what was received. -/
theorem uploaded_romBytes (name : List UInt8) {bytes : Nat} {data : List UInt8} {f₁ : Flash}
    (hbytes : (UInt32.ofNat bytes).toNat = bytes) (hlen : data.length = bytes)
    (hw : Writing (findGap P (UInt32.ofNat bytes) entries).toNat bytes f data f₁) :
    romBytes f₁ (uploadedEntry P name bytes data entries) = data := by
  unfold romBytes uploadedEntry
  dsimp only
  rw [hbytes]
  refine List.ext_getElem ?_ ?_
  · rw [List.length_map, List.length_range, hlen]
  · intro i h₁ h₂
    rw [List.getElem_map, List.getElem_range, hw.stored i h₂, List.getD_eq_getElem _ _ h₂]

theorem upload_atomic (h : Synced P s f l) {name : List UInt8} {bytes : Nat} {reader : Reader}
    (hc : Uploaded P (slotsTorn P) name bytes reader s f out f') :
    AtomicStep P (.upload name bytes reader) l f out f' := by
  have hregions := (reload_catalogOK h.loads).region
  -- before the publication, only the new region has changed
  have hstopped : ∀ {s' : Catalog}, UploadOK P s name bytes →
      SameOutside (findGap P (UInt32.ofNat bytes) s.entries).toNat bytes f f' →
        (s' = {} ∨ s' = unmapSelected s) →
      afterwards out = s' → AtomicStep P (.upload name bytes reader) l f out f' := by
    intro s' hok hout hs' hafter
    have hgap := upload_regions h hok
    have hsync := h.inSync hok.partition hok.noReload
    have hloads := sameOutside_reload h.loads hgap hout
    refine ⟨⟨l, hloads, ?_⟩, .inl ?_⟩
    · intro hpart _
      rw [hafter] at hpart ⊢
      rcases hs' with rfl | rfl
      · cases hpart
      · exact ⟨by rw [← hsync.eq]; rfl, hsync.loaded⟩
    · unfold recovered
      rw [hloads]
      exact congrArg some (sameOutside_roms hgap hout)
  cases hc with
  | refused => exact .unchanged h fun s' hs' => by rcases hs' with hs' | hs' <;> cases hs'; rfl
  | stopped hok hout => exact hstopped hok hout (.inr rfl) rfl
  | cut hok hout => exact hstopped hok hout (.inl rfl) rfl
  | @published data f₁ _ _ hok hdata hlen hheader hw hp =>
    have hgap := upload_regions h hok
    have hsync := h.inSync hok.partition hok.noReload
    have hroms := sameOutside_roms hgap hw.outside
    have hbytes : (UInt32.ofNat bytes).toNat = bytes := by
      have hhigh := hgap.high
      have hlt := (dataEnd P).toNat_lt
      rw [UInt32.toNat_ofNat', Nat.mod_eq_of_lt (by omega)]
    have hlow := hgap.low
    have hhigh := hgap.high
    refine published_atomic h hok.partition hok.noReload
      (sameOutside_reload h.loads hgap hw.outside) hroms (by omega) ?_ ?_ ?_ hp
    · have hroom := hok.room
      rw [List.length_append, List.length_singleton]
      omega
    · intro e he
      rcases List.mem_append.mp he with he | he
      · rw [hsync.entries_eq] at he
        exact (hregions e he).high
      · obtain rfl := List.mem_singleton.mp he
        unfold RomEntry.stop uploadedEntry
        rw [hbytes]
        exact hhigh
    -- the new row delivers what was received, the other rows what they did
    · have hnew := uploaded_romBytes name hbytes hlen hw
      show (received reader bytes 0 []).map _ = _
      rw [hdata, hsync.entries_eq]
      have happend : romsOf f₁ (l.entries ++ [uploadedEntry P name bytes data l.entries]) =
          romsOf f l.entries ++ [⟨uploadedEntry P name bytes data l.entries, data⟩] := by
        unfold romsOf at hroms ⊢
        rw [List.map_append, hroms, List.map_singleton, ← hsync.entries_eq, hnew]
      rw [happend]
      show some _ = some _
      rw [romsOf_entries]

theorem init_atomic (h : Synced P s f l) {r : Option (Bool × Catalog)}
    (hpost : Prog.Post (fun r f' => f' = f ∧ InitResult P (HashesNewest P) f r) (fun f' => f' = f) r f') :
    AtomicStep P .init l f r f' := by
  cases r with
  | none =>
    obtain rfl : f' = f := hpost
    exact .unchanged h fun s' hs' => by rcases hs' with hs' | hs' <;> cases hs'
  | some r =>
    obtain ⟨rfl, hr⟩ := hpost
    obtain ⟨ok, s'⟩ := r
    refine ⟨⟨l, h.loads, fun _ hopen => ?_⟩, .inl (by unfold recovered; rw [h.loads]; rfl)⟩
    cases ok with
    | true =>
      obtain rfl := Option.some.inj (h.loads.symm.trans (hr.reloaded rfl))
      have hl := reload_loaded h.loads
      refine ⟨?_, hl⟩
      show ({ l with mapped := false, selected := none } : Catalog) = l
      rw [← hl.mapped, ← hl.selected]
    | false =>
      have hclosed := (hr.closed rfl).1
      rw [show s'.needsReload = false from hopen] at hclosed
      cases hclosed

/-- Every call, however it ends, is atomic. -/
theorem call_atomic (h : Synced P s f l) (c : StorageCall)
    (he : (c.run P s).Exec (callDevice P (slotsTorn P) c) f out f') :
    AtomicStep P c l f out f' := by
  cases c with
  | init => exact init_atomic h (Prog.wp_exec (gbStorageInit_hashed P _ s f) he)
  | upload name bytes reader =>
    have hpost := Prog.wp_exec (gbStorageUpload_wp P (slotsTorn P) name bytes reader s f) he
    cases out with
    | none => exact upload_atomic h hpost
    | some r => exact upload_atomic h hpost
  | delete index =>
    have hpost := Prog.wp_exec (gbStorageDelete_wp P (slotsTorn P) index s f) he
    cases out with
    | none => exact delete_atomic h index hpost
    | some r => exact delete_atomic h index hpost
  | rename index name =>
    have hpost := Prog.wp_exec (gbStorageRename_wp P (slotsTorn P) index name s f) he
    cases out with
    | none => exact rename_atomic h index name hpost
    | some r => exact rename_atomic h index name hpost

theorem callRun_synced (h : Synced P s f l) {s' : Catalog}
    (hrun : CallRun P (callDevice P (slotsTorn P)) s f s' f') :
    ∃ l', Synced P s' f' l' := by
  induction hrun with
  | start => exact ⟨l, h⟩
  | call _ c he ih =>
    obtain ⟨l', hl'⟩ := ih h
    exact (call_atomic hl' c he).synced

/-- From any partition `gb_storage_init` accepts, after any history of calls with any failures and
power cuts in which every `gb_storage_init` can hash the newest directory: whatever one more call does
and wherever it is cut, every next `gb_storage_init` whose reads succeed and that can hash the newest
directory returns true and finds exactly the ROMs from before the call or exactly those after it, each
with all its bytes. -/
theorem catalog_crash_consistent (P : Partition) (f₀ : Flash) (hstart : (reload P f₀).isSome) (s : Catalog) (f : Flash)
    (hrun : CallRun P (callDevice P (slotsTorn P)) {} f₀ s f)
    (c : StorageCall) (out : Option (Bool × Catalog)) (f' : Flash)
    (he : (c.run P s).Exec (callDevice P (slotsTorn P) c) f out f') :
    ∃ before, recovered P f = some before ∧
      (s.partition = true → s.needsReload = false → romsOf f s.entries = before) ∧
      ∃ now, (now = before ∨ c.effect P before = some now) ∧
        ∀ s' r f'', (gbStorageInit P s').Exec (flashRecovering P) f' r f'' →
          ∃ l, r = some (true, l) ∧ f'' = f' ∧ romsOf f' l.entries = now := by
  obtain ⟨l₀, hl₀⟩ := Option.isSome_iff_exists.mp hstart
  obtain ⟨l, hl⟩ := callRun_synced (synced_boot hl₀) hrun
  have hbefore : recovered P f = some (romsOf f l.entries) := by
    unfold recovered
    rw [hl.loads]
    rfl
  refine ⟨_, hbefore, ?_, ?_⟩
  · intro hpart hopen
    rw [(hl.inSync hpart hopen).entries_eq]
  · have hstep := call_atomic hl c he
    obtain ⟨l', hl'⟩ := hstep.synced
    refine ⟨romsOf f' l'.entries, ?_, ?_⟩
    · have hnow : recovered P f' = some (romsOf f' l'.entries) := by
        unfold recovered
        rw [hl'.loads]
        rfl
      rcases hstep.either with h | ⟨roms, heffect, h⟩
      · exact .inl (Option.some.inj (hnow.symm.trans h))
      · refine .inr ?_
        rw [heffect, Option.some.inj (hnow.symm.trans h)]
    · intro s' r f'' hinit
      have hpost := Prog.wp_exec (gbStorageInit_recovers s' hl'.loads) hinit
      cases r with
      | none => exact hpost.elim
      | some r =>
        obtain ⟨rfl, rfl⟩ := hpost
        exact ⟨l', rfl, rfl, rfl⟩

theorem legacyCatalog_blank (P : Partition) : legacyCatalog P (fun _ => 0xFF) = some { partition := true } := by
  have hmagic : (romHeaderCodec.get fun _ => 0xFF).magic ≠ legacyMagic := by decide
  unfold legacyCatalog
  exact if_pos (.inl hmagic)

/-- A wholly erased partition holds the empty catalog. -/
theorem reload_blank (hr : slotReadable P 0 ∧ slotReadable P 1) :
    reload P (fun _ => 0xFF) = some { partition := true } := by
  unfold reload
  rw [if_neg (not_not.mpr hr), slotDirectory_erased fun _ _ => rfl, slotDirectory_erased fun _ _ => rfl]
  exact legacyCatalog_blank P

/-- A completed publication is what is loaded next. -/
theorem reload_written (hl : reload P f = some l) (ha : accepted P (eraseSlot P (otherSlot l)))
    (hok : CatalogOK (dataEnd P) entries) : reload P (writtenFlash P entries l f) = some (committed entries l) := by
  refine reload_new hl (writtenFlash_outside ha) hok.count ?_
  unfold slotDirectory
  rw [writtenFlash_slot]
  exact checkDirectory_built hok

/-! ## A partition with one game -/

/-- The game takes the first 32 KiB after the first sector. -/
def oneGame : RomEntry := { name := padName [0x41], offset := 4096, size := 32768, sha256 := .replicate 32 0 }

/-- The hash keeps the start of what it is given. -/
def gamePartition : Partition := ⟨131072, fun bytes => Vector.ofFn fun i => bytes.getD i 0⟩

/-- Slot 0 holds its directory, of generation 1. -/
def oneGameFlash : Flash := writtenFlash gamePartition [oneGame] { partition := true } fun _ => 0xFF

def oneGameCatalog : Catalog := committed [oneGame] { partition := true }

theorem oneGame_ok : CatalogOK (dataEnd gamePartition) [oneGame] := by
  refine ⟨by decide, ?_, List.pairwise_singleton ..⟩
  intro e he
  obtain rfl := List.mem_singleton.mp he
  decide

theorem oneGame_reload : reload gamePartition oneGameFlash = some oneGameCatalog :=
  reload_written (reload_blank (by decide)) (by decide) oneGame_ok

theorem oneGame_slot : slotDirectory gamePartition oneGameFlash 0 = some (newDirectory gamePartition 1 [oneGame]) := by
  have hslot : slotAt gamePartition oneGameFlash 0 = newDirectory gamePartition 1 [oneGame] :=
    writtenFlash_slot gamePartition [oneGame] { partition := true } _
  unfold slotDirectory
  rw [hslot]
  exact checkDirectory_built oneGame_ok

/-- After a change: slot 1 holds the next directory, of generation 2. -/
def changedFlash (entries : List RomEntry) : Flash := writtenFlash gamePartition entries oneGameCatalog oneGameFlash

theorem changed_reload (hok : CatalogOK (dataEnd gamePartition) entries) :
    reload gamePartition (changedFlash entries) = some (committed entries oneGameCatalog) :=
  reload_written oneGame_reload (by decide) hok

/-- Slot 0 still holds the game. -/
theorem changed_slot0 (entries : List RomEntry) :
    slotDirectory gamePartition (changedFlash entries) 0 = some (newDirectory gamePartition 1 [oneGame]) := by
  have hout : SameOutside (slotOffset gamePartition 1).toNat 4096 oneGameFlash (changedFlash entries) :=
    writtenFlash_outside (P := gamePartition) (s := oneGameCatalog) (by decide)
  rw [← oneGame_slot]
  refine congrArg (checkDirectory gamePartition) (slotAt_congr fun i hi => hout _ ?_)
  have h0 : (slotOffset gamePartition 0).toNat = 122880 := by decide
  have h1 : (slotOffset gamePartition 1).toNat = 126976 := by decide
  have hsize : i < 1196 := hi
  unfold InRegion
  omega

/-- A deletion of the game, cut while it writes slot 1. -/
def tornDeletion : Flash := fun i => if i = 126976 then 0 else erasedFlash gamePartition oneGameCatalog oneGameFlash i

theorem tornDeletion_harmed : Harmed gamePartition (slotsTorn gamePartition)
    (writeSlot gamePartition 1 (nextDirectory gamePartition [] (unmapSelected oneGameCatalog)))
    (erasedFlash gamePartition oneGameCatalog oneGameFlash) tornDeletion := by
  have hslot : (slotOffset gamePartition 1).toNat = 126976 := by decide
  have hlen := directoryCodec.length_bytes (nextDirectory gamePartition [] (unmapSelected oneGameCatalog))
  refine ⟨?_, ?_, ?_⟩
  · show _ + (directoryCodec.bytes _).length ≤ _
    rw [hslot, hlen]
    decide
  · intro i hi
    refine if_neg ?_
    rintro rfl
    refine hi ?_
    show _ / 4096 ≤ _ ∧ _ ≤ (_ + (directoryCodec.bytes _).length - 1) / 4096
    rw [hslot, hlen]
    decide
  · intro slot hlt
    obtain rfl | rfl : slot = 0 ∨ slot = 1 := by omega
    · left
      refine slotAt_congr fun i hi => if_neg ?_
      have h0 : (slotOffset gamePartition 0).toNat = 122880 := by decide
      have hsize : i < 1196 := hi
      omega
    · -- the first byte is no longer that of the digest
      right; right
      intro hdigest
      have hfirst := congrArg (fun v : Vector UInt8 32 => v[0]) hdigest
      revert hfirst
      decide +kernel

theorem tornDeletion_exec :
    ((StorageCall.delete 0).run gamePartition oneGameCatalog).Exec (flashDevice gamePartition (slotsTorn gamePartition))
      oneGameFlash none tornDeletion :=
  .perform (.inl ⟨trivial, rfl, rfl⟩) (.perform (.inl ⟨trivial, rfl, rfl⟩) (.perform (.inl ⟨by decide, rfl, rfl⟩)
    (.cut (.inr tornDeletion_harmed))))

/-- The game is loaded on every device on which loading may succeed. -/
theorem oneGame_run {D : StorageCall → Device FlashOp FlashRes Flash}
    (hD : (flashSucceeding gamePartition).Refines (D .init)) :
    CallRun gamePartition D {} oneGameFlash oneGameCatalog oneGameFlash :=
  @CallRun.call _ _ _ _ _ _ _ (some (true, oneGameCatalog)) (.start _ _) .init
    ((gbStorageInit_exec {} oneGame_reload).refines hD)

theorem catalog_crash_consistent_torn :
    tornDeletion 126976 ≠ oneGameFlash 126976 ∧ ∃ before, recovered gamePartition oneGameFlash = some before ∧
      (true = true → false = false → romsOf oneGameFlash [oneGame] = before) ∧
      ∃ now, (now = before ∨ (StorageCall.delete 0).effect gamePartition before = some now) ∧
        ∀ s' r f'', (gbStorageInit gamePartition s').Exec (flashRecovering gamePartition) tornDeletion r f'' →
          ∃ l, r = some (true, l) ∧ f'' = tornDeletion ∧ romsOf tornDeletion l.entries = now :=
  ⟨by decide +kernel, catalog_crash_consistent gamePartition oneGameFlash
    (by rw [oneGame_reload]; rfl) oneGameCatalog oneGameFlash
    (oneGame_run (flashSucceeding_init _ _)) (.delete 0) none tornDeletion tornDeletion_exec⟩

/-- When the hash of its slot fails, nothing of the game is loaded. -/
theorem oneGame_unhashed (s : Catalog) :
    (gbStorageInit gamePartition s).Exec (flashReading gamePartition) oneGameFlash
      (some (true, { partition := true })) oneGameFlash := by
  have hout : SameOutside 122880 4096 (fun _ => 0xFF) oneGameFlash :=
    writtenFlash_outside (P := gamePartition) (s := { partition := true }) (by decide)
  have hslot : slotDirectory gamePartition oneGameFlash 1 = none := by
    refine slotDirectory_erased fun i hi => hout _ ?_
    have h1 : (slotOffset gamePartition 1).toNat = 126976 := by decide
    unfold InRegion
    omega
  have hlegacy : legacyCatalog gamePartition oneGameFlash = some { partition := true } := by
    rw [legacyCatalog_congr fun i hi => hout i (by unfold InRegion; omega)]
    exact legacyCatalog_blank _
  refine gbStorageInit_reads (by decide) (.unhashed trivial) .checked ?_ s
  unfold reloadWith
  rw [hslot]
  exact hlegacy

/-- A hash that fails hides the catalog, although every read succeeds. -/
theorem failing_hash_hides_catalog :
    ¬ ∀ (P : Partition) (f₀ : Flash), (reload P f₀).isSome → ∀ (s : Catalog) (f : Flash),
      StorageRun P (slotsTorn P) {} f₀ s f → ∀ (c : StorageCall) (out : Option (Bool × Catalog)) (f' : Flash),
      (c.run P s).Exec (flashDevice P (slotsTorn P)) f out f' →
      ∃ before, recovered P f = some before ∧ ∃ now, (now = before ∨ c.effect P before = some now) ∧
        ∀ s' r f'', (gbStorageInit P s').Exec (flashReading P) f' r f'' →
          ∃ l, r = some (true, l) ∧ f'' = f' ∧ romsOf f' l.entries = now := by
  intro hclaim
  have hrun : StorageRun gamePartition (slotsTorn gamePartition) {} oneGameFlash oneGameCatalog oneGameFlash :=
    oneGame_run (flashSucceeding_refines _ _)
  -- a renaming, cut before its slot is erased
  have hcut : ((StorageCall.rename 0 [0x42]).run gamePartition oneGameCatalog).Exec
      (flashDevice gamePartition (slotsTorn gamePartition)) oneGameFlash none oneGameFlash :=
    .perform (.inl ⟨trivial, rfl, rfl⟩) (.perform (.inl ⟨trivial, rfl, rfl⟩) (.cut (.inl rfl)))
  obtain ⟨before, hbefore, now, hnow, hnext⟩ :=
    hclaim gamePartition oneGameFlash (by rw [oneGame_reload]; rfl) _ _ hrun _ _ _ hcut
  obtain ⟨l, hl, -, hempty⟩ := hnext {} _ _ (oneGame_unhashed {})
  obtain rfl : now = [] := by rw [← hempty, ← (Prod.mk.inj (Option.some.inj hl)).2]; rfl
  unfold recovered at hbefore
  rw [oneGame_reload] at hbefore
  obtain rfl := Option.some.inj hbefore
  rcases hnow with hnow | hnow
  · cases hnow
  · cases hnow

end FoloGameboy

/-
What each storage operation can do, under any failures and power cuts: one case for each way it can
end. Later proofs take the cases apart and never unfold an operation.
-/
import FoloGameboy.Storage.Catalog

namespace FoloGameboy

open Effect

variable {P : Partition} {torn : Flash → Flash → Flash → Prop} {s : Catalog} {f : Flash}

/-! ## Hashing -/

/-- A hash that succeeds or fails, and changes nothing. -/
theorem sha256_wp {α : Type} {bytes : List UInt8} {k : Bool → StorageM α} {Q : α → Flash → Prop} {C : Flash → Prop}
    (hok : (k true).wp (flashDevice P torn) Q C f) (hfail : (k false).wp (flashDevice P torn) Q C f) (hcut : C f) :
    (Prog.op (FlashOp.sha256 bytes) >>= k).wp (flashDevice P torn) Q C f := by
  refine Prog.wp_perform ?_ ?_
  · intro r f' hd
    obtain rfl := sha256_done hd
    cases r with
    | false => exact hfail
    | true => exact hok
  · intro f' hc
    rw [quiet_cut (fun _ => id) hc]
    exact hcut

/-- A condition on the answers of the partition. -/
abbrev Answers : Type := (o : FlashOp) → Flash → FlashRes o → Prop

variable {ok : Answers}

/-! ## Reading -/

/-- The directory found in a slot, checked or not. -/
def slotAt (P : Partition) (f : Flash) (slot : Nat) : Directory :=
  directoryCodec.get fun i => f ((slotOffset P slot).toNat + i)

/-- What `read_directory` hashes of a slot. -/
def slotHashed (P : Partition) (f : Flash) (slot : Nat) : List UInt8 := hashedBytes (slotAt P f slot).toDirectoryHead

def slotReadable (P : Partition) (slot : Nat) : Prop := (slotOffset P slot).toNat + directoryCodec.size ≤ P.size.toNat

instance (P : Partition) (slot : Nat) : Decidable (slotReadable P slot) := inferInstanceAs (Decidable (_ ≤ _))

/-- The checks of a directory whose hash can be computed. -/
theorem checkDirectory_hashed {d : Directory} (h : directoryShaped P d = true) :
    (if P.sha256 (hashedBytes d.toDirectoryHead) = d.digest then some d else none) = checkDirectory P d := by
  unfold checkDirectory
  rw [h, Bool.true_and]
  by_cases hd : P.sha256 (hashedBytes d.toDirectoryHead) = d.digest
  · rw [if_pos hd, if_pos (decide_eq_true hd)]
  · rw [if_neg hd, if_neg (by rw [decide_eq_true_eq]; exact hd)]

theorem checkDirectory_unshaped {d : Directory} (h : ¬ directoryShaped P d = true) : checkDirectory P d = none := by
  unfold checkDirectory
  rw [Bool.eq_false_iff.mpr h, Bool.false_and]
  rfl

/-- `read_directory` fails and says so, or returns the checked slot, or nothing because its hash could
not be computed. -/
theorem readDirectory_when (slot : Nat) {Q : Option Directory × Catalog → Flash → Prop} {C : Flash → Prop}
    (hfail : ok (.read (slotOffset P slot).toNat directoryCodec.size) f none →
      Q (none, { s with directoryReadError := true }) f)
    (hread : slotReadable P slot → Q (checkDirectory P (slotAt P f slot), s) f)
    (hhash : slotReadable P slot → ok (.sha256 (slotHashed P f slot)) f false → Q (none, s) f) (hcut : C f) :
    (readDirectory P slot s).wp ((flashDevice P torn).when ok) Q C f := by
  refine Prog.wp_perform ?_ ?_
  · rintro r f' ⟨hd, hok⟩
    obtain ⟨rfl, rfl | ⟨hin, rfl⟩⟩ := read_done hd
    · exact hfail hok
    · have hread := hread hin
      dsimp only
      change Prog.wp _ _ _ (if ¬ directoryShaped P (slotAt P f' slot) = true then _ else _) _
      by_cases hshaped : directoryShaped P (slotAt P f' slot) = true
      · rw [if_neg (not_not.mpr hshaped)]
        refine ⟨?_, ?_⟩
        · rintro r f'' ⟨hd₂, hok₂⟩
          obtain rfl := sha256_done hd₂
          cases r with
          | false => exact hhash hin hok₂
          | true =>
            rw [← checkDirectory_hashed hshaped] at hread
            exact hread
        · intro f'' hc
          rw [quiet_cut (fun _ => id) hc]
          exact hcut
      · rw [if_pos hshaped]
        rw [checkDirectory_unshaped hshaped] at hread
        exact hread
  · intro f' hc
    rw [quiet_cut (fun _ => id) hc]
    exact hcut

theorem readDirectory_wp (slot : Nat) {Q : Option Directory × Catalog → Flash → Prop} {C : Flash → Prop}
    (hfail : Q (none, { s with directoryReadError := true }) f)
    (hread : slotReadable P slot → Q (checkDirectory P (slotAt P f slot), s) f) (hhash : Q (none, s) f) (hcut : C f) :
    (readDirectory P slot s).wp (flashDevice P torn) Q C f :=
  Prog.wp_refines (Device.refines_when _ fun _ _ _ => trivial)
    (@readDirectory_when _ _ _ _ (fun _ _ _ => True) slot _ _ (fun _ => hfail) hread (fun _ _ => hhash) hcut)

/-! ## Publishing -/

/-- The state from the write of a slot on, until it is confirmed. -/
def unconfirmed (s : Catalog) : Catalog := { s with needsReload := true, catalogTrusted := false }

def eraseSlot (P : Partition) (slot : Nat) : FlashOp := .erase (slotOffset P slot).toNat SECTOR_BYTES.toNat

def writeSlot (P : Partition) (slot : Nat) (dir : Directory) : FlashOp :=
  .write (slotOffset P slot).toNat (directoryCodec.bytes dir)

/-- The directory `publish_directory` writes. -/
abbrev nextDirectory (P : Partition) (entries : List RomEntry) (s : Catalog) : Directory :=
  newDirectory P (s.generation + 1) entries

/-- The Flash with the erased target slot, and with the new directory in it. -/
def erasedFlash (P : Partition) (s : Catalog) (f : Flash) : Flash := completed (eraseSlot P (otherSlot s)) f

def writtenFlash (P : Partition) (entries : List RomEntry) (s : Catalog) (f : Flash) : Flash :=
  completed (writeSlot P (otherSlot s) (nextDirectory P entries s)) (erasedFlash P s f)

def committed (entries : List RomEntry) (s : Catalog) : Catalog :=
  { s with entries := entries, generation := s.generation + 1, directorySlot := some (otherSlot s)
           catalogTrusted := true, needsReload := false }

/-- How `publish_directory` can end. -/
inductive Published (P : Partition) (torn : Flash → Flash → Flash → Prop)
    (entries : List RomEntry) (s : Catalog) (f : Flash) :
    Option (Bool × Catalog) → Flash → Prop where
  | cut : Published P torn entries s f none f
  | unprepared : Published P torn entries s f (some (false, s)) f
  | eraseFailed {f' : Flash} (h : f' = f ∨ Harmed P torn (eraseSlot P (otherSlot s)) f f') :
      Published P torn entries s f (some (false, s)) f'
  | eraseCut {f' : Flash} (h : f' = f ∨ Harmed P torn (eraseSlot P (otherSlot s)) f f') :
      Published P torn entries s f none f'
  | writeFailed {f' : Flash} (ha : accepted P (eraseSlot P (otherSlot s)))
      (h : f' = erasedFlash P s f ∨
        Harmed P torn (writeSlot P (otherSlot s) (nextDirectory P entries s)) (erasedFlash P s f) f') :
      Published P torn entries s f (some (false, unconfirmed s)) f'
  | writeCut {f' : Flash} (ha : accepted P (eraseSlot P (otherSlot s)))
      (h : f' = erasedFlash P s f ∨
        Harmed P torn (writeSlot P (otherSlot s) (nextDirectory P entries s)) (erasedFlash P s f) f') :
      Published P torn entries s f none f'
  | verifyCut (ha : accepted P (eraseSlot P (otherSlot s))) :
      Published P torn entries s f none (writtenFlash P entries s f)
  | unread (ha : accepted P (eraseSlot P (otherSlot s))) :
      Published P torn entries s f (some (false, { unconfirmed s with directoryReadError := true }))
        (writtenFlash P entries s f)
  | unverified (ha : accepted P (eraseSlot P (otherSlot s))) :
      Published P torn entries s f (some (false, unconfirmed s)) (writtenFlash P entries s f)
  | committed (ha : accepted P (eraseSlot P (otherSlot s)))
      (h : checkDirectory P (slotAt P (writtenFlash P entries s f) (otherSlot s)) = some (nextDirectory P entries s)) :
      Published P torn entries s f (some (true, FoloGameboy.committed entries s)) (writtenFlash P entries s f)

theorem replaceDirectory_wp (P : Partition) (torn : Flash → Flash → Flash → Prop)
    (entries : List RomEntry) (s : Catalog) (f : Flash) :
    (replaceDirectory P (nextDirectory P entries s) entries s).wp (flashDevice P torn)
      (fun r => Published P torn entries s f (some r))
      (Published P torn entries s f none) f := by
  unfold replaceDirectory
  refine Prog.wp_perform ?_ ?_
  · intro erased f₁ hd₁
    rcases erase_done hd₁ with ⟨rfl, ha, rfl⟩ | ⟨rfl, hf₁⟩
    · rw [if_neg (not_not.mpr rfl)]
      refine Prog.wp_perform ?_ ?_
      · intro written f₂ hd₂
        rcases write_done hd₂ with ⟨rfl, -, rfl⟩ | ⟨rfl, hf₂⟩
        · rw [if_neg (not_not.mpr rfl), Prog.wp_bind]
          refine readDirectory_wp (otherSlot s) ?_ ?_ ?_ ?_
          · exact .unread ha
          · intro _
            dsimp only
            split
            · rename_i hv
              exact .committed ha hv
            · exact .unverified ha
          · exact .unverified ha
          · exact .verifyCut ha
        · exact .writeFailed ha hf₂
      · intro f₂ hc
        exact .writeCut ha hc
    · exact .eraseFailed hf₁
  · intro f₁ hc
    exact .eraseCut hc

theorem publishDirectory_wp (P : Partition) (torn : Flash → Flash → Flash → Prop)
    (entries : List RomEntry) (s : Catalog)
    (f : Flash) :
    (publishDirectory P entries s).wp (flashDevice P torn)
      (fun r => Published P torn entries s f (some r))
      (Published P torn entries s f none) f := by
  unfold publishDirectory
  refine Prog.wp_perform ?_ ?_
  · intro buffers f₀ hd
    obtain rfl := alloc_done hd
    by_cases hb : buffers = true
    · rw [if_neg (not_not.mpr hb)]
      exact sha256_wp (replaceDirectory_wp P torn entries s f₀) .unprepared .cut
    · rw [if_pos hb]
      exact .unprepared
  · intro f₀ hc
    rw [quiet_cut (fun _ => id) hc]
    exact .cut

/-! ## Uploading -/

/-- What `gb_storage_upload` has checked before it erases anything. -/
structure UploadOK (P : Partition) (s : Catalog) (name : List UInt8) (bytes : Nat) : Prop where
  partition : s.partition = true
  noReload : s.needsReload = false
  name : validName name none s.entries = true
  room : s.entries.length < GB_STORAGE_MAX_ROMS
  min : 32768 ≤ bytes
  limit : bytes ≤ gbStorageLimit P s
  banks : bytes % ROM_BANK_BYTES = 0
  available : bytes ≤ gbStorageAvailable P s
  gap : findGap P (UInt32.ofNat bytes) s.entries ≠ 0

/-- The bytes a reader delivers, unless it fails or delivers too much. -/
def received (reader : Reader) (bytes n : Nat) (data : List UInt8) : Option (List UInt8) :=
  if data.length < bytes then
    let want := if 1024 < bytes - data.length then 1024 else bytes - data.length
    let buffer := reader n want
    if _h : buffer.length = 0 ∨ want < buffer.length then none else received reader bytes (n + 1) (data ++ buffer)
  else some data
termination_by bytes - data.length
decreasing_by
  change bytes - (data ++ buffer).length < bytes - data.length
  rw [List.length_append]
  omega

/-- The region `[offset, offset + bytes)`. -/
def InRegion (offset bytes i : Nat) : Prop := offset ≤ i ∧ i < offset + bytes

/-- Equal outside a region. -/
def SameOutside (offset bytes : Nat) (f f' : Flash) : Prop := ∀ i, ¬ InRegion offset bytes i → f' i = f i

/-- A region being written: `data` at its start, the rest erased. -/
structure Writing (offset bytes : Nat) (f₀ : Flash) (data : List UInt8) (f : Flash) : Prop where
  le : data.length ≤ bytes
  outside : SameOutside offset bytes f₀ f
  stored : ∀ i < data.length, f (offset + i) = data.getD i 0
  erased : ∀ i, data.length ≤ i → i < bytes → f (offset + i) = 0xFF

theorem write_inRegion {offset bytes : Nat} {data buffer : List UInt8} (ho : offset % 4096 = 0)
    (hb : bytes % 4096 = 0)
    (hne : buffer.length ≠ 0) (hle : data.length + buffer.length ≤ bytes) {i : Nat}
    (h : addressed (.write (offset + data.length) buffer) i) : InRegion offset bytes i := by
  unfold addressed at h
  unfold InRegion
  omega

theorem Writing.write {offset bytes : Nat} {f₀ : Flash} {data : List UInt8}
    (h : Writing offset bytes f₀ data f)
    {buffer : List UInt8} (hle : data.length + buffer.length ≤ bytes) :
    Writing offset bytes f₀ (data ++ buffer) (completed (.write (offset + data.length) buffer) f) := by
  have hval : ∀ i, completed (.write (offset + data.length) buffer) f i =
      if offset + data.length ≤ i ∧ i < offset + data.length + buffer.length then
        f i &&& buffer.getD (i - (offset + data.length)) 0 else f i := fun _ => rfl
  refine ⟨by rw [List.length_append]; exact hle, ?_, ?_, ?_⟩
  · intro i hi
    unfold InRegion at hi
    rw [hval, if_neg (by omega)]
    exact h.outside i hi
  · intro i hi
    rw [List.length_append] at hi
    rw [hval]
    by_cases hlt : i < data.length
    · rw [if_neg (by omega), h.stored i hlt, List.getD_append _ _ _ _ hlt]
    · rw [if_pos (by omega), h.erased i (by omega) (by omega), List.getD_append_right _ _ _ _ (by omega)]
      have hidx : offset + i - (offset + data.length) = i - data.length := by omega
      rw [hidx]
      generalize buffer.getD (i - data.length) 0 = b
      exact (UInt8.and_comm _ _).trans (UInt8.and_neg_one)
  · intro i hlo hhi
    rw [List.length_append] at hlo
    rw [hval, if_neg (by omega)]
    exact h.erased i (by omega) hhi

/-- The write loop keeps to its region, and when it ends well the region holds what was received. -/
theorem writeChunks_wp (reader : Reader) {offset bytes : Nat} (ho : offset % 4096 = 0)
    (hb : bytes % 4096 = 0) {f₀ : Flash}
    (n : Nat) (data : List UInt8) {f : Flash} (h : Writing offset bytes f₀ data f) :
    (writeChunks reader offset bytes n data).wp (flashDevice P torn)
      (fun r f' => match r with
        | none => SameOutside offset bytes f₀ f'
        | some data' => received reader bytes n data = some data' ∧ data'.length = bytes ∧
          Writing offset bytes f₀ data' f')
      (SameOutside offset bytes f₀) f := by
  unfold writeChunks received
  by_cases hlt : data.length < bytes
  · rw [if_pos hlt, if_pos hlt]
    dsimp only
    generalize hwant : (if 1024 < bytes - data.length then 1024 else bytes - data.length) = want
    have hwant' : want ≤ bytes - data.length := by rw [← hwant]; split <;> omega
    by_cases hbuf : (reader n want).length = 0 ∨ want < (reader n want).length
    · rw [dif_pos hbuf, dif_pos hbuf]
      exact h.outside
    · rw [dif_neg hbuf, dif_neg hbuf]
      rw [not_or, Nat.not_lt] at hbuf
      have hle : data.length + (reader n want).length ≤ bytes := by omega
      have hother : ∀ f', (∀ i, ¬ addressed (.write (offset + data.length) (reader n want)) i →
          f' i = f i) →
          SameOutside offset bytes f₀ f' := by
        intro f' hf' i hi
        rw [hf' i fun ha => hi (write_inRegion ho hb hbuf.1 hle ha)]
        exact h.outside i hi
      refine Prog.wp_perform ?_ ?_
      · intro written f' hd
        rcases write_done hd with ⟨rfl, -, rfl⟩ | ⟨rfl, hf'⟩
        · have hwritten := h.write hle
          rw [if_pos rfl]
          exact sha256_wp (writeChunks_wp reader ho hb (n + 1) (data ++ reader n want) hwritten)
            hwritten.outside hwritten.outside
        · refine hother f' fun i hi => ?_
          rcases hf' with rfl | hf'
          · rfl
          · exact hf'.other i hi
      · intro f' hc
        exact hother f' fun i hi => cut_other hc hi
  · rw [if_neg hlt, if_neg hlt]
    exact ⟨rfl, Nat.le_antisymm h.le (Nat.le_of_not_lt hlt), h⟩
termination_by bytes - data.length
decreasing_by
  rw [List.length_append]
  omega

/-- The entry of an uploaded ROM. -/
def uploadedEntry (P : Partition) (name : List UInt8) (bytes : Nat)
    (data : List UInt8) (entries : List RomEntry) : RomEntry :=
  { name := padName name, offset := findGap P (UInt32.ofNat bytes) entries, size := UInt32.ofNat bytes
    sha256 := P.sha256 data }

/-- The header checks `gb_storage_upload` makes of what it has received. -/
def HeaderOK (bytes : Nat) (data : List UInt8) : Prop :=
  data.getD 0x143 0 ≠ 0xC0 ∧ supportedType (data.getD 0x147 0) = true ∧ romSizeOf (data.getD 0x148 0) = bytes

/-- How `gb_storage_upload` can end. -/
inductive Uploaded (P : Partition) (torn : Flash → Flash → Flash → Prop)
    (name : List UInt8) (bytes : Nat) (reader : Reader)
    (s : Catalog) (f : Flash) : Option (Bool × Catalog) → Flash → Prop where
  | refused : Uploaded P torn name bytes reader s f (some (false, s)) f
  | stopped {f' : Flash} (hok : UploadOK P s name bytes)
      (h : SameOutside (findGap P (UInt32.ofNat bytes) s.entries).toNat bytes f f') :
      Uploaded P torn name bytes reader s f (some (false, unmapSelected s)) f'
  | cut {f' : Flash} (hok : UploadOK P s name bytes)
      (h : SameOutside (findGap P (UInt32.ofNat bytes) s.entries).toNat bytes f f') :
      Uploaded P torn name bytes reader s f none f'
  | published {data : List UInt8} {f₁ f' : Flash} {out : Option (Bool × Catalog)} (hok : UploadOK P s name bytes)
      (hdata : received reader bytes 0 [] = some data) (hlen : data.length = bytes) (hheader : HeaderOK bytes data)
      (hf₁ : Writing (findGap P (UInt32.ofNat bytes) s.entries).toNat bytes f data f₁)
      (h : Published P torn (s.entries ++ [uploadedEntry P name bytes data s.entries]) (unmapSelected s) f₁ out f') :
      Uploaded P torn name bytes reader s f out f'

/-- The entry is published when its header is acceptable and its digest could be computed. -/
theorem addRom_wp {name : List UInt8} {bytes : Nat} {reader : Reader} {data : List UInt8} {f₁ : Flash}
    (hok : UploadOK P s name bytes) (hdata : received reader bytes 0 [] = some data) (hlen : data.length = bytes)
    (hw : Writing (findGap P (UInt32.ofNat bytes) s.entries).toNat bytes f data f₁) :
    (addRom P name bytes (findGap P (UInt32.ofNat bytes) s.entries) data (some (P.sha256 data)) (unmapSelected s)).wp
      (flashDevice P torn) (fun r => Uploaded P torn name bytes reader s f (some r))
      (Uploaded P torn name bytes reader s f none) f₁ := by
  unfold addRom
  dsimp only
  split
  · exact .stopped hok hw.outside
  · rename_i hheader
    simp only [not_or, not_not] at hheader
    refine Prog.wp_mono ?_ ?_ (publishDirectory_wp P torn _ _ f₁)
    · intro r f'' hp
      exact .published hok hdata hlen hheader hw hp
    · intro f'' hp
      exact .published hok hdata hlen hheader hw hp

theorem gbStorageUpload_wp (P : Partition) (torn : Flash → Flash → Flash → Prop) (name : List UInt8)
    (bytes : Nat) (reader : Reader) (s : Catalog) (f : Flash) :
    (gbStorageUpload P name bytes reader s).wp (flashDevice P torn)
      (fun r => Uploaded P torn name bytes reader s f (some r))
        (Uploaded P torn name bytes reader s f none) f := by
  unfold gbStorageUpload
  split
  · exact .refused
  rename_i hchecks
  simp only [not_or, not_not, Nat.not_le, Nat.not_lt] at hchecks
  obtain ⟨hpart, hreload, hname, hroom, hmin, hlimit, hbanks, havail⟩ := hchecks
  dsimp only
  split
  · exact .refused
  rename_i hgap
  have hok : UploadOK P s name bytes :=
    ⟨hpart, eq_false_of_ne_true hreload, hname, hroom, hmin, hlimit, hbanks, havail, hgap⟩
  have hb : bytes % 4096 = 0 := by
    have hbanks' : bytes % 16384 = 0 := hbanks
    omega
  refine Prog.wp_perform ?_ ?_
  · intro erased f₁ hd
    rcases erase_done hd with ⟨rfl, ha, rfl⟩ | ⟨rfl, hf₁⟩
    · rw [if_neg (not_not.mpr rfl)]
      have hstart : Writing (findGap P (UInt32.ofNat bytes) s.entries).toNat bytes f []
          (completed (.erase (findGap P (UInt32.ofNat bytes) s.entries).toNat bytes) f) := by
        refine ⟨Nat.zero_le _, fun i hi => if_neg hi, fun i hi => absurd hi (Nat.not_lt_zero i),
          fun i _ hi => if_pos ?_⟩
        constructor <;> omega
      refine sha256_wp ?_ (.stopped hok hstart.outside) (.cut hok hstart.outside)
      rw [if_pos rfl, Prog.wp_bind]
      refine Prog.wp_mono ?_ ?_ (writeChunks_wp reader ha.1 hb 0 [] hstart)
      · intro r f' hr
        cases r with
        | none => exact .stopped hok hr
        | some data =>
          obtain ⟨hdata, hlen, hw⟩ := hr
          exact sha256_wp (addRom_wp hok hdata hlen hw) (.stopped hok hw.outside) (.cut hok hw.outside)
      · intro f' hf'
        exact .cut hok hf'
    · refine .stopped hok fun i hi => ?_
      rcases hf₁ with rfl | hf₁
      · rfl
      · exact hf₁.other i hi
  · intro f₁ hc
    refine .cut hok fun i hi => cut_other hc hi

/-! ## Deleting and renaming -/

/-- How an operation that publishes a changed catalog can end: refused, done with nothing to change
(`same`), or with the publication of a catalog in `target`. -/
inductive Changed (P : Partition) (torn : Flash → Flash → Flash → Prop)
    (same : Prop) (target : List RomEntry → Prop) (s : Catalog)
    (f : Flash) : Option (Bool × Catalog) → Flash → Prop where
  | refused : Changed P torn same target s f (some (false, s)) f
  | same (h : same) : Changed P torn same target s f (some (true, s)) f
  | published {entries : List RomEntry} {out : Option (Bool × Catalog)} {f' : Flash} (hpart : s.partition = true)
      (hreload : s.needsReload = false) (hto : target entries)
      (h : Published P torn entries (unmapSelected s) f out f') :
      Changed P torn same target s f out f'

theorem publish_changed {same : Prop} {target : List RomEntry → Prop} {entries : List RomEntry}
    (hpart : s.partition = true) (hreload : s.needsReload = false) (hto : target entries) :
    (publishDirectory P entries (unmapSelected s)).wp (flashDevice P torn)
      (fun r => Changed P torn same target s f (some r)) (Changed P torn same target s f none) f :=
  Prog.wp_mono (fun _ _ h => .published hpart hreload hto h) (fun _ h => .published hpart hreload hto h)
    (publishDirectory_wp P torn entries _ f)

/-- The catalogs a deletion publishes. -/
def Deleting (index : Nat) (s : Catalog) (entries : List RomEntry) : Prop :=
  index < s.entries.length ∧ entries = s.entries.eraseIdx index

theorem gbStorageDelete_wp (P : Partition) (torn : Flash → Flash → Flash → Prop) (index : Nat)
    (s : Catalog) (f : Flash) :
    (gbStorageDelete P index s).wp (flashDevice P torn)
      (fun r => Changed P torn False (Deleting index s) s f (some r))
      (Changed P torn False (Deleting index s) s f none) f := by
  unfold gbStorageDelete
  split
  · exact .refused
  · rename_i h
    simp only [not_or, not_not, Nat.not_le] at h
    exact publish_changed h.1 (eq_false_of_ne_true h.2.1) ⟨h.2.2, rfl⟩

/-- The renamed entry. -/
def renamedEntry (name : List UInt8) (e : RomEntry) : RomEntry := { e with name := padName name }

/-- The catalogs a renaming publishes, and when there is nothing to change. -/
def Renaming (index : Nat) (name : List UInt8) (s : Catalog) (entries : List RomEntry) : Prop :=
  validName name (some index) s.entries = true ∧
    ∃ e, s.entries[index]? = some e ∧ entries = s.entries.set index (renamedEntry name e)

def SameName (index : Nat) (name : List UInt8) (s : Catalog) : Prop :=
  ∃ e, s.entries[index]? = some e ∧ cstr e.name.toList = cstr name

theorem gbStorageRename_wp (P : Partition) (torn : Flash → Flash → Flash → Prop) (index : Nat)
    (name : List UInt8)
    (s : Catalog) (f : Flash) : (gbStorageRename P index name s).wp (flashDevice P torn)
      (fun r => Changed P torn (SameName index name s) (Renaming index name s) s f (some r))
      (Changed P torn (SameName index name s) (Renaming index name s) s f none) f := by
  unfold gbStorageRename
  split
  · exact .refused
  · rename_i h
    simp only [not_or, not_not, Nat.not_le] at h
    cases he : s.entries[index]? with
    | none => exact .refused
    | some e =>
      dsimp only
      split
      · rename_i hname
        exact .same ⟨e, he, hname⟩
      · exact publish_changed h.1 (eq_false_of_ne_true h.2.1) ⟨h.2.2.2, e, he, rfl⟩

/-! ## Loading -/

/-- The checked directory of a slot. -/
def slotDirectory (P : Partition) (f : Flash) (slot : Nat) : Option Directory := checkDirectory P (slotAt P f slot)

/-- The slot `gb_storage_init` selects. -/
def newestSlot : (d₀ d₁ : Option Directory) → Option (Nat × Directory)
  | none, none => none
  | some d₀, none => some (0, d₀)
  | none, some d₁ => some (1, d₁)
  | some d₀, some d₁ => if newer d₁.generation d₀.generation then some (1, d₁) else some (0, d₀)

/-- The catalog loaded from a directory slot. -/
def slotCatalog (slot : Nat) (d : Directory) : Catalog :=
  { partition := true, entries := d.entries.toList.take d.count.toNat, directorySlot := some slot
    generation := d.generation, catalogTrusted := true }

/-- The entries of the legacy table. -/
def legacyEntries (f : Flash) (count : Nat) : List RomEntry :=
  (List.range count).map fun k => romEntryCodec.get fun i => f (romHeaderCodec.size + (k * romEntryCodec.size + i))

/-- The catalog loaded when neither slot holds a directory: the legacy table, or none. -/
def legacyCatalog (P : Partition) (f : Flash) : Option Catalog :=
  let header := romHeaderCodec.get fun i => f (0 + i)
  let count := header.count.toNat
  if header.magic ≠ legacyMagic ∨ header.version ≠ 1 ∨ header.count = 0 ∨ GB_STORAGE_MAX_ROMS < count then
    some { partition := true }
  else if ¬ entriesValid (legacyEntries f count) count (dataEnd P) then none
  else some { partition := true, entries := legacyEntries f count, catalogTrusted := true }

/-- What `gb_storage_init` loads when it finds these directories in the slots. -/
def reloadWith (P : Partition) (f : Flash) (d₀ d₁ : Option Directory) : Option Catalog :=
  match newestSlot d₀ d₁ with
  | some (slot, d) => some (slotCatalog slot d)
  | none => legacyCatalog P f

/-- What a `gb_storage_init` whose reads and hashes all succeed loads, if it accepts the partition. -/
def reload (P : Partition) (f : Flash) : Option Catalog :=
  if ¬ (slotReadable P 0 ∧ slotReadable P 1) then none
  else reloadWith P f (slotDirectory P f 0) (slotDirectory P f 1)

/-- The directory found in a slot: what it holds, or nothing because its hash could not be computed. -/
inductive SlotFound (P : Partition) (ok : Answers) (f : Flash) (slot : Nat) : Option Directory → Prop where
  | checked : SlotFound P ok f slot (slotDirectory P f slot)
  | unhashed (h : ok (.sha256 (slotHashed P f slot)) f false) : SlotFound P ok f slot none

/-- The directory that is to be selected can be hashed. -/
def HashesNewest (P : Partition) : Answers
  | .sha256 bytes, f, r => (∃ slot d, newestSlot (slotDirectory P f 0) (slotDirectory P f 1) = some (slot, d) ∧
      bytes = slotHashed P f slot) → r = true
  | _, _, _ => True

end FoloGameboy

/-
Publishing a directory is atomic: whatever fails and wherever the power is cut, the next
`gb_storage_init` loads the catalog from before or the published one.
-/
import FoloGameboy.Storage.Load

namespace FoloGameboy

open Effect

variable {P : Partition} {s l : Catalog} {f f' : Flash} {entries : List RomEntry} {out : Option (Bool × Catalog)}

/-! ## Torn slots -/

def DigestOK (P : Partition) (d : Directory) : Prop := P.sha256 (hashedBytes d.toDirectoryHead) = d.digest

/-- The assumption on torn slots: a slot still holds what it held, or already what it was to hold, or
its digest does not match. -/
def slotsTorn (P : Partition) (f g f' : Flash) : Prop :=
  ∀ slot < 2, slotAt P f' slot = slotAt P f slot ∨ slotAt P f' slot = slotAt P g slot ∨ ¬ DigestOK P (slotAt P f' slot)

theorem slotDirectory_torn {slot : Nat} (h : ¬ DigestOK P (slotAt P f slot)) :
    slotDirectory P f slot = none := by
  refine if_neg ?_
  rw [Bool.and_eq_true, decide_eq_true_eq]
  exact fun hc => h hc.2

theorem slotAt_congr {slot : Nat}
    (h : ∀ i < directoryCodec.size, f' ((slotOffset P slot).toNat + i) =
      f ((slotOffset P slot).toNat + i)) :
    slotAt P f' slot = slotAt P f slot :=
  directoryCodec.get_congr h

/-- A slot in an erased sector holds nothing. -/
theorem slotDirectory_erased {slot : Nat}
    (h : ∀ i < directoryCodec.size, f ((slotOffset P slot).toNat + i) = 0xFF) :
    slotDirectory P f slot = none := by
  have hmagic : (slotAt P f slot).magic ≠ directoryMagic := by
    intro hm
    have hfirst : (slotAt P f slot).magic[0] = f ((slotOffset P slot).toNat + 0) := by
      show (Vector.ofFn _)[0] = _
      rw [Vector.getElem_ofFn]
      rfl
    rw [hm, h 0 (by decide)] at hfirst
    exact absurd hfirst (by decide)
  refine checkDirectory_unshaped ?_
  unfold directoryShaped
  rw [Bool.and_eq_true, decide_eq_true_eq]
  exact fun hc => hmagic hc.1

/-! ## The published directory -/

theorem newDirectory_count {g : UInt32} (hlen : entries.length ≤ GB_STORAGE_MAX_ROMS) :
    (newDirectory P g entries).count.toNat = entries.length := by
  have hmax : entries.length ≤ 16 := hlen
  show (UInt16.ofNat entries.length).toNat = entries.length
  rw [UInt16.toNat_ofNat', Nat.mod_eq_of_lt (by omega)]

/-- The published directory lists the published entries. -/
theorem newDirectory_entries {g : UInt32} (hlen : entries.length ≤ GB_STORAGE_MAX_ROMS) :
    (newDirectory P g entries).entries.toList.take (newDirectory P g entries).count.toNat = entries := by
  rw [newDirectory_count hlen]
  refine List.ext_getElem ?_ ?_
  · rw [List.length_take, Vector.length_toList, Nat.min_eq_left hlen]
  · intro i h₁ h₂
    rw [List.getElem_take, Vector.getElem_toList]
    show (Vector.ofFn _)[i] = _
    rw [Vector.getElem_ofFn, List.getD_eq_getElem _ _ h₂]

theorem checkDirectory_new (P : Partition) (g : UInt32) (entries : List RomEntry) :
    checkDirectory P (newDirectory P g entries) = none ∨
      checkDirectory P (newDirectory P g entries) = some (newDirectory P g entries) := by
  unfold checkDirectory
  split
  · exact .inr rfl
  · exact .inl rfl

theorem slotCatalog_new {slot : Nat} (hlen : entries.length ≤ GB_STORAGE_MAX_ROMS)
    (hslot : slot = otherSlot l)
    (hl : l.partition = true ∧ l.selected = none ∧ l.mapped = false ∧ l.directoryReadError = false) :
    slotCatalog slot (newDirectory P (l.generation + 1) entries) = committed entries l := by
  obtain ⟨hp, hs, hm, he⟩ := hl
  unfold slotCatalog committed
  rw [newDirectory_entries hlen, hslot, hp, hs, hm, he]
  rfl

/-! ## What publishing does to the Flash -/

theorem writeSlot_addressed {slot : Nat} {dir : Directory} (ha : accepted P (eraseSlot P slot)) {i : Nat}
    (h : addressed (writeSlot P slot dir) i) : InRegion (slotOffset P slot).toNat 4096 i := by
  have halign : (slotOffset P slot).toNat % 4096 = 0 := ha.1
  have hrange : (slotOffset P slot).toNat / 4096 ≤ i / 4096 ∧
      i / 4096 ≤ ((slotOffset P slot).toNat + (directoryCodec.bytes dir).length - 1) / 4096 := h
  rw [Codec.length_bytes, directoryCodec_size] at hrange
  unfold InRegion
  omega

theorem erasedFlash_outside (P : Partition) (s : Catalog) (f : Flash) :
    SameOutside (slotOffset P (otherSlot s)).toNat 4096 f (erasedFlash P s f) :=
  fun _ hi => completed_other (eraseSlot P (otherSlot s)) hi

theorem writtenFlash_outside (ha : accepted P (eraseSlot P (otherSlot s))) :
    SameOutside (slotOffset P (otherSlot s)).toNat 4096 f (writtenFlash P entries s f) := by
  intro i hi
  refine (completed_other (writeSlot P (otherSlot s) _) fun h => hi (writeSlot_addressed ha h)).trans ?_
  exact erasedFlash_outside P s f i hi

theorem writeSlot_outside {torn : Flash → Flash → Flash → Prop} {dir : Directory}
    (ha : accepted P (eraseSlot P (otherSlot s)))
    (h : f' = erasedFlash P s f ∨ Harmed P torn (writeSlot P (otherSlot s) dir) (erasedFlash P s f) f') :
    SameOutside (slotOffset P (otherSlot s)).toNat 4096 f f' := by
  intro i hi
  rcases h with rfl | h
  · exact erasedFlash_outside P s f i hi
  · exact (h.other i fun hw => hi (writeSlot_addressed ha hw)).trans (erasedFlash_outside P s f i hi)

theorem eraseSlot_outside {torn : Flash → Flash → Flash → Prop}
    (h : f' = f ∨ Harmed P torn (eraseSlot P (otherSlot s)) f f') :
    SameOutside (slotOffset P (otherSlot s)).toNat 4096 f f' := by
  intro i hi
  rcases h with rfl | h
  · rfl
  · exact h.other i hi

/-- Publishing touches the sector of the other slot only. -/
theorem Published.outside {torn : Flash → Flash → Flash → Prop} (h : Published P torn entries s f out f') :
    SameOutside (slotOffset P (otherSlot s)).toNat 4096 f f' := by
  cases h with
  | cut => exact fun _ _ => rfl
  | unprepared => exact fun _ _ => rfl
  | eraseFailed h => exact eraseSlot_outside h
  | eraseCut h => exact eraseSlot_outside h
  | writeFailed ha h => exact writeSlot_outside ha h
  | writeCut ha h => exact writeSlot_outside ha h
  | verifyCut ha => exact writtenFlash_outside ha
  | unread ha => exact writtenFlash_outside ha
  | unverified ha => exact writtenFlash_outside ha
  | committed ha hv => exact writtenFlash_outside ha

theorem erasedFlash_slot (P : Partition) (s : Catalog) (f : Flash) :
    slotDirectory P (erasedFlash P s f) (otherSlot s) = none := by
  refine slotDirectory_erased fun i hi => if_pos ?_
  have hlt : i < 1196 := hi
  have hsector : SECTOR_BYTES.toNat = 4096 := rfl
  rw [hsector]
  constructor <;> omega

/-- After a completed write the slot holds the new directory. -/
theorem writtenFlash_slot (P : Partition) (entries : List RomEntry) (s : Catalog) (f : Flash) :
    slotAt P (writtenFlash P entries s f) (otherSlot s) = nextDirectory P entries s := by
  refine directoryCodec.get_put fun i hi => ?_
  have hlt : i < 1196 := hi
  have herased : erasedFlash P s f ((slotOffset P (otherSlot s)).toNat + i) = 0xFF := by
    refine if_pos ?_
    have hsector : SECTOR_BYTES.toNat = 4096 := rfl
    rw [hsector]
    constructor <;> omega
  have hwritten : writtenFlash P entries s f ((slotOffset P (otherSlot s)).toNat + i) =
      erasedFlash P s f ((slotOffset P (otherSlot s)).toNat + i) &&&
        (directoryCodec.bytes (nextDirectory P entries s)).getD
          ((slotOffset P (otherSlot s)).toNat + i - (slotOffset P (otherSlot s)).toNat) 0 := by
    refine if_pos ?_
    rw [Codec.length_bytes, directoryCodec_size]
    constructor <;> omega
  rw [hwritten, herased, Nat.add_sub_cancel_left, directoryCodec.bytes_getD _ hi]
  exact (UInt8.and_comm _ _).trans UInt8.and_neg_one

/-- What the target slot can hold after publishing: what it held, nothing, or the new directory. -/
inductive SlotAfter (P : Partition) (slot : Nat) (d : Directory) (f f' : Flash) : Prop where
  | same (h : slotDirectory P f' slot = slotDirectory P f slot)
  | empty (h : slotDirectory P f' slot = none)
  | new (h : slotDirectory P f' slot = some d)

theorem otherSlot_lt (s : Catalog) : otherSlot s < 2 := by
  unfold otherSlot
  split <;> decide

theorem slotAfter_new (h : slotAt P f' (otherSlot s) = nextDirectory P entries s) :
    SlotAfter P (otherSlot s) (nextDirectory P entries s) f f' := by
  unfold nextDirectory at h
  rcases checkDirectory_new P (s.generation + 1) entries with hc | hc
  · exact .empty (by unfold slotDirectory; rw [h]; exact hc)
  · exact .new (by unfold slotDirectory; rw [h]; exact hc)

theorem eraseSlot_slot (h : f' = f ∨ Harmed P (slotsTorn P) (eraseSlot P (otherSlot s)) f f')
    {d : Directory} :
    SlotAfter P (otherSlot s) d f f' := by
  rcases h with rfl | h
  · exact .same rfl
  · rcases h.torn (otherSlot s) (otherSlot_lt s) with h | h | h
    · exact .same (congrArg (checkDirectory P) h)
    · exact .empty ((congrArg (checkDirectory P) h).trans (erasedFlash_slot P s f))
    · exact .empty (slotDirectory_torn h)

theorem writeSlot_slot
    (h : f' = erasedFlash P s f ∨
      Harmed P (slotsTorn P) (writeSlot P (otherSlot s) (nextDirectory P entries s))
        (erasedFlash P s f) f') :
    SlotAfter P (otherSlot s) (nextDirectory P entries s) f f' := by
  rcases h with rfl | h
  · exact .empty (erasedFlash_slot P s f)
  · rcases h.torn (otherSlot s) (otherSlot_lt s) with h | h | h
    · exact .empty ((congrArg (checkDirectory P) h).trans (erasedFlash_slot P s f))
    · exact slotAfter_new (h.trans (writtenFlash_slot P entries s f))
    · exact .empty (slotDirectory_torn h)

theorem Published.slot (h : Published P (slotsTorn P) entries s f out f') :
    SlotAfter P (otherSlot s) (nextDirectory P entries s) f f' := by
  cases h with
  | cut => exact .same rfl
  | unprepared => exact .same rfl
  | eraseFailed h => exact eraseSlot_slot h
  | eraseCut h => exact eraseSlot_slot h
  | writeFailed ha h => exact writeSlot_slot h
  | writeCut ha h => exact writeSlot_slot h
  | verifyCut ha => exact slotAfter_new (writtenFlash_slot P entries s f)
  | unread ha => exact slotAfter_new (writtenFlash_slot P entries s f)
  | unverified ha => exact slotAfter_new (writtenFlash_slot P entries s f)
  | committed ha hv => exact slotAfter_new (writtenFlash_slot P entries s f)

/-! ## What is loaded afterwards -/

/-- What a loaded catalog comes from. -/
inductive LoadedFrom (P : Partition) (f : Flash) (l : Catalog) : Prop where
  | slot0 {d : Directory} (h₀ : slotDirectory P f 0 = some d)
      (h₁ : ∀ d₁, slotDirectory P f 1 = some d₁ → newer d₁.generation d.generation = false) (hl : l = slotCatalog 0 d)
  | slot1 {d : Directory} (h₁ : slotDirectory P f 1 = some d)
      (h₀ : ∀ d₀, slotDirectory P f 0 = some d₀ → newer d.generation d₀.generation = true) (hl : l = slotCatalog 1 d)
  | legacy (h₀ : slotDirectory P f 0 = none) (h₁ : slotDirectory P f 1 = none) (hl : legacyCatalog P f = some l)

theorem reload_iff : reload P f = some l ↔ (slotReadable P 0 ∧ slotReadable P 1) ∧ LoadedFrom P f l := by
  unfold reload reloadWith
  constructor
  · intro h
    split at h
    · cases h
    · rename_i hr
      refine ⟨not_not.mp hr, ?_⟩
      cases h₀ : slotDirectory P f 0 with
      | none =>
        cases h₁ : slotDirectory P f 1 with
        | none =>
          rw [h₀, h₁] at h
          exact .legacy h₀ h₁ h
        | some d₁ =>
          rw [h₀, h₁] at h
          exact .slot1 h₁ (fun d₀ hd => by rw [h₀] at hd; cases hd) (Option.some.inj h).symm
      | some d₀ =>
        cases h₁ : slotDirectory P f 1 with
        | none =>
          rw [h₀, h₁] at h
          exact .slot0 h₀ (fun d₁ hd => by rw [h₁] at hd; cases hd) (Option.some.inj h).symm
        | some d₁ =>
          rw [h₀, h₁] at h
          unfold newestSlot at h
          dsimp only at h
          -- two directories: the newer one, and slot 0 when neither is
          by_cases hn : newer d₁.generation d₀.generation = true
          · rw [if_pos hn] at h
            exact .slot1 h₁ (fun d hd => by rw [h₀] at hd; cases hd; exact hn) (Option.some.inj h).symm
          · rw [if_neg hn] at h
            exact .slot0 h₀ (fun d hd => by rw [h₁] at hd; cases hd; exact eq_false_of_ne_true hn)
              (Option.some.inj h).symm
  · rintro ⟨hr, h⟩
    rw [if_neg (not_not.mpr hr)]
    cases h with
    | @slot0 d h₀ h₁ hl =>
      rw [h₀, hl]
      cases hd : slotDirectory P f 1 with
      | none => rfl
      | some d₁ =>
        unfold newestSlot
        dsimp only
        rw [if_neg (by rw [h₁ d₁ hd]; exact Bool.false_ne_true)]
    | @slot1 d h₁ h₀ hl =>
      rw [h₁, hl]
      cases hd : slotDirectory P f 0 with
      | none => rfl
      | some d₀ =>
        unfold newestSlot
        dsimp only
        rw [if_pos (h₀ d₀ hd)]
    | legacy h₀ h₁ hl =>
      rw [h₀, h₁]
      exact hl

/-- A loaded catalog is open. -/
structure Loaded (l : Catalog) : Prop where
  partition : l.partition = true
  selected : l.selected = none
  mapped : l.mapped = false
  noError : l.directoryReadError = false
  opened : l.needsReload = false

theorem legacyCatalog_some (h : legacyCatalog P f = some l) : Loaded l ∧ l.directorySlot = none ∧
    l.generation = 0 ∧
    (l.entries = [] ∨ entriesValid l.entries l.entries.length (dataEnd P) = true) := by
  unfold legacyCatalog at h
  dsimp only at h
  split at h
  · obtain rfl := Option.some.inj h
    exact ⟨⟨rfl, rfl, rfl, rfl, rfl⟩, rfl, rfl, .inl rfl⟩
  · split at h
    · cases h
    · rename_i hv
      obtain rfl := Option.some.inj h
      refine ⟨⟨rfl, rfl, rfl, rfl, rfl⟩, rfl, rfl, .inr ?_⟩
      have hlen : (legacyEntries f (romHeaderCodec.get fun i => f (0 + i)).count.toNat).length =
          (romHeaderCodec.get fun i => f (0 + i)).count.toNat := by
        unfold legacyEntries
        rw [List.length_map, List.length_range]
      dsimp only
      rw [hlen]
      exact not_not.mp hv

theorem reload_loaded (h : reload P f = some l) : Loaded l := by
  cases (reload_iff.mp h).2 with
  | slot0 h₀ h₁ hl => exact hl ▸ ⟨rfl, rfl, rfl, rfl, rfl⟩
  | slot1 h₁ h₀ hl => exact hl ▸ ⟨rfl, rfl, rfl, rfl, rfl⟩
  | legacy h₀ h₁ hl => exact (legacyCatalog_some hl).1

theorem legacyCatalog_congr (h : ∀ i < 4096, f' i = f i) : legacyCatalog P f' = legacyCatalog P f := by
  have hheader : (romHeaderCodec.get fun i => f' (0 + i)) = romHeaderCodec.get fun i => f (0 + i) := by
    refine romHeaderCodec.get_congr fun i hi => h (0 + i) ?_
    have hlt : i < 8 := hi
    omega
  have hentries : ∀ count ≤ GB_STORAGE_MAX_ROMS, legacyEntries f' count = legacyEntries f count := by
    intro count hc
    refine List.map_congr_left fun k hk => romEntryCodec.get_congr fun i hi => h _ ?_
    have hk' := List.mem_range.mp hk
    have hi' : i < 72 := hi
    have hmax : count ≤ 16 := hc
    rw [romHeaderCodec_size, romEntryCodec_size]
    omega
  unfold legacyCatalog
  rw [hheader]
  dsimp only
  split
  · rfl
  · rename_i hn
    simp only [not_or, Nat.not_lt] at hn
    rw [hentries _ hn.2.2.2]

/-- An open catalog whose mapping is released is the one loaded. -/
structure InSync (s l : Catalog) : Prop where
  eq : unmapSelected s = l
  loaded : Loaded l

theorem InSync.otherSlot_eq {s l : Catalog} (h : InSync s l) : otherSlot s = otherSlot l := by
  rw [← h.eq]
  rfl

theorem InSync.generation_eq {s l : Catalog} (h : InSync s l) : s.generation = l.generation := by
  rw [← h.eq]
  rfl

theorem InSync.entries_eq {s l : Catalog} (h : InSync s l) : s.entries = l.entries := by
  rw [← h.eq]
  rfl

theorem InSync.committed {s l : Catalog} (h : InSync s l) (entries : List RomEntry) :
    InSync (FoloGameboy.committed entries s) (FoloGameboy.committed entries l) := by
  refine ⟨?_, h.loaded.partition, h.loaded.selected, h.loaded.mapped, h.loaded.noError, rfl⟩
  rw [← h.eq]
  rfl

section
variable (hr : slotReadable P 0) (hout : SameOutside (slotOffset P (otherSlot l)).toNat 4096 f f')

include hr hout

/-- The slot in use keeps its directory. -/
theorem usedSlot_congr {slot : Nat} (hslot : slot < 2) (hne : slot ≠ otherSlot l) :
    slotDirectory P f' slot = slotDirectory P f slot := by
  obtain ⟨-, h0, h1⟩ := slot_geometry hr
  refine congrArg (checkDirectory P) (slotAt_congr fun i hi => hout _ ?_)
  have hlt : i < 1196 := hi
  have hother := otherSlot_lt l
  unfold InRegion
  obtain rfl | rfl : slot = 0 ∨ slot = 1 := by omega
  · have hslot : otherSlot l = 1 := by omega
    rw [hslot, h0, h1]
    omega
  · have hslot : otherSlot l = 0 := by omega
    rw [hslot, h0, h1]
    omega

theorem legacyCatalog_kept (hdata : 4096 ≤ (dataEnd P).toNat) : legacyCatalog P f' = legacyCatalog P f := by
  obtain ⟨-, h0, h1⟩ := slot_geometry hr
  refine legacyCatalog_congr fun i hi => hout i ?_
  have hother := otherSlot_lt l
  unfold InRegion
  obtain hslot | hslot : otherSlot l = 0 ∨ otherSlot l = 1 := by omega
  · rw [hslot, h0]
    omega
  · rw [hslot, h1]
    omega

end

section
variable (hl : reload P f = some l) (hdata : 4096 ≤ (dataEnd P).toNat)
  (hout : SameOutside (slotOffset P (otherSlot l)).toNat 4096 f f')

include hl hdata hout

/-- While the other slot is as it was or empty, the catalog is loaded again. -/
theorem reload_kept (hslot : slotDirectory P f' (otherSlot l) = slotDirectory P f (otherSlot l) ∨
    slotDirectory P f' (otherSlot l) = none) : reload P f' = some l := by
  obtain ⟨hr, hfrom⟩ := reload_iff.mp hl
  have hkept : ∀ {Q : Directory → Prop}, (∀ d, slotDirectory P f (otherSlot l) = some d → Q d) →
      ∀ d, slotDirectory P f' (otherSlot l) = some d → Q d := by
    intro Q hQ d hd
    rcases hslot with h | h
    · exact hQ d (h.symm.trans hd)
    · rw [h] at hd
      cases hd
  have hused :=
    fun (slot : Nat) (hslot : slot < 2) (hne : slot ≠ otherSlot l) => usedSlot_congr hr.1 hout hslot
      hne
  refine reload_iff.mpr ⟨hr, ?_⟩
  -- the catalog comes from the slot that is not touched, or from neither
  cases hfrom with
  | slot0 h₀ h₁ hl' =>
    have ht : otherSlot l = 1 := by rw [hl']; rfl
    rw [ht] at hkept hused
    exact .slot0 ((hused 0 (by decide) (by decide)).trans h₀) (hkept h₁) hl'
  | slot1 h₁ h₀ hl' =>
    have ht : otherSlot l = 0 := by rw [hl']; rfl
    rw [ht] at hkept hused
    exact .slot1 ((hused 1 (by decide) (by decide)).trans h₁) (hkept h₀) hl'
  | legacy h₀ h₁ hl' =>
    have ht : otherSlot l = 0 := by
      unfold otherSlot
      rw [(legacyCatalog_some hl').2.1]
      rfl
    have h₀' : slotDirectory P f' 0 = none := by
      rw [ht] at hslot
      rcases hslot with h | h
      · exact h.trans h₀
      · exact h
    rw [ht] at hused
    exact .legacy h₀' ((hused 1 (by decide) (by decide)).trans h₁)
      ((legacyCatalog_kept hr.1 hout hdata).trans hl')

omit hdata in
/-- Once the other slot holds the next directory, that is what is loaded. -/
theorem reload_new (hlen : entries.length ≤ GB_STORAGE_MAX_ROMS)
    (hslot : slotDirectory P f' (otherSlot l) = some (newDirectory P (l.generation + 1) entries)) :
    reload P f' = some (committed entries l) := by
  obtain ⟨hr, hfrom⟩ := reload_iff.mp hl
  have hloaded := reload_loaded hl
  have hnew := fun (slot : Nat) (hslot : slot = otherSlot l) => slotCatalog_new (P := P) (l := l) hlen hslot
    ⟨hloaded.partition, hloaded.selected, hloaded.mapped, hloaded.noError⟩
  have hused :=
    fun (slot : Nat) (hslot : slot < 2) (hne : slot ≠ otherSlot l) => usedSlot_congr hr.1 hout hslot
      hne
  refine reload_iff.mpr ⟨hr, ?_⟩
  -- the next generation is newer than the one it replaces
  cases hfrom with
  | @slot0 d h₀ h₁ hl' =>
    have ht : otherSlot l = 1 := by rw [hl']; rfl
    have hgen : l.generation = d.generation := by rw [hl']; rfl
    rw [ht] at hslot hused
    refine .slot1 hslot ?_ (hnew 1 ht.symm).symm
    intro d₀ hd₀
    obtain rfl := Option.some.inj (h₀.symm.trans ((hused 0 (by decide) (by decide)).symm.trans hd₀))
    rw [hgen]
    exact newer_next _
  | @slot1 d h₁ h₀ hl' =>
    have ht : otherSlot l = 0 := by rw [hl']; rfl
    have hgen : l.generation = d.generation := by rw [hl']; rfl
    rw [ht] at hslot hused
    refine .slot0 hslot ?_ (hnew 0 ht.symm).symm
    intro d₁ hd₁
    obtain rfl := Option.some.inj (h₁.symm.trans ((hused 1 (by decide) (by decide)).symm.trans hd₁))
    rw [hgen]
    exact not_newer_previous _
  | legacy h₀ h₁ hl' =>
    have ht : otherSlot l = 0 := by
      unfold otherSlot
      rw [(legacyCatalog_some hl').2.1]
      rfl
    rw [ht] at hslot hused
    refine .slot0 hslot ?_ (hnew 0 ht.symm).symm
    intro d₁ hd₁
    rw [hused 1 (by decide) (by decide), h₁] at hd₁
    cases hd₁

end

/-- What a publication leaves: loaded again is the old catalog, or the published one. A publication
that reports success is loaded again; one that fails with the catalog still open has changed
nothing. -/
structure PublishedState (P : Partition) (entries : List RomEntry)
    (s l : Catalog) (out : Option (Bool × Catalog)) (f' : Flash) :
    Prop where
  either : reload P f' = some l ∨ reload P f' = some (committed entries l)
  confirmed : ∀ s', out = some (true, s') → s' = committed entries s ∧ reload P f' = some (committed entries l)
  failed : ∀ s', out = some (false, s') → s'.entries = s.entries ∧
    (s' = s ∧ reload P f' = some l ∨ s'.needsReload = true)

theorem Published.state (hl : reload P f = some l) (hs : InSync s l) (hdata : 4096 ≤ (dataEnd P).toNat)
    (hlen : entries.length ≤ GB_STORAGE_MAX_ROMS) (h : Published P (slotsTorn P) entries s f out f') :
    PublishedState P entries s l out f' := by
  have hout := h.outside
  have hafter := h.slot
  unfold nextDirectory at hafter
  rw [hs.otherSlot_eq] at hout
  rw [hs.otherSlot_eq, hs.generation_eq] at hafter
  have heither : reload P f' = some l ∨ reload P f' = some (FoloGameboy.committed entries l) := by
    cases hafter with
    | same hslot => exact .inl (reload_kept hl hdata hout (.inl hslot))
    | empty hslot => exact .inl (reload_kept hl hdata hout (.inr hslot))
    | new hslot => exact .inr (reload_new hl hout hlen hslot)
  refine ⟨heither, ?_, ?_⟩
  · rintro s' rfl
    cases h with
    | committed ha hv =>
      refine ⟨rfl, reload_new hl hout hlen ?_⟩
      unfold nextDirectory at hv
      rw [hs.otherSlot_eq, hs.generation_eq] at hv
      exact hv
  · rintro s' rfl
    cases h with
    | unprepared => exact ⟨rfl, .inl ⟨rfl, hl⟩⟩
    | eraseFailed he =>
      refine ⟨rfl, .inl ⟨rfl, reload_kept hl hdata hout ?_⟩⟩
      rw [← hs.otherSlot_eq]
      rcases he with rfl | he
      · exact .inl rfl
      · rcases he.torn (otherSlot s) (otherSlot_lt s) with ht | ht | ht
        · exact .inl (congrArg (checkDirectory P) ht)
        · exact .inr ((congrArg (checkDirectory P) ht).trans (erasedFlash_slot P s f))
        · exact .inr (slotDirectory_torn ht)
    | writeFailed ha he => exact ⟨rfl, .inr rfl⟩
    | unread ha => exact ⟨rfl, .inr rfl⟩
    | unverified ha => exact ⟨rfl, .inr rfl⟩

end FoloGameboy

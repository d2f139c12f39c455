/-
Advertised free space: `find_gap` succeeds exactly on the sizes `gb_storage_available` promises. The
scan of one finds the longest gap, the jumps of the other skip none, and the quota is never the tighter
bound because the regions of a catalog are disjoint.
-/
import FoloGameboy.Storage.Gap
import Mathlib.Order.Interval.Finset.Nat

namespace FoloGameboy

variable {P : Partition} {entries : List RomEntry}

/-! ## The longest gap -/

theorem freeUntil_inl {start stop next : UInt32} (h : freeUntil start stop entries = .inl next) :
    ∃ e ∈ entries, next = e.offset + e.size ∧ e.offset ≤ start := by
  induction entries generalizing stop with
  | nil => cases h
  | cons e entries ih =>
    unfold freeUntil at h
    split at h
    · rename_i hin
      exact ⟨e, by simp, (Sum.inl.inj h).symm, hin.1⟩
    · obtain ⟨e', he', hnext⟩ := ih h
      exact ⟨e', by simp [he'], hnext⟩

/-- The scan stops where it may go no further, or at an entry. -/
theorem freeUntil_stop {start stop stop' : UInt32} (h : freeUntil start stop entries = .inr stop') :
    stop' = stop ∨ ∃ e ∈ entries, stop' = e.offset := by
  induction entries generalizing stop with
  | nil => exact .inl (Sum.inr.inj h).symm
  | cons e entries ih =>
    unfold freeUntil at h
    split at h
    · cases h
    · rcases ih h with hstop | ⟨e', he', hstop⟩
      · split at hstop
        · exact .inr ⟨e, by simp, hstop⟩
        · exact .inl hstop
      · exact .inr ⟨e', by simp [he'], hstop⟩

theorem le_longestGap (start best : UInt32) : best ≤ longestGap P entries start best := by
  unfold longestGap
  split
  · rename_i hlt
    have hbeyond := freeUntil_beyond entries hlt
    split
    · rename_i next hfree
      rw [hfree] at hbeyond
      have hgt := UInt32.lt_iff_toNat_lt.mp hbeyond
      exact le_longestGap next best
    · rename_i stop hfree
      rw [hfree] at hbeyond
      have hgt := UInt32.lt_iff_toNat_lt.mp hbeyond
      refine UInt32.le_trans ?_ (le_longestGap stop _)
      split
      · rename_i hbetter
        exact UInt32.le_of_lt hbetter
      · exact UInt32.le_refl _
  · exact UInt32.le_refl _
termination_by UInt32.size - start.toNat
decreasing_by
  all_goals
    have := start.toNat_lt
    simp only [UInt32.size]
    omega

/-- No free region ahead of the scan is longer than what it reports. -/
theorem longestGap_longest (hok : ∀ e ∈ entries, RegionOK (dataEnd P) e) {g n : Nat} (hpos : 0 < n)
    (hhigh : g + n ≤ (dataEnd P).toNat)
    (hfree : FreeAt entries g n) (start best : UInt32) (hle : start.toNat ≤ g) :
    n ≤ (longestGap P entries start best).toNat := by
  have hlt : start < dataEnd P := UInt32.lt_iff_toNat_lt.mpr (by omega)
  have hbeyond := freeUntil_beyond entries hlt
  unfold longestGap
  rw [dif_pos hlt]
  split
  · -- inside an entry: the gap starts after it
    rename_i next hscan
    rw [hscan] at hbeyond
    have hgt := UInt32.lt_iff_toNat_lt.mp hbeyond
    obtain ⟨e, he, hnext, hin⟩ := freeUntil_inl hscan
    have hstop : next.toNat = e.stop := by rw [hnext, (hok e he).toNat_stop]
    rw [UInt32.le_iff_toNat_le] at hin
    have hafter : next.toNat ≤ g := by
      rcases hfree e he with h | h
      · omega
      · omega
    exact longestGap_longest hok hpos hhigh hfree next best hafter
  · rename_i stop hscan
    rw [hscan] at hbeyond
    have hgt := UInt32.lt_iff_toNat_lt.mp hbeyond
    -- the region lies in this gap, or behind it
    have hwhere : g + n ≤ stop.toNat ∨ stop.toNat ≤ g := by
      rcases freeUntil_stop hscan with hstop | ⟨e, he, hstop⟩
      · rw [hstop]
        exact .inl hhigh
      · rw [hstop]
        rcases hfree e he with h | h
        · exact .inl h
        · unfold RomEntry.stop at h
          exact .inr (by omega)
    rcases hwhere with hinside | hafter
    · have hlen : n ≤ (stop - start).toNat := by
        rw [UInt32.toNat_sub_of_le _ _ (UInt32.le_of_lt hbeyond)]
        omega
      refine Nat.le_trans ?_ (UInt32.le_iff_toNat_le.mp (le_longestGap stop _))
      split
      · exact hlen
      · rename_i hbest
        exact Nat.le_trans hlen (UInt32.le_iff_toNat_le.mp (UInt32.not_lt.mp hbest))
    · exact longestGap_longest hok hpos hhigh hfree stop _ hafter
termination_by UInt32.size - start.toNat
decreasing_by
  all_goals
    have := start.toNat_lt
    simp only [UInt32.size]
    omega

/-! ## The quota -/

/-- The places that a list of regions, each a start and a length, takes. -/
def occupied (regions : List (Nat × Nat)) : Finset Nat :=
  regions.foldr (fun r taken => Finset.Ico r.1 (r.1 + r.2) ∪ taken) ∅

theorem mem_occupied {regions : List (Nat × Nat)} {i : Nat} : i ∈ occupied regions ↔ ∃ r ∈ regions,
    r.1 ≤ i ∧ i < r.1 + r.2 := by
  induction regions with
  | nil => simp [occupied]
  | cons r regions ih =>
    have hcons : occupied (r :: regions) = Finset.Ico r.1 (r.1 + r.2) ∪ occupied regions := rfl
    simp [hcons, ih]

/-- Disjoint regions take as many places as they are long together. -/
theorem card_occupied {regions : List (Nat × Nat)}
    (h : regions.Pairwise fun r r' => r.1 + r.2 ≤ r'.1 ∨ r'.1 + r'.2 ≤ r.1) :
    (occupied regions).card = (regions.map Prod.snd).sum := by
  induction h with
  | nil => rfl
  | @cons r regions hr _ ih =>
    have hcons : occupied (r :: regions) = Finset.Ico r.1 (r.1 + r.2) ∪ occupied regions := rfl
    have hdisjoint : Disjoint (Finset.Ico r.1 (r.1 + r.2)) (occupied regions) := by
      rw [Finset.disjoint_left]
      intro i hi hi'
      obtain ⟨r', hr', hlow, hhigh⟩ := mem_occupied.mp hi'
      rw [Finset.mem_Ico] at hi
      have := hr r' hr'
      omega
    rw [hcons, Finset.card_union_of_disjoint hdisjoint, Nat.card_Ico, ih, List.map_cons, List.sum_cons]
    omega

/-- Disjoint regions inside `[low, high)` are no longer than it. -/
theorem sum_le_of_disjoint {regions : List (Nat × Nat)}
    (h : regions.Pairwise fun r r' => r.1 + r.2 ≤ r'.1 ∨ r'.1 + r'.2 ≤ r.1)
    {low high : Nat} (hin : ∀ r ∈ regions, low ≤ r.1 ∧ r.1 + r.2 ≤ high) :
    (regions.map Prod.snd).sum ≤ high - low := by
  rw [← card_occupied h, ← Nat.card_Ico]
  refine Finset.card_le_card fun i hi => ?_
  obtain ⟨r, hr, hlow, hhigh⟩ := mem_occupied.mp hi
  have := hin r hr
  rw [Finset.mem_Ico]
  omega

def RomEntry.span (e : RomEntry) : Nat × Nat := (e.offset.toNat, e.size.toNat)

/-- A free region is no longer than what the entries leave of the data area. -/
theorem used_le (h : CatalogOK (dataEnd P) entries) {s : Catalog} (hs : s.entries = entries)
    {offset : UInt32} {bytes : Nat}
    (hgap : GapFound P entries bytes offset) : gbStorageUsed s + bytes ≤ (dataEnd P).toNat - 4096 := by
  have hok : ∀ e ∈ entries, RegionOK (dataEnd P) e := fun e he => entryValid_region (h.entry e he)
  have hspans : (entries.map RomEntry.span).Pairwise fun r r' => r.1 + r.2 ≤ r'.1 ∨ r'.1 + r'.2 ≤ r.1 := by
    rw [List.pairwise_map]
    exact h.apart.imp_of_mem fun {e e'} he he' hapart => hapart.disjoint (hok e he) (hok e' he')
  have hsum := @sum_le_of_disjoint ((offset.toNat, bytes) :: entries.map RomEntry.span) ?_ 4096
    (dataEnd P).toNat ?_
  · unfold gbStorageUsed
    rw [hs]
    rw [List.map_cons, List.sum_cons, List.map_map] at hsum
    have hused : Prod.snd ∘ RomEntry.span = fun e => e.size.toNat := rfl
    rw [hused] at hsum
    dsimp only at hsum
    omega
  · refine List.pairwise_cons.mpr ⟨?_, hspans⟩
    intro r hr
    obtain ⟨e, he, rfl⟩ := List.mem_map.mp hr
    exact hgap.free e he
  · intro r hr
    rcases List.mem_cons.mp hr with rfl | hr
    · exact ⟨hgap.low, hgap.high⟩
    · obtain ⟨e, he, rfl⟩ := List.mem_map.mp hr
      exact ⟨(hok e he).low, (hok e he).high⟩

theorem used_banks (hok : ∀ e ∈ entries, RegionOK (dataEnd P) e) {s : Catalog} (hs : s.entries = entries) :
    gbStorageUsed s % ROM_BANK_BYTES = 0 := by
  unfold gbStorageUsed
  rw [hs]
  clear hs
  induction entries with
  | nil => rfl
  | cons e entries ih =>
    have he := (hok e (by simp)).banks
    have hrest := ih fun e' he' => hok e' (by simp [he'])
    rw [List.map_cons, List.sum_cons]
    unfold ROM_BANK_BYTES at *
    omega

/-- A gap of whole banks is available: the longest gap is no shorter, and neither is what the quota
leaves. -/
theorem gap_available (h : CatalogOK (dataEnd P) entries) (hsize : 3 * SECTOR_BYTES < P.size)
    {s : Catalog} (hpart : s.partition = true)
    (hs : s.entries = entries) {offset : UInt32} {bytes : Nat} (hmin : 32768 ≤ bytes)
    (hbanks : bytes % ROM_BANK_BYTES = 0)
    (hgap : GapFound P entries bytes offset) : bytes ≤ gbStorageAvailable P s := by
  have hok : ∀ e ∈ entries, RegionOK (dataEnd P) e := fun e he => entryValid_region (h.entry e he)
  have hbest := longestGap_longest hok (by omega) hgap.high hgap.free SECTOR_BYTES 0 hgap.low
  have hused := used_le h hs hgap
  have husedBanks := used_banks hok hs
  -- the data area starts behind the first sector
  have hend : (dataEnd P).toNat - 4096 = (P.size - 3 * SECTOR_BYTES).toNat := by
    have hlt := UInt32.lt_iff_toNat_lt.mp hsize
    have h3 : (3 * SECTOR_BYTES).toNat = 12288 := rfl
    have h2 : (2 * SECTOR_BYTES).toNat = 8192 := rfl
    unfold dataEnd
    rw [UInt32.toNat_sub_of_le _ _ (UInt32.le_of_lt hsize),
      UInt32.toNat_sub_of_le _ _ (UInt32.le_iff_toNat_le.mpr (by omega))]
    omega
  have hlimit : gbStorageLimit P s = (P.size - 3 * SECTOR_BYTES).toNat / ROM_BANK_BYTES *
      ROM_BANK_BYTES := by
    unfold gbStorageLimit
    rw [if_neg]
    simpa [hpart] using hsize
  -- what is used and the gap are whole banks, so rounding loses nothing
  have hfits : gbStorageUsed s + bytes ≤ gbStorageLimit P s := by
    rw [hlimit]
    unfold ROM_BANK_BYTES at *
    omega
  unfold gbStorageAvailable
  rw [if_neg (by simp [hpart]), hs]
  dsimp only
  rw [if_neg (by omega)]
  generalize (longestGap P entries SECTOR_BYTES 0).toNat = best at hbest ⊢
  have hle : bytes ≤ (if best < gbStorageLimit P s - gbStorageUsed s then best
      else gbStorageLimit P s - gbStorageUsed s) := by
    split
    · exact hbest
    · omega
  generalize (if best < gbStorageLimit P s - gbStorageUsed s then best else gbStorageLimit P s -
    gbStorageUsed s) = room at hle ⊢
  have hroom : bytes ≤ room / ROM_BANK_BYTES * ROM_BANK_BYTES := by
    unfold ROM_BANK_BYTES at *
    omega
  rw [if_pos (by omega)]
  exact hroom

/-! ## What `find_gap` returns -/

/-- A candidate that is not 0 is free, as long as its end does not wrap. -/
theorem findGapFrom_free (hok : ∀ e ∈ entries, RegionOK (dataEnd P) e) {bytes : UInt32}
    (hwrap : (dataEnd P).toNat + bytes.toNat < 2 ^ 32)
    (candidate : UInt32) (halign : candidate.toNat % 4096 = 0) (hlow : 4096 ≤ candidate.toNat)
    (hle : candidate.toNat ≤ (dataEnd P).toNat)
    (hfound : findGapFrom P bytes entries candidate ≠ 0) :
    GapFound P entries bytes.toNat (findGapFrom P bytes entries candidate) := by
  have hsum : (candidate + bytes).toNat = candidate.toNat + bytes.toNat := by
    rw [UInt32.toNat_add]
    exact Nat.mod_eq_of_lt (by omega)
  unfold findGapFrom at hfound ⊢
  by_cases hin : candidate + bytes ≤ dataEnd P
  · rw [if_pos hin] at hfound ⊢
    rw [UInt32.le_iff_toNat_le, hsum] at hin
    split
    · rename_i hocc
      rw [dif_pos hocc] at hfound
      have hnext := UInt32.lt_iff_toNat_lt.mp (next_candidate hocc)
      -- the next candidate is the end of an entry, so aligned and in the area
      have hbound : (conflicts candidate bytes entries).2.toNat ≤ (dataEnd P).toNat ∧
          (conflicts candidate bytes entries).2.toNat % 4096 = 0 := by
        refine conflicts_next (Q := fun n => n.toNat ≤ (dataEnd P).toNat ∧ n.toNat % 4096 = 0) ⟨hle,
          halign⟩ ?_
        intro e he _ _
        have hregion := hok e he
        rw [hregion.toNat_stop]
        refine ⟨hregion.high, ?_⟩
        have ha := hregion.aligned
        have hb := hregion.banks
        unfold RomEntry.stop
        omega
      exact findGapFrom_free hok hwrap _ hbound.2 (by omega) hbound.1 hfound
    · rename_i hfree
      obtain ⟨-, hnone⟩ := conflicts_false (eq_false_of_ne_true hfree)
      refine ⟨halign, hlow, hin, fun e he => ?_⟩
      have hn := hnone e he
      rw [UInt32.lt_iff_toNat_lt, UInt32.lt_iff_toNat_lt, (hok e he).toNat_stop, hsum] at hn
      omega
  · rw [if_neg hin] at hfound
    exact absurd rfl hfound
termination_by UInt32.size - candidate.toNat
decreasing_by
  have := candidate.toNat_lt
  simp only [UInt32.size]
  omega

/-- In a data area below 2 GiB no sum of the search wraps. -/
theorem findGap_free (hok : ∀ e ∈ entries, RegionOK (dataEnd P) e)
    (hend : (dataEnd P).toNat < 2 ^ 31 + 4096) {bytes : UInt32}
    (hbanks : bytes.toNat % 16384 = 0) (hfound : findGap P bytes entries ≠ 0) :
    GapFound P entries bytes.toNat (findGap P bytes entries) := by
  have hsector : SECTOR_BYTES.toNat = 4096 := rfl
  have hsum : (SECTOR_BYTES + bytes).toNat = 4096 + bytes.toNat := by
    rw [UInt32.toNat_add, hsector]
    have := bytes.toNat_lt
    exact Nat.mod_eq_of_lt (by omega)
  have hfits : 4096 + bytes.toNat ≤ (dataEnd P).toNat := by
    by_contra hout
    refine hfound ?_
    unfold findGap findGapFrom
    rw [if_neg]
    rw [UInt32.le_iff_toNat_le, hsum]
    exact hout
  exact findGapFrom_free hok (by omega) SECTOR_BYTES rfl (Nat.le_refl _) (by omega) hfound

/-! ## Exactly what can be stored -/

/-- `gb_storage_available` promises no size without a gap, and in a partition below 2 GiB it promises
every size that has one. -/
theorem available_exact {s : Catalog} (hpart : s.partition = true) (h : CatalogOK (dataEnd P) s.entries)
    (hsize : 3 * SECTOR_BYTES < P.size) {bytes : UInt32} (hmin : 32768 ≤ bytes) (hbanks : bytes % 16384 = 0) :
    (bytes.toNat ≤ gbStorageAvailable P s → GapFound P s.entries bytes.toNat (findGap P bytes s.entries)) ∧
      (P.size < 0x80003000 → (findGap P bytes s.entries ≠ 0 ↔ bytes.toNat ≤ gbStorageAvailable P s) ∧
        (findGap P bytes s.entries ≠ 0 → GapFound P s.entries bytes.toNat (findGap P bytes s.entries))) := by
  have hok : ∀ e ∈ s.entries, RegionOK (dataEnd P) e := fun e he => entryValid_region (h.entry e he)
  have hmin' : 32768 ≤ bytes.toNat := UInt32.le_iff_toNat_le.mp hmin
  have hbanks' : bytes.toNat % 16384 = 0 := by
    have := congrArg UInt32.toNat hbanks
    rw [UInt32.toNat_mod] at this
    exact this
  have hpromise : bytes.toNat ≤ gbStorageAvailable P s →
      GapFound P s.entries bytes.toNat (findGap P bytes s.entries) := by
    intro hle
    have hfound := findGap_found hok rfl (by omega) hle
    rw [UInt32.ofNat_toNat] at hfound
    exact hfound
  refine ⟨hpromise, fun hsmall => ?_⟩
  have hend : (dataEnd P).toNat < 2 ^ 31 + 4096 := by
    have hlt := UInt32.lt_iff_toNat_lt.mp hsize
    have hlt' := UInt32.lt_iff_toNat_lt.mp hsmall
    have h3 : (3 * SECTOR_BYTES).toNat = 12288 := rfl
    have h2 : (2 * SECTOR_BYTES).toNat = 8192 := rfl
    have hbound : (0x80003000 : UInt32).toNat = 2 ^ 31 + 12288 := rfl
    unfold dataEnd
    rw [UInt32.toNat_sub_of_le _ _ (UInt32.le_iff_toNat_le.mpr (by omega))]
    omega
  refine ⟨⟨fun hfound => ?_, fun hle hzero => ?_⟩, findGap_free hok hend hbanks'⟩
  · exact gap_available h hsize hpart rfl hmin' hbanks' (findGap_free hok hend hbanks' hfound)
  · have hlow := (hpromise hle).low
    rw [hzero] at hlow
    exact absurd hlow (by decide)

/-- A catalog with one ROM. -/
def catalogWith (offset size : UInt32) : Catalog :=
  { partition := true,
    entries := [{ RomEntry.zero with name := RomEntry.zero.name.set 0 0x61, offset := offset, size := size }] }

theorem available_exact_room :
    let P : Partition := ⟨0x30000, fun _ => .replicate 32 0⟩
    let s := catalogWith 0xD000 32768
    (findGap P 65536 s.entries ≠ 0 ↔ 65536 ≤ gbStorageAvailable P s) ∧
      GapFound P s.entries 65536 (findGap P 65536 s.entries) := by
  intro P s
  have hok : CatalogOK (dataEnd P) s.entries := (entriesValid_iff _ _).mp (by decide +kernel)
  have hsize : 3 * SECTOR_BYTES < P.size := by decide
  have hmin : (32768 : UInt32) ≤ 65536 := by decide
  have hexact := available_exact rfl hok hsize hmin rfl
  exact ⟨(hexact.2 (by decide)).1, hexact.1 (by decide +kernel)⟩

/-- From 2 GiB of data on, the end of a candidate can wrap: behind a ROM of 2 GiB `find_gap` finds room
for another one. -/
theorem available_wraps : ¬ ∀ (P : Partition) (s : Catalog) (bytes : UInt32), s.partition = true →
    CatalogOK (dataEnd P) s.entries →
    3 * SECTOR_BYTES < P.size → 32768 ≤ bytes → bytes % 16384 = 0 →
      (findGap P bytes s.entries ≠ 0 ↔ bytes.toNat ≤ gbStorageAvailable P s) := by
  intro h
  let P : Partition := ⟨0x80003000, fun _ => .replicate 32 0⟩
  have hok : CatalogOK (dataEnd P) (catalogWith 4096 0x80000000).entries :=
    (entriesValid_iff _ _).mp (by decide +kernel)
  have hexact := h P (catalogWith 4096 0x80000000) 0x80000000 rfl hok (by decide) (by decide) (by decide)
  exact absurd (hexact.mp (by decide +kernel)) (by decide +kernel)

end FoloGameboy

/-
The space search of `gb_storage`: when `gb_storage_available` promises enough bytes, `find_gap` finds
an aligned free region inside the data area, and its 32 bit sums never wrap.
-/
import FoloGameboy.Storage.Catalog

namespace FoloGameboy

variable {P : Partition} {entries : List RomEntry}

/-! ## Regions of valid entries -/

/-- The end of an entry's region. -/
def RomEntry.stop (e : RomEntry) : Nat := e.offset.toNat + e.size.toNat

/-- The region checks of `entries_valid`, in numbers. -/
structure RegionOK (dataEnd : UInt32) (e : RomEntry) : Prop where
  aligned : e.offset.toNat % 4096 = 0
  low : 4096 ≤ e.offset.toNat
  min : 32768 ≤ e.size.toNat
  banks : e.size.toNat % 16384 = 0
  high : e.stop ≤ dataEnd.toNat

theorem entryValid_region {dataEnd : UInt32} {e : RomEntry} (h : entryValid dataEnd e = true) :
    RegionOK dataEnd e := by
  unfold entryValid validRange at h
  simp only [Bool.and_eq_true, decide_eq_true_eq] at h
  obtain ⟨⟨⟨⟨⟨-, haligned⟩, hlow⟩, hmin⟩, hbanks⟩, hoff, hsize⟩ := h
  have ha := congrArg UInt32.toNat haligned
  have hb := congrArg UInt32.toNat hbanks
  rw [UInt32.toNat_mod] at ha hb
  rw [UInt32.le_iff_toNat_le] at hlow hmin hoff hsize
  rw [UInt32.toNat_sub_of_le _ _ (UInt32.le_iff_toNat_le.mpr hoff)] at hsize
  refine ⟨ha, hlow, hmin, hb, ?_⟩
  unfold RomEntry.stop
  omega

/-- The 32 bit end of a region does not wrap. -/
theorem RegionOK.toNat_stop {dataEnd : UInt32} {e : RomEntry} (h : RegionOK dataEnd e) :
    (e.offset + e.size).toNat = e.stop := by
  have hhigh := h.high
  have hlt := dataEnd.toNat_lt
  unfold RomEntry.stop at *
  rw [UInt32.toNat_add]
  exact Nat.mod_eq_of_lt (by omega)

/-- No entry reaches into `[start, start + bytes)`. -/
def FreeAt (entries : List RomEntry) (start bytes : Nat) : Prop :=
  ∀ e ∈ entries, start + bytes ≤ e.offset.toNat ∨ e.stop ≤ start

/-- Two regions of one catalog are disjoint. -/
theorem Apart.disjoint {dataEnd : UInt32} {e e' : RomEntry} (h : Apart e e')
    (he : RegionOK dataEnd e) (he' : RegionOK dataEnd e') :
    e.stop ≤ e'.offset.toNat ∨ e'.stop ≤ e.offset.toNat := by
  have hr := h.region
  unfold overlaps at hr
  rw [Bool.and_eq_false_iff, decide_eq_false_iff_not, decide_eq_false_iff_not,
    UInt32.lt_iff_toNat_lt, UInt32.lt_iff_toNat_lt,
    he.toNat_stop, he'.toNat_stop] at hr
  omega

/-! ## `gb_storage_available` -/

theorem freeUntil_inr {start stop stop' : UInt32} (h : freeUntil start stop entries = .inr stop') :
    stop' ≤ stop ∧ ∀ e ∈ entries, (start < e.offset → stop' ≤ e.offset) ∧
      ¬ (e.offset ≤ start ∧ start < e.offset + e.size) := by
  induction entries generalizing stop with
  | nil =>
    obtain rfl := Sum.inr.inj h
    exact ⟨UInt32.le_refl _, by simp⟩
  | cons e entries ih =>
    unfold freeUntil at h
    split at h
    · cases h
    · rename_i hout
      obtain ⟨hle, hrest⟩ := ih h
      have hstop : stop' ≤ stop ∧ (start < e.offset → stop' ≤ e.offset) := by
        split at hle
        · rename_i hlt
          exact ⟨UInt32.le_trans hle (UInt32.le_of_lt hlt.2), fun _ => hle⟩
        · rename_i hge
          refine ⟨hle, fun hs => UInt32.le_trans hle ?_⟩
          rw [not_and] at hge
          exact UInt32.not_lt.mp (hge hs)
      refine ⟨hstop.1, ?_⟩
      intro e' he'
      rcases List.mem_cons.mp he' with rfl | he'
      · exact ⟨hstop.2, hout⟩
      · exact hrest e' he'

/-- A free region of the data area with a certain length. -/
def HasGap (P : Partition) (entries : List RomEntry) (bytes : Nat) : Prop :=
  ∃ start, 4096 ≤ start ∧ start + bytes ≤ (dataEnd P).toNat ∧ FreeAt entries start bytes

theorem HasGap.mono {n m : Nat} (h : HasGap P entries m) (hle : n ≤ m) : HasGap P entries n := by
  obtain ⟨start, hlow, hhigh, hfree⟩ := h
  refine ⟨start, hlow, by omega, fun e he => ?_⟩
  rcases hfree e he with h | h
  · exact .inl (by omega)
  · exact .inr h

theorem freeUntil_gap (hok : ∀ e ∈ entries, RegionOK (dataEnd P) e) {start stop : UInt32}
    (hlow : 4096 ≤ start.toNat)
    (hlt : start < dataEnd P) (h : freeUntil start (dataEnd P) entries = .inr stop) :
    HasGap P entries (stop - start).toNat := by
  obtain ⟨hle, hall⟩ := freeUntil_inr h
  have hgt : start < stop := by
    have hb := freeUntil_beyond entries hlt
    rw [h] at hb
    exact hb
  rw [UInt32.le_iff_toNat_le] at hle
  rw [UInt32.toNat_sub_of_le _ _ (UInt32.le_of_lt hgt)]
  rw [UInt32.lt_iff_toNat_lt] at hgt
  refine ⟨start.toNat, hlow, by omega, fun e he => ?_⟩
  obtain ⟨hbeyond, hnot⟩ := hall e he
  rw [UInt32.lt_iff_toNat_lt, UInt32.le_iff_toNat_le] at hbeyond
  rw [UInt32.le_iff_toNat_le, UInt32.lt_iff_toNat_lt, (hok e he).toNat_stop] at hnot
  omega

/-- The scan only reports lengths of free regions. -/
theorem longestGap_gap (hok : ∀ e ∈ entries, RegionOK (dataEnd P) e) (start best : UInt32)
    (hlow : 4096 ≤ start.toNat) (hbest : best = 0 ∨ HasGap P entries best.toNat) :
    longestGap P entries start best = 0 ∨ HasGap P entries (longestGap P entries start best).toNat := by
  unfold longestGap
  split
  · rename_i hlt
    have hbeyond := freeUntil_beyond entries hlt
    split
    · rename_i next hfree
      rw [hfree] at hbeyond
      have hgt := UInt32.lt_iff_toNat_lt.mp hbeyond
      exact longestGap_gap hok next best (by omega) hbest
    · rename_i stop hfree
      rw [hfree] at hbeyond
      have hgt := UInt32.lt_iff_toNat_lt.mp hbeyond
      refine longestGap_gap hok stop _ (by omega) ?_
      split
      · exact .inr (freeUntil_gap hok hlow hlt hfree)
      · exact hbest
  · exact hbest
termination_by UInt32.size - start.toNat
decreasing_by
  all_goals
    have := start.toNat_lt
    simp only [UInt32.size]
    omega

theorem available_gap (hok : ∀ e ∈ entries, RegionOK (dataEnd P) e) {s : Catalog}
    (hs : s.entries = entries) {bytes : Nat}
    (hpos : 0 < bytes) (h : bytes ≤ gbStorageAvailable P s) : HasGap P entries bytes := by
  unfold gbStorageAvailable at h
  rw [hs] at h
  split at h
  · omega
  · dsimp only at h
    split at h
    · omega
    · have hbest := longestGap_gap hok SECTOR_BYTES 0 (Nat.le_refl 4096) (.inl rfl)
      generalize longestGap P entries SECTOR_BYTES 0 = best at h hbest
      have hdiv : ∀ n, n / ROM_BANK_BYTES * ROM_BANK_BYTES ≤ n := fun n => Nat.div_mul_le_self n _
      generalize gbStorageLimit P s - gbStorageUsed s = left at h
      have hmin : (if best.toNat < left then best.toNat else left) ≤ best.toNat := by
        split <;> omega
      have hav := Nat.le_trans (hdiv (if best.toNat < left then best.toNat else left)) hmin
      generalize (if best.toNat < left then best.toNat else left) / ROM_BANK_BYTES *
        ROM_BANK_BYTES = available at h hav
      have hle : bytes ≤ best.toNat := by
        split at h
        · exact Nat.le_trans h hav
        · omega
      rcases hbest with rfl | hbest
      · have h0 : (0 : UInt32).toNat = 0 := rfl
        omega
      · exact hbest.mono hle

/-! ## `find_gap` -/

theorem conflicts_false {candidate bytes : UInt32} {r : Bool × UInt32}
    (h : (entries.foldl (conflictStep candidate bytes) r).1 = false) :
    r.1 = false ∧ ∀ e ∈ entries, ¬ (candidate < e.offset + e.size ∧ e.offset < candidate + bytes) := by
  induction entries generalizing r with
  | nil => exact ⟨h, by simp⟩
  | cons e entries ih =>
    obtain ⟨hr, hrest⟩ := ih h
    unfold conflictStep at hr
    split at hr
    · cases hr
    · rename_i hout
      refine ⟨hr, ?_⟩
      intro e' he'
      rcases List.mem_cons.mp he' with rfl | he'
      · exact hout
      · exact hrest e' he'

/-- The next candidate is the old one or the end of an entry in its way. -/
theorem conflicts_next {candidate bytes : UInt32} {r : Bool × UInt32} {Q : UInt32 → Prop} (hr : Q r.2)
    (hend : ∀ e ∈ entries, candidate < e.offset + e.size → e.offset < candidate + bytes →
      Q (e.offset + e.size)) :
    Q (entries.foldl (conflictStep candidate bytes) r).2 := by
  induction entries generalizing r with
  | nil => exact hr
  | cons e entries ih =>
    refine ih ?_ fun e' he' => hend e' (List.mem_cons_of_mem e he')
    unfold conflictStep
    split
    · rename_i hin
      dsimp only
      split
      · exact hend e (by simp) hin.1 hin.2
      · exact hr
    · exact hr

/-- What `find_gap` finds: an aligned free region inside the data area. -/
structure GapFound (P : Partition) (entries : List RomEntry) (bytes : Nat) (offset : UInt32) : Prop where
  aligned : offset.toNat % 4096 = 0
  low : 4096 ≤ offset.toNat
  high : offset.toNat + bytes ≤ (dataEnd P).toNat
  free : FreeAt entries offset.toNat bytes

theorem findGapFrom_found (hok : ∀ e ∈ entries, RegionOK (dataEnd P) e) {bytes : UInt32} {start : Nat}
    (hhigh : start + bytes.toNat ≤ (dataEnd P).toNat) (hfree : FreeAt entries start bytes.toNat)
    (candidate : UInt32)
    (halign : candidate.toNat % 4096 = 0) (hlow : 4096 ≤ candidate.toNat) (hle : candidate.toNat ≤ start) :
    GapFound P entries bytes.toNat (findGapFrom P bytes entries candidate) := by
  have hlt := (dataEnd P).toNat_lt
  have hsum : (candidate + bytes).toNat = candidate.toNat + bytes.toNat := by
    rw [UInt32.toNat_add]
    exact Nat.mod_eq_of_lt (by omega)
  unfold findGapFrom
  rw [if_pos (UInt32.le_iff_toNat_le.mpr (by omega))]
  split
  · rename_i hocc
    have hnext := UInt32.lt_iff_toNat_lt.mp (next_candidate hocc)
    -- an entry in the way ends before the free region starts
    have hbound : (conflicts candidate bytes entries).2.toNat ≤ start ∧
        (conflicts candidate bytes entries).2.toNat % 4096 = 0 := by
      refine conflicts_next (Q := fun n => n.toNat ≤ start ∧ n.toNat % 4096 = 0) ⟨hle, halign⟩ ?_
      intro e he h₁ h₂
      have hregion := hok e he
      rw [UInt32.lt_iff_toNat_lt, hregion.toNat_stop] at h₁
      rw [UInt32.lt_iff_toNat_lt, hsum] at h₂
      rw [hregion.toNat_stop]
      refine ⟨?_, ?_⟩
      · rcases hfree e he with h | h
        · omega
        · exact h
      · have ha := hregion.aligned
        have hb := hregion.banks
        unfold RomEntry.stop
        omega
    exact findGapFrom_found hok hhigh hfree _ hbound.2 (by omega) hbound.1
  · rename_i hfreeNow
    obtain ⟨-, hnone⟩ := conflicts_false (eq_false_of_ne_true hfreeNow)
    refine ⟨halign, hlow, by omega, fun e he => ?_⟩
    have hn := hnone e he
    rw [UInt32.lt_iff_toNat_lt, UInt32.lt_iff_toNat_lt, (hok e he).toNat_stop, hsum] at hn
    omega
termination_by UInt32.size - candidate.toNat
decreasing_by
  have := candidate.toNat_lt
  simp only [UInt32.size]
  omega

/-- When enough bytes are available, `find_gap` succeeds. -/
theorem findGap_found (hok : ∀ e ∈ entries, RegionOK (dataEnd P) e) {s : Catalog}
    (hs : s.entries = entries) {bytes : Nat}
    (hpos : 0 < bytes) (h : bytes ≤ gbStorageAvailable P s) :
    GapFound P entries bytes (findGap P (UInt32.ofNat bytes) entries) := by
  obtain ⟨start, hlow, hhigh, hfree⟩ := available_gap hok hs hpos h
  have hlt := (dataEnd P).toNat_lt
  have hbytes : (UInt32.ofNat bytes).toNat = bytes := by
    rw [UInt32.toNat_ofNat', Nat.mod_eq_of_lt (by omega)]
  have hfound := @findGapFrom_found P entries hok (UInt32.ofNat bytes) start
    (by rw [hbytes]; exact hhigh) (by rw [hbytes]; exact hfree)
    SECTOR_BYTES (by decide) (by decide) hlow
  rw [hbytes] at hfound
  exact hfound

end FoloGameboy

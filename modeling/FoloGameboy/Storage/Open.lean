/-
`gb_storage_open` while nothing fails: it hashes the ROM's bytes, opens it when the hash is the
entry's, and then delivers those bytes.
-/
import FoloGameboy.Storage.Durable

namespace FoloGameboy

open Effect

variable {P : Partition} {f f' : Flash} {s : Catalog} {e : RomEntry}

/-- The bytes of a ROM from its start on. -/
def romPrefix (f : Flash) (e : RomEntry) (n : Nat) : List UInt8 := (List.range n).map fun i => f (e.offset.toNat + i)

theorem romPrefix_append (f : Flash) (e : RomEntry) (n k : Nat) :
    romPrefix f e n ++ (List.range k).map (fun i => f (e.offset.toNat + n + i)) =
      romPrefix f e (n + k) := by
  unfold romPrefix
  rw [List.range_add, List.map_append, List.map_map]
  congr 1
  refine List.map_congr_left fun i _ => ?_
  rw [Nat.add_assoc]
  rfl

/-- The hash loop reads on from what it has. -/
theorem hashRom_succeeds (n : Nat) (hn : n ≤ e.size.toNat) :
    (hashRom e (romPrefix f e n)).wp (flashSucceeding P) (fun r f' => f' = f ∧
      r = some (romBytes f e)) (fun _ => False) f := by
  have hlen : (romPrefix f e n).length = n := by
    unfold romPrefix
    rw [List.length_map, List.length_range]
  unfold hashRom
  by_cases hlt : n < e.size.toNat
  · rw [hlen, if_pos hlt]
    dsimp only
    generalize hbytes : (if 1024 < e.size.toNat - n then 1024 else e.size.toNat - n) = bytes
    have hle : bytes ≤ e.size.toNat - n ∧ 0 < bytes := by
      rw [← hbytes]
      split
      · constructor <;> omega
      · constructor <;> omega
    unfold readSelected
    rw [if_pos ⟨by omega, hle.1⟩]
    refine succeeding_perform fun _ => ?_
    dsimp only [success]
    refine succeeding_perform fun _ => ?_
    dsimp only [success]
    rw [if_pos rfl, romPrefix_append]
    exact hashRom_succeeds (n + bytes) (by omega)
  · rw [hlen, if_neg hlt]
    obtain rfl : n = e.size.toNat := by omega
    exact ⟨rfl, rfl⟩
termination_by e.size.toNat - n

/-- Its reads stay in the ROM. -/
theorem hashRom_accepted (hin : e.stop ≤ P.size.toNat) (data : List UInt8) :
    (hashRom e data).Only (accepted P) := by
  unfold hashRom
  by_cases hlt : data.length < e.size.toNat
  · rw [if_pos hlt]
    dsimp only
    generalize hbytes :
      (if 1024 < e.size.toNat - data.length then 1024 else e.size.toNat - data.length) = bytes
    have hle : bytes ≤ e.size.toNat - data.length ∧ 0 < bytes := by
      rw [← hbytes]
      split
      · constructor <;> omega
      · constructor <;> omega
    unfold readSelected
    rw [if_pos ⟨by omega, hle.1⟩]
    refine Prog.only_bind (Prog.only_op ?_) fun r => ?_
    · show e.offset.toNat + data.length + bytes ≤ P.size.toNat
      unfold RomEntry.stop at hin
      omega
    · split
      · exact trivial
      · refine Prog.only_bind (Prog.only_op trivial) fun updated => ?_
        split
        · exact hashRom_accepted hin _
        · exact trivial
  · rw [if_neg hlt]
    exact trivial
termination_by e.size.toNat - data.length
decreasing_by
  simp only [List.length_append, List.length_map, List.length_range]
  omega

/-- A row whose bytes hash to its digest opens. -/
theorem gbStorageOpen_succeeds {index : Nat} (hopen : s.needsReload = false)
    (he : s.entries[index]? = some e) (hhash : P.sha256 (romBytes f e) = e.sha256) :
    (gbStorageOpen P index s).wp (flashSucceeding P) (fun r f' => f' = f ∧ ∃ mapped,
      r.1 = some (e, mapped)) (fun _ => False) f := by
  unfold gbStorageOpen
  rw [hopen, if_neg Bool.false_ne_true, he]
  dsimp only
  refine succeeding_perform fun _ => ?_
  dsimp only [success, completed]
  rw [if_pos rfl, Prog.wp_bind]
  refine Prog.wp_mono ?_ (fun _ h => h) (hashRom_succeeds 0 (Nat.zero_le _))
  rintro r f₁ ⟨rfl, rfl⟩
  refine succeeding_finish ?_
  unfold openRom
  rw [if_neg (not_not.mpr (congrArg some hhash))]
  by_cases hmin : 32768 ≤ e.size
  · rw [if_pos hmin]
    exact succeeding_perform fun _ => ⟨rfl, _, rfl⟩
  · rw [if_neg hmin]
    exact ⟨rfl, _, rfl⟩

theorem gbStorageOpen_accepted {index : Nat} (hin : ∀ e ∈ s.entries, e.stop ≤ P.size.toNat) :
    (gbStorageOpen P index s).Only (accepted P) := by
  unfold gbStorageOpen
  split
  · exact trivial
  split
  · exact trivial
  rename_i e he
  refine Prog.only_bind (Prog.only_op trivial) fun started => Prog.only_bind ?_ fun r => ?_
  · split
    · exact hashRom_accepted (hin e (List.mem_of_getElem? he)) []
    · exact trivial
  split
  · exact trivial
  · refine Prog.only_bind ⟨trivial, fun _ => trivial⟩ fun digest => ?_
    unfold openRom partitionMmap
    split
    · exact trivial
    · split
      · exact Prog.only_bind (Prog.only_op trivial) fun _ => trivial
      · exact trivial

/-- The callback of an opened ROM delivers its bytes. -/
theorem readSelected_succeeds {offset bytes : Nat} (hin : offset + bytes ≤ e.size.toNat) :
    (readSelected e offset bytes).wp (flashSucceeding P)
      (fun r f' => f' = f ∧ ∃ m, r = some m ∧ ∀ i < bytes, m i = (romBytes f e).getD (offset + i) 0)
        (fun _ => False) f := by
  unfold readSelected
  rw [if_pos ⟨by omega, by omega⟩]
  refine Prog.wp_perform ?_ (fun _ hc => hc)
  intro r f' hd
  obtain ⟨-, rfl, rfl⟩ := succeeding_done hd
  refine ⟨rfl, _, rfl, fun i hi => ?_⟩
  unfold romBytes
  rw [List.getD_eq_getElem _ _ (by rw [List.length_map, List.length_range]; omega),
    List.getElem_map, List.getElem_range, Nat.add_assoc]

/-! ## Delivered ROMs -/

/-- While nothing fails, opening a row delivers these bytes, mapped or read. -/
structure Delivers (P : Partition) (f : Flash) (s : Catalog) (index : Nat) (data : List UInt8) : Prop where
  runs : ∃ out f', (gbStorageOpen P index s).Exec (flashSucceeding P) f out f'
  opens : ∀ out f', (gbStorageOpen P index s).Exec (flashSucceeding P) f out f' → f' = f ∧ ∃ e mapped s',
    out = some (some (e, mapped), s') ∧ romBytes f e = data ∧
      ∀ offset bytes, offset + bytes ≤ data.length → ∀ out' f'',
        (readSelected e offset bytes).Exec (flashSucceeding P) f out' f'' →
        ∃ m, out' = some (some m) ∧ ∀ i < bytes, m i = data.getD (offset + i) 0

theorem delivers_row {index : Nat} {data : List UInt8}
    (hopen : s.needsReload = false) (hin : ∀ e ∈ s.entries, e.stop ≤ P.size.toNat)
    (he : s.entries[index]? = some e)
    (hbytes : romBytes f e = data) (hhash : P.sha256 data = e.sha256) : Delivers P f s index data := by
  obtain ⟨r, f₁, hexec⟩ := Prog.Only.exec (flashSucceeding_done P) (@gbStorageOpen_accepted P s index hin) f
  refine ⟨⟨_, _, hexec⟩, fun out f' hout => ?_⟩
  have hpost := Prog.wp_exec (gbStorageOpen_succeeds hopen he (by rw [hbytes]; exact hhash)) hout
  cases out with
  | none => exact hpost.elim
  | some r =>
    obtain ⟨rfl, mapped, hr⟩ := hpost
    obtain ⟨opened, s'⟩ := r
    obtain rfl : opened = some (e, mapped) := hr
    refine ⟨rfl, e, mapped, s', rfl, hbytes, fun offset bytes hle out' f'' hread => ?_⟩
    have hlen : data.length = e.size.toNat := by
      rw [← hbytes]
      unfold romBytes
      rw [List.length_map, List.length_range]
    have hdelivered := Prog.wp_exec (readSelected_succeeds (by omega)) hread
    cases out' with
    | none => exact hdelivered.elim
    | some m =>
      obtain ⟨-, m', rfl, hm⟩ := hdelivered
      rw [hbytes] at hm
      exact ⟨m', rfl, hm⟩

end FoloGameboy

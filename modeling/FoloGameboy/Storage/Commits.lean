/-
Commits: what a storage call leaves the Flash to load, by the one generation it may advance.
-/
import FoloGameboy.Storage.Durable

namespace FoloGameboy

open Effect

variable {P : Partition} {s l : Catalog} {f f' : Flash} {entries : List RomEntry} {out : Option (Bool × Catalog)}

/-- What a call leaves: the Flash loads the catalog from before, or one of those the call publishes.
Under `same` it may succeed without a change. -/
structure Advance (P : Partition) (same : Prop) (target : List RomEntry → Prop)
    (s l : Catalog) (out : Option (Bool × Catalog)) (f' : Flash) :
    Prop where
  synced : ∃ l', Synced P (afterwards out) f' l' ∧ (l' = l ∨ ∃ entries, target entries ∧ l' = committed entries l)
  confirmed : ∀ s', out = some (true, s') → (same ∧ s' = s) ∨ target s'.entries
  failed : ∀ s', out = some (false, s') → s'.entries = s.entries
  opened : ∀ ok s', out = some (ok, s') → s'.needsReload = false → s'.partition = s.partition

theorem Advance.unchanged {same : Prop} {target : List RomEntry → Prop} {ok : Bool}
    (h : Synced P s f l) (hok : ok = true → same) :
    Advance P same target s l (some (ok, s)) f := by
  refine ⟨⟨l, h, .inl rfl⟩, fun s' hout => .inl ?_, fun s' hout => ?_, fun ok s' hout _ => ?_⟩
  · obtain ⟨rfl, rfl⟩ := Prod.mk.inj (Option.some.inj hout)
    exact ⟨hok rfl, rfl⟩
  · rw [← (Prod.mk.inj (Option.some.inj hout)).2]
  · rw [← (Prod.mk.inj (Option.some.inj hout)).2]

theorem Advance.published {same : Prop} {target : List RomEntry → Prop} (h : Synced P s f l)
    (hpart : s.partition = true)
    (hreload : s.needsReload = false) {f₁ : Flash} (hl₁ : reload P f₁ = some l)
    (hdata : 4096 ≤ (dataEnd P).toNat)
    (hlen : entries.length ≤ GB_STORAGE_MAX_ROMS) (hto : target entries)
    (hp : Published P (slotsTorn P) entries (unmapSelected s) f₁ out f') :
    Advance P same target s l out f' := by
  obtain ⟨hst, l', hsynced, hcases⟩ := published_synced h hpart hreload hl₁ hdata hlen hp
  refine ⟨⟨l', hsynced, hcases.imp_right fun hl' => ⟨entries, hto, hl'⟩⟩, fun s' hout => .inr ?_,
    fun s' hout => ?_, ?_⟩
  · rw [(hst.confirmed s' hout).1]
    exact hto
  · exact (hst.failed s' hout).1
  · intro ok s' hout hopen
    cases ok with
    | true =>
      rw [(hst.confirmed s' hout).1]
      rfl
    | false =>
      rcases (hst.failed s' hout).2 with ⟨rfl, -⟩ | hclosed
      · rfl
      · rw [hopen] at hclosed
        cases hclosed

theorem changed_advance {same : Prop} {target : List RomEntry → Prop} (h : Synced P s f l)
    (htarget : ∀ entries, InSync s l → target entries → l.entries ≠ [] ∧ entries.length ≤ l.entries.length)
    (hc : Changed P (slotsTorn P) same target s f out f') : Advance P same target s l out f' := by
  cases hc with
  | refused => exact .unchanged h nofun
  | same hsame => exact .unchanged h fun _ => hsame
  | @published entries _ _ hpart hreload hto hp =>
    obtain ⟨hne, hlen⟩ := htarget entries (h.inSync hpart hreload) hto
    have hok := reload_catalogOK h.loads
    exact .published h hpart hreload h.loads (hok.dataEnd_le hne) (Nat.le_trans hlen hok.count) hto hp

theorem delete_advance (h : Synced P s f l) (index : Nat)
    (he : (gbStorageDelete P index s).Exec (flashDevice P (slotsTorn P)) f out f') :
    Advance P False (Deleting index s) s l out f' := by
  have htarget : ∀ entries, InSync s l → Deleting index s entries → l.entries ≠ [] ∧
      entries.length ≤ l.entries.length := by
    rintro entries hsync ⟨hlt, rfl⟩
    rw [hsync.entries_eq] at hlt ⊢
    exact ⟨List.ne_nil_of_length_pos (by omega), List.length_eraseIdx_le ..⟩
  have hpost := Prog.wp_exec (gbStorageDelete_wp P (slotsTorn P) index s f) he
  cases out with
  | none => exact changed_advance h htarget hpost
  | some r => exact changed_advance h htarget hpost

theorem rename_advance (h : Synced P s f l) (index : Nat) (name : List UInt8)
    (he : (gbStorageRename P index name s).Exec (flashDevice P (slotsTorn P)) f out f') :
    Advance P (SameName index name s) (Renaming index name s) s l out f' := by
  have htarget : ∀ entries, InSync s l → Renaming index name s entries → l.entries ≠ [] ∧
      entries.length ≤ l.entries.length := by
    rintro entries hsync ⟨-, e, he, rfl⟩
    rw [hsync.entries_eq] at he ⊢
    obtain ⟨hlt, rfl⟩ := List.getElem?_eq_some_iff.mp he
    exact ⟨List.ne_nil_of_length_pos (by omega), Nat.le_of_eq List.length_set⟩
  have hpost := Prog.wp_exec (gbStorageRename_wp P (slotsTorn P) index name s f) he
  cases out with
  | none => exact changed_advance h htarget hpost
  | some r => exact changed_advance h htarget hpost

theorem upload_advance (h : Synced P s f l) (name : List UInt8) (bytes : Nat) (reader : Reader)
    (he : (gbStorageUpload P name bytes reader s).Exec (flashDevice P (slotsTorn P)) f out f') :
    Advance P False (fun _ => True) s l out f' := by
  have hpost : Uploaded P (slotsTorn P) name bytes reader s f out f' := by
    have hwp := Prog.wp_exec (gbStorageUpload_wp P (slotsTorn P) name bytes reader s f) he
    cases out with
    | none => exact hwp
    | some r => exact hwp
  cases hpost with
  | refused => exact .unchanged h nofun
  | stopped hok hout =>
    have hsync := h.inSync hok.partition hok.noReload
    have hloads := sameOutside_reload h.loads (upload_regions h hok) hout
    refine ⟨⟨l, ⟨hloads, fun _ _ => ⟨?_, hsync.loaded⟩⟩, .inl rfl⟩, nofun, fun s' hs' => ?_,
      fun ok s' hs' _ => ?_⟩
    · rw [← hsync.eq]
      rfl
    · rw [← (Prod.mk.inj (Option.some.inj hs')).2]
      rfl
    · rw [← (Prod.mk.inj (Option.some.inj hs')).2]
      rfl
  | cut hok hout =>
    exact ⟨⟨l, synced_boot (sameOutside_reload h.loads (upload_regions h hok) hout), .inl rfl⟩,
      nofun, nofun, nofun⟩
  | published hok hdata hlen hheader hw hp =>
    have hgap := upload_regions h hok
    have hlow := hgap.low
    have hhigh := hgap.high
    have hroom := hok.room
    refine .published h hok.partition hok.noReload (sameOutside_reload h.loads hgap hw.outside)
      (by omega) ?_ trivial hp
    rw [List.length_append, List.length_singleton]
    omega

/-! ## Counting commits -/

/-- The number of commits in a step: one if what the Flash holds to load has changed. -/
def Commits (P : Partition) (f f' : Flash) (k : Nat) : Prop :=
  (k = 0 ∧ reload P f' = reload P f) ∨ (k = 1 ∧ reload P f' ≠ reload P f)

theorem commits_same (P : Partition) (f : Flash) {k : Nat} (h : Commits P f f k) : k = 0 := by
  rcases h with ⟨hk, -⟩ | ⟨-, hne⟩
  · exact hk
  · exact absurd rfl hne

theorem committed_ne (entries : List RomEntry) (l : Catalog) : committed entries l ≠ l := by
  intro h
  have hgen : l.generation + 1 = l.generation := congrArg Catalog.generation h
  have hnat := congrArg UInt32.toNat hgen
  have hlt := l.generation.toNat_lt
  rw [UInt32.toNat_add, UInt32.toNat_one] at hnat
  omega

/-- Each commit advances the generation by one. -/
theorem Advance.counted {same : Prop} {target : List RomEntry → Prop}
    (h : Advance P same target s l out f') (hf : reload P f = some l) {k : Nat}
    (hk : Commits P f f' k) :
    ∃ l', Synced P (afterwards out) f' l' ∧ l'.generation = l.generation + UInt32.ofNat k ∧
      (k = 0 → l' = l) := by
  obtain ⟨l', hsynced, hcases⟩ := h.synced
  refine ⟨l', hsynced, ?_⟩
  unfold Commits at hk
  rw [hf, hsynced.loads, Option.some.injEq] at hk
  rcases hcases with rfl | ⟨entries, -, rfl⟩
  · obtain rfl : k = 0 := hk.elim And.left fun hne => absurd rfl hne.2
    exact ⟨(UInt32.add_zero _).symm, fun _ => rfl⟩
  · obtain rfl : k = 1 := hk.elim (fun hsame => absurd hsame.2 (committed_ne entries l)) And.left
    exact ⟨rfl, nofun⟩

end FoloGameboy

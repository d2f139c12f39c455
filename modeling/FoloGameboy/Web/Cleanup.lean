/-
Save files follow their ROMs: deleting and pruning remove the copies of ROMs that have left the
catalog and touch nothing else, and the pruning terminates.
-/
import FoloGameboy.Web.Outcomes
import Mathlib.Data.List.Perm.Basic

namespace FoloGameboy

open Effect

variable {incomplete : List UInt8 → Prop} {entries : List RomEntry} {s : Catalog} {v v' : SaveFs}

/-! ## Names of orphans -/

/-- A copy's name that no catalogued ROM has: 16 lower case hex digits that begin no ROM's hash, a
dot and `a` or `b`. -/
structure Orphan (entries : List RomEntry) (name : Path) : Prop where
  form : ∃ digits copy, name = digits ++ [0x2E, copy] ∧ digits.length = 16 ∧ (∀ d ∈ digits, isHexDigit d = true) ∧
    (copy = copyA ∨ copy = copyB)
  unlisted : ∀ e ∈ entries, name.take 16 ≠ hexBytes (e.sha256.toList.take 8)

theorem isSaveName_iff (name : Path) : isSaveName name = true ↔
    ∃ digits copy, name = digits ++ [0x2E, copy] ∧ digits.length = 16 ∧
      (∀ d ∈ digits, isHexDigit d = true) ∧
      (copy = copyA ∨ copy = copyB) := by
  unfold isSaveName
  simp only [Bool.and_eq_true, decide_eq_true_eq, beq_iff_eq, Bool.or_eq_true, List.all_eq_true]
  constructor
  · rintro ⟨⟨⟨hlen, hdot⟩, hcopy⟩, hdigits⟩
    refine ⟨name.take 16, name.getD 17 0, ?_, by rw [List.length_take]; omega, hdigits, hcopy⟩
    refine List.ext_getElem (by simp [hlen]) ?_
    intro i h₁ h₂
    rw [List.getElem_append]
    split
    · rw [List.getElem_take]
    · rename_i hge
      rw [List.length_take] at hge
      obtain rfl | rfl : i = 16 ∨ i = 17 := by omega
      · rw [List.getD_eq_getElem _ _ (by omega)] at hdot
        simpa [hlen] using hdot
      · simp [hlen]
  · rintro ⟨digits, copy, rfl, hlen, hdigits, hcopy⟩
    have hdot : (digits ++ [0x2E, copy]).getD 16 0 = 0x2E := by
      rw [List.getD_append_right _ _ _ _ (by omega), hlen]
      rfl
    have hlast : (digits ++ [0x2E, copy]).getD 17 0 = copy := by
      rw [List.getD_append_right _ _ _ _ (by omega), hlen]
      rfl
    have htake : (digits ++ [0x2E, copy]).take 16 = digits := by
      rw [← hlen]
      exact List.take_left
    refine ⟨⟨⟨by simp [hlen], hdot⟩, ?_⟩, ?_⟩
    · rw [hlast]
      exact hcopy
    · rw [htake]
      exact hdigits

/-- The comparison with a hash, from some byte on. -/
theorem matches_from (filename : Path) : ∀ (bytes : List UInt8) (k : Nat), 2 * (k + bytes.length) ≤
    filename.length →
    ((bytes.zipIdx k).all (fun (b, byte) => decide (filename.getD (byte * 2) 0 = hexDigit (b >>> 4)) &&
      decide (filename.getD (byte * 2 + 1) 0 = hexDigit (b &&& 15))) = true ↔
        (filename.drop (2 * k)).take (2 * bytes.length) = hexBytes bytes)
  | [], k, _ => by simp [hexBytes]
  | b :: bytes, k, h => by
    rw [List.length_cons] at h
    have ih := matches_from filename bytes (k + 1) (by omega)
    have hsplit : filename.drop (2 * k) = filename.getD (k * 2) 0 :: filename.getD (k * 2 + 1) 0 ::
        filename.drop (2 * (k + 1)) := by
      rw [Nat.mul_comm k 2, Nat.mul_add 2 k 1, List.getD_eq_getElem _ _ (by omega),
        List.getD_eq_getElem _ _ (by omega),
        List.drop_eq_getElem_cons (by omega), List.drop_eq_getElem_cons (by omega)]
    have htwo : 2 * (b :: bytes).length = 2 * bytes.length + 2 := by
      rw [List.length_cons]
      omega
    rw [List.zipIdx_cons, List.all_cons, Bool.and_eq_true, ih, hsplit, hexBytes_cons, htwo,
      List.take_succ_cons, List.take_succ_cons,
      List.cons.injEq, List.cons.injEq, Bool.and_eq_true, decide_eq_true_eq, decide_eq_true_eq, and_assoc]

theorem matchesHash_iff {filename : Path} (hlen : 16 ≤ filename.length) (e : RomEntry) :
    matchesHash filename e = true ↔ filename.take 16 = hexBytes (e.sha256.toList.take 8) := by
  have height : (e.sha256.toList.take 8).length = 8 := by simp
  have h := matches_from filename (e.sha256.toList.take 8) 0 (by rw [height]; omega)
  rw [height] at h
  exact h

theorem orphan_iff (name : Path) : Orphan entries name ↔ isSaveName name = true ∧
    liveSaveName entries name = false := by
  have hlen : isSaveName name = true → 16 ≤ name.length := by
    intro h
    obtain ⟨digits, copy, rfl, hlen, -, -⟩ := (isSaveName_iff name).mp h
    rw [List.length_append, hlen]
    omega
  constructor
  · rintro ⟨hform, hunlisted⟩
    have hname := (isSaveName_iff name).mpr hform
    refine ⟨hname, List.any_eq_false.mpr fun e he hm => ?_⟩
    exact hunlisted e he ((matchesHash_iff (hlen hname) e).mp hm)
  · rintro ⟨hname, hlive⟩
    refine ⟨(isSaveName_iff name).mp hname, fun e he htake => ?_⟩
    exact List.any_eq_false.mp hlive e he ((matchesHash_iff (hlen hname) e).mpr htake)

/-! ## What pruning does -/

/-- Only orphans have been removed. -/
def Pruned (entries : List RomEntry) (v v' : SaveFs) : Prop :=
  ∀ path, v'.files path = v.files path ∨ ∃ name, path = savesPrefix ++ name ∧ Orphan entries name

/-- Every orphan that is left is still to be read in the scan. -/
def Scanning (entries : List RomEntry) (v : SaveFs) : Prop :=
  ∀ name, Orphan entries name → (v.files (savesPrefix ++ name)).isSome → name ∈ v.scan

theorem Pruned.refl (entries : List RomEntry) (v : SaveFs) : Pruned entries v v := fun _ => .inl rfl

theorem Pruned.remove {name : Path} (h : Pruned entries v v') (ho : Orphan entries name) :
    Pruned entries v (v'.store (savesPrefix ++ name) none) := by
  intro path
  by_cases hp : path = savesPrefix ++ name
  · exact .inr ⟨name, hp, ho⟩
  · rcases h path with hsame | hother
    · refine .inl ?_
      rw [← hsame]
      exact Function.update_of_ne hp _ _
    · exact .inr hother

theorem Scanning.fresh {names : List Path} (h : Lists v.files names) :
    Scanning entries { v with scan := names } :=
  fun name _ hsome => (h.2 name).mpr hsome

theorem pruneLoop_wp {v₀ : SaveFs} : ∀ (fuel : Nat) (okay : Bool) {v : SaveFs}, Pruned entries v₀ v →
    (okay = true → Scanning entries v) →
    (pruneLoop entries fuel okay).wp (saveDevice incomplete)
      (fun r v' => Pruned entries v₀ v' ∧
        (r = some true → ∀ name, Orphan entries name → v'.files (savesPrefix ++ name) = none))
      (Pruned entries v₀) v
  | 0, okay, v, h, _ => ⟨h, nofun⟩
  | fuel + 1, okay, v, h, hscan => by
    unfold pruneLoop
    refine Prog.wp_perform ?_ ?_
    · rintro r v' (⟨rfl, rfl⟩ | ⟨rfl, hend, rfl⟩ | ⟨name, rest, rfl, hnext, rfl⟩)
      · exact ⟨h, nofun⟩
      · refine ⟨h, fun hr name ho => ?_⟩
        have hleft := hscan (Option.some.inj hr) name ho
        rw [hend] at hleft
        exact Option.not_isSome_iff_eq_none.mp fun hsome => List.not_mem_nil (hleft hsome)
      · dsimp only
        by_cases hlive : ¬ isSaveName name ∨ liveSaveName entries name
        · -- not an orphan: the scan goes on
          rw [if_pos hlive]
          refine pruneLoop_wp fuel okay h fun hokay name' ho hsome => ?_
          have hmem := hscan hokay name' ho hsome
          rw [hnext] at hmem
          refine (List.mem_cons.mp hmem).resolve_left ?_
          rintro rfl
          obtain ⟨hname, hdead⟩ := (orphan_iff name').mp ho
          rcases hlive with hl | hl
          · exact hl hname
          · rw [hdead] at hl
            cases hl
        · rw [if_neg hlive]
          rw [not_or, not_not, Bool.not_eq_true] at hlive
          have ho : Orphan entries name := (orphan_iff name).mpr hlive
          rw [Prog.wp_bind]
          -- after a removal the scan starts again, after a failure the result is false
          have hrewind : ∀ {v : SaveFs}, Pruned entries v₀ v →
              ((rewinddir >>= fun _ => pruneLoop entries fuel okay).wp (saveDevice incomplete)
              (fun r v' => Pruned entries v₀ v' ∧
                (r = some true → ∀ name, Orphan entries name → v'.files (savesPrefix ++ name) =
                none))
              (Pruned entries v₀) v) := by
            intro v hv
            refine Prog.wp_perform ?_ (fun v' hc => ?_)
            · rintro - v' ⟨names, hlists, rfl⟩
              exact pruneLoop_wp fuel okay hv fun _ => .fresh hlists
            · obtain rfl : v' = v := hc
              exact hv
          refine removeCopy_wp (fun _ => ?_) (fun _ => ?_) ?_ ?_ h (h.remove ho)
          · exact hrewind (h.remove ho)
          · exact hrewind h
          · exact pruneLoop_wp fuel false h nofun
          · exact pruneLoop_wp fuel false (h.remove ho) nofun
    · intro v' hc
      obtain rfl : v' = v := hc
      exact h

theorem gbSavesPruneOrphans_wp (mounted : Bool) (s : Catalog) (fuel : Nat) (v : SaveFs) :
    (gbSavesPruneOrphans mounted s fuel).wp (saveDevice incomplete)
      (fun r v' => Pruned s.entries v v' ∧ (r = some true → ∀ name, Orphan s.entries name →
        v'.files (savesPrefix ++ name) = none))
      (Pruned s.entries v) v := by
  unfold gbSavesPruneOrphans
  split
  · exact ⟨.refl _ v, nofun⟩
  refine Prog.wp_perform ?_ ?_
  · rintro opened v₁ (⟨rfl, names, hlists, rfl⟩ | ⟨rfl, rfl⟩)
    · rw [if_neg (not_not.mpr rfl), Prog.wp_bind]
      refine Prog.wp_mono ?_ (fun _ h => h)
        (pruneLoop_wp fuel true (show Pruned s.entries v v from fun _ => .inl rfl) fun _ =>
        .fresh hlists)
      rintro (_ | okay) v₂ ⟨hpruned, hall⟩
      · exact ⟨hpruned, nofun⟩
      · refine Prog.wp_perform ?_ ?_
        · intro closed v₃ hv
          obtain rfl : v₃ = v₂ := hv
          refine ⟨hpruned, fun hr => hall ?_⟩
          have hboth : (closed && okay) = true := Option.some.inj hr
          rw [(Bool.and_eq_true_iff.mp hboth).2]
        · intro v₃ hv
          obtain rfl : v₃ = v₂ := hv
          exact hpruned
    · exact ⟨.refl _ _, nofun⟩
  · intro v₁ hv
    obtain rfl : v₁ = v := hv
    exact .refl _ _

/-! ## Pruning terminates -/

/-- So many files are listed, and the rest of the scan names some of them. -/
structure ScanOK (k : Nat) (v : SaveFs) : Prop where
  listed : ∃ names, Lists v.files names ∧ names.length = k
  nodup : v.scan.Nodup
  present : ∀ name ∈ v.scan, (v.files (savesPrefix ++ name)).isSome

theorem Lists.length_eq {files : Volume} {names names' : List Path} (h : Lists files names)
    (h' : Lists files names') :
    names.length = names'.length :=
  ((List.perm_ext_iff_of_nodup h.1 h'.1).mpr fun n => (h.2 n).trans (h'.2 n).symm).length_eq

theorem savesPrefix_ne {name name' : Path} (h : name' ≠ name) :
    savesPrefix ++ name' ≠ savesPrefix ++ name :=
  fun he => h (List.append_cancel_left he)

/-- One file fewer is listed after a removal. -/
theorem Lists.remove {files : Volume} {names : List Path} (h : Lists files names) {name : Path}
    (hmem : name ∈ names) :
    Lists (Function.update files (savesPrefix ++ name) none) (names.erase name) ∧
      (names.erase name).length + 1 = names.length := by
  refine ⟨⟨h.1.erase name, fun n => ?_⟩, ?_⟩
  · rw [h.1.mem_erase_iff]
    by_cases hn : n = name
    · rw [hn, Function.update_self]
      simp
    · rw [Function.update_of_ne (savesPrefix_ne hn), h.2 n]
      exact and_iff_right hn
  · have hpos := List.length_pos_of_mem hmem
    rw [List.length_erase_of_mem hmem]
    omega

theorem ScanOK.next {k : Nat} (h : ScanOK k v) {name : Path} {rest : List Path}
    (hnext : v.scan = name :: rest) :
    ScanOK k { v with scan := rest } := by
  have hnodup := h.nodup
  rw [hnext] at hnodup
  refine ⟨h.listed, (List.nodup_cons.mp hnodup).2, fun n hn => h.present n ?_⟩
  rw [hnext]
  exact List.mem_cons_of_mem name hn

theorem ScanOK.fresh {names : List Path} (h : Lists v.files names) :
    ScanOK names.length { v with scan := names } :=
  ⟨⟨names, h, rfl⟩, h.1, fun n hn => (h.2 n).mp hn⟩

/-- Each pass reads every listed name once, and a new pass follows only after a removal. -/
theorem pruneLoop_answers : ∀ (fuel k : Nat) (okay : Bool) {v : SaveFs}, ScanOK k v →
    k * k + v.scan.length < fuel →
    (pruneLoop entries fuel okay).wp (saveDevice incomplete) (fun r _ => r ≠ none) (fun _ => True) v
  | 0, _, _, _, _, hfuel => absurd hfuel (Nat.not_lt_zero _)
  | fuel + 1, k, okay, v, h, hfuel => by
    unfold pruneLoop
    refine Prog.wp_perform ?_ (fun _ _ => trivial)
    rintro r v' (⟨rfl, rfl⟩ | ⟨rfl, -, rfl⟩ | ⟨name, rest, rfl, hnext, rfl⟩)
    · exact Option.some_ne_none _
    · exact Option.some_ne_none _
    dsimp only
    have hlen : v.scan.length = rest.length + 1 := by
      rw [hnext]
      rfl
    have hrest := h.next hnext
    have hskip : k * k + rest.length < fuel := by omega
    split
    · exact pruneLoop_answers fuel k okay hrest hskip
    rw [Prog.wp_bind]
    obtain ⟨names, hnames, rfl⟩ := h.listed
    have hsome : (v.files (savesPrefix ++ name)).isSome :=
      h.present name (by rw [hnext]; exact List.mem_cons_self)
    obtain ⟨hfewer, hcount⟩ := hnames.remove ((hnames.2 name).mpr hsome)
    generalize (names.erase name) = fewer at hfewer hcount
    have hsquare : fewer.length * fewer.length + 2 * fewer.length < names.length * names.length := by
      rw [← hcount, Nat.add_mul, Nat.mul_add]
      omega
    refine removeCopy_wp (fun _ => ?_) (fun hnone => ?_) ?_ ?_ trivial trivial
    · refine Prog.wp_perform ?_ (fun _ _ => trivial)
      rintro - v'' ⟨names', hlists, rfl⟩
      have hlen' := Lists.length_eq hlists hfewer
      refine pruneLoop_answers fuel names'.length okay (.fresh hlists) ?_
      rw [hlen']
      show fewer.length * fewer.length + fewer.length < fuel
      omega
    · rw [show v.files (savesPrefix ++ name) = none from hnone] at hsome
      cases hsome
    · exact pruneLoop_answers fuel names.length false hrest hskip
    · -- reported as failed, but gone
      have hnodup := h.nodup
      rw [hnext] at hnodup
      refine pruneLoop_answers fuel fewer.length false ⟨⟨fewer, hfewer, rfl⟩, hrest.nodup,
        fun n hn => ?_⟩ ?_
      · have hne : n ≠ name := by
          rintro rfl
          exact (List.nodup_cons.mp hnodup).1 hn
        show ((Function.update v.files (savesPrefix ++ name) none) (savesPrefix ++ n)).isSome
        rw [Function.update_of_ne (savesPrefix_ne hne)]
        exact hrest.present n hn
      · show fewer.length * fewer.length + rest.length < fuel
        omega

theorem gbSavesPruneOrphans_answers (s : Catalog) (v : SaveFs) : ∃ bound, ∀ mounted fuel, bound ≤ fuel →
    (gbSavesPruneOrphans mounted s fuel).wp (saveDevice incomplete) (fun r _ => r ≠ none)
      (fun _ => True) v := by
  -- a directory that opens lists the files, so their number bounds the passes
  have hbound : ∃ bound, ∀ names, Lists v.files names → names.length * names.length + names.length <
      bound := by
    by_cases h : ∃ names, Lists v.files names
    · obtain ⟨names, hnames⟩ := h
      refine ⟨names.length * names.length + names.length + 1, fun names' hnames' => ?_⟩
      rw [Lists.length_eq hnames' hnames]
      omega
    · exact ⟨0, fun names hnames => absurd ⟨names, hnames⟩ h⟩
  obtain ⟨bound, hbound⟩ := hbound
  refine ⟨bound, fun mounted fuel hfuel => ?_⟩
  unfold gbSavesPruneOrphans
  split
  · exact Option.some_ne_none _
  refine Prog.wp_perform ?_ (fun _ _ => trivial)
  rintro opened v₁ (⟨rfl, names, hlists, rfl⟩ | ⟨rfl, rfl⟩)
  · rw [if_neg (not_not.mpr rfl), Prog.wp_bind]
    have hlt := hbound names hlists
    refine Prog.wp_mono ?_ (fun _ h => h) (pruneLoop_answers fuel names.length true (.fresh hlists)
      (show _ + names.length < _ by omega))
    rintro (_ | okay) v₂ hr
    · exact absurd rfl hr
    · exact Prog.wp_perform (fun _ _ _ => Option.some_ne_none _) (fun _ _ => trivial)
  · exact Option.some_ne_none _

/-! ## Deleting -/

variable {P : Partition} {F : Type} {D : Device FlashOp FlashRes F}

/-- A publication that succeeds installs its entries, and one that fails keeps the old ones. -/
theorem publishDirectory_entries (entries : List RomEntry) (s : Catalog) (f : F) :
    (publishDirectory P entries s).wp D (fun r _ => r.2.entries = if r.1 then entries
      else s.entries) (fun _ => True) f := by
  have hread : ∀ s₁ : Catalog, s₁.entries = s.entries → ∀ slot f₁,
      (readDirectory P slot s₁).wp D (fun r _ => r.2.entries = s.entries) (fun _ => True) f₁ := by
    intro s₁ hs slot f₁
    refine Prog.wp_perform ?_ (fun _ _ => trivial)
    rintro (_ | m) f₂ -
    · exact hs
    dsimp only
    split
    · exact hs
    · exact Prog.wp_perform (fun hashed f₃ _ => by cases hashed <;> exact hs) (fun _ _ => trivial)
  have hreplace : ∀ dir f₁, (replaceDirectory P dir entries s).wp D (fun r _ => r.2.entries = if r.1 then entries
      else s.entries) (fun _ => True) f₁ := by
    intro dir f₁
    unfold replaceDirectory partitionErase partitionWrite
    dsimp only
    refine Prog.wp_perform ?_ (fun _ _ => trivial)
    rintro erased f₂ -
    split
    · exact rfl
    refine Prog.wp_perform ?_ (fun _ _ => trivial)
    rintro written f₃ -
    split
    · exact rfl
    refine Prog.wp_seq (hread { s with needsReload := true, catalogTrusted := false } rfl _ f₃) ?_
    rintro ⟨found, s₁⟩ f₄ hs
    dsimp only
    split
    · exact rfl
    · exact hs
  unfold publishDirectory allocate
  refine Prog.wp_perform ?_ (fun _ _ => trivial)
  rintro buffers f₁ -
  split
  · exact rfl
  refine Prog.wp_perform ?_ (fun _ _ => trivial)
  rintro hashed f₂ -
  cases hashed with
  | false => exact rfl
  | true => exact hreplace _ f₂

theorem gbStorageDelete_entries (index : Nat) (s : Catalog) (f : F) :
    (gbStorageDelete P index s).wp D (fun r _ => r.2.entries = if r.1 then s.entries.eraseIdx index
      else s.entries)
      (fun _ => True) f := by
  unfold gbStorageDelete
  split
  · exact rfl
  · exact publishDirectory_entries _ (unmapSelected s) f

/-! ## Saves of catalogued ROMs -/

theorem savePath_eq (hash : Vector UInt8 32) (copy : UInt8) :
    savePath hash copy = savesPrefix ++ (hexBytes (hash.toList.take 8) ++ [0x2E, copy]) := by
  unfold savePath saveName
  rfl

/-- Paths of ROMs whose hashes differ early differ. -/
theorem savePath_hash_ne {hash hash' : Vector UInt8 32}
    (h : hash.toList.take 8 ≠ hash'.toList.take 8) (copy copy' : UInt8) :
    savePath hash copy ≠ savePath hash' copy' := by
  intro heq
  rw [savePath_eq, savePath_eq] at heq
  have hname := List.append_cancel_left heq
  refine h (hexBytes_inj (List.append_inj_left hname ?_))
  rw [length_hexBytes, length_hexBytes]
  simp

/-- A listed ROM's copies are not orphans. -/
theorem Pruned.kept (h : Pruned entries v v') {e : RomEntry} (he : e ∈ entries) (copy : UInt8) :
    v'.files (savePath e.sha256 copy) = v.files (savePath e.sha256 copy) := by
  rcases h (savePath e.sha256 copy) with hsame | ⟨name, hname, ho⟩
  · exact hsame
  · rw [savePath_eq] at hname
    obtain rfl := List.append_cancel_left hname
    refine absurd ?_ (ho.unlisted e he)
    rw [List.take_left' (by rw [length_hexBytes]; simp)]

/-- Hashes that agree in their first 8 bytes are the same. -/
def PrefixesDistinct (entries : List RomEntry) : Prop :=
  ∀ e ∈ entries, ∀ e' ∈ entries, e.sha256.toList.take 8 = e'.sha256.toList.take 8 → e.sha256 = e'.sha256

theorem sharedSave_false {row : Nat} (h : sharedSave row entries = false) {e : RomEntry}
    (he : e ∈ entries.eraseIdx row) :
    e.sha256 ≠ (entries.getD row .zero).sha256 := by
  obtain ⟨i, hne, hi⟩ := List.mem_eraseIdx_iff_getElem?.mp he
  intro hsame
  obtain ⟨hlt, rfl⟩ := List.getElem?_eq_some_iff.mp hi
  refine List.any_eq_false.mp h (entries[i], i) ?_ ?_
  · exact List.mk_mem_zipIdx_iff_getElem?.mpr hi
  · simp [hne, hsame]

/-! ## Runs -/

/-- Any sequence of delete requests and prunings that return. -/
inductive CleanupRun (P : Partition) (D : Device FlashOp FlashRes F)
    (incomplete : List UInt8 → Prop) (s₀ : Catalog) (w₀ : F × SaveFs) :
    Catalog → F × SaveFs → Prop where
  | start : CleanupRun P D incomplete s₀ w₀ s₀ w₀
  | delete {s s' : Catalog} {w w' : F × SaveFs} {mounted : Bool} {req : WebRequest} {r : Response}
      (h : CleanupRun P D incomplete s₀ w₀ s w)
      (he : (deleteHandler P mounted req s).Exec (D.sum (saveDevice incomplete)) w (some (r, s')) w') :
      CleanupRun P D incomplete s₀ w₀ s' w'
  | prune {s : Catalog} {w : F × SaveFs} {v : SaveFs} {mounted okay : Bool}
      {fuel : Nat} (h : CleanupRun P D incomplete s₀ w₀ s w)
      (he : (gbSavesPruneOrphans mounted s fuel).Exec (saveDevice incomplete) w.2 (some (some okay)) v) :
      CleanupRun P D incomplete s₀ w₀ s (w.1, v)

/-- No ROM has joined the catalog, and the saves of those left are as they were. -/
structure SavesKept (s₀ : Catalog) (w₀ : F × SaveFs) (s : Catalog) (w : F × SaveFs) : Prop where
  listed : ∀ e ∈ s.entries, e ∈ s₀.entries
  saves : ∀ e ∈ s.entries, ∀ copy, w.2.files (savePath e.sha256 copy) = w₀.2.files (savePath e.sha256 copy)

theorem SavesKept.delete {s₀ s s' : Catalog} {w₀ w w' : F × SaveFs} (h : SavesKept s₀ w₀ s w)
    (hdistinct : PrefixesDistinct s₀.entries) {mounted : Bool} {req : WebRequest} {r : Response}
    (he : (deleteHandler P mounted req s).Exec (D.sum (saveDevice incomplete)) w (some (r, s'))
      w') : SavesKept s₀ w₀ s' w' := by
  generalize hout : some (r, s') = out at he
  cases deleteHandler_end he with
  | refused hr =>
    obtain ⟨-, rfl⟩ := Prod.mk.inj (Option.some.inj hout)
    exact h
  | turnedDown hlook hr =>
    obtain ⟨-, rfl⟩ := Prod.mk.inj (Option.some.inj hout)
    exact ⟨h.listed, h.saves⟩
  | lookCut hlook => cases hout
  | cut htoken hrow hcall => cases hout
  | failed htoken hrow hcall hr =>
    obtain ⟨-, rfl⟩ := Prod.mk.inj (Option.some.inj hout)
    have hentries : s'.entries = s.entries := Prog.wp_exec (gbStorageDelete_entries _ s _) hcall
    constructor
    · intro e hin
      rw [hentries] at hin
      exact h.listed e hin
    · intro e hin
      rw [hentries] at hin
      exact h.saves e hin
  | @shared token row _ f₀ f _ htoken hrow hshared hcall =>
    obtain ⟨-, rfl⟩ := Prod.mk.inj (Option.some.inj hout)
    have hentries : s'.entries = s.entries.eraseIdx row :=
      Prog.wp_exec (gbStorageDelete_entries _ s _) hcall
    constructor
    · intro e hin
      rw [hentries] at hin
      exact h.listed e (List.mem_of_mem_eraseIdx hin)
    · intro e hin
      rw [hentries] at hin
      exact h.saves e (List.mem_of_mem_eraseIdx hin)
  | @removed token row s₁ f₀ f v out _ htoken hrow halone hcall hv =>
    cases out with
    | none => cases hout
    | some deleted =>
      obtain ⟨-, rfl⟩ := Prod.mk.inj (Option.some.inj hout)
      have hentries : s'.entries = s.entries.eraseIdx row :=
        Prog.wp_exec (gbStorageDelete_entries _ s _) hcall
      have hfiles := Prog.wp_exec (gbSavesDelete_wp mounted _ w.2) hv
      constructor
      · intro e hin
        rw [hentries] at hin
        exact h.listed e (List.mem_of_mem_eraseIdx hin)
      · intro e hin copy
        rw [hentries] at hin
        have hmem := List.mem_of_mem_eraseIdx hin
        -- the deleted row's hash differs, and so does its prefix
        have hrowmem : s.entries.getD row .zero ∈ s.entries := by
          have hlt := (gbStorageResolveToken_names hrow).listed
          rw [List.getD_eq_getElem _ _ hlt]
          exact List.getElem_mem hlt
        have hprefix : e.sha256.toList.take 8 ≠ (s.entries.getD row .zero).sha256.toList.take 8 :=
          fun heq => sharedSave_false halone hin (hdistinct e (h.listed e hmem) _ (h.listed _ hrowmem) heq)
        rw [← h.saves e hmem copy]
        exact hfiles _ (savePath_hash_ne hprefix _ _) (savePath_hash_ne hprefix _ _)

theorem CleanupRun.kept {s₀ s : Catalog} {w₀ w : F × SaveFs} (hdistinct : PrefixesDistinct s₀.entries)
    (h : CleanupRun P D incomplete s₀ w₀ s w) : SavesKept s₀ w₀ s w := by
  induction h with
  | start => exact ⟨fun _ he => he, fun _ _ _ => rfl⟩
  | delete h he ih => exact ih.delete hdistinct he
  | prune h he ih =>
    have hpruned := (Prog.wp_exec (gbSavesPruneOrphans_wp _ _ _ _) he).1
    refine ⟨ih.listed, fun e hin copy => ?_⟩
    rw [← ih.saves e hin copy]
    exact hpruned.kept hin copy

/-- Save files follow their ROMs. From any catalog whose distinct hashes differ in their first 8
bytes and any files, after any delete requests and prunings with any failures: the copies of every
ROM still in the catalog are as they were. Any pruning then leaves every path that is not an orphan's
alone, and one that returns true leaves no orphan; and with as many directory entries read as the
files ask for, it returns. -/
theorem saves_follow_roms (P : Partition) (D : Device FlashOp FlashRes F)
    (incomplete : List UInt8 → Prop) (s₀ : Catalog)
    (w₀ : F × SaveFs) (hdistinct : PrefixesDistinct s₀.entries) (s : Catalog) (w : F × SaveFs)
    (hrun : CleanupRun P D incomplete s₀ w₀ s w) :
    (∀ e ∈ s.entries, ∀ copy, w.2.files (savePath e.sha256 copy) = w₀.2.files (savePath e.sha256 copy)) ∧
      (∀ mounted fuel out v, (gbSavesPruneOrphans mounted s fuel).Exec (saveDevice incomplete) w.2 out v →
        (∀ path, (¬ ∃ name, path = savesPrefix ++ name ∧ Orphan s.entries name) → v.files path = w.2.files path) ∧
          (out = some (some true) → ∀ name, Orphan s.entries name → v.files (savesPrefix ++ name) = none)) ∧
      ∃ bound, ∀ mounted fuel, bound ≤ fuel →
        ∀ v, ¬ (gbSavesPruneOrphans mounted s fuel).Exec (saveDevice incomplete) w.2 (some none) v := by
  refine ⟨(hrun.kept hdistinct).saves, ?_, ?_⟩
  · intro mounted fuel out v he
    have hpost := Prog.wp_exec (gbSavesPruneOrphans_wp mounted s fuel w.2) he
    cases out with
    | none => exact ⟨fun path hno => (hpost path).resolve_right hno, nofun⟩
    | some r => exact ⟨fun path hno => (hpost.1 path).resolve_right hno,
      fun hr => hpost.2 (Option.some.inj hr)⟩
  · obtain ⟨bound, hbound⟩ := @gbSavesPruneOrphans_answers incomplete s w.2
    exact ⟨bound, fun mounted fuel hfuel v he => Prog.wp_exec (hbound mounted fuel hfuel) he rfl⟩

theorem saves_follow_roms_duplicates : PrefixesDistinct [RomEntry.zero, RomEntry.zero] ∧ ∀ fuel okay v,
    (gbSavesPruneOrphans true { entries := [.zero, .zero], catalogTrusted := true } fuel).Exec
      (saveDevice fun _ => True)
      { files := Function.update (fun _ => none) (savePath RomEntry.zero.sha256 copyA) (some [0x47]) }
        (some (some okay)) v →
    v.files (savePath RomEntry.zero.sha256 copyA) = some [0x47] := by
  have hdistinct : PrefixesDistinct [RomEntry.zero, RomEntry.zero] := by
    intro e hin e' hin' _
    rw [List.eq_of_mem_replicate (n := 2) hin, List.eq_of_mem_replicate (n := 2) hin']
  refine ⟨hdistinct, fun fuel okay v he => ?_⟩
  have hrun := CleanupRun.prune (P := ⟨65536, fun _ => .replicate 32 0⟩)
    (D := flashDevice ⟨65536, fun _ => .replicate 32 0⟩ anyTear) (w := (fun _ => 0xFF, _)) .start he
  have hkept := (saves_follow_roms _ _ _ _ _ hdistinct _ _ hrun).1 .zero List.mem_cons_self copyA
  dsimp only at hkept
  rw [hkept, Function.update_self]

end FoloGameboy

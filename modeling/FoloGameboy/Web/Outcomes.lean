/-
How the requests that change something end: refused, or as the storage call behind them and, after a
confirmed deletion, the removal of the save.
-/
import FoloGameboy.Web.Handlers

namespace FoloGameboy

open Effect

variable {P : Partition} {F V : Type} {D : Device FlashOp FlashRes F} {E : Device FileOp FileRes V} {s : Catalog}

/-! ## Tokens -/

/-- The row a token names. -/
structure Names (P : Partition) (s : Catalog) (token : List UInt8) (row : Nat) : Prop where
  opened : s.needsReload = false
  named : ∃ e, s.entries[row]? = some e ∧ tokenOf P s.generation row e = cstr token

theorem Names.listed {token : List UInt8} {row : Nat} (h : Names P s token row) : row < s.entries.length := by
  obtain ⟨e, he, -⟩ := h.named
  exact (List.getElem?_eq_some_iff.mp he).1

/-- Whatever is hashed and fails, a token is that of its row. -/
theorem gbStorageToken_always (P : Partition) (s : Catalog) (row : Nat) :
    (gbStorageToken P row s).Always fun r => ∀ token, r = some token → s.needsReload = false ∧
      ∃ e, s.entries[row]? = some e ∧ tokenOf P s.generation row e = token := by
  unfold gbStorageToken
  split
  · exact nofun
  rename_i hopen
  cases he : s.entries[row]? with
  | none => exact nofun
  | some e =>
    dsimp only
    rw [Prog.always_bind]
    refine .of_forall (fun started => ?_) _
    rw [Prog.always_bind]
    refine .of_forall (fun updated => ?_) _
    split
    · exact nofun
    · rintro (_ | _) token htoken
      · cases htoken
      · exact ⟨eq_false_of_ne_true hopen, e, rfl, Option.some.inj htoken⟩

theorem gbStorageResolveToken_always (P : Partition) (token : List UInt8) (s : Catalog) :
    (gbStorageResolveToken P token s).Always fun r => ∀ row, r = some row → Names P s token row := by
  have hrows : ∀ rows, (resolveRows P token s rows).Always fun r => ∀ row, r = some row → Names P s token row := by
    intro rows
    induction rows with
    | nil => exact nofun
    | cons row rows ih =>
      unfold resolveRows
      rw [Prog.always_bind]
      refine Prog.Always.mono (fun expected hexpected => ?_) (gbStorageToken_always P s row)
      split
      · rename_i htoken
        rintro row' hrow
        obtain rfl := Option.some.inj hrow
        obtain ⟨hopen, hnamed⟩ := hexpected _ htoken
        exact ⟨hopen, hnamed⟩
      · exact ih
  unfold gbStorageResolveToken
  split
  · exact nofun
  · exact hrows _

theorem gbStorageResolveToken_names {token : List UInt8} {row : Nat} {f f' : F}
    (h : (gbStorageResolveToken P token s).Exec D f (some (some row)) f') : Names P s token row :=
  Prog.wp_exec ((gbStorageResolveToken_always P token s).wp f) h row rfl

/-! ## Looking for a token -/

/-- A program that only hashes. -/
def Hashing {α : Type} (p : StorageM α) : Prop := p.Only fun o => ∃ bytes, o = .sha256 bytes

theorem gbStorageToken_hashing (P : Partition) (row : Nat) (s : Catalog) : Hashing (gbStorageToken P row s) := by
  have hupdates : ∀ parts, Hashing (mbedtlsSha256Updates parts) := by
    intro parts
    induction parts with
    | nil => exact trivial
    | cons bytes rest ih =>
      refine Prog.only_bind (Prog.only_op ⟨_, rfl⟩) fun updated => ?_
      split
      · exact ih
      · exact trivial
  unfold gbStorageToken
  split
  · exact trivial
  split
  · exact trivial
  · refine Prog.only_bind (Prog.only_op ⟨_, rfl⟩) fun started => Prog.only_bind ?_ fun updated => ?_
    · split
      · exact hupdates _
      · exact trivial
    · split
      · exact trivial
      · exact ⟨⟨_, rfl⟩, fun _ => trivial⟩

theorem gbStorageResolveToken_hashing (P : Partition) (token : List UInt8) (s : Catalog) :
    Hashing (gbStorageResolveToken P token s) := by
  have hrows : ∀ rows, Hashing (resolveRows P token s rows) := by
    intro rows
    induction rows with
    | nil => exact trivial
    | cons row rows ih =>
      refine Prog.only_bind (gbStorageToken_hashing P row s) fun expected => ?_
      split
      · exact trivial
      · exact ih
  unfold gbStorageResolveToken
  split
  · exact trivial
  · exact hrows _

/-- It leaves the Flash as it is. -/
theorem Hashing.kept {α : Type} {p : StorageM α} (hp : Hashing p) {torn : Flash → Flash → Flash → Prop} {f f' : Flash}
    {out : Option α} (h : p.Exec (flashDevice P torn) f out f') : f' = f := by
  have hinv : p.wp (flashDevice P torn) (fun _ f' => f' = f) (fun f' => f' = f) f := by
    refine Prog.Only.wp_inv ?_ ?_ hp rfl
    · rintro _ g r g' ⟨bytes, rfl⟩ rfl hd
      exact sha256_done hd
    · rintro _ g g' ⟨bytes, rfl⟩ rfl hc
      exact quiet_cut (fun _ => id) hc
  have hpost := Prog.wp_exec hinv h
  cases out with
  | none => exact hpost
  | some a => exact hpost

theorem Hashing.exec {α : Type} {p : StorageM α} (hp : Hashing p) (f : Flash) :
    ∃ r f', p.Exec (flashSucceeding P) f (some r) f' :=
  Prog.Only.exec (flashSucceeding_done P) (hp.mono fun o ho => by obtain ⟨_, rfl⟩ := ho; exact trivial) f

/-- While hashing succeeds, every row of an open catalog has its token. -/
theorem gbStorageToken_succeeds {row : Nat} {e : RomEntry} (hopen : s.needsReload = false)
    (he : s.entries[row]? = some e)
    (f : Flash) :
    (gbStorageToken P row s).wp (flashSucceeding P) (fun r f' => f' = f ∧ r = some (tokenOf P s.generation row e))
      (fun _ => False) f := by
  have hupdates : ∀ parts, (mbedtlsSha256Updates parts).wp (flashSucceeding P) (fun r f' => f' = f ∧ r = true)
      (fun _ => False) f := by
    intro parts
    induction parts with
    | nil => exact ⟨rfl, rfl⟩
    | cons bytes rest ih =>
      refine succeeding_perform fun _ => ?_
      dsimp only [success, completed]
      rw [if_pos rfl]
      exact ih
  unfold gbStorageToken
  rw [hopen, if_neg Bool.false_ne_true, he]
  refine succeeding_perform fun _ => ?_
  dsimp only [success, completed]
  rw [if_pos rfl]
  refine Prog.wp_seq (hupdates _) ?_
  rintro _ f' ⟨rfl, rfl⟩
  rw [if_neg (not_not.mpr rfl)]
  exact succeeding_finish ⟨rfl, rfl⟩

/-- And the first row whose token it is is found. -/
theorem gbStorageResolveToken_succeeds {token : List UInt8} (hopen : s.needsReload = false)
    (hlength : (cstr token).length = 64) (f : Flash) :
    (gbStorageResolveToken P token s).wp (flashSucceeding P) (fun r f' => f' = f ∧ (r = none →
      ∀ row e, s.entries[row]? = some e → tokenOf P s.generation row e ≠ cstr token)) (fun _ => False) f := by
  have hrows : ∀ rows : List Nat, (∀ row ∈ rows, row < s.entries.length) →
      (resolveRows P token s rows).wp (flashSucceeding P) (fun r f' => f' = f ∧ (r = none →
        ∀ row ∈ rows, ∀ e, s.entries[row]? = some e → tokenOf P s.generation row e ≠ cstr token))
          (fun _ => False) f := by
    intro rows hrows
    induction rows with
    | nil => exact ⟨rfl, fun _ _ hmem => absurd hmem List.not_mem_nil⟩
    | cons row rows ih =>
      obtain ⟨hlt, hrest⟩ := List.forall_mem_cons.mp hrows
      unfold resolveRows
      refine Prog.wp_seq (gbStorageToken_succeeds hopen (List.getElem?_eq_getElem hlt) f) ?_
      rintro _ f' ⟨rfl, rfl⟩
      split
      · exact ⟨rfl, nofun⟩
      · rename_i hother
        refine Prog.wp_mono ?_ (fun _ h => h) (ih hrest)
        rintro r f'' ⟨rfl, hnone⟩
        refine ⟨rfl, fun hr => List.forall_mem_cons.mpr ⟨fun e he htoken => hother ?_, hnone hr⟩⟩
        obtain rfl := Option.some.inj ((List.getElem?_eq_getElem hlt).symm.trans he)
        rw [htoken]
  unfold gbStorageResolveToken
  rw [if_neg (by rw [hlength, hopen]; simp)]
  refine Prog.wp_mono ?_ (fun _ h => h) (hrows (List.range s.entries.length) fun row hmem => List.mem_range.mp hmem)
  rintro r f' ⟨rfl, hnone⟩
  exact ⟨rfl, fun hr row e he => hnone hr row (List.mem_range.mpr (List.getElem?_eq_some_iff.mp he).1) e he⟩

/-! ## Removing a save -/

section
variable {incomplete : List UInt8 → Prop} {v : SaveFs}

/-- `remove_copy`, by what is left. -/
theorem removeCopy_wp {path : Path} {Q : Bool → SaveFs → Prop} {C : SaveFs → Prop}
    (hremoved : (v.files path).isSome → Q true (v.store path none))
    (hmissing : v.files path = none → Q true v)
    (hfailed : Q false v) (hgone : Q false (v.store path none)) (hcut : C v)
    (hcut' : C (v.store path none)) :
    (removeCopy path).wp (saveDevice incomplete) Q C v := by
  refine Prog.wp_perform ?_ ?_
  · rintro r v' (⟨rfl, hsome, rfl⟩ | ⟨rfl, hnone, rfl⟩ | ⟨rfl, rfl | rfl⟩)
    · exact hremoved hsome
    · exact hmissing hnone
    · exact hfailed
    · exact hgone
  · rintro v' (rfl | rfl)
    · exact hcut
    · exact hcut'

/-- Deleting a save touches its two copies only, also when it is cut. -/
theorem gbSavesDelete_wp (mounted : Bool) (hash : Vector UInt8 32) (v : SaveFs) :
    (gbSavesDelete mounted hash).wp (saveDevice incomplete)
      (fun _ v' => ∀ path, path ≠ savePath hash copyA → path ≠ savePath hash copyB →
        v'.files path = v.files path)
      (fun v' => ∀ path, path ≠ savePath hash copyA → path ≠ savePath hash copyB →
        v'.files path = v.files path) v := by
  unfold gbSavesDelete
  split
  · exact fun _ _ _ => rfl
  rw [Prog.wp_bind]
  have hcopy : ∀ {v : SaveFs} (path : Path), (removeCopy path).wp (saveDevice incomplete)
      (fun _ v' => ∀ path', path' ≠ path → v'.files path' = v.files path') (fun v' => ∀ path',
        path' ≠ path → v'.files path' = v.files path') v := by
    intro v path
    have hkept : ∀ path', path' ≠ path → (v.store path none).files path' = v.files path' :=
      fun path' hne => Function.update_of_ne hne _ _
    exact removeCopy_wp (fun _ => hkept) (fun _ _ _ => rfl) (fun _ _ => rfl) hkept (fun _ _ => rfl) hkept
  refine Prog.wp_mono ?_ (fun v₁ h₁ path ha _ => h₁ path ha) (hcopy (savePath hash copyA))
  intro first v₁ h₁
  rw [Prog.wp_bind]
  refine Prog.wp_mono ?_ ?_ (hcopy (savePath hash copyB))
  · intro second v₂ h₂ path ha hb
    rw [h₂ path hb, h₁ path ha]
  · intro v₂ h₂ path ha hb
    rw [h₂ path hb, h₁ path ha]

end

/-! ## Deleting -/

/-- How a delete request ends, refused before or after its token is looked for, or with a deletion;
after a power cut there is no response. -/
inductive DeleteEnd (P : Partition) (D : Device FlashOp FlashRes F)
    (E : Device FileOp FileRes V) (mounted : Bool) (req : WebRequest)
    (s : Catalog) (w : F × V) : Option (Response × Catalog) → F × V → Prop where
  | refused {r : Response} (hr : r.status ≠ 200) : DeleteEnd P D E mounted req s w (some (r, s)) w
  | turnedDown {token : List UInt8} {found : Option Nat} {f : F} {r : Response}
      (hlook : (gbStorageResolveToken P token s).Exec D w.1 (some found) f) (hr : r.status ≠ 200) :
      DeleteEnd P D E mounted req s w (some (r, s)) (f, w.2)
  | lookCut {token : List UInt8} {f : F} (hlook : (gbStorageResolveToken P token s).Exec D w.1 none f) :
      DeleteEnd P D E mounted req s w none (f, w.2)
  | cut {token : List UInt8} {row : Nat} {f₀ f : F} (htoken : req.token = some token)
      (hrow : (gbStorageResolveToken P token s).Exec D w.1 (some (some row)) f₀)
      (he : (gbStorageDelete P row s).Exec D f₀ none f) : DeleteEnd P D E mounted req s w none (f, w.2)
  | failed {token : List UInt8} {row : Nat} {s' : Catalog} {f₀ f : F} {r : Response} (htoken : req.token = some token)
      (hrow : (gbStorageResolveToken P token s).Exec D w.1 (some (some row)) f₀)
      (he : (gbStorageDelete P row s).Exec D f₀ (some (false, s')) f) (hr : r.status ≠ 200) :
      DeleteEnd P D E mounted req s w (some (r, s')) (f, w.2)
  | shared {token : List UInt8} {row : Nat} {s' : Catalog} {f₀ f : F} {r : Response} (htoken : req.token = some token)
      (hrow : (gbStorageResolveToken P token s).Exec D w.1 (some (some row)) f₀)
      (hshared : sharedSave row s.entries = true)
      (he : (gbStorageDelete P row s).Exec D f₀ (some (true, s')) f) :
      DeleteEnd P D E mounted req s w (some (r, s')) (f, w.2)
  | removed {token : List UInt8} {row : Nat} {s' : Catalog} {f₀ f : F} {v : V} {out : Option Bool} {r : Bool → Response}
      (htoken : req.token = some token) (hrow : (gbStorageResolveToken P token s).Exec D w.1 (some (some row)) f₀)
      (halone : sharedSave row s.entries = false) (he : (gbStorageDelete P row s).Exec D f₀ (some (true, s')) f)
      (hv : (gbSavesDelete mounted (s.entries.getD row .zero).sha256).Exec E w.2 out v) :
      DeleteEnd P D E mounted req s w (out.map fun deleted => (r deleted, s')) (f, v)

theorem deleteHandler_end {mounted : Bool} {req : WebRequest} {w w' : F × V}
    {out : Option (Response × Catalog)}
    (he : (deleteHandler P mounted req s).Exec (D.sum E) w out w') :
    DeleteEnd P D E mounted req s w out w' := by
  have hrefused : ∀ {r : Response}, r.status ≠ 200 →
      (pure (r, s) : WebM (Response × Catalog)).Exec (D.sum E) w out w' →
      DeleteEnd P D E mounted req s w out w' := by
    intro r hr h
    obtain ⟨rfl, rfl⟩ := Prog.exec_pure_iff.mp h
    exact .refused hr
  unfold deleteHandler at he
  split at he
  · exact hrefused (by decide) he
  cases htoken : req.token with
  | none =>
    rw [htoken] at he
    exact hrefused (by decide) he
  | some token =>
    rw [htoken] at he
    dsimp only at he
    split at he
    · exact hrefused (by decide) he
    rcases Prog.exec_bind_iff.mp he with ⟨found, w₀, hlook, hfound⟩ | ⟨rfl, hcut⟩
    · obtain ⟨hrow, hkept⟩ := Prog.exec_inl hlook
      -- the token was looked up, and no row is deleted
      have hturned : ∀ {r : Response}, r.status ≠ 200 →
          (pure (r, s) : WebM (Response × Catalog)).Exec (D.sum E) w₀ out w' →
          DeleteEnd P D E mounted req s w out w' := by
        intro r hr h
        obtain ⟨rfl, rfl⟩ := Prog.exec_pure_iff.mp h
        rw [show w' = (w'.1, w.2) from Prod.ext rfl hkept]
        exact .turnedDown hrow hr
      cases found with
      | none => exact hturned (by decide) hfound
      | some row =>
        dsimp only at hfound
        split at hfound
        · exact hturned (by decide) hfound
        rcases Prog.exec_bind_iff.mp hfound with ⟨⟨ok, s'⟩, w₁, hdelete, hrest⟩ | ⟨rfl, hcut⟩
        · obtain ⟨hflash, hsaves⟩ := Prog.exec_inl hdelete
          rw [hkept] at hsaves
          cases ok with
          | false =>
            have hend : ∀ {r : Response}, r.status ≠ 200 →
                (pure (r, s') : WebM (Response × Catalog)).Exec (D.sum E) w₁ out w' →
                DeleteEnd P D E mounted req s w out w' := by
              intro r hr h
              obtain ⟨rfl, rfl⟩ := Prog.exec_pure_iff.mp h
              rw [show w' = (w'.1, w.2) from Prod.ext rfl hsaves]
              exact .failed htoken hrow hflash hr
            dsimp only at hrest
            rw [if_pos Bool.false_ne_true] at hrest
            split at hrest
            · exact hend (by decide) hrest
            · exact hend (by decide) hrest
          | true =>
            dsimp only at hrest
            rw [if_neg (not_not.mpr rfl)] at hrest
            -- the save files are shared with another row of the same ROM, or cleaned up
            cases hshared : sharedSave row s.entries with
            | true =>
              rw [if_pos hshared] at hrest
              obtain ⟨rfl, rfl⟩ := Prog.exec_pure_iff.mp hrest
              rw [show w' = (w'.1, w.2) from Prod.ext rfl hsaves]
              exact .shared htoken hrow hshared hflash
            | false =>
              rw [hshared, if_neg Bool.false_ne_true] at hrest
              rcases Prog.exec_bind_iff.mp hrest with ⟨deleted, w₂, hdeleted, hresp⟩ | ⟨rfl, hcut⟩
              · obtain ⟨hv, hf⟩ := Prog.exec_inr hdeleted
                rw [hsaves] at hv
                have hend := @DeleteEnd.removed F V P D E mounted _ s _ _ _ _ _ _ _ _ (fun deleted =>
                  if deleted then respond 200 "游戏和对应存档均已删除"
                  else respond 500 "游戏已删除，存档清理失败；重进游戏管理会重试") htoken hrow hshared hflash hv
                rw [← hf, Option.map_some] at hend
                cases deleted with
                | true =>
                  rw [if_pos rfl] at hresp
                  obtain ⟨rfl, rfl⟩ := Prog.exec_pure_iff.mp hresp
                  exact hend
                | false =>
                  rw [if_neg Bool.false_ne_true] at hresp
                  obtain ⟨rfl, rfl⟩ := Prog.exec_pure_iff.mp hresp
                  exact hend
              -- the power goes while the files are removed
              · obtain ⟨hv, hf⟩ := Prog.exec_inr hcut
                rw [hsaves] at hv
                have hend := @DeleteEnd.removed F V P D E mounted _ s _ _ _ _ _ _ _ _
                  (fun _ => forbidden) htoken hrow hshared hflash hv
                rw [← hf] at hend
                exact hend
        · obtain ⟨hflash, hsaves⟩ := Prog.exec_inl hcut
          rw [hkept] at hsaves
          rw [show w' = (w'.1, w.2) from Prod.ext rfl hsaves]
          exact .cut htoken hrow hflash
    · obtain ⟨hlook, hkept⟩ := Prog.exec_inl hcut
      rw [show w' = (w'.1, w.2) from Prod.ext rfl hkept]
      exact .lookCut hlook

/-! ## Renaming -/

/-- The name a request asks for. -/
def WebRequest.newName (req : WebRequest) : Option (List UInt8) :=
  req.name.bind fun encoded => gbNameUrlDecode encoded 32

/-- How a rename request ends. -/
inductive RenameEnd (P : Partition) (D : Device FlashOp FlashRes F) (req : WebRequest) (s : Catalog) (w : F × V) :
    Option (Response × Catalog) → F × V → Prop where
  | refused {r : Response} (hr : r.status ≠ 200) : RenameEnd P D req s w (some (r, s)) w
  | turnedDown {token : List UInt8} {f : F} {r : Response}
      (hlook : (gbStorageResolveToken P token s).Exec D w.1 (some none) f)
      (hr : r.status ≠ 200) : RenameEnd P D req s w (some (r, s)) (f, w.2)
  | lookCut {token : List UInt8} {f : F} (hlook : (gbStorageResolveToken P token s).Exec D w.1 none f) :
      RenameEnd P D req s w none (f, w.2)
  | called {token name : List UInt8} {row : Nat} {f₀ f : F} {out : Option (Bool × Catalog)} {r : Bool → Response}
      (htoken : req.token = some token) (hrow : (gbStorageResolveToken P token s).Exec D w.1 (some (some row)) f₀)
      (hname : req.newName = some name) (he : (gbStorageRename P row name s).Exec D f₀ out f)
      (hr : (r false).status ≠ 200) :
      RenameEnd P D req s w (out.map fun result => (r result.1, result.2)) (f, w.2)

theorem renameHandler_end {req : WebRequest} {w w' : F × V} {out : Option (Response × Catalog)}
    (he : (renameHandler P req s).Exec (D.sum E) w out w') : RenameEnd P D req s w out w' := by
  have hrefused : ∀ {r : Response}, r.status ≠ 200 →
      (pure (r, s) : WebM (Response × Catalog)).Exec (D.sum E) w out w' →
      RenameEnd P D req s w out w' := by
    intro r hr h
    obtain ⟨rfl, rfl⟩ := Prog.exec_pure_iff.mp h
    exact .refused hr
  unfold renameHandler at he
  split at he
  · exact hrefused (by decide) he
  split at he
  · rename_i token name htoken hname
    split at he
    · exact hrefused (by decide) he
    rcases Prog.exec_bind_iff.mp he with ⟨found, w₀, hlook, hfound⟩ | ⟨rfl, hcut⟩
    · obtain ⟨hrow, hkept⟩ := Prog.exec_inl hlook
      cases found with
      | none =>
        obtain ⟨rfl, rfl⟩ := Prog.exec_pure_iff.mp hfound
        rw [show w' = (w'.1, w.2) from Prod.ext rfl hkept]
        exact .turnedDown hrow (by decide)
      | some row =>
        dsimp only at hfound
        rcases Prog.exec_bind_iff.mp hfound with ⟨⟨ok, s'⟩, w₁, hrename, hrest⟩ | ⟨rfl, hcut⟩
        · obtain ⟨hflash, hsaves⟩ := Prog.exec_inl hrename
          rw [hkept] at hsaves
          -- whether the rename succeeds decides between the two answers
          have hend : ∀ {r : Response} (r' : Response), r'.status ≠ 200 →
              (pure (r, s') : WebM (Response × Catalog)).Exec (D.sum E) w₁ out w' →
                r = (if ok then r else r') →
              RenameEnd P D req s w out w' := by
            intro r r' hr h hif
            obtain ⟨rfl, rfl⟩ := Prog.exec_pure_iff.mp h
            rw [show w' = (w'.1, w.2) from Prod.ext rfl hsaves]
            have hc := RenameEnd.called (r := fun ok => if ok then r else r') htoken hrow hname hflash hr
            rw [Option.map_some, ← hif] at hc
            exact hc
          cases ok with
          | true =>
            dsimp only at hrest
            rw [if_pos rfl] at hrest
            exact hend forbidden (by decide) hrest rfl
          | false =>
            dsimp only at hrest
            rw [if_neg Bool.false_ne_true] at hrest
            split at hrest
            · exact hend (respond 503 _) (by decide) hrest rfl
            · exact hend (respond 400 _) (by decide) hrest rfl
        · obtain ⟨hflash, hsaves⟩ := Prog.exec_inl hcut
          rw [hkept] at hsaves
          rw [show w' = (w'.1, w.2) from Prod.ext rfl hsaves]
          exact .called (r := fun _ => forbidden) htoken hrow hname hflash (by decide)
    · obtain ⟨hlook, hkept⟩ := Prog.exec_inl hcut
      rw [show w' = (w'.1, w.2) from Prod.ext rfl hkept]
      exact .lookCut hlook
  · exact hrefused (by decide) he

/-! ## Uploading -/

/-- How an upload request ends. -/
inductive UploadEnd (P : Partition) (D : Device FlashOp FlashRes F) (s : Catalog) (w : F × V) :
    Option (Response × Catalog) → F × V → Prop where
  | refused {r : Response} : UploadEnd P D s w (some (r, s)) w
  | called {name : List UInt8} {bytes : Nat} {reader : Reader} {f : F} {out : Option (Bool × Catalog)}
      {r : Bool × Catalog → Response} (he : (gbStorageUpload P name bytes reader s).Exec D w.1 out f) :
      UploadEnd P D s w (out.map fun result => (r result, result.2)) (f, w.2)

theorem uploadHandler_end {req : WebRequest} {w w' : F × V} {out : Option (Response × Catalog)}
    (he : (uploadHandler P req s).Exec (D.sum E) w out w') : UploadEnd P D s w out w' := by
  have hrefused : ∀ {r : Response}, (pure (r, s) : WebM (Response × Catalog)).Exec (D.sum E) w out
      w' → UploadEnd P D s w out w' := by
    intro r h
    obtain ⟨rfl, rfl⟩ := Prog.exec_pure_iff.mp h
    exact .refused
  unfold uploadHandler at he
  split at he
  · exact hrefused he
  dsimp only at he
  split at he
  · exact hrefused he
  split at he
  · exact hrefused he
  · rcases Prog.exec_bind_iff.mp he with ⟨⟨ok, s'⟩, w₁, hupload, hrest⟩ | ⟨rfl, hcut⟩
    · obtain ⟨hflash, hsaves⟩ := Prog.exec_inl hupload
      have hend : ∀ {r : Response}, (pure (r, s') : WebM (Response × Catalog)).Exec (D.sum E) w₁ out w' →
          UploadEnd P D s w out w' := by
        intro r h
        obtain ⟨rfl, rfl⟩ := Prog.exec_pure_iff.mp h
        rw [show w' = (w'.1, w.2) from Prod.ext rfl hsaves]
        exact .called (r := fun _ => r) hflash
      dsimp only at hrest
      split at hrest
      · exact hend hrest
      · split at hrest
        · exact hend hrest
        · exact hend hrest
    · obtain ⟨hflash, hsaves⟩ := Prog.exec_inl hcut
      rw [show w' = (w'.1, w.2) from Prod.ext rfl hsaves]
      exact .called (r := fun _ => forbidden) hflash

end FoloGameboy

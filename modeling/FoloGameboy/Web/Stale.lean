/-
Requests with tokens: whatever other requests, failures, power cuts and re-initialisations come
between, a request takes effect on the row and entry its token was displayed with, or not at all.
-/
import FoloGameboy.Storage.Commits
import FoloGameboy.Storage.Invariant
import FoloGameboy.Web.Outcomes

namespace FoloGameboy

open Effect

variable {P : Partition} {incomplete : List UInt8 → Prop} {s s' : Catalog} {f f' : Flash} {w w' : Flash × SaveFs}

/-! ## Requests and runs -/

/-- The requests that may change something; a list request changes nothing. -/
inductive WebChange where
  | upload (req : WebRequest)
  | rename (req : WebRequest)
  | delete (mounted : Bool) (req : WebRequest)

def WebChange.run (P : Partition) : WebChange → Catalog → WebM (Response × Catalog)
  | .upload req, s => uploadHandler P req s
  | .rename req, s => renameHandler P req s
  | .delete mounted req, s => deleteHandler P mounted req s

/-- The token a request carries; an upload carries none. -/
def WebChange.token : WebChange → Option (List UInt8)
  | .upload _ => none
  | .rename req => req.token
  | .delete _ req => req.token

/-- The Flash and the save volume, with any failures and power cuts. -/
def webDevice (P : Partition) (incomplete : List UInt8 → Prop) :
    Device (FlashOp ⊕ FileOp) (Sum.elim FlashRes FileRes) (Flash × SaveFs) :=
  (flashDevice P (slotsTorn P)).sum (saveDevice incomplete)

/-- `gb_storage_init` returned, and left the catalog. -/
def Initialised (P : Partition) (D : Device FlashOp FlashRes Flash)
    (s : Catalog) (f : Flash) (s' : Catalog) (f' : Flash) : Prop :=
  ∃ ok, (gbStorageInit P s).Exec D f (some (ok, s')) f'

/-- Any sequence of requests, one at a time, with power cuts and re-initialisations on a device, and how
many commits there were. -/
inductive WebRun (P : Partition) (incomplete : List UInt8 → Prop) (D : Device FlashOp FlashRes Flash) (s₀ : Catalog)
    (w₀ : Flash × SaveFs) : Nat → Catalog → Flash × SaveFs → Prop where
  | start : WebRun P incomplete D s₀ w₀ 0 s₀ w₀
  | request {n k : Nat} {s s' : Catalog} {w w' : Flash × SaveFs} {r : Response} (h : WebRun P incomplete D s₀ w₀ n s w)
      (c : WebChange) (he : (c.run P s).Exec (webDevice P incomplete) w (some (r, s')) w') (hk : Commits P w.1 w'.1 k) :
      WebRun P incomplete D s₀ w₀ (n + k) s' w'
  | interrupted {n k : Nat} {s s' : Catalog} {w w' : Flash × SaveFs} {f : Flash} (h : WebRun P incomplete D s₀ w₀ n s w)
      (c : WebChange) (he : (c.run P s).Exec (webDevice P incomplete) w none w') (hk : Commits P w.1 w'.1 k)
      (hboot : Initialised P D {} w'.1 s' f) : WebRun P incomplete D s₀ w₀ (n + k) s' (f, w'.2)
  | restart {n : Nat} {s s' : Catalog} {w : Flash × SaveFs} {f : Flash} (h : WebRun P incomplete D s₀ w₀ n s w)
      (hboot : Initialised P D {} w.1 s' f) : WebRun P incomplete D s₀ w₀ n s' (f, w.2)
  | reinit {n : Nat} {s s' : Catalog} {w : Flash × SaveFs} {f : Flash} (h : WebRun P incomplete D s₀ w₀ n s w)
      (hinit : Initialised P D s w.1 s' f) : WebRun P incomplete D s₀ w₀ n s' (f, w.2)

/-! ## What is open is what the Flash holds -/

/-- An open catalog is the one on the Flash. -/
def Mirrors (P : Partition) (s : Catalog) (f : Flash) : Prop :=
  s.needsReload = false → ∃ l, reload P f = some l ∧ InSync s l

theorem Mirrors.synced (h : Mirrors P s f) (hopen : s.needsReload = false) :
    ∃ l, Synced P s f l ∧ InSync s l := by
  obtain ⟨l, hl, hsync⟩ := h hopen
  exact ⟨l, ⟨hl, fun _ _ => hsync⟩, hsync⟩

theorem InSync.partition_eq {l : Catalog} (h : InSync s l) : s.partition = true := by
  have hp := h.loaded.partition
  rw [← h.eq] at hp
  exact hp

theorem Initialised.mirrors (h : Initialised P (initDevice P (slotsTorn P)) s f s' f') : f' = f ∧ Mirrors P s' f' := by
  obtain ⟨ok, he⟩ := h
  obtain ⟨rfl, hr⟩ := Prog.wp_exec (gbStorageInit_hashed P (slotsTorn P) s f) he
  refine ⟨rfl, fun hopen => ?_⟩
  cases ok with
  | true =>
    have hl := hr.reloaded rfl
    have hloaded := reload_loaded hl
    refine ⟨s', hl, ?_, hloaded⟩
    show ({ s' with mapped := false, selected := none } : Catalog) = s'
    rw [← hloaded.mapped, ← hloaded.selected]
  | false =>
    have hclosed := (hr.closed rfl).1
    rw [show s'.needsReload = false from hopen] at hclosed
    cases hclosed

/-- What a change does to the catalog: nothing, or a storage call on the one on the Flash. -/
inductive Changing (P : Partition) (s : Catalog) (f : Flash)
    (out : Option (Response × Catalog)) (f' : Flash) : Prop where
  | kept (hs : ∀ r s', out = some (r, s') → s' = s) (hf : f' = f)
  | advanced {l : Catalog} {same : Prop} {target : List RomEntry → Prop} {result : Option (Bool × Catalog)}
      (hl : reload P f = some l) (hsync : InSync s l) (h : Advance P same target s l result f')
      (hout : ∀ r s', out = some (r, s') → ∃ ok, result = some (ok, s'))

theorem Changing.refused {r : Response} (hf : f' = f) : Changing P s f (some (r, s)) f' :=
  .kept (fun _ _ h => (Prod.mk.inj (Option.some.inj h)).2.symm) hf

theorem WebChange.changing {out : Option (Response × Catalog)} (c : WebChange) (h : Mirrors P s w.1)
    (he : (c.run P s).Exec (webDevice P incomplete) w out w') : Changing P s w.1 out w'.1 := by
  have hmapped : ∀ {result : Option (Bool × Catalog)} {answer : Bool × Catalog → Response},
      ∀ r s', result.map (fun result => (answer result, result.2)) = some (r, s') →
        ∃ ok, result = some (ok, s') := by
    intro result answer r s' hmap
    obtain ⟨⟨ok, s₁⟩, hresult, heq⟩ := Option.map_eq_some_iff.mp hmap
    obtain ⟨-, rfl⟩ := Prod.mk.inj heq
    exact ⟨ok, hresult⟩
  cases c with
  | upload req =>
    cases uploadHandler_end he with
    | refused => exact .refused rfl
    | @called name bytes reader f out r hcall =>
      by_cases hclosed : s.needsReload = true
      · -- a closed catalog takes no upload
        have hrefuse : gbStorageUpload P name bytes reader s = pure (false, s) :=
          if_pos (.inr (.inl hclosed))
        rw [hrefuse] at hcall
        obtain ⟨rfl, rfl⟩ := Prog.exec_pure_iff.mp hcall
        exact .refused rfl
      · obtain ⟨l, hsynced, hsync⟩ := h.synced (eq_false_of_ne_true hclosed)
        exact .advanced hsynced.loads hsync (upload_advance hsynced name bytes reader hcall) hmapped
  | rename req =>
    cases renameHandler_end he with
    | refused => exact .refused rfl
    | turnedDown hlook hr => exact .refused ((gbStorageResolveToken_hashing P _ s).kept hlook)
    | lookCut hlook => exact .kept nofun ((gbStorageResolveToken_hashing P _ s).kept hlook)
    | called htoken hrow hname hcall hr =>
      obtain rfl := (gbStorageResolveToken_hashing P _ s).kept hrow
      obtain ⟨l, hsynced, hsync⟩ := h.synced (gbStorageResolveToken_names hrow).opened
      exact .advanced hsynced.loads hsync (rename_advance hsynced _ _ hcall) hmapped
  | delete mounted req =>
    -- whether the save is removed after it or not, the call decides
    have hdelete : ∀ {token : List UInt8} {row : Nat} {f₀ f' : Flash} {result : Option (Bool × Catalog)}
        {out : Option (Response × Catalog)},
        (gbStorageResolveToken P token s).Exec (flashDevice P (slotsTorn P)) w.1 (some (some row)) f₀ →
        (gbStorageDelete P row s).Exec (flashDevice P (slotsTorn P)) f₀ result f' →
        (∀ r s', out = some (r, s') → ∃ ok, result = some (ok, s')) → Changing P s w.1 out f' := by
      intro token row f₀ f' result out hrow hcall hout
      obtain rfl := (gbStorageResolveToken_hashing P _ s).kept hrow
      obtain ⟨l, hsynced, hsync⟩ := h.synced (gbStorageResolveToken_names hrow).opened
      exact .advanced hsynced.loads hsync (delete_advance hsynced _ hcall) hout
    have hsame : ∀ {r₀ : Response} {ok : Bool} {s₁ : Catalog}, ∀ r s', some (r₀, s₁) = some (r, s') →
        ∃ ok', some (ok, s₁) = some (ok', s') := by
      intro r₀ ok s₁ r s' hsome
      obtain ⟨-, rfl⟩ := Prod.mk.inj (Option.some.inj hsome)
      exact ⟨ok, rfl⟩
    cases deleteHandler_end he with
    | refused => exact .refused rfl
    | turnedDown hlook hr => exact .refused ((gbStorageResolveToken_hashing P _ s).kept hlook)
    | lookCut hlook => exact .kept nofun ((gbStorageResolveToken_hashing P _ s).kept hlook)
    | cut htoken hrow hcall => exact hdelete hrow hcall nofun
    | failed htoken hrow hcall hr => exact hdelete hrow hcall hsame
    | shared htoken hrow hshared hcall => exact hdelete hrow hcall hsame
    | removed htoken hrow halone hcall hv =>
      refine hdelete hrow hcall fun r s' hmap => ?_
      obtain ⟨deleted, -, heq⟩ := Option.map_eq_some_iff.mp hmap
      obtain ⟨-, rfl⟩ := Prod.mk.inj heq
      exact ⟨true, rfl⟩

theorem Changing.mirrors {out : Option (Response × Catalog)} (hc : Changing P s f out f')
    (h : Mirrors P s f) {r : Response}
    (hout : out = some (r, s')) : Mirrors P s' f' := by
  cases hc with
  | kept hs hf =>
    obtain rfl := hs r s' hout
    rw [hf]
    exact h
  | advanced hl hsync hadvance hresult =>
    intro hopen
    obtain ⟨ok, rfl⟩ := hresult r s' hout
    obtain ⟨l', hsynced, -⟩ := hadvance.synced
    have hpart := (hadvance.opened ok s' rfl hopen).trans hsync.partition_eq
    exact ⟨l', hsynced.loads, hsynced.inSync hpart hopen⟩

theorem WebRun.mirrors {s₀ : Catalog} {w₀ : Flash × SaveFs} {n : Nat}
    (h : WebRun P incomplete (initDevice P (slotsTorn P)) s₀ w₀ n s w)
    (h₀ : Mirrors P s₀ w₀.1) : Mirrors P s w.1 := by
  induction h with
  | start => exact h₀
  | request h c he hk ih => exact (c.changing ih he).mirrors ih rfl
  | interrupted h c he hk hboot ih =>
    obtain ⟨rfl, hmirrors⟩ := hboot.mirrors
    exact hmirrors
  | restart h hboot ih =>
    obtain ⟨rfl, hmirrors⟩ := hboot.mirrors
    exact hmirrors
  | reinit h hinit ih =>
    obtain ⟨rfl, hmirrors⟩ := hinit.mirrors
    exact hmirrors

/-! ## Generations -/

/-- After so many commits since `l₀` was on the Flash. -/
def Since (P : Partition) (l₀ : Catalog) (n : Nat) (f : Flash) : Prop :=
  ∃ l, reload P f = some l ∧ l.generation = l₀.generation + UInt32.ofNat n ∧ (n = 0 → l = l₀)

theorem Since.changing {l₀ : Catalog} {n k : Nat} {out : Option (Response × Catalog)} (h : Since P l₀ n f)
    (hc : Changing P s f out f') (hk : Commits P f f' k) : Since P l₀ (n + k) f' := by
  obtain ⟨l, hl, hgen, hsame⟩ := h
  cases hc with
  | kept hs hf =>
    rw [hf] at hk ⊢
    rw [commits_same P f hk]
    exact ⟨l, hl, hgen, hsame⟩
  | advanced hl₁ hsync hadvance hresult =>
    obtain rfl := Option.some.inj (hl.symm.trans hl₁)
    obtain ⟨l', hsynced, hnext, hkept⟩ := hadvance.counted hl hk
    refine ⟨l', hsynced.loads, ?_, fun hzero => ?_⟩
    · rw [hnext, hgen, UInt32.add_assoc, UInt32.ofNat_add]
    · rw [hkept (by omega), hsame (by omega)]

theorem WebRun.since {s₀ : Catalog} {w₀ : Flash × SaveFs} {n : Nat} {l₀ : Catalog}
    (h : WebRun P incomplete (initDevice P (slotsTorn P)) s₀ w₀ n s w)
    (h₀ : Mirrors P s₀ w₀.1) (hl₀ : reload P w₀.1 = some l₀) : Since P l₀ n w.1 := by
  induction h with
  | start => exact ⟨l₀, hl₀, (UInt32.add_zero _).symm, fun _ => rfl⟩
  | request h c he hk ih => exact ih.changing (c.changing (h.mirrors h₀) he) hk
  | interrupted h c he hk hboot ih =>
    obtain ⟨rfl, -⟩ := hboot.mirrors
    exact ih.changing (c.changing (h.mirrors h₀) he) hk
  | restart h hboot ih =>
    obtain ⟨rfl, -⟩ := hboot.mirrors
    exact ih
  | reinit h hinit ih =>
    obtain ⟨rfl, -⟩ := hinit.mirrors
    exact ih

/-! ## Tokens -/

/-- SHA-256 is injective on what the rows of two catalogs are hashed as. -/
def TokensInjective (P : Partition) (s s₀ : Catalog) : Prop :=
  ∀ row e row₀ e₀, s.entries[row]? = some e → s₀.entries[row₀]? = some e₀ →
    P.sha256 (tokenBytes s.generation row e) = P.sha256 (tokenBytes s₀.generation row₀ e₀) →
      (s.generation, row, e) = (s₀.generation, row₀, e₀)

theorem listGames_hashing (P : Partition) (s : Catalog) : ∀ rows, Hashing (listGames P s rows)
  | [] => trivial
  | (e, row) :: rows => by
    refine Prog.only_bind (gbStorageToken_hashing P row s) fun token => ?_
    split
    · exact trivial
    · exact Prog.only_bind (listGames_hashing P s rows) fun _ => trivial

/-- A displayed game is a row of the open catalog with its token. -/
structure Displayed (P : Partition) (s : Catalog) (g : Listed) : Prop where
  opened : s.needsReload = false
  entry : s.entries[g.row]? = some g.entry
  token : tokenOf P s.generation g.row g.entry = g.token

theorem listGames_always (P : Partition) (s : Catalog) :
    ∀ rows, (∀ e row, (e, row) ∈ rows → s.entries[row]? = some e) →
      (listGames P s rows).Always fun r => ∀ g ∈ r.1, Displayed P s g
  | [], _ => fun _ hg => absurd hg List.not_mem_nil
  | (e, row) :: rows, hrows => by
    have hentry := hrows e row List.mem_cons_self
    have hrest := listGames_always P s rows fun e row hmem => hrows e row (List.mem_cons_of_mem _ hmem)
    unfold listGames
    rw [Prog.always_bind]
    refine Prog.Always.mono (fun token htoken => ?_) (gbStorageToken_always P s row)
    cases token with
    | none => exact fun _ hg => absurd hg List.not_mem_nil
    | some token =>
      dsimp only
      rw [Prog.always_bind]
      refine Prog.Always.mono (fun shown hshown => ?_) hrest
      intro g hg
      rcases List.mem_cons.mp hg with rfl | hg
      · obtain ⟨hopen, e', he', hhash⟩ := htoken token rfl
        obtain rfl := Option.some.inj (hentry.symm.trans he')
        exact ⟨hopen, hentry, hhash⟩
      · exact hshown g hg

theorem listGames_mem {torn : Flash → Flash → Flash → Prop} {games : List Listed} {complete : Bool}
    (h : (listGames P s s.entries.zipIdx).Exec (flashDevice P torn) f (some (games, complete)) f') {g : Listed}
    (hg : g ∈ games) : Displayed P s g :=
  Prog.wp_exec ((listGames_always P s _ fun _ _ hmem => List.mk_mem_zipIdx_iff_getElem?.mp hmem).wp f) h g hg

theorem tokenOf_length (P : Partition) (generation : UInt32) (row : Nat) (e : RomEntry) :
    (tokenOf P generation row e).length = 64 := by
  unfold tokenOf
  rw [length_hexBytes, Vector.length_toList]

/-- Two rows with the same token are the same row of catalogs of the same generation. -/
theorem TokensInjective.row {s₀ : Catalog} (h : TokensInjective P s s₀) {row row₀ : Nat} {e e₀ : RomEntry}
    (he : s.entries[row]? = some e) (he₀ : s₀.entries[row₀]? = some e₀)
    (htoken : tokenOf P s.generation row e = tokenOf P s₀.generation row₀ e₀) :
    s.generation = s₀.generation ∧ row = row₀ ∧ e = e₀ := by
  have hsha := Vector.toList_inj.mp (hexBytes_inj htoken)
  have htriple := h row e row₀ e₀ he he₀ hsha
  simp only [Prod.mk.injEq] at htriple
  exact htriple

/-- Fewer than 2^32 commits later, the same generation means no commit. -/
theorem Since.same_generation {l l₀ : Catalog} {n : Nat} (h : Since P l₀ n f) (hl : reload P f = some l)
    (hgen : l.generation = l₀.generation) (hn : n < 4294967296) : n = 0 := by
  obtain ⟨l', hl', hsince, -⟩ := h
  obtain rfl := Option.some.inj (hl.symm.trans hl')
  have hnat := congrArg UInt32.toNat (hgen.symm.trans hsince)
  have hlt := l₀.generation.toNat_lt
  rw [UInt32.toNat_add, UInt32.toNat_ofNat'] at hnat
  omega

/-! ## What a request does to the row it names -/

/-- What a request does to a row: the entries after it. -/
def WebChange.Rows : WebChange → Listed → List RomEntry → List RomEntry → Prop
  | .upload _, _, _, _ => False
  | .rename req, g, entries, entries' =>
      ∃ name, req.newName = some name ∧ entries' = entries.set g.row (renamedEntry name g.entry)
  | .delete _ _, g, entries, entries' => entries' = entries.eraseIdx g.row

/-- Nothing is to be done: the row has that name. -/
def WebChange.Idle : WebChange → Listed → Prop
  | .rename req, g => ∃ name, req.newName = some name ∧ cstr g.entry.name.toList = cstr name
  | _, _ => False

/-- The save files that belong to the row. -/
def WebChange.Saves : WebChange → Listed → Path → Prop
  | .delete _ _, g, path => path = savePath g.entry.sha256 copyA ∨ path = savePath g.entry.sha256 copyB
  | _, _, _ => False

/-- The request touches the row, its entry and its saves, and nothing else. -/
structure OnlyRow (P : Partition) (c : WebChange) (g : Listed)
    (s : Catalog) (w : Flash × SaveFs) (out : Option (Response × Catalog))
    (w' : Flash × SaveFs) : Prop where
  catalog : reload P w'.1 = reload P w.1 ∨ ∃ l, reload P w'.1 = some l ∧ c.Rows g s.entries l.entries
  ram : ∀ r s', out = some (r, s') → s'.entries = s.entries ∨ c.Rows g s.entries s'.entries
  saves : ∀ path, ¬ c.Saves g path → w'.2.files path = w.2.files path
  done : ∀ r s', out = some (r, s') → r.status = 200 → c.Rows g s.entries s'.entries ∨ c.Idle g

/-- The request is refused, unless the power is cut first, and nothing changes. -/
structure Refused (s : Catalog) (w : Flash × SaveFs) (out : Option (Response × Catalog))
    (w' : Flash × SaveFs) : Prop where
  answer : ∀ r s', out = some (r, s') → s' = s ∧ r.status ≠ 200
  unchanged : w' = w

theorem Advance.onlyRow {c : WebChange} {g : Listed} {same : Prop} {target : List RomEntry → Prop}
    {result : Option (Bool × Catalog)} {l : Catalog} (h : Advance P same target s l result f')
    (hl : reload P f = some l)
    (hrows : ∀ entries, target entries → c.Rows g s.entries entries) :
    (reload P f' = reload P f ∨ ∃ l', reload P f' = some l' ∧ c.Rows g s.entries l'.entries) ∧
      ∀ ok s', result = some (ok, s') → s'.entries = s.entries ∨ c.Rows g s.entries s'.entries := by
  constructor
  · obtain ⟨l', hsynced, rfl | ⟨entries, hto, rfl⟩⟩ := h.synced
    · exact .inl (hsynced.loads.trans hl.symm)
    · exact .inr ⟨_, hsynced.loads, hrows entries hto⟩
  · intro ok s' hresult
    cases ok with
    | true =>
      rcases h.confirmed s' hresult with ⟨-, rfl⟩ | hto
      · exact .inl rfl
      · exact .inr (hrows _ hto)
    | false => exact .inl (h.failed s' hresult)

theorem rename_onlyRow {req : WebRequest} {g : Listed} {name : List UInt8}
    {out : Option (Bool × Catalog)} {answer : Bool → Response}
    (h : Mirrors P s f) (hopen : s.needsReload = false) (hentry : s.entries[g.row]? = some g.entry)
    (hname : req.newName = some name)
    (he : (gbStorageRename P g.row name s).Exec (flashDevice P (slotsTorn P)) f out f')
    (hanswer : (answer false).status ≠ 200)
    (v : SaveFs) :
    OnlyRow P (.rename req) g s (f, v) (out.map fun result => (answer result.1, result.2)) (f', v) := by
  obtain ⟨l, hsynced, -⟩ := h.synced hopen
  have hadvance := rename_advance hsynced _ _ he
  have hrows : ∀ entries, Renaming g.row name s entries →
      (WebChange.rename req).Rows g s.entries entries := by
    rintro entries ⟨-, e, hrow, rfl⟩
    obtain rfl := Option.some.inj (hentry.symm.trans hrow)
    exact ⟨name, hname, rfl⟩
  obtain ⟨hcatalog, hram⟩ := hadvance.onlyRow hsynced.loads hrows
  refine ⟨hcatalog, fun r s' hout => ?_, fun _ _ => rfl, fun r s' hout hstatus => ?_⟩
  · obtain ⟨⟨ok, s₁⟩, hresult, heq⟩ := Option.map_eq_some_iff.mp hout
    obtain ⟨-, rfl⟩ := Prod.mk.inj heq
    exact hram ok s₁ hresult
  · obtain ⟨⟨ok, s₁⟩, hresult, heq⟩ := Option.map_eq_some_iff.mp hout
    obtain ⟨rfl, rfl⟩ := Prod.mk.inj heq
    cases ok with
    | false => exact absurd hstatus hanswer
    | true =>
      rcases hadvance.confirmed s₁ hresult with ⟨⟨e, hrow, hsame⟩, -⟩ | hto
      · obtain rfl := Option.some.inj (hentry.symm.trans hrow)
        exact .inr ⟨name, hname, hsame⟩
      · exact .inl (hrows _ hto)

/-- A delete call on the displayed row, and what it leaves of the save files. -/
theorem delete_onlyRow {mounted : Bool} {req : WebRequest} {g : Listed}
    {result : Option (Bool × Catalog)} {v v' : SaveFs}
    {out : Option (Response × Catalog)} (h : Mirrors P s f) (hopen : s.needsReload = false)
    (he : (gbStorageDelete P g.row s).Exec (flashDevice P (slotsTorn P)) f result f')
    (hout : ∀ r s', out = some (r, s') → ∃ ok, result = some (ok, s') ∧ (r.status = 200 → ok = true))
    (hsaves : ∀ path, path ≠ savePath g.entry.sha256 copyA → path ≠ savePath g.entry.sha256 copyB →
      v'.files path = v.files path) :
    OnlyRow P (.delete mounted req) g s (f, v) out (f', v') := by
  obtain ⟨l, hsynced, -⟩ := h.synced hopen
  have hadvance := delete_advance hsynced _ he
  have hrows : ∀ entries, Deleting g.row s entries →
      (WebChange.delete mounted req).Rows g s.entries entries := fun entries hto => hto.2
  obtain ⟨hcatalog, hram⟩ := hadvance.onlyRow hsynced.loads hrows
  refine ⟨hcatalog, fun r s' hr => ?_, fun path hpath => ?_, fun r s' hr hstatus => ?_⟩
  · obtain ⟨ok, hresult, -⟩ := hout r s' hr
    exact hram ok s' hresult
  · obtain ⟨ha, hb⟩ := not_or.mp hpath
    exact hsaves path ha hb
  · obtain ⟨ok, hresult, hok⟩ := hout r s' hr
    obtain rfl := hok hstatus
    rcases hadvance.confirmed s' hresult with ⟨hfalse, -⟩ | hto
    · exact hfalse.elim
    · exact .inl (hrows _ hto)

theorem Refused.response {r : Response} (hr : r.status ≠ 200) (hw : w' = w) : Refused s w (some (r, s)) w' := by
  refine ⟨fun r' s' hout => ?_, hw⟩
  obtain ⟨rfl, rfl⟩ := Prod.mk.inj (Option.some.inj hout)
  exact ⟨rfl, hr⟩

/-- A request with a token is refused, or touches the row the token names only. -/
theorem WebChange.effect {c : WebChange} {token : List UInt8} (htoken : c.token = some token)
    (h : Mirrors P s w.1)
    {out : Option (Response × Catalog)} (he : (c.run P s).Exec (webDevice P incomplete) w out w') :
    Refused s w out w' ∨ ∃ row, Names P s token row ∧
      ∀ g : Listed, g.row = row → s.entries[row]? = some g.entry → OnlyRow P c g s w out w' := by
  -- looking for the token changes nothing
  have hkept : ∀ {token : List UInt8} {found : Option (Option Nat)} {f₀ : Flash},
      (gbStorageResolveToken P token s).Exec (flashDevice P (slotsTorn P)) w.1 found f₀ → (f₀, w.2) = w :=
    fun hlook => Prod.ext ((gbStorageResolveToken_hashing P _ s).kept hlook) rfl
  cases c with
  | upload req => cases htoken
  -- a request that is not refused has found the row of its token
  | rename req =>
    cases renameHandler_end he with
    | refused hr => exact .inl (.response hr rfl)
    | turnedDown hlook hr => exact .inl (.response hr (hkept hlook))
    | lookCut hlook => exact .inl ⟨nofun, hkept hlook⟩
    | @called token' name row f₀ f out r htoken' hrow hname hcall hr =>
      obtain rfl := Option.some.inj (htoken.symm.trans htoken')
      have hnames := gbStorageResolveToken_names hrow
      obtain rfl := congrArg Prod.fst (hkept hrow)
      refine .inr ⟨row, hnames, ?_⟩
      rintro g rfl hentry
      exact rename_onlyRow h hnames.opened hentry hname hcall hr w.2
  | delete mounted req =>
    cases deleteHandler_end he with
    | refused hr => exact .inl (.response hr rfl)
    | turnedDown hlook hr => exact .inl (.response hr (hkept hlook))
    | lookCut hlook => exact .inl ⟨nofun, hkept hlook⟩
    | @cut token' row f₀ f htoken' hrow hcall =>
      obtain rfl := Option.some.inj (htoken.symm.trans htoken')
      have hnames := gbStorageResolveToken_names hrow
      obtain rfl := congrArg Prod.fst (hkept hrow)
      refine .inr ⟨row, hnames, ?_⟩
      rintro g rfl hentry
      exact delete_onlyRow h hnames.opened hcall nofun fun _ _ _ => rfl
    | @failed token' row s' f₀ f r htoken' hrow hcall hr =>
      obtain rfl := Option.some.inj (htoken.symm.trans htoken')
      have hnames := gbStorageResolveToken_names hrow
      obtain rfl := congrArg Prod.fst (hkept hrow)
      refine .inr ⟨row, hnames, ?_⟩
      rintro g rfl hentry
      refine delete_onlyRow h hnames.opened hcall (fun r' s₁ hout => ?_) fun _ _ _ => rfl
      obtain ⟨rfl, rfl⟩ := Prod.mk.inj (Option.some.inj hout)
      exact ⟨false, rfl, fun hstatus => absurd hstatus hr⟩
    | @shared token' row s' f₀ f r htoken' hrow hshared hcall =>
      obtain rfl := Option.some.inj (htoken.symm.trans htoken')
      have hnames := gbStorageResolveToken_names hrow
      obtain rfl := congrArg Prod.fst (hkept hrow)
      refine .inr ⟨row, hnames, ?_⟩
      rintro g rfl hentry
      refine delete_onlyRow h hnames.opened hcall (fun r' s₁ hout => ?_) fun _ _ _ => rfl
      obtain ⟨rfl, rfl⟩ := Prod.mk.inj (Option.some.inj hout)
      exact ⟨true, rfl, fun _ => rfl⟩
    | @removed token' row s' f₀ f v out r htoken' hrow halone hcall hv =>
      obtain rfl := Option.some.inj (htoken.symm.trans htoken')
      have hnames := gbStorageResolveToken_names hrow
      obtain rfl := congrArg Prod.fst (hkept hrow)
      refine .inr ⟨row, hnames, ?_⟩
      rintro g rfl hentry
      -- the files are those of the deleted row
      rw [List.getD_eq_getElem?_getD, hentry] at hv
      have hfiles := Prog.wp_exec (gbSavesDelete_wp mounted g.entry.sha256 w.2) hv
      refine delete_onlyRow h hnames.opened hcall (fun r' s₁ hout => ?_) ?_
      · obtain ⟨deleted, -, heq⟩ := Option.map_eq_some_iff.mp hout
        obtain ⟨-, rfl⟩ := Prod.mk.inj heq
        exact ⟨true, rfl, fun _ => rfl⟩
      · cases out with
        | none => exact hfiles
        | some deleted => exact hfiles

/-! ## Stale requests -/

/-- The request is answered as done, or changes the catalog or a save file. -/
def TakesEffect (P : Partition) (s : Catalog) (w : Flash × SaveFs)
    (out : Option (Response × Catalog)) (w' : Flash × SaveFs) : Prop :=
  reload P w'.1 ≠ reload P w.1 ∨ w'.2.files ≠ w.2.files ∨ ∃ r s',
    out = some (r, s') ∧ (s'.entries ≠ s.entries ∨ r.status = 200)

/-- After a boot and any requests a game was displayed with its token; then came more requests, with so
many commits. -/
inductive DisplayedSince (P : Partition) (incomplete : List UInt8 → Prop)
    (D : Device FlashOp FlashRes Flash) (g : Listed)
    (s₁ : Catalog) : Nat → Catalog → Flash × SaveFs → Prop where
  | mk {f₀ f₁ : Flash} {s₀ s₂ : Catalog} {w₀ w₁ w₂ : Flash × SaveFs}
      {n₁ n₂ : Nat} {games : List Listed} {complete : Bool}
      (hboot : Initialised P D {} f₀ s₀ w₀.1) (hbefore : WebRun P incomplete D s₀ w₀ n₁ s₁ w₁)
      (hlist : (listGames P s₁ s₁.entries.zipIdx).Exec (flashDevice P (slotsTorn P)) w₁.1 (some (games, complete)) f₁)
      (hg : g ∈ games) (hsince : WebRun P incomplete D s₁ (f₁, w₁.2) n₂ s₂ w₂) :
      DisplayedSince P incomplete D g s₁ n₂ s₂ w₂

/-- A game was displayed with its token; then come any requests, failures, power cuts and
re-initialisations that can hash the newest directory, with fewer than 2^32 commits. A delete or rename
request with that token that takes effect does so on the displayed row and entry alone, with no commit
in between; with a commit in between it is refused, and whenever it takes no effect the answer is an
error. Without a commit, while no reload is pending and the hashing succeeds, the token names its own
row. -/
theorem stale_requests_refused (P : Partition) (incomplete : List UInt8 → Prop) (g : Listed) (s₁ s₂ : Catalog) (n : Nat)
    (w₂ : Flash × SaveFs) (hdisplayed : DisplayedSince P incomplete (initDevice P (slotsTorn P)) g s₁ n s₂ w₂)
    (hn : n < 4294967296) (hsha : TokensInjective P s₂ s₁) (token : List UInt8) (htoken : cstr token = g.token) :
    (∀ c : WebChange, c.token = some token → ∀ out w₃, (c.run P s₂).Exec (webDevice P incomplete) w₂ out w₃ →
      (TakesEffect P s₂ w₂ out w₃ → n = 0 ∧ s₂.entries[g.row]? = some g.entry ∧ OnlyRow P c g s₂ w₂ out w₃) ∧
        (n ≠ 0 → Refused s₂ w₂ out w₃) ∧
          (¬ TakesEffect P s₂ w₂ out w₃ → reload P w₃.1 = reload P w₂.1 ∧ w₃.2.files = w₂.2.files ∧
            ∀ r s', out = some (r, s') → r.status ≠ 200 ∧ s'.entries = s₂.entries)) ∧
      (n = 0 → s₂.needsReload = false → (∃ r f, (gbStorageResolveToken P token s₂).Exec (flashSucceeding P) w₂.1 r f) ∧
        ∀ r f, (gbStorageResolveToken P token s₂).Exec (flashSucceeding P) w₂.1 r f → r = some (some g.row)) := by
  obtain @⟨f₀, f₁, s₀, _, w₀, w₁, _, n₁, _, games, complete, hboot, hbefore, hlist, hg, hsince⟩ := hdisplayed
  have hmirrors₁ := hbefore.mirrors hboot.mirrors.2
  obtain ⟨hopen₁, hentry₁, htoken₁⟩ := listGames_mem hlist hg
  obtain rfl : f₁ = w₁.1 := (listGames_hashing P s₁ _).kept hlist
  obtain ⟨l₁, hl₁, hsync₁⟩ := hmirrors₁ hopen₁
  have hmirrors₂ := hsince.mirrors hmirrors₁
  have hsince' := hsince.since hmirrors₁ hl₁
  -- a row the token names is the displayed one, and nothing was committed
  have hnames : ∀ {row : Nat}, Names P s₂ token row → n = 0 ∧ row = g.row ∧ s₂.entries[row]? = some g.entry := by
    rintro row ⟨hopen₂, e, he, hhash⟩
    rw [htoken, ← htoken₁] at hhash
    obtain ⟨hgen, hsame, hentry⟩ := hsha.row he hentry₁ hhash
    obtain ⟨l₂, hl₂, hsync₂⟩ := hmirrors₂ hopen₂
    rw [hsync₂.generation_eq, hsync₁.generation_eq] at hgen
    exact ⟨hsince'.same_generation hl₂ hgen hn, hsame, by rw [he, hentry]⟩
  constructor
  -- a row that is touched is named by the token, so nothing was committed
  · intro c hc out w₃ he
    have heffect := c.effect hc hmirrors₂ he
    refine ⟨fun htakes => ?_, fun hcommits => ?_, fun hnone => ?_⟩
    · rcases heffect with ⟨hanswer, rfl⟩ | ⟨row, hrow, honly⟩
      · rcases htakes with hne | hne | ⟨r', s', hout, hne⟩
        · exact absurd rfl hne
        · exact absurd rfl hne
        · obtain ⟨rfl, hr⟩ := hanswer r' s' hout
          exact hne.elim (absurd rfl) (absurd · hr)
      · obtain ⟨hzero, rfl, hentry⟩ := hnames hrow
        exact ⟨hzero, hentry, honly g rfl hentry⟩
    · rcases heffect with hrefused | ⟨row, hrow, -⟩
      · exact hrefused
      · exact absurd (hnames hrow).1 hcommits
    · unfold TakesEffect at hnone
      simp only [not_or, not_exists, not_and, ne_eq, not_not] at hnone
      exact ⟨hnone.1, hnone.2.1, fun r s' hout => ⟨(hnone.2.2 r s' hout).2, (hnone.2.2 r s' hout).1⟩⟩
  -- without a commit the catalog is still the displayed one
  · intro hzero hopen₂
    obtain ⟨l₂, hl₂, hsync₂⟩ := hmirrors₂ hopen₂
    obtain ⟨l, hl, -, hsame⟩ := hsince'
    obtain rfl := Option.some.inj (hl₂.symm.trans hl)
    obtain rfl := hsame hzero
    have hentry₂ : s₂.entries[g.row]? = some g.entry := by rw [hsync₂.entries_eq, ← hsync₁.entries_eq, hentry₁]
    have htoken₂ : tokenOf P s₂.generation g.row g.entry = cstr token := by
      rw [htoken, ← htoken₁, hsync₂.generation_eq, hsync₁.generation_eq]
    have hlength : (cstr token).length = 64 := by rw [← htoken₂, tokenOf_length]
    constructor
    · obtain ⟨r, f, he⟩ := (gbStorageResolveToken_hashing P token s₂).exec w₂.1
      exact ⟨_, _, he⟩
    · intro r f he
      have hpost := Prog.wp_exec (gbStorageResolveToken_succeeds hopen₂ hlength w₂.1) he
      match r, hpost with
      | some none, hpost => exact absurd htoken₂ (hpost.2 rfl _ _ hentry₂)
      | some (some row), hpost => rw [(hnames (gbStorageResolveToken_names he)).2.1]

/-! ## A renaming -/

/-- The game as it is displayed. -/
def oneListed : Listed := ⟨0, oneGame, tokenOf gamePartition 1 0 oneGame⟩

/-- A request to rename it. -/
def renameOne (name : UInt8) : WebRequest := { token := some oneListed.token, name := some [name] }

/-- The catalog after the renaming. -/
def renamedOne (name : UInt8) : List RomEntry := [renamedEntry [name] oneGame]

theorem oneGame_listed (f : Flash) : (listGames gamePartition oneGameCatalog oneGameCatalog.entries.zipIdx).Exec
    (flashDevice gamePartition (slotsTorn gamePartition)) f (some ([oneListed], true)) f :=
  .perform (.inl ⟨trivial, rfl, rfl⟩) (.perform (.inl ⟨trivial, rfl, rfl⟩) (.perform (.inl ⟨trivial, rfl, rfl⟩)
    (.perform (.inl ⟨trivial, rfl, rfl⟩) (.perform (.inl ⟨trivial, rfl, rfl⟩) (.pure _ _)))))

theorem oneListed_token : cstr oneListed.token = oneListed.token := by decide +kernel

theorem oneListed_resolved (f : Flash) : (gbStorageResolveToken gamePartition oneListed.token oneGameCatalog).Exec
    (flashSucceeding gamePartition) f (some (some 0)) f := by
  obtain ⟨r, f', he⟩ := (gbStorageResolveToken_hashing gamePartition oneListed.token oneGameCatalog).exec f
  have hlength : (cstr oneListed.token).length = 64 := by
    rw [oneListed_token]
    exact tokenOf_length ..
  obtain ⟨rfl, hnone⟩ := Prog.wp_exec (gbStorageResolveToken_succeeds rfl hlength f) he
  cases r with
  | none => exact absurd oneListed_token.symm (hnone rfl 0 oneGame rfl)
  | some row =>
    have hrow : row < 1 := (gbStorageResolveToken_names he).listed
    obtain rfl : row = 0 := by omega
    exact he

section
variable {name : UInt8} (hdecode : gbNameUrlDecode [name] 32 = some [name])
  (hvalid : validName [name] (some 0) oneGameCatalog.entries = true) (hne : cstr oneGame.name.toList ≠ cstr [name])

include hvalid hne

theorem renamedOne_exec (f : Flash) :
    (gbStorageRename gamePartition 0 [name] oneGameCatalog).Exec (flashSucceeding gamePartition) f
    (some (true, committed (renamedOne name) oneGameCatalog))
      (writtenFlash gamePartition (renamedOne name) oneGameCatalog f) := by
  have hchecks : ¬ (¬ oneGameCatalog.partition ∨ oneGameCatalog.needsReload ∨ oneGameCatalog.entries.length ≤ 0 ∨
      ¬ validName [name] (some 0) oneGameCatalog.entries) := by
    rw [hvalid]
    decide
  have hok : CatalogOK (dataEnd gamePartition) (renamedOne name) := oneGame_ok.rename hvalid rfl
  unfold gbStorageRename
  rw [if_neg hchecks]
  show Prog.Exec _ (if cstr oneGame.name.toList = cstr [name] then _ else _) _ _ _
  rw [if_neg hne]
  exact publishDirectory_exec (by decide) (by decide) hok oneGameCatalog f

include hdecode

theorem renameOne_exec (incomplete : List UInt8 → Prop) (f : Flash) (v : SaveFs) :
    ((WebChange.rename (renameOne name)).run gamePartition oneGameCatalog).Exec
      (webDevice gamePartition incomplete) (f, v)
      (some (respond 200 "名称已更新，存档保持不变", committed (renamedOne name) oneGameCatalog))
      (writtenFlash gamePartition (renamedOne name) oneGameCatalog f, v) := by
  have hlook := (oneListed_resolved f).refines (flashSucceeding_refines gamePartition (slotsTorn gamePartition))
  have hcall := (renamedOne_exec hvalid hne f).refines (flashSucceeding_refines gamePartition (slotsTorn gamePartition))
  show (renameHandler gamePartition (renameOne name) oneGameCatalog).Exec _ _ _ _
  unfold renameHandler
  have horigin : sameOrigin (renameOne name) = true := rfl
  rw [if_neg (not_not.mpr horigin)]
  have hname : ((renameOne name).name.bind fun encoded => gbNameUrlDecode encoded 32) = some [name] := hdecode
  rw [hname]
  exact Prog.exec_bind (Prog.inl_exec hlook v) (Prog.exec_bind (Prog.inl_exec hcall v) (.pure _ _))

end

section
variable {D : Device FlashOp FlashRes Flash} (incomplete : List UInt8 → Prop) (v : SaveFs)

/-- The game is renamed after a list request. -/
theorem renamed_run : WebRun gamePartition incomplete D oneGameCatalog (oneGameFlash, v) 1
    (committed (renamedOne 0x42) oneGameCatalog) (changedFlash (renamedOne 0x42), v) := by
  have hok : CatalogOK (dataEnd gamePartition) (renamedOne 0x42) :=
    oneGame_ok.rename (by decide : validName [0x42] (some 0) [oneGame] = true) rfl
  have hcommit : Commits gamePartition oneGameFlash (changedFlash (renamedOne 0x42)) 1 := by
    refine .inr ⟨rfl, ?_⟩
    rw [changed_reload hok, oneGame_reload]
    exact fun heq => committed_ne _ _ (Option.some.inj heq)
  exact .request .start (.rename (renameOne 0x42))
    (renameOne_exec (by decide) (by decide) (by decide) incomplete _ v) hcommit

/-- The game was loaded and displayed before any run. -/
theorem oneGame_displayed (hD : (flashSucceeding gamePartition).Refines D) {n : Nat} {s : Catalog} {w : Flash × SaveFs}
    (hsince : WebRun gamePartition incomplete D oneGameCatalog (oneGameFlash, v) n s w) :
    DisplayedSince gamePartition incomplete D oneListed oneGameCatalog n s w := by
  have hboot : Initialised gamePartition D {} oneGameFlash oneGameCatalog (oneGameFlash, v).1 :=
    ⟨true, (gbStorageInit_exec {} oneGame_reload).refines hD⟩
  exact .mk hboot .start (oneGame_listed _) (List.mem_singleton_self _) hsince

end

theorem oneGame_injective : TokensInjective gamePartition oneGameCatalog oneGameCatalog := by
  have hone : ∀ {row : Nat} {e : RomEntry}, oneGameCatalog.entries[row]? = some e → row = 0 ∧ e = oneGame := by
    intro row e he
    cases row with
    | zero => exact ⟨rfl, (Option.some.inj he).symm⟩
    | succ row => cases he
  intro row e row₀ e₀ he he₀ _
  obtain ⟨rfl, rfl⟩ := hone he
  obtain ⟨rfl, rfl⟩ := hone he₀
  rfl

/-- The hash keeps the first byte of the generation. -/
theorem gamePartition_hash (generation : UInt32) (row : Nat) (e : RomEntry) :
    (gamePartition.sha256 (tokenBytes generation row e)).toList[0]? = some (UInt8.ofNat generation.toNat) := by
  have hlen : (Codec.le32.bytes generation).length = 4 := Codec.length_bytes ..
  have hhash : gamePartition.sha256 (tokenBytes generation row e)
      = Vector.ofFn fun i : Fin 32 => (tokenBytes generation row e).getD i 0 := rfl
  rw [hhash, Vector.toList_ofFn, List.getElem?_ofFn, dif_pos (by decide)]
  refine congrArg some ?_
  show ((Codec.le32.bytes generation ++ _) ++ romEntryCodec.bytes e).getD 0 0 = _
  rw [List.getD_append _ _ _ _ (by rw [List.length_append]; omega), List.getD_append _ _ _ _ (by omega),
    Codec.bytes_getD _ _ (by decide)]
  show UInt8.ofNat (generation.toNat / 256 ^ 0) = _
  rw [Nat.pow_zero, Nat.div_one]

theorem renamed_injective :
    TokensInjective gamePartition (committed (renamedOne 0x42) oneGameCatalog) oneGameCatalog := by
  intro row e row₀ e₀ _ _ hhash
  have hfirst : (gamePartition.sha256 (tokenBytes 2 row e)).toList[0]?
      = (gamePartition.sha256 (tokenBytes 1 row₀ e₀)).toList[0]? :=
        congrArg (fun v : Vector UInt8 32 => v.toList[0]?) hhash
  rw [gamePartition_hash, gamePartition_hash] at hfirst
  exact absurd hfirst (by decide)

theorem stale_requests_refused_renamed :
    (∀ c : WebChange, c.token = some oneListed.token → ∀ out w₃,
      (c.run gamePartition (committed (renamedOne 0x42) oneGameCatalog)).Exec (webDevice gamePartition fun _ => True)
        (changedFlash (renamedOne 0x42), { files := fun _ => none }) out w₃ →
      Refused (committed (renamedOne 0x42) oneGameCatalog)
        (changedFlash (renamedOne 0x42), { files := fun _ => none }) out w₃) ∧
      ∀ r f, (gbStorageResolveToken gamePartition oneListed.token oneGameCatalog).Exec (flashSucceeding gamePartition)
        oneGameFlash r f → r = some (some 0) := by
  have hinit := flashSucceeding_init gamePartition (slotsTorn gamePartition)
  constructor
  · have hstale := stale_requests_refused gamePartition (fun _ => True) oneListed _ _ 1 _
      (oneGame_displayed _ { files := fun _ => none } hinit (renamed_run _ _))
        (by decide) renamed_injective oneListed.token
      oneListed_token
    exact fun c hc out w₃ he => (hstale.1 c hc out w₃ he).2.1 (by decide)
  · have hstale := stale_requests_refused gamePartition (fun _ => True) oneListed _ _ 0 _
      (oneGame_displayed _ { files := fun _ => none } hinit .start)
        (by decide) oneGame_injective oneListed.token oneListed_token
    exact (hstale.2 rfl rfl).2

/-- A re-initialisation that cannot hash slot 1 brings the displayed game back after the renaming. -/
theorem renamed_returns (incomplete : List UInt8 → Prop) (v : SaveFs) :
    WebRun gamePartition incomplete (flashDevice gamePartition (slotsTorn gamePartition)) oneGameCatalog
      (oneGameFlash, v) 1
      oneGameCatalog (changedFlash (renamedOne 0x42), v) := by
  have hslot : SlotFound gamePartition (fun _ _ _ => True) (changedFlash (renamedOne 0x42)) 0
      (some (newDirectory gamePartition 1 [oneGame])) := by
    rw [← changed_slot0 (renamedOne 0x42)]
    exact .checked
  have hselected : slotCatalog 0 (newDirectory gamePartition 1 [oneGame]) = oneGameCatalog :=
    slotCatalog_new (l := { partition := true }) oneGame_ok.count rfl ⟨rfl, rfl, rfl, rfl⟩
  have hinit := gbStorageInit_reads (by decide) hslot (.unhashed trivial) (congrArg some hselected)
    (committed (renamedOne 0x42) oneGameCatalog)
  exact .reinit (renamed_run incomplete v) ⟨true, hinit.refines (flashReading_refines _ _)⟩

/-- A failing hash in a re-initialisation lets a stale request take effect, and one in the lookup refuses a
token whose row has not changed. -/
theorem failing_hash_misleads :
    (¬ ∀ (P : Partition) (incomplete : List UInt8 → Prop) (g : Listed)
      (s₁ s₂ : Catalog) (n : Nat) (w₂ : Flash × SaveFs),
      DisplayedSince P incomplete (flashDevice P (slotsTorn P)) g s₁ n s₂ w₂ →
        n < 4294967296 → TokensInjective P s₂ s₁ →
      ∀ token, cstr token = g.token → ∀ c : WebChange, c.token = some token → ∀ out w₃,
      (c.run P s₂).Exec (webDevice P incomplete) w₂ out w₃ → TakesEffect P s₂ w₂ out w₃ → n = 0) ∧
    ¬ ∀ (P : Partition) (incomplete : List UInt8 → Prop) (g : Listed) (s₁ s₂ : Catalog) (w₂ : Flash × SaveFs),
      DisplayedSince P incomplete (flashDevice P (slotsTorn P)) g s₁ 0 s₂ w₂ → TokensInjective P s₂ s₁ →
      ∀ token, cstr token = g.token → s₂.needsReload = false →
      ∀ r f, (gbStorageResolveToken P token s₂).Exec (flashDevice P (slotsTorn P)) w₂.1 (some r) f →
        r = some g.row := by
  have hD := flashSucceeding_refines gamePartition (slotsTorn gamePartition)
  constructor
  · intro hclaim
    have hdisplayed := oneGame_displayed (fun _ => True) { files := fun _ => none } hD (renamed_returns _ _)
    have hrequest := @renameOne_exec 0x43 (by decide) (by decide) (by decide) (fun _ => True)
      (changedFlash (renamedOne 0x42)) { files := fun _ => none }
    cases hclaim _ _ _ _ _ _ _ hdisplayed (by decide) oneGame_injective _ oneListed_token
      (.rename (renameOne 0x43)) rfl _ _
      hrequest (.inr (.inr ⟨_, _, rfl, .inr rfl⟩))
  · intro hclaim
    have hdisplayed := oneGame_displayed (fun _ => True) { files := fun _ => none } hD .start
    have hlook : (gbStorageResolveToken gamePartition oneListed.token oneGameCatalog).Exec
        (flashDevice gamePartition (slotsTorn gamePartition)) oneGameFlash (some none) oneGameFlash := by
      have hlength : (cstr oneListed.token).length = 64 := by
        rw [oneListed_token]
        exact tokenOf_length ..
      unfold gbStorageResolveToken
      rw [if_neg (by rw [hlength]; decide)]
      exact .perform (.inr ⟨rfl, .inl rfl⟩) (.pure _ _)
    cases hclaim _ _ _ _ _ _ hdisplayed oneGame_injective _ oneListed_token rfl _ _ hlook

end FoloGameboy

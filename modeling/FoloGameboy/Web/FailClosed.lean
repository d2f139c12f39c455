/-
Fail closed: from a directory slot whose writing was not confirmed, or a failed `gb_storage_init`, on
until one succeeds, nothing is erased, written, opened, resolved or removed.
-/
import FoloGameboy.Storage.Durable
import FoloGameboy.Web.Handlers

namespace FoloGameboy

open Effect

variable {P : Partition} {F V : Type} {D : Device FlashOp FlashRes F} {s : Catalog} {entries : List RomEntry}

/-! ## What is recorded -/

/-- A directory slot is written. -/
def SlotWrite (P : Partition) (e : Request FlashRes) : Prop :=
  ∃ slot d, e.1 = .write (slotOffset P slot).toNat (directoryCodec.bytes d)

/-- A directory slot could not be read. -/
def Unreadable (P : Partition) (e : Request FlashRes) : Prop :=
  ∃ slot < 2, e = ⟨.read (slotOffset P slot).toNat directoryCodec.size, some none⟩

/-- The answer of a read that failed. -/
def ReadFailed : Request FlashRes → Prop
  | ⟨.read _ _, some none⟩ => True
  | _ => False

theorem Unreadable.failed {e : Request FlashRes} (h : Unreadable P e) : ReadFailed e := by
  obtain ⟨slot, -, rfl⟩ := h
  exact trivial

theorem not_slotWrite {P : Partition} {e : Request FlashRes}
    (h : ∀ offset data, e.1 ≠ .write offset data) : ¬ SlotWrite P e := by
  rintro ⟨slot, d, he⟩
  exact h _ _ he

/-! ## `gb_storage_init` -/

/-- The state while the slots are read: closed, and a failed read is noted. -/
structure Opening (P : Partition) (s : Catalog) (l : List (Request FlashRes)) : Prop where
  closed : s.needsReload = true
  untrusted : s.catalogTrusted = false
  empty : s.directorySlot = none → s.entries = []
  noted : s.directoryReadError = false → Never (Unreadable P) l

/-- What `gb_storage_init` returns: false with an empty, closed catalog, and so whenever a slot could
not be read. -/
structure Opened (P : Partition) (r : Bool × Catalog) (l : List (Request FlashRes)) : Prop where
  failed : r.1 = false → r.2.needsReload = true ∧ r.2.catalogTrusted = false ∧ r.2.entries = []
  unreadable : (∃ e ∈ l, Unreadable P e) → r.1 = false

theorem Opened.of_fail {l : List (Request FlashRes)} (h : Opening P s l) (he : s.entries = []) :
    Opened P (false, s) l :=
  ⟨fun _ => ⟨h.closed, h.untrusted, he⟩, fun _ => rfl⟩

theorem Opened.of_success {l : List (Request FlashRes)} (h : Never (Unreadable P) l) :
    Opened P (true, s) l :=
  ⟨nofun, fun ⟨e, he, hu⟩ => absurd hu (h e he)⟩

/-- Reading a slot, whatever the device answers: the read fails, or no failed read is added. -/
theorem readDirectory_logged (slot : Nat)
    {Q : Option Directory × Catalog → F × List (Request FlashRes) → Prop}
    {w : F × List (Request FlashRes)}
    (hfail : ∀ w' : F × List (Request FlashRes), Q (none, { s with directoryReadError := true }) w')
    (hread : ∀ found (w' : F × List (Request FlashRes)), (∀ e ∈ w'.2, e ∈ w.2 ∨ ¬ ReadFailed e) → Q (found, s) w') :
    (readDirectory P slot s).wp D.logged Q (fun _ => True) w := by
  have hadded : ∀ {l l' : List (Request FlashRes)} {e : Request FlashRes}, (∀ e ∈ l, e ∈ w.2 ∨ ¬ ReadFailed e) →
      ¬ ReadFailed e → l' = l ++ [e] → ∀ e ∈ l', e ∈ w.2 ∨ ¬ ReadFailed e := by
    rintro l l' e h he rfl e' hmem
    rcases List.mem_append.mp hmem with hmem | hmem
    · exact h e' hmem
    · rw [List.mem_singleton.mp hmem]
      exact .inr he
  refine Prog.wp_perform ?_ (fun _ _ => trivial)
  rintro (_ | m) w' ⟨-, hl⟩
  · exact hfail w'
  · have hw' := hadded (fun _ he => .inl he) id hl
    dsimp only
    split
    · exact hread none w' hw'
    · refine Prog.wp_perform ?_ (fun _ _ => trivial)
      rintro hashed w'' ⟨-, hl'⟩
      have hw'' := hadded hw' id hl'
      cases hashed with
      | false => exact hread none w'' hw''
      | true => exact hread _ w'' hw''

theorem considerSlot_opening (slot : Nat) {w : F × List (Request FlashRes)} (h : Opening P s w.2) :
    (considerSlot P slot s).wp D.logged (fun s' w' => Opening P s' w'.2) (fun _ => True) w := by
  unfold considerSlot
  rw [Prog.wp_bind]
  refine readDirectory_logged slot (fun w' => ⟨h.closed, h.untrusted, h.empty, nofun⟩) ?_
  intro found w' hl
  have hnoted : s.directoryReadError = false → Never (Unreadable P) w'.2 := by
    intro hn e he hu
    rcases hl e he with hold | hread
    · exact h.noted hn e hold hu
    · exact hread hu.failed
  cases found with
  | none => exact ⟨h.closed, h.untrusted, h.empty, hnoted⟩
  | some d =>
    dsimp only
    split
    · exact ⟨h.closed, h.untrusted, nofun, hnoted⟩
    · exact ⟨h.closed, h.untrusted, h.empty, hnoted⟩

theorem loadLegacy_opened {w : F × List (Request FlashRes)} (h : Opening P s w.2) (he : s.entries = [])
    (hnone : s.directoryReadError = false) :
    (loadLegacy P s).wp D.logged (fun r w' => Opened P r w'.2) (fun _ => True) w := by
  -- the header and the table are shorter or longer than a slot
  have hkeep : ∀ {l : List (Request FlashRes)} {offset len : Nat} {r : Option (Nat → UInt8)}, len ≠ 1196 →
      Opening P s l → Opening P s (l ++ [⟨.read offset len, some r⟩]) := by
    intro l offset len r hlen ho
    refine ⟨ho.closed, ho.untrusted, ho.empty, fun hn => (ho.noted hn).concat ?_⟩
    rintro ⟨slot, -, heq⟩
    exact hlen (FlashOp.read.inj (Sigma.mk.inj heq).1).2
  unfold loadLegacy partitionRead
  refine Prog.wp_perform ?_ (fun _ _ => trivial)
  rintro r ⟨f₁, l₁⟩ ⟨-, hl₁⟩
  have h₁ : Opening P s l₁ := by
    rw [show l₁ = _ from hl₁]
    exact hkeep (by decide) h
  cases r with
  | none => exact .of_fail h₁ he
  | some m =>
    dsimp only
    split
    · exact .of_success (h₁.noted hnone)
    split
    · exact .of_fail h₁ he
    refine Prog.wp_perform ?_ (fun _ _ => trivial)
    rintro r ⟨f₂, l₂⟩ ⟨-, hl₂⟩
    have h₂ : Opening P s l₂ := by
      rw [show l₂ = _ from hl₂]
      refine hkeep ?_ h₁
      rw [romEntryCodec_size]
      omega
    cases r with
    | none => exact .of_fail h₂ he
    | some m =>
      dsimp only
      split
      · exact .of_fail h₂ he
      · exact .of_success (h₂.noted hnone)

theorem gbStorageInit_opened (s : Catalog) (f : F) :
    (gbStorageInit P s).wp D.logged (fun r w => Opened P r w.2) (fun _ => True) (f, []) := by
  have hother : ∀ {o : FlashOp} {r : Option (FlashRes o)}, (∀ offset len, o ≠ .read offset len) →
      ¬ Unreadable P ⟨o, r⟩ := by
    rintro o r ho ⟨slot, -, he⟩
    exact ho _ _ (Sigma.mk.inj he).1
  unfold gbStorageInit partitionFind allocate
  refine Prog.wp_perform ?_ (fun _ _ => trivial)
  rintro found ⟨f₁, l₁⟩ ⟨-, hl₁⟩
  have hn₁ : Never (Unreadable P) l₁ := by
    rw [show l₁ = _ from hl₁]
    exact (Never.nil _).concat (hother nofun)
  dsimp only
  split
  · exact .of_fail ⟨rfl, rfl, fun _ => rfl, fun _ => hn₁⟩ rfl
  refine Prog.wp_perform ?_ (fun _ _ => trivial)
  rintro dir ⟨f₂, l₂⟩ ⟨-, hl₂⟩
  have hn₂ : Never (Unreadable P) l₂ := by
    rw [show l₂ = _ from hl₂]
    exact hn₁.concat (hother nofun)
  split
  · exact .of_fail ⟨rfl, rfl, fun _ => rfl, fun _ => hn₂⟩ rfl
  rw [Prog.wp_bind]
  refine Prog.wp_mono ?_ (fun _ h => h) (considerSlot_opening 0 ⟨rfl, rfl, fun _ => rfl, fun _ => hn₂⟩)
  intro s₃ w₃ h₃
  rw [Prog.wp_bind]
  refine Prog.wp_mono ?_ (fun _ h => h) (considerSlot_opening 1 h₃)
  intro s₄ w₄ h₄
  split
  · exact ⟨fun _ => ⟨h₄.closed, h₄.untrusted, rfl⟩, fun _ => rfl⟩
  rename_i herror
  have hnone : s₄.directoryReadError = false := by simpa using herror
  split
  · exact .of_success (h₄.noted hnone)
  · rename_i hslot
    exact loadLegacy_opened h₄ (h₄.empty (by simpa using hslot)) hnone

/-! ## Changes -/

/-- How a change ends: confirmed and open, before a slot was written, or closed. -/
structure Concluded (P : Partition) (r : Bool × Catalog) (l : List (Request FlashRes)) : Prop where
  confirmed : r.1 = true → r.2.needsReload = false
  unconfirmed : r.1 = false → Never (SlotWrite P) l ∨ (r.2.needsReload = true ∧ r.2.catalogTrusted = false)

theorem Concluded.before {l : List (Request FlashRes)} (h : Never (SlotWrite P) l) :
    Concluded P (false, s) l :=
  ⟨nofun, fun _ => .inl h⟩

theorem Concluded.closed {l : List (Request FlashRes)} (hclosed : s.needsReload = true)
    (huntrusted : s.catalogTrusted = false) :
    Concluded P (false, s) l :=
  ⟨nofun, fun _ => .inr ⟨hclosed, huntrusted⟩⟩

/-- From the write of the slot on, only its confirmation opens the catalog again. -/
theorem replaceDirectory_concluded {dir : Directory} {w : F × List (Request FlashRes)} (h : Never (SlotWrite P) w.2) :
    (replaceDirectory P dir entries s).wp D.logged (fun r w' => Concluded P r w'.2) (fun _ => True) w := by
  unfold replaceDirectory partitionErase partitionWrite
  dsimp only
  refine Prog.wp_perform ?_ (fun _ _ => trivial)
  rintro erased w₁ ⟨-, hl₁⟩
  have h₁ : Never (SlotWrite P) w₁.2 := by
    rw [hl₁]
    exact h.concat (not_slotWrite nofun)
  split
  · exact .before h₁
  refine Prog.wp_perform ?_ (fun _ _ => trivial)
  rintro written w₂ -
  split
  · exact .closed rfl rfl
  rw [Prog.wp_bind]
  refine readDirectory_logged _ (fun w₃ => ?_) (fun found w₃ _ => ?_)
  · exact .closed rfl rfl
  · dsimp only
    split
    · exact ⟨fun _ => rfl, nofun⟩
    · exact .closed rfl rfl

theorem publishDirectory_concluded {w : F × List (Request FlashRes)} (h : Never (SlotWrite P) w.2) :
    (publishDirectory P entries s).wp D.logged (fun r w' => Concluded P r w'.2) (fun _ => True) w := by
  unfold publishDirectory allocate
  refine Prog.wp_perform ?_ (fun _ _ => trivial)
  rintro buffers w₁ ⟨-, hl₁⟩
  have h₁ : Never (SlotWrite P) w₁.2 := by
    rw [hl₁]
    exact h.concat (not_slotWrite nofun)
  split
  · exact .before h₁
  refine Prog.wp_perform ?_ (fun _ _ => trivial)
  rintro hashed w₂ ⟨-, hl₂⟩
  have h₂ : Never (SlotWrite P) w₂.2 := by
    rw [hl₂]
    exact h₁.concat (not_slotWrite nofun)
  cases hashed with
  | false => exact .before h₂
  | true => exact replaceDirectory_concluded h₂

/-- The chunks of an upload are shorter than a directory. -/
def ChunkOp (o : FlashOp) : Prop := ∀ offset data, o = .write offset data → data.length ≤ 1024

theorem writeChunks_only (reader : Reader) (offset bytes n : Nat) (data : List UInt8) :
    (writeChunks reader offset bytes n data).Only ChunkOp := by
  have hwant : (if 1024 < bytes - data.length then 1024 else bytes - data.length) ≤ 1024 := by
    split <;> omega
  rw [writeChunks]
  dsimp only
  generalize (if 1024 < bytes - data.length then 1024 else bytes - data.length) = want at hwant
  by_cases hlt : data.length < bytes
  · rw [if_pos hlt]
    split
    · exact trivial
    · rename_i hbuffer
      refine Prog.only_bind (Prog.only_op ?_) fun written => Prog.only_bind ?_ fun updated => ?_
      · rintro offset' data' hwrite
        obtain ⟨-, rfl⟩ := FlashOp.write.inj hwrite
        omega
      · split
        · exact Prog.only_op nofun
        · exact trivial
      · split
        · exact writeChunks_only reader offset bytes (n + 1) _
        · exact trivial
  · rw [if_neg hlt]
    exact trivial
termination_by bytes - data.length
decreasing_by
  rw [List.length_append]
  omega

theorem ChunkOp.not_slotWrite {e : Request FlashRes} (h : ChunkOp e.1) : ¬ SlotWrite P e := by
  rintro ⟨slot, d, he⟩
  have hlen := h _ _ he
  rw [Codec.length_bytes, directoryCodec_size] at hlen
  omega

theorem gbStorageUpload_concluded (name : List UInt8) (bytes : Nat) (reader : Reader)
    {w : F × List (Request FlashRes)} (h : Never (SlotWrite P) w.2) :
    (gbStorageUpload P name bytes reader s).wp D.logged (fun r w' => Concluded P r w'.2)
      (fun _ => True) w := by
  unfold gbStorageUpload partitionErase
  split
  · exact .before h
  dsimp only
  split
  · exact .before h
  refine Prog.wp_perform ?_ (fun _ _ => trivial)
  rintro erased w₁ ⟨-, hl₁⟩
  have h₁ : Never (SlotWrite P) w₁.2 := by
    rw [hl₁]
    exact h.concat (not_slotWrite nofun)
  split
  · exact .before h₁
  refine Prog.wp_perform ?_ (fun _ _ => trivial)
  rintro started w₂ ⟨-, hl₂⟩
  have h₂ : Never (SlotWrite P) w₂.2 := by
    rw [hl₂]
    exact h₁.concat (not_slotWrite nofun)
  rw [Prog.wp_bind]
  -- the chunks are no directory, so no slot is written before the publication
  have hchunks : (if started = true then writeChunks reader (findGap P (UInt32.ofNat bytes) s.entries).toNat bytes 0 []
      else pure none).Only ChunkOp := by
    split
    · exact writeChunks_only reader _ bytes 0 []
    · exact trivial
  refine Prog.wp_mono ?_ (fun _ _ => trivial) (hchunks.never (fun _ he => he.not_slotWrite) h₂)
  rintro (_ | data) w₃ h₃
  · exact .before h₃
  dsimp only
  refine Prog.wp_perform ?_ (fun _ _ => trivial)
  rintro finished w₄ ⟨-, hl₄⟩
  have h₄ : Never (SlotWrite P) w₄.2 := by
    rw [hl₄]
    exact h₃.concat (not_slotWrite nofun)
  show Prog.wp _ _ _ (addRom P name bytes _ data _ _) _
  unfold addRom
  split
  · exact .before h₄
  split
  · exact .before h₄
  · exact publishDirectory_concluded h₄

theorem storageCall_concluded (c : StorageCall) (hc : c ≠ .init) (f : F) :
    (c.run P s).wp D.logged (fun r w => Concluded P r w.2) (fun _ => True) (f, []) := by
  cases c with
  | init => exact absurd rfl hc
  | upload name bytes reader => exact gbStorageUpload_concluded name bytes reader (Never.nil _)
  | delete index =>
    unfold StorageCall.run gbStorageDelete
    dsimp only
    split
    · exact .before (Never.nil _)
    · exact publishDirectory_concluded (Never.nil _)
  | rename index name =>
    unfold StorageCall.run gbStorageRename
    dsimp only
    split
    · exact .before (Never.nil _)
    rename_i hopen
    have hreload : s.needsReload = false := by
      rw [not_or, not_or] at hopen
      simpa using hopen.2.1
    split
    · exact .before (Never.nil _)
    split
    · exact ⟨fun _ => hreload, nofun⟩
    · exact publishDirectory_concluded (Never.nil _)

/-! ## Closed catalogs -/

/-- Nothing is accepted: the catalog must be loaded first. -/
structure Closed (s : Catalog) : Prop where
  refused : s.needsReload = true ∨ (s.partition = false ∧ s.entries = [])
  untrusted : s.catalogTrusted = false

theorem Closed.boot : Closed {} := ⟨.inr ⟨rfl, rfl⟩, rfl⟩

theorem Closed.call (h : Closed s) (c : StorageCall) (hc : c ≠ .init) : c.run P s = pure (false, s) := by
  have hrefuse : ¬ s.partition = true ∨ s.needsReload = true := by
    rcases h.refused with hr | ⟨hp, -⟩
    · exact .inr hr
    · exact .inl (by rw [hp]; exact Bool.false_ne_true)
  cases c with
  | init => exact absurd rfl hc
  | upload name bytes reader => exact if_pos (hrefuse.elim .inl fun hr => .inr (.inl hr))
  | delete index => exact if_pos (hrefuse.elim .inl fun hr => .inr (.inl hr))
  | rename index name => exact if_pos (hrefuse.elim .inl fun hr => .inr (.inl hr))

theorem Closed.open (h : Closed s) (index : Nat) : gbStorageOpen P index s = pure (none, s) := by
  unfold gbStorageOpen
  rcases h.refused with hr | ⟨-, he⟩
  · exact if_pos hr
  · split
    · rfl
    · rw [he]
      rfl

theorem Closed.resolve (h : Closed s) (token : List UInt8) : gbStorageResolveToken P token s = pure none := by
  unfold gbStorageResolveToken
  rcases h.refused with hr | ⟨-, he⟩
  · exact if_pos (.inr hr)
  · split
    · rfl
    · rw [he]
      rfl

theorem Closed.prune (h : Closed s) (mounted : Bool) (fuel : Nat) :
    gbSavesPruneOrphans mounted s fuel = pure (some false) :=
  if_pos (.inr (by rw [h.untrusted]; exact Bool.false_ne_true))

/-- The delete handler answers at once. -/
theorem Closed.deleteHandler (h : Closed s) (mounted : Bool) (req : WebRequest) :
    ∃ resp, FoloGameboy.deleteHandler P mounted req s = pure (resp, s) := by
  unfold FoloGameboy.deleteHandler
  split
  · exact ⟨_, rfl⟩
  cases req.token with
  | none => exact ⟨_, rfl⟩
  | some token =>
    dsimp only
    split
    · exact ⟨_, rfl⟩
    · rw [h.resolve token]
      exact ⟨_, rfl⟩

/-! ## Runs -/

/-- Any storage operations with any answers of the Flash, with the condition that is the subject:
a slot was written and not confirmed, or loading failed, and none has succeeded since. -/
inductive ClosedRun (P : Partition) (D : Device FlashOp FlashRes F) : Catalog → F → Prop → Prop where
  | boot (f : F) : ClosedRun P D {} f False
  | init {s s' : Catalog} {f f' : F} {u : Prop} {ok : Bool} (h : ClosedRun P D s f u)
      (he : (gbStorageInit P s).Exec D f (some (ok, s')) f') : ClosedRun P D s' f' (ok = false)
  | change {s s' : Catalog} {f f' : F} {u : Prop} {ok : Bool} {l : List (Request FlashRes)} (h : ClosedRun P D s f u)
      (c : StorageCall) (hc : c ≠ .init) (he : (c.run P s).Exec D.logged (f, []) (some (ok, s')) (f', l)) :
      ClosedRun P D s' f' (u ∨ (ok = false ∧ ∃ e ∈ l, SlotWrite P e))
  | opened {s s' : Catalog} {f f' : F} {u : Prop} {r : Option (RomEntry × Bool)} (h : ClosedRun P D s f u) (index : Nat)
      (he : (gbStorageOpen P index s).Exec D f (some (r, s')) f') : ClosedRun P D s' f' u
  | cut {s : Catalog} {f f' : F} {u : Prop} {l : List (Request FlashRes)} (h : ClosedRun P D s f u) (c : StorageCall)
      (he : (c.run P s).Exec D.logged (f, []) none (f', l)) : ClosedRun P D {} f' (u ∨ ∃ e ∈ l, SlotWrite P e)

theorem ClosedRun.closed {f : F} {u : Prop} (h : ClosedRun P D s f u) : u → Closed s := by
  induction h with
  | boot => exact fun hu => hu.elim
  | @init s s' f f' u ok h he ih =>
    intro hok
    obtain ⟨l, hl⟩ := he.logged []
    obtain ⟨hclosed, huntrusted, -⟩ := (Prog.wp_exec (gbStorageInit_opened s f) hl).failed hok
    exact ⟨.inl hclosed, huntrusted⟩
  | @change s s' f f' u ok l h c hc he ih =>
    rintro (hu | ⟨hok, e, he', hslot⟩)
    · rw [(ih hu).call c hc, Prog.exec_pure_iff] at he
      obtain ⟨-, rfl⟩ := Prod.mk.inj (Option.some.inj he.1)
      exact ih hu
    · rcases (Prog.wp_exec (storageCall_concluded c hc f) he).unconfirmed
        hok with hnever | ⟨hclosed, huntrusted⟩
      · exact absurd hslot (hnever e he')
      · exact ⟨.inl hclosed, huntrusted⟩
  | opened h index he ih =>
    intro hu
    rw [(ih hu).open index, Prog.exec_pure_iff] at he
    obtain ⟨-, rfl⟩ := Prod.mk.inj (Option.some.inj he.1)
    exact ih hu
  | cut => exact fun _ => Closed.boot

/-- Save files are removed only after the catalog entry was removed, confirmed. -/
theorem deleteHandler_removes {E : Device FileOp FileRes V} {f : F} {v : V} {mounted : Bool}
    {req : WebRequest}
    {out : Option (Response × Catalog)} {w : (F × V) × List (Request (Sum.elim FlashRes FileRes))}
    (he : (deleteHandler P mounted req s).Exec (D.sum E).logged ((f, v), []) out w)
    (hremove : ∃ e ∈ w.2, ∃ path, e.1 = .inr (.remove path)) :
    ∃ token index s₁ f₀ f₁, (gbStorageResolveToken P token s).Exec D f (some (some index)) f₀ ∧
      (gbStorageDelete P index s).Exec D f₀ (some (true, s₁)) f₁ ∧ s₁.needsReload = false := by
  obtain ⟨e, hmem, path, hpath⟩ := hremove
  -- what the storage functions ask for is not a removal
  have hflash : ∀ {α : Type} {p : StorageM α} {out' : Option α} {w₁ w₂ :
      (F × V) × List (Request (Sum.elim FlashRes FileRes))}, p.inl.Exec (D.sum E).logged w₁ out' w₂ →
        e ∉ w₁.2 → e ∉ w₂.2 := by
    intro α p out' w₁ w₂ h hnot hmem
    obtain ⟨l, hl, honly⟩ := (Prog.inl_only p).logged h
    rw [hl] at hmem
    rcases List.mem_append.mp hmem with hmem | hmem
    · exact hnot hmem
    · obtain ⟨o, ho⟩ := honly e hmem
      rw [hpath] at ho
      cases ho
  -- an answer without a removal before it is not the run in question
  have hpure : ∀ {r : Response × Catalog} {w₁ : (F × V) × List (Request (Sum.elim FlashRes FileRes))}, e ∉ w₁.2 →
      ¬ (pure r : WebM _).Exec (D.sum E).logged w₁ out w := by
    intro r w₁ hnot h
    rw [(Prog.exec_pure_iff.mp h).2] at hmem
    exact hnot hmem
  unfold deleteHandler at he
  split at he
  · exact absurd he (hpure List.not_mem_nil)
  cases htoken : req.token with
  | none =>
    rw [htoken] at he
    exact absurd he (hpure List.not_mem_nil)
  | some token =>
    rw [htoken] at he
    dsimp only at he
    split at he
    · exact absurd he (hpure List.not_mem_nil)
    rcases Prog.exec_bind_iff.mp he with ⟨found, w₀, hlook, hfound⟩ | ⟨-, hcut⟩
    · have hrow := (Prog.exec_inl hlook.unlogged).1
      have hlooked := hflash hlook List.not_mem_nil
      cases found with
      | none => exact absurd hfound (hpure hlooked)
      | some index =>
        dsimp only at hfound
        split at hfound
        · exact absurd hfound (hpure hlooked)
        rcases Prog.exec_bind_iff.mp hfound with ⟨⟨ok, s₁⟩, w₁, hdelete, hrest⟩ | ⟨-, hcut⟩
        · have hexec := (Prog.exec_inl hdelete.unlogged).1
          cases ok with
          | true =>
            -- a delete that reports success has concluded
            obtain ⟨l, hl⟩ := hexec.logged []
            exact ⟨token, index, s₁, _, _, hrow, hexec,
              (Prog.wp_exec (storageCall_concluded (.delete index) nofun _) hl).confirmed rfl⟩
          | false =>
            have hdeleted := hflash hdelete hlooked
            dsimp only at hrest
            rw [if_pos Bool.false_ne_true] at hrest
            split at hrest
            · exact absurd hrest (hpure hdeleted)
            · exact absurd hrest (hpure hdeleted)
        · exact absurd hmem (hflash hcut hlooked)
    · exact absurd hmem (hflash hcut List.not_mem_nil)

/-! ## Slots that cannot be checked -/

/-- The hash of a slot could not be computed. -/
def Unhashed : Request FlashRes → Prop
  | ⟨.sha256 _, some false⟩ => True
  | _ => False

/-- A directory slot could not be read, or not be checked. -/
def Unchecked (P : Partition) (e : Request FlashRes) : Prop := Unreadable P e ∨ Unhashed e

/-- After a slot was written without confirmation, or a failed `gb_storage_init`, until one succeeds:
upload, delete and rename ask nothing of the Flash, nothing is opened or resolved, and the delete
handler and the pruning ask nothing at all. In one request, save files are removed only after a
confirmed change. And `gb_storage_init` never falls back on one slot when the other cannot be read or
checked, as long as a hash fails only together with a read of a slot. -/
theorem storage_fails_closed (P : Partition) (D : Device FlashOp FlashRes F) (E : Device FileOp FileRes V) :
    (∀ s f u, ClosedRun P D s f u → u →
      (∀ c, c ≠ .init → ∀ out w, (StorageCall.run P c s).Exec D.logged (f, []) out w →
        out = some (false, s) ∧ w.2 = []) ∧
      (∀ index out f', (gbStorageOpen P index s).Exec D f out f' → out = some (none, s)) ∧
      (∀ token out f', (gbStorageResolveToken P token s).Exec D f out f' → out = some none) ∧
      (∀ v mounted req out w, (deleteHandler P mounted req s).Exec (D.sum E).logged ((f, v), []) out w → w.2 = []) ∧
      ∀ v mounted fuel out w, (gbSavesPruneOrphans mounted s fuel).Exec E.logged (v, []) out w →
        out = some (some false) ∧ w.2 = []) ∧
    (∀ s f v mounted req out w, (deleteHandler P mounted req s).Exec (D.sum E).logged ((f, v), []) out w →
      (∃ e ∈ w.2, ∃ path, e.1 = .inr (.remove path)) →
        ∃ token index s₁ f₀ f₁, (gbStorageResolveToken P token s).Exec D f (some (some index)) f₀ ∧
          (gbStorageDelete P index s).Exec D f₀ (some (true, s₁)) f₁ ∧ s₁.needsReload = false) ∧
    ∀ s f ok s' w, (gbStorageInit P s).Exec D.logged (f, []) (some (ok, s')) w →
      ((∃ e ∈ w.2, Unhashed e) → ∃ e ∈ w.2, Unreadable P e) → (∃ e ∈ w.2, Unchecked P e) →
      ok = false ∧ s'.entries = [] ∧ s'.catalogTrusted = false ∧ s'.needsReload = true := by
  refine ⟨?_, fun s f v mounted req out w he hremove => deleteHandler_removes he hremove, ?_⟩
  · intro s f u hrun hu
    have hclosed := hrun.closed hu
    refine ⟨?_, ?_, ?_, ?_, ?_⟩
    · intro c hc out w he
      rw [hclosed.call c hc, Prog.exec_pure_iff] at he
      obtain ⟨rfl, rfl⟩ := he
      exact ⟨rfl, rfl⟩
    · intro index out f' he
      rw [hclosed.open index, Prog.exec_pure_iff] at he
      exact he.1
    · intro token out f' he
      rw [hclosed.resolve token, Prog.exec_pure_iff] at he
      exact he.1
    · intro v mounted req out w he
      obtain ⟨resp, hresp⟩ := hclosed.deleteHandler mounted req
      rw [hresp, Prog.exec_pure_iff] at he
      rw [he.2]
    · intro v mounted fuel out w he
      rw [hclosed.prune mounted fuel, Prog.exec_pure_iff] at he
      obtain ⟨rfl, rfl⟩ := he
      exact ⟨rfl, rfl⟩
  · intro s f ok s' w he hhashes hunchecked
    have h := Prog.wp_exec (gbStorageInit_opened s f) he
    have hunread : ∃ e ∈ w.2, Unreadable P e := by
      obtain ⟨e, hmem, hread | hhash⟩ := hunchecked
      · exact ⟨e, hmem, hread⟩
      · exact hhashes ⟨e, hmem, hhash⟩
    have hok := h.unreadable hunread
    obtain ⟨hclosed, huntrusted, hempty⟩ := h.failed hok
    exact ⟨hok, hempty, huntrusted, hclosed⟩

/-- The game cannot be deleted: the write of slot 1 fails. -/
theorem unconfirmed_deletion : ∃ l, ((StorageCall.delete 0).run gamePartition oneGameCatalog).Exec
    (flashDevice gamePartition anyTear).logged (oneGameFlash, []) (some (false, unconfirmed oneGameCatalog))
    (erasedFlash gamePartition oneGameCatalog oneGameFlash, l) ∧ ∃ e ∈ l, SlotWrite gamePartition e := by
  have hdelete : ((StorageCall.delete 0).run gamePartition oneGameCatalog).Exec
      (flashDevice gamePartition anyTear).logged
      (oneGameFlash, []) (some (false, unconfirmed oneGameCatalog))
        (erasedFlash gamePartition oneGameCatalog oneGameFlash, _) :=
    Prog.exec_recorded (.inl ⟨trivial, rfl, rfl⟩) (Prog.exec_recorded (.inl ⟨trivial, rfl, rfl⟩)
      (Prog.exec_recorded (.inl ⟨by decide, rfl, rfl⟩) (Prog.exec_recorded (.inr ⟨rfl, .inl rfl⟩) (.pure _ _))))
  exact ⟨_, hdelete, _, List.mem_append_right _ (List.mem_singleton_self _), 1, _, rfl⟩

/-- The game is found in slot 0, but slot 1 cannot be read. -/
theorem slot1_unreadable : ∃ s' w, (gbStorageInit gamePartition {}).Exec (flashDevice gamePartition anyTear).logged
    (oneGameFlash, []) (some (false, s')) w ∧ ∃ e ∈ w.2, Unreadable gamePartition e := by
  have hfirst : (considerSlot gamePartition 0 (freshCatalog true false)).Exec (flashReading gamePartition) oneGameFlash
      (some (considered 0 (slotDirectory gamePartition oneGameFlash 0) (freshCatalog true false))) oneGameFlash :=
    considerSlot_reads (by decide) .checked _
  rw [oneGame_slot] at hfirst
  obtain ⟨l, hrecorded⟩ := (hfirst.refines (Device.answering_refines _ _)).logged
    [⟨.findPartition, some true⟩, ⟨.alloc, some true⟩]
  have hread : ∀ s, (readDirectory gamePartition 1 s).Exec (flashDevice gamePartition anyTear).logged (oneGameFlash, l)
      (some (none, { s with directoryReadError := true }))
      (oneGameFlash, l ++ [⟨.read (slotOffset gamePartition 1).toNat directoryCodec.size, some none⟩]) :=
    fun s => Prog.exec_recorded (.inr ⟨rfl, .inl rfl⟩) (.pure _ _)
  have hinit : (gbStorageInit gamePartition {}).Exec (flashDevice gamePartition anyTear).logged (oneGameFlash, [])
      (some (false, _)) _ :=
    Prog.exec_recorded (.inl ⟨trivial, rfl, rfl⟩) (Prog.exec_recorded (.inl ⟨trivial, rfl, rfl⟩)
      (Prog.exec_bind hrecorded (Prog.exec_bind (Prog.exec_bind (hread _) (.pure _ _)) (.pure _ _))))
  exact ⟨_, _, hinit, _, List.mem_append_right _ (List.mem_singleton_self _), 1, by decide, rfl⟩

theorem storage_fails_closed_unconfirmed :
    (∃ u, ClosedRun gamePartition (flashDevice gamePartition anyTear) (unconfirmed oneGameCatalog)
        (erasedFlash gamePartition oneGameCatalog oneGameFlash) u ∧ u ∧
      ∀ out w, ((StorageCall.rename 0 [0x42]).run gamePartition (unconfirmed oneGameCatalog)).Exec
        (flashDevice gamePartition anyTear).logged (erasedFlash gamePartition oneGameCatalog oneGameFlash, []) out w →
          out = some (false, unconfirmed oneGameCatalog) ∧ w.2 = []) ∧
      ∃ s' w, (gbStorageInit gamePartition {}).Exec (flashDevice gamePartition anyTear).logged (oneGameFlash, [])
        (some (false, s')) w ∧ s'.entries = [] := by
  have hfails := storage_fails_closed gamePartition (flashDevice gamePartition anyTear) (saveDevice fun _ => True)
  constructor
  · obtain ⟨l, hdelete, hwrite⟩ := unconfirmed_deletion
    have hinit := (gbStorageInit_exec {} oneGame_reload).refines (flashSucceeding_refines gamePartition anyTear)
    have hrun := ClosedRun.change (.init (.boot _) hinit) (.delete 0) nofun hdelete
    exact ⟨_, hrun, .inr ⟨rfl, hwrite⟩, (hfails.1 _ _ _ hrun (.inr ⟨rfl, hwrite⟩)).1 (.rename 0 [0x42]) nofun⟩
  · obtain ⟨s', w, hinit, e, he, hunread⟩ := slot1_unreadable
    exact ⟨s', w, hinit, (hfails.2.2 _ _ _ _ _ hinit (fun _ => ⟨e, he, hunread⟩) ⟨e, he, .inl hunread⟩).2.1⟩

/-- A slot whose hash fails is passed over. -/
theorem considerSlot_unhashed {slot : Nat} {f : Flash} (hr : slotReadable P slot)
    (hshaped : directoryShaped P (slotAt P f slot) = true) (s : Catalog) (l : List (Request FlashRes)) :
    ∃ l', (considerSlot P slot s).Exec (flashDevice P anyTear).logged (f, l) (some s)
      (f, l' ++ [⟨.sha256 (slotHashed P f slot), some false⟩]) := by
  refine ⟨l ++ [⟨.read (slotOffset P slot).toNat directoryCodec.size,
    some (some fun i => f ((slotOffset P slot).toNat + i))⟩], ?_⟩
  have hread : (readDirectory P slot s).Exec (flashDevice P anyTear).logged (f, l) (some (none, s)) (f,
      l ++ [⟨.read (slotOffset P slot).toNat directoryCodec.size,
        some (some fun i => f ((slotOffset P slot).toNat + i))⟩] ++
      [⟨.sha256 (slotHashed P f slot), some false⟩]) := by
    refine Prog.exec_recorded (.inl ⟨hr, rfl, rfl⟩) ?_
    change Prog.Exec _ (if ¬ directoryShaped P (slotAt P f slot) = true then _ else _) _ _ _
    rw [if_neg (not_not.mpr hshaped)]
    exact Prog.exec_recorded (.inr ⟨rfl, .inl rfl⟩) (.pure _ _)
  exact Prog.exec_bind hread (.pure _ _)

/-- The deleted game comes back when the hash of slot 1 fails. -/
theorem deletedGame_returns : ∃ w, (gbStorageInit gamePartition {}).Exec (flashDevice gamePartition anyTear).logged
    (changedFlash [], []) (some (true, slotCatalog 0 (newDirectory gamePartition 1 [oneGame]))) w ∧
      ∃ e ∈ w.2, Unhashed e := by
  have hslot : slotAt gamePartition (changedFlash []) 1 = newDirectory gamePartition 2 [] :=
    writtenFlash_slot gamePartition [] oneGameCatalog oneGameFlash
  have hshaped : directoryShaped gamePartition (slotAt gamePartition (changedFlash []) 1) = true := by
    rw [hslot]
    decide +kernel
  have hfirst : (considerSlot gamePartition 0 (freshCatalog true false)).Exec
      (flashReading gamePartition) (changedFlash [])
      (some (considered 0 (slotDirectory gamePartition (changedFlash []) 0) (freshCatalog true false)))
        (changedFlash []) :=
    considerSlot_reads (by decide) .checked _
  rw [changed_slot0] at hfirst
  obtain ⟨l, hrecorded⟩ := (hfirst.refines (Device.answering_refines _ _)).logged
    [⟨.findPartition, some true⟩, ⟨.alloc, some true⟩]
  obtain ⟨l', hsecond⟩ := considerSlot_unhashed (by decide) hshaped
    (considered 0 (some (newDirectory gamePartition 1 [oneGame])) (freshCatalog true false)) l
  have hinit : (gbStorageInit gamePartition {}).Exec (flashDevice gamePartition anyTear).logged (changedFlash [], [])
      (some (true, slotCatalog 0 (newDirectory gamePartition 1 [oneGame]))) _ :=
    Prog.exec_recorded (.inl ⟨trivial, rfl, rfl⟩) (Prog.exec_recorded (.inl ⟨trivial, rfl, rfl⟩)
      (Prog.exec_bind hrecorded (Prog.exec_bind hsecond (.pure _ _))))
  exact ⟨_, hinit, _, List.mem_append_right _ (List.mem_singleton_self _), trivial⟩

/-- A slot that cannot be checked does not make `gb_storage_init` fail. -/
theorem failing_hash_selects_other :
    ¬ ∀ (P : Partition) (f : Flash) (s : Catalog) (ok : Bool) (s' : Catalog) (w : Flash × List (Request FlashRes)),
      (gbStorageInit P s).Exec (flashDevice P anyTear).logged (f, []) (some (ok, s')) w → (∃ e ∈ w.2, Unchecked P e) →
        ok = false ∧ s'.entries = [] := by
  intro hclaim
  obtain ⟨w, hinit, e, he, hhash⟩ := deletedGame_returns
  cases (hclaim _ _ _ _ _ _ hinit ⟨e, he, .inr hhash⟩).1

end FoloGameboy

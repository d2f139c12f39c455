/-
`gb_storage_init` computes `reload`, while the directory it is to select can be hashed: when it returns
true it has loaded exactly what the Flash holds, when it returns false the catalog is empty and closed,
and it never changes the Flash.
-/
import FoloGameboy.Storage.Results

namespace FoloGameboy

open Effect

variable {P : Partition} {torn : Flash → Flash → Flash → Prop} {ok : Answers} {s : Catalog} {f : Flash}
  {d₀ d₁ : Option Directory}

/-! ## Where the slots are -/

theorem toNat_dataEnd (P : Partition) : (dataEnd P).toNat = (2 ^ 32 - 8192 + P.size.toNat) % 2 ^ 32 := by
  unfold dataEnd
  rw [UInt32.toNat_sub]
  rfl

/-- A readable slot 0 puts both slots in the last two sectors. -/
theorem slot_geometry (h : slotReadable P 0) : (dataEnd P).toNat + 8192 = P.size.toNat ∧
    (slotOffset P 0).toNat = (dataEnd P).toNat ∧ (slotOffset P 1).toNat = (dataEnd P).toNat + 4096 := by
  have hsize := P.size.toNat_lt
  have hend := toNat_dataEnd P
  have h0 : (slotOffset P 0).toNat = (dataEnd P).toNat := by
    unfold slotOffset
    rw [UInt32.toNat_add]
    exact (Nat.mod_eq_of_lt (by have := (dataEnd P).toNat_lt; exact this))
  have h1 : (slotOffset P 1).toNat = ((dataEnd P).toNat + 4096) % 2 ^ 32 := by
    unfold slotOffset
    rw [UInt32.toNat_add]
    rfl
  unfold slotReadable at h
  rw [h0, directoryCodec_size] at h
  omega

/-! ## What `gb_storage_init` returns -/

/-- The state with a slot selected. -/
def selectSlot (slot : Nat) (d : Directory) (s : Catalog) : Catalog :=
  { s with directorySlot := some slot, generation := d.generation, entries := d.entries.toList.take d.count.toNat }

/-- One iteration of the slot loop, once the slot has been read. -/
def considered (slot : Nat) (d : Option Directory) (s : Catalog) : Catalog :=
  match d with
  | none => s
  | some d => if s.directorySlot = none ∨ newer d.generation s.generation then selectSlot slot d s else s

theorem considered_first {s : Catalog} (h : s.directorySlot = none) (slot : Nat) (d : Directory) :
    considered slot (some d) s = selectSlot slot d s := if_pos (.inl h)

/-- The state in which `gb_storage_init` starts on a slot: nothing loaded, everything closed. -/
structure Loading (s : Catalog) : Prop where
  selected : s.selected = none
  mapped : s.mapped = false
  untrusted : s.catalogTrusted = false
  closed : s.needsReload = true

theorem Loading.considered {s : Catalog} (h : Loading s) (slot : Nat) (d : Option Directory) :
    Loading (FoloGameboy.considered slot d s) := by
  unfold FoloGameboy.considered
  cases d with
  | none => exact h
  | some d =>
    dsimp only
    split
    · exact ⟨h.selected, h.mapped, h.untrusted, h.closed⟩
    · exact h

theorem considerSlot_when (slot : Nat) {Q : Catalog → Flash → Prop} {C : Flash → Prop}
    (hfail : ok (.read (slotOffset P slot).toNat directoryCodec.size) f none →
      Q { s with directoryReadError := true } f)
    (hread : slotReadable P slot → ∀ d, SlotFound P ok f slot d → Q (considered slot d s) f) (hcut : C f) :
    (considerSlot P slot s).wp ((flashDevice P torn).when ok) Q C f := by
  unfold considerSlot
  rw [Prog.wp_bind]
  refine readDirectory_when slot hfail (fun hin => ?_) (fun hin hhash => hread hin none (.unhashed hhash)) hcut
  have h := hread hin _ .checked
  unfold considered slotDirectory at h
  dsimp only
  cases hd : checkDirectory P (slotAt P f slot) with
  | none => rw [hd] at h; exact h
  | some d =>
    rw [hd] at h
    dsimp only at h ⊢
    split
    · rename_i hc
      rw [if_pos hc] at h
      exact h
    · rename_i hc
      rw [if_neg hc] at h
      exact h

/-- The state after both slots have been read. -/
def bothConsidered (d₀ d₁ : Option Directory) (s : Catalog) : Catalog := considered 1 d₁ (considered 0 d₀ s)

/-- Selecting the newest slot in one pass, or none. -/
theorem bothConsidered_eq (d₀ d₁ : Option Directory) {s : Catalog} (h : s.directorySlot = none) :
    bothConsidered d₀ d₁ s = match newestSlot d₀ d₁ with
      | none => s
      | some (slot, d) => selectSlot slot d s := by
  unfold bothConsidered
  cases d₀ with
  | none =>
    cases d₁ with
    | none => rfl
    | some d₁ => exact considered_first h 1 d₁
  | some d₀ =>
    rw [considered_first h]
    cases d₁ with
    | none => rfl
    | some d₁ =>
      unfold considered newestSlot
      dsimp only
      by_cases hn : newer d₁.generation d₀.generation = true
      · rw [if_pos hn]
        exact if_pos (.inr hn)
      · rw [if_neg hn]
        refine if_neg ?_
        rintro (hs | hs)
        · cases hs
        · exact hn hs

/-- A read, an allocation or the search for the partition may fail. -/
def LoadFails (ok : Answers) (f : Flash) : Prop := ∃ o, (∀ bytes, o ≠ .sha256 bytes) ∧ ok o f (failure o)

theorem LoadFails.read {offset len : Nat} (h : ok (.read offset len) f none) : LoadFails ok f :=
  ⟨.read offset len, nofun, h⟩

theorem reload_readable {c : Catalog} (h : reload P f = some c) : slotReadable P 0 ∧ slotReadable P 1 := by
  unfold reload at h
  split at h
  · cases h
  · rename_i hr
    exact not_not.mp hr

/-- What `gb_storage_init` may return: the catalog of the directories found, or a closed, empty one. -/
structure InitResult (P : Partition) (ok : Answers) (f : Flash) (r : Bool × Catalog) : Prop where
  loaded : r.1 = true → (slotReadable P 0 ∧ slotReadable P 1) ∧
    ∃ d₀ d₁, SlotFound P ok f 0 d₀ ∧ SlotFound P ok f 1 d₁ ∧ reloadWith P f d₀ d₁ = some r.2
  closed : r.1 = false → r.2.needsReload = true ∧ r.2.catalogTrusted = false ∧ r.2.entries = []
  failed : r.1 = false → LoadFails ok f ∨
    ∃ d₀ d₁, SlotFound P ok f 0 d₀ ∧ SlotFound P ok f 1 d₁ ∧ reloadWith P f d₀ d₁ = none

theorem InitResult.of_fail {s : Catalog} (h : Loading s) (he : s.entries = [])
    (hf : LoadFails ok f ∨ ∃ d₀ d₁, SlotFound P ok f 0 d₀ ∧ SlotFound P ok f 1 d₁ ∧ reloadWith P f d₀ d₁ = none) :
    InitResult P ok f (false, s) :=
  ⟨nofun, fun _ => ⟨h.closed, h.untrusted, he⟩, fun _ => hf⟩

/-- The state `gb_storage_init` starts from. -/
def freshCatalog (partition readError : Bool) : Catalog :=
  { partition := partition, needsReload := true, directoryReadError := readError }

theorem legacy_range (h : slotReadable P 0) {count : Nat} (hc : count ≤ GB_STORAGE_MAX_ROMS) :
    validRange P.size (UInt32.ofNat romHeaderCodec.size)
      (UInt32.ofNat (count * romEntryCodec.size)) = true := by
  have hsize := (slot_geometry h).1
  have hlt := P.size.toNat_lt
  have hmax : count ≤ 16 := hc
  have h8 : (UInt32.ofNat romHeaderCodec.size).toNat = 8 := rfl
  have hbytes : (UInt32.ofNat (count * romEntryCodec.size)).toNat = count * 72 := by
    rw [romEntryCodec_size, UInt32.toNat_ofNat', Nat.mod_eq_of_lt (by omega)]
  have hle : UInt32.ofNat romHeaderCodec.size ≤ P.size := UInt32.le_iff_toNat_le.mpr (by rw [h8]; omega)
  unfold validRange
  rw [Bool.and_eq_true, decide_eq_true_eq, decide_eq_true_eq]
  refine ⟨hle, UInt32.le_iff_toNat_le.mpr ?_⟩
  rw [UInt32.toNat_sub_of_le _ _ hle, h8, hbytes]
  omega

theorem loadLegacy_when (hr : slotReadable P 0 ∧ slotReadable P 1) (h₀ : SlotFound P ok f 0 d₀)
    (h₁ : SlotFound P ok f 1 d₁) (hnone : newestSlot d₀ d₁ = none) :
    (loadLegacy P (freshCatalog true false)).wp ((flashDevice P torn).when ok) (fun r f' => f' = f ∧
      InitResult P ok f r) (fun f' => f' = f) f := by
  have hwith : reloadWith P f d₀ d₁ = legacyCatalog P f := by
    unfold reloadWith
    rw [hnone]
  have hfail : ∀ hf, InitResult P ok f (false, freshCatalog true false) :=
    fun hf => .of_fail ⟨rfl, rfl, rfl, rfl⟩ rfl hf
  have hread : ∀ {offset len : Nat}, ok (.read offset len) f none →
      InitResult P ok f (false, freshCatalog true false) :=
    fun hok => hfail (.inl (.read hok))
  have hloaded : ∀ c, legacyCatalog P f = some c → InitResult P ok f (true, c) :=
    fun c hc => ⟨fun _ => ⟨hr, d₀, d₁, h₀, h₁, hwith.trans hc⟩, nofun, nofun⟩
  unfold loadLegacy
  refine Prog.wp_perform ?_ ?_
  · rintro r f' ⟨hd, hok⟩
    obtain ⟨rfl, rfl | ⟨-, rfl⟩⟩ := read_done hd
    · exact ⟨rfl, hread hok⟩
    · dsimp only
      split
      · rename_i hheader
        -- no table: an empty catalog
        refine ⟨rfl, hloaded _ ?_⟩
        unfold legacyCatalog
        dsimp only
        rw [if_pos hheader]
        rfl
      · rename_i hheader
        have hcount : (romHeaderCodec.get fun i => f' (0 + i)).count.toNat ≤ GB_STORAGE_MAX_ROMS := by
          simp only [not_or, Nat.not_lt] at hheader
          exact hheader.2.2.2
        rw [if_neg (not_not.mpr (legacy_range hr.1 hcount))]
        refine Prog.wp_perform ?_ ?_
        · rintro r f'' ⟨hd₂, hok₂⟩
          obtain ⟨rfl, rfl | ⟨-, rfl⟩⟩ := read_done hd₂
          · exact ⟨rfl, hread hok₂⟩
          · dsimp only
            split
            · rename_i hinvalid
              exact ⟨rfl, hfail (.inr ⟨d₀, d₁, h₀, h₁, hwith.trans ((if_neg hheader).trans (if_pos hinvalid))⟩)⟩
            · rename_i hvalid
              exact ⟨rfl, hloaded _ ((if_neg hheader).trans (if_neg hvalid))⟩
        · intro f'' hc
          exact quiet_cut (fun _ => id) hc
  · intro f' hc
    exact quiet_cut (fun _ => id) hc

/-- The end of `gb_storage_init`, once both slots have been read. -/
def finishLoad (P : Partition) (s : Catalog) : StorageM (Bool × Catalog) :=
  if s.directoryReadError then pure (false, { s with entries := [] })
  else if s.directorySlot.isSome then pure (true, { s with catalogTrusted := true, needsReload := false })
  else loadLegacy P s

theorem considered_readError {slot : Nat} {d : Option Directory} {s : Catalog}
    (h : s.directoryReadError = true) :
    (considered slot d s).directoryReadError = true := by
  unfold considered
  cases d with
  | none => exact h
  | some d =>
    dsimp only
    split <;> exact h

/-- After a read error the result is `false`, whatever else was read. -/
theorem finishLoad_error {s : Catalog} (hs : Loading s) (he : s.directoryReadError = true) (hf : LoadFails ok f) :
    (finishLoad P s).wp ((flashDevice P torn).when ok) (fun r f' => f' = f ∧ InitResult P ok f r) (fun f' => f' =
      f) f := by
  unfold finishLoad
  rw [if_pos he]
  exact ⟨rfl, .of_fail ⟨hs.selected, hs.mapped, hs.untrusted, hs.closed⟩ rfl (.inl hf)⟩

theorem finishLoad_read (hr : slotReadable P 0 ∧ slotReadable P 1) (h₀ : SlotFound P ok f 0 d₀)
    (h₁ : SlotFound P ok f 1 d₁) :
    (finishLoad P (bothConsidered d₀ d₁ (freshCatalog true false))).wp ((flashDevice P torn).when ok)
      (fun r f' => f' = f ∧ InitResult P ok f r) (fun f' => f' = f) f := by
  rw [bothConsidered_eq d₀ d₁ rfl]
  cases hnew : newestSlot d₀ d₁ with
  | none => exact loadLegacy_when hr h₀ h₁ hnew
  | some r =>
    obtain ⟨slot, d⟩ := r
    refine ⟨rfl, fun _ => ⟨hr, d₀, d₁, h₀, h₁, ?_⟩, nofun, nofun⟩
    unfold reloadWith
    rw [hnew]
    rfl

theorem gbStorageInit_when (P : Partition) (torn : Flash → Flash → Flash → Prop)
    (ok : Answers) (s : Catalog) (f : Flash) :
    (gbStorageInit P s).wp ((flashDevice P torn).when ok) (fun r f' => f' = f ∧
      InitResult P ok f r) (fun f' => f' = f) f := by
  have hfresh : ∀ found err, Loading (freshCatalog found err) := fun _ _ => ⟨rfl, rfl, rfl, rfl⟩
  unfold gbStorageInit
  refine Prog.wp_perform ?_ (fun f' hc => quiet_cut (fun _ => id) hc)
  rintro found f₀ ⟨hd, hok⟩
  obtain rfl := findPartition_done hd
  cases found with
  | false => exact ⟨rfl, .of_fail ⟨rfl, rfl, rfl, rfl⟩ rfl (.inl ⟨.findPartition, nofun, hok⟩)⟩
  | true =>
    rw [if_neg (not_not.mpr rfl)]
    refine Prog.wp_perform ?_ (fun f' hc => quiet_cut (fun _ => id) hc)
    rintro dir f₁ ⟨hd₁, hok₁⟩
    obtain rfl := alloc_done hd₁
    cases dir with
    | false => exact ⟨rfl, .of_fail ⟨rfl, rfl, rfl, rfl⟩ rfl (.inl ⟨.alloc, nofun, hok₁⟩)⟩
    | true =>
      rw [if_neg (not_not.mpr rfl), Prog.wp_bind]
      refine considerSlot_when 0 ?_ ?_ rfl
      · intro hok₂
        rw [Prog.wp_bind]
        refine considerSlot_when 1 ?_ ?_ rfl
        · intro _
          exact finishLoad_error (hfresh true true) rfl (.read hok₂)
        · intro _ d₁ _
          exact finishLoad_error ((hfresh true true).considered 1 d₁) (considered_readError rfl) (.read hok₂)
      · intro hr₀ d₀ h₀
        rw [Prog.wp_bind]
        refine considerSlot_when 1 ?_ ?_ rfl
        · intro hok₂
          have hl := (hfresh true false).considered 0 d₀
          exact finishLoad_error ⟨hl.selected, hl.mapped, hl.untrusted, hl.closed⟩ rfl (.read hok₂)
        · intro hr₁ d₁ h₁
          exact finishLoad_read ⟨hr₀, hr₁⟩ h₀ h₁

/-- Whatever fails. -/
theorem gbStorageInit_wp (P : Partition) (torn : Flash → Flash → Flash → Prop) (s : Catalog) (f : Flash) :
    (gbStorageInit P s).wp (flashDevice P torn) (fun r f' => f' = f ∧
      InitResult P (fun _ _ _ => True) f r) (fun f' => f' = f) f :=
  Prog.wp_refines (Device.refines_when _ fun _ _ _ => trivial) (gbStorageInit_when P torn _ s f)

/-! ## When the newest directory can be hashed -/

theorem checkDirectory_some {d d' : Directory} (h : checkDirectory P d = some d') : d' = d := by
  unfold checkDirectory at h
  split at h
  · exact (Option.some.inj h).symm
  · cases h

theorem newestSlot_mem {slot : Nat} {d : Directory} (h : newestSlot d₀ d₁ = some (slot, d)) :
    (slot = 0 ∧ d₀ = some d) ∨ (slot = 1 ∧ d₁ = some d) := by
  have hpair : ∀ {n : Nat} {d' : Directory}, some (n, d') = some (slot, d) → slot = n ∧ some d' = some d := by
    intro n d' h
    obtain ⟨rfl, rfl⟩ := Prod.mk.inj (Option.some.inj h)
    exact ⟨rfl, rfl⟩
  unfold newestSlot at h
  split at h
  · cases h
  · exact .inl (hpair h)
  · exact .inr (hpair h)
  · split at h
    · exact .inr (hpair h)
    · exact .inl (hpair h)

theorem SlotFound.directory {slot : Nat} {found : Option Directory} {d : Directory} (h : SlotFound P ok f slot found)
    (hd : found = some d) : slotDirectory P f slot = some d := by
  cases h with
  | checked => exact hd
  | unhashed _ => cases hd

/-- What is loaded is a directory found in a slot, or the legacy table. -/
theorem reloadWith_cases {c : Catalog} (h₀ : SlotFound P ok f 0 d₀) (h₁ : SlotFound P ok f 1 d₁)
    (h : reloadWith P f d₀ d₁ = some c) :
    (∃ slot d, slotDirectory P f slot = some d ∧ c = slotCatalog slot d) ∨ legacyCatalog P f = some c := by
  unfold reloadWith at h
  split at h
  · rename_i slot d hnew
    refine .inl ⟨slot, d, ?_, (Option.some.inj h).symm⟩
    rcases newestSlot_mem hnew with ⟨rfl, hd⟩ | ⟨rfl, hd⟩
    · exact h₀.directory hd
    · exact h₁.directory hd
  · exact .inr h

/-- Then it is selected, whether the other one can be hashed or not. -/
theorem newestSlot_found (h₀ : SlotFound P (HashesNewest P) f 0 d₀) (h₁ : SlotFound P (HashesNewest P) f 1 d₁) :
    newestSlot d₀ d₁ = newestSlot (slotDirectory P f 0) (slotDirectory P f 1) := by
  -- a slot that could not be hashed is not the newest
  have hnot : ∀ slot, HashesNewest P (.sha256 (slotHashed P f slot)) f false →
      ∀ d, newestSlot (slotDirectory P f 0) (slotDirectory P f 1) ≠ some (slot, d) :=
    fun slot h d hnew => Bool.false_ne_true (h ⟨slot, d, hnew, rfl⟩)
  -- so leaving it out changes no choice
  cases h₀ with
  | checked =>
    cases h₁ with
    | checked => rfl
    | unhashed h =>
      have hnot := hnot 1 h
      revert hnot
      cases slotDirectory P f 0 with
      | none =>
        cases slotDirectory P f 1 with
        | none => exact fun _ => rfl
        | some d₁ => exact fun hnot => absurd rfl (hnot d₁)
      | some d₀ =>
        cases slotDirectory P f 1 with
        | none => exact fun _ => rfl
        | some d₁ =>
          unfold newestSlot
          dsimp only
          by_cases hn : newer d₁.generation d₀.generation = true
          · rw [if_pos hn]
            exact fun hnot => absurd rfl (hnot d₁)
          · rw [if_neg hn]
            exact fun _ => rfl
  | unhashed h =>
    have hnot₀ := hnot 0 h
    revert hnot₀
    cases h₁ with
    | checked =>
      cases slotDirectory P f 0 with
      | none => exact fun _ => rfl
      | some d₀ =>
        cases slotDirectory P f 1 with
        | none => exact fun hnot => absurd rfl (hnot d₀)
        | some d₁ =>
          unfold newestSlot
          dsimp only
          by_cases hn : newer d₁.generation d₀.generation = true
          · rw [if_pos hn]
            exact fun _ => rfl
          · rw [if_neg hn]
            exact fun hnot => absurd rfl (hnot d₀)
    | unhashed h' =>
      have hnot₁ := hnot 1 h'
      cases hnew : newestSlot (slotDirectory P f 0) (slotDirectory P f 1) with
      | none => exact fun _ => rfl
      | some r =>
        rw [hnew] at hnot₁
        obtain ⟨slot, d⟩ := r
        rcases newestSlot_mem hnew with ⟨rfl, -⟩ | ⟨rfl, -⟩
        · exact fun hnot₀ => absurd rfl (hnot₀ d)
        · exact absurd rfl (hnot₁ d)

theorem reloadWith_found (h₀ : SlotFound P (HashesNewest P) f 0 d₀) (h₁ : SlotFound P (HashesNewest P) f 1 d₁) :
    reloadWith P f d₀ d₁ = reloadWith P f (slotDirectory P f 0) (slotDirectory P f 1) := by
  unfold reloadWith
  rw [newestSlot_found h₀ h₁]

/-- A `gb_storage_init` that can hash the newest directory. -/
def initDevice (P : Partition) (torn : Flash → Flash → Flash → Prop) : Device FlashOp FlashRes Flash :=
  (flashDevice P torn).when (HashesNewest P)

/-- It loads what the Flash holds. -/
theorem InitResult.reloaded {r : Bool × Catalog} (h : InitResult P (HashesNewest P) f r) (hr : r.1 = true) :
    reload P f = some r.2 := by
  obtain ⟨hreadable, d₀, d₁, h₀, h₁, hwith⟩ := h.loaded hr
  unfold reload
  rw [if_neg (not_not.mpr hreadable), ← reloadWith_found h₀ h₁]
  exact hwith

theorem gbStorageInit_hashed (P : Partition) (torn : Flash → Flash → Flash → Prop) (s : Catalog) (f : Flash) :
    (gbStorageInit P s).wp (initDevice P torn) (fun r f' => f' = f ∧
      InitResult P (HashesNewest P) f r) (fun f' => f' = f) f :=
  gbStorageInit_when P torn _ s f

/-! ## When every read succeeds -/

/-- Everything but a hash succeeds. -/
def ReadsSucceed : (o : FlashOp) → FlashRes o → Prop
  | .sha256 _, _ => True
  | o, r => Succeeds o r

/-- The partition when nothing fails but hashes, without power cuts. -/
def flashReading (P : Partition) : Device FlashOp FlashRes Flash := (flashDevice P anyTear).answering ReadsSucceed

/-- And when moreover the newest directory can be hashed. -/
def flashRecovering (P : Partition) : Device FlashOp FlashRes Flash := (flashReading P).when (HashesNewest P)

theorem failure_not_succeeds {o : FlashOp} (ho : ∀ bytes, o ≠ .sha256 bytes) : ¬ ReadsSucceed o (failure o) := by
  cases o with
  | sha256 bytes => exact absurd rfl (ho bytes)
  | read offset len => exact Bool.false_ne_true
  | findPartition => exact Bool.false_ne_true
  | alloc => exact Bool.false_ne_true
  | mmap offset len => exact Bool.false_ne_true
  | erase offset len => exact Bool.false_ne_true
  | write offset data => exact Bool.false_ne_true

/-- Whenever the partition is acceptable, every execution of `gb_storage_init` in which every read
succeeds and the newest directory can be hashed returns true with the catalog the partition holds. -/
theorem gbStorageInit_recovers (s : Catalog) {c : Catalog} (hc : reload P f = some c) :
    (gbStorageInit P s).wp (flashRecovering P) (fun r f' => f' = f ∧ r = (true, c)) (fun _ => False) f := by
  have hrefines :
      (flashRecovering P).Refines ((flashDevice P anyTear).when fun o f r => HashesNewest P o f r ∧ ReadsSucceed o r) :=
    ⟨fun _ _ _ _ h => ⟨h.1.1, h.2, h.1.2⟩, fun _ _ _ h => h.elim⟩
  refine Prog.wp_uncut (fun _ _ _ h => h) (Prog.wp_mono ?_ (fun _ h => h)
    (Prog.wp_refines hrefines (gbStorageInit_when P anyTear _ s f)))
  rintro ⟨okay, s'⟩ f' ⟨rfl, hr⟩
  have hfound : ∀ {slot d}, SlotFound P (fun o f r => HashesNewest P o f r ∧ ReadsSucceed o r) f' slot d →
      SlotFound P (HashesNewest P) f' slot d := by
    intro slot d h
    cases h with
    | checked => exact .checked
    | unhashed h => exact .unhashed h.1
  have hwith : ∀ {d₀ d₁}, slotReadable P 0 ∧ slotReadable P 1 → SlotFound P (HashesNewest P) f' 0 d₀ →
      SlotFound P (HashesNewest P) f' 1 d₁ → reloadWith P f' d₀ d₁ = some c := by
    intro d₀ d₁ hreadable h₀ h₁
    rw [reloadWith_found h₀ h₁, ← hc]
    unfold reload
    rw [if_neg (not_not.mpr hreadable)]
  refine ⟨rfl, ?_⟩
  cases okay with
  | true =>
    obtain ⟨hreadable, d₀, d₁, h₀, h₁, hloaded⟩ := hr.loaded rfl
    obtain rfl : s' = c := Option.some.inj (hloaded.symm.trans (hwith hreadable (hfound h₀) (hfound h₁)))
    rfl
  | false =>
    rcases hr.failed rfl with ⟨o, ho, hok⟩ | ⟨d₀, d₁, h₀, h₁, hnone⟩
    · exact absurd hok.2 (failure_not_succeeds ho)
    · rw [hwith (reload_readable hc) (hfound h₀) (hfound h₁)] at hnone
      cases hnone

/-! ## When everything succeeds -/

theorem flashSucceeding_recovering (P : Partition) : (flashSucceeding P).Refines (flashRecovering P) := by
  refine ⟨fun o f r f' h => ⟨⟨h.1, ?_⟩, ?_⟩, fun _ _ _ h => h⟩
  · cases o with
    | sha256 bytes => exact trivial
    | findPartition => exact h.2
    | alloc => exact h.2
    | mmap offset len => exact h.2
    | read offset len => exact h.2
    | erase offset len => exact h.2
    | write offset data => exact h.2
  · cases o with
    | sha256 bytes => exact fun _ => h.2
    | findPartition => exact trivial
    | alloc => exact trivial
    | mmap offset len => exact trivial
    | read offset len => exact trivial
    | erase offset len => exact trivial
    | write offset data => exact trivial

theorem flashSucceeding_init (P : Partition) (torn : Flash → Flash → Flash → Prop) :
    (flashSucceeding P).Refines (initDevice P torn) :=
  ⟨fun o f r f' h => ⟨.inl (succeeding_done h), ((flashSucceeding_recovering P).done o f r f' h).2⟩,
    fun _ _ _ h => h.elim⟩

theorem gbStorageInit_succeeds (s : Catalog) {c : Catalog} (hc : reload P f = some c) :
    (gbStorageInit P s).wp (flashSucceeding P) (fun r f' => f' = f ∧ r = (true, c)) (fun _ => False) f :=
  Prog.wp_refines (flashSucceeding_recovering P) (gbStorageInit_recovers s hc)

theorem readDirectory_succeeds {slot : Nat} {Q : Option Directory × Catalog → Flash → Prop}
    (h : slotReadable P slot → Q (slotDirectory P f slot, s) f) :
    (readDirectory P slot s).wp (flashSucceeding P) Q (fun _ => False) f := by
  unfold readDirectory
  refine succeeding_perform fun hin => ?_
  have h := h hin
  change Prog.wp _ _ _ (if ¬ directoryShaped P (slotAt P f slot) = true then _ else _) _
  by_cases hshaped : directoryShaped P (slotAt P f slot) = true
  · rw [if_neg (not_not.mpr hshaped)]
    refine succeeding_sha256 ?_
    rw [slotDirectory, ← checkDirectory_hashed hshaped] at h
    exact h
  · rw [if_pos hshaped]
    rw [slotDirectory, checkDirectory_unshaped hshaped] at h
    exact h

/-- A read of a slot is accepted. -/
theorem readDirectory_accepted {slot : Nat} (h : slotReadable P slot) (s : Catalog) :
    (readDirectory P slot s).Only (accepted P) := by
  unfold readDirectory partitionRead
  refine Prog.only_bind (Prog.only_op h) fun r => ?_
  split
  · exact trivial
  · dsimp only
    split
    · exact trivial
    · refine Prog.only_bind ⟨trivial, fun _ => trivial⟩ fun digest => ?_
      split <;> exact trivial

theorem considerSlot_accepted {slot : Nat} (h : slotReadable P slot) (s : Catalog) :
    (considerSlot P slot s).Only (accepted P) := by
  unfold considerSlot
  refine Prog.only_bind (readDirectory_accepted h s) fun r => ?_
  obtain ⟨d, s'⟩ := r
  dsimp only
  split
  · exact trivial
  · split
    · exact trivial
    · exact trivial

/-- And one in the first sector. -/
theorem loadLegacy_accepted (h : slotReadable P 0) (s : Catalog) : (loadLegacy P s).Only (accepted P) := by
  have hsize := (slot_geometry h).1
  unfold loadLegacy partitionRead
  refine Prog.only_bind (Prog.only_op ?_) fun r => ?_
  · show 0 + 8 ≤ P.size.toNat
    omega
  split
  · exact trivial
  dsimp only
  split
  · exact trivial
  rename_i hheader
  simp only [not_or, Nat.not_lt] at hheader
  have hcount := hheader.2.2.2
  have hmax : GB_STORAGE_MAX_ROMS = 16 := rfl
  split
  · exact trivial
  refine Prog.only_bind (Prog.only_op ?_) fun r => ?_
  · show _ ≤ P.size.toNat
    rw [romHeaderCodec_size, romEntryCodec_size]
    omega
  split
  · exact trivial
  · split
    · exact trivial
    · exact trivial

theorem gbStorageInit_accepted (hr : slotReadable P 0 ∧ slotReadable P 1) (s : Catalog) :
    (gbStorageInit P s).Only (accepted P) := by
  unfold gbStorageInit partitionFind allocate
  refine Prog.only_bind (Prog.only_op trivial) fun found => ?_
  split
  · exact trivial
  refine Prog.only_bind (Prog.only_op trivial) fun dir => ?_
  split
  · exact trivial
  refine Prog.only_bind (considerSlot_accepted hr.1 _) fun s₁ =>
    Prog.only_bind (considerSlot_accepted hr.2 _) fun s₂ => ?_
  split
  · exact trivial
  split
  · exact trivial
  · exact loadLegacy_accepted hr.1 _

/-- And there is such an execution. -/
theorem gbStorageInit_exec (s : Catalog) {c : Catalog} (hc : reload P f = some c) :
    (gbStorageInit P s).Exec (flashSucceeding P) f (some (true, c)) f := by
  obtain ⟨r, f', he⟩ :=
    Prog.Only.exec (flashSucceeding_done P) (gbStorageInit_accepted (reload_readable hc) s) f
  obtain ⟨rfl, rfl⟩ := Prog.wp_exec (gbStorageInit_succeeds s hc) he
  exact he

/-! ## When the hash of a slot fails -/

theorem reading_succeeds (o : FlashOp) (ha : accepted P o) (f : Flash) :
    (flashReading P).done o f (success o f) (completed o f) := by
  refine ⟨.inl ⟨ha, rfl, rfl⟩, ?_⟩
  cases o with
  | sha256 bytes => exact trivial
  | findPartition => exact rfl
  | alloc => exact rfl
  | mmap offset len => exact rfl
  | read offset len => exact rfl
  | erase offset len => exact rfl
  | write offset data => exact rfl

/-- A hash that fails leaves nothing behind. -/
theorem flashReading_refines (P : Partition) (torn : Flash → Flash → Flash → Prop) :
    (flashReading P).Refines (flashDevice P torn) := by
  refine ⟨fun o f r f' h => ?_, fun _ _ _ h => h.elim⟩
  rcases h.1 with hdone | ⟨hr, hf⟩
  · exact .inl hdone
  · by_cases ho : ∃ bytes, o = .sha256 bytes
    · obtain ⟨bytes, rfl⟩ := ho
      exact .inr ⟨hr, .inl (sha256_done h.1)⟩
    · have hread := h.2
      rw [hr] at hread
      exact absurd hread (failure_not_succeeds fun bytes heq => ho ⟨bytes, heq⟩)

/-- Every way the hash of a slot can end is an execution. -/
theorem considerSlot_reads {slot : Nat} {d : Option Directory} (hr : slotReadable P slot)
    (h : SlotFound P (fun _ _ _ => True) f slot d) (s : Catalog) :
    (considerSlot P slot s).Exec (flashReading P) f (some (considered slot d s)) f := by
  have hselect : ∀ d : Option Directory, (match d with
      | none => pure s
      | some d => if s.directorySlot = none ∨ newer d.generation s.generation then
          pure { s with
            directorySlot := some slot, generation := d.generation, entries := d.entries.toList.take d.count.toNat }
        else pure s : StorageM Catalog).Exec (flashReading P) f (some (considered slot d s)) f := by
    intro d
    unfold considered
    cases d with
    | none => exact .pure _ _
    | some d =>
      dsimp only
      split
      · exact .pure _ _
      · exact .pure _ _
  have hread : (readDirectory P slot s).Exec (flashReading P) f (some (d, s)) f := by
    refine Prog.exec_perform (reading_succeeds (.read _ _) hr f) ?_
    change Prog.Exec _ (if ¬ directoryShaped P (slotAt P f slot) = true then _ else _) _ _ _
    by_cases hshaped : directoryShaped P (slotAt P f slot) = true
    · rw [if_neg (not_not.mpr hshaped)]
      cases h with
      | checked =>
        rw [slotDirectory, ← checkDirectory_hashed hshaped]
        exact Prog.exec_perform (reading_succeeds (.sha256 _) trivial f) (.pure _ _)
      | unhashed _ =>
        have hfail : (flashReading P).done (.sha256 (slotHashed P f slot)) f false f := ⟨.inr ⟨rfl, .inl rfl⟩, trivial⟩
        exact Prog.exec_perform hfail (.pure _ _)
    · rw [if_pos hshaped]
      have hnone : d = none := by
        cases h with
        | checked => exact checkDirectory_unshaped hshaped
        | unhashed _ => rfl
      rw [hnone]
      exact .pure _ _
  exact Prog.exec_bind hread (hselect d)

theorem loadLegacy_reads (hr : slotReadable P 0) {c : Catalog} (hc : legacyCatalog P f = some c) :
    (loadLegacy P (freshCatalog true false)).Exec (flashReading P) f (some (true, c)) f := by
  have hsize := (slot_geometry hr).1
  have hfirst : accepted P (.read 0 romHeaderCodec.size) := by
    show 0 + 8 ≤ P.size.toNat
    omega
  unfold legacyCatalog at hc
  dsimp only at hc
  unfold loadLegacy
  refine Prog.exec_perform (reading_succeeds (.read _ _) hfirst f) ?_
  change Prog.Exec _ (if _ then _ else _) _ _ _
  by_cases hheader : (romHeaderCodec.get fun i => f (0 + i)).magic ≠ legacyMagic ∨
      (romHeaderCodec.get fun i => f (0 + i)).version ≠ 1 ∨ (romHeaderCodec.get fun i => f (0 + i)).count = 0 ∨
      GB_STORAGE_MAX_ROMS < (romHeaderCodec.get fun i => f (0 + i)).count.toNat
  · rw [if_pos hheader] at hc
    obtain rfl := Option.some.inj hc
    exact Eq.mpr (congrArg (fun p => Prog.Exec _ p _ _ _) (if_pos hheader)) (.pure _ _)
  · rw [if_neg hheader] at hc
    refine Eq.mpr (congrArg (fun p => Prog.Exec _ p _ _ _) (if_neg hheader)) ?_
    have hcount : (romHeaderCodec.get fun i => f (0 + i)).count.toNat ≤ GB_STORAGE_MAX_ROMS := by
      simp only [not_or, Nat.not_lt] at hheader
      exact hheader.2.2.2
    have htable : accepted P (.read romHeaderCodec.size
        ((romHeaderCodec.get fun i => f (0 + i)).count.toNat * romEntryCodec.size)) := by
      show _ ≤ P.size.toNat
      have hmax : GB_STORAGE_MAX_ROMS = 16 := rfl
      rw [romHeaderCodec_size, romEntryCodec_size]
      omega
    refine Eq.mpr (congrArg (fun p => Prog.Exec _ p _ _ _) (if_neg (not_not.mpr (legacy_range hr hcount)))) ?_
    refine Prog.exec_perform (reading_succeeds (.read _ _) htable f) ?_
    split at hc
    · cases hc
    · rename_i hvalid
      obtain rfl := Option.some.inj hc
      exact Eq.mpr (congrArg (fun p => Prog.Exec _ p _ _ _) (if_neg hvalid)) (.pure _ _)

/-- So `gb_storage_init` can load whatever is found when a hash fails. -/
theorem gbStorageInit_reads (hr : slotReadable P 0 ∧ slotReadable P 1) (h₀ : SlotFound P (fun _ _ _ => True) f 0 d₀)
    (h₁ : SlotFound P (fun _ _ _ => True) f 1 d₁) {c : Catalog} (hc : reloadWith P f d₀ d₁ = some c) (s : Catalog) :
    (gbStorageInit P s).Exec (flashReading P) f (some (true, c)) f := by
  have hfinish : (finishLoad P (bothConsidered d₀ d₁ (freshCatalog true false))).Exec
      (flashReading P) f (some (true, c)) f := by
    rw [bothConsidered_eq d₀ d₁ rfl]
    unfold reloadWith at hc
    cases hnew : newestSlot d₀ d₁ with
    | none =>
      rw [hnew] at hc
      exact loadLegacy_reads hr.1 hc
    | some r =>
      rw [hnew] at hc
      obtain rfl := Option.some.inj hc
      exact .pure _ _
  exact Prog.exec_perform (reading_succeeds .findPartition trivial f)
    (Prog.exec_perform (reading_succeeds .alloc trivial f)
      (Prog.exec_bind (considerSlot_reads hr.1 h₀ _) (Prog.exec_bind (considerSlot_reads hr.2 h₁ _) hfinish)))

end FoloGameboy

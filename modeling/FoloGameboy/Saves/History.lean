/-
Histories of saves of one battery ROM: with any failures and interruptions, a load returns what the
last successful save or a later one stored; and one interrupted save locks the game out exactly when
no save has ever completed.
-/
import FoloGameboy.Saves.Runs

namespace FoloGameboy

open Effect

variable {σ : Type} {hash : Vector UInt8 32} {n : Nat} {v v' : SaveFs}

/-! ## Any failures -/

/-- A call of `gb_saves_write`: what there was to save, whether anything was, and what it returned. -/
structure SaveEvent where
  snapshot : Snapshot
  attempted : Bool
  returned : Option Bool

/-- The call wrote a copy and returned true. -/
def SaveEvent.succeeded (e : SaveEvent) : Prop := e.attempted = true ∧ e.returned = some true

/-- Any calls of `gb_saves_write` for one ROM, from any sessions, each failing or interrupted anywhere. -/
inductive SaveHistory (σ : Type) (hash : Vector UInt8 32) (n : Nat) (v₀ : SaveFs) : List SaveEvent → SaveFs → Prop where
  | start : SaveHistory σ hash n v₀ [] v₀
  | write {events : List SaveEvent} {v v' : SaveFs} {out : Option (Bool × Session σ)}
      (h : SaveHistory σ hash n v₀ events v)
      (env : Env σ) (s : Session σ) (hbattery : gbPortHasBattery s = true) (hn : gbPortSramSize s = n)
      (he : (gbSavesWrite env hash s).Exec (saveDevice (Incomplete hash n)) v out v') :
      SaveHistory σ hash n v₀ (events ++ [⟨snapshotOf env s, gbPortNeedsSave s, out.map Prod.fst⟩]) v'

/-- The newest copy holds what one of the calls since then stored. -/
def StoredSince (hash : Vector UInt8 32) (n : Nat) (events : List SaveEvent) (v : SaveFs) : Prop :=
  ∃ h p, newestCopy hash n v.files = some (h, p) ∧ ∃ e ∈ events, e.attempted = true ∧ e.snapshot = p

/-- A call without anything to save returns at once. -/
theorem gbSavesWrite_clean {env : Env σ} {s : Session σ} (hbattery : gbPortHasBattery s = true)
    (hclean : gbPortNeedsSave s = false) :
    gbSavesWrite env hash s = pure (true, s) := by
  unfold gbSavesWrite
  rw [if_neg (not_not.mpr hbattery), if_pos (by rw [hclean]; exact Bool.false_ne_true)]

theorem gbSavesWrite_exec {env : Env σ} {s : Session σ} {out : Option (Bool × Session σ)}
    (hn : gbPortSramSize s = n)
    (hbattery : gbPortHasBattery s = true) (hdirty : gbPortNeedsSave s = true)
    (he : (gbSavesWrite env hash s).Exec (saveDevice (Incomplete hash n)) v out v') :
    SaveWritten env hash n s v.files out v' := by
  have h := Prog.wp_exec (gbSavesWrite_wp env hash s hn hbattery hdirty v) he
  cases out with
  | none => exact h
  | some r => exact h

/-- A call keeps the newest copy or stores its own snapshot, and a successful one stores it. -/
theorem write_newest {env : Env σ} {s : Session σ} {out : Option (Bool × Session σ)}
    (hbattery : gbPortHasBattery s = true)
    (hn : gbPortSramSize s = n)
    (he : (gbSavesWrite env hash s).Exec (saveDevice (Incomplete hash n)) v out v') :
    (newestCopy hash n v'.files = newestCopy hash n v.files ∧
      (gbPortNeedsSave s = true → ∀ s', out ≠ some (true, s'))) ∨
      (gbPortNeedsSave s = true ∧ (newestCopy hash n v'.files).map Prod.snd = some (snapshotOf env s)) := by
  cases hdirty : gbPortNeedsSave s with
  | false =>
    rw [gbSavesWrite_clean hbattery hdirty] at he
    cases he with
    | pure => exact .inl ⟨rfl, by simp⟩
  | true =>
    rcases (gbSavesWrite_exec hn hbattery hdirty he).newest hn with ⟨hsame, hout⟩ | hnew
    · exact .inl ⟨hsame, fun _ => hout⟩
    · exact .inr ⟨rfl, hnew⟩

theorem SaveHistory.storedSince {v₀ : SaveFs} {events : List SaveEvent}
    (h : SaveHistory σ hash n v₀ events v) :
    ∀ before e later, events = before ++ e :: later → e.succeeded → StoredSince hash n (e :: later) v := by
  induction h with
  | start =>
    intro before e later heq
    simp at heq
  | @write events v v' out _ env s hbattery hn he ih =>
    intro before e later heq hsucc
    have hstep := write_newest hbattery hn he
    have hnew : ∀ later', gbPortNeedsSave s = true → (newestCopy hash n v'.files).map Prod.snd =
        some (snapshotOf env s) →
        (⟨snapshotOf env s, gbPortNeedsSave s, out.map Prod.fst⟩ : SaveEvent) ∈ e :: later' →
          StoredSince hash n (e :: later') v' := by
      intro later' hdirty hstored hmem
      obtain ⟨⟨header, p⟩, hcopy, hp⟩ := Option.map_eq_some_iff.mp hstored
      exact ⟨header, p, hcopy, _, hmem, hdirty, hp.symm⟩
    -- the successful call is this one, or an earlier one
    rcases List.eq_nil_or_concat' later with rfl | ⟨later', last, rfl⟩
    · obtain ⟨-, hlast⟩ := List.append_inj' heq rfl
      obtain rfl := (List.cons.inj hlast).1
      rcases hstep with ⟨-, hout⟩ | ⟨hdirty, hstored⟩
      · obtain ⟨hdirty, hreturned⟩ := hsucc
        obtain ⟨⟨ok, s'⟩, hr, hok⟩ := Option.map_eq_some_iff.mp hreturned
        obtain rfl : ok = true := hok
        exact absurd hr (hout hdirty s')
      · exact hnew [] hdirty hstored List.mem_cons_self
    · have hsplit :
          events ++ [(⟨snapshotOf env s, gbPortNeedsSave s, out.map Prod.fst⟩ : SaveEvent)] =
          (before ++ e :: later') ++ [last] := by
        rw [heq]
        simp
      obtain ⟨hevents, hlast⟩ := List.append_inj' hsplit rfl
      obtain rfl := (List.cons.inj hlast).1
      rcases hstep with ⟨hsame, -⟩ | ⟨hdirty, hstored⟩
      · obtain ⟨header, p, hcopy, e', he', hattempted, hp⟩ := ih before e later' hevents hsucc
        refine ⟨header, p, by rw [hsame, hcopy], e', ?_, hattempted, hp⟩
        exact List.mem_cons.mpr ((List.mem_cons.mp he').imp id fun h => List.mem_append_left _ h)
      · exact hnew _ hdirty hstored (by simp)

/-- The copy about to be overwritten is neither the newest copy nor the only valid one. -/
theorem targetOf_spares {files : Volume} {target : Path} (h : targetOf hash n files = some target) :
    newestCopy hash n (Function.update files target none) = newestCopy hash n files := by
  obtain ⟨copy, rfl, hcopy⟩ := targetOf_cases h
  exact hcopy.spares rfl

/-- Once a call has written a copy and returned true, after any later calls, failing or interrupted
anywhere, a load installs exactly what that call or a later one stored; and no call overwrites the
newest copy. -/
theorem save_durable (hash : Vector UInt8 32) (v₀ v : SaveFs) (events before later : List SaveEvent) (e : SaveEvent)
    (h : SaveHistory σ hash n v₀ events v) (heq : events = before ++ e :: later) (hsucc : e.succeeded) :
    (∀ (env : Env σ) p rom s, gbPortCreate env p rom = some s → gbPortHasBattery s = true → gbPortSramSize s = n →
      ∀ out v', (gbSavesLoad hash s).Exec (saveDevice (Incomplete hash n)) v (some out) v' →
        out.1 = .loaded ∧ ∃ e' ∈ e :: later, e'.attempted = true ∧
          e'.snapshot = ⟨sramOf out.2, rtcBytes out.2.core.bus.rtc⟩) ∧
    ∀ target, targetOf hash n v.files = some target →
      newestCopy hash n (Function.update v.files target none) = newestCopy hash n v.files := by
  refine ⟨?_, fun target htarget => targetOf_spares htarget⟩
  intro env p rom s hcreate hbattery hn out v' he
  have hnew := gbPortCreate_battery hcreate
  obtain ⟨header, snap, hcopy, e', he', hattempted, hsnap⟩ := h.storedSince before e later heq hsucc
  obtain ⟨-, hload⟩ := Prog.wp_exec (gbSavesLoad_wp hash ⟨hnew.size, hnew.latch⟩ hn hbattery v) he
  cases hload with
  | loaded hnewest hi =>
    rw [hcopy] at hnewest
    obtain ⟨-, rfl⟩ := Prod.mk.inj (Option.some.inj hnewest)
    refine ⟨rfl, e', he', hattempted, ?_⟩
    rw [hsnap, hi.sram, hi.rtc]
  | error hnewest => exact absurd (hcopy.symm.trans hnewest) (by simp)
  | empty hnewest => exact absurd (hcopy.symm.trans hnewest) (by simp)

/-! A session with something to save, and a volume without files. -/

def emptyVolume : SaveFs := { files := fun _ => none }

/-- A battery session with 8 KB of SRAM whose first byte the guest has set. -/
def dirtySession : Session Unit :=
  { core := { bus := { mem := {
    sramSize := 8192, sramPersistSize := 8192, sramDirty := true, sramData := (Buffer.fill 8192 0).set 0 1 } } }
    battery := true
    rtc := false }

theorem targetOf_missing {files : Volume} (ha : files (savePath hash copyA) = none)
    (hb : files (savePath hash copyB) = none) :
    targetOf hash n files = some (savePath hash copyA) := by
  unfold targetOf copyAt
  rw [ha, hb]
  rfl

/-- A volume with copy a alone; the next save goes to copy b. -/
theorem targetOf_saved {v : SaveFs} (hb : v.files (savePath hash copyB) = none) (sequence : UInt32) {p : Snapshot}
    (hsram : p.sram.length = n) (hrtc : p.rtc.length = 10) :
    targetOf hash n (v.hold (savePath hash copyA) (copyBytes hash sequence p)).closed.files
      = some (savePath hash copyB) := by
  have hfileA : (v.hold (savePath hash copyA) (copyBytes hash sequence p)).closed.files (savePath hash copyA)
      = some (copyBytes hash sequence p) := by
    show Function.update v.files (savePath hash copyA) (some (copyBytes hash sequence p)) (savePath hash copyA) = _
    rw [Function.update_self]
  have hfileB : (v.hold (savePath hash copyA) (copyBytes hash sequence p)).closed.files
      (savePath hash copyB) = none := by
    show Function.update v.files (savePath hash copyA) (some (copyBytes hash sequence p)) (savePath hash copyB) = _
    rw [Function.update_of_ne (savePath_ne hash).symm, hb]
  have hcheck := checkFile_copy hash sequence hrtc
  rw [hsram] at hcheck
  unfold targetOf copyAt
  rw [hfileA, hfileB, Option.bind_some, Option.bind_none, hcheck]
  exact if_neg fun h => Bool.false_ne_true h.1

theorem save_durable_first : ∃ v, SaveHistory Unit (.replicate 32 0) 8192 emptyVolume
      [⟨snapshotOf blankEnv dirtySession, true, some true⟩] v ∧
    ((∀ (env : Env Unit) p rom s, gbPortCreate env p rom = some s →
      gbPortHasBattery s = true → gbPortSramSize s = 8192 →
      ∀ out v', (gbSavesLoad (.replicate 32 0) s).Exec (saveDevice (Incomplete (.replicate 32 0) 8192)) v
        (some out) v' →
        out.1 = .loaded ∧ ∃ e' ∈ [(⟨snapshotOf blankEnv dirtySession, true, some true⟩ : SaveEvent)],
          e'.attempted = true ∧
          e'.snapshot = ⟨sramOf out.2, rtcBytes out.2.core.bus.rtc⟩) ∧
    ∀ target, targetOf (.replicate 32 0) 8192 v.files = some target →
      newestCopy (.replicate 32 0) 8192 (Function.update v.files target none)
        = newestCopy (.replicate 32 0) 8192 v.files) := by
  have hsave := @gbSavesWrite_succeeds _ (.replicate 32 0) 8192 (Incomplete (.replicate 32 0) 8192)
    blankEnv dirtySession emptyVolume rfl rfl rfl _ (targetOf_missing rfl rfl)
  have hhistory := SaveHistory.write .start blankEnv dirtySession rfl rfl hsave
  exact ⟨_, hhistory, save_durable _ _ _ _ [] [] _ hhistory rfl ⟨rfl, rfl⟩⟩

/-! ## One interruption -/

/-- A history of saves that all complete but for at most one, whose target a power cut leaves
truncated or partly written; with the snapshots stored so far. -/
inductive CutHistory (σ : Type) (hash : Vector UInt8 32) (n : Nat) :
    (stored : List Snapshot) → (cut : Bool) → SaveFs → Prop where
  | start {v : SaveFs} (ha : v.files (savePath hash copyA) = none) (hb : v.files (savePath hash copyB) = none) :
      CutHistory σ hash n [] false v
  | completed {stored : List Snapshot} {cut : Bool} {v v' : SaveFs} (h : CutHistory σ hash n stored cut v) (env : Env σ)
      {s s' : Session σ} (hbattery : gbPortHasBattery s = true) (hn : gbPortSramSize s = n)
      (he : (gbSavesWrite env hash s).Exec (saveDevice (Incomplete hash n)) v (some (true, s')) v') :
      CutHistory σ hash n (if gbPortNeedsSave s then stored ++ [snapshotOf env s] else stored) cut v'
  | interrupted {stored : List Snapshot} {v v' : SaveFs} (h : CutHistory σ hash n stored false v)
      (env : Env σ) {s : Session σ}
      (hbattery : gbPortHasBattery s = true) (hn : gbPortSramSize s = n)
      (he : (gbSavesWrite env hash s).Exec (saveDevice (Incomplete hash n)) v none v')
      {target : Path} {left : List UInt8}
      (htarget : targetOf hash n v.files = some target) (hleft : Incomplete hash n left)
      (hfiles : v'.files = Function.update v.files target (some left)) : CutHistory σ hash n stored true v'

/-- What a load should find: the last stored snapshot, or no save when none was stored. -/
def LoadMeets (stored : List Snapshot) (r : SaveResult × Session σ) : Prop :=
  match stored.getLast? with
  | none => r.1 = .empty
  | some p => r.1 = .loaded ∧ sramOf r.2 = p.sram ∧ rtcBytes r.2.core.bus.rtc = p.rtc

/-- What the volume holds after such a history. -/
structure CutState (hash : Vector UInt8 32) (n : Nat) (stored : List Snapshot)
    (cut : Bool) (files : Volume) : Prop where
  newest : (newestCopy hash n files).map Prod.snd = stored.getLast?
  missing : stored = [] → cut = false → files (savePath hash copyA) = none ∧ files (savePath hash copyB) = none
  left : stored = [] → cut = true → files (savePath hash copyA) ≠ none ∨ files (savePath hash copyB) ≠ none

theorem CutHistory.state {stored : List Snapshot} {cut : Bool} (h : CutHistory σ hash n stored cut v) :
    CutState hash n stored cut v.files := by
  induction h with
  | start ha hb =>
    refine ⟨?_, fun _ _ => ⟨ha, hb⟩, fun _ hf => Bool.noConfusion hf⟩
    unfold newestCopy validCopy
    rw [ha, hb]
    rfl
  | @completed stored cut v v' h env s s' hbattery hn he ih =>
    cases hdirty : gbPortNeedsSave s with
    | false =>
      rw [gbSavesWrite_clean hbattery hdirty] at he
      cases he with
      | pure => exact ih
    | true =>
      rcases write_newest hbattery hn he with ⟨-, hout⟩ | ⟨-, hnew⟩
      · exact absurd rfl (hout hdirty s')
      · refine ⟨?_, fun hnil => ?_, fun hnil => ?_⟩
        · rw [hnew]
          simp
        · simp at hnil
        · simp at hnil
  | @interrupted stored v v' h env s hbattery hn he target left htarget hleft hfiles ih =>
    obtain ⟨copy, rfl, hcopy⟩ := targetOf_cases htarget
    refine ⟨?_, fun _ hf => Bool.noConfusion hf, fun hnil _ => ?_⟩
    · rw [hfiles, hcopy.spares (validFile_incomplete hleft)]
      exact ih.newest
    · rw [hfiles]
      have hexists :
          (Function.update v.files (savePath hash copy) (some left)) (savePath hash copy) ≠
          none := by
        rw [Function.update_self]
        simp
      cases hcopy with
      | first hcopy =>
        rcases hcopy with rfl | rfl
        · exact .inl hexists
        · exact .inr hexists
      | overA => exact .inl hexists
      | overB => exact .inr hexists
      | olderA => exact .inl hexists
      | olderB => exact .inr hexists

/-! What a load does on that volume. -/

theorem checkCopy_only (path : Path) :
    (checkCopy false path hash n).Only fun o => ∃ path, o = .fopenRead false path ∨
      o = .fcloseRead false := by
  refine Prog.only_bind (Prog.only_op ⟨path, .inl rfl⟩) ?_
  rintro (_ | file)
  · exact trivial
  · exact Prog.only_bind (Prog.only_op ⟨path, .inr rfl⟩) fun _ => trivial

theorem fileExists_only (path : Path) :
    (fileExists path).Only fun o => ∃ path, o = .fopenRead false path ∨ o = .fcloseRead false := by
  refine Prog.only_bind (Prog.only_op ⟨path, .inl rfl⟩) ?_
  rintro (_ | file)
  · exact trivial
  · exact Prog.only_bind (Prog.only_op ⟨path, .inr rfl⟩) fun _ => trivial

/-- A load only opens and closes files. -/
theorem gbSavesLoad_only (s : Session σ) :
    (gbSavesLoad hash s).Only fun o => ∃ path, o = .fopenRead false path ∨ o = .fcloseRead false := by
  unfold gbSavesLoad
  split
  · exact trivial
  dsimp only
  refine Prog.only_bind (checkCopy_only _) fun ha => ?_
  refine Prog.only_bind (checkCopy_only _) fun hb => ?_
  split
  · refine Prog.only_bind (fileExists_only _) fun existsA => ?_
    split
    · exact trivial
    · refine Prog.only_bind (fileExists_only _) fun existsB => ?_
      split <;> exact trivial
  · refine Prog.only_bind (Prog.only_op ⟨_, .inl rfl⟩) ?_
    rintro (_ | file)
    · exact trivial
    · exact Prog.only_bind (Prog.only_op ⟨savePath hash copyA, .inr rfl⟩) fun _ => trivial

theorem gbSavesLoad_returns (s : Session σ) (v : SaveFs) :
    ∃ r v', (gbSavesLoad hash s).Exec (saveDevice (Incomplete hash n)) v (some r) v' := by
  refine Prog.Only.exec ?_ (gbSavesLoad_only s) v
  rintro o v ⟨path, rfl | rfl⟩
  · exact ⟨v.files path, v, rfl, .inl rfl⟩
  · exact ⟨true, v, rfl, .inl rfl⟩

/-- A load after such a history finds the last stored snapshot, or no save, exactly when no save was
cut or one was stored: the cut of the first save leaves a damaged copy alone, and locks the game out. -/
theorem interrupted_save_loads (hash : Vector UInt8 32) (stored : List Snapshot) (cut : Bool) (v : SaveFs)
    (h : CutHistory σ hash n stored cut v) (env : Env σ) (p : Platform σ) (rom : RomSource) (s : Session σ)
    (hcreate : gbPortCreate env p rom = some s) (hbattery : gbPortHasBattery s = true) (hn : gbPortSramSize s = n) :
    (∀ r v', (gbSavesLoad hash s).Exec (saveDevice (Incomplete hash n)) v (some r) v' → LoadMeets stored r) ↔
      cut = false ∨ stored ≠ [] := by
  have hnew := gbPortCreate_battery hcreate
  have hstate := h.state
  have hload : ∀ r v', (gbSavesLoad hash s).Exec (saveDevice (Incomplete hash n)) v (some r) v' →
      SaveLoaded hash n v.files s r := fun r v' he =>
    (Prog.wp_exec (gbSavesLoad_wp hash ⟨hnew.size, hnew.latch⟩ hn hbattery v) he).2
  constructor
  · intro hmeets
    by_contra hcond
    obtain ⟨hcut, hnil⟩ := not_or.mp hcond
    obtain rfl := not_not.mp hnil
    obtain ⟨r, v', he⟩ := @gbSavesLoad_returns _ hash n s v
    have hempty : r.1 = .empty := hmeets r v' he
    have hleft := hstate.left rfl (by simpa using hcut)
    cases hload r v' he with
    | loaded _ _ => cases hempty
    | error _ _ => cases hempty
    | empty _ ha hb => exact hleft.elim (absurd ha) (absurd hb)
  · intro hcond r v' he
    have hnewest := hstate.newest
    unfold LoadMeets
    cases hload r v' he with
    | @loaded header p s' hcopy hi =>
      rw [hcopy] at hnewest
      rw [← hnewest]
      exact ⟨rfl, hi.sram, hi.rtc⟩
    | error hcopy hfile =>
      rw [hcopy] at hnewest
      have hnil : stored = [] := List.getLast?_eq_none_iff.mp hnewest.symm
      have hcut : cut = false := hcond.resolve_right (not_not.mpr hnil)
      obtain ⟨ha, hb⟩ := hstate.missing hnil hcut
      exact hfile.elim (absurd ha) (absurd hb)
    | empty hcopy ha hb =>
      rw [hcopy] at hnewest
      rw [← hnewest]
      rfl

/-- The power is cut when the first save has opened its copy. -/
theorem first_save_cut :
    CutHistory Unit (.replicate 32 0) 8192 [] true
      (emptyVolume.store (savePath (.replicate 32 0) copyA) (some [])) := by
  have htarget : targetOf (.replicate 32 0) 8192 emptyVolume.files =
      some (savePath (.replicate 32 0) copyA) := targetOf_missing rfl rfl
  have hcut := gbSavesWrite_cut blankEnv (n := 8192) (s := dirtySession) rfl rfl rfl htarget
  exact .interrupted (.start rfl rfl) blankEnv rfl rfl hcut htarget
    (checkFile_short (by rw [List.length_nil]; omega)) rfl

theorem interrupted_save_locks_out : ∃ v, CutHistory Unit (.replicate 32 0) 8192 [] true v ∧
    ∃ s, gbPortCreate batteryEnv ⟨false, true, ()⟩ ⟨32768, true⟩ = some s ∧ ∃ s' v',
      (gbSavesLoad (.replicate 32 0) s).Exec (saveDevice (Incomplete (.replicate 32 0) 8192)) v
        (some (.error, s')) v' := by
  refine ⟨_, first_save_cut, ?_⟩
  obtain ⟨s, hcreate, hbattery, hn⟩ := batteryEnv_session
  refine ⟨s, hcreate, ?_⟩
  have hnew := gbPortCreate_battery hcreate
  obtain ⟨r, v', he⟩ := @gbSavesLoad_returns _ (.replicate 32 0) 8192 s
    (emptyVolume.store (savePath (.replicate 32 0) copyA) (some []))
  have hload := (Prog.wp_exec (gbSavesLoad_wp _ ⟨hnew.size, hnew.latch⟩ hn hbattery _) he).2
  cases hload with
  | loaded hcopy _ =>
    have hnone := first_save_cut.state.newest
    rw [hcopy] at hnone
    cases hnone
  | error _ _ => exact ⟨_, _, he⟩
  | empty _ ha _ => exact (first_save_cut.state.left rfl rfl).elim (absurd ha) (absurd ‹_›)

/-- The first save is complete and goes to copy a; the power is cut when the next has opened copy b. -/
theorem second_save_cut : ∃ v, CutHistory Unit (.replicate 32 0) 8192 [snapshotOf blankEnv dirtySession] true v := by
  have hfirst := @gbSavesWrite_succeeds _ (.replicate 32 0) 8192 (Incomplete (.replicate 32 0) 8192)
    blankEnv dirtySession emptyVolume rfl rfl rfl _ (targetOf_missing rfl rfl)
  have hstored :=
    @CutHistory.completed Unit (.replicate 32 0) 8192 [] false _ _ (.start rfl rfl) blankEnv _ _ rfl rfl hfirst
  have hneeds : gbPortNeedsSave dirtySession = true := rfl
  rw [if_pos hneeds, List.nil_append] at hstored
  have htarget := @targetOf_saved (.replicate 32 0) 8192 emptyVolume rfl
    (nextSequence (.replicate 32 0) 8192 emptyVolume.files) _
      (snapshotOf_sram blankEnv rfl) (snapshotOf_rtc blankEnv dirtySession)
  have hcut := gbSavesWrite_cut blankEnv (s := dirtySession) rfl rfl rfl htarget
  exact ⟨_, .interrupted hstored blankEnv rfl rfl hcut htarget (checkFile_short (by rw [List.length_nil]; omega)) rfl⟩

theorem interrupted_save_loads_stored :
    ∃ v, CutHistory Unit (.replicate 32 0) 8192 [snapshotOf blankEnv dirtySession] true v ∧
    ∃ s, gbPortCreate batteryEnv ⟨false, true, ()⟩ ⟨32768, true⟩ = some s ∧
      ((∀ r v', (gbSavesLoad (.replicate 32 0) s).Exec (saveDevice (Incomplete (.replicate 32 0) 8192)) v (some r) v' →
        LoadMeets [snapshotOf blankEnv dirtySession] r) ↔ true = false ∨ [snapshotOf blankEnv dirtySession] ≠ []) := by
  obtain ⟨s, hcreate, hbattery, hn⟩ := batteryEnv_session
  obtain ⟨v, hcut⟩ := second_save_cut
  exact ⟨v, hcut, s, hcreate, interrupted_save_loads _ _ _ _ hcut batteryEnv _ _ s hcreate hbattery hn⟩

end FoloGameboy

/-
The newest valid copy: `gb_saves_write` never overwrites it, replaces it only by what it saves, and
`gb_saves_load` installs it.
-/
import FoloGameboy.Saves.Results

namespace FoloGameboy

open Effect

variable {σ : Type} {hash : Vector UInt8 32} {n : Nat} {files : Volume} {v : SaveFs} {incomplete : List UInt8 → Prop}

/-! ## The target -/

theorem savePath_ne (hash : Vector UInt8 32) : savePath hash copyA ≠ savePath hash copyB := by
  intro h
  have hlast := congrArg List.getLast? h
  unfold savePath saveName at hlast
  simp [copyA, copyB] at hlast

/-- The valid copy in the bytes of a file, if there is one. -/
def validFile (hash : Vector UInt8 32) (n : Nat) (c : Option (List UInt8)) : Option (SaveHeader × Snapshot) :=
  c.bind fun file => (checkFile hash n file).map fun h => (h, payloadOf n file)

theorem newestCopy_updateA (c : Option (List UInt8)) :
    newestCopy hash n (Function.update files (savePath hash copyA) c) =
    newestOf (validFile hash n c) (validCopy hash n files copyB) := by
  unfold newestCopy validCopy
  rw [Function.update_self, Function.update_of_ne (savePath_ne hash).symm]
  rfl

theorem newestCopy_updateB (c : Option (List UInt8)) :
    newestCopy hash n (Function.update files (savePath hash copyB) c) =
    newestOf (validCopy hash n files copyA) (validFile hash n c) := by
  unfold newestCopy validCopy
  rw [Function.update_self, Function.update_of_ne (savePath_ne hash)]
  rfl

/-- The target and the sequence number, by the valid copies. -/
inductive Target (hash : Vector UInt8 32) (n : Nat) (files : Volume) : UInt8 → Prop where
  | first {copy : UInt8} (hcopy : copy = copyA ∨ copy = copyB) (ha : validCopy hash n files copyA = none)
      (hb : validCopy hash n files copyB = none) (hmissing : files (savePath hash copy) = none) :
      Target hash n files copy
  | overA {b : SaveHeader × Snapshot} (ha : validCopy hash n files copyA = none)
      (hb : validCopy hash n files copyB = some b)
      (hseq : nextSequence hash n files = b.1.sequence + 1) : Target hash n files copyA
  | overB {a : SaveHeader × Snapshot} (ha : validCopy hash n files copyA = some a)
      (hb : validCopy hash n files copyB = none)
      (hseq : nextSequence hash n files = a.1.sequence + 1) : Target hash n files copyB
  | olderA {a b : SaveHeader × Snapshot} (ha : validCopy hash n files copyA = some a)
      (hb : validCopy hash n files copyB = some b)
      (hnew : newer a.1.sequence b.1.sequence = false) (hseq : nextSequence hash n files = b.1.sequence + 1) :
      Target hash n files copyA
  | olderB {a b : SaveHeader × Snapshot} (ha : validCopy hash n files copyA = some a)
      (hb : validCopy hash n files copyB = some b)
      (hnew : newer a.1.sequence b.1.sequence = true) (hseq : nextSequence hash n files = a.1.sequence + 1) :
      Target hash n files copyB

theorem targetOf_cases {target : Path} (h : targetOf hash n files = some target) :
    ∃ copy, target = savePath hash copy ∧ Target hash n files copy := by
  unfold targetOf at h
  have hnext : nextSequence hash n files = latestSequence ((validCopy hash n files copyA).map Prod.fst)
      ((validCopy hash n files copyB).map Prod.fst) + 1 := by
    unfold nextSequence
    rw [copyAt_eq, copyAt_eq]
  simp only [copyAt_eq] at h
  -- by the valid copies: none, one, or the older of two
  cases ha : validCopy hash n files copyA with
  | none =>
    cases hb : validCopy hash n files copyB with
    | none =>
      rw [ha, hb] at h
      dsimp only [Option.map_none] at h
      rw [if_pos ⟨rfl, rfl⟩] at h
      split at h
      · split at h
        · cases h
        · rename_i hmissing
          exact ⟨copyB, (Option.some.inj h).symm,
            .first (.inr rfl) ha hb (Option.not_isSome_iff_eq_none.mp hmissing)⟩
      · rename_i hmissing
        exact ⟨copyA, (Option.some.inj h).symm,
          .first (.inl rfl) ha hb (Option.not_isSome_iff_eq_none.mp hmissing)⟩
    | some b =>
      rw [ha, hb] at h hnext
      rw [if_neg (by simp)] at h
      exact ⟨copyA, (Option.some.inj h).symm, .overA ha hb hnext⟩
  | some a =>
    cases hb : validCopy hash n files copyB with
    | none =>
      rw [ha, hb] at h hnext
      rw [if_neg (by simp)] at h
      exact ⟨copyB, (Option.some.inj h).symm, .overB ha hb hnext⟩
    | some b =>
      rw [ha, hb] at h hnext
      rw [if_neg (by simp)] at h
      obtain rfl := Option.some.inj h
      dsimp only [Option.map_some, targetCopy, latestSequence] at hnext ⊢
      cases hnew : newer a.1.sequence b.1.sequence with
      | true =>
        rw [hnew] at hnext
        exact ⟨copyB, rfl, .olderB ha hb hnew hnext⟩
      | false =>
        rw [hnew] at hnext
        exact ⟨copyA, rfl, .olderA ha hb hnew hnext⟩

/-- Whatever invalid bytes the target is left with, the newest copy stays. -/
theorem Target.spares {copy : UInt8} (h : Target hash n files copy) {c : Option (List UInt8)}
    (hc : validFile hash n c = none) :
    newestCopy hash n (Function.update files (savePath hash copy) c) = newestCopy hash n files := by
  unfold newestCopy at *
  cases h with
  | first hcopy ha hb =>
    rcases hcopy with rfl | rfl
    · exact (newestCopy_updateA c).trans (by rw [hc, ha])
    · exact (newestCopy_updateB c).trans (by rw [hc, hb])
  | overA ha hb => exact (newestCopy_updateA c).trans (by rw [hc, ha])
  | overB ha hb => exact (newestCopy_updateB c).trans (by rw [hc, hb])
  | olderA ha hb hnew =>
    refine (newestCopy_updateA c).trans ?_
    rw [hc, ha, hb]
    show some _ = if _ then _ else _
    rw [hnew]
    rfl
  | olderB ha hb hnew =>
    refine (newestCopy_updateB c).trans ?_
    rw [hc, ha, hb]
    show some _ = if _ then _ else _
    rw [hnew]
    rfl

/-- A complete copy with the next sequence number is the newest. -/
theorem Target.replaces {copy : UInt8} (h : Target hash n files copy) {c : Option (List UInt8)}
    {r : SaveHeader × Snapshot}
    (hc : validFile hash n c = some r) (hseq : r.1.sequence = nextSequence hash n files) :
    newestCopy hash n (Function.update files (savePath hash copy) c) = some r := by
  cases h with
  | first hcopy ha hb =>
    rcases hcopy with rfl | rfl
    · rw [newestCopy_updateA, hc, hb]
      rfl
    · rw [newestCopy_updateB, hc, ha]
      rfl
  | overA ha hb hnext =>
    rw [newestCopy_updateA, hc, hb]
    show (if newer r.1.sequence _ then _ else _) = _
    rw [hseq, hnext, newer_next]
    rfl
  | overB ha hb hnext =>
    rw [newestCopy_updateB, hc, ha]
    show (if newer _ r.1.sequence then _ else _) = _
    rw [hseq, hnext, not_newer_previous]
    rfl
  | olderA ha hb hnew hnext =>
    rw [newestCopy_updateA, hc, hb]
    show (if newer r.1.sequence _ then _ else _) = _
    rw [hseq, hnext, newer_next]
    rfl
  | olderB ha hb hnew hnext =>
    rw [newestCopy_updateB, hc, ha]
    show (if newer _ r.1.sequence then _ else _) = _
    rw [hseq, hnext, not_newer_previous]
    rfl

/-! ## What a save does to the newest copy -/

theorem validFile_copy (hash : Vector UInt8 32) (sequence : UInt32) {p : Snapshot}
    (hsram : p.sram.length = n) (hrtc : p.rtc.length = 10) :
    validFile hash n (some (copyBytes hash sequence p)) = some (newHeader hash sequence p, p) := by
  subst hsram
  unfold validFile
  rw [Option.bind_some, checkFile_copy hash sequence hrtc, payloadOf_copy hash sequence hrtc,
    Option.map_some]

theorem newHeader_sequence (hash : Vector UInt8 32) (sequence : UInt32) (p : Snapshot) :
    (newHeader hash sequence p).sequence = sequence := by
  unfold newHeader newHead
  rfl

theorem validFile_incomplete {c : List UInt8} (h : Incomplete hash n c) :
    validFile hash n (some c) = none := by
  unfold Incomplete at h
  unfold validFile
  rw [Option.bind_some, h, Option.map_none]

theorem snapshotOf_sram (env : Env σ) {s : Session σ} (hn : gbPortSramSize s = n) :
    (snapshotOf env s).sram.length = n := by
  show (sramOf s).length = n
  rw [sramOf, Buffer.length_slice, hn]

/-- After a save, however it ends, the newest copy is the one from before or holds what was saved, and
after one that returns true it holds what was saved. -/
theorem SaveWritten.newest {env : Env σ} {s : Session σ} {out : Option (Bool × Session σ)}
    (hn : gbPortSramSize s = n) (h : SaveWritten env hash n s files out v) :
    (newestCopy hash n v.files = newestCopy hash n files ∧ ∀ s', out ≠ some (true, s')) ∨
      (newestCopy hash n v.files).map Prod.snd = some (snapshotOf env s) := by
  cases h with
  | refused hout hfiles =>
    refine .inl ⟨by rw [hfiles], ?_⟩
    intro s' hs'
    exact Bool.noConfusion (hout true s' hs').1
  | attempted htarget hout hw =>
    obtain ⟨copy, rfl, hcopy⟩ := targetOf_cases htarget
    have hfalse : out.map Prod.fst ≠ some true → ∀ s', out ≠ some (true, s') := by
      rintro hne s' rfl
      exact hne rfl
    have hnew := validFile_copy hash (nextSequence hash n files) (snapshotOf_sram env hn)
      (snapshotOf_rtc env s)
    have hreplaced := hcopy.replaces hnew (newHeader_sequence _ _ _)
    rcases hw with ⟨hne, hfiles⟩ | ⟨hne, held, hfiles, hleft⟩ | ⟨-, hfiles⟩
    · exact .inl ⟨by rw [hfiles], hfalse hne⟩
    · rcases hleft with rfl | hinc
      · right
        rw [hfiles, hreplaced, Option.map_some]
      · exact .inl ⟨by rw [hfiles, hcopy.spares (validFile_incomplete hinc)], hfalse hne⟩
    · right
      rw [hfiles, hreplaced, Option.map_some]

/-! ## Loading -/

/-- The buffers behind the battery side of a session are as large as it says. -/
structure BatteryOK (s : Session σ) : Prop where
  sram : gbPortSramSize s ≤ s.core.bus.mem.sramData.size
  latch : s.core.bus.rtc.rtcLatched.size = 5

/-- The session with other SRAM bytes and another dirty flag. -/
structure SramImported (s s' : Session σ) : Prop where
  eq : ∃ d dirty, d.size = s.core.bus.mem.sramData.size ∧
    s' = withMem { s.core.bus.mem with sramData := d, sramDirty := dirty } s

theorem SramImported.refl (s : Session σ) : SramImported s s := ⟨_, _, rfl, rfl⟩

theorem SramImported.trans {s₁ s₂ s₃ : Session σ} (h : SramImported s₁ s₂)
    (h' : SramImported s₂ s₃) : SramImported s₁ s₃ := by
  obtain ⟨d, dirty, hd, rfl⟩ := h.eq
  obtain ⟨d', dirty', hd', rfl⟩ := h'.eq
  exact ⟨d', dirty', hd'.trans hd, rfl⟩

/-- Importing bytes at the end of what was imported before. -/
theorem gbPortWriteSram_next {s : Session σ} (hs : BatteryOK s) {offset : Nat} {src : List UInt8}
    (h : offset + src.length ≤ gbPortSramSize s) :
    ∃ s', gbPortWriteSram offset src s = some s' ∧ SramImported s s' ∧
      s'.core.bus.mem.sramData.slice 0 (offset + src.length) =
        s.core.bus.mem.sramData.slice 0 offset ++ src := by
  have hin : inSram s.core.bus.mem offset src.length = true := by
    unfold gbPortSramSize at h
    unfold inSram
    simp only [Bool.and_eq_true, decide_eq_true_eq]
    omega
  have hsize : offset + src.length ≤ s.core.bus.mem.sramData.size := Nat.le_trans h hs.sram
  unfold gbPortWriteSram
  dsimp only
  rw [if_pos hin]
  split
  · exact ⟨_, rfl, ⟨_, true, Buffer.size_blit _ _ _ _, rfl⟩, Buffer.slice_blit _ hsize⟩
  · rename_i hsame
    refine ⟨s, rfl, .refl s, ?_⟩
    rw [Buffer.slice_append, Nat.zero_add, not_not.mp hsame]

/-- The SRAM loop imports the bytes of the file. -/
theorem loadSram_imports {s : Session σ} (hs : BatteryOK s) (hn : gbPortSramSize s = n)
    (offset : Nat) (ho : offset ≤ n) {file : List UInt8}
    (hfile : n - offset ≤ file.length) :
    ∃ s', loadSram n offset file s = (true, file.drop (n - offset), s') ∧ SramImported s s' ∧
      sramOf s' = s.core.bus.mem.sramData.slice 0 offset ++ file.take (n - offset) := by
  unfold loadSram
  by_cases hlt : offset < n
  · rw [if_pos hlt]
    dsimp only
    -- one chunk of at most 512 bytes, then the rest
    generalize hbytes : (if 512 < n - offset then 512 else n - offset) = bytes
    have hb : 0 < bytes ∧ offset + bytes ≤ n ∧ (offset + bytes = n ∧ bytes ≤ 512 ∨ bytes = 512) := by
      rw [← hbytes]
      split <;> omega
    have htake : (file.take bytes).length = bytes := List.length_take_of_le (by omega)
    obtain ⟨s₁, hs₁, himp, hslice⟩ :=
      gbPortWriteSram_next hs (show offset + (file.take bytes).length ≤ gbPortSramSize s by omega)
    rw [htake] at hslice
    rw [if_neg (by omega), hs₁]
    dsimp only
    obtain ⟨d, dirty, hd, heq⟩ := himp.eq
    have hs₁ok : BatteryOK s₁ := by
      subst heq
      exact ⟨hd.symm ▸ hs.sram, hs.latch⟩
    have hs₁n : gbPortSramSize s₁ = n := by
      subst heq
      exact hn
    rcases hb.2.2 with ⟨hend, hle⟩ | hfull
    · -- the last chunk
      have hdone : loadSram n (offset + 512) (file.drop bytes) s₁ = (true, file.drop bytes, s₁) := by
        unfold loadSram
        exact if_neg (by omega)
      have hrest : n - offset = bytes := by omega
      refine ⟨s₁, by rw [hdone, hrest], himp, ?_⟩
      unfold sramOf
      rw [hs₁n, ← hend, hslice, Nat.add_sub_cancel_left]
    · subst hfull
      obtain ⟨s', hs', himp', hsram⟩ := loadSram_imports hs₁ok hs₁n (offset + 512) hb.2.1
        (show n - (offset + 512) ≤ (file.drop 512).length by rw [List.length_drop]; omega)
      have hsub : n - offset = 512 + (n - (offset + 512)) := by omega
      refine ⟨s', by rw [hs', List.drop_drop, hsub], himp.trans himp', ?_⟩
      rw [hsram, hslice, List.append_assoc, hsub, List.take_add]
  · rw [if_neg hlt]
    have hend : offset = n := Nat.le_antisymm ho (Nat.le_of_not_lt hlt)
    subst hend
    refine ⟨s, by rw [Nat.sub_self, List.drop_zero], .refl s, ?_⟩
    rw [Nat.sub_self, List.take_zero, List.append_nil]
    unfold sramOf
    rw [hn]
termination_by n - offset
decreasing_by omega

/-- A session holds a snapshot, with nothing left to save. -/
structure Installed (s : Session σ) (p : Snapshot) (s' : Session σ) : Prop where
  sram : sramOf s' = p.sram
  rtc : rtcBytes s'.core.bus.rtc = p.rtc
  clean : s'.core.bus.mem.sramDirty = false
  size : gbPortSramSize s' = gbPortSramSize s
  ok : BatteryOK s'
  battery : s'.battery = s.battery ∧ s'.rtc = s.rtc

/-- What `gb_saves_load` does: it installs the newest copy; without one it reports an error when a
file exists. -/
inductive SaveLoaded (hash : Vector UInt8 32) (n : Nat) (files : Volume) (s : Session σ) :
    SaveResult × Session σ → Prop where
  | loaded {h : SaveHeader} {p : Snapshot} {s' : Session σ} (hnew : newestCopy hash n files = some (h, p))
      (hi : Installed s p s') :
      SaveLoaded hash n files s (.loaded, s')
  | error (hnew : newestCopy hash n files = none)
      (hfile : files (savePath hash copyA) ≠ none ∨ files (savePath hash copyB) ≠ none) :
      SaveLoaded hash n files s (.error, s)
  | empty (hnew : newestCopy hash n files = none) (ha : files (savePath hash copyA) = none)
      (hb : files (savePath hash copyB) = none) :
      SaveLoaded hash n files s (.empty, s)

theorem validCopy_some {copy : UInt8} {r : SaveHeader × Snapshot}
    (h : validCopy hash n files copy = some r) :
    ∃ file, files (savePath hash copy) = some file ∧ checkFile hash n file = some r.1 ∧
      r.2 = payloadOf n file := by
  unfold validCopy at h
  obtain ⟨file, hfile, h⟩ := Option.bind_eq_some_iff.mp h
  obtain ⟨header, hheader, rfl⟩ := Option.map_eq_some_iff.mp h
  exact ⟨file, hfile, hheader, rfl⟩

/-- The file `gb_saves_load` reads is the newest copy. -/
theorem firstNewest_copy {ha hb : Option SaveHeader} (hA : ha = copyAt hash n files (savePath hash copyA))
    (hB : hb = copyAt hash n files (savePath hash copyB)) (hsome : ¬ (ha.isNone ∧ hb.isNone)) :
    ∃ file h, files (if firstNewest ha hb then savePath hash copyA else savePath hash copyB) = some file ∧
      checkFile hash n file = some h ∧ newestCopy hash n files = some (h, payloadOf n file) := by
  rw [copyAt_eq] at hA hB
  unfold newestCopy
  cases ha' : validCopy hash n files copyA with
  | none =>
    cases hb' : validCopy hash n files copyB with
    | none =>
      rw [hA, hB, ha', hb'] at hsome
      exact absurd ⟨rfl, rfl⟩ hsome
    | some b =>
      obtain ⟨file, hfile, hheader, hp⟩ := validCopy_some hb'
      rw [hA, hB, ha', hb']
      exact ⟨file, b.1, hfile, hheader, congrArg some (Prod.ext rfl hp)⟩
  | some a =>
    cases hb' : validCopy hash n files copyB with
    | none =>
      obtain ⟨file, hfile, hheader, hp⟩ := validCopy_some ha'
      rw [hA, hB, ha', hb']
      exact ⟨file, a.1, hfile, hheader, congrArg some (Prod.ext rfl hp)⟩
    | some b =>
      rw [hA, hB, ha', hb']
      show ∃ file h, files (if newer a.1.sequence b.1.sequence then _ else _) = some file ∧ _ ∧
        (if newer a.1.sequence b.1.sequence then _ else _) = _
      cases newer a.1.sequence b.1.sequence with
      | true =>
        obtain ⟨file, hfile, hheader, hp⟩ := validCopy_some ha'
        exact ⟨file, a.1, hfile, hheader, congrArg some (Prod.ext rfl hp)⟩
      | false =>
        obtain ⟨file, hfile, hheader, hp⟩ := validCopy_some hb'
        exact ⟨file, b.1, hfile, hheader, congrArg some (Prod.ext rfl hp)⟩

theorem newestCopy_none (ha : copyAt hash n files (savePath hash copyA) = none)
    (hb : copyAt hash n files (savePath hash copyB) = none) :
    newestCopy hash n files = none := by
  rw [copyAt_eq, Option.map_eq_none_iff] at ha hb
  unfold newestCopy
  rw [ha, hb]
  rfl

theorem gbSavesLoad_wp (hash : Vector UInt8 32) {s : Session σ} (hs : BatteryOK s)
    (hn : gbPortSramSize s = n) (hbattery : gbPortHasBattery s = true) (v : SaveFs) :
    (gbSavesLoad hash s).wp (saveDevice incomplete) (fun r v' => v' = v ∧
      SaveLoaded hash n v.files s r) (fun v' => v' = v) v := by
  unfold gbSavesLoad
  rw [if_neg (not_not.mpr hbattery)]
  dsimp only
  rw [hn, Prog.wp_bind]
  refine checkCopy_wp ?_ rfl
  rw [Prog.wp_bind]
  refine checkCopy_wp ?_ rfl
  split
  · rename_i hnone
    -- no valid copy: an error if a file is there, and a new game otherwise
    rw [Option.isNone_iff_eq_none, Option.isNone_iff_eq_none] at hnone
    have hnew := newestCopy_none hnone.1 hnone.2
    rw [Prog.wp_bind]
    refine fileExists_wp ?_ rfl
    split
    · rename_i ha
      exact ⟨rfl, .error hnew (.inl (Option.isSome_iff_ne_none.mp ha))⟩
    · rename_i ha
      rw [Prog.wp_bind]
      refine fileExists_wp ?_ rfl
      split
      · rename_i hb
        exact ⟨rfl, .error hnew (.inr (Option.isSome_iff_ne_none.mp hb))⟩
      · rename_i hb
        exact ⟨rfl, .empty hnew (Option.not_isSome_iff_eq_none.mp ha) (Option.not_isSome_iff_eq_none.mp hb)⟩
  · rename_i hsome
    -- the file of the newest copy holds the SRAM and then the clock
    obtain ⟨file, h, hfile, hheader, hnew⟩ := firstNewest_copy rfl rfl hsome
    have hlen := checkFile_length hheader
    have hdrop : (file.drop saveHeaderCodec.size).length = n + 10 := by
      rw [List.length_drop, hlen, saveHeaderCodec_size]
      omega
    obtain ⟨s₁, hs₁, himp, hsram⟩ := loadSram_imports hs hn 0 (Nat.zero_le n)
      (show n - 0 ≤ (file.drop saveHeaderCodec.size).length by omega)
    rw [Nat.sub_zero] at hs₁ hsram
    rw [Prog.wp_bind]
    refine fopenRead_wp ?_ rfl
    rw [hfile]
    dsimp only
    rw [hs₁]
    dsimp only
    have hrest : ((file.drop saveHeaderCodec.size).drop n).length = 10 := by
      rw [List.length_drop, hdrop]
      omega
    rw [hrest]
    rw [Prog.wp_bind]
    refine fcloseRead_wp ⟨rfl, .loaded hnew ?_⟩ rfl
    obtain ⟨d, dirty, hd, rfl⟩ := himp.eq
    refine ⟨?_, ?_, rfl, rfl, ⟨hd.symm ▸ hs.sram, hs.latch⟩, rfl, rfl⟩
    · exact hsram
    · refine (rtcBytes_import _ ?_ hs.latch).trans ?_
      · rw [List.length_take, hrest]
        rfl
      · rw [List.drop_drop]
        rfl

end FoloGameboy

/-
Executions of a save: each read has its answer, a save without failures returns true with the complete
copy in place, and a power cut when the target is opened leaves it truncated.
-/
import FoloGameboy.Saves.Newest

namespace FoloGameboy

open Effect

variable {σ : Type} {hash : Vector UInt8 32} {n : Nat} {incomplete : List UInt8 → Prop}

/-! ## Reading -/

theorem fopenRead_exec (v : SaveFs) (verify : Bool) (path : Path) :
    (fopenRead verify path).Exec (saveDevice incomplete) v (some (v.files path)) v :=
  .perform ⟨rfl, .inl rfl⟩ (.pure _ _)

theorem fcloseRead_exec (v : SaveFs) (verify : Bool) :
    (fcloseRead verify).Exec (saveDevice incomplete) v (some true) v :=
  .perform ⟨rfl, .inl rfl⟩ (.pure _ _)

theorem checkCopy_exec (v : SaveFs) (verify : Bool) (path : Path) :
    (checkCopy verify path hash n).Exec (saveDevice incomplete) v
      (some (copyAt hash n v.files path)) v := by
  refine Prog.exec_bind (fopenRead_exec v verify path) ?_
  unfold copyAt
  cases v.files path with
  | none => exact .pure _ _
  | some file => exact Prog.exec_bind (fcloseRead_exec v verify) (.pure _ _)

theorem fileExists_exec (v : SaveFs) (path : Path) :
    (fileExists path).Exec (saveDevice incomplete) v (some (v.files path).isSome) v := by
  refine Prog.exec_bind (fopenRead_exec v false path) ?_
  cases v.files path with
  | none => exact .pure _ _
  | some file => exact Prog.exec_bind (fcloseRead_exec v false) (.pure _ _)

theorem chooseTarget_exec (v : SaveFs) :
    (chooseTarget hash (copyAt hash n v.files (savePath hash copyA))
      (copyAt hash n v.files (savePath hash copyB))).Exec
      (saveDevice incomplete) v (some (targetOf hash n v.files)) v := by
  unfold chooseTarget targetOf
  dsimp only
  split
  · refine Prog.exec_bind (fileExists_exec v _) ?_
    split
    · refine Prog.exec_bind (fileExists_exec v _) ?_
      split
      · exact .pure _ _
      · exact .pure _ _
    · exact .pure _ _
  · exact .pure _ _

theorem readSram_exec (v : SaveFs) (s : Session σ) (offset bytes : Nat) :
    (readSram s offset bytes).Exec (saveDevice incomplete) v (some (gbPortReadSram offset bytes s)) v :=
  .perform (r := true) rfl (.pure _ _)

/-- The chunk at an offset, and what is left after it. -/
theorem sram_chunk {s : Session σ} (hn : gbPortSramSize s = n) {offset bytes : Nat} (hlt : offset < n)
    (hbytes : (if 512 < n - offset then 512 else n - offset) = bytes) :
    gbPortReadSram offset bytes s = some (((sramOf s).drop offset).take bytes) ∧
      ((sramOf s).drop offset).take bytes ++ (sramOf s).drop (offset + 512) = (sramOf s).drop offset := by
  have hlen : (sramOf s).length = n := by rw [sramOf, Buffer.length_slice, hn]
  have hb : offset + bytes ≤ n ∧ (offset + bytes = n ∧ bytes ≤ 512 ∨ bytes = 512) := by
    rw [← hbytes]
    split <;> omega
  refine ⟨readSram_chunk (by omega), ?_⟩
  rcases hb.2 with ⟨hend, hle⟩ | hfull
  · have hrest : (sramOf s).drop (offset + 512) = [] := List.drop_of_length_le (by omega)
    rw [hrest, List.take_of_length_le (by rw [List.length_drop]; omega), List.append_nil]
  · rw [← List.drop_drop, hfull, List.take_append_drop]

theorem crcSram_exec (v : SaveFs) {s : Session σ} (hn : gbPortSramSize s = n) (offset : Nat)
    (crc : UInt32) :
    (crcSram s n offset crc).Exec (saveDevice incomplete) v
      (some (some (crcUpdate crc ((sramOf s).drop offset)))) v := by
  have hlen : (sramOf s).length = n := by rw [sramOf, Buffer.length_slice, hn]
  unfold crcSram
  by_cases hlt : offset < n
  · rw [if_pos hlt]
    obtain ⟨hread, hsplit⟩ := sram_chunk hn hlt rfl
    generalize ((sramOf s).drop offset).take _ = chunk at hread hsplit
    refine Prog.exec_bind (readSram_exec v s offset _) ?_
    rw [hread, ← hsplit, crcUpdate_append]
    exact crcSram_exec v hn (offset + 512) _
  · rw [if_neg hlt, List.drop_of_length_le (by omega)]
    exact .pure _ _
termination_by n - offset
decreasing_by omega

/-! ## Writing -/

theorem hold_hold (v : SaveFs) (path : Path) (c c' : List UInt8) :
    (v.hold path c).hold path c' = v.hold path c' := by
  unfold SaveFs.hold SaveFs.store
  rw [Function.update_idem]

theorem fwrite_exec (v : SaveFs) (path : Path) (held data : List UInt8) :
    (fwrite data).Exec (saveDevice incomplete) (v.hold path held) (some true)
      (v.hold path (held ++ data)) := by
  refine .perform ?_ (.pure _ _)
  exact ⟨path, held, rfl, .inl ⟨rfl, (hold_hold v path held _).symm⟩⟩

theorem fflush_exec (v : SaveFs) (path : Path) (held : List UInt8) :
    fflush.Exec (saveDevice incomplete) (v.hold path held) (some true) (v.hold path held) :=
  .perform ⟨path, held, rfl, .inl ⟨rfl, (hold_hold v path held held).symm⟩⟩ (.pure _ _)

theorem fsync_exec (v : SaveFs) (path : Path) (held : List UInt8) :
    fsync.Exec (saveDevice incomplete) (v.hold path held) (some true) (v.hold path held) :=
  .perform ⟨path, held, rfl, .inl ⟨rfl, (hold_hold v path held held).symm⟩⟩ (.pure _ _)

theorem fclose_exec (v : SaveFs) (path : Path) (held : List UInt8) :
    fclose.Exec (saveDevice incomplete) (v.hold path held) (some true) (v.hold path held).closed :=
  .perform ⟨_, ⟨path, held, rfl, .inl ⟨rfl, (hold_hold v path held held).symm⟩⟩, rfl⟩ (.pure _ _)

theorem writeSram_exec (v : SaveFs) (path : Path) (held : List UInt8) {s : Session σ}
    (hn : gbPortSramSize s = n) (offset : Nat) :
    (writeSram s n offset).Exec (saveDevice incomplete) (v.hold path held) (some true)
      (v.hold path (held ++ (sramOf s).drop offset)) := by
  have hlen : (sramOf s).length = n := by rw [sramOf, Buffer.length_slice, hn]
  unfold writeSram
  by_cases hlt : offset < n
  · rw [if_pos hlt]
    obtain ⟨hread, hsplit⟩ := sram_chunk hn hlt rfl
    generalize ((sramOf s).drop offset).take _ = chunk at hread hsplit
    refine Prog.exec_bind (readSram_exec _ s offset _) ?_
    rw [hread, ← hsplit, ← List.append_assoc]
    exact Prog.exec_bind (fwrite_exec v path held _) (writeSram_exec v path _ hn (offset + 512))
  · rw [if_neg hlt, List.drop_of_length_le (by omega), List.append_nil]
    exact .pure _ _
termination_by n - offset
decreasing_by omega

/-- A copy written without failures is verified. -/
theorem writeCopy_exec (v : SaveFs) (target : Path) {s : Session σ} (hn : gbPortSramSize s = n)
    (h : SaveHeader) (rtc : List UInt8)
    {valid : SaveHeader}
    (hvalid : checkFile hash n (saveHeaderCodec.bytes h ++ sramOf s ++ rtc) = some valid) :
    (writeCopy target hash n h rtc s).Exec (saveDevice incomplete) v (some true)
      (v.hold target (saveHeaderCodec.bytes h ++ sramOf s ++ rtc)).closed := by
  have hopen : (fopenWrite target).Exec (saveDevice incomplete) v (some true) (v.hold target []) :=
    .perform (.inl ⟨rfl, rfl⟩) (.pure _ _)
  have hsram := @writeSram_exec σ n incomplete v target (saveHeaderCodec.bytes h) _ hn 0
  rw [List.drop_zero] at hsram
  unfold writeCopy
  refine Prog.exec_bind hopen ?_
  refine Prog.exec_bind (fwrite_exec v target [] _) ?_
  refine Prog.exec_bind hsram ?_
  refine Prog.exec_bind (fwrite_exec v target _ rtc) ?_
  refine Prog.exec_bind (fflush_exec v target _) ?_
  refine Prog.exec_bind (fsync_exec v target _) ?_
  refine Prog.exec_bind (fclose_exec v target _) ?_
  refine Prog.exec_bind (checkCopy_exec _ true target) ?_
  have hcopy : copyAt hash n
      (v.hold target (saveHeaderCodec.bytes h ++ sramOf s ++ rtc)).closed.files target =
      some valid := by
    show ((Function.update v.files target (some _)) target).bind _ = _
    rw [Function.update_self, Option.bind_some, hvalid]
  rw [hcopy]
  exact .pure _ _

/-! ## `gb_saves_write` -/

/-- Up to the opened target, a save runs through. -/
theorem gbSavesWrite_upto {env : Env σ} {s : Session σ} {v v' : SaveFs} (hn : gbPortSramSize s = n)
    (hbattery : gbPortHasBattery s = true)
    (hdirty : gbPortNeedsSave s = true) {target : Path}
    (htarget : targetOf hash n v.files = some target) {out : Option Bool}
    (hw : (writeCopy target hash n (newHeader hash (nextSequence hash n v.files) (snapshotOf env s))
      (gbPortExportRtc env s).1
      (ticked env s)).Exec (saveDevice incomplete) v out v') :
    (gbSavesWrite env hash s).Exec (saveDevice incomplete) v
      (out.map fun okay => (okay, if okay then gbPortMarkSaved (ticked env s) else ticked env s)) v' := by
  have hlen : (snapshotOf env s).sram.length = n := snapshotOf_sram env hn
  have hheader : newHeader hash (nextSequence hash n v.files) (snapshotOf env s) =
      { newHead hash (nextSequence hash n v.files) n with
        crc32 := crcUpdate
          (crcUpdate (crcUpdate 0xffffffff
          (saveHeadCodec.bytes (newHead hash (nextSequence hash n v.files) n)))
          (sramOf s)) (gbPortExportRtc env s).1 ^^^ 0xffffffff } := by
    unfold newHeader
    rw [hlen]
    rfl
  have hcrc := @crcSram_exec σ n incomplete v _ hn 0
    (crcUpdate 0xffffffff (saveHeadCodec.bytes (newHead hash (nextSequence hash n v.files) n)))
  rw [List.drop_zero] at hcrc
  unfold gbSavesWrite
  rw [if_neg (not_not.mpr hbattery), if_neg (not_not.mpr hdirty)]
  dsimp only
  rw [hn]
  refine Prog.exec_bind (checkCopy_exec v false _) ?_
  refine Prog.exec_bind (checkCopy_exec v false _) ?_
  refine Prog.exec_bind (chooseTarget_exec v) ?_
  rw [htarget]
  dsimp only
  refine Prog.exec_bind hcrc ?_
  dsimp only
  have hport : (Prog.op FileOp.port : SavesM Bool).Exec (saveDevice incomplete) v (some true) v :=
    .perform rfl (.pure _ _)
  refine Prog.exec_bind hport ?_
  rw [hheader] at hw
  rw [if_neg (not_not.mpr rfl)]
  cases out with
  | none => exact Prog.exec_bind_cut hw
  | some okay => exact Prog.exec_bind hw (.pure _ _)

/-- A save can succeed. -/
theorem gbSavesWrite_succeeds (env : Env σ) {s : Session σ} {v : SaveFs} (hn : gbPortSramSize s = n)
    (hbattery : gbPortHasBattery s = true)
    (hdirty : gbPortNeedsSave s = true) {target : Path} (htarget : targetOf hash n v.files = some target) :
    (gbSavesWrite env hash s).Exec (saveDevice incomplete) v (some (true, gbPortMarkSaved (ticked env s)))
      (v.hold target (copyBytes hash (nextSequence hash n v.files) (snapshotOf env s))).closed := by
  have hcheck := checkFile_copy hash (nextSequence hash n v.files) (snapshotOf_rtc env s)
  rw [snapshotOf_sram env hn] at hcheck
  exact gbSavesWrite_upto hn hbattery hdirty htarget
    (writeCopy_exec v target (s := ticked env s) hn _ _ hcheck)

/-- A save can be cut when it has opened its target, which is then truncated. -/
theorem gbSavesWrite_cut (env : Env σ) {s : Session σ} {v : SaveFs} (hn : gbPortSramSize s = n)
    (hbattery : gbPortHasBattery s = true)
    (hdirty : gbPortNeedsSave s = true) {target : Path} (htarget : targetOf hash n v.files = some target) :
    (gbSavesWrite env hash s).Exec (saveDevice (Incomplete hash n)) v none (v.store target (some [])) := by
  have hempty : Incomplete hash n [] := checkFile_short (by rw [List.length_nil]; omega)
  exact gbSavesWrite_upto hn hbattery hdirty htarget (Prog.exec_bind_cut (.cut (.inr ⟨[], hempty, rfl⟩)))

end FoloGameboy

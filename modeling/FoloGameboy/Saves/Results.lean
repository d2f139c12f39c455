/-
What checking, loading and writing a save can do, on a volume whose reads return what is stored and
under any failures and power cuts of a write.
-/
import FoloGameboy.Saves.Saves

namespace FoloGameboy

open Effect

variable {σ : Type} {hash : Vector UInt8 32} {n : Nat} {v : SaveFs} {incomplete : List UInt8 → Prop}

/-! ## Reading -/

/-- The check of the file on a path. -/
def copyAt (hash : Vector UInt8 32) (n : Nat) (files : Volume) (path : Path) : Option SaveHeader :=
  (files path).bind (checkFile hash n)

theorem fopenRead_wp {path : Path} {Q : Option (List UInt8) → SaveFs → Prop} {C : SaveFs → Prop}
    (h : Q (v.files path) v)
    (hc : C v) : (fopenRead false path).wp (saveDevice incomplete) Q C v := by
  constructor
  · rintro r v' ⟨rfl, rfl | ⟨hv, -⟩⟩
    · exact h
    · cases hv
  · rintro v' rfl
    exact hc

theorem fcloseRead_wp {Q : Bool → SaveFs → Prop} {C : SaveFs → Prop} (h : Q true v) (hc : C v) :
    (fcloseRead false).wp (saveDevice incomplete) Q C v := by
  constructor
  · rintro r v' ⟨rfl, rfl | ⟨hv, -⟩⟩
    · exact h
    · cases hv
  · rintro v' rfl
    exact hc

theorem checkCopy_wp {path : Path} {Q : Option SaveHeader → SaveFs → Prop} {C : SaveFs → Prop}
    (h : Q (copyAt hash n v.files path) v) (hc : C v) :
    (checkCopy false path hash n).wp (saveDevice incomplete) Q C v := by
  unfold checkCopy
  unfold copyAt at h
  rw [Prog.wp_bind]
  refine fopenRead_wp ?_ hc
  cases hfile : v.files path with
  | none =>
    rw [hfile] at h
    exact h
  | some file =>
    rw [hfile] at h
    dsimp only
    rw [Prog.wp_bind]
    exact fcloseRead_wp h hc

theorem fileExists_wp {path : Path} {Q : Bool → SaveFs → Prop} {C : SaveFs → Prop}
    (h : Q (v.files path).isSome v) (hc : C v) :
    (fileExists path).wp (saveDevice incomplete) Q C v := by
  unfold fileExists
  rw [Prog.wp_bind]
  refine fopenRead_wp ?_ hc
  cases hfile : v.files path with
  | none =>
    rw [hfile] at h
    exact h
  | some file =>
    rw [hfile] at h
    dsimp only
    rw [Prog.wp_bind]
    exact fcloseRead_wp h hc

/-- A verification that succeeds has read a valid copy. -/
theorem verify_wp {path : Path} {Q : Option SaveHeader → SaveFs → Prop} {C : SaveFs → Prop}
    (hnone : Q none v) (h : Q (copyAt hash n v.files path) v) (hc : C v) :
    (checkCopy true path hash n).wp (saveDevice incomplete) Q C v := by
  unfold checkCopy
  unfold copyAt at h
  refine Prog.wp_perform ?_ ?_
  · rintro r v' ⟨rfl, rfl | ⟨-, rfl⟩⟩
    · cases hfile : v'.files path with
      | none => exact hnone
      | some file =>
        rw [hfile] at h
        refine Prog.wp_perform ?_ ?_
        · rintro r v'' ⟨rfl, rfl | ⟨-, rfl⟩⟩
          · exact h
          · exact hnone
        · rintro v'' rfl
          exact hc
    · exact hnone
  · rintro v' rfl
    exact hc

/-! ## The newest copy -/

/-- A valid copy: its header and what it holds. -/
def validCopy (hash : Vector UInt8 32) (n : Nat) (files : Volume) (copy : UInt8) : Option (SaveHeader × Snapshot) :=
  (files (savePath hash copy)).bind fun file => (checkFile hash n file).map fun h => (h, payloadOf n file)

/-- The copy that counts: the one valid copy, or of two the one with the later sequence number. -/
def newestOf : (a b : Option (SaveHeader × Snapshot)) → Option (SaveHeader × Snapshot)
  | none, b => b
  | a, none => a
  | some a, some b => if newer a.1.sequence b.1.sequence then some a else some b

def newestCopy (hash : Vector UInt8 32) (n : Nat) (files : Volume) : Option (SaveHeader × Snapshot) :=
  newestOf (validCopy hash n files copyA) (validCopy hash n files copyB)

theorem copyAt_eq (hash : Vector UInt8 32) (n : Nat) (files : Volume) (copy : UInt8) :
    copyAt hash n files (savePath hash copy) = (validCopy hash n files copy).map Prod.fst := by
  unfold copyAt validCopy
  cases files (savePath hash copy) with
  | none => rfl
  | some file =>
    show checkFile hash n file = ((checkFile hash n file).map _).map _
    cases checkFile hash n file with
    | none => rfl
    | some h => rfl

/-! ## Writing a copy -/

/-- A file that is not a valid copy. -/
def Incomplete (hash : Vector UInt8 32) (n : Nat) (file : List UInt8) : Prop := checkFile hash n file = none

/-- The file being written holds the complete copy, or nothing valid. -/
def Left (hash : Vector UInt8 32) (n : Nat) (c held : List UInt8) : Prop := LeftWith (Incomplete hash n) c held

/-- The stream on the target and what its file holds; only the target differs from the files before. -/
structure Holding (files : Volume) (target : Path) (held : List UInt8) (v : SaveFs) : Prop where
  files : v.files = Function.update files target (some held)
  writing : v.writing = some (target, held)

theorem holding_hold {files : Volume} {target : Path} {held : List UInt8}
    (h : v.files = files ∨ ∃ c, v.files = Function.update files target c) :
    Holding files target held (v.hold target held) := by
  refine ⟨?_, rfl⟩
  show Function.update v.files target (some held) = _
  rcases h with h | ⟨c, h⟩
  · rw [h]
  · rw [h, Function.update_idem]

/-- A stage of the write: as long as no step has failed, the file holds `next`. -/
structure Stage (hash : Vector UInt8 32) (n : Nat) (files : Volume)
    (target : Path) (c next : List UInt8) (okay : Bool) (v : SaveFs) :
    Prop where
  holding : ∃ held, Holding files target held v ∧ Left hash n c held ∧ (okay = true → held = next)

/-- The target is left with the complete copy, or with nothing valid. -/
def TargetLeft (hash : Vector UInt8 32) (n : Nat) (files : Volume)
    (target : Path) (c : List UInt8) (v : SaveFs) : Prop :=
  ∃ held, v.files = Function.update files target (some held) ∧ Left hash n c held

section
variable {files : Volume} {target : Path} {c held next : List UInt8}

theorem Left.leftWith (h : Left hash n c next) (h' : LeftWith (Incomplete hash n) next held) :
    Left hash n c held := by
  rcases h' with rfl | h'
  · exact h
  · exact .inr h'

/-- One step on the stream. -/
theorem stream_done {step : List UInt8 → List UInt8} (h : Stage hash n files target c next true v)
    (hnext : Left hash n c (step next))
    {r : Bool} {v' : SaveFs} (hd : StreamDone (Incomplete hash n) step v r v') :
    Stage hash n files target c (step next) r v' := by
  obtain ⟨held, hheld, -, heq⟩ := h.holding
  obtain rfl := heq rfl
  obtain ⟨path, held', hw, hd⟩ := hd
  rw [hheld.writing] at hw
  obtain ⟨rfl, rfl⟩ := Prod.mk.inj (Option.some.inj hw)
  rcases hd with ⟨rfl, rfl⟩ | ⟨rfl, c', hc', rfl⟩
  · exact ⟨_, holding_hold (.inr ⟨_, hheld.files⟩), hnext, fun _ => rfl⟩
  · exact ⟨_, holding_hold (.inr ⟨_, hheld.files⟩), hnext.leftWith hc', fun hf => by cases hf⟩

theorem stream_cut {step : List UInt8 → List UInt8} (h : Stage hash n files target c next true v)
    (hnext : Left hash n c (step next))
    {v' : SaveFs} (hd : StreamCut (Incomplete hash n) step v v') : TargetLeft hash n files target c v' := by
  obtain ⟨held, hheld, -, heq⟩ := h.holding
  obtain rfl := heq rfl
  obtain ⟨path, held', c', hw, hc', rfl⟩ := hd
  rw [hheld.writing] at hw
  obtain ⟨rfl, rfl⟩ := Prod.mk.inj (Option.some.inj hw)
  exact ⟨c', (holding_hold (.inr ⟨_, hheld.files⟩)).files, hnext.leftWith hc'⟩

/-- A step that is skipped once one has failed. -/
theorem whenOkay_wp {p : SavesM Bool} {next' : List UInt8} {okay : Bool}
    (h : Stage hash n files target c next okay v)
    (hp : Stage hash n files target c next true v →
      p.wp (saveDevice (Incomplete hash n)) (Stage hash n files target c next')
        (TargetLeft hash n files target c) v) :
    (whenOkay okay p).wp (saveDevice (Incomplete hash n)) (Stage hash n files target c next')
    (TargetLeft hash n files target c) v := by
  cases okay with
  | true => exact hp h
  | false =>
    obtain ⟨held, hheld, hleft, -⟩ := h.holding
    exact ⟨held, hheld, hleft, fun hf => by cases hf⟩

theorem fwrite_wp {data : List UInt8} (h : Stage hash n files target c next true v)
    (hnext : Left hash n c (next ++ data)) :
    (fwrite data).wp (saveDevice (Incomplete hash n)) (Stage hash n files target c (next ++ data))
      (TargetLeft hash n files target c) v :=
  ⟨fun _ _ hd => stream_done h hnext hd, fun _ hc => stream_cut h hnext hc⟩

theorem fflush_wp (h : Stage hash n files target c next true v) (hnext : Left hash n c next) :
    fflush.wp (saveDevice (Incomplete hash n)) (Stage hash n files target c next)
      (TargetLeft hash n files target c) v :=
  ⟨fun _ _ hd => stream_done h hnext hd, fun _ hc => stream_cut h hnext hc⟩

theorem fsync_wp (h : Stage hash n files target c next true v) (hnext : Left hash n c next) :
    fsync.wp (saveDevice (Incomplete hash n)) (Stage hash n files target c next)
      (TargetLeft hash n files target c) v :=
  ⟨fun _ _ hd => stream_done h hnext hd, fun _ hc => stream_cut h hnext hc⟩

/-- After `fclose`, whatever it returns. -/
theorem fclose_wp {okay : Bool} (h : Stage hash n files target c c okay v) :
    fclose.wp (saveDevice (Incomplete hash n)) (fun _ => TargetLeft hash n files target c)
      (TargetLeft hash n files target c) v := by
  obtain ⟨held, hheld, hleft, -⟩ := h.holding
  constructor
  · rintro r v' ⟨v₁, ⟨path, held', hw, hd⟩, rfl⟩
    rw [hheld.writing] at hw
    obtain ⟨rfl, rfl⟩ := Prod.mk.inj (Option.some.inj hw)
    rcases hd with ⟨-, rfl⟩ | ⟨-, c', hc', rfl⟩
    · exact ⟨held, (holding_hold (.inr ⟨_, hheld.files⟩)).files, hleft⟩
    · exact ⟨c', (holding_hold (.inr ⟨_, hheld.files⟩)).files, hleft.leftWith hc'⟩
  · rintro v' ⟨path, held', c', hw, hc', rfl⟩
    rw [hheld.writing] at hw
    obtain ⟨rfl, rfl⟩ := Prod.mk.inj (Option.some.inj hw)
    exact ⟨c', (holding_hold (.inr ⟨_, hheld.files⟩)).files, hleft.leftWith hc'⟩

end

/-- A call into the port may refuse, and touches no file. -/
theorem readSram_wp {s : Session σ} {offset bytes : Nat} {Q : Option (List UInt8) → SaveFs → Prop}
    {C : SaveFs → Prop} (hnone : Q none v) (h : Q (gbPortReadSram offset bytes s) v) (hc : C v) :
    (readSram s offset bytes).wp (saveDevice incomplete) Q C v := by
  refine Prog.wp_perform ?_ ?_
  · intro okay v' hd
    obtain rfl : v' = v := hd
    cases okay with
    | true => exact h
    | false => exact hnone
  · intro v' hd
    obtain rfl : v' = v := hd
    exact hc

theorem readSram_chunk {s : Session σ} {offset bytes : Nat} (h : offset + bytes ≤ gbPortSramSize s) :
    gbPortReadSram offset bytes s = some (((sramOf s).drop offset).take bytes) := by
  have hin : inSram s.core.bus.mem offset bytes = true := by
    unfold gbPortSramSize at h
    unfold inSram
    simp only [Bool.and_eq_true, decide_eq_true_eq]
    omega
  unfold gbPortReadSram sramOf
  rw [if_pos hin]
  refine congrArg some (List.ext_getElem ?_ ?_)
  · rw [Buffer.length_slice, List.length_take, List.length_drop, Buffer.length_slice]
    omega
  · intro i h₁ h₂
    rw [Buffer.getElem_slice, List.getElem_take, List.getElem_drop, Buffer.getElem_slice, Nat.zero_add]

/-- The write loop appends the SRAM. -/
theorem writeSram_wp {files : Volume} {target : Path} {c : List UInt8} (s : Session σ)
    (hn : gbPortSramSize s = n) (head : List UInt8)
    (offset : Nat) {v : SaveFs} (hleft : ∀ k ≤ n, Left hash n c (head ++ (sramOf s).take k))
    (h : Stage hash n files target c (head ++ (sramOf s).take offset) true v) :
    (writeSram s n offset).wp (saveDevice (Incomplete hash n))
      (Stage hash n files target c (head ++ sramOf s))
      (TargetLeft hash n files target c) v := by
  have hlen : (sramOf s).length = n := by rw [sramOf, Buffer.length_slice, hn]
  unfold writeSram
  by_cases hlt : offset < n
  · rw [if_pos hlt, Prog.wp_bind]
    -- one chunk of at most 512 bytes, then the rest
    generalize hbytes : (if 512 < n - offset then 512 else n - offset) = bytes
    have hb : 0 < bytes ∧ bytes ≤ 512 ∧ offset + bytes ≤ n ∧
        (offset + bytes = n ∨ offset + bytes = offset + 512) := by
      rw [← hbytes]
      split <;> omega
    have hfail : Stage hash n files target c (head ++ sramOf s) false v := by
      obtain ⟨held, hheld, hl, -⟩ := h.holding
      exact ⟨held, hheld, hl, fun hf => by cases hf⟩
    refine readSram_wp hfail ?_ ?_
    · rw [readSram_chunk (by omega)]
      dsimp only
      -- the chunk goes behind what is written
      have hnext : head ++ (sramOf s).take offset ++ ((sramOf s).drop offset).take bytes =
          head ++ (sramOf s).take (offset + bytes) := by
        rw [List.append_assoc, ← List.take_add]
      rw [Prog.wp_bind]
      refine Prog.wp_mono ?_ (fun _ hc => hc) (fwrite_wp h (by rw [hnext]; exact hleft _ hb.2.2.1))
      intro okay v' hst
      rw [hnext] at hst
      cases okay with
      | true =>
        refine writeSram_wp s hn head (offset + 512) hleft ?_
        have htake : (sramOf s).take (offset + 512) = (sramOf s).take (offset + bytes) := by
          rcases hb.2.2.2 with hend | hend
          · rw [List.take_of_length_le (by omega), List.take_of_length_le (by omega)]
          · rw [hend]
        rw [htake]
        exact hst
      | false =>
        obtain ⟨held, hheld, hl, -⟩ := hst.holding
        exact ⟨held, hheld, hl, fun hf => by cases hf⟩
    · obtain ⟨held, hheld, hl, -⟩ := h.holding
      exact ⟨held, hheld.files, hl⟩
  · rw [if_neg hlt]
    rw [List.take_of_length_le (by omega)] at h
    exact h
termination_by n - offset
decreasing_by omega

/-- How writing a copy can end: before the file was touched, or with the target left. -/
def CopyWritten (hash : Vector UInt8 32) (n : Nat) (files : Volume)
    (target : Path) (c : List UInt8) (out : Option Bool) (v : SaveFs) :
    Prop :=
  (out ≠ some true ∧ v.files = files) ∨ (out ≠ some true ∧ TargetLeft hash n files target c v) ∨
    (out = some true ∧ v.files = Function.update files target (some c))

theorem writeCopy_wp (target : Path) (s : Session σ) (hn : gbPortSramSize s = n) (h : SaveHeader)
    (rtc : List UInt8) {v : SaveFs} :
    (writeCopy target hash n h rtc s).wp (saveDevice (Incomplete hash n))
      (fun okay => CopyWritten hash n v.files target (saveHeaderCodec.bytes h ++ sramOf s ++ rtc)
        (some okay))
      (CopyWritten hash n v.files target (saveHeaderCodec.bytes h ++ sramOf s ++ rtc) none) v := by
  generalize hc : saveHeaderCodec.bytes h ++ sramOf s ++ rtc = c
  have hslen : (sramOf s).length = n := by rw [sramOf, Buffer.length_slice, hn]
  have hhlen : (saveHeaderCodec.bytes h).length = 52 := (Codec.length_bytes _ _).trans saveHeaderCodec_size
  -- what is written before the clock is too short to be valid
  have hleft : ∀ k ≤ n, Left hash n c (saveHeaderCodec.bytes h ++ (sramOf s).take k) := by
    intro k hk
    refine .inr (checkFile_short ?_)
    rw [List.length_append, List.length_take, hhlen]
    omega
  have hcut : ∀ v', TargetLeft hash n v.files target c v' → CopyWritten hash n v.files target c none v' :=
    fun v' hl => .inr (.inl ⟨by simp, hl⟩)
  have hempty : Left hash n c [] := .inr (checkFile_short (by rw [List.length_nil]; omega))
  unfold writeCopy
  refine Prog.wp_perform ?_ ?_
  · rintro r v₁ (⟨rfl, rfl⟩ | ⟨rfl, rfl | ⟨c', hinc, rfl⟩⟩)
    -- the copy is truncated; from here on its old bytes are gone
    · have h₀ : Stage hash n v.files target c [] true (v.hold target []) :=
        ⟨[], holding_hold (.inl rfl), hempty, fun _ => rfl⟩
      show Prog.wp _ _ _ (Bind.bind _ _) _
      rw [Prog.wp_bind]
      refine Prog.wp_mono ?_ hcut (fwrite_wp h₀ ?_)
      · intro okay v₂ h₂
        rw [List.nil_append] at h₂
        rw [Prog.wp_bind]
        refine Prog.wp_mono ?_ hcut (whenOkay_wp h₂ fun h₂ => writeSram_wp s hn _ 0 hleft
          (by rw [List.take_zero, List.append_nil]; exact h₂))
        intro okay v₃ h₃
        rw [Prog.wp_bind]
        refine Prog.wp_mono ?_ hcut (whenOkay_wp h₃ fun h₃ => fwrite_wp h₃ (.inl hc))
        intro okay v₄ h₄
        rw [hc] at h₄
        rw [Prog.wp_bind]
        refine Prog.wp_mono ?_ hcut (whenOkay_wp h₄ fun h₄ => fflush_wp h₄ (.inl rfl))
        intro okay v₅ h₅
        rw [Prog.wp_bind]
        refine Prog.wp_mono ?_ hcut (whenOkay_wp h₅ fun h₅ => fsync_wp h₅ (.inl rfl))
        intro okay v₆ h₆
        rw [Prog.wp_bind]
        refine Prog.wp_mono ?_ hcut (fclose_wp h₆)
        intro closed v₇ h₇
        have hfail : CopyWritten hash n v.files target c (some false) v₇ := .inr (.inl ⟨by simp, h₇⟩)
        unfold whenOkay
        split
        · rw [Prog.wp_bind]
          refine verify_wp hfail ?_ (hcut v₇ h₇)
          obtain ⟨held, hfiles, hl⟩ := h₇
          -- reading back decides: what is held is the whole copy, or is not valid
          have hcopy : copyAt hash n v₇.files target = checkFile hash n held := by
            unfold copyAt
            rw [hfiles, Function.update_self]
            rfl
          rw [hcopy]
          rcases hl with rfl | hl
          · cases hvalid : checkFile hash n held with
            | none => exact hfail
            | some h' => exact .inr (.inr ⟨rfl, hfiles⟩)
          · rw [show checkFile hash n held = none from hl]
            exact hfail
        · exact hfail
      · rw [List.nil_append]
        have h0 := hleft 0 (Nat.zero_le _)
        rw [List.take_zero, List.append_nil] at h0
        exact h0
    · exact .inl ⟨by simp, rfl⟩
    · exact .inr (.inl ⟨by simp, c', rfl, .inr hinc⟩)
  · rintro v₁ (rfl | ⟨c', hinc, rfl⟩)
    · exact .inl ⟨by simp, rfl⟩
    · exact hcut _ ⟨c', rfl, .inr hinc⟩

/-! ## `gb_saves_write` -/

/-- What a save of the session stores. -/
def snapshotOf (env : Env σ) (s : Session σ) : Snapshot := { sram := sramOf s, rtc := (gbPortExportRtc env s).1 }

/-- The session after its clock was exported. -/
def ticked (env : Env σ) (s : Session σ) : Session σ := (gbPortExportRtc env s).2

theorem snapshotOf_rtc (env : Env σ) (s : Session σ) : (snapshotOf env s).rtc.length = 10 :=
  rtcBytes_length _

/-- The copy `gb_saves_write` overwrites. -/
def targetOf (hash : Vector UInt8 32) (n : Nat) (files : Volume) : Option Path :=
  let ha := copyAt hash n files (savePath hash copyA)
  let hb := copyAt hash n files (savePath hash copyB)
  if ha.isNone ∧ hb.isNone then
    if (files (savePath hash copyA)).isSome then
      if (files (savePath hash copyB)).isSome then none else some (savePath hash copyB)
    else some (savePath hash copyA)
  else some (savePath hash (targetCopy ha hb))

/-- The sequence number it gives the new copy. -/
def nextSequence (hash : Vector UInt8 32) (n : Nat) (files : Volume) : UInt32 :=
  latestSequence (copyAt hash n files (savePath hash copyA)) (copyAt hash n files (savePath hash copyB)) + 1

/-- How a `gb_saves_write` with something to save can end. -/
inductive SaveWritten (env : Env σ) (hash : Vector UInt8 32) (n : Nat) (s : Session σ) (files : Volume)
    (out : Option (Bool × Session σ)) (v : SaveFs) : Prop where
  | refused (hout : ∀ ok s', out = some (ok, s') → ok = false ∧ s' = s) (h : v.files = files)
  | attempted {target : Path} (htarget : targetOf hash n files = some target)
      (hout : ∀ ok s', out = some (ok, s') → s' = if ok then gbPortMarkSaved (ticked env s) else ticked env s)
      (h : CopyWritten hash n files target (copyBytes hash (nextSequence hash n files) (snapshotOf env s))
        (out.map Prod.fst) v)

theorem chooseTarget_wp {Q : Option Path → SaveFs → Prop} {C : SaveFs → Prop}
    (h : Q (targetOf hash n v.files) v) (hc : C v) :
    (chooseTarget hash (copyAt hash n v.files (savePath hash copyA))
      (copyAt hash n v.files (savePath hash copyB))).wp
      (saveDevice incomplete) Q C v := by
  unfold chooseTarget
  unfold targetOf at h
  dsimp only at h
  split at h
  · rename_i hnone
    rw [if_pos hnone, Prog.wp_bind]
    refine fileExists_wp ?_ hc
    split at h
    · rename_i ha
      rw [if_pos ha, Prog.wp_bind]
      refine fileExists_wp ?_ hc
      split at h
      · rename_i hb
        rw [if_pos hb]
        exact h
      · rename_i hb
        rw [if_neg hb]
        exact h
    · rename_i ha
      rw [if_neg ha]
      exact h
  · rename_i hsome
    rw [if_neg hsome]
    exact h

/-- The checksum loop covers the SRAM. -/
theorem crcSram_wp (s : Session σ) (hn : gbPortSramSize s = n) (offset : Nat) (crc : UInt32)
    {Q : Option UInt32 → SaveFs → Prop}
    {C : SaveFs → Prop} (hnone : Q none v) (h : Q (some (crcUpdate crc ((sramOf s).drop offset))) v)
    (hc : C v) :
    (crcSram s n offset crc).wp (saveDevice incomplete) Q C v := by
  have hlen : (sramOf s).length = n := by rw [sramOf, Buffer.length_slice, hn]
  unfold crcSram
  by_cases hlt : offset < n
  · rw [if_pos hlt, Prog.wp_bind]
    generalize hbytes : (if 512 < n - offset then 512 else n - offset) = bytes
    have hb : offset + bytes ≤ n ∧ (offset + bytes = n ∧ bytes ≤ 512 ∨ bytes = 512) := by
      rw [← hbytes]
      split <;> omega
    refine readSram_wp hnone ?_ hc
    rw [readSram_chunk (by omega)]
    dsimp only
    refine crcSram_wp s hn (offset + 512) _ hnone ?_ hc
    have hsplit : (sramOf s).drop offset = ((sramOf s).drop offset).take bytes ++
        (sramOf s).drop (offset + 512) := by
      rcases hb.2 with ⟨hend, hle⟩ | hfull
      · have hrest : (sramOf s).drop (offset + 512) = [] := List.drop_of_length_le (by omega)
        rw [hrest, List.take_of_length_le (by rw [List.length_drop]; omega), List.append_nil]
      · rw [← List.drop_drop, hfull, List.take_append_drop]
    rw [← crcUpdate_append, ← hsplit]
    exact h
  · rw [if_neg hlt]
    rw [List.drop_of_length_le (by omega)] at h
    exact h
termination_by n - offset
decreasing_by omega

theorem gbSavesWrite_wp (env : Env σ) (hash : Vector UInt8 32) (s : Session σ) (hn : gbPortSramSize s = n)
    (hbattery : gbPortHasBattery s = true) (hdirty : gbPortNeedsSave s = true) (v : SaveFs) :
    (gbSavesWrite env hash s).wp (saveDevice (Incomplete hash n))
      (fun r => SaveWritten env hash n s v.files (some r))
      (SaveWritten env hash n s v.files none) v := by
  have hcut : SaveWritten env hash n s v.files none v := .refused (by simp) rfl
  have hrefused : SaveWritten env hash n s v.files (some (false, s)) v :=
    .refused (by rintro ok s' h; cases h; exact ⟨rfl, rfl⟩) rfl
  unfold gbSavesWrite
  rw [if_neg (not_not.mpr hbattery), if_neg (not_not.mpr hdirty)]
  dsimp only
  rw [hn, Prog.wp_bind]
  refine checkCopy_wp ?_ hcut
  rw [Prog.wp_bind]
  refine checkCopy_wp ?_ hcut
  rw [Prog.wp_bind]
  refine chooseTarget_wp ?_ hcut
  cases htarget : targetOf hash n v.files with
  | none => exact hrefused
  | some target =>
    dsimp only
    rw [Prog.wp_bind]
    refine crcSram_wp s hn 0 _ hrefused ?_ hcut
    rw [List.drop_zero]
    dsimp only
    -- exporting the clock touches no file, even when it fails
    refine Prog.wp_perform ?_ ?_
    · intro okay v' hd
      obtain rfl : v' = v := hd
      cases okay with
      | false => exact hrefused
      | true =>
        rw [if_neg (not_not.mpr rfl), Prog.wp_bind]
        -- the header covers the SRAM and the clock
        have hlen : (snapshotOf env s).sram.length = n := by
          show (sramOf s).length = n
          rw [sramOf, Buffer.length_slice, hn]
        have hbytes :
            saveHeaderCodec.bytes
            (newHeader hash (nextSequence hash n v'.files) (snapshotOf env s)) ++
            sramOf (ticked env s) ++ (gbPortExportRtc env s).1 =
              copyBytes hash (nextSequence hash n v'.files) (snapshotOf env s) := rfl
        have hheader : newHeader hash (nextSequence hash n v'.files) (snapshotOf env s) =
            { newHead hash (nextSequence hash n v'.files) n with
              crc32 := crcUpdate
                (crcUpdate (crcUpdate 0xffffffff
                (saveHeadCodec.bytes (newHead hash (nextSequence hash n v'.files) n)))
                (sramOf s)) (gbPortExportRtc env s).1 ^^^ 0xffffffff } := by
          unfold newHeader
          rw [hlen]
          rfl
        have hwrite := @writeCopy_wp σ hash n target (ticked env s) hn
          (newHeader hash (nextSequence hash n v'.files) (snapshotOf env s)) (gbPortExportRtc env s).1 v'
        rw [hbytes, hheader] at hwrite
        refine Prog.wp_mono ?_ ?_ hwrite
        · intro okay v'' hr
          exact .attempted htarget (by rintro ok s' h; cases h; rfl) hr
        · intro v'' hr
          exact .attempted htarget (by simp) hr
    · intro v' hd
      obtain rfl : v' = v := hd
      exact hcut

end FoloGameboy

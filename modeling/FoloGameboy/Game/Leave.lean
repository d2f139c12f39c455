/-
Leaving a game: the SRAM of a session that is destroyed is in the save store, in every run in which
the animation, the display and the audio fail only while there is nothing to lose.
-/
import FoloGameboy.Game.Play
import FoloGameboy.Saves.Dirty

namespace FoloGameboy

open Effect

variable {σ : Type} {env : Env σ} {hash : Vector UInt8 32} {n : Nat}

/-! ## The device -/

/-- The session and the save files; the session stays in view when it has been destroyed. -/
structure GameWorld (σ : Type) where
  session : Session σ
  saves : SaveFs

def attachSound (chip : σ) (s : Session σ) : Session σ :=
  { s with
    core := { s.core with bus := { s.core.bus with sound := { s.core.bus.sound with soundContext := some chip } } } }

/-- The port and the saves do what they do, and everything else may answer anything. -/
def gameDone (env : Env σ) (hash : Vector UInt8 32) (n : Nat) :
    (o : GameOp) → GameWorld σ → GameRes o → GameWorld σ → Prop
  | .portCreate, w, r, w' => w'.saves = w.saves ∧
      ((r = true ∧ ∃ p rom, gbPortCreate env p rom = some w'.session ∧ gbPortSramSize w'.session = n) ∨
        (r = false ∧ w'.session = w.session))
  | .savesLoad, w, r, w' =>
      (gbSavesLoad hash w.session).Exec (saveDevice (Incomplete hash n)) w.saves (some (r, w'.session)) w'.saves
  | .savesWrite, w, r, w' =>
      (gbSavesWrite env hash w.session).Exec (saveDevice (Incomplete hash n)) w.saves (some (r, w'.session)) w'.saves
  | .hasBattery, w, r, w' => w' = w ∧ r = gbPortHasBattery w.session
  | .needsSave, w, r, w' => w' = w ∧ r = gbPortNeedsSave w.session
  | .isCgb, w, r, w' => w' = w ∧ r = w.session.core.bus.cgb.isCgb
  | .setKeys keys, w, _, w' => w' = { w with session := gbPortSetKeys keys w.session }
  | .stepFrame render, w, r, w' => w'.saves = w.saves ∧ gbPortStepFrame env render w.session = some (r, w'.session)
  | .audioFrame _, w, _, w' => ∃ chip, w' = { w with session := attachSound chip w.session }
  | _, w, _, w' => w' = w

def gameCut (env : Env σ) (hash : Vector UInt8 32) (n : Nat) : GameOp → GameWorld σ → GameWorld σ → Prop
  | .savesLoad, w, w' =>
      w'.session = w.session ∧ (gbSavesLoad hash w.session).Exec (saveDevice (Incomplete hash n)) w.saves none w'.saves
  | .savesWrite, w, w' =>
      w'.session = w.session ∧ (gbSavesWrite env hash w.session).Exec
        (saveDevice (Incomplete hash n)) w.saves none w'.saves
  | _, w, w' => w' = w

def gameDevice (env : Env σ) (hash : Vector UInt8 32) (n : Nat) : Device GameOp GameRes (GameWorld σ) :=
  ⟨gameDone env hash n, gameCut env hash n⟩

/-! ## Failures with something to lose -/

/-- An answer on which `run_game` gives up. -/
def Failing : (o : GameOp) → GameRes o → Prop
  | .bootAnimation, r => r = false
  | .audioStart _, r => r = false
  | .audioStop checked, r => checked = true ∧ r = false
  | .audioFrame _, r => r ≠ GB_AUDIO_SAMPLES
  | .audioHealthy, r => r = false
  | .displayClear, r => r = false
  | .displayGameHint, r => r = false
  | .displayIdle, r => r = none
  | .colorFrame, r => r = false
  | .submitFrame, r => r = none
  | _, _ => False

/-- The stored copies load: one of them is valid, or there is none. -/
def Loadable (hash : Vector UInt8 32) (n : Nat) (files : Volume) : Prop :=
  newestCopy hash n files ≠ none ∨ (files (savePath hash copyA) = none ∧ files (savePath hash copyB) = none)

/-- No SRAM has been written since the last save or load, and that still loads. -/
def NothingToLose (hash : Vector UInt8 32) (n : Nat) (w : GameWorld σ) : Prop :=
  w.session.core.bus.mem.sramDirty = false ∧ Loadable hash n w.saves.files

/-- Failures come only while there is nothing to lose. -/
def HarmlessFailures (hash : Vector UInt8 32) (n : Nat) (o : GameOp) (w : GameWorld σ) (r : GameRes o) : Prop :=
  Failing o r → NothingToLose hash n w

/-! ## The invariant -/

/-- What the stored copies hold, if they load. -/
structure Holds (hash : Vector UInt8 32) (n : Nat) (files : Volume) (sram : List UInt8) : Prop where
  copy : ∀ h p, newestCopy hash n files = some (h, p) → p.sram = sram
  none : files (savePath hash copyA) = none → files (savePath hash copyB) = none → sram = List.replicate n 0

theorem Holds.restores {files : Volume} {sram : List UInt8} (h : Holds hash n files sram)
    (hl : Loadable hash n files) :
    Restores hash n files sram := by
  rcases hl with hsome | ⟨ha, hb⟩
  · obtain ⟨⟨header, p⟩, hnewest⟩ := Option.ne_none_iff_exists'.mp hsome
    rw [← h.copy header p hnewest]
    exact .copy hnewest
  · rw [h.none ha hb]
    exact .none ha hb

theorem Restores.holds {files : Volume} {sram : List UInt8} (h : Restores hash n files sram) :
    Holds hash n files sram := by
  cases h with
  | @copy header p hnewest =>
    refine ⟨fun h' p' hnewest' => ?_, fun ha hb => ?_⟩
    · obtain ⟨-, rfl⟩ := Prod.mk.inj (Option.some.inj (hnewest.symm.trans hnewest'))
      rfl
    · rw [newestCopy_missing ha hb] at hnewest
      cases hnewest
  | none ha hb =>
    refine ⟨fun h' p' hnewest' => ?_, fun _ _ => rfl⟩
    rw [newestCopy_missing ha hb] at hnewest'
    cases hnewest'

/-- The session is one of a battery run, and its SRAM is what is stored unless it is marked. -/
structure PlayInv (hash : Vector UInt8 32) (n : Nat) (w : GameWorld σ) : Prop where
  run : BatteryInv hash n w.session w.saves
  unmarked : w.session.core.bus.mem.sramDirty = false → Holds hash n w.saves.files (sramOf w.session)

theorem PlayInv.restores {w : GameWorld σ} (h : PlayInv hash n w) (hw : NothingToLose hash n w) :
    Restores hash n w.saves.files (sramOf w.session) :=
  (h.unmarked hw.1).restores hw.2

theorem PlayInv.same {w : GameWorld σ} (h : PlayInv hash n w) {s : Session σ}
    (hs : SameCartridge w.session s) :
    PlayInv hash n ⟨s, w.saves⟩ := by
  have hrun := h.run
  have hsize := hs.sramSize
  refine ⟨⟨hs.battery.trans hrun.battery, hsize.trans hrun.size, fun hclean => ?_⟩, fun hdirty => ?_⟩
  · obtain ⟨hclean', hsram⟩ := hs.clean hclean
    rw [hsram hrun.battery]
    exact hrun.stored hclean'
  · obtain ⟨hdirty', hdata⟩ := hs.bus.mem.clean hdirty
    have hsram : sramOf s = sramOf w.session := by
      unfold sramOf
      rw [hdata, hsize]
    show Holds hash n w.saves.files (sramOf s)
    rw [hsram]
    exact h.unmarked hdirty'

/-! ## Saves -/

theorem SaveWritten.missing {s : Session σ} {files : Volume} {out : Option (Bool × Session σ)} {v : SaveFs}
    (h : SaveWritten env hash n s files out v) (path : Path) (hpath : v.files path = none) :
    files path = none := by
  have hupdate : ∀ {target : Path} {c : List UInt8},
      v.files = Function.update files target (some c) → files path = none := by
    intro target c hfiles
    rw [hfiles] at hpath
    by_cases heq : path = target
    · rw [heq, Function.update_self] at hpath
      cases hpath
    · rwa [Function.update_of_ne heq] at hpath
  cases h with
  | refused _ hfiles => rwa [hfiles] at hpath
  | attempted _ _ hw =>
    rcases hw with ⟨-, hfiles⟩ | ⟨-, held, hfiles, -⟩ | ⟨-, hfiles⟩
    · rwa [hfiles] at hpath
    · exact hupdate hfiles
    · exact hupdate hfiles

theorem SaveWritten.unmarked {s s' : Session σ} {files : Volume} {ok : Bool} {v : SaveFs}
    (h : SaveWritten env hash n s files (some (ok, s')) v) (hok : ok = false) :
    s'.core.bus.mem.sramDirty = s.core.bus.mem.sramDirty := by
  cases h with
  | refused hout _ =>
    obtain ⟨-, rfl⟩ := hout ok s' rfl
    rfl
  | attempted _ hout _ =>
    rw [hout ok s' rfl, hok]
    rfl

/-- A save keeps the invariant, and a successful one leaves the SRAM stored. -/
theorem PlayInv.write {w w' : GameWorld σ} {ok : Bool} (h : PlayInv hash n w)
    (he : (gbSavesWrite env hash w.session).Exec (saveDevice (Incomplete hash n)) w.saves
      (some (ok, w'.session)) w'.saves) :
    PlayInv hash n w' ∧ (ok = true → Restores hash n w'.saves.files (sramOf w'.session)) := by
  obtain ⟨hrun, hstored⟩ := write_restores h.run he
  refine ⟨⟨hrun, fun hdirty' => ?_⟩, hstored⟩
  cases ok with
  | true => exact (hstored rfl).holds
  | false =>
    cases hneeds : gbPortNeedsSave w.session with
    | false =>
      rw [gbSavesWrite_clean h.run.battery hneeds] at he
      cases he
    | true =>
      have hw := gbSavesWrite_exec h.run.size h.run.battery hneeds he
      have hsram := hw.session.2.2.1
      have hheld := h.unmarked ((hw.unmarked rfl).symm.trans hdirty')
      refine ⟨fun header p hnewest => ?_, fun ha hb => ?_⟩
      · rw [hsram]
        rcases hw.newest h.run.size with ⟨hsame, -⟩ | hnew
        · exact hheld.copy header p (hsame.symm.trans hnewest)
        · rw [hnewest] at hnew
          exact congrArg Snapshot.sram (Option.some.inj hnew)
      · rw [hsram]
        exact hheld.none (hw.missing _ ha) (hw.missing _ hb)

theorem PlayInv.loaded {w w' : GameWorld σ} {p : Platform σ} {rom : RomSource} {r : SaveResult}
    (hcreate : gbPortCreate env p rom = some w.session)
    (hbattery : gbPortHasBattery w.session = true) (hn : gbPortSramSize w.session = n)
    (he : (gbSavesLoad hash w.session).Exec (saveDevice (Incomplete hash n)) w.saves
      (some (r, w'.session)) w'.saves) (hr : r ≠ .error) :
    PlayInv hash n w' := by
  have hinv := load_inv hcreate hbattery hn he hr
  obtain ⟨s, v⟩ := w
  obtain ⟨s', v'⟩ := w'
  dsimp only at hcreate hbattery hn he hinv
  have hnew := gbPortCreate_battery hcreate
  obtain ⟨hsaves, hload⟩ := Prog.wp_exec (gbSavesLoad_wp hash ⟨hnew.size, hnew.latch⟩ hn hbattery v) he
  refine ⟨hinv, fun _ => Restores.holds ?_⟩
  dsimp only at hsaves hload ⊢
  rw [hsaves]
  cases hload with
  | loaded hnewest hi =>
    rw [hi.sram]
    exact .copy hnewest
  | error _ _ => exact absurd rfl hr
  | empty _ ha hb =>
    rw [hnew.zero, hn]
    exact .none ha hb

/-! ## Programs in play -/

/-- Everything but the creation of the session and the load. -/
def InPlay : GameOp → Prop
  | .portCreate => False
  | .savesLoad => False
  | _ => True

/-- A load would restore the SRAM of the session. -/
def Stored (hash : Vector UInt8 32) (n : Nat) (w : GameWorld σ) : Prop :=
  Restores hash n w.saves.files (sramOf w.session)

/-- An answer after which the SRAM is stored: a save was successful, or there was nothing to lose. -/
def Storing : (o : GameOp) → GameRes o → Prop
  | .savesWrite, r => r = true
  | o, r => Failing o r

/-- The game with only harmless failures. -/
def harmlessDevice (env : Env σ) (hash : Vector UInt8 32) (n : Nat) : Device GameOp GameRes (GameWorld σ) :=
  (gameDevice env hash n).when (HarmlessFailures hash n)

theorem attachSound_cartridge (chip : σ) (s : Session σ) : SameCartridge s (attachSound chip s) :=
  ⟨rfl, rfl, { Bus.SameShape.refl s.core.bus with }⟩

theorem playStep {o : GameOp} {w w' : GameWorld σ} {r : GameRes o} (ho : InPlay o) (h : PlayInv hash n w)
    (hd : (harmlessDevice env hash n).done o w r w') :
    PlayInv hash n w' ∧ (Storing o r → Stored hash n w') := by
  obtain ⟨hdone, hharmless⟩ := hd
  have hsame : w' = w → (Storing o r → Failing o r) → PlayInv hash n w' ∧
      (Storing o r → Stored hash n w') := by
    rintro rfl hfailing
    exact ⟨h, fun hstoring => h.restores (hharmless (hfailing hstoring))⟩
  cases o with
  | portCreate => exact ho.elim
  | savesLoad => exact ho.elim
  | savesWrite => exact h.write hdone
  | hasBattery => exact hsame hdone.1 id
  | needsSave => exact hsame hdone.1 id
  | isCgb => exact hsame hdone.1 id
  | setKeys keys =>
    obtain rfl : w' = ⟨gbPortSetKeys keys w.session, w.saves⟩ := hdone
    exact ⟨h.same ⟨rfl, rfl, setInput_shape keys.mask w.session.core.bus⟩, fun hstoring => hstoring.elim⟩
  | stepFrame render =>
    obtain ⟨hsaves, hframe⟩ := hdone
    obtain ⟨s', v'⟩ := w'
    obtain rfl : v' = w.saves := hsaves
    exact ⟨h.same (gbPortStepFrame_cartridge hframe), fun hstoring => hstoring.elim⟩
  | audioFrame capacity =>
    obtain ⟨chip, rfl⟩ := hdone
    exact ⟨h.same (attachSound_cartridge chip w.session), fun hstoring => h.restores (hharmless hstoring)⟩
  | _ => exact hsame hdone id

/-- Started with the invariant, and under `c` with the SRAM stored, the program keeps the invariant
and returns an answer of `Q` only with the SRAM stored. -/
def Keeps (env : Env σ) (hash : Vector UInt8 32) (n : Nat) {α : Type} (c : Prop) (Q : α → Prop) (p : GameM α) : Prop :=
  ∀ w, PlayInv hash n w → (c → Stored hash n w) →
    p.wp (harmlessDevice env hash n) (fun a w' => PlayInv hash n w' ∧ (Q a → Stored hash n w')) (fun _ => True) w

namespace Keeps

variable {α β : Type} {c c' : Prop} {Q Q' : α → Prop} {R : β → Prop}

theorem pure {a : α} (h : Q a → c) : Keeps env hash n c Q (Pure.pure a : GameM α) :=
  fun _ hi hc => ⟨hi, fun hq => hc (h hq)⟩

theorem ask {o : GameOp} (ho : InPlay o) : Keeps env hash n c (Storing o) (ask o) :=
  fun _ hi _ => ⟨fun _ _ hd => playStep ho hi hd, fun _ _ => trivial⟩

/-- An operation that leaves session and saves alone. -/
theorem quiet {o : GameOp} (ho : ∀ w r w', gameDone env hash n o w r w' → w' = w) :
    Keeps env hash n c (fun _ => c) (FoloGameboy.ask o) := by
  refine fun w hi hc => ⟨fun r w' hd => ?_, fun _ _ => trivial⟩
  obtain rfl := ho w r w' hd.1
  exact ⟨hi, hc⟩

theorem bind {p : GameM α} {f : α → GameM β} (hp : Keeps env hash n c Q p)
    (hf : ∀ a, Keeps env hash n (Q a) R (f a)) :
    Keeps env hash n c R (p >>= f) := by
  intro w hi hc
  refine Prog.wp_seq (hp w hi hc) ?_
  intro a w' ⟨hi', hq⟩
  exact hf a w' hi' hq

theorem weaken {p : GameM α} (h : Keeps env hash n c Q p) (hc : c → c') (hq : ∀ a, Q' a → Q a) :
    Keeps env hash n c' Q' p := by
  intro w hi hc'
  refine Prog.wp_mono ?_ (fun _ h => h) (h w hi fun hstored => hc' (hc hstored))
  intro a w' ⟨hi', hstored⟩
  exact ⟨hi', fun hq' => hstored (hq a hq')⟩

end Keeps

variable {c : Prop}

/-! ## The pause -/

theorem menuButtonReceive_keeps (hold : SelectPause) :
    Keeps env hash n c (fun _ => False) (menuButtonReceive hold) := by
  refine .bind (.ask trivial) fun received => .bind (.ask trivial) fun pad => .bind (.ask trivial)
    fun now => ?_
  exact .pure False.elim

theorem resetInputs_keeps (st : PauseState) : Keeps env hash n c (fun _ => False) (resetInputs st) := by
  refine .bind (.ask trivial) fun held => .bind (.ask trivial) fun pad => ?_
  exact .pure False.elim

/-- The pause is left for good. -/
def PauseLeft (r : Bool ⊕ PauseState) : Prop := r = .inl false

theorem leavePaused_keeps (st : PauseState) : Keeps env hash n c PauseLeft (leavePaused st) := by
  refine .bind (.ask trivial) fun saved => ?_
  cases saved with
  | true => exact .pure fun _ => rfl
  | false => exact .pure nofun

theorem confirmPaused_keeps (battery : Bool) (pad : PadSample) (st : PauseState) :
    Keeps env hash n c PauseLeft (confirmPaused battery pad st) := by
  unfold confirmPaused
  split
  · refine .pure ?_
    split <;> exact nofun
  split
  · split
    · exact .pure nofun
    refine .bind (.ask trivial) fun needed => ?_
    split
    · exact .pure nofun
    refine .bind (.ask trivial) fun saved => .pure nofun
  split
  · exact .bind (.ask trivial) fun _ => .bind (resetInputs_keeps st) fun _ => .pure nofun
  split
  · refine .bind (.ask trivial) fun woken => ?_
    split
    · exact .bind (resetInputs_keeps _) fun _ => .pure nofun
    refine .bind (.ask trivial) fun pad => ?_
    split
    · exact .pure nofun
    · exact .bind (resetInputs_keeps _) fun _ => .pure nofun
  · exact leavePaused_keeps st

theorem pauseAction_keeps (battery : Bool) (board : Option ButtonMessage) (action : MenuAction)
    (pad : PadSample) (st : PauseState) :
    Keeps env hash n c PauseLeft (pauseAction battery board action pad st) := by
  unfold pauseAction
  split
  · exact leavePaused_keeps st
  · cases action with
    | none => exact .pure nofun
    | up => exact .pure nofun
    | down => exact .pure nofun
    | back =>
      refine .pure ?_
      split <;> exact nofun
    | confirm => exact confirmPaused_keeps battery pad st

theorem showPaused_keeps (redraw : Bool) (st : PauseState) :
    Keeps env hash n c (fun _ => False) (showPaused redraw st) := by
  unfold showPaused
  split
  · exact .weaken (.ask trivial) id fun _ => False.elim
  · exact .pure False.elim

theorem pauseStep_keeps (battery : Bool) (st : PauseState) :
    Keeps env hash n c PauseLeft (pauseStep battery st) := by
  refine .bind (menuButtonReceive_keeps _) fun ⟨board, selectBack⟩ => .bind (.ask trivial) fun pad => ?_
  refine .bind (pauseAction_keeps battery board _ pad _) ?_
  rintro (result | next)
  · exact .pure id
  · exact .bind (.ask trivial) fun now => .bind (showPaused_keeps _ _) fun _ => .pure nofun

theorem pauseLoop_keeps (battery : Bool) (fuel : Nat) (st : PauseState) :
    Keeps env hash n c (· = some false) (pauseLoop battery fuel st) := by
  induction fuel generalizing st c with
  | zero => exact .pure nofun
  | succ fuel ih =>
    refine .bind (pauseStep_keeps battery st) ?_
    rintro (result | st')
    · refine .pure fun h => ?_
      obtain rfl := Option.some.inj h
      rfl
    · exact ih st'

theorem pauseGame_keeps (fuel : Nat) (connected : Bool) :
    Keeps env hash n c (· = some false) (pauseGame fuel connected) := by
  refine .bind (.ask trivial) fun held => .bind (.ask trivial) fun _ => .bind (.ask trivial)
    fun battery => ?_
  refine .bind (.ask trivial) fun saved => .bind (.ask trivial) fun _ => .bind (.ask trivial) fun pad => ?_
  exact pauseLoop_keeps battery fuel _

/-! ## The game -/

/-- The returns of `run_game` once the save is loaded, but for a ROM that cannot be read. -/
def Exit.Played : Exit → Prop
  | .notListed => False
  | .left => True
  | .error e => e ∉ [.open, .create, .savesUnavailable, .saveCorrupt, .stepFrame]

def Ended : Exit ⊕ GameState → Prop
  | .inl exit => exit.Played
  | .inr _ => False

theorem silence_keeps (audioEnabled : Bool) : Keeps env hash n c (fun _ => c) (silence audioEnabled) := by
  unfold silence
  split
  · exact .bind (.quiet fun _ _ _ => id) fun _ => .pure id
  · exact .pure id

theorem destroyGameSession_keeps : Keeps env hash n c (fun _ => c) destroyGameSession :=
  .bind (.quiet fun _ _ _ => id) fun _ => .quiet fun _ _ _ => id

theorem giveUp_keeps {e : GameError} {Q : Exit → Prop} (h : Q (.error e) → c) :
    Keeps env hash n c Q (giveUp e) :=
  .bind destroyGameSession_keeps fun _ => .bind (.quiet fun _ _ _ => id) fun _ => .pure h

theorem leaveGame_keeps (audioEnabled : Bool) {Q : Exit → Prop} (h : Q .left → c) :
    Keeps env hash n c Q (leaveGame audioEnabled) :=
  .bind (silence_keeps audioEnabled) fun _ => .bind destroyGameSession_keeps fun _ => .pure h

theorem startAudio_keeps (audioEnabled : Bool) (volume : UInt8) :
    Keeps env hash n c (fun started => started = false) (startAudio audioEnabled volume) := by
  unfold startAudio
  split
  · exact .ask trivial
  · exact .pure nofun

theorem prepareGameScreen_keeps :
    Keeps env hash n c (fun prepared => prepared = false) prepareGameScreen := by
  refine .bind (.ask trivial) fun cleared => ?_
  cases cleared with
  | true => exact .ask trivial
  | false => exact .pure fun _ => rfl

theorem startOutput_keeps : Keeps env hash n c (fun r => r.2 ≠ none) startOutput := by
  refine .bind (.ask trivial) fun ⟨enabled, volume⟩ => .bind (startAudio_keeps _ volume) fun started => ?_
  cases started with
  | false => exact .pure fun _ => rfl
  | true =>
    refine .bind prepareGameScreen_keeps fun prepared => ?_
    cases prepared with
    | true => exact .pure fun h => absurd rfl h
    | false => exact .bind (silence_keeps _) fun _ => .pure fun _ => rfl

theorem resumeGame_keeps (resetPacing : Bool) (st : GameState) :
    Keeps env hash n c Ended (resumeGame resetPacing st) := by
  refine .bind startOutput_keeps fun out => ?_
  obtain ⟨audioEnabled, failed⟩ := out
  cases failed with
  | some e => exact .bind (giveUp_keeps fun _ => nofun) fun exit => .pure id
  | none =>
    refine .bind (.ask trivial) fun next => .bind (.ask trivial) fun _ => .bind (.ask trivial) fun pad => ?_
    exact .pure False.elim

theorem blockHealthy_keeps (produced : Nat) :
    Keeps env hash n (Storing (.audioFrame GB_AUDIO_SAMPLES) produced) (fun healthy => healthy =
      false) (blockHealthy produced) := by
  unfold blockHealthy
  split
  · rename_i hshort
    exact .pure fun _ => hshort
  · exact .ask trivial

theorem playBlocks_keeps (due : Nat) (blocks : UInt64) :
    Keeps env hash n c (· = none) (playBlocks due blocks) := by
  induction due generalizing blocks c with
  | zero => exact .pure nofun
  | succ due ih =>
    refine .bind (.ask trivial) fun produced => .bind (blockHealthy_keeps produced) fun healthy => ?_
    cases healthy with
    | false => exact .pure fun _ => rfl
    | true => exact .bind (.ask trivial) fun _ => ih (blocks + 1)

theorem playAudio_keeps (st : GameState) : Keeps env hash n c (· = none) (playAudio st) := by
  unfold playAudio
  split
  · exact .bind (.ask trivial) fun now => playBlocks_keeps _ _
  · exact .pure nofun

theorem drawFrame_keeps (color : Bool) : Keeps env hash n c (· = none) (drawFrame color) := by
  unfold drawFrame
  split
  · refine .bind (.ask trivial) fun drawn => ?_
    cases drawn with
    | true => exact .pure nofun
    | false => exact .pure fun _ => rfl
  · exact .ask trivial

/-- Nothing, or a return, or the next state of the loop. -/
def MayEnd (next : Option (Exit ⊕ GameState)) : Prop := ∃ exit, next = some (.inl exit) ∧ exit.Played

theorem MayEnd.ended {exit : Exit} (h : MayEnd (some (.inl exit))) : exit.Played := by
  obtain ⟨exit', heq, hplayed⟩ := h
  obtain rfl := Sum.inl.inj (Option.some.inj heq)
  exact hplayed

theorem autosave_keeps (fuel : Nat) (st : GameState) : Keeps env hash n c MayEnd (autosave fuel st) := by
  refine .bind (.ask trivial) fun saved => ?_
  cases saved with
  | true => exact .bind (.ask trivial) fun now => .pure nofun
  | false =>
    refine .bind (silence_keeps _) fun _ => .bind (pauseGame_keeps fuel true) ?_
    rintro (_ | _ | _)
    · exact .pure nofun
    · exact .bind (leaveGame_keeps _ fun _ => rfl) fun exit => .pure MayEnd.ended
    · refine .bind (resumeGame_keeps false st) ?_
      rintro (exit | st')
      · exact .pure MayEnd.ended
      · exact .bind (.ask trivial) fun now => .pure nofun

theorem autosaveDue_keeps (now : Int) (st : GameState) :
    Keeps env hash n c (fun _ => False) (autosaveDue now st) := by
  unfold autosaveDue
  split
  · exact .ask trivial
  · exact .pure False.elim

theorem finishIteration_keeps (fuel : Nat) (started : Int) (st : GameState) :
    Keeps env hash n c MayEnd (finishIteration fuel started st) := by
  refine .bind (.ask trivial) fun done => .bind (.ask trivial) fun now =>
    .bind (autosaveDue_keeps _ _) fun due => ?_
  cases due with
  | true => exact autosave_keeps fuel _
  | false => exact .pure nofun

/-- The return after an error. -/
theorem failed_keeps {e : GameError} (h : (Exit.error e).Played → c) :
    Keeps env hash n c MayEnd (do
      let exit ← giveUp e
      pure (some (.inl exit))) :=
  .bind (giveUp_keeps (Q := Exit.Played) h) fun _ => .pure MayEnd.ended

theorem playIteration_keeps (fuel : Nat) (color : Bool) (keys : Keys) (st : GameState) :
    Keeps env hash n c MayEnd (playIteration fuel color keys st) := by
  refine .bind (.ask trivial) fun _ => .bind (.ask trivial) ?_
  rintro (_ | idle)
  · exact .bind (silence_keeps _) fun _ => failed_keeps fun _ => rfl
  refine .bind (.ask trivial) fun started => .bind (.ask trivial) fun stepped => ?_
  cases stepped with
  | false => exact .bind (silence_keeps _) fun _ => failed_keeps fun h => absurd h (by simp [Exit.Played])
  | true =>
    refine .bind (playAudio_keeps st) ?_
    rintro (_ | blocks)
    · exact .bind (silence_keeps _) fun _ => failed_keeps fun _ => rfl
    · dsimp only
      split
      · refine .bind (drawFrame_keeps color) ?_
        rintro (_ | queued)
        · exact .bind (silence_keeps _) fun _ => failed_keeps fun _ => rfl
        · exact finishIteration_keeps fuel started _
      · exact finishIteration_keeps fuel started _

theorem stopAudio_keeps (audioEnabled : Bool) :
    Keeps env hash n c (· = false) (stopAudio audioEnabled) := by
  unfold stopAudio
  split
  · exact .weaken (.ask trivial) id fun _ h => ⟨rfl, h⟩
  · exact .pure nofun

theorem pauseIteration_keeps (fuel : Nat) (connected : Bool) (st : GameState) :
    Keeps env hash n c MayEnd (pauseIteration fuel connected st) := by
  refine .bind (.ask trivial) fun _ => .bind (stopAudio_keeps _) fun stopped => ?_
  cases stopped with
  | false => exact failed_keeps fun _ => rfl
  | true =>
    refine .bind (pauseGame_keeps fuel connected) ?_
    rintro (_ | _ | _)
    · exact .pure nofun
    · exact .bind (leaveGame_keeps _ fun _ => rfl) fun exit => .pure MayEnd.ended
    · refine .bind (resumeGame_keeps true st) ?_
      rintro (exit | st')
      · exact .pure MayEnd.ended
      · exact .pure nofun

theorem gameIteration_keeps (fuel : Nat) (color : Bool) (st : GameState) :
    Keeps env hash n c MayEnd (gameIteration fuel color st) := by
  refine .bind (.ask trivial) fun messages => .bind (.ask trivial) fun pad => .bind (.ask trivial)
    fun live => ?_
  refine .bind (.ask trivial) fun now => ?_
  dsimp only
  split
  · exact pauseIteration_keeps fuel _ _
  · exact playIteration_keeps fuel color _ _

/-- The return of a game that has been played. -/
def EndsPlayed (out : Option Exit) : Prop := ∃ exit, out = some exit ∧ exit.Played

theorem gameLoop_keeps (fuel : Nat) (color : Bool) (iterations : Nat) (st : GameState) :
    Keeps env hash n c EndsPlayed (gameLoop fuel color iterations st) := by
  induction iterations generalizing st c with
  | zero => exact .pure nofun
  | succ iterations ih =>
    refine .bind (gameIteration_keeps fuel color st) ?_
    rintro (_ | exit | st')
    · exact .pure nofun
    · refine .pure ?_
      rintro ⟨exit', heq, hplayed⟩
      obtain rfl := Option.some.inj heq
      exact ⟨exit, rfl, hplayed⟩
    · exact ih st'

theorem launchGame_keeps (fuel : Nat) : Keeps env hash n c EndsPlayed (launchGame fuel) := by
  have hexit : ∀ {e : GameError} {c : Prop}, ((Exit.error e).Played → c) → Keeps env hash n c EndsPlayed (do
      let exit ← giveUp e
      pure (some exit)) := by
    intro e c h
    refine .bind (giveUp_keeps (Q := Exit.Played) h) fun exit => .pure ?_
    rintro ⟨exit', heq, hplayed⟩
    obtain rfl := Option.some.inj heq
    exact hplayed
  refine .bind (.ask trivial) fun animated => ?_
  cases animated with
  | false => exact hexit fun _ => rfl
  | true =>
    refine .bind (.ask trivial) fun _ => .bind (.ask trivial) fun color => .bind startOutput_keeps
      fun out => ?_
    obtain ⟨audioEnabled, failed⟩ := out
    cases failed with
    | some e => exact hexit fun _ => nofun
    | none =>
      refine .bind (.ask trivial) fun _ => .bind (.ask trivial) fun next => .bind (.ask trivial)
        fun pad => ?_
      exact gameLoop_keeps fuel color fuel _

theorem awaitInput_keeps (fuel : Nat) (pad : PadSample) :
    Keeps env hash n c (· = some false) (awaitInput fuel pad) := by
  unfold awaitInput
  split
  · exact .pure nofun
  · exact pauseGame_keeps fuel false

/-! ## `run_game` -/

theorem gbPortCreate_cart {p : Platform σ} {rom : RomSource} {s : Session σ}
    (h : gbPortCreate env p rom = some s) :
    gbPortHasBattery s = batteryCart (env.rom 0x147) := by
  unfold gbPortCreate at h
  split at h
  · cases h
  split at h
  · cases h
  rename_i header hread
  split at h
  · cases h
  obtain ⟨g, -, rfl⟩ := Option.map_eq_some_iff.mp h
  unfold readRom at hread
  split at hread
  · cases hread
  · obtain rfl := Option.some.inj hread
    rfl

/-- A return of a game that has been played leaves the SRAM stored. -/
def LeavesStored (hash : Vector UInt8 32) (n : Nat) (out : Option Exit) (w : GameWorld σ) : Prop :=
  EndsPlayed out → Stored hash n w

theorem giveUp_unplayed {e : GameError} (h : ¬ (Exit.error e).Played) (w : GameWorld σ) :
    (do
      let exit ← giveUp e
      pure (some exit) : GameM (Option Exit)).wp (harmlessDevice env hash n) (LeavesStored hash n)
        (fun _ => True) w := by
  have hnot : ¬ EndsPlayed (some (.error e)) := by
    rintro ⟨exit, heq, hplayed⟩
    obtain rfl := Option.some.inj heq
    exact h hplayed
  refine ⟨fun _ _ _ => ⟨fun _ _ _ => ⟨fun _ _ _ => ?_, fun _ _ => trivial⟩, fun _ _ => trivial⟩,
    fun _ _ => trivial⟩
  exact fun hplayed => absurd hplayed hnot

/-- After the session has been created. -/
theorem createdGame_wp {p : Platform σ} {rom : RomSource} {w : GameWorld σ} (fuel : Nat)
    (hbattery : batteryCart (env.rom 0x147) = true) (hcreate : gbPortCreate env p rom = some w.session)
    (hn : gbPortSramSize w.session = n) :
    (do
      match ← loadSave with
      | some e => do
        let exit ← giveUp e
        pure (some exit)
      | none => do
        let pad ← ask .gamepadSnapshot
        match ← awaitInput fuel pad with
        | none => pure none
        | some false => do
          destroyGameSession
          pure (some .left)
        | some true => launchGame fuel : GameM (Option Exit)).wp (harmlessDevice env hash n)
          (LeavesStored hash n) (fun _ => True) w := by
  have hhas : gbPortHasBattery w.session = true := (gbPortCreate_cart hcreate).trans hbattery
  -- once loaded, what is stored is what is in the session
  refine Prog.wp_seq (P := fun failed w' => failed = none ∧ PlayInv hash n w' ∨
      failed = some .savesUnavailable ∨ failed = some .saveCorrupt) ?_ ?_
  · refine Prog.wp_perform ?_ fun _ _ => trivial
    rintro battery _ ⟨⟨rfl, rfl⟩, -⟩
    rw [hhas]
    refine Prog.wp_perform ?_ fun _ _ => trivial
    rintro ready _ ⟨rfl, -⟩
    cases ready with
    | false => exact .inr (.inl rfl)
    | true =>
      refine Prog.wp_perform ?_ fun _ _ => trivial
      rintro result w' ⟨hload, -⟩
      by_cases hr : result = .error
      · refine .inr (.inr ?_)
        rw [if_pos hr]
      · refine .inl ⟨?_, PlayInv.loaded hcreate hhas hn hload hr⟩
        rw [if_neg hr]
  · rintro failed w' (⟨rfl, hi⟩ | rfl | rfl)
    -- nothing is played while the input is awaited
    · have hkeeps : Keeps env hash n False EndsPlayed (do
          let pad ← ask .gamepadSnapshot
          match ← awaitInput fuel pad with
          | none => pure none
          | some false => do
            destroyGameSession
            pure (some .left)
          | some true => launchGame fuel) := by
        refine .bind (.ask trivial) fun pad => .bind (awaitInput_keeps fuel pad) ?_
        rintro (_ | _ | _)
        · exact .pure nofun
        · exact .bind destroyGameSession_keeps fun _ => .pure fun _ => rfl
        · exact launchGame_keeps fuel
      exact Prog.wp_mono (fun _ _ h => h.2) (fun _ h => h) (hkeeps w' hi False.elim)
    · exact giveUp_unplayed (by simp [Exit.Played]) w'
    · exact giveUp_unplayed (by simp [Exit.Played]) w'

theorem runGame_wp (fuel index : Nat) (hbattery : batteryCart (env.rom 0x147) = true) (w : GameWorld σ) :
    (runGame fuel index).wp (harmlessDevice env hash n) (LeavesStored hash n) (fun _ => True) w := by
  have hnot : ∀ {exit : Exit} {w : GameWorld σ}, ¬ exit.Played → LeavesStored hash n (some exit) w := by
    rintro exit w h ⟨exit', heq, hplayed⟩
    obtain rfl := Option.some.inj heq
    exact absurd hplayed h
  refine Prog.wp_perform ?_ fun _ _ => trivial
  rintro listed w₁ -
  cases listed with
  | false => exact hnot id
  | true =>
    refine Prog.wp_perform ?_ fun _ _ => trivial
    rintro - w₂ -
    refine Prog.wp_perform ?_ fun _ _ => trivial
    rintro opened w₃ -
    cases opened with
    | false => exact ⟨fun _ _ _ => hnot (by simp [Exit.Played]), fun _ _ => trivial⟩
    | true =>
      refine Prog.wp_perform ?_ fun _ _ => trivial
      rintro created w₄ ⟨⟨-, ⟨rfl, p, rom, hcreate, hn⟩ | ⟨rfl, -⟩⟩, -⟩
      · exact createdGame_wp fuel hbattery hcreate hn
      · exact ⟨fun _ _ _ => hnot (by simp [Exit.Played]), fun _ _ => trivial⟩

/-! ## Progress that is lost -/

theorem exec_ask {D : Device GameOp GameRes (GameWorld σ)} {α : Type} {o : GameOp}
    {f : GameRes o → GameM α} {w w' v : GameWorld σ}
    {out : Option α} (r : GameRes o) (h : D.done o w r v) (hf : (f r).Exec D v out w') :
    (ask o >>= f).Exec D w out w' :=
  .perform h hf

/-- A pad without a pressed button. -/
def pluggedIn : PadSample := { connected := true }

/-- The game is opened with an empty save. -/
theorem writing_opened {D : Device GameOp GameRes (GameWorld Unit)}
    (hD : ∀ o w r v, gameDone writingEnv (.replicate 32 0) 8192 o w r v → ¬ Failing o r →
      D.done o w r v) {fuel : Nat}
    {out : Option (Option Exit)} {w' : GameWorld Unit}
    (h : (launchGame fuel).Exec D ⟨writingSession, emptyVolume⟩ out w') :
    (runGame fuel 0).Exec D ⟨writingSession, emptyVolume⟩ out w' := by
  have hload : loadSave.Exec D ⟨writingSession, emptyVolume⟩ (some none) ⟨writingSession, emptyVolume⟩ :=
    exec_ask true (hD .hasBattery _ _ _ ⟨rfl, rfl⟩ id) <| exec_ask true (hD .savesReady _ _ _ rfl id) <|
      exec_ask .empty (hD .savesLoad _ _ ⟨writingSession, emptyVolume⟩ writing_loaded id) <| .pure _ _
  refine exec_ask true (hD (.storageEntry 0) _ _ _ rfl id) <|
    exec_ask () (hD (.showUi _ _ _) _ _ _ rfl id) ?_
  refine exec_ask true (hD (.storageOpen 0) _ _ _ rfl id) ?_
  refine exec_ask true (hD .portCreate _ _ _ ⟨rfl, .inl ⟨rfl, _, _, writingSession_created, rfl⟩⟩ id) ?_
  exact Prog.exec_bind hload <| exec_ask pluggedIn (hD .gamepadSnapshot _ _ _ rfl id) <|
    Prog.exec_bind (.pure _ _) h

/-- On a battery cartridge whose save was loaded or empty, in every run in which the animation, the
display and the audio fail only while there is nothing to lose, a return of `run_game` other than for
a ROM that cannot be read leaves the SRAM of the session in the save store. -/
theorem leaving_keeps_progress (env : Env σ) (hash : Vector UInt8 32)
    (n : Nat) (hbattery : batteryCart (env.rom 0x147) = true)
    (fuel index : Nat) (w w' : GameWorld σ) (exit : Exit)
    (he : (runGame fuel index).Exec (harmlessDevice env hash n) w (some (some exit)) w') (hplayed : exit.Played) :
    Restores hash n w'.saves.files (sramOf w'.session) :=
  Prog.wp_exec (runGame_wp fuel index hbattery w) he ⟨exit, rfl, hplayed⟩

/-- A step of a run in which nothing fails. -/
theorem exec_harmless {α : Type} {o : GameOp} {f : GameRes o → GameM α}
    {w w' v : GameWorld σ} {out : Option α} (r : GameRes o)
    (h : gameDone env hash n o w r v) (hok : ¬ Failing o r) (hf : (f r).Exec (harmlessDevice env hash n) v out w') :
    (ask o >>= f).Exec (harmlessDevice env hash n) w out w' :=
  exec_ask r ⟨h, fun hfail => absurd hfail hok⟩ hf

/-- The sound is off, and the screen comes up. -/
theorem startOutput_silent (w : GameWorld σ) :
    startOutput.Exec (harmlessDevice env hash n) w (some (false, none)) w :=
  exec_harmless (false, 0) rfl id <| Prog.exec_bind (.pure _ _) <|
    Prog.exec_bind (exec_harmless true rfl Bool.noConfusion <| exec_ask true ⟨rfl, Bool.noConfusion⟩ <| .pure _ _) <|
      .pure _ _

def launchedState : GameState :=
  { audioEnabled := false, lastSave := 0, audioEpoch := 0, selectPause := gbSelectPauseInit pluggedIn }

def playedState : GameState := { launchedState with pacing := gbFramePacingRecord (gbFramePacingMarkDrawn {}) 0 }

/-- A frame is played and shown. -/
theorem gameIteration_played {s : Session Unit}
    (hframe : gbPortStepFrame writingEnv true (gbPortSetKeys {} writingSession) = some (true, s)) (fuel : Nat) :
    (gameIteration fuel false launchedState).Exec (harmlessDevice writingEnv (.replicate 32 0) 8192)
      ⟨writingSession, emptyVolume⟩ (some (some (.inr playedState))) ⟨s, emptyVolume⟩ := by
  refine exec_harmless [] rfl id <| exec_harmless pluggedIn rfl id <| exec_harmless pluggedIn rfl id <|
    exec_harmless (0 : Int) rfl id ?_
  refine exec_harmless () rfl id <| exec_harmless (some true) rfl nofun <| exec_harmless (0 : Int) rfl id <|
    exec_harmless (v := ⟨s, emptyVolume⟩) true ⟨rfl, hframe⟩ id ?_
  refine Prog.exec_bind (.pure _ _) <| Prog.exec_bind (exec_harmless (some true) rfl nofun <| .pure _ _) ?_
  exact exec_harmless (0 : Int) rfl id <| exec_harmless (0 : Int) rfl id <| Prog.exec_bind (.pure _ _) <| .pure _ _

/-- The session is saved when the game is paused, and a long press leaves. -/
theorem pauseGame_left {s s' : Session Unit} {v v' : SaveFs} (hbattery : gbPortHasBattery s = true)
    (hsave : (gbSavesWrite writingEnv (.replicate 32 0) s).Exec (saveDevice (Incomplete (.replicate 32 0) 8192)) v
      (some (true, s')) v')
    (hsaved : gbPortHasBattery s' = true) (hclean : gbPortNeedsSave s' = false) (fuel : Nat) :
    (pauseGame (fuel + 1) false).Exec (harmlessDevice writingEnv (.replicate 32 0) 8192) ⟨s, v⟩ (some (some false))
      ⟨s', v'⟩ := by
  refine exec_harmless {} rfl id <| exec_harmless () rfl id <| exec_harmless true ⟨rfl, hbattery.symm⟩ id <|
    exec_harmless (v := ⟨s', v'⟩) true hsave id <| exec_harmless () rfl id <| exec_harmless {} rfl id ?_
  have hmenu : ∀ hold, (menuButtonReceive hold).Exec (harmlessDevice writingEnv (.replicate 32 0) 8192) ⟨s', v'⟩
      (some (some ⟨.ok, .long⟩, gbSelectPauseInit {})) ⟨s', v'⟩ := by
    intro hold
    exact exec_harmless (some ⟨.ok, .long⟩) rfl id <| exec_harmless {} rfl id <|
      exec_harmless (0 : Int) rfl id <| .pure _ _
  have hagain : (gbSavesWrite writingEnv (.replicate 32 0) s').Exec (saveDevice (Incomplete (.replicate 32 0) 8192)) v'
      (some (true, s')) v' := by
    rw [gbSavesWrite_clean hsaved hclean]
    exact .pure _ _
  have hstep : ∀ st, (pauseStep true st).Exec (harmlessDevice writingEnv (.replicate 32 0) 8192)
      ⟨s', v'⟩ (some (.inl false))
      ⟨s', v'⟩ := by
    intro st
    refine Prog.exec_bind (hmenu _) <| exec_harmless {} rfl id ?_
    exact Prog.exec_bind (exec_harmless (v := ⟨s', v'⟩) true hagain id <| .pure _ _) <| .pure _ _
  exact Prog.exec_bind (hstep _) <| .pure _ _

/-- The pad is pulled out. -/
theorem gameIteration_left {s s' : Session Unit} {v v' : SaveFs}
    {st : GameState} (hst : st.audioEnabled = false) (fuel : Nat)
    (hpause : (pauseGame fuel false).Exec (harmlessDevice writingEnv (.replicate 32 0) 8192) ⟨gbPortSetKeys {} s, v⟩
      (some (some false)) ⟨s', v'⟩) :
    (gameIteration fuel false st).Exec (harmlessDevice writingEnv (.replicate 32 0) 8192) ⟨s, v⟩
      (some (some (.inl .left))) ⟨s', v'⟩ := by
  obtain ⟨audioEnabled, lastSave, audioEpoch, audioBlocks, pacing, selectPause⟩ := st
  obtain rfl := hst
  refine exec_harmless [] rfl id <| exec_harmless {} rfl id <|
    exec_harmless {} rfl id <| exec_harmless (0 : Int) rfl id ?_
  refine exec_harmless () rfl id <| Prog.exec_bind (.pure _ _) <| Prog.exec_bind hpause ?_
  exact Prog.exec_bind (Prog.exec_bind (.pure _ _) <|
    Prog.exec_bind (exec_harmless () rfl id <| exec_harmless () rfl id <| .pure _ _) <| .pure _ _) <| .pure _ _

/-- A frame writes to the RAM, the pad is pulled out, the pause saves and the game is left. -/
theorem leaving_keeps_progress_paused : ∃ w' : GameWorld Unit,
    (runGame 2 0).Exec (harmlessDevice writingEnv (.replicate 32 0) 8192) ⟨writingSession, emptyVolume⟩
      (some (some .left)) w' ∧ (sramOf w'.session)[0]? = some 0x0A ∧
    Restores (.replicate 32 0) 8192 w'.saves.files (sramOf w'.session) := by
  obtain ⟨s, hrun, hframe, hrtc, hdirty, hfirst⟩ := writing_run
  have hbattery : gbPortHasBattery (gbPortSetKeys {} s) = true := hrun.inv.battery
  have hsave := @gbSavesWrite_succeeds _ (.replicate 32 0) 8192 (Incomplete (.replicate 32 0) 8192) writingEnv
    (gbPortSetKeys {} s) emptyVolume hrun.inv.size hbattery hdirty _ (targetOf_missing rfl rfl)
  have hpause := pauseGame_left hbattery hsave hbattery (saved_clean hrtc) 1
  have hleft := @gameIteration_left _ _ _ _ playedState rfl 2 hpause
  have hlaunch : (launchGame 2).Exec (harmlessDevice writingEnv (.replicate 32 0) 8192) ⟨writingSession, emptyVolume⟩
      (some (some .left)) _ :=
    exec_harmless true rfl Bool.noConfusion <| exec_harmless [] rfl id <| exec_harmless false ⟨rfl, rfl⟩ id <|
      Prog.exec_bind (startOutput_silent _) <| exec_harmless () rfl id <| exec_harmless (0 : Int) rfl id <|
      exec_harmless pluggedIn rfl id <| Prog.exec_bind (gameIteration_played hframe 2) <|
      Prog.exec_bind hleft <| .pure _ _
  have hexec := writing_opened (D := harmlessDevice writingEnv (.replicate 32 0) 8192)
    (fun _ _ _ _ hd hf => ⟨hd, fun hfailing => absurd hfailing hf⟩) hlaunch
  exact ⟨_, hexec, hfirst, leaving_keeps_progress writingEnv _ 8192 (by decide) 2 0 _ _ _ hexec trivial⟩

/-- The display fails after a frame that has written to the RAM: the session is destroyed, and what
it wrote is nowhere. -/
theorem leaving_loses_progress : batteryCart (writingEnv.rom 0x147) = true ∧
    ∃ w' : GameWorld Unit, (runGame 1 0).Exec (gameDevice writingEnv (.replicate 32 0) 8192)
      ⟨writingSession, emptyVolume⟩
      (some (some (.error .screen))) w' ∧ ¬ Restores (.replicate 32 0) 8192 w'.saves.files (sramOf w'.session) := by
  obtain ⟨s, hframe, hsram⟩ := writing_returns
  refine ⟨by decide, ⟨s, emptyVolume⟩, ?_, empty_not_restores hsram⟩
  refine writing_opened (fun _ _ _ _ hd _ => hd) ?_
  refine exec_ask true rfl <| exec_ask [] rfl <| exec_ask false ⟨rfl, rfl⟩ ?_
  have hout : startOutput.Exec (gameDevice writingEnv (.replicate 32 0) 8192) ⟨writingSession,
      emptyVolume⟩ (some (false, none)) ⟨writingSession, emptyVolume⟩ :=
    exec_ask (false, 0) rfl <| Prog.exec_bind (.pure _ _) <|
      Prog.exec_bind (exec_ask true rfl <| exec_ask true rfl <| .pure _ _) <| .pure _ _
  refine Prog.exec_bind hout <| exec_ask () rfl <| exec_ask (0 : Int) rfl <| exec_ask pluggedIn rfl ?_
  have hplay : (playIteration 1 false {} ⟨false, 0, 0, 0, {}, gbSelectPauseInit pluggedIn⟩).Exec
      (gameDevice writingEnv (.replicate 32 0) 8192) ⟨writingSession, emptyVolume⟩
        (some (some (.inl (.error .screen))))
      ⟨s, emptyVolume⟩ := by
    refine exec_ask () rfl <| exec_ask (some true) rfl <| exec_ask (0 : Int) rfl <|
      exec_ask (v := ⟨s, emptyVolume⟩) true ⟨rfl, hframe⟩ ?_
    refine Prog.exec_bind (.pure _ _) <| Prog.exec_bind (exec_ask none rfl <| .pure _ _) ?_
    exact Prog.exec_bind (.pure _ _) <|
      Prog.exec_bind (Prog.exec_bind (exec_ask () rfl <| exec_ask () rfl <| .pure _ _) <|
      exec_ask () rfl <| .pure _ _) <| .pure _ _
  have hiteration : (gameIteration 1 false ⟨false, 0, 0, 0, {}, gbSelectPauseInit pluggedIn⟩).Exec
      (gameDevice writingEnv (.replicate 32 0) 8192) ⟨writingSession, emptyVolume⟩
        (some (some (.inl (.error .screen))))
      ⟨s, emptyVolume⟩ :=
    exec_ask [] rfl <| exec_ask pluggedIn rfl <| exec_ask pluggedIn rfl <| exec_ask (0 : Int) rfl hplay
  exact Prog.exec_bind hiteration <| .pure _ _

end FoloGameboy

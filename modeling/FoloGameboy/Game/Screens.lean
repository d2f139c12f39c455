/-
The screens of the device and who has control: `app_main` with everything it calls, as far as
control passes between screens and a screen initialises and steps its `gb_select_pause_t`. What a
screen shows and changes is left out, and what it decides by anything but a board button, the menu
input or its hold may be decided either way.

The hold of every screen outlives the screens it calls; nothing but the programs says that it is
initialised before it is stepped again.
-/
import FoloGameboy.Lib.Crash
import FoloGameboy.Pad.Select

namespace FoloGameboy

open Effect

/-! ## Operations -/

inductive UiScreen where
  | home | management | gamepadTest | settings | pairing | menu | game | pause | screenOff | error
deriving DecidableEq

inductive UiOp where
  /-- Control passes to the screen, which is called or which another one returns to. -/
  | enter (screen : UiScreen)
  /-- `gb_select_pause_init` with a snapshot of the pad. -/
  | holdInit (screen : UiScreen)
  /-- `gb_select_pause_step` with a snapshot of the pad and the time. -/
  | holdStep (screen : UiScreen)
  | queueReceive
  /-- `gb_menu_input_step` with a snapshot of the pad. -/
  | menuInput
  /-- Whether the pad is connected, a message came, a display or a save worked. -/
  | choice
  /-- Waiting without end. -/
  | wait

abbrev UiRes : UiOp → Type
  | .holdStep _ => Bool
  | .queueReceive => Option ButtonMessage
  | .menuInput => MenuAction
  | .choice => Bool
  | .wait => Empty
  | _ => Unit

abbrev UiM : Type → Type := Prog UiOp UiRes

namespace Ui

def ask (o : UiOp) : UiM (UiRes o) := Prog.op o

/-- Loops are written for a number of rounds, after which the device waits. -/
def wait {α : Type} : UiM α := do
  let never ← ask .wait
  nomatch never

/-! ## Screens -/

def longOk : ButtonMessage := ⟨.ok, .long⟩

/-- `menu_button_receive`. -/
def menuButtonReceive (screen : UiScreen) : UiM (Option ButtonMessage) := do
  let received ← ask .queueReceive
  let fired ← ask (.holdStep screen)
  pure (if fired then some longOk else received)

/-- Menu screens: the board comes before the pad. -/
def menuChoice (board : Option ButtonMessage) (pad : MenuAction) : MenuAction :=
  let action := (board.map boardMenuAction).getD .none
  if action = .none then pad else action

/-- The rounds of `gamepad_test_loop`. -/
def gamepadTestRounds : (rounds : Nat) → UiM Unit
  | 0 => wait
  | rounds + 1 => do
    match ← menuButtonReceive .gamepadTest with
    | some msg => if msg = longOk then pure () else gamepadTestRounds rounds
    | none => do
      let shown ← ask .choice
      if shown then gamepadTestRounds rounds else pure ()

def gamepadTestLoop (rounds : Nat) : UiM Unit := do
  ask (.enter .gamepadTest)
  ask (.holdInit .gamepadTest)
  gamepadTestRounds rounds

/-- The rounds of `settings_loop`. -/
def settingsRounds : (rounds : Nat) → (editing : Bool) → (selected : Nat) → UiM Unit
  | 0, _, _ => wait
  | rounds + 1, editing, selected => do
    let board ← menuButtonReceive .settings
    let pad ← ask .menuInput
    let action := if board = some longOk then .back else menuChoice board pad
    match action with
    | .none => settingsRounds rounds editing selected
    | .back => if editing then settingsRounds rounds false selected else pure ()
    | .up => settingsRounds rounds editing (if editing then selected else (selected + 3) % 4)
    | .down => settingsRounds rounds editing (if editing then selected else (selected + 1) % 4)
    | .confirm =>
      if editing then settingsRounds rounds false selected
      else if selected = 3 then pure ()
      else settingsRounds rounds (selected ≠ 2) selected

def settingsLoop (rounds : Nat) : UiM Unit := do
  ask (.enter .settings)
  ask (.holdInit .settings)
  settingsRounds rounds false 0

/-- The rounds of `home_loop`, which has no hold. -/
def homeRounds : (rounds : Nat) → (selected : Nat) → UiM Nat
  | 0, _ => wait
  | rounds + 1, selected => do
    let board ← ask .queueReceive
    let pad ← ask .menuInput
    match menuChoice board pad with
    | .up => homeRounds rounds ((selected + 3) % 4)
    | .down => homeRounds rounds ((selected + 1) % 4)
    | .confirm => pure selected
    | _ => homeRounds rounds selected

def homeLoop (rounds : Nat) : UiM Nat := do
  ask (.enter .home)
  homeRounds rounds 0

/-- Messages are taken until one of a kind. -/
def receiveUntil (screen : UiScreen) (leaving : ButtonMessage → Bool) : (rounds : Nat) → UiM Unit
  | 0 => wait
  | rounds + 1 => do
    match ← menuButtonReceive screen with
    | some msg => if leaving msg then pure () else receiveUntil screen leaving rounds
    | none => receiveUntil screen leaving rounds

def managementLoop (rounds : Nat) : UiM Unit := do
  ask (.enter .management)
  ask (.holdInit .management)
  let started ← ask .choice
  if started then receiveUntil .management (· = longOk) rounds else receiveUntil .management (·.button = .ok) rounds

def errorRounds : (rounds : Nat) → UiM Unit
  | 0 => wait
  | rounds + 1 => do
    let msg ← ask .queueReceive
    if msg = some ⟨.ok, .click⟩ then pure () else errorRounds rounds

def showError (rounds : Nat) : UiM Unit := do
  ask (.enter .error)
  errorRounds rounds

/-- `screen_off_loop`, whether it fails at once, is woken, or fails to wake. -/
def screenOffLoop : UiM Bool := do
  ask (.enter .screenOff)
  ask .choice

/-- The rounds of `pairing_loop`: the pad may connect when no message is left. -/
def pairingRounds : (rounds : Nat) → UiM Bool
  | 0 => wait
  | rounds + 1 => do
    match ← menuButtonReceive .pairing with
    | some msg =>
      if msg = longOk then
        let chosen ← ask .choice
        if chosen then pairingRounds rounds else pure false
      else pairingRounds rounds
    | none => do
      let connected ← ask .choice
      if connected then pure true else pairingRounds rounds

def pairingLoop (rounds : Nat) : UiM Bool := do
  ask (.enter .pairing)
  ask (.holdInit .pairing)
  let connected ← ask .choice
  if connected then pure true else pairingRounds rounds

/-- What `pause_game` does with its menu input: what it returns, or the item selected next. -/
def pauseAction (rounds : Nat) (selected : Nat) : MenuAction → UiM (Bool ⊕ Nat)
  | .none => pure (.inr selected)
  | .up => pure (.inr ((selected + 4) % 5))
  | .down => pure (.inr ((selected + 1) % 5))
  | .back => do
    let connected ← ask .choice
    pure (if connected then .inl true else .inr selected)
  | .confirm => do
    if selected = 0 then
      let connected ← ask .choice
      pure (if connected then .inl true else .inr selected)
    else if selected = 1 then pure (.inr selected)
    else if selected = 2 then
      settingsLoop rounds
      ask (.enter .pause)
      ask (.holdInit .pause)
      pure (.inr selected)
    else if selected = 3 then
      let woken ← screenOffLoop
      ask (.enter .pause)
      let connected ← ask .choice
      if woken && connected then pure (.inl true)
      else
        ask (.holdInit .pause)
        pure (.inr selected)
    else
      let saved ← ask .choice
      pure (if saved then .inl false else .inr selected)

/-- The rounds of `pause_game`; `inner` bounds those of the screens it calls. -/
def pauseRounds (inner : Nat) : (rounds : Nat) → (selected : Nat) → UiM Bool
  | 0, _ => wait
  | rounds + 1, selected => do
    let board ← menuButtonReceive .pause
    let pad ← ask .menuInput
    if board = some longOk then
      let saved ← ask .choice
      if saved then pure false else pauseRounds inner rounds selected
    else
      match ← pauseAction inner selected (menuChoice board pad) with
      | .inl result => pure result
      | .inr selected => pauseRounds inner rounds selected

def pauseGame (rounds : Nat) : UiM Bool := do
  ask (.enter .pause)
  ask (.holdInit .pause)
  pauseRounds rounds rounds 0

/-- The pause of a game that runs, and its return to the game: whether the game goes on. -/
def pauseAndResume (rounds : Nat) : UiM Bool := do
  let continued ← pauseGame rounds
  ask (.enter .game)
  if ¬ continued then pure false
  else
    let resumed ← ask .choice
    if ¬ resumed then
      showError rounds
      pure false
    else
      ask (.holdInit .game)
      pure true

/-- The rounds of `run_game`: a pause, or a frame with the save that may be due. -/
def gameRounds (inner : Nat) : (rounds : Nat) → UiM Unit
  | 0 => wait
  | rounds + 1 => do
    let asked ← ask .choice
    let held ← ask (.holdStep .game)
    if asked || held then
      let stopped ← ask .choice
      if ¬ stopped then showError inner
      else
        let continued ← pauseAndResume inner
        if continued then gameRounds inner rounds else pure ()
    else
      let played ← ask .choice
      if ¬ played then showError inner
      else
        let saved ← ask .choice
        if saved then gameRounds inner rounds
        else
          let continued ← pauseAndResume inner
          if continued then gameRounds inner rounds else pure ()

/-- `run_game` from the launch animation on. -/
def launchGame (rounds : Nat) : UiM Unit := do
  let launched ← ask .choice
  if ¬ launched then showError rounds
  else
    ask (.holdInit .game)
    gameRounds rounds rounds

def runGame (rounds : Nat) : UiM Unit := do
  ask (.enter .game)
  let listed ← ask .choice
  if ¬ listed then pure ()
  else
    let loaded ← ask .choice
    if ¬ loaded then showError rounds
    else
      let connected ← ask .choice
      if connected then launchGame rounds
      else
        let continued ← pauseGame rounds
        ask (.enter .game)
        if continued then launchGame rounds else pure ()

/-- The list of games without one: it is left when the pad is gone or on a long OK. -/
def emptyMenuRounds : (rounds : Nat) → UiM Unit
  | 0 => wait
  | rounds + 1 => do
    let connected ← ask .choice
    if ¬ connected then pure ()
    else if (← menuButtonReceive .menu) = some longOk then pure ()
    else emptyMenuRounds rounds

/-- The rounds of `menu_loop`; the back button of the pad does not leave it. -/
def menuRounds (inner : Nat) : (rounds : Nat) → UiM Unit
  | 0 => wait
  | rounds + 1 => do
    let empty ← ask .choice
    if empty then emptyMenuRounds inner
    else
      let board ← menuButtonReceive .menu
      let connected ← ask .choice
      if ¬ connected then pure ()
      else
        let pad ← ask .menuInput
        if board = some longOk then pure ()
        else if menuChoice board (if pad = .back then .none else pad) = .confirm then
          runGame inner
          ask (.enter .menu)
          ask (.holdInit .menu)
          menuRounds inner rounds
        else menuRounds inner rounds

def menuLoop (rounds : Nat) : UiM Unit := do
  ask (.enter .menu)
  ask (.holdInit .menu)
  menuRounds rounds rounds

def inputEntryLoop (rounds : Nat) : UiM Unit := do
  let connected ← ask .choice
  if connected then menuLoop rounds
  else
    let paired ← pairingLoop rounds
    if paired then menuLoop rounds else pure ()

/-- The rounds of `app_main` once the device has started. -/
def appMain (inner : Nat) : (rounds : Nat) → UiM Unit
  | 0 => wait
  | rounds + 1 => do
    let choice ← homeLoop inner
    if choice = 0 then inputEntryLoop inner
    else if choice = 1 then managementLoop inner
    else if choice = 2 then gamepadTestLoop inner
    else settingsLoop inner
    appMain inner rounds

end Ui

/-! ## The device -/

/-- A step that answered true: the screen that made it, the screen that had control, and what that
had done with its hold since control passed to it. -/
structure Firing where
  screen : UiScreen
  control : UiScreen
  since : List HoldEvent
  pad : PadSample
  nowUs : Int

/-- The hold of every screen, and a record of what is done with them. -/
structure UiWorld where
  holds : UiScreen → SelectPause
  control : UiScreen
  since : List HoldEvent
  firings : List Firing

/-- The pad and the clock may show anything. -/
def uiDone : (o : UiOp) → UiWorld → UiRes o → UiWorld → Prop
  | .enter screen, w, _, w' => w' = { w with control := screen, since := [] }
  | .holdInit screen, w, _, w' => ∃ pad,
      w' = { w with holds := Function.update w.holds screen (gbSelectPauseInit pad), since := w.since ++ [.init pad] }
  | .holdStep screen, w, fired, w' => ∃ pad nowUs, fired = (gbSelectPauseStep (w.holds screen) pad nowUs).1 ∧
      w' = { w with
        holds := Function.update w.holds screen (gbSelectPauseStep (w.holds screen) pad nowUs).2
        since := w.since ++ [.step pad nowUs]
        firings := if fired then w.firings ++ [⟨screen, w.control, w.since, pad, nowUs⟩] else w.firings }
  | _, w, _, w' => w' = w

/-- The device may be switched off at any operation. -/
def uiDevice : Device UiOp UiRes UiWorld := ⟨uiDone, fun _ w w' => w' = w⟩

/-! ## The hold of the screen with control -/

/-- The hold is what the screen made of it since control passed to it. -/
def Ready (screen : UiScreen) (w : UiWorld) : Prop := w.control = screen ∧ w.holds screen = holdAfter w.since

/-- Only the screen with control fires, and by what it did since control passed to it. -/
def FiredInControl (w : UiWorld) : Prop := ∀ f ∈ w.firings, f.screen = f.control ∧ Fires f.since f.pad f.nowUs

/-- Started with `P`, the program fires in control only, and leaves `Q`. -/
def Orderly {α : Type} (P : UiWorld → Prop) (p : UiM α) (Q : α → UiWorld → Prop) : Prop :=
  ∀ w, FiredInControl w → P w → p.wp uiDevice (fun a w' => FiredInControl w' ∧ Q a w') FiredInControl w

namespace Orderly

variable {α β : Type} {P P' : UiWorld → Prop} {Q : α → UiWorld → Prop} {R : β → UiWorld → Prop} {screen : UiScreen}

theorem pure {a : α} (h : ∀ w, P w → Q a w) : Orderly P (Pure.pure a : UiM α) Q :=
  fun w hf hp => ⟨hf, h w hp⟩

theorem bind {p : UiM α} {f : α → UiM β} (hp : Orderly P p Q) (hf : ∀ a, Orderly (Q a) (f a) R) :
    Orderly P (p >>= f) R := by
  intro w hfired hpre
  refine Prog.wp_seq (hp w hfired hpre) ?_
  intro a w' ⟨hfired', hq⟩
  exact hf a w' hfired' hq

theorem weaken {p : UiM α} (h : Orderly P' p Q) (hp : ∀ w, P w → P' w) : Orderly P p Q :=
  fun w hf hpre => h w hf (hp w hpre)

theorem wait : Orderly P (Ui.wait : UiM α) Q := by
  refine bind (Q := fun _ _ => True) ?_ fun never => nomatch never
  intro w hf _
  refine ⟨fun never => (nomatch never), ?_⟩
  rintro w' rfl
  exact hf

theorem enter : Orderly P (Ui.ask (.enter screen)) fun _ w => w.control = screen := by
  intro w hf _
  refine ⟨?_, fun w' h => h ▸ hf⟩
  rintro r w' rfl
  exact ⟨hf, rfl⟩

theorem holdInit :
    Orderly (fun w => w.control = screen) (Ui.ask (.holdInit screen)) fun _ => Ready screen := by
  intro w hf hcontrol
  refine ⟨?_, fun w' h => h ▸ hf⟩
  rintro r w' ⟨pad, rfl⟩
  refine ⟨hf, hcontrol, ?_⟩
  rw [holdAfter_concat]
  exact Function.update_self ..

theorem holdStep : Orderly (Ready screen) (Ui.ask (.holdStep screen)) fun _ => Ready screen := by
  intro w hf ⟨hcontrol, hhold⟩
  refine ⟨?_, fun w' h => h ▸ hf⟩
  rintro fired w' ⟨pad, nowUs, hfired, rfl⟩
  refine ⟨?_, hcontrol, ?_⟩
  · intro f hmem
    dsimp only at hmem
    split at hmem
    · next hyes =>
      rcases List.mem_append.mp hmem with hmem | hmem
      · exact hf f hmem
      · obtain rfl := List.mem_singleton.mp hmem
        exact ⟨hcontrol.symm, by rw [Fires, ← hhold, ← hfired, hyes]⟩
    · exact hf f hmem
  · dsimp only
    rw [holdAfter_concat, Function.update_self, hhold]
    rfl

/-- The operations that leave every hold alone. -/
theorem quiet {o : UiOp} (ho : ∀ w r w', uiDone o w r w' → w' = w) : Orderly P (Ui.ask o) fun _ => P := by
  intro w hf hp
  refine ⟨fun r w' hd => ?_, fun w' h => h ▸ hf⟩
  obtain rfl := ho w r w' hd
  exact ⟨hf, hp⟩

theorem queueReceive : Orderly P (Ui.ask .queueReceive) fun _ => P := quiet fun _ _ _ => id

theorem menuInput : Orderly P (Ui.ask .menuInput) fun _ => P := quiet fun _ _ _ => id

theorem choice : Orderly P (Ui.ask .choice) fun _ => P := quiet fun _ _ _ => id

/-- A screen that gets control and initialises its hold. -/
theorem opened {f : UiM α} (hf : Orderly (Ready screen) f Q) :
    Orderly P (do Ui.ask (.enter screen); Ui.ask (.holdInit screen); f) Q :=
  bind enter fun _ => bind holdInit fun _ => hf

end Orderly

/-! ## The screens -/

section
variable {P : UiWorld → Prop} {screen : UiScreen}

theorem menuButtonReceive_orderly :
    Orderly (Ready screen) (Ui.menuButtonReceive screen) fun _ => Ready screen :=
  .bind .queueReceive fun _ => .bind .holdStep fun _ => .pure fun _ => id

theorem gamepadTestRounds_orderly (rounds : Nat) :
    Orderly (Ready .gamepadTest) (Ui.gamepadTestRounds rounds) fun _ _ => True := by
  induction rounds with
  | zero => exact .wait
  | succ rounds ih =>
    refine .bind menuButtonReceive_orderly ?_
    rintro (none | msg)
    · refine .bind .choice fun shown => ?_
      split
      · exact ih
      · exact .pure fun _ _ => trivial
    · dsimp only
      split
      · exact .pure fun _ _ => trivial
      · exact ih

theorem gamepadTestLoop_orderly (rounds : Nat) : Orderly P (Ui.gamepadTestLoop rounds) fun _ _ => True :=
  .opened (gamepadTestRounds_orderly rounds)

theorem settingsRounds_orderly (rounds : Nat) (editing : Bool) (selected : Nat) :
    Orderly (Ready .settings) (Ui.settingsRounds rounds editing selected) fun _ _ => True := by
  induction rounds generalizing editing selected with
  | zero => exact .wait
  | succ rounds ih =>
    refine .bind menuButtonReceive_orderly fun board => .bind .menuInput fun pad => ?_
    dsimp only
    split
    · exact ih _ _
    · split
      · exact ih _ _
      · exact .pure fun _ _ => trivial
    · exact ih _ _
    · exact ih _ _
    · split
      · exact ih _ _
      split
      · exact .pure fun _ _ => trivial
      · exact ih _ _

theorem settingsLoop_orderly (rounds : Nat) : Orderly P (Ui.settingsLoop rounds) fun _ _ => True :=
  .opened (settingsRounds_orderly rounds false 0)

theorem homeRounds_orderly (rounds selected : Nat) :
    Orderly P (Ui.homeRounds rounds selected) fun _ _ => True := by
  induction rounds generalizing selected with
  | zero => exact .wait
  | succ rounds ih =>
    refine .bind .queueReceive fun board => .bind .menuInput fun pad => ?_
    split
    · exact ih _
    · exact ih _
    · exact .pure fun _ _ => trivial
    · exact ih _

theorem homeLoop_orderly (rounds : Nat) : Orderly P (Ui.homeLoop rounds) fun _ _ => True :=
  .bind .enter fun _ => homeRounds_orderly rounds 0

theorem receiveUntil_orderly (leaving : ButtonMessage → Bool) (rounds : Nat) :
    Orderly (Ready screen) (Ui.receiveUntil screen leaving rounds) fun _ _ => True := by
  induction rounds with
  | zero => exact .wait
  | succ rounds ih =>
    refine .bind menuButtonReceive_orderly ?_
    rintro (none | msg)
    · exact ih
    · dsimp only
      split
      · exact .pure fun _ _ => trivial
      · exact ih

theorem managementLoop_orderly (rounds : Nat) : Orderly P (Ui.managementLoop rounds) fun _ _ => True := by
  refine .opened (.bind .choice fun started => ?_)
  split
  · exact receiveUntil_orderly _ rounds
  · exact receiveUntil_orderly _ rounds

theorem errorRounds_orderly (rounds : Nat) : Orderly P (Ui.errorRounds rounds) fun _ _ => True := by
  induction rounds with
  | zero => exact .wait
  | succ rounds ih =>
    refine .bind .queueReceive fun msg => ?_
    split
    · exact .pure fun _ _ => trivial
    · exact ih

theorem showError_orderly (rounds : Nat) : Orderly P (Ui.showError rounds) fun _ _ => True :=
  .bind .enter fun _ => errorRounds_orderly rounds

theorem screenOffLoop_orderly : Orderly P Ui.screenOffLoop fun _ _ => True :=
  .bind .enter fun _ => .weaken .choice fun _ _ => trivial

theorem pairingRounds_orderly (rounds : Nat) :
    Orderly (Ready .pairing) (Ui.pairingRounds rounds) fun _ _ => True := by
  induction rounds with
  | zero => exact .wait
  | succ rounds ih =>
    refine .bind menuButtonReceive_orderly ?_
    rintro (none | msg)
    · refine .bind .choice fun connected => ?_
      split
      · exact .pure fun _ _ => trivial
      · exact ih
    · dsimp only
      split
      · refine .bind .choice fun chosen => ?_
        split
        · exact ih
        · exact .pure fun _ _ => trivial
      · exact ih

theorem pairingLoop_orderly (rounds : Nat) : Orderly P (Ui.pairingLoop rounds) fun _ _ => True := by
  refine .opened (.bind .choice fun connected => ?_)
  split
  · exact .pure fun _ _ => trivial
  · exact pairingRounds_orderly rounds

/-! ## The game and its pause -/

/-- A screen goes on with its hold ready. -/
def Continues (screen : UiScreen) : Bool → UiWorld → Prop := fun continued w => continued = true → Ready screen w

/-- The pause goes on with its hold ready, also after another screen. -/
theorem pauseAction_orderly (rounds selected : Nat) (action : MenuAction) :
    Orderly (Ready .pause) (Ui.pauseAction rounds selected action) fun next =>
      Continues .pause next.isRight := by
  cases action with
  | none => exact .pure fun _ h _ => h
  | up => exact .pure fun _ h _ => h
  | down => exact .pure fun _ h _ => h
  | back => exact .bind .choice fun connected => .pure fun _ h _ => h
  | confirm =>
    unfold Ui.pauseAction
    dsimp only
    split
    · exact .bind .choice fun connected => .pure fun _ h _ => h
    split
    · exact .pure fun _ h _ => h
    split
    · exact .bind (settingsLoop_orderly rounds) fun _ => .opened (.pure fun _ h _ => h)
    split
    · refine .bind screenOffLoop_orderly fun woken => .bind .enter fun _ => .bind .choice
        fun connected => ?_
      split
      · exact .pure fun _ _ => nofun
      · exact .bind .holdInit fun _ => .pure fun _ h _ => h
    · exact .bind .choice fun saved => .pure fun _ h _ => h

theorem pauseRounds_orderly (inner rounds selected : Nat) :
    Orderly (Ready .pause) (Ui.pauseRounds inner rounds selected) fun _ _ => True := by
  induction rounds generalizing selected with
  | zero => exact .wait
  | succ rounds ih =>
    refine .bind menuButtonReceive_orderly fun board => .bind .menuInput fun pad => ?_
    split
    · refine .bind .choice fun saved => ?_
      split
      · exact .pure fun _ _ => trivial
      · exact ih selected
    · refine .bind (pauseAction_orderly inner selected _) ?_
      rintro (result | selected')
      · exact .pure fun _ _ => trivial
      · exact .weaken (ih selected') fun _ h => h rfl

theorem pauseGame_orderly (rounds : Nat) : Orderly P (Ui.pauseGame rounds) fun _ _ => True :=
  .opened (pauseRounds_orderly rounds rounds 0)

theorem pauseAndResume_orderly (rounds : Nat) : Orderly P (Ui.pauseAndResume rounds) (Continues .game) := by
  refine .bind (pauseGame_orderly rounds) fun continued => .bind .enter fun _ => ?_
  split
  · exact .pure fun _ _ => nofun
  refine .bind .choice fun resumed => ?_
  split
  · exact .bind (showError_orderly rounds) fun _ => .pure fun _ _ => nofun
  · exact .bind .holdInit fun _ => .pure fun _ h _ => h

theorem gameRounds_orderly (inner rounds : Nat) :
    Orderly (Ready .game) (Ui.gameRounds inner rounds) fun _ _ => True := by
  induction rounds with
  | zero => exact .wait
  | succ rounds ih =>
    have hpause : Orderly (Ready .game) (do
        let continued ← Ui.pauseAndResume inner
        if continued then Ui.gameRounds inner rounds else pure ()) fun _ _ => True := by
      refine .bind (pauseAndResume_orderly inner) fun continued => ?_
      split
      · next hyes => exact .weaken ih fun _ h => h hyes
      · exact .pure fun _ _ => trivial
    refine .bind .choice fun asked => .bind .holdStep fun held => ?_
    split
    · refine .bind .choice fun stopped => ?_
      split
      · exact showError_orderly inner
      · exact hpause
    · refine .bind .choice fun played => ?_
      split
      · exact showError_orderly inner
      refine .bind .choice fun saved => ?_
      split
      · exact ih
      · exact hpause

theorem launchGame_orderly (rounds : Nat) :
    Orderly (fun w => w.control = .game) (Ui.launchGame rounds) fun _ _ => True := by
  refine .bind .choice fun launched => ?_
  split
  · exact showError_orderly rounds
  · exact .bind .holdInit fun _ => gameRounds_orderly rounds rounds

theorem runGame_orderly (rounds : Nat) : Orderly P (Ui.runGame rounds) fun _ _ => True := by
  refine .bind .enter fun _ => .bind .choice fun listed => ?_
  split
  · exact .pure fun _ _ => trivial
  refine .bind .choice fun loaded => ?_
  split
  · exact showError_orderly rounds
  refine .bind .choice fun connected => ?_
  split
  · exact launchGame_orderly rounds
  refine .bind (pauseGame_orderly rounds) fun continued => .bind .enter fun _ => ?_
  split
  · exact launchGame_orderly rounds
  · exact .pure fun _ _ => trivial

/-! ## The menu and the whole -/

theorem emptyMenuRounds_orderly (rounds : Nat) :
    Orderly (Ready .menu) (Ui.emptyMenuRounds rounds) fun _ _ => True := by
  induction rounds with
  | zero => exact .wait
  | succ rounds ih =>
    refine .bind .choice fun connected => ?_
    split
    · exact .pure fun _ _ => trivial
    refine .bind menuButtonReceive_orderly fun board => ?_
    split
    · exact .pure fun _ _ => trivial
    · exact ih

theorem menuRounds_orderly (inner rounds : Nat) :
    Orderly (Ready .menu) (Ui.menuRounds inner rounds) fun _ _ => True := by
  induction rounds with
  | zero => exact .wait
  | succ rounds ih =>
    refine .bind .choice fun empty => ?_
    split
    · exact emptyMenuRounds_orderly inner
    refine .bind menuButtonReceive_orderly fun board => .bind .choice fun connected => ?_
    split
    · exact .pure fun _ _ => trivial
    refine .bind .menuInput fun pad => ?_
    split
    · exact .pure fun _ _ => trivial
    generalize Ui.menuChoice board _ = action
    split
    · exact .bind (runGame_orderly inner) fun _ => .opened ih
    · exact ih

theorem menuLoop_orderly (rounds : Nat) : Orderly P (Ui.menuLoop rounds) fun _ _ => True :=
  .opened (menuRounds_orderly rounds rounds)

theorem inputEntryLoop_orderly (rounds : Nat) : Orderly P (Ui.inputEntryLoop rounds) fun _ _ => True := by
  refine .bind .choice fun connected => ?_
  split
  · exact menuLoop_orderly rounds
  refine .bind (pairingLoop_orderly rounds) fun paired => ?_
  split
  · exact menuLoop_orderly rounds
  · exact .pure fun _ _ => trivial

theorem appMain_orderly (inner rounds : Nat) : Orderly P (Ui.appMain inner rounds) fun _ _ => True := by
  induction rounds generalizing P with
  | zero => exact .wait
  | succ rounds ih =>
    refine .bind (homeLoop_orderly inner) fun choice => ?_
    split
    · exact .bind (inputEntryLoop_orderly inner) fun _ => ih
    split
    · exact .bind (managementLoop_orderly inner) fun _ => ih
    split
    · exact .bind (gamepadTestLoop_orderly inner) fun _ => ih
    · exact .bind (settingsLoop_orderly inner) fun _ => ih

end

/-! ## The long press -/

/-- Started with nothing recorded, a screen fires only while it has control, and by the gesture since
control passed to it. -/
theorem appMain_fires {inner rounds : Nat} {w w' : UiWorld} {out : Option Unit} (hw : w.firings = [])
    (he : (Ui.appMain inner rounds).Exec uiDevice w out w') :
    ∀ f ∈ w'.firings, f.screen = f.control ∧ Gesture f.since f.pad f.nowUs := by
  have hstart : FiredInControl w := by
    intro f hf
    rw [hw] at hf
    cases hf
  have hpost := Prog.wp_exec (appMain_orderly (P := fun _ => True) inner rounds w hstart trivial) he
  have hfired : FiredInControl w' := by
    cases out with
    | some a => exact hpost.1
    | none => exact hpost
  intro f hf
  obtain ⟨hcontrol, hfires⟩ := hfired f hf
  exact ⟨hcontrol, (fires_iff _ _ _).mp hfires⟩

/-- The long press of Select, for every initialisation and every sequence of samples, with further
initialisations anywhere: a step answers true exactly on the gesture. Two firings have a release
between them; a hold that is down at an initialisation, at a reconnect, or when control passes to a
screen of the device does not fire before Select is seen up; and one hold fires at most once. -/
theorem selectPause_gesture :
    (∀ pad0 events pad nowUs, Fires (.init pad0 :: events) pad nowUs ↔ Gesture (.init pad0 :: events) pad nowUs) ∧
      (∀ earlier pad nowUs between pad' nowUs', Fires earlier pad nowUs →
        Fires (earlier ++ .step pad nowUs :: between) pad' nowUs' → ∃ e ∈ between, e.pad.SelectUp) ∧
      (∀ earlier pad0 since pad nowUs, Fires (earlier ++ .init pad0 :: since) pad nowUs →
        ∃ e ∈ .init pad0 :: since, e.pad.SelectUp) ∧
      (∀ earlier (e : HoldEvent) since pad nowUs, ¬ e.pad.connected → Fires (earlier ++ e :: since) pad nowUs →
        ∃ e' ∈ since, e'.pad.SelectUp) ∧
      (∀ timeline held, (∀ x ∈ held, x.1.SelectDown) → firings (holdAfter timeline) held ≤ 1) ∧
      (∀ inner rounds (w w' : UiWorld) out, w.firings = [] → (Ui.appMain inner rounds).Exec uiDevice w out w' →
        ∀ f ∈ w'.firings, f.screen = f.control ∧ Gesture f.since f.pad f.nowUs ∧ ∃ e ∈ f.since, e.pad.SelectUp) := by
  refine ⟨fun pad0 events => fires_iff _, ?_, ?_, ?_, fun timeline held => firings_le_one _, ?_⟩
  · intro earlier pad nowUs between pad' nowUs' hfired hfires
    exact released_after_fired hfired hfires
  · intro earlier pad0 since pad nowUs hfires
    exact released_after_init hfires
  · intro earlier e since pad nowUs hgone hfires
    exact released_after_disconnect hgone hfires
  · intro inner rounds w w' out hw he f hf
    obtain ⟨hcontrol, hgesture⟩ := appMain_fires hw he f hf
    obtain ⟨before, released, held, hwaiting, -⟩ := id hgesture
    exact ⟨hcontrol, hgesture, released, by simp [hwaiting.split], hwaiting.up⟩

/-- Released, pressed at 0 and held for a second. -/
example : Fires [.init { connected := true }, .step { connected := true, view := true } 0]
    { connected := true, view := true }
    GB_SELECT_PAUSE_US := rfl

end FoloGameboy

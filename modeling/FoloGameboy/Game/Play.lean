/-
`run_game` and `pause_game`: a game from its opening to the destruction of its session, over the port,
the save files, the inputs, the display and the audio of the device. What is only logged or counted
for the log, and the pace of the frames, is left out.
-/
import FoloGameboy.Game.Input
import FoloGameboy.Saves.Saves

namespace FoloGameboy

open Effect

/-! ## Operations -/

/-- Why `run_game` gives up. -/
inductive GameError where
  | open | create | savesUnavailable | saveCorrupt | animation
  | audioStart | screen | audioStop | stepFrame | audioOutput
deriving DecidableEq

def GameError.text : GameError → String
  | .open => "游戏文件校验失败"
  | .create => "游戏不支持/内存不足"
  | .savesUnavailable => "存档空间不可用"
  | .saveCorrupt => "存档副本损坏"
  | .animation => "启动动画失败"
  | .audioStart => "声音启动失败"
  | .screen => "屏幕传输失败"
  | .audioStop => "声音停止失败"
  | .stepFrame => "游戏读取失败"
  | .audioOutput => "声音输出失败"

/-- What the game screen calls. `audioStop` says whether its answer is looked at. -/
inductive GameOp where
  -- the port and the saves of the session
  | storageEntry (index : Nat)
  | storageOpen (index : Nat)
  | portCreate
  | savesReady
  | savesLoad
  | savesWrite
  | hasBattery
  | needsSave
  | isCgb
  | setKeys (keys : Keys)
  | stepFrame (render : Bool)
  | audioFrame (capacity : Nat)
  | portDestroy
  -- inputs
  | gamepadSnapshot
  | gamepadFrameSnapshot
  | setGameplay (enabled : Bool)
  | timer
  /-- `xQueueReceive` with a timeout. -/
  | queueReceive
  /-- All messages that wait. -/
  | queueDrain
  -- settings and other screens
  | sound
  | settingsLoop
  | screenOffLoop
  | showUi (title hint : String) (selected : Nat)
  | showError (reason : String)
  | bootAnimation
  -- outputs
  | audioStart (volume : UInt8)
  | audioStop (checked : Bool)
  | audioHealthy
  | audioSubmit
  | displayClear
  | displayGameHint
  | displayIdle
  | colorFrame
  | submitFrame

/-- Displays answer `none` for an error; `sound` answers whether it is enabled, and the volume. -/
abbrev GameRes : GameOp → Type
  | .savesLoad => SaveResult
  | .audioFrame _ => Nat
  | .gamepadSnapshot => PadSample
  | .gamepadFrameSnapshot => PadSample
  | .timer => Int
  | .queueReceive => Option ButtonMessage
  | .queueDrain => List ButtonMessage
  | .sound => Bool × UInt8
  | .displayIdle => Option Bool
  | .submitFrame => Option Bool
  | .setKeys _ => Unit
  | .portDestroy => Unit
  | .setGameplay _ => Unit
  | .settingsLoop => Unit
  | .showUi _ _ _ => Unit
  | .showError _ => Unit
  | .audioSubmit => Unit
  | _ => Bool

abbrev GameM : Type → Type := Prog GameOp GameRes

def ask (o : GameOp) : GameM (GameRes o) := Prog.op o

/-! ## `pause_game` -/

/-- `menu_button_receive`: a held Select is a long OK. -/
def menuButtonReceive (hold : SelectPause) : GameM (Option ButtonMessage × SelectPause) := do
  let received ← ask .queueReceive
  let pad ← ask .gamepadSnapshot
  let now ← ask .timer
  let (fired, hold) := gbSelectPauseStep hold pad now
  pure (if fired then some ⟨.ok, .long⟩ else received, hold)

structure PauseState where
  selectBack : SelectPause
  padInput : MenuInput
  selected : Nat
  connected : Bool
  hint : String

def syncFailed : String := "同步失败，进度仅在内存"
def reconnect : String := "请重新连接输入设备"

/-- The hint of a cartridge with or without a battery. -/
def batteryHint (battery : Bool) : String := if battery then "游戏内存档，重进后读取" else "此游戏无电池存档"

/-- Both inputs start over. -/
def resetInputs (st : PauseState) : GameM PauseState := do
  let held ← ask .gamepadSnapshot
  let pad ← ask .gamepadSnapshot
  pure { st with selectBack := gbSelectPauseInit held, padInput := gbMenuInputInit pad }

/-- Leaving the game: only with what there is to save written. -/
def leavePaused (st : PauseState) : GameM (Bool ⊕ PauseState) := do
  let saved ← ask .savesWrite
  pure (if saved then .inl false else .inr { st with hint := syncFailed })

/-- The item of the menu that was confirmed. -/
def confirmPaused (battery : Bool) (pad : PadSample) (st : PauseState) : GameM (Bool ⊕ PauseState) := do
  if st.selected = 0 then
    pure (if pad.connected then .inl true else .inr { st with hint := reconnect })
  else if st.selected = 1 then
    if ¬ battery then pure (.inr { st with hint := "此游戏无电池存档" })
    else
      let needed ← ask .needsSave
      if ¬ needed then pure (.inr { st with hint := "没有新存档" })
      else
        let saved ← ask .savesWrite
        pure (.inr { st with hint := if saved then "同步完成，重进后读取" else syncFailed })
  else if st.selected = 2 then
    ask .settingsLoop
    let st ← resetInputs st
    pure (.inr { st with hint := batteryHint battery })
  else if st.selected = 3 then
    let woken ← ask .screenOffLoop
    if ¬ woken then
      let st ← resetInputs { st with hint := "息屏恢复失败，请重试" }
      pure (.inr st)
    else
      let pad ← ask .gamepadSnapshot
      if pad.connected then pure (.inl true)
      else
        let st ← resetInputs { st with hint := reconnect }
        pure (.inr st)
  else leavePaused st

def showPaused (redraw : Bool) (st : PauseState) : GameM Unit :=
  if redraw then
    ask (.showUi (if st.connected then "游戏暂停" else "输入设备断开")
      (if st.selected = 3 then "任意按键唤醒" else st.hint) st.selected)
  else pure ()

/-- What the board and the pad ask for. -/
def pauseAction (battery : Bool) (board : Option ButtonMessage)
    (action : MenuAction) (pad : PadSample) (st : PauseState) :
    GameM (Bool ⊕ PauseState) :=
  if board = some ⟨.ok, .long⟩ then leavePaused st
  else
    match action with
    | .none => pure (.inr st)
    | .up => pure (.inr { st with selected := (st.selected + 4) % 5 })
    | .down => pure (.inr { st with selected := (st.selected + 1) % 5 })
    | .back => pure (if pad.connected then .inl true else .inr { st with hint := reconnect })
    | .confirm => confirmPaused battery pad st

/-- One iteration: what `pause_game` returns, or the next state. -/
def pauseStep (battery : Bool) (st : PauseState) : GameM (Bool ⊕ PauseState) := do
  let (board, selectBack) ← menuButtonReceive st.selectBack
  let pad ← ask .gamepadSnapshot
  let (padAction, padInput) := gbMenuInputStep st.padInput pad
  let st := { st with selectBack := selectBack, padInput := padInput }
  let boardAction := (board.map boardMenuAction).getD .none
  let action := if boardAction = .none then padAction else boardAction
  match ← pauseAction battery board action pad st with
  | .inl result => pure (.inl result)
  | .inr next => do
    let now ← ask .gamepadSnapshot
    let next' := { next with connected := now.connected }
    showPaused (board.isSome || action ≠ .none || now.connected ≠ next.connected) next'
    pure (.inr next')

/-- The loop of `pause_game`, for at most `fuel` iterations. -/
def pauseLoop (battery : Bool) : (fuel : Nat) → PauseState → GameM (Option Bool)
  | 0, _ => pure none
  | fuel + 1, st => do
    match ← pauseStep battery st with
    | .inl result => pure (some result)
    | .inr st => pauseLoop battery fuel st

/-- `pause_game`: true to go on, false to leave. -/
def pauseGame (fuel : Nat) (connected : Bool) : GameM (Option Bool) := do
  let held ← ask .gamepadSnapshot
  ask (.setGameplay false)
  let battery ← ask .hasBattery
  let saved ← ask .savesWrite
  let hint := if saved then batteryHint battery else syncFailed
  ask (.showUi (if connected then "游戏暂停" else "输入设备断开") hint 0)
  let pad ← ask .gamepadSnapshot
  pauseLoop battery fuel
    { selectBack := gbSelectPauseInit held, padInput := gbMenuInputInit pad,
      selected := 0, connected := connected, hint := hint }

/-! ## `run_game` -/

/-- How `run_game` returns. -/
inductive Exit where
  | notListed
  | left
  | error (e : GameError)

/-- `destroy_game_session`. -/
def destroyGameSession : GameM Unit := do
  ask (.setGameplay false)
  ask .portDestroy

/-- An audio output that runs is stopped, whatever comes of it. -/
def silence (audioEnabled : Bool) : GameM Unit := do
  if audioEnabled then
    let _ ← ask (.audioStop false)
    pure ()
  else pure ()

/-- The session is destroyed and the error shown. -/
def giveUp (e : GameError) : GameM Exit := do
  destroyGameSession
  ask (.showError e.text)
  pure (.error e)

def prepareGameScreen : GameM Bool := do
  let cleared ← ask .displayClear
  if cleared then ask .displayGameHint else pure false

def startAudio (audioEnabled : Bool) (volume : UInt8) : GameM Bool :=
  if audioEnabled then ask (.audioStart volume) else pure true

/-- What precedes the frames, at the start and after each pause: the audio, if it is on, and the
screen; with why it fails. -/
def startOutput : GameM (Bool × Option GameError) := do
  let (enabled, volume) ← ask .sound
  let audioEnabled := enabled && 0 < volume
  let started ← startAudio audioEnabled volume
  if ¬ started then pure (audioEnabled, some .audioStart)
  else
    let prepared ← prepareGameScreen
    if ¬ prepared then
      silence audioEnabled
      pure (audioEnabled, some .screen)
    else pure (audioEnabled, none)

structure GameState where
  audioEnabled : Bool
  lastSave : Int
  audioEpoch : Int
  audioBlocks : UInt64 := 0
  pacing : FramePacing := {}
  selectPause : SelectPause

/-- The pause is over. -/
def resumeGame (resetPacing : Bool) (st : GameState) : GameM (Exit ⊕ GameState) := do
  let (audioEnabled, failed) ← startOutput
  match failed with
  | some e =>
    let exit ← giveUp e
    pure (.inl exit)
  | none =>
    let next ← ask .timer
    ask (.setGameplay true)
    let pad ← ask .gamepadSnapshot
    pure (.inr { st with
      audioEnabled := audioEnabled
      audioEpoch := next
      audioBlocks := 0
      pacing := if resetPacing then {} else st.pacing
      selectPause := gbSelectPauseInit pad })

/-- The end of `run_game` after the loop. -/
def leaveGame (audioEnabled : Bool) : GameM Exit := do
  silence audioEnabled
  destroyGameSession
  pure .left

/-- A block is complete, and the output takes it. -/
def blockHealthy (produced : Nat) : GameM Bool := if produced ≠ GB_AUDIO_SAMPLES then pure false else ask .audioHealthy

/-- The audio blocks that are due; nothing when the output fails. -/
def playBlocks : (due : Nat) → (blocks : UInt64) → GameM (Option UInt64)
  | 0, blocks => pure (some blocks)
  | due + 1, blocks => do
    let produced ← ask (.audioFrame GB_AUDIO_SAMPLES)
    let healthy ← blockHealthy produced
    if ¬ healthy then pure none
    else
      ask .audioSubmit
      playBlocks due (blocks + 1)

def playAudio (st : GameState) : GameM (Option UInt64) := do
  if st.audioEnabled then
    let now ← ask .timer
    playBlocks (gbAudioBlocksDue (UInt64.ofInt (now - st.audioEpoch)) st.audioBlocks) st.audioBlocks
  else pure (some st.audioBlocks)

/-- A frame is handed to the display: whether it was queued, or nothing on an error. -/
def drawFrame (color : Bool) : GameM (Option Bool) := do
  if color then
    let drawn ← ask .colorFrame
    pure (if drawn then some true else none)
  else ask .submitFrame

/-- A save every 30 seconds; the game pauses when it fails. -/
def autosave (fuel : Nat) (st : GameState) : GameM (Option (Exit ⊕ GameState)) := do
  let saved ← ask .savesWrite
  if saved then
    let now ← ask .timer
    pure (some (.inr { st with lastSave := now }))
  else
    silence st.audioEnabled
    match ← pauseGame fuel true with
    | none => pure none
    | some false => do
      let exit ← leaveGame st.audioEnabled
      pure (some (.inl exit))
    | some true => do
      match ← resumeGame false st with
      | .inl exit => pure (some (.inl exit))
      | .inr st => do
        let now ← ask .timer
        pure (some (.inr { st with lastSave := now }))

/-- A battery cartridge is saved when 30 seconds have passed. -/
def autosaveDue (now : Int) (st : GameState) : GameM Bool :=
  if 30000000 ≤ now - st.lastSave then ask .hasBattery else pure false

/-- The end of an iteration whose frame has been drawn. -/
def finishIteration (fuel : Nat) (started : Int) (st : GameState) : GameM (Option (Exit ⊕ GameState)) := do
  let done ← ask .timer
  let st := { st with pacing := gbFramePacingRecord st.pacing (UInt32.ofInt (done - started)) }
  let now ← ask .timer
  let due ← autosaveDue now st
  if due then autosave fuel st else pure (some (.inr st))

/-- The frame, its sound and its picture. -/
def playIteration (fuel : Nat) (color : Bool) (keys : Keys) (st : GameState) : GameM (Option (Exit ⊕ GameState)) := do
  ask (.setKeys keys)
  let failed (e : GameError) : GameM (Option (Exit ⊕ GameState)) := do
    let exit ← giveUp e
    pure (some (.inl exit))
  match ← ask .displayIdle with
  | none => do
    silence st.audioEnabled
    failed .screen
  | some idle => do
    let draw := idle && gbFramePacingDraw st.pacing
    let started ← ask .timer
    let stepped ← ask (.stepFrame draw)
    if ¬ stepped then
      silence st.audioEnabled
      failed .stepFrame
    else
      match ← playAudio st with
      | none => do
        silence true
        failed .audioOutput
      | some blocks => do
        let st := { st with audioBlocks := blocks }
        if draw then
          match ← drawFrame color with
          | none => do
            silence st.audioEnabled
            failed .screen
          | some queued =>
            finishIteration fuel started (if queued then { st with pacing := gbFramePacingMarkDrawn st.pacing } else st)
        else finishIteration fuel started st

def stopAudio (audioEnabled : Bool) : GameM Bool := if audioEnabled then ask (.audioStop true) else pure true

/-- The game is paused from the loop. -/
def pauseIteration (fuel : Nat) (connected : Bool) (st : GameState) : GameM (Option (Exit ⊕ GameState)) := do
  ask (.setKeys {})
  let stopped ← stopAudio st.audioEnabled
  if ¬ stopped then
    let exit ← giveUp .audioStop
    pure (some (.inl exit))
  else
    match ← pauseGame fuel connected with
    | none => pure none
    | some false => do
      let exit ← leaveGame st.audioEnabled
      pure (some (.inl exit))
    | some true => do
      let next ← resumeGame true st
      pure (some next)

/-- One iteration of the loop of `run_game`. -/
def gameIteration (fuel : Nat) (color : Bool) (st : GameState) : GameM (Option (Exit ⊕ GameState)) := do
  let messages ← ask .queueDrain
  let board := messages.foldl pollButton {}
  let pad ← ask .gamepadFrameSnapshot
  let live ← ask .gamepadSnapshot
  let now ← ask .timer
  let (selectHeld, selectPause) := gbSelectPauseStep st.selectPause live now
  let st := { st with selectPause := selectPause }
  if board.pause ∨ selectHeld ∨ ¬ pad.connected then pauseIteration fuel pad.connected st
  else
    let keys := gbInputMap pad
    playIteration fuel color { keys with start := keys.start || board.start, select := keys.select || board.select } st

/-- The loop of `run_game`, for at most `fuel` iterations of it and of each pause. -/
def gameLoop (fuel : Nat) (color : Bool) : (iterations : Nat) → GameState → GameM (Option Exit)
  | 0, _ => pure none
  | iterations + 1, st => do
    match ← gameIteration fuel color st with
    | none => pure none
    | some (.inl exit) => pure (some exit)
    | some (.inr st) => gameLoop fuel color iterations st

/-- The save of a battery cartridge is loaded; nothing, or why not. -/
def loadSave : GameM (Option GameError) := do
  let battery ← ask .hasBattery
  if ¬ battery then pure none
  else
    let ready ← ask .savesReady
    if ¬ ready then pure (some .savesUnavailable)
    else
      let result ← ask .savesLoad
      pure (if result = .error then some .saveCorrupt else none)

/-- From the launch animation on. -/
def launchGame (fuel : Nat) : GameM (Option Exit) := do
  let animated ← ask .bootAnimation
  if ¬ animated then
    let exit ← giveUp .animation
    pure (some exit)
  else
    let _ ← ask .queueDrain
    let color ← ask .isCgb
    let (audioEnabled, failed) ← startOutput
    match failed with
    | some e =>
      let exit ← giveUp e
      pure (some exit)
    | none =>
      ask (.setGameplay true)
      let next ← ask .timer
      let pad ← ask .gamepadSnapshot
      gameLoop fuel color fuel
        { audioEnabled := audioEnabled, lastSave := next, audioEpoch := next, selectPause := gbSelectPauseInit pad }

/-- Without an input device the game starts paused. -/
def awaitInput (fuel : Nat) (pad : PadSample) : GameM (Option Bool) :=
  if pad.connected then pure (some true) else pauseGame fuel false

/-- `run_game`; nothing when `fuel` iterations of a loop were not enough. -/
def runGame (fuel index : Nat) : GameM (Option Exit) := do
  let listed ← ask (.storageEntry index)
  if ¬ listed then pure (some .notListed)
  else
    ask (.showUi "加载游戏" "正在检查游戏" 0)
    let opened ← ask (.storageOpen index)
    if ¬ opened then
      ask (.showError GameError.open.text)
      pure (some (.error .open))
    else
      let created ← ask .portCreate
      if ¬ created then
        ask (.showError GameError.create.text)
        pure (some (.error .create))
      else
        match ← loadSave with
        | some e => do
          let exit ← giveUp e
          pure (some exit)
        | none => do
          let pad ← ask .gamepadSnapshot
          match ← awaitInput fuel pad with
          | none => pure none
          | some false => do
            destroyGameSession
            pure (some .left)
          | some true => launchGame fuel

end FoloGameboy

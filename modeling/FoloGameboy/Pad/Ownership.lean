/-
Who controls the game: over every schedule of the Bluetooth thread and the other tasks, only the
selected device that became ready, and after its disconnection nothing is pressed until the next one.
-/
import FoloGameboy.Pad.Gamepad

namespace FoloGameboy

open Effect

/-! ## States without a controller -/

/-- No controller, and nothing pressed, in the live sample, the tester and the buffer. -/
structure Neutral (s : PadState) : Prop where
  sample : s.sample = {}
  test : s.test = {}
  latest : s.inputBuffer.latest = {}
  armed : s.inputBuffer.armed = false

theorem Neutral.frame {s : PadState} (h : Neutral s) (nowUs : Int) :
    gbInputBufferTake s.inputBuffer nowUs = ({}, s.inputBuffer) := by
  unfold gbInputBufferTake
  rw [h.armed, h.latest, if_pos (.inr Bool.false_ne_true)]

theorem released_disconnected : released {} = false := rfl

/-- The live sample is connected if and only if there is an owner, and without one all is released. -/
structure Between (s : PadState) : Prop where
  connected : s.sample.connected = true ↔ s.owner.isSome = true
  neutral : s.owner = none → Neutral s

/-! ## What the other tasks may do -/

/-- The live sample, the tester and the owner are untouched, and a released buffer stays released. -/
structure Interfered (s s' : PadState) : Prop where
  owner : s'.owner = s.owner
  sample : s'.sample = s.sample
  test : s'.test = s.test
  neutral : Neutral s → Neutral s'

theorem Interfered.refl (s : PadState) : Interfered s s := ⟨rfl, rfl, rfl, id⟩

theorem Interfered.trans (a b c : PadState) (h : Interfered a b) (h' : Interfered b c) : Interfered a c :=
  ⟨h'.owner.trans h.owner, h'.sample.trans h.sample, h'.test.trans h.test,
    fun hn => h'.neutral (h.neutral hn)⟩

theorem PadCall.apply_interfered (call : PadCall) (s : PadState) : Interfered s (call.apply s) := by
  cases call with
  | setGameplay enabled =>
    refine ⟨rfl, rfl, rfl, fun h => ⟨h.sample, h.test, h.sample, ?_⟩⟩
    show (enabled && released s.sample) = false
    rw [h.sample, released_disconnected, Bool.and_false]
  | frameSnapshot =>
    refine ⟨rfl, rfl, rfl, fun h => ?_⟩
    have hsame : (gamepadFrameSnapshot s).2 = s := by
      unfold gamepadFrameSnapshot
      rw [h.frame]
    exact (congrArg Neutral hsame).mpr h
  | beginDiscovery =>
    simp only [PadCall.apply, gamepadBeginDiscovery]
    split
    · exact ⟨rfl, rfl, rfl, fun h => ⟨h.sample, h.test, h.latest, h.armed⟩⟩
    · exact .refl s
  | discovery op => exact ⟨rfl, rfl, rfl, fun h => ⟨h.sample, h.test, h.latest, h.armed⟩⟩
  | tick nowUs => exact ⟨rfl, rfl, rfl, fun h => ⟨h.sample, h.test, h.latest, h.armed⟩⟩

theorem Between.interfered {s s' : PadState} (h : Between s) (hs : Interfered s s') : Between s' := by
  refine ⟨?_, fun howner => hs.neutral (h.neutral (hs.owner ▸ howner))⟩
  rw [hs.sample, hs.owner]
  exact h.connected

/-! ## The operations of a callback -/

/-- The live sample, the tester and the buffer are the same. -/
structure SameInput (s s' : PadState) : Prop where
  sample : s'.sample = s.sample
  test : s'.test = s.test
  inputBuffer : s'.inputBuffer = s.inputBuffer

theorem SameInput.neutral {s s' : PadState} (h : SameInput s s') (hn : Neutral s) : Neutral s' :=
  ⟨h.sample.trans hn.sample, h.test.trans hn.test, h.inputBuffer ▸ hn.latest, h.inputBuffer ▸ hn.armed⟩

theorem Between.sameInput {s s' : PadState} (h : Between s) (howner : s'.owner = s.owner)
    (hs : SameInput s s') : Between s' := by
  refine ⟨?_, fun hnone => hs.neutral (h.neutral (howner ▸ hnone))⟩
  rw [hs.sample, howner]
  exact h.connected

/-- The device of a ready callback may become the owner: there is none, it is a gamepad or a keyboard, and
it was the selected device when the callback looked. -/
structure Entitled (callback : PadCallback) (device : PadDevice)
    (log : List (PadOp × PadState)) (s : PadState) (slot : Nat) :
    Prop where
  free : s.owner = none
  ready : ∃ state : ReadyDevice, callback = .ready slot state ∧ (state.gamepad = true ∨ state.keyboard = true)
  selected : ∃ s₁ : PadState, (PadOp.checkSelected device.address, s₁) ∈ log ∧
    gamepadDiscoveryShouldConnect s₁.discovery device.address = true

/-- What every operation of a callback keeps. -/
structure CallbackGuard (callback : PadCallback) (device : PadDevice)
    (log : List (PadOp × PadState)) (o : PadOp) (s : PadState) :
    Prop where
  owns : ∀ slot, s.owner ≠ some slot → (padHandle o s).2.owner = some slot → Entitled callback device log s slot
  others : ∀ slot ctl, callback = .data slot ctl → s.owner ≠ some slot → SameInput s (padHandle o s).2
  neutral : Neutral s → s.owner = none → (padHandle o s).2.owner = none → Neutral (padHandle o s).2

theorem CallbackGuard.quiet {callback : PadCallback} {device : PadDevice}
    {log : List (PadOp × PadState)} {o : PadOp} {s : PadState}
    (howner : (padHandle o s).2.owner = s.owner) (hsame : SameInput s (padHandle o s).2) :
    CallbackGuard callback device log o s :=
  ⟨fun _ hother howns => absurd (howner ▸ howns) hother, fun _ _ _ _ => hsame,
    fun hn _ _ => hsame.neutral hn⟩

/-- The next operation, after one that is not about the input. -/
theorem Between.next {o : PadOp} {s s' : PadState} (h : Between s) (hs : Interfered (padHandle o s).2 s')
    (howner : (padHandle o s).2.owner = s.owner) (hsame : SameInput s (padHandle o s).2) : Between s' :=
  (h.sameInput howner hsame).interfered hs

theorem checkSelected_quiet {callback : PadCallback} {device : PadDevice}
    {log : List (PadOp × PadState)} (address : Vector UInt8 6)
    (s : PadState) : CallbackGuard callback device log (.checkSelected address) s := by
  have hsame : (padHandle (.checkSelected address) s).2.owner = s.owner ∧
      SameInput s (padHandle (.checkSelected address) s).2 := by
    simp only [padHandle]
    split <;> exact ⟨rfl, rfl, rfl, rfl⟩
  exact .quiet hsame.1 hsame.2

/-- Where a callback ends. -/
structure CallbackEnd (callback : PadCallback) (log : List (PadOp × PadState)) (s : PadState) : Prop where
  between : Between s
  gone : ∀ slot, callback = .disconnected slot → s.owner ≠ some slot
  released : ∀ slot s₁, callback = .disconnected slot → (PadOp.owner, s₁) ∈ log → s₁.owner = some slot → s.owner = none

theorem CallbackEnd.of_between {callback : PadCallback} {log : List (PadOp × PadState)}
    {s : PadState} (h : Between s)
    (hother : ∀ slot, callback ≠ .disconnected slot) : CallbackEnd callback log s :=
  ⟨h, fun slot hc => absurd hc (hother slot), fun slot _ hc => absurd hc (hother slot)⟩

/-- The rest of a callback keeps what its operations keep and ends where a callback ends. -/
abbrev Upholds (callback : PadCallback) (device : PadDevice)
    (rest : PadProg Unit) (log : List (PadOp × PadState)) (s : PadState) : Prop :=
  rest.Guarded padHandle Interfered (CallbackGuard callback device) (fun log _ s => CallbackEnd callback log s) log s

/-! ## The callbacks -/

theorem deviceDisconnected_guarded (slot : Nat) (device : PadDevice) {s : PadState} (hs : Between s) :
    Upholds (.disconnected slot) device (deviceDisconnected slot device.address) [] s := by
  intro s₁ h₁
  refine ⟨.quiet rfl ⟨rfl, rfl, rfl⟩, ?_⟩
  intro s₂ h₂
  have hs₂ : Between s₂ := (hs.interfered h₁).next h₂ rfl ⟨rfl, rfl, rfl⟩
  refine ⟨.quiet rfl ⟨rfl, rfl, rfl⟩, ?_⟩
  -- only the owner lets go, and leaves a neutral sample behind
  by_cases howner : s₂.owner = some slot
  · have hgo : ¬ s₂.owner ≠ some slot := not_not.mpr howner
    dsimp only [padHandle, Prog.bind]
    rw [if_neg hgo]
    intro s₃ h₃
    have howner₃ : s₃.owner = some slot := h₃.owner.trans howner
    have howned₃ : s₃.owner ≠ none := howner₃ ▸ nofun
    refine ⟨⟨nofun, nofun, fun _ h => absurd h howned₃⟩, ?_⟩
    intro s₄ h₄
    refine ⟨⟨fun _ _ h => absurd (h₄.owner.symm.trans h) nofun, nofun,
      fun h _ _ => ⟨h.sample, rfl, h.latest, h.armed⟩⟩, ?_⟩
    intro s₅ h₅
    have howner₅ : s₅.owner = none := h₅.owner.trans h₄.owner
    have hneutral :
      Neutral { s₅ with
      sample := {}, inputBuffer := gbInputBufferPush s₅.inputBuffer {} s₅.nowUs } :=
      ⟨rfl, h₅.test, rfl, rfl⟩
    refine ⟨⟨fun _ _ h => absurd (howner₅.symm.trans h) nofun, nofun, fun _ _ _ => hneutral⟩, ?_⟩
    intro s₆ h₆
    have howner₆ : s₆.owner = none := h₆.owner.trans howner₅
    have hneutral₆ : Neutral s₆ := h₆.neutral hneutral
    refine ⟨⟨?_, fun _ => hneutral₆⟩, fun _ _ => howner₆ ▸ nofun, fun _ _ _ _ _ => howner₆⟩
    rw [hneutral₆.sample, howner₆]
    exact Iff.rfl
  · dsimp only [padHandle, Prog.bind]
    rw [if_pos howner]
    intro s₃ h₃
    refine ⟨hs₂.interfered h₃, fun slot' hc => ?_, fun slot' s' hc hmem howner' => ?_⟩
    · cases hc
      exact h₃.owner ▸ howner
    · cases hc
      have hread : s' = s₂ := by simpa using hmem
      exact absurd (hread ▸ howner') howner

theorem deviceReady_guarded (slot : Nat) (device : PadDevice) (ready : ReadyDevice) {s : PadState}
    (hs : Between s) :
    Upholds (.ready slot ready) device (PadCallback.program device.address (.ready slot ready)) [] s := by
  have hend : ∀ {log : List (PadOp × PadState)} {s : PadState}, Between s →
    CallbackEnd (.ready slot ready) log s :=
    fun h => .of_between h fun _ => nofun
  intro s₁ h₁
  have hs₁ := hs.interfered h₁
  refine ⟨.quiet rfl ⟨rfl, rfl, rfl⟩, ?_⟩
  dsimp only [padHandle, Prog.bind]
  by_cases hother : s₁.owner ≠ none ∧ s₁.owner ≠ some slot
  · rw [if_pos hother]
    exact fun s₂ h₂ => hend (hs₁.interfered h₂)
  rw [if_neg hother]
  intro s₂ h₂
  have hs₂ := hs₁.interfered h₂
  refine ⟨checkSelected_quiet device.address s₂, ?_⟩
  have hchecked : (padHandle (.checkSelected device.address) s₂).2.owner = s₂.owner ∧
      SameInput s₂ (padHandle (.checkSelected device.address) s₂).2 := by
    simp only [padHandle]
    split <;> exact ⟨rfl, rfl, rfl, rfl⟩
  have hselected : (padHandle (.checkSelected device.address) s₂).1 =
      gamepadDiscoveryShouldConnect s₂.discovery device.address := rfl
  generalize (padHandle (.checkSelected device.address) s₂).1 = selected at hselected ⊢
  generalize (padHandle (.checkSelected device.address) s₂).2 = s₂' at hchecked ⊢
  have hs₂' : Between s₂' := hs₂.sameInput hchecked.1 hchecked.2
  by_cases hdeclined : ¬ selected = true ∨ ¬ ready.gamepad = true ∧ ¬ ready.keyboard = true
  · dsimp only [Prog.bind]
    rw [if_pos hdeclined]
    exact fun s₃ h₃ => hend (hs₂'.interfered h₃)
  dsimp only [Prog.bind]
  rw [if_neg hdeclined]
  rw [not_or, not_not, not_and_or, not_not, not_not] at hdeclined
  intro s₃ h₃
  -- nobody took the device's place since the callback looked
  have howner₃ : s₃.owner = s₁.owner := h₃.owner.trans (hchecked.1.trans h₂.owner)
  refine ⟨⟨fun slot' hne howns => ?_, nofun, fun _ _ h => absurd h nofun⟩, ?_⟩
  · cases howns
    have hfree : s₃.owner = none := by
      by_contra h
      exact hother ⟨howner₃ ▸ h, howner₃ ▸ hne⟩
    exact ⟨hfree, ⟨ready, rfl, hdeclined.2⟩, s₂, List.mem_cons_self, hselected ▸ hdeclined.1⟩
  intro s₄ h₄
  have howner₄ : s₄.owner = some slot := h₄.owner
  have howned₄ : s₄.owner ≠ none := howner₄ ▸ nofun
  refine ⟨⟨fun _ hne h => absurd h hne, nofun, fun _ h => absurd h howned₄⟩, ?_⟩
  intro s₅ h₅
  have howner₅ : s₅.owner = some slot := h₅.owner.trans howner₄
  have howned₅ : s₅.owner ≠ none := howner₅ ▸ nofun
  refine ⟨⟨fun _ hne h => absurd h hne, nofun, fun _ h => absurd h howned₅⟩, ?_⟩
  intro s₆ h₆
  have howner₆ : s₆.owner = some slot := h₆.owner.trans howner₅
  refine hend ⟨?_, fun h => absurd h (howner₆ ▸ nofun)⟩
  rw [h₆.sample, howner₆]
  exact ⟨fun _ => rfl, fun _ => rfl⟩

theorem pressKey_connected (key : UInt8) (out : PadSample) :
    (pressKey key out).connected = out.connected := by
  unfold pressKey
  split_ifs <;> rfl

theorem pressKeys_connected : ∀ (keys : List UInt8) (out : PadSample), out.connected = true →
    (pressKeys out keys).connected = true
  | [], _, h => h
  | key :: keys, out, h => by
    unfold pressKeys
    split
    · rfl
    · exact pressKeys_connected keys _ ((pressKey_connected key _).trans h)

theorem gbInputLeftStick_connected {sample : PadSample} (h : sample.connected = true) (x y : Int) :
    (gbInputLeftStick sample x y).connected = true := by
  unfold gbInputLeftStick
  rw [if_neg (not_not.mpr h)]
  dsimp only
  split <;> split <;> exact h

/-- The report of the owner. -/
theorem report_guarded {slot : Nat} {ctl : UniController} {device : PadDevice}
    {log : List (PadOp × PadState)} {s : PadState}
    (howner : s.owner = some slot) (f : PadState → GamepadTestState) {next : PadSample}
    (hnext : next.connected = true) :
    Upholds (.data slot ctl) device (update (fun s => { s with test := f s }) >>=
      fun _ => setSample next) log s := by
  intro s₁ h₁
  have howner₁ : s₁.owner = some slot := h₁.owner.trans howner
  have howned₁ : s₁.owner ≠ none := howner₁ ▸ nofun
  refine ⟨⟨fun _ hne h => absurd h hne, fun _ _ hc hne => ?_, fun _ h => absurd h howned₁⟩, ?_⟩
  · cases hc
    exact absurd howner₁ hne
  intro s₂ h₂
  have howner₂ : s₂.owner = some slot := h₂.owner.trans howner₁
  have howned₂ : s₂.owner ≠ none := howner₂ ▸ nofun
  refine ⟨⟨fun _ hne h => absurd h hne, fun _ _ hc hne => ?_, fun _ h => absurd h howned₂⟩, ?_⟩
  · cases hc
    exact absurd howner₂ hne
  intro s₃ h₃
  have howner₃ : s₃.owner = some slot := h₃.owner.trans howner₂
  refine .of_between ⟨?_, fun h => absurd (howner₃.symm.trans h) nofun⟩ fun _ => nofun
  rw [h₃.sample, howner₃]
  exact ⟨fun _ => rfl, fun _ => hnext⟩

theorem controllerData_guarded (slot : Nat) (device : PadDevice) (ctl : UniController)
    {s : PadState} (hs : Between s) :
    Upholds (.data slot ctl) device (controllerData slot ctl) [] s := by
  have hend : ∀ {log : List (PadOp × PadState)} {s : PadState}, Between s →
    CallbackEnd (.data slot ctl) log s :=
    fun h => .of_between h fun _ => nofun
  intro s₁ h₁
  have hs₁ := hs.interfered h₁
  refine ⟨.quiet rfl ⟨rfl, rfl, rfl⟩, ?_⟩
  dsimp only [padHandle, Prog.bind]
  by_cases howner : s₁.owner = some slot
  · rw [if_neg (not_not.mpr howner)]
    cases ctl with
    | keyboard pressedKeys modifiers => exact report_guarded howner _ (pressKeys_connected _ _ rfl)
    | gamepad gp => exact report_guarded howner _ (gbInputLeftStick_connected rfl _ _)
    | other => exact fun s₂ h₂ => hend (hs₁.interfered h₂)
  · rw [if_pos howner]
    exact fun s₂ h₂ => hend (hs₁.interfered h₂)

theorem PadCallback.guarded (callback : PadCallback) (device : PadDevice) {s : PadState} (hs : Between s) :
    Upholds callback device (callback.program device.address) [] s := by
  cases callback with
  | ready slot ready => exact deviceReady_guarded slot device ready hs
  | data slot ctl => exact controllerData_guarded slot device ctl hs
  | disconnected slot => exact deviceDisconnected_guarded slot device hs

/-! ## The system -/

/-- What holds under every schedule. -/
structure PadInv (c : PadSystem) : Prop where
  idle : c.running = none → Between c.state
  owner : ∀ slot, c.state.owner = some slot → ∃ device, c.slots slot = some device
  running : ∀ r, c.running = some r → c.slots r.callback.slot = some r.device ∧
    Upholds r.callback r.device r.rest r.log c.state

theorem slotsAfter_other {slots : Nat → Option PadDevice} {callback : PadCallback} {slot : Nat}
    (h : callback ≠ .disconnected slot) :
    callback.slotsAfter slots slot = slots slot := by
  cases callback with
  | ready _ _ => rfl
  | data _ _ => rfl
  | disconnected device =>
    have hne : slot ≠ device := fun heq => h (heq ▸ rfl)
    exact if_neg hne

theorem Interfered.upholds {callback : PadCallback} {device : PadDevice} {rest : PadProg Unit}
    {log : List (PadOp × PadState)}
    {s s' : PadState} (hs : Interfered s s') (h : Upholds callback device rest log s) :
    Upholds callback device rest log s' :=
  h.interfered Interfered.trans hs

theorem padStep_inv (a : PadAction) {c : PadSystem} (h : PadInv c) : PadInv (padStep a c) := by
  cases a with
  | attach slot device =>
    simp only [padStep]
    split
    · rename_i hfree
      -- neither the owner nor the running callback is in the free slot
      have hkept : ∀ {i : Nat} {d : PadDevice}, c.slots i = some d →
          (if i = slot then some device else c.slots i) = some d := by
        intro i d hd
        rw [if_neg, hd]
        rintro rfl
        exact absurd (hfree.symm.trans hd) nofun
      refine ⟨h.idle, fun i hi => (h.owner i hi).imp fun _ hd => hkept hd, fun r hr => ?_⟩
      exact ⟨hkept (h.running r hr).1, (h.running r hr).2⟩
    · exact h
  | begin callback =>
    simp only [padStep]
    split
    · rename_i hidle hslot
      refine ⟨fun hnone => absurd hnone nofun, h.owner, fun r hr => ?_⟩
      cases hr
      exact ⟨hslot, callback.guarded _ (h.idle hidle)⟩
    · exact h
  | advance =>
    simp only [padStep]
    split
    · exact h
    · rename_i r hr
      obtain ⟨hslot, hrest⟩ := h.running r hr
      split
      · rename_i hdone
        rw [hdone] at hrest
        have hend : CallbackEnd r.callback r.log c.state := hrest.ended Interfered.refl
        refine ⟨fun _ => hend.between, fun slot howner => ?_, fun _ hr => absurd hr nofun⟩
        obtain ⟨device, hdevice⟩ := h.owner slot howner
        have hother : r.callback ≠ .disconnected slot := fun hc => hend.gone slot hc howner
        exact ⟨device, (slotsAfter_other hother).trans hdevice⟩
      · rename_i o k hnext
        rw [hnext] at hrest
        obtain ⟨hguard, hrest⟩ := hrest.performed Interfered.refl
        refine ⟨fun hnone => absurd hnone nofun, fun slot howner => ?_, fun r' hr' => ?_⟩
        · by_cases hsame : c.state.owner = some slot
          · exact h.owner slot hsame
          · obtain ⟨-, ⟨state, hready, -⟩, -⟩ := hguard.owns slot hsame howner
            exact ⟨r.device, hready ▸ hslot⟩
        · cases hr'
          exact ⟨hslot, hrest⟩
  | call call =>
    have hcall := call.apply_interfered c.state
    exact ⟨fun hidle => (h.idle hidle).interfered hcall,
      fun slot howner => h.owner slot (hcall.owner ▸ howner),
      fun r hr => ⟨(h.running r hr).1, hcall.upholds (h.running r hr).2⟩⟩

theorem padRun_inv : ∀ (schedule : List PadAction) {c : PadSystem}, PadInv c → PadInv (padRun schedule c)
  | [], _, h => h
  | a :: schedule, _, h => padRun_inv schedule (padStep_inv a h)

theorem initial_padInv : PadInv {} :=
  ⟨fun _ => ⟨Iff.rfl, fun _ => ⟨rfl, rfl, rfl, rfl⟩⟩, fun _ h => absurd h nofun, fun _ h => absurd h nofun⟩

/-! ## Every schedule -/

/-- The callback for the disconnection of the owner has done all it does. -/
def OwnerLeft (slot : Nat) (c : PadSystem) : Prop :=
  ∃ r, c.running = some r ∧ r.callback = .disconnected slot ∧ r.rest = .pure () ∧
    ∃ s : PadState, (PadOp.owner, s) ∈ r.log ∧ s.owner = some slot

/-- No action of the schedule makes a device the owner. -/
def NoOwner (schedule : List PadAction) (c : PadSystem) : Prop := ∀ n, (padRun (schedule.take n) c).state.owner = none

theorem padStep_neutral (a : PadAction) {c : PadSystem} (h : PadInv c) (hneutral : Neutral c.state)
    (hnone : c.state.owner = none)
    (hnone' : (padStep a c).state.owner = none) : Neutral (padStep a c).state := by
  cases a with
  | attach slot device =>
    simp only [padStep]
    split <;> exact hneutral
  | begin callback =>
    simp only [padStep]
    split <;> exact hneutral
  | advance =>
    simp only [padStep] at hnone' ⊢
    split
    · exact hneutral
    · rename_i r hr
      rw [hr] at hnone'
      obtain ⟨-, hrest⟩ := h.running r hr
      split
      · exact hneutral
      · rename_i o k hnext
        rw [hnext] at hrest
        simp only [hnext] at hnone'
        exact (hrest.performed Interfered.refl).1.neutral hneutral hnone hnone'
  | call call => exact (call.apply_interfered c.state).neutral hneutral

theorem padRun_neutral : ∀ (schedule : List PadAction) {c : PadSystem}, PadInv c → Neutral c.state →
    NoOwner schedule c → Neutral (padRun schedule c).state
  | [], _, _, hneutral, _ => hneutral
  | a :: schedule, _, h, hneutral, hnone =>
    padRun_neutral schedule (padStep_inv a h) (padStep_neutral a h hneutral (hnone 0) (hnone 1))
      fun n => hnone (n + 1)

/-- Who controls the game in a state of the system. -/
structure Controlled (c : PadSystem) : Prop where
  connected : c.running = none → (c.state.sample.connected = true ↔ c.state.owner.isSome = true)
  /-- A device becomes the owner in its ready callback, when there is none, and was selected there. -/
  owns : ∀ a slot, c.state.owner ≠ some slot → (padStep a c).state.owner = some slot →
    ∃ r, c.running = some r ∧ c.slots slot = some r.device ∧ Entitled r.callback r.device r.log c.state slot
  /-- The slot of the owner is not reused. -/
  slot : ∀ a slot, c.state.owner = some slot → (padStep a c).state.owner = some slot →
    (padStep a c).slots slot = c.slots slot
  others : ∀ r slot ctl, c.running = some r → r.callback = .data slot ctl → c.state.owner ≠ some slot →
    SameInput c.state (padStep .advance c).state
  gone : ∀ r slot, c.running = some r → r.callback = .disconnected slot → r.rest = .pure () → c.state.owner ≠ some slot
  left : ∀ slot, OwnerLeft slot c → c.state.owner = none ∧ ∀ later, NoOwner later c →
    (padRun later c).state.sample = {} ∧ (padRun later c).state.test = {} ∧
      (gamepadFrameSnapshot (padRun later c).state).1 = {}

theorem PadInv.owns {c : PadSystem} (h : PadInv c) {a : PadAction} {slot : Nat}
    (hother : c.state.owner ≠ some slot) (howns : (padStep a c).state.owner = some slot) :
    ∃ r, c.running = some r ∧ c.slots slot = some r.device ∧
      Entitled r.callback r.device r.log c.state slot := by
  cases a with
  | attach i device =>
    simp only [padStep] at howns
    split at howns <;> exact absurd howns hother
  | begin callback =>
    simp only [padStep] at howns
    split at howns <;> exact absurd howns hother
  | advance =>
    simp only [padStep] at howns
    split at howns
    · exact absurd howns hother
    · rename_i r hr
      obtain ⟨hslot, hrest⟩ := h.running r hr
      split at howns
      · exact absurd howns hother
      · rename_i o k hnext
        rw [hnext] at hrest
        have hentitled := (hrest.performed Interfered.refl).1.owns slot hother howns
        obtain ⟨state, hready, -⟩ := hentitled.ready
        rw [hready] at hslot
        exact ⟨r, hr, hslot, hentitled⟩
  | call call => exact absurd ((call.apply_interfered c.state).owner ▸ howns) hother

theorem PadInv.slot_kept {c : PadSystem} (h : PadInv c) (a : PadAction) {slot : Nat}
    (howner : c.state.owner = some slot)
    (howner' : (padStep a c).state.owner = some slot) : (padStep a c).slots slot = c.slots slot := by
  cases a with
  | attach i device =>
    simp only [padStep]
    split
    · rename_i hfree
      obtain ⟨d, hd⟩ := h.owner slot howner
      refine if_neg ?_
      rintro rfl
      exact absurd (hfree.symm.trans hd) nofun
    · rfl
  | begin callback =>
    simp only [padStep]
    split <;> rfl
  | advance =>
    simp only [padStep] at howner' ⊢
    split
    · rfl
    · rename_i r hr
      obtain ⟨-, hrest⟩ := h.running r hr
      split
      · rename_i hdone
        rw [hdone] at hrest
        have hend : CallbackEnd r.callback r.log c.state := hrest.ended Interfered.refl
        exact slotsAfter_other fun hc => hend.gone slot hc howner
      · rfl
  | call call => rfl

theorem PadInv.others {c : PadSystem} (h : PadInv c) {r : PadRunning} {slot : Nat}
    {ctl : UniController} (hr : c.running = some r)
    (hdata : r.callback = .data slot ctl) (hother : c.state.owner ≠ some slot) :
    SameInput c.state (padStep .advance c).state := by
  obtain ⟨-, hrest⟩ := h.running r hr
  simp only [padStep, hr]
  split
  · exact ⟨rfl, rfl, rfl⟩
  · rename_i o k hnext
    rw [hnext] at hrest
    exact (hrest.performed Interfered.refl).1.others slot ctl hdata hother

/-- Under every schedule only the selected and ready device controls the game, and nothing stays pressed
after it has left. -/
theorem padRun_controlled (schedule : List PadAction) : Controlled (padRun schedule {}) := by
  have h : PadInv (padRun schedule {}) := padRun_inv schedule initial_padInv
  have hend : ∀ r, (padRun schedule {}).running = some r → r.rest = .pure () →
      CallbackEnd r.callback r.log (padRun schedule {}).state := by
    intro r hr hdone
    obtain ⟨-, hrest⟩ := h.running r hr
    rw [hdone] at hrest
    exact hrest.ended Interfered.refl
  refine ⟨fun hidle => (h.idle hidle).connected, fun _ _ hother howns => h.owns hother howns,
    fun a _ => h.slot_kept a,
    fun _ _ _ hr hdata => h.others hr hdata, fun r slot hr hc hdone => (hend r hr hdone).gone slot hc, ?_⟩
  rintro slot ⟨r, hr, hc, hdone, s, hread, howner⟩
  have hreturned := hend r hr hdone
  have hnone := hreturned.released slot s hc hread howner
  refine ⟨hnone, fun later hlater => ?_⟩
  have hneutral := padRun_neutral later h (hreturned.between.neutral hnone) hlater
  exact ⟨hneutral.sample, hneutral.test, congrArg Prod.fst (hneutral.frame _)⟩

/-- A selected gamepad becomes the owner, and its disconnection is one of the owner. -/
example :
    let pad : PadDevice := ⟨0, .replicate 6 1⟩
    let own :=
      padRun ([.call (.discovery (.observe pad.address 0x0508 none)), .call (.discovery (.select 0)), .attach 3 pad,
      .begin (.ready 3 ⟨true, false, false, 0⟩)] ++ .replicate 6 .advance) {}
    let left := padRun (.begin (.disconnected 3) :: .replicate 5 .advance) own
    own.state.owner = some 3 ∧ own.state.sample.connected = true ∧ own.running.isNone = true ∧
      left.state.owner = none ∧ (left.running.map fun r => r.log.length) = some 5 := by
  decide +kernel

end FoloGameboy

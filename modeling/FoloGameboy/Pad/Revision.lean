/-
What a run of pairing operations leaves alone: events for another device, the index of a candidate,
and, by the revision, everything the pairing screen shows.
-/
import FoloGameboy.Pad.Pairing

namespace FoloGameboy

/-! ## Revisions -/

/-- How far one step counts the revision up; a step that does not count looks the same on the screen. -/
inductive Counted (d d' : GamepadDiscovery) : Prop where
  | same (h : d'.revision = d.revision) (hview : pairingView d' = pairingView d) : Counted d d'
  | one (h : d'.revision = d.revision + 1) : Counted d d'
  | two (h : d'.revision = d.revision + 1 + 1) : Counted d d'

theorem Counted.refl (d : GamepadDiscovery) : Counted d d := .same rfl rfl

theorem TableStep.revision {d d' : GamepadDiscovery} (h : TableStep d d') :
    d'.revision = d.revision + 1 := by
  cases h <;> rfl

theorem Observed.counted {d d' : GamepadDiscovery} (h : Observed d d') : Counted d d' := by
  cases h with
  | none => exact .refl d
  | one h => exact .one h.revision
  | two h h' => exact .two (h.revision ▸ h'.revision)

theorem beginScan_revision (d : GamepadDiscovery) :
    gamepadDiscoveryBeginScan d = d ∨ (gamepadDiscoveryBeginScan d).revision = d.revision + 1 := by
  unfold gamepadDiscoveryBeginScan
  split
  · exact .inl rfl
  · exact .inr rfl

theorem DiscoveryOp.apply_counted (op : DiscoveryOp) {d : GamepadDiscovery}
    (hcount : d.count ≤ GAMEPAD_DISCOVERY_MAX) :
    Counted d (op.apply d) := by
  cases op with
  | observe address cod name => exact (observe_observed hcount address cod name).counted
  | select index =>
    simp only [DiscoveryOp.apply, gamepadDiscoverySelect]
    split
    · exact .refl d
    · exact .one rfl
  | beginScan =>
    rcases beginScan_revision d with h | h
    · exact .same (congrArg GamepadDiscovery.revision h) (congrArg pairingView h)
    · exact .one h
  | clearSelection =>
    -- the scan starts over from the cleared selection, and the clearing itself is counted too
    simp only [DiscoveryOp.apply, gamepadDiscoveryClearSelection]
    generalize hcleared : ({ d with
        selected := false
        iineConfirmationPending := false
        iineConfirmationRequested := false
        iineFirmware := 0
        passkeyVisible := false
        passkey := 0
        pairingFailed := false
        selectedAddress := .replicate 6 0 } : GamepadDiscovery) = cleared
    have hrevision : cleared.revision = d.revision := hcleared ▸ rfl
    rcases beginScan_revision cleared with h | h
    · exact .one (by rw [h, hrevision])
    · exact .two (by rw [h, hrevision])
  | passkey address value =>
    simp only [DiscoveryOp.apply, gamepadDiscoveryPasskey]
    split
    · exact .refl d
    · exact .one rfl
  | pairingDone address success =>
    simp only [DiscoveryOp.apply, gamepadDiscoveryPairingDone]
    split
    · exact .refl d
    · cases success <;> exact .one rfl
  | iineConfirmation address pending firmware =>
    simp only [DiscoveryOp.apply, gamepadDiscoveryIineConfirmation]
    split
    · exact .refl d
    · exact .one rfl
  | confirmIine =>
    simp only [DiscoveryOp.apply, gamepadDiscoveryConfirmIine]
    split
    · exact .refl d
    · exact .one rfl
  | takeConfirmation address =>
    simp only [DiscoveryOp.apply, FoloGameboy.takeConfirmation]
    split
    · exact .same rfl rfl
    · exact .refl d

/-- The increments of the revision that an operation makes. -/
def DiscoveryOp.changes (op : DiscoveryOp) (d : GamepadDiscovery) : Nat := ((op.apply d).revision - d.revision).toNat

def changes : List DiscoveryOp → GamepadDiscovery → Nat
  | [], _ => 0
  | op :: ops, d => op.changes d + changes ops (op.apply d)

theorem DiscoveryOp.apply_revision (op : DiscoveryOp) (d : GamepadDiscovery) :
    (op.apply d).revision = d.revision + UInt32.ofNat (op.changes d) := by
  unfold DiscoveryOp.changes
  rw [UInt32.ofNat_toNat, UInt32.add_comm, UInt32.sub_add_cancel]

theorem DiscoveryOp.apply_view (op : DiscoveryOp) {d : GamepadDiscovery}
    (hcount : d.count ≤ GAMEPAD_DISCOVERY_MAX)
    (hsame : op.changes d = 0) : pairingView (op.apply d) = pairingView d := by
  have hrevision := op.apply_revision d
  rw [hsame] at hrevision
  rcases op.apply_counted hcount with ⟨-, hview⟩ | h | h
  · exact hview
  · rw [h] at hrevision
    exact absurd ((UInt32.add_right_inj d.revision).mp hrevision) (by decide)
  · rw [h, UInt32.add_assoc] at hrevision
    exact absurd ((UInt32.add_right_inj d.revision).mp hrevision) (by decide)

theorem discoveryRun_revision : ∀ (ops : List DiscoveryOp) (d : GamepadDiscovery),
    (discoveryRun ops d).revision = d.revision + UInt32.ofNat (changes ops d)
  | [], d => (UInt32.add_zero _).symm
  | op :: ops, d => by
    show (discoveryRun ops (op.apply d)).revision = _
    rw [discoveryRun_revision ops (op.apply d), op.apply_revision d, changes, UInt32.ofNat_add,
      UInt32.add_assoc]

theorem discoveryRun_view : ∀ (ops : List DiscoveryOp) {d : GamepadDiscovery}, PairingOK d →
    changes ops d = 0 → pairingView (discoveryRun ops d) = pairingView d
  | [], _, _, _ => rfl
  | op :: ops, d, hok, hsame => by
    obtain ⟨hfirst, hrest⟩ := Nat.add_eq_zero_iff.mp hsame
    calc pairingView (discoveryRun ops (op.apply d))
        = pairingView (op.apply d) := discoveryRun_view ops (op.apply_pairingOK hok) hrest
      _ = pairingView d := op.apply_view hok.count hfirst

/-- Fewer than a full turn of the revision: an equal revision is an equal picture. -/
theorem discoveryRun_same_revision {ops : List DiscoveryOp} {d : GamepadDiscovery}
    (hok : PairingOK d) (hfew : changes ops d < 2 ^ 32)
    (hsame : (discoveryRun ops d).revision = d.revision) :
    pairingView (discoveryRun ops d) = pairingView d := by
  rw [discoveryRun_revision] at hsame
  have hzero : UInt32.ofNat (changes ops d) = 0 := by
    have h : d.revision + UInt32.ofNat (changes ops d) = d.revision + 0 := by rw [hsame, UInt32.add_zero]
    exact (UInt32.add_right_inj d.revision).mp h
  have hchanges : changes ops d = 0 := by
    have h := congrArg UInt32.toNat hzero
    rwa [UInt32.toNat_ofNat_of_lt' hfew] at h
  exact discoveryRun_view ops hok hchanges

/-! ## Events for another device -/

theorem TableStep.frame {d d' : GamepadDiscovery} (h : TableStep d d') :
    d' = { d with candidates := d'.candidates, count := d'.count, revision := d'.revision } := by
  cases h <;> rfl

theorem Observed.frame {d d' : GamepadDiscovery} (h : Observed d d') :
    d' = { d with candidates := d'.candidates, count := d'.count, revision := d'.revision } := by
  cases h with
  | none => rfl
  | one h => exact h.frame
  | two h h' =>
    rw [h'.frame]
    conv_lhs => rw [h.frame]

/-- An event with an address that is not the selected one changes the table and the revision only. -/
theorem DiscoveryOp.apply_other {op : DiscoveryOp} {d : GamepadDiscovery} {address : Vector UInt8 6}
    (hcount : d.count ≤ GAMEPAD_DISCOVERY_MAX)
    (haddr : op.address? = some address) (hother : gamepadDiscoveryShouldConnect d address = false) :
    op.apply d = { d with
      candidates := (op.apply d).candidates, count := (op.apply d).count, revision := (op.apply d).revision } := by
  cases op <;> cases haddr
  case observe => exact (observe_observed hcount _ _ _).frame
  all_goals simp [DiscoveryOp.apply, gamepadDiscoveryPasskey, gamepadDiscoveryPairingDone,
    gamepadDiscoveryIineConfirmation,
    FoloGameboy.takeConfirmation, hother]

/-! ## Stable candidates -/

/-- A scan or a cleared selection takes the candidates out of the table. -/
def DiscoveryOp.Empties (op : DiscoveryOp) (d : GamepadDiscovery) : Prop :=
  (op = .beginScan ∨ op = .clearSelection) ∧ d.count ≠ 0 ∧ (op.apply d).count = 0

def NeverEmptied : List DiscoveryOp → GamepadDiscovery → Prop
  | [], _ => True
  | op :: ops, d => ¬ op.Empties d ∧ NeverEmptied ops (op.apply d)

/-- Every candidate of a table is still at its index. -/
def TableKept (d d' : GamepadDiscovery) : Prop :=
  ∀ i < d.count, i < d'.count ∧ (d'.candidate i).address = (d.candidate i).address

theorem TableKept.trans {d d₁ d' : GamepadDiscovery} (h : TableKept d d₁) (h' : TableKept d₁ d') :
    TableKept d d' := by
  intro i hi
  obtain ⟨hi₁, haddr₁⟩ := h i hi
  obtain ⟨hi', haddr'⟩ := h' i hi₁
  exact ⟨hi', haddr'.trans haddr₁⟩

theorem TableKept.of_table {d d' : GamepadDiscovery} (hcandidates : d'.candidates = d.candidates)
    (hcount : d'.count = d.count) :
    TableKept d d' := by
  intro i hi
  refine ⟨hcount.symm ▸ hi, ?_⟩
  unfold GamepadDiscovery.candidate
  rw [hcandidates]

theorem Observed.keeps {d d' : GamepadDiscovery} (h : Observed d d') (hok : PairingOK d) :
    TableKept d d' := by
  cases h with
  | none => exact .of_table rfl rfl
  | one h => exact fun i hi => h.keeps hok.count hi
  | two h h' =>
    exact .trans (fun i hi => h.keeps hok.count hi)
      (fun i hi => h'.keeps (h.pairingOK hok).count hi)

/-- A scan keeps the table or empties it. -/
theorem beginScan_table (d : GamepadDiscovery) : gamepadDiscoveryBeginScan d = d ∨
    (gamepadDiscoveryBeginScan d).count = 0 := by
  unfold gamepadDiscoveryBeginScan
  split
  · exact .inl rfl
  · exact .inr rfl

theorem DiscoveryOp.apply_keeps {op : DiscoveryOp} {d : GamepadDiscovery} (hok : PairingOK d)
    (hnot : ¬ op.Empties d) :
    TableKept d (op.apply d) := by
  -- an empty table has nothing to keep
  have hempty : (op = .beginScan ∨ op = .clearSelection) → (op.apply d).count = 0 →
      TableKept d (op.apply d) := by
    intro hop hzero i hi
    exact absurd ⟨hop, Nat.ne_of_gt (Nat.zero_lt_of_lt hi), hzero⟩ hnot
  cases op with
  | observe address cod name => exact (observe_observed hok.count address cod name).keeps hok
  | beginScan =>
    rcases beginScan_table d with h | h
    · exact .of_table (congrArg GamepadDiscovery.candidates h) (congrArg GamepadDiscovery.count h)
    · exact hempty (.inl rfl) h
  | clearSelection =>
    rcases beginScan_table { d with
        selected := false
        iineConfirmationPending := false
        iineConfirmationRequested := false
        iineFirmware := 0
        passkeyVisible := false
        passkey := 0
        pairingFailed := false
        selectedAddress := .replicate 6 0 } with h | h
    · have hcandidates := congrArg GamepadDiscovery.candidates h
      have hcount := congrArg GamepadDiscovery.count h
      exact .of_table hcandidates hcount
    · exact hempty (.inr rfl) h
  | select index =>
    simp only [DiscoveryOp.apply, gamepadDiscoverySelect]
    split <;> exact .of_table rfl rfl
  | passkey address value =>
    simp only [DiscoveryOp.apply, gamepadDiscoveryPasskey]
    split <;> exact .of_table rfl rfl
  | pairingDone address success =>
    simp only [DiscoveryOp.apply, gamepadDiscoveryPairingDone]
    split
    · exact .of_table rfl rfl
    · cases success <;> exact .of_table rfl rfl
  | iineConfirmation address pending firmware =>
    simp only [DiscoveryOp.apply, gamepadDiscoveryIineConfirmation]
    split <;> exact .of_table rfl rfl
  | confirmIine =>
    simp only [DiscoveryOp.apply, gamepadDiscoveryConfirmIine]
    split <;> exact .of_table rfl rfl
  | takeConfirmation address =>
    simp only [DiscoveryOp.apply, FoloGameboy.takeConfirmation]
    split <;> exact .of_table rfl rfl

theorem discoveryRun_keeps : ∀ (ops : List DiscoveryOp) {d : GamepadDiscovery}, PairingOK d →
    NeverEmptied ops d → TableKept d (discoveryRun ops d)
  | [], _, _, _ => .of_table rfl rfl
  | op :: ops, _, hok, h =>
    (op.apply_keeps hok h.1).trans (discoveryRun_keeps ops (op.apply_pairingOK hok) h.2)

/-! ## The screen -/

/-- The runs of `pairing_loop`: it is entered in any state, and before each look at the state the other
tasks have run any operations, fewer than a full turn of the revision. A key press may mark the screen. -/
inductive PairingLoop : GamepadDiscovery → PairingScreen → Prop where
  | enter (ops : List DiscoveryOp) : PairingLoop (discoveryRun ops {}) {}
  | poll {d : GamepadDiscovery} {s : PairingScreen} (h : PairingLoop d s)
      (ops : List DiscoveryOp) (hfew : changes ops d < 2 ^ 32)
      (mark : Bool) : PairingLoop (discoveryRun ops d) (redraw (discoveryRun ops d) { s with dirty := s.dirty || mark })

/-- What is drawn is the current state, unless the screen is still to be drawn. -/
def ScreenShows (d : GamepadDiscovery) (s : PairingScreen) : Prop :=
  s.dirty = true ∨ (s.drawn = some (pairingView d) ∧ s.shownRevision = d.revision)

theorem redraw_shown {d : GamepadDiscovery} {s : PairingScreen}
    (h : s.dirty = false → s.shownRevision = d.revision → s.drawn = some (pairingView d)) :
    (redraw d s).dirty = false ∧ (redraw d s).drawn = some (pairingView d) ∧
      (redraw d s).shownRevision = d.revision := by
  unfold redraw
  cases hdirty : s.dirty with
  | true => exact ⟨rfl, rfl, rfl⟩
  | false =>
    by_cases hrevision : d.revision = s.shownRevision
    · simp only [hrevision, bne_self_eq_false, Bool.or_self, Bool.false_eq_true, if_false]
      exact ⟨hdirty, h hdirty hrevision.symm, trivial⟩
    · simp [hrevision]

theorem PairingLoop.shown {d : GamepadDiscovery} {s : PairingScreen} (h : PairingLoop d s) :
    PairingOK d ∧ ScreenShows d s := by
  induction h with
  | enter ops => exact ⟨discoveryRun_pairingOK ops initial_pairingOK, .inl rfl⟩
  | @poll d s _ ops hfew mark ih =>
    obtain ⟨hok, hshown⟩ := ih
    refine ⟨discoveryRun_pairingOK ops hok, .inr (redraw_shown ?_).2⟩
    intro hclean hrevision
    have hdirty : s.dirty = false := (Bool.or_eq_false_iff.mp hclean).1
    rcases hshown with h | ⟨hdrawn, hlast⟩
    · exact absurd h (hdirty ▸ Bool.false_ne_true)
    · have hsame : (discoveryRun ops d).revision = d.revision := hrevision.symm.trans hlast
      rw [discoveryRun_same_revision hok hfew hsame]
      exact hdrawn

/-! ## Every run -/

/-- The pairing state after any operations: its fields agree; an event with another address than the
selected one changes the table and the revision only; a candidate keeps its index and address until the
table is emptied; states with one revision, fewer than `2 ^ 32` changes apart, look the same; and the
pairing screen shows the state of its last look. -/
theorem pairing_run (ops : List DiscoveryOp) :
    PairingOK (discoveryRun ops {}) ∧
    (∀ op address, DiscoveryOp.address? op = some address →
      gamepadDiscoveryShouldConnect (discoveryRun ops {}) address = false →
      ∃ candidates count revision,
        op.apply (discoveryRun ops {})
          = { discoveryRun ops {} with candidates := candidates, count := count, revision := revision }) ∧
    (∀ later, NeverEmptied later (discoveryRun ops {}) →
      TableKept (discoveryRun ops {}) (discoveryRun later (discoveryRun ops {}))) ∧
    (∀ later, changes later (discoveryRun ops {}) < 2 ^ 32 →
      (discoveryRun later (discoveryRun ops {})).revision = (discoveryRun ops {}).revision →
      pairingView (discoveryRun later (discoveryRun ops {})) = pairingView (discoveryRun ops {})) ∧
    ∀ s, PairingLoop (discoveryRun ops {}) s → s.dirty = false →
      s.drawn = some (pairingView (discoveryRun ops {})) := by
  have hok := discoveryRun_pairingOK ops initial_pairingOK
  refine ⟨hok, ?_, fun later h => discoveryRun_keeps later hok h,
    fun later hfew h => discoveryRun_same_revision hok hfew h, ?_⟩
  · intro op address haddr hother
    exact ⟨_, _, _, op.apply_other hok.count haddr hother⟩
  · intro s hloop hclean
    rcases hloop.shown.2 with h | ⟨hdrawn, -⟩
    · exact absurd h (hclean ▸ Bool.false_ne_true)
    · exact hdrawn

end FoloGameboy

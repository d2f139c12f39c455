/-
The pairing state over every sequence of operations: its cross-field invariant, what an event for
another device leaves alone, the stable indices of the table, and that the revision tells apart all
states that look different, so that the pairing screen shows the current one.
-/
import FoloGameboy.Pad.Discovery

namespace FoloGameboy

/-! ## The table -/

theorem candidate_setIfInBounds {d : GamepadDiscovery} {i : Nat} (hi : i < GAMEPAD_DISCOVERY_MAX)
    (c : GamepadCandidate) (j : Nat) :
    (d.candidates.setIfInBounds i c)[j]?.getD {} = if j = i then c else d.candidate j := by
  unfold GamepadDiscovery.candidate
  by_cases hj : j = i
  · rw [if_pos hj, hj, Vector.getElem?_setIfInBounds_self_of_lt hi]
    rfl
  · rw [if_neg hj, Vector.getElem?_setIfInBounds_ne (Ne.symm hj)]

theorem setCandidate_candidate {d : GamepadDiscovery} {i : Nat} (hi : i < GAMEPAD_DISCOVERY_MAX)
    (c : GamepadCandidate) (j : Nat) :
    (d.setCandidate i c).candidate j = if j = i then c else d.candidate j :=
  candidate_setIfInBounds hi c j

/-- One change of the table by `gamepad_discovery_observe`: a known candidate changes its type or name, or
a device with a new address is appended. -/
inductive TableStep (d : GamepadDiscovery) : GamepadDiscovery → Prop where
  | update {i : Nat} {c : GamepadCandidate} (hi : i < d.count) (haddr : c.address = (d.candidate i).address) :
      TableStep d (d.setCandidate i c)
  | append {c : GamepadCandidate} (hnew : ∀ i < d.count, (d.candidate i).address ≠ c.address)
      (hroom : d.count < GAMEPAD_DISCOVERY_MAX) : TableStep d { d.setCandidate d.count c with count := d.count + 1 }

/-- What an observation does: up to two changes. -/
inductive Observed (d : GamepadDiscovery) : GamepadDiscovery → Prop where
  | none : Observed d d
  | one {d' : GamepadDiscovery} (h : TableStep d d') : Observed d d'
  | two {d₁ d' : GamepadDiscovery} (h : TableStep d d₁) (h' : TableStep d₁ d') : Observed d d'

theorem findCandidate_some {d : GamepadDiscovery} {address : Vector UInt8 6} {i : Nat}
    (h : findCandidate d address = some i) :
    i < d.count ∧ (d.candidate i).address = address := by
  unfold findCandidate at h
  exact ⟨List.mem_range.mp (List.mem_of_find?_eq_some h), by simpa using List.find?_some h⟩

theorem findCandidate_none {d : GamepadDiscovery} {address : Vector UInt8 6}
    (h : findCandidate d address = none) :
    ∀ i < d.count, (d.candidate i).address ≠ address := by
  intro i hi
  unfold findCandidate at h
  simpa using List.find?_eq_none.mp h i (List.mem_range.mpr hi)

theorem updateType_step {d : GamepadDiscovery} {i : Nat} (hi : i < d.count) (keyboard hidProbe : Bool) :
    updateType keyboard hidProbe i d = d ∨ TableStep d (updateType keyboard hidProbe i d) := by
  unfold updateType
  split
  · exact .inr (.update hi rfl)
  · exact .inl rfl

theorem updateName_step {d : GamepadDiscovery} {i : Nat} (hi : i < d.count) (name : Option (List UInt8)) :
    updateName name i d = d ∨ TableStep d (updateName name i d) := by
  unfold updateName
  dsimp only
  split
  · exact .inr (.update hi rfl)
  · exact .inl rfl

theorem updateType_count (keyboard hidProbe : Bool) (i : Nat) (d : GamepadDiscovery) :
    (updateType keyboard hidProbe i d).count = d.count := by
  unfold updateType
  split <;> rfl

/-- A device already in the table. -/
theorem known_observed {d : GamepadDiscovery} {i : Nat} (hi : i < d.count)
    (keyboard hidProbe : Bool) (name : Option (List UInt8)) :
    Observed d (updateName name i (updateType keyboard hidProbe i d)) := by
  have hi' : i < (updateType keyboard hidProbe i d).count :=
    (updateType_count keyboard hidProbe i d).symm ▸ hi
  rcases updateType_step hi keyboard hidProbe with htype | htype
  · rw [htype]
    rcases updateName_step hi name with hname | hname
    · rw [hname]
      exact .none
    · exact .one hname
  · rcases updateName_step hi' name with hname | hname
    · rw [hname]
      exact .one htype
    · exact .two htype hname

theorem observe_observed {d : GamepadDiscovery} (hcount : d.count ≤ GAMEPAD_DISCOVERY_MAX)
    (address : Vector UInt8 6) (cod : UInt16)
    (name : Option (List UInt8)) : Observed d (gamepadDiscoveryObserve address cod name d).2 := by
  unfold gamepadDiscoveryObserve
  generalize (cod &&& 0x1FC0 == 0x0540) = keyboard
  generalize (cod == 0x0508 || cod == 0x0504) = gamepad
  generalize (cod == 0x0500) = hidProbe
  by_cases hkind : (!keyboard && !gamepad && !hidProbe) = true
  · simp only [hkind, if_true]
    exact .none
  · rw [if_neg hkind]
    cases hfind : findCandidate d address with
    | some i =>
      dsimp only
      exact known_observed (findCandidate_some hfind).1 keyboard hidProbe name
    | none =>
      dsimp only
      by_cases hfull : d.count = GAMEPAD_DISCOVERY_MAX
      · simp only [hfull, if_true]
        exact .none
      · simp only [hfull, if_false]
        exact .one (.append (findCandidate_none hfind) (by omega))

/-! ## The invariant -/

/-- The fields of the pairing state agree. -/
structure PairingOK (d : GamepadDiscovery) : Prop where
  count : d.count ≤ GAMEPAD_DISCOVERY_MAX
  distinct : ∀ i j, i < d.count → j < d.count → (d.candidate i).address = (d.candidate j).address → i = j
  selected : d.selected = true → ∃ i < d.count, (d.candidate i).address = d.selectedAddress
  requested : d.iineConfirmationRequested = true → d.iineConfirmationPending = true
  pending : d.iineConfirmationPending = true → d.selected = true
  passkey : d.passkeyVisible = true → d.selected = true ∧ d.passkey ≤ 999999

/-- A table change keeps every address at its index. -/
theorem TableStep.keeps {d d' : GamepadDiscovery} (h : TableStep d d')
    (hcount : d.count ≤ GAMEPAD_DISCOVERY_MAX) {i : Nat}
    (hi : i < d.count) : i < d'.count ∧ (d'.candidate i).address = (d.candidate i).address := by
  cases h with
  | @update j c hj haddr =>
    refine ⟨hi, ?_⟩
    rw [setCandidate_candidate (by omega)]
    split
    · rename_i heq
      rw [heq, haddr]
    · rfl
  | @append c hnew hroom =>
    have hother : i ≠ d.count := by omega
    refine ⟨Nat.lt_succ_of_lt hi, ?_⟩
    show ((d.setCandidate d.count c).candidate i).address = _
    rw [setCandidate_candidate hroom, if_neg hother]

theorem TableStep.pairingOK {d d' : GamepadDiscovery} (h : TableStep d d') (hok : PairingOK d) :
    PairingOK d' := by
  have hkeeps := fun {i : Nat} (hi : i < d.count) => h.keeps hok.count hi
  have hselected : d'.selected = d.selected ∧ d'.selectedAddress = d.selectedAddress := by
    cases h <;> exact ⟨rfl, rfl⟩
  have hfind : d'.selected = true → ∃ i < d'.count, (d'.candidate i).address = d'.selectedAddress := by
    intro hs
    obtain ⟨i, hi, haddr⟩ := hok.selected (hselected.1 ▸ hs)
    obtain ⟨hi', haddr'⟩ := hkeeps hi
    exact ⟨i, hi', haddr'.trans (haddr.trans hselected.2.symm)⟩
  cases h with
  | @update j c hj haddr =>
    have hbound := hok.count
    refine ⟨hbound, fun i k hi hk heq => ?_, hfind, hok.requested, hok.pending, hok.passkey⟩
    rw [(hkeeps hi).2, (hkeeps hk).2] at heq
    exact hok.distinct i k hi hk heq
  | @append c hnew hroom =>
    have hlast : ({ d.setCandidate d.count c with count := d.count + 1 } :
        GamepadDiscovery).candidate d.count = c := by
      show (d.setCandidate d.count c).candidate d.count = c
      rw [setCandidate_candidate hroom, if_pos rfl]
    refine ⟨hroom, fun i k hi hk heq => ?_, hfind, hok.requested, hok.pending, hok.passkey⟩
    change i < d.count + 1 at hi
    change k < d.count + 1 at hk
    -- an old candidate is never the appended one
    have hold : ∀ {i : Nat}, i < d.count →
        (({ d.setCandidate d.count c with count := d.count + 1 } : GamepadDiscovery).candidate
          i).address ≠ c.address := by
      intro i hi
      rw [(hkeeps hi).2]
      exact hnew i hi
    rcases Nat.lt_succ_iff_lt_or_eq.mp hi with hi | rfl
    · rcases Nat.lt_succ_iff_lt_or_eq.mp hk with hk | rfl
      · rw [(hkeeps hi).2, (hkeeps hk).2] at heq
        exact hok.distinct i k hi hk heq
      · rw [hlast] at heq
        exact absurd heq (hold hi)
    · rcases Nat.lt_succ_iff_lt_or_eq.mp hk with hk | rfl
      · rw [hlast] at heq
        exact absurd heq.symm (hold hk)
      · rfl

theorem Observed.pairingOK {d d' : GamepadDiscovery} (h : Observed d d') (hok : PairingOK d) :
    PairingOK d' := by
  cases h with
  | none => exact hok
  | one h => exact h.pairingOK hok
  | two h h' => exact h'.pairingOK (h.pairingOK hok)

theorem shouldConnect_iff {d : GamepadDiscovery} {address : Vector UInt8 6} :
    gamepadDiscoveryShouldConnect d address = true ↔ d.selected = true ∧ d.selectedAddress = address := by
  simp [gamepadDiscoveryShouldConnect]

theorem beginScan_pairingOK {d : GamepadDiscovery} (hok : PairingOK d) :
    PairingOK (gamepadDiscoveryBeginScan d) := by
  unfold gamepadDiscoveryBeginScan
  split
  · exact hok
  · rename_i hidle
    rw [not_or] at hidle
    refine ⟨Nat.zero_le _, fun i j hi => absurd hi (Nat.not_lt_zero i), fun hs => absurd hs hidle.1,
      hok.requested, hok.pending, hok.passkey⟩

theorem DiscoveryOp.apply_pairingOK (op : DiscoveryOp) {d : GamepadDiscovery} (hok : PairingOK d) :
    PairingOK (op.apply d) := by
  obtain ⟨hcount, hdistinct, hselected, hrequested, hpending, hpasskey⟩ := id hok
  cases op with
  | observe address cod name => exact (observe_observed hcount address cod name).pairingOK hok
  | select index =>
    simp only [DiscoveryOp.apply, gamepadDiscoverySelect]
    split
    · exact hok
    · rename_i hin
      exact ⟨hcount, hdistinct, fun _ => ⟨index, Nat.not_le.mp hin, rfl⟩,
        fun h => h, (fun h => nomatch h), (fun h => nomatch h)⟩
  | beginScan => exact beginScan_pairingOK hok
  | clearSelection =>
    -- forgetting the selection and the prompts, then scanning
    have hcleared : PairingOK { d with
        selected := false
        iineConfirmationPending := false
        iineConfirmationRequested := false
        iineFirmware := 0
        passkeyVisible := false
        passkey := 0
        pairingFailed := false
        selectedAddress := .replicate 6 0 } :=
      ⟨hcount, hdistinct, (fun h => nomatch h), fun h => h, fun h => h, (fun h => nomatch h)⟩
    obtain ⟨h₁, h₂, h₃, h₄, h₅, h₆⟩ := beginScan_pairingOK hcleared
    exact ⟨h₁, h₂, h₃, h₄, h₅, h₆⟩
  | passkey address value =>
    simp only [DiscoveryOp.apply, gamepadDiscoveryPasskey]
    split
    · exact hok
    · rename_i hin
      -- a passkey is accepted from the selected address only
      rw [not_or, not_not, shouldConnect_iff] at hin
      exact ⟨hcount, hdistinct, hselected, hrequested, hpending, fun _ => ⟨hin.1.1, UInt32.not_lt.mp hin.2⟩⟩
  | pairingDone address success =>
    simp only [DiscoveryOp.apply, gamepadDiscoveryPairingDone]
    split
    · exact hok
    · cases success with
      | true => exact ⟨hcount, hdistinct, hselected, hrequested, hpending, (fun h => nomatch h)⟩
      | false => exact ⟨hcount, hdistinct, hselected, fun h => h, (fun h => nomatch h),
        (fun h => nomatch h)⟩
  | iineConfirmation address pending firmware =>
    simp only [DiscoveryOp.apply, gamepadDiscoveryIineConfirmation]
    split
    · exact hok
    · rename_i hin
      rw [not_not, shouldConnect_iff] at hin
      exact ⟨hcount, hdistinct, hselected, (fun h => nomatch h), fun _ => hin.1, hpasskey⟩
  | confirmIine =>
    simp only [DiscoveryOp.apply, gamepadDiscoveryConfirmIine]
    split
    · exact hok
    · rename_i hin
      -- only a pending prompt can be confirmed
      rw [not_or, not_or, not_not, not_not] at hin
      exact ⟨hcount, hdistinct, hselected, fun _ => hin.2.1, hpending, hpasskey⟩
  | takeConfirmation address =>
    simp only [DiscoveryOp.apply, FoloGameboy.takeConfirmation]
    split
    · exact ⟨hcount, hdistinct, hselected, (fun h => nomatch h), hpending, hpasskey⟩
    · exact hok

theorem discoveryRun_pairingOK : ∀ (ops : List DiscoveryOp) {d : GamepadDiscovery}, PairingOK d →
    PairingOK (discoveryRun ops d)
  | [], _, h => h
  | op :: ops, _, h => discoveryRun_pairingOK ops (op.apply_pairingOK h)

/-- The state before the first scan. -/
theorem initial_pairingOK : PairingOK {} :=
  ⟨Nat.zero_le _, fun i _ hi => absurd hi (Nat.not_lt_zero i), (fun h => nomatch h),
    (fun h => nomatch h), (fun h => nomatch h),
    (fun h => nomatch h)⟩

end FoloGameboy

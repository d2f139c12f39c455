/-
Input reports as sequences of records: which reports are accepted, what a report does to the input
state record by record, and what it leaves.
-/
import FoloGameboy.Iine.Link

namespace FoloGameboy

/-! ## Records -/

/-- The codes of sticks, directions and buttons. -/
def KnownCode (code : UInt8) : Prop :=
  (code = 0x12 ∨ code = 0x13) ∨ (0x0d ≤ code ∧ code ≤ 0x10) ∨ (recordButton code).isSome

/-- A complete record, with what follows its code. -/
structure InputRecord where
  active : UInt8
  code : UInt8
  data : List UInt8
  active_le : active ≤ 1
  known : KnownCode code
  complete : data.length + 2 = recordSize code

namespace InputRecord

def bytes (r : InputRecord) : List UInt8 := r.active :: r.code :: r.data

/-- What a record does to the state. -/
def apply (state : IineInputState) (r : InputRecord) : IineInputState :=
  (decodeRecord r.active r.code r.data state).getD state

end InputRecord

def recordBytes (rs : List InputRecord) : List UInt8 := rs.flatMap InputRecord.bytes

/-- The report of some records: their bytes after a byte for their length. -/
def inputReport (records : List UInt8) : List UInt8 := UInt8.ofNat records.length :: records

theorem decodeRecord_isSome (active code : UInt8) (rest : List UInt8) (state : IineInputState) :
    (decodeRecord active code rest state).isSome ↔ KnownCode code := by
  unfold decodeRecord KnownCode
  by_cases hstick : code = 0x12 ∨ code = 0x13
  · rw [if_pos hstick]
    exact ⟨fun _ => .inl hstick, fun _ => rfl⟩
  by_cases hdir : 0x0d ≤ code ∧ code ≤ 0x10
  · rw [if_neg hstick, if_pos hdir]
    exact ⟨fun _ => .inr (.inl hdir), fun _ => rfl⟩
  rw [if_neg hstick, if_neg hdir]
  cases hb : recordButton code with
  | none => exact ⟨fun h => absurd h nofun, fun h => absurd h (by simp [hstick, hdir])⟩
  | some button =>
    refine ⟨fun _ => .inr (.inr rfl), fun _ => ?_⟩
    dsimp only
    split <;> rfl

/-- A record is read from its own bytes. -/
theorem decodeRecord_append {active code : UInt8} {data : List UInt8}
    (h : data.length + 2 = recordSize code) (more : List UInt8)
    (state : IineInputState) :
    decodeRecord active code (data ++ more) state = decodeRecord active code data state := by
  have hget : ∀ i < data.length, (data ++ more).getD i 0 = data.getD i 0 := fun i hi => by
    rw [List.getD_eq_getElem?_getD, List.getElem?_append_left hi, ← List.getD_eq_getElem?_getD]
  unfold decodeRecord
  by_cases hstick : code = 0x12 ∨ code = 0x13
  · have hlen : data.length = 4 := by
      unfold recordSize at h
      rw [if_pos hstick] at h
      omega
    rw [if_pos hstick, if_pos hstick, hget 0 (by omega), hget 1 (by omega)]
  rw [if_neg hstick, if_neg hstick]
  split
  · rfl
  cases recordButton code with
  | none => rfl
  | some button =>
    dsimp only
    split
    · rename_i htrigger
      have hlen : data.length = 2 := by
        unfold recordSize at h
        rw [if_neg hstick, if_pos htrigger] at h
        omega
      rw [hget 0 (by omega)]
    · rfl

theorem InputRecord.decodeRecord_eq (r : InputRecord) (more : List UInt8) (state : IineInputState) :
    decodeRecord r.active r.code (r.data ++ more) state = some (r.apply state) := by
  rw [decodeRecord_append r.complete]
  obtain ⟨next, hnext⟩ :=
    Option.isSome_iff_exists.1 ((decodeRecord_isSome r.active r.code r.data state).2 r.known)
  unfold InputRecord.apply
  rw [hnext]
  rfl

/-- The records of a report are applied in order. -/
theorem decodeRecords_recordBytes : ∀ (rs : List InputRecord) {fuel : Nat} (state : IineInputState),
    (recordBytes rs).length ≤ fuel →
    decodeRecords fuel (recordBytes rs) state = some (rs.foldl InputRecord.apply state)
  | [], 0, _, _ => rfl
  | [], _ + 1, _, _ => rfl
  | r :: rs, 0, _, h => absurd h (Nat.not_succ_le_zero _)
  | r :: rs, fuel + 1, state, h => by
    have hbytes : recordBytes (r :: rs) = r.active :: r.code :: (r.data ++ recordBytes rs) := rfl
    have hlen : (recordBytes (r :: rs)).length = recordSize r.code + (recordBytes rs).length := by
      rw [hbytes, ← r.complete]
      simp only [List.length_cons, List.length_append]
      omega
    have hdrop : (recordBytes (r :: rs)).drop (recordSize r.code) = recordBytes rs := by
      rw [hbytes, ← r.complete, List.drop_succ_cons, List.drop_succ_cons, List.drop_left]
    rw [hlen] at h
    have hpos : 2 ≤ recordSize r.code := by
      rw [← r.complete]
      exact Nat.le_add_left 2 _
    have hgood : ¬ (1 < r.active ∨ (recordBytes (r :: rs)).length < recordSize r.code) := by
      rw [hlen, not_or]
      exact ⟨UInt8.not_lt.2 r.active_le, Nat.not_lt.2 (Nat.le_add_right _ _)⟩
    rw [hbytes, decodeRecords]
    rw [← hbytes, if_neg hgood, r.decodeRecord_eq, hdrop]
    exact decodeRecords_recordBytes rs (r.apply state) (by omega)

/-- What is accepted is a sequence of records. -/
theorem exists_recordBytes : ∀ {fuel : Nat} {records : List UInt8} {state next : IineInputState},
    records.length ≤ fuel →
    decodeRecords fuel records state = some next → ∃ rs, records = recordBytes rs
  | 0, [], _, _, _, _ => ⟨[], rfl⟩
  | _ + 1, [], _, _, _, _ => ⟨[], rfl⟩
  | _ + 1, [_], _, _, _, h => absurd h nofun
  | fuel + 1, active :: code :: rest, state, next, hlen, h => by
    rw [decodeRecords] at h
    split at h
    · exact absurd h nofun
    rename_i hgood
    rw [not_or, UInt8.not_lt, Nat.not_lt] at hgood
    cases hr : decodeRecord active code rest state with
    | none =>
      rw [hr] at h
      exact absurd h nofun
    | some next' =>
      rw [hr] at h
      have hknown : KnownCode code := (decodeRecord_isSome active code rest state).1 (by rw [hr]; rfl)
      have hsize : 2 ≤ recordSize code := by
        unfold recordSize
        split
        · decide
        · split <;> decide
      obtain ⟨k, hk⟩ : ∃ k, recordSize code = k + 2 := ⟨recordSize code - 2, by omega⟩
      rw [hk] at h hgood
      simp only [List.length_cons] at hgood hlen
      have hdrop : (active :: code :: rest).drop (k + 2) = rest.drop k := rfl
      dsimp only at h
      rw [hdrop] at h
      obtain ⟨rs, hrs⟩ := exists_recordBytes (by rw [List.length_drop]; omega) h
      refine ⟨⟨active, code, rest.take k, hgood.1, hknown, by rw [List.length_take, hk]; omega⟩ :: rs, ?_⟩
      show active :: code :: rest = active :: code :: (rest.take k ++ recordBytes rs)
      rw [← hrs, List.take_append_drop]

/-! ## What a record names -/

namespace InputRecord

def buttons (r : InputRecord) : UInt32 :=
  match recordButton r.code with
  | some button => 1 <<< UInt32.ofNat button
  | none => 0

def directions (r : InputRecord) : UInt8 :=
  if 0x0d ≤ r.code ∧ r.code ≤ 0x10 then ([2, 1, 4, 8] : List UInt8).getD (r.code - 0x0d).toNat 0 else 0

def axes (r : InputRecord) : List Nat :=
  if r.code = 0x12 then [0, 1] else if r.code = 0x13 then [3, 4]
  else if r.code = 7 then [2] else if r.code = 8 then [5] else []

def axesPresent (r : InputRecord) : UInt8 :=
  if r.code = 0x12 then 3 else if r.code = 0x13 then 0x18 else if r.code = 7 then 4 else if r.code = 8 then 0x20 else 0

end InputRecord

/-- What no record names is as it was: bits of masks that meet no record's bits, and other axes. -/
structure Unnamed (rs : List InputRecord) (state next : IineInputState) : Prop where
  buttons : ∀ mask, (∀ r ∈ rs, r.buttons &&& mask = 0) → next.buttons &&& mask = state.buttons &&& mask
  directions : ∀ mask, (∀ r ∈ rs, r.directions &&& mask = 0) → next.dpad &&& mask = state.dpad &&& mask
  axes : ∀ i, (∀ r ∈ rs, i ∉ r.axes) → next.axes[i]? = state.axes[i]?
  axesPresent : ∀ mask, (∀ r ∈ rs, r.axesPresent &&& mask = 0) → next.axesPresent &&& mask = state.axesPresent &&& mask
  hat : next.hat = state.hat

theorem or_and_disjoint {w : Nat} {a b m : BitVec w} (h : b &&& m = 0#w) : (a ||| b) &&& m = a &&& m := by
  rw [BitVec.and_or_distrib_right, h, BitVec.or_zero]

theorem andNot_and_disjoint {w : Nat} {a b m : BitVec w} (h : b &&& m = 0#w) :
    (a &&& ~~~b) &&& m = a &&& m := by
  refine BitVec.eq_of_getLsbD_eq fun i hi => ?_
  have hbit := congrArg (BitVec.getLsbD · i) h
  simp only [BitVec.getLsbD_and, BitVec.getLsbD_zero] at hbit
  simp only [BitVec.getLsbD_and, BitVec.getLsbD_not, hi, decide_true, Bool.true_and]
  cases hb : b.getLsbD i
  · simp
  · rw [hb, Bool.true_and] at hbit
    simp [hbit]

/-- Setting or clearing bits leaves a mask that does not meet them. -/
theorem switch32_and {bit mask : UInt32} (h : bit &&& mask = 0) (a : UInt32) (c : Prop) [Decidable c] :
    (if c then a ||| bit else a &&& ~~~bit) &&& mask = a &&& mask := by
  have hb : bit.toBitVec &&& mask.toBitVec = 0#32 := congrArg UInt32.toBitVec h
  split
  · exact UInt32.toBitVec_inj.1 (or_and_disjoint hb)
  · exact UInt32.toBitVec_inj.1 (andNot_and_disjoint hb)

theorem switch8_and {bit mask : UInt8} (h : bit &&& mask = 0) (a : UInt8) (c : Prop) [Decidable c] :
    (if c then a ||| bit else a &&& ~~~bit) &&& mask = a &&& mask := by
  have hb : bit.toBitVec &&& mask.toBitVec = 0#8 := congrArg UInt8.toBitVec h
  split
  · exact UInt8.toBitVec_inj.1 (or_and_disjoint hb)
  · exact UInt8.toBitVec_inj.1 (andNot_and_disjoint hb)

theorem or8_and {bit mask : UInt8} (h : bit &&& mask = 0) (a : UInt8) :
    (a ||| bit) &&& mask = a &&& mask := switch8_and h a True

theorem axis_other (state : IineInputState) {i j : Nat} (h : i ≠ j) (value : UInt8) :
    (state.axis i value).axes[j]? = state.axes[j]? :=
  Vector.getElem?_setIfInBounds_ne h

theorem InputRecord.apply_stick (r : InputRecord) (state : IineInputState)
    (h : r.code = 0x12 ∨ r.code = 0x13) :
    Unnamed [r] state (InputRecord.apply state r) := by
  rcases h with h | h
  · have happly : InputRecord.apply state r =
        { (state.axis 0 (r.data.getD 0 0)).axis 1 (r.data.getD 1 0) with
          axesPresent := state.axesPresent ||| 3 } := by
      unfold InputRecord.apply decodeRecord
      rw [h]
      rfl
    rw [happly]
    refine ⟨fun _ _ => rfl, fun _ _ => rfl, fun i hi => ?_, fun mask hm => ?_, rfl⟩
    · have haxes := hi r List.mem_cons_self
      rw [InputRecord.axes, if_pos h] at haxes
      simp only [List.mem_cons, List.not_mem_nil, or_false, not_or] at haxes
      exact (axis_other _ (Ne.symm haxes.2) _).trans (axis_other _ (Ne.symm haxes.1) _)
    · have hpresent := hm r List.mem_cons_self
      rw [InputRecord.axesPresent, if_pos h] at hpresent
      exact or8_and hpresent _
  · have hne : r.code ≠ 0x12 := by
      rw [h]
      decide
    have happly : InputRecord.apply state r =
        { (state.axis 3 (r.data.getD 0 0)).axis 4 (r.data.getD 1 0) with
          axesPresent := state.axesPresent ||| 0x18 } := by
      unfold InputRecord.apply decodeRecord
      rw [h]
      rfl
    rw [happly]
    refine ⟨fun _ _ => rfl, fun _ _ => rfl, fun i hi => ?_, fun mask hm => ?_, rfl⟩
    · have haxes := hi r List.mem_cons_self
      rw [InputRecord.axes, if_neg hne, if_pos h] at haxes
      simp only [List.mem_cons, List.not_mem_nil, or_false, not_or] at haxes
      exact (axis_other _ (Ne.symm haxes.2) _).trans (axis_other _ (Ne.symm haxes.1) _)
    · have hpresent := hm r List.mem_cons_self
      rw [InputRecord.axesPresent, if_neg hne, if_pos h] at hpresent
      exact or8_and hpresent _

theorem InputRecord.apply_direction (r : InputRecord) (state : IineInputState)
    (hs : ¬ (r.code = 0x12 ∨ r.code = 0x13))
    (h : 0x0d ≤ r.code ∧ r.code ≤ 0x10) : Unnamed [r] state (InputRecord.apply state r) := by
  have happly : InputRecord.apply state r =
      { state with dpad := if r.active ≠ 0 then state.dpad ||| r.directions else state.dpad &&& ~~~r.directions } := by
    unfold InputRecord.apply decodeRecord InputRecord.directions
    rw [if_neg hs, if_pos h, if_pos h]
    rfl
  rw [happly]
  refine ⟨fun _ _ => rfl, fun mask hm => ?_, fun _ _ => rfl, fun _ _ => rfl, rfl⟩
  exact switch8_and (hm r List.mem_cons_self) _ _

theorem InputRecord.apply_button (r : InputRecord) (state : IineInputState)
    (hs : ¬ (r.code = 0x12 ∨ r.code = 0x13))
    (hd : ¬ (0x0d ≤ r.code ∧ r.code ≤ 0x10)) : Unnamed [r] state (InputRecord.apply state r) := by
  obtain ⟨button, hb⟩ := Option.isSome_iff_exists.1 ((r.known.resolve_left hs).resolve_left hd)
  have hbuttons : r.buttons = 1 <<< UInt32.ofNat button := by
    unfold InputRecord.buttons
    rw [hb]
  rw [not_or] at hs
  have hpressed : ∀ mask, (∀ r' ∈ [r], r'.buttons &&& mask = 0) →
      (if r.active ≠ 0 then state.buttons ||| 1 <<< UInt32.ofNat button else state.buttons &&&
        ~~~(1 <<< UInt32.ofNat button)) &&& mask =
        state.buttons &&& mask := fun mask hm => switch32_and (hbuttons ▸ hm r List.mem_cons_self) _ _
  -- the two triggers have an axis as well
  by_cases h7 : r.code = 7
  · have happly : InputRecord.apply state r = { state.axis 2 (r.data.getD 0 0) with
        buttons := if r.active ≠ 0 then state.buttons ||| 1 <<< UInt32.ofNat button
          else state.buttons &&& ~~~(1 <<< UInt32.ofNat button)
        axesPresent := state.axesPresent ||| 4 } := by
      unfold InputRecord.apply decodeRecord
      rw [hb, h7]
      rfl
    rw [happly]
    refine ⟨hpressed, fun _ _ => rfl, fun i hi => ?_, fun mask hm => ?_, rfl⟩
    · have haxes := hi r List.mem_cons_self
      rw [InputRecord.axes, if_neg hs.1, if_neg hs.2, if_pos h7, List.mem_singleton] at haxes
      exact axis_other _ (Ne.symm haxes) _
    · have hpresent := hm r List.mem_cons_self
      rw [InputRecord.axesPresent, if_neg hs.1, if_neg hs.2, if_pos h7] at hpresent
      exact or8_and hpresent _
  by_cases h8 : r.code = 8
  · have happly : InputRecord.apply state r = { state.axis 5 (r.data.getD 0 0) with
        buttons := if r.active ≠ 0 then state.buttons ||| 1 <<< UInt32.ofNat button
          else state.buttons &&& ~~~(1 <<< UInt32.ofNat button)
        axesPresent := state.axesPresent ||| 0x20 } := by
      unfold InputRecord.apply decodeRecord
      rw [hb, h8]
      rfl
    rw [happly]
    refine ⟨hpressed, fun _ _ => rfl, fun i hi => ?_, fun mask hm => ?_, rfl⟩
    · have haxes := hi r List.mem_cons_self
      rw [InputRecord.axes, if_neg hs.1, if_neg hs.2, if_neg h7, if_pos h8, List.mem_singleton] at haxes
      exact axis_other _ (Ne.symm haxes) _
    · have hpresent := hm r List.mem_cons_self
      rw [InputRecord.axesPresent, if_neg hs.1, if_neg hs.2, if_neg h7, if_pos h8] at hpresent
      exact or8_and hpresent _
  · have happly : InputRecord.apply state r = { state with
        buttons := if r.active ≠ 0 then state.buttons ||| 1 <<< UInt32.ofNat button
          else state.buttons &&& ~~~(1 <<< UInt32.ofNat button) } := by
      unfold InputRecord.apply decodeRecord
      rw [hb, if_neg (not_or.2 hs), if_neg hd]
      dsimp only
      rw [if_neg (not_or.2 ⟨h7, h8⟩)]
      rfl
    rw [happly]
    exact ⟨hpressed, fun _ _ => rfl, fun _ _ => rfl, fun _ _ => rfl, rfl⟩

theorem InputRecord.apply_unnamed (r : InputRecord) (state : IineInputState) :
    Unnamed [r] state (InputRecord.apply state r) := by
  by_cases hs : r.code = 0x12 ∨ r.code = 0x13
  · exact r.apply_stick state hs
  by_cases hd : 0x0d ≤ r.code ∧ r.code ≤ 0x10
  · exact r.apply_direction state hs hd
  · exact r.apply_button state hs hd

theorem Unnamed.cons {r : InputRecord} {rs : List InputRecord} {state mid next : IineInputState}
    (h : Unnamed [r] state mid) (h' : Unnamed rs mid next) : Unnamed (r :: rs) state next where
  buttons mask hm := (h'.buttons mask fun r' hr' => hm r' (List.mem_cons_of_mem r hr')).trans
    (h.buttons mask fun r' hr' => hm r' (List.mem_singleton.1 hr' ▸ List.mem_cons_self))
  directions mask hm := (h'.directions mask fun r' hr' => hm r' (List.mem_cons_of_mem r hr')).trans
    (h.directions mask fun r' hr' => hm r' (List.mem_singleton.1 hr' ▸ List.mem_cons_self))
  axes i hi := (h'.axes i fun r' hr' => hi r' (List.mem_cons_of_mem r hr')).trans
    (h.axes i fun r' hr' => hi r' (List.mem_singleton.1 hr' ▸ List.mem_cons_self))
  axesPresent mask hm := (h'.axesPresent mask fun r' hr' => hm r' (List.mem_cons_of_mem r hr')).trans
    (h.axesPresent mask fun r' hr' => hm r' (List.mem_singleton.1 hr' ▸ List.mem_cons_self))
  hat := h'.hat.trans h.hat

theorem foldl_apply_unnamed : ∀ (rs : List InputRecord) (state : IineInputState),
    Unnamed rs state (rs.foldl InputRecord.apply state)
  | [], _ => ⟨fun _ _ => rfl, fun _ _ => rfl, fun _ _ => rfl, fun _ _ => rfl, rfl⟩
  | r :: rs, state => (r.apply_unnamed state).cons (foldl_apply_unnamed rs (r.apply state))

/-! ## Reports -/

theorem recordBytes_length {rs : List InputRecord} (h : rs ≠ []) : 2 ≤ (recordBytes rs).length := by
  cases rs with
  | nil => exact absurd rfl h
  | cons r rs =>
    show 2 ≤ (r.active :: r.code :: (r.data ++ recordBytes rs)).length
    exact Nat.le_add_left 2 _

/-- A report of some records applies them. -/
theorem iineInputDecode_recordBytes {rs : List InputRecord} (h : rs ≠ [])
    (hfit : (inputReport (recordBytes rs)).length ≤ IINE_PAYLOAD_MAX)
    (state : IineInputState) :
    iineInputDecode (inputReport (recordBytes rs)) state =
      some (rs.foldl InputRecord.apply state) := by
  have hlen := recordBytes_length h
  have hreport : (inputReport (recordBytes rs)).length = (recordBytes rs).length + 1 := rfl
  have hbyte : ((inputReport (recordBytes rs)).getD 0 0).toNat = (recordBytes rs).length := by
    show (UInt8.ofNat (recordBytes rs).length).toNat = (recordBytes rs).length
    unfold IINE_PAYLOAD_MAX at hfit
    rw [UInt8.toNat_ofNat']
    omega
  unfold iineInputDecode
  rw [if_neg (by rw [hbyte]; omega)]
  exact decodeRecords_recordBytes rs state (by rw [hreport]; exact Nat.le_succ _)

/-- An accepted report is one of some records. -/
theorem exists_of_iineInputDecode {payload : List UInt8} {state next : IineInputState}
    (h : iineInputDecode payload state = some next) :
    payload.length ≤ IINE_PAYLOAD_MAX ∧ ∃ rs, rs ≠ [] ∧ payload = inputReport (recordBytes rs) := by
  unfold iineInputDecode at h
  split at h
  · exact absurd h nofun
  rename_i hgood
  rw [not_or, not_or, Nat.not_lt, Nat.not_lt, not_not] at hgood
  obtain ⟨hmin, hmax, hbyte⟩ := hgood
  obtain ⟨rs, hrs⟩ := exists_recordBytes (by rw [List.length_drop]; omega) h
  refine ⟨hmax, rs, ?_, ?_⟩
  · rintro rfl
    have hnil := congrArg List.length hrs
    rw [List.length_drop] at hnil
    simp only [recordBytes, List.flatMap_nil, List.length_nil] at hnil
    omega
  · match payload, hmin with
    | first :: records, _ =>
      have hrecords : records = recordBytes rs := hrs
      have hfirst : first.toNat = records.length := hbyte
      rw [← hrecords]
      unfold inputReport
      rw [← hfirst, UInt8.ofNat_toNat]

theorem recordBytes_append (rs rs' : List InputRecord) :
    recordBytes (rs ++ rs') = recordBytes rs ++ recordBytes rs' := List.flatMap_append

theorem recordBytes_of_report {rs : List InputRecord} {a : List UInt8}
    (h : inputReport a = inputReport (recordBytes rs)) :
    a = recordBytes rs := (List.cons.inj h).2

/-- The empty report has the right length byte and no bad record, and is not accepted. -/
theorem iineInputDecode_no_records :
    ¬ ∀ (payload : List UInt8) (state : IineInputState), payload.length ≤ IINE_PAYLOAD_MAX →
    ((iineInputDecode payload state).isSome ↔ ∃ rs, payload = inputReport (recordBytes rs)) := by
  intro h
  exact absurd ((h [0] {} (by decide)).2 ⟨[], rfl⟩) (by decide)

/-- Reports are accepted when they are of one record at least, compose when their records do, change nothing
when they are not accepted, and otherwise only what their records name. -/
theorem iineInputDecode_reports :
    (∀ (payload : List UInt8) (state : IineInputState), payload.length ≤ IINE_PAYLOAD_MAX →
      ((iineInputDecode payload state).isSome ↔ ∃ rs, rs ≠ [] ∧ payload = inputReport (recordBytes rs))) ∧
    (∀ (a b : List UInt8) (state state' : IineInputState), (iineInputDecode (inputReport a) state).isSome →
      (iineInputDecode (inputReport b) state').isSome → (inputReport (a ++ b)).length ≤ IINE_PAYLOAD_MAX →
      iineInputDecode (inputReport (a ++ b)) state = (iineInputDecode (inputReport a) state).bind
        (iineInputDecode (inputReport b))) ∧
    (∀ (payload : List UInt8) (state : IineInputState), (iineInputDecode payload state).isNone →
      iineInputDecodeInto payload state = (false, state)) ∧
    (∀ (n : Nat) (s : Iine n) (i : Fin n) (packet : IinePacket), packet.opcode = 0x1f →
      (iineInputDecode packet.payload (s.links i).input).isNone → receivePacket i packet s = s) ∧
    (∀ (rs : List InputRecord) (state next : IineInputState),
      iineInputDecode (inputReport (recordBytes rs)) state = some next →
      Unnamed rs state next) := by
  refine ⟨fun payload state hfit => ⟨fun h => ?_, ?_⟩, fun a b state state' ha hb hfit => ?_,
    fun payload state h => ?_,
    fun n s i packet hop h => ?_, fun rs state next h => ?_⟩
  · obtain ⟨next, hnext⟩ := Option.isSome_iff_exists.1 h
    exact (exists_of_iineInputDecode hnext).2
  · rintro ⟨rs, hne, rfl⟩
    rw [iineInputDecode_recordBytes hne hfit]
    rfl
  · obtain ⟨next, hnext⟩ := Option.isSome_iff_exists.1 ha
    obtain ⟨next', hnext'⟩ := Option.isSome_iff_exists.1 hb
    obtain ⟨hfitA, rs, hne, hrs⟩ := exists_of_iineInputDecode hnext
    obtain ⟨hfitB, rs', hne', hrs'⟩ := exists_of_iineInputDecode hnext'
    obtain rfl := recordBytes_of_report hrs
    obtain rfl := recordBytes_of_report hrs'
    -- the records of one report, then those of the other
    have hboth : rs ++ rs' ≠ [] := List.append_ne_nil_of_left_ne_nil hne rs'
    rw [← recordBytes_append] at hfit ⊢
    rw [iineInputDecode_recordBytes hboth hfit, iineInputDecode_recordBytes hne hfitA, Option.bind_some,
      iineInputDecode_recordBytes hne' hfitB, List.foldl_append]
  · rw [Option.isNone_iff_eq_none] at h
    unfold iineInputDecodeInto
    rw [h]
  · rw [Option.isNone_iff_eq_none] at h
    unfold receivePacket
    dsimp only
    rw [if_neg fun hc => absurd (hop.symm.trans hc.2.2.2.1) (by decide), h]
    exact ite_self s
  · obtain ⟨hfit, rs', hne, hrs⟩ := exists_of_iineInputDecode h
    have hne' : rs ≠ [] := by
      rintro rfl
      have hlen := congrArg List.length (recordBytes_of_report hrs.symm)
      have hpos := recordBytes_length hne
      simp only [recordBytes, List.flatMap_nil, List.length_nil] at hlen
      simp only [recordBytes] at hpos
      omega
    rw [iineInputDecode_recordBytes hne' hfit] at h
    rw [← Option.some.inj h]
    exact foldl_apply_unnamed rs state

/-- A trigger that is pressed, and a stick that is moved. -/
def triggerRecord : InputRecord := ⟨1, 0x07, [200, 0], by decide, .inr (.inr rfl), rfl⟩

def stickRecord : InputRecord := ⟨1, 0x12, [90, 140, 0, 0], by decide, .inl (.inl rfl), rfl⟩

theorem iineInputDecode_reports_trigger :
    iineInputDecode (inputReport (recordBytes [triggerRecord] ++ recordBytes [stickRecord])) {}
      = (iineInputDecode (inputReport (recordBytes [triggerRecord])) {}).bind
        (iineInputDecode (inputReport (recordBytes [stickRecord]))) ∧
    Unnamed [triggerRecord] {} (triggerRecord.apply {}) :=
  ⟨iineInputDecode_reports.2.1 _ _ {} {} (by decide) (by decide) (by decide), iineInputDecode_reports.2.2.2.2 _ _ _ rfl⟩

end FoloGameboy

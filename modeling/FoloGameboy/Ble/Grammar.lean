/-
Which payloads are accepted: those that split into fields whose lengths suit their types. What an accepted
payload says is read off its fields, and no load leaves the payload, whatever it is.
-/
import FoloGameboy.Ble.Cache
import FoloGameboy.Tools.Names
import Mathlib.Data.List.Induction

namespace FoloGameboy

open LoadAt

/-! ## The grammar -/

/-- A payload is fields of a type and a value, each behind its length; a length of zero ends it. -/
inductive AdStructure : List UInt8 → List (UInt8 × List UInt8) → Prop where
  | done : AdStructure [] []
  | stop {rest : List UInt8} : AdStructure (0 :: rest) []
  | field {length type : UInt8} {value rest : List UInt8} {fs : List (UInt8 × List UInt8)}
      (hlen : value.length + 1 = length.toNat)
      (h : AdStructure rest fs) : AdStructure (length :: type :: (value ++ rest)) ((type, value) :: fs)

structure LengthOk (f : UInt8 × List UInt8) : Prop where
  uuid16 : f.1 = 0x02 ∨ f.1 = 0x03 → 2 ∣ f.2.length
  uuid32 : f.1 = 0x04 ∨ f.1 = 0x05 → 4 ∣ f.2.length
  uuid128 : f.1 = 0x06 ∨ f.1 = 0x07 → 16 ∣ f.2.length
  serviceData : f.1 = 0x16 → 2 ≤ f.2.length
  appearance : f.1 = 0x19 → f.2.length = 2

def Grammatical (data : List UInt8) (fs : List (UInt8 × List UInt8)) : Prop :=
  AdStructure data fs ∧ ∀ f ∈ fs, LengthOk f

/-! ## What a field says -/

def pieces (width : Nat) (value : List UInt8) : List (List UInt8) := chunks width (value.length / width) value

/-- A field names the HID service. -/
def namesHid (f : UInt8 × List UInt8) : Bool :=
  if f.1 = 0x02 ∨ f.1 = 0x03 then decide ([0x12, 0x18] ∈ pieces 2 f.2)
  else if f.1 = 0x04 ∨ f.1 = 0x05 then decide ([0x12, 0x18, 0, 0] ∈ pieces 4 f.2)
  else if f.1 = 0x16 then decide (f.2.take 2 = [0x12, 0x18])
  else if f.1 = 0x06 ∨ f.1 = 0x07 then decide (advHidUuid ∈ pieces 16 f.2)
  else false

def namesIine (f : UInt8 × List UInt8) : Bool := decide ((f.1 = 0x06 ∨ f.1 = 0x07) ∧ advIineUuid ∈ pieces 16 f.2)

def appearanceOf (value : List UInt8) : UInt16 := (value.getD 0 0).toUInt16 ||| ((value.getD 1 0).toUInt16 <<< 8)

/-- Where a name is cut: not before a byte that continues a UTF-8 sequence. -/
def cutBefore (value : List UInt8) : Nat → Nat
  | 0 => 0
  | n + 1 => if value.getD (n + 1) 0 &&& 0xc0 = 0x80 then cutBefore value n else n + 1

/-- The part of a name that is stored. -/
def storedName (value : List UInt8) : List UInt8 :=
  if UNI_BT_LE_ADV_NAME_SIZE ≤ value.length then value.take (cutBefore value (UNI_BT_LE_ADV_NAME_SIZE - 1)) else value

def isName (complete : Bool) (f : UInt8 × List UInt8) : Bool :=
  decide (f.1 = if complete then 0x09 else 0x08) && !f.2.isEmpty

/-- The name of a packet: the last complete one, or else the last short one. -/
def nameOf (fs : List (UInt8 × List UInt8)) : Option (List UInt8) :=
  ((fs.filter (isName true)).getLast? <|> (fs.filter (isName false)).getLast?).map (·.2)

/-- What a packet says, by its fields. -/
structure Evidence (fs : List (UInt8 × List UInt8)) (p : AdvFields) : Prop where
  hidService : p.fields.hidService = fs.any namesHid
  iineService : p.fields.iineService = fs.any namesIine
  hasAppearance : p.hasAppearance = fs.any (·.1 == 0x19)
  appearance : p.fields.appearance = ((fs.filter (·.1 == 0x19)).getLast?.map fun f => appearanceOf f.2).getD 0
  completeName : p.fields.completeName = fs.any (isName true)
  name : cstr p.fields.name.toList = cstr (((nameOf fs).map storedName).getD [])

/-! ## A field -/

@[simp] theorem foundHid_false (fields : AdvEntry) : foundHid false fields = fields := by
  rw [foundHid, Bool.or_false]

@[simp] theorem foundIine_false (fields : AdvEntry) : foundIine false fields = fields := by
  rw [foundIine, Bool.or_false]

theorem foldl_found (f g : List UInt8 → Bool) : ∀ (l : List (List UInt8)) (s : AdvEntry),
    l.foldl (fun s piece => foundIine (g piece) (foundHid (f piece) s)) s =
      foundIine (l.any g) (foundHid (l.any f) s)
  | [], s => by simp
  | piece :: l, s => by
    rw [List.foldl_cons, foldl_found f g l]
    simp only [foundIine, foundHid, List.any_cons, Bool.or_assoc]

theorem any_eq_mem (uuid : List UInt8) (l : List (List UInt8)) :
    l.any (fun piece => decide (piece = uuid)) = decide (uuid ∈ l) := by
  rw [Bool.eq_iff_iff, List.any_eq_true, decide_eq_true_eq]
  constructor
  · rintro ⟨piece, hmem, heq⟩
    exact of_decide_eq_true heq ▸ hmem
  · exact fun hmem => ⟨uuid, hmem, decide_eq_true rfl⟩

/-- What a field of the right length adds to the packet. -/
def applyField (p : AdvFields) (f : UInt8 × List UInt8) : AdvFields :=
  let fields := foundIine (namesIine f) (foundHid (namesHid f) p.fields)
  if f.1 = 0x19 then { fields := { fields with appearance := appearanceOf f.2 }, hasAppearance := true }
  else if isName true f ∨ (isName false f ∧ p.fields.completeName = false) then
    { p with fields := { fields with name := copyName (storedName f.2) fields.name, completeName := isName true f } }
  else { p with fields := fields }

theorem uuidList_window {data value : List UInt8} {pos width : Nat} (hw : Window data pos value)
    {body : Nat → AdvEntry → Option AdvEntry} {f g : List UInt8 → Bool}
    (hbody : ∀ pos piece s, Window data pos piece → piece.length = width →
      body pos s = some (foundIine (g piece) (foundHid (f piece) s)))
    (p : AdvFields) : uuidList width body pos value.length p =
      some (if width ∣ value.length then some { p with
        fields := foundIine ((pieces width value).any g) (foundHid ((pieces width value).any f) p.fields) }
        else none) := by
  unfold uuidList
  by_cases h : width ∣ value.length
  · have hlen : value.length = value.length / width * width := (Nat.div_mul_cancel h).symm
    rw [if_neg (not_not_intro (Nat.mod_eq_zero_of_dvd h)), hw.foldAt hlen hbody, if_pos h, foldl_found]
    rfl
  · rw [if_pos fun h0 => h (Nat.dvd_of_mod_eq_zero h0), if_neg h]

theorem matchAt_piece {data piece : List UInt8} {pos : Nat} (hw : Window data pos piece)
    (uuid : List UInt8) (h : piece.length = uuid.length) :
    matchAt data pos uuid = some (decide (piece = uuid)) := by
  rw [hw.matchAt (Nat.le_of_eq h.symm), ← h, List.take_length]

theorem memcmpAt_piece {data piece : List UInt8} {pos : Nat} (hw : Window data pos piece)
    (uuid : List UInt8) (h : piece.length = uuid.length) :
    memcmpAt data uuid pos = some (decide (piece = uuid)) := by
  rw [memcmpAt, ← h, hw.bytesAt, Option.map_some, beq_eq_decide]

theorem nameLength_window {data value : List UInt8} {pos : Nat} (hw : Window data pos value) :
    ∀ {n : Nat}, n < value.length → nameLength data pos n = some (cutBefore value n)
  | 0, _ => rfl
  | n + 1, h => by
    rw [nameLength, hw.getElem? h, cutBefore, List.getD_eq_getElem _ _ h]
    dsimp only
    split
    · exact nameLength_window hw (Nat.lt_of_succ_lt h)
    · rfl

theorem cutBefore_le (value : List UInt8) : ∀ n, cutBefore value n ≤ n
  | 0 => Nat.le_refl 0
  | n + 1 => by
    rw [cutBefore]
    split
    · exact Nat.le_succ_of_le (cutBefore_le value n)
    · exact Nat.le_refl _

/-- A field is parsed, or its length does not suit its type. -/
def FieldParsed (f : UInt8 × List UInt8) (p : AdvFields) (r : Option (Option AdvFields)) : Prop :=
  (LengthOk f ∧ r = some (some (applyField p f))) ∨ (¬ LengthOk f ∧ r = some none)

theorem fieldParsed_if {f : UInt8 × List UInt8} {p p' : AdvFields} {c : Prop} [Decidable c]
    (hok : LengthOk f ↔ c) (hp : p' = applyField p f) :
    FieldParsed f p (some (if c then some p' else none)) := by
  split
  · rename_i h
    exact .inl ⟨hok.2 h, by rw [hp]⟩
  · rename_i h
    exact .inr ⟨fun hf => h (hok.1 hf), rfl⟩

theorem advField_uuid16 {data value : List UInt8} {pos : Nat} (hw : Window data pos value)
    {type : UInt8} (h : type = 0x02 ∨ type = 0x03)
    (p : AdvFields) : FieldParsed (type, value) p (advField data type pos value.length p) := by
  rw [advField, if_pos h, uuidList_window hw (f := fun piece => decide (piece = [0x12, 0x18]))
    (g := fun _ => false)]
  · refine fieldParsed_if ?_ ?_
    · rcases h with rfl | rfl <;>
        exact ⟨fun hok => hok.uuid16 (by simp),
          fun hlen => ⟨fun _ => hlen, by simp, by simp, by simp, by simp⟩⟩
    · rw [any_eq_mem, List.any_eq_false.2 fun _ _ => Bool.false_ne_true]
      rcases h with rfl | rfl <;> simp [applyField, namesHid, namesIine, isName]
  · intro pos piece s hp hlen
    rw [matchAt_piece hp [0x12, 0x18] hlen, foundIine_false]
    rfl

theorem advField_uuid32 {data value : List UInt8} {pos : Nat} (hw : Window data pos value)
    {type : UInt8} (h : type = 0x04 ∨ type = 0x05)
    (p : AdvFields) : FieldParsed (type, value) p (advField data type pos value.length p) := by
  have h16 : ¬ (type = 0x02 ∨ type = 0x03) := by rcases h with rfl | rfl <;> decide
  rw [advField, if_neg h16, if_pos h,
    uuidList_window hw (f := fun piece => decide (piece = [0x12, 0x18, 0, 0]))
    (g := fun _ => false)]
  · refine fieldParsed_if ?_ ?_
    · rcases h with rfl | rfl <;>
        exact ⟨fun hok => hok.uuid32 (by simp),
          fun hlen => ⟨by simp, fun _ => hlen, by simp, by simp, by simp⟩⟩
    · rw [any_eq_mem, List.any_eq_false.2 fun _ _ => Bool.false_ne_true]
      rcases h with rfl | rfl <;> simp [applyField, namesHid, namesIine, isName]
  · intro pos piece s hp hlen
    rw [matchAt_piece hp [0x12, 0x18, 0, 0] hlen, foundIine_false]
    rfl

theorem advField_uuid128 {data value : List UInt8} {pos : Nat} (hw : Window data pos value)
    {type : UInt8} (h : type = 0x06 ∨ type = 0x07)
    (p : AdvFields) : FieldParsed (type, value) p (advField data type pos value.length p) := by
  have hother : ¬ (type = 0x02 ∨ type = 0x03) ∧ ¬ (type = 0x04 ∨ type = 0x05) ∧ type ≠ 0x16 := by
    rcases h with rfl | rfl <;> decide
  rw [advField, if_neg hother.1, if_neg hother.2.1, if_neg hother.2.2, if_pos h,
    uuidList_window hw (f := fun piece => decide (piece = advHidUuid))
      (g := fun piece => decide (piece = advIineUuid))]
  · refine fieldParsed_if ?_ ?_
    · rcases h with rfl | rfl <;>
        exact ⟨fun hok => hok.uuid128 (by simp),
          fun hlen => ⟨by simp, by simp, fun _ => hlen, by simp, by simp⟩⟩
    · rw [any_eq_mem, any_eq_mem]
      rcases h with rfl | rfl <;> simp [applyField, namesHid, namesIine, isName]
  · intro pos piece s hp hlen
    rw [memcmpAt_piece hp advHidUuid hlen, memcmpAt_piece hp advIineUuid hlen]
    rfl

theorem advField_serviceData {data value : List UInt8} {pos : Nat} (hw : Window data pos value)
    (p : AdvFields) :
    FieldParsed (0x16, value) p (advField data 0x16 pos value.length p) := by
  by_cases hlen : value.length < 2
  · exact .inr ⟨fun hok => absurd (hok.serviceData rfl) (Nat.not_le_of_lt hlen), if_pos hlen⟩
  · have hle := Nat.le_of_not_lt hlen
    refine .inl ⟨⟨by simp, by simp, by simp, fun _ => hle, by simp⟩, (if_neg hlen).trans ?_⟩
    rw [hw.matchAt (l := [0x12, 0x18]) hle]
    simp [applyField, namesHid, namesIine, isName]

theorem advField_appearance {data value : List UInt8} {pos : Nat} (hw : Window data pos value)
    (p : AdvFields) :
    FieldParsed (0x19, value) p (advField data 0x19 pos value.length p) := by
  by_cases hlen : value.length ≠ 2
  · exact .inr ⟨fun hok => hlen (hok.appearance rfl), if_pos hlen⟩
  · refine .inl ⟨⟨by simp, by simp, by simp, by simp, fun _ => not_not.1 hlen⟩, (if_neg hlen).trans ?_⟩
    obtain ⟨low, high, rfl⟩ : ∃ low high, value = [low, high] := by
      match value, not_not.1 hlen with
      | [low, high], _ => exact ⟨low, high, rfl⟩
    have hlow := hw.getElem? (i := 0) Nat.zero_lt_two
    have hhigh := hw.getElem? (i := 1) Nat.one_lt_two
    rw [Nat.add_zero] at hlow
    rw [hlow, hhigh]
    simp [applyField, namesHid, namesIine, appearanceOf]

theorem storedName_window {data value : List UInt8} {pos : Nat} (hw : Window data pos value) :
    ((if UNI_BT_LE_ADV_NAME_SIZE ≤ value.length then nameLength data pos
      (UNI_BT_LE_ADV_NAME_SIZE - 1) else some value.length).bind
      (bytesAt data pos)) = some (storedName value) := by
  unfold storedName
  split
  · rename_i hlen
    have hlt : UNI_BT_LE_ADV_NAME_SIZE - 1 < value.length := hlen
    have hcut := cutBefore_le value (UNI_BT_LE_ADV_NAME_SIZE - 1)
    have htake := (hw.take (n := cutBefore value (UNI_BT_LE_ADV_NAME_SIZE - 1)) (by omega)).bytesAt
    rw [List.length_take, Nat.min_eq_left (by omega)] at htake
    rw [nameLength_window hw hlt, Option.bind_some, htake]
  · exact hw.bytesAt

/-- The other types, the names among them, have any length. -/
theorem advField_other {data value : List UInt8} {pos : Nat} (hw : Window data pos value) {type : UInt8}
    (h : ¬ (type = 0x02 ∨ type = 0x03) ∧ ¬ (type = 0x04 ∨ type = 0x05) ∧ type ≠ 0x16 ∧
      ¬ (type = 0x06 ∨ type = 0x07) ∧ type ≠ 0x19)
    (p : AdvFields) : FieldParsed (type, value) p (advField data type pos value.length p) := by
  obtain ⟨h16, h32, hservice, h128, happearance⟩ := h
  refine .inl ⟨⟨(absurd · h16), (absurd · h32), (absurd · h128), (absurd · hservice),
    (absurd · happearance)⟩, ?_⟩
  rw [advField, if_neg h16, if_neg h32, if_neg hservice, if_neg h128, if_neg happearance]
  have hhid : namesHid (type, value) = false := by simp only [namesHid, h16, h32, hservice, h128, if_false]
  have hiine : namesIine (type, value) = false := by simp [namesIine, h128]
  rw [applyField, hhid, hiine, foundHid_false, foundIine_false, if_neg happearance]
  have hname : ((type = 0x09 ∨ type = 0x08) ∧ value.length ≠ 0 ∧
      (type = 0x09 ∨ p.fields.completeName = false)) ↔
      (isName true (type, value) = true ∨
        (isName false (type, value) = true ∧ p.fields.completeName = false)) := by
    simp only [isName, Bool.and_eq_true, decide_eq_true_eq, Bool.not_eq_true',
      List.isEmpty_eq_false_iff, ← List.length_pos_iff, if_true,
      Bool.false_eq_true, if_false, Nat.pos_iff_ne_zero]
    tauto
  by_cases hn : (type = 0x09 ∨ type = 0x08) ∧ value.length ≠ 0 ∧
    (type = 0x09 ∨ p.fields.completeName = false)
  · have hstored := storedName_window hw
    have hcomplete : (type == 0x09) = isName true (type, value) := by
      rw [isName, List.isEmpty_eq_false_iff.2
        (List.ne_nil_of_length_pos (Nat.pos_of_ne_zero hn.2.1)), Bool.not_false, Bool.and_true]
      show (type == 0x09) = decide (type = 0x09)
      rw [beq_eq_decide]
    obtain ⟨n, hn', hbytes⟩ := Option.bind_eq_some_iff.1 hstored
    rw [if_pos hn, if_pos (hname.1 hn), hn', Option.bind_some, hbytes, Option.map_some, hcomplete]
  · rw [if_neg hn, if_neg fun hc => hn (hname.2 hc)]

theorem advField_parsed {data value : List UInt8} {pos : Nat} (hw : Window data pos value)
    (type : UInt8) (p : AdvFields) :
    FieldParsed (type, value) p (advField data type pos value.length p) := by
  by_cases h16 : type = 0x02 ∨ type = 0x03
  · exact advField_uuid16 hw h16 p
  by_cases h32 : type = 0x04 ∨ type = 0x05
  · exact advField_uuid32 hw h32 p
  by_cases hservice : type = 0x16
  · exact hservice ▸ advField_serviceData hw p
  by_cases h128 : type = 0x06 ∨ type = 0x07
  · exact advField_uuid128 hw h128 p
  by_cases happearance : type = 0x19
  · exact happearance ▸ advField_appearance hw p
  exact advField_other hw ⟨h16, h32, hservice, h128, happearance⟩ p

/-! ## A payload -/

/-- A payload that is not empty, and does not stop, starts with a whole field. -/
theorem AdStructure.cons {length : UInt8} {rest : List UInt8} {fs : List (UInt8 × List UInt8)}
    (h : AdStructure (length :: rest) fs)
    (hlen : length ≠ 0) : ∃ type value rest' fs', value.length + 1 = length.toNat ∧
      rest = type :: (value ++ rest') ∧
      fs = (type, value) :: fs' ∧ AdStructure rest' fs' := by
  cases h with
  | stop => exact absurd rfl hlen
  | field hvalue h => exact ⟨_, _, _, _, hvalue, rfl, rfl, h⟩

theorem advFields_parsed (data : List UInt8) (n : Nat) :
    ∀ (rest : List UInt8) (pos : Nat) (p : AdvFields), rest.length ≤ n →
    Window data pos rest → pos + rest.length = data.length →
      (∃ fs, Grammatical rest fs ∧ advFields data pos p = some (some (fs.foldl applyField p))) ∨
        ((¬ ∃ fs, Grammatical rest fs) ∧ advFields data pos p = some none) := by
  -- on the length of what is left: a field is at least one byte
  induction n with
  | zero =>
    intro rest pos p hle hw hend
    obtain rfl := List.length_eq_zero_iff.1 (Nat.le_zero.1 hle)
    refine .inl ⟨[], ⟨.done, fun _ h => (nomatch h)⟩, ?_⟩
    rw [advFields, if_neg (by rw [← hend]; exact Nat.lt_irrefl _)]
    rfl
  | succ n ih =>
    intro rest pos p hle hw hend
    match rest, hle, hw, hend with
    | [], _, hw, hend => exact ih [] pos p (Nat.zero_le n) hw hend
    | length :: tail, hle, hw, hend =>
      have hload : data[pos]? = some length := hw.getElem? (i := 0) (Nat.succ_pos _)
      rw [List.length_cons] at hend hle
      rw [advFields, if_pos (by omega), hload]
      dsimp only
      by_cases hzero : length = 0
      · refine .inl ⟨[], ⟨?_, fun _ h => (nomatch h)⟩, if_pos hzero⟩
        rw [hzero]
        exact .stop
      rw [if_neg hzero]
      -- a field longer than the payload fits no grammar
      by_cases hshort : data.length - (pos + 1) < length.toNat
      · refine .inr ⟨?_, if_pos hshort⟩
        rintro ⟨fs, hs, -⟩
        obtain ⟨type, value, rest', fs', hvalue, htail, -, -⟩ := hs.cons hzero
        rw [htail, List.length_cons, List.length_append] at hend
        omega
      rw [if_neg hshort]
      have hpos : 0 < length.toNat := Nat.pos_of_ne_zero fun h => hzero (UInt8.toNat_inj.1 h)
      obtain _ | ⟨type, more⟩ := tail
      · rw [List.length_nil] at hend
        omega
      rw [List.length_cons] at hend hle
      have htype : data[pos + 1]? = some type := hw.getElem? (i := 1) (Nat.succ_lt_succ (Nat.succ_pos _))
      rw [htype]
      dsimp only
      -- the value is the rest of the field, and the next field starts behind it
      have hvalue : (more.take (length.toNat - 1)).length = length.toNat - 1 := by
        rw [List.length_take]
        omega
      have hwvalue : Window data (pos + 2) (more.take (length.toNat - 1)) :=
        hw.sub (i := 2) (n := length.toNat - 1) (by rw [List.length_cons, List.length_cons]; omega)
      have hwrest : Window data (pos + 1 + length.toNat) (more.drop (length.toNat - 1)) := by
        have hdrop :=
          hw.drop (i := length.toNat - 1 + 2) (by rw [List.length_cons, List.length_cons]; omega)
        have hindex : pos + (length.toNat - 1 + 2) = pos + 1 + length.toNat := by omega
        rwa [hindex] at hdrop
      -- whatever the grammar makes of these bytes starts with this field
      have hsplit : ∀ fs, Grammatical (length :: type :: more) fs →
          LengthOk (type, more.take (length.toNat - 1)) ∧
          ∃ fs', fs = (type, more.take (length.toNat - 1)) :: fs' ∧
            Grammatical (more.drop (length.toNat - 1)) fs' := by
        rintro fs ⟨hs, hok⟩
        obtain ⟨type', value, rest', fs', hlen, htail, rfl, hs'⟩ := hs.cons hzero
        obtain ⟨rfl, hmore⟩ := List.cons.inj htail
        have hlen' : value.length = length.toNat - 1 := by omega
        have htake : more.take (length.toNat - 1) = value := by rw [hmore, ← hlen', List.take_left]
        have hdrop : more.drop (length.toNat - 1) = rest' := by rw [hmore, ← hlen', List.drop_left]
        rw [htake, hdrop]
        exact ⟨hok _ List.mem_cons_self, fs', rfl, hs', fun f hf => hok f (List.mem_cons_of_mem _ hf)⟩
      have hparsed := advField_parsed hwvalue type p
      rw [hvalue] at hparsed
      obtain ⟨hok, hfield⟩ | ⟨hbad, hfield⟩ := hparsed
      · rw [hfield]
        dsimp only
        obtain ⟨fs, hgram, hrun⟩ | ⟨hbad, hrun⟩ := ih (more.drop (length.toNat - 1))
          (pos + 1 + length.toNat)
          (applyField p (type, more.take (length.toNat - 1))) (by rw [List.length_drop]; omega)
            hwrest (by rw [List.length_drop]; omega)
        · refine .inl ⟨(type, more.take (length.toNat - 1)) :: fs,
            ⟨?_, List.forall_mem_cons.2 ⟨hok, hgram.2⟩⟩, hrun⟩
          have hwhole :=
            @AdStructure.field length type _ _ _ (by rw [hvalue]; exact Nat.sub_add_cancel hpos)
              hgram.1
          rwa [List.take_append_drop] at hwhole
        · refine .inr ⟨?_, hrun⟩
          rintro ⟨fs, hgram⟩
          obtain ⟨-, fs', -, hgram'⟩ := hsplit fs hgram
          exact hbad ⟨fs', hgram'⟩
      · rw [hfield]
        refine .inr ⟨?_, rfl⟩
        rintro ⟨fs, hgram⟩
        exact hbad (hsplit fs hgram).1

/-! ## What a packet says -/

theorem storedName_length (value : List UInt8) : (storedName value).length < UNI_BT_LE_ADV_NAME_SIZE := by
  unfold storedName
  split
  · have hcut := cutBefore_le value (UNI_BT_LE_ADV_NAME_SIZE - 1)
    rw [List.length_take]
    exact Nat.lt_of_le_of_lt ((Nat.min_le_left ..).trans hcut) (by decide)
  · rename_i h
    exact Nat.lt_of_not_le h

theorem cstr_append_terminated (bytes rest : List UInt8) : cstr (bytes ++ 0 :: rest) = cstr bytes := by
  unfold cstr
  induction bytes with
  | nil => rfl
  | cons b bytes ih => rw [List.cons_append, List.takeWhile_cons, List.takeWhile_cons, ih]

/-- A name that fits is stored as a C string. -/
theorem cstr_copyName {bytes : List UInt8} (h : bytes.length < UNI_BT_LE_ADV_NAME_SIZE)
    (name : Vector UInt8 UNI_BT_LE_ADV_NAME_SIZE) :
    cstr (copyName bytes name).toList = cstr bytes := by
  have hfield : (copyName bytes name).toList = List.ofFn fun i : Fin UNI_BT_LE_ADV_NAME_SIZE =>
      if i.val < bytes.length then bytes.getD i.val 0 else if i.val = bytes.length then 0 else name[i] := by
    unfold copyName
    exact Vector.toList_ofFn
  have hname : name.toList.length = UNI_BT_LE_ADV_NAME_SIZE := Vector.length_toList
  have hsplit : (copyName bytes name).toList = bytes ++ 0 :: name.toList.drop (bytes.length + 1) := by
    rw [hfield]
    refine List.ext_getElem ?_ fun i h₁ h₂ => ?_
    · rw [List.length_append, List.length_cons, List.length_drop, hname, List.length_ofFn]
      omega
    rw [List.getElem_ofFn, List.getElem_append]
    dsimp only
    split
    · rename_i hlt
      exact List.getD_eq_getElem _ _ hlt
    · rename_i hge
      rw [List.getElem_cons]
      split
      · rename_i heq
        rw [dif_pos (by omega)]
      · rename_i hne
        rw [dif_neg (by omega), List.getElem_drop]
        have hindex : bytes.length + 1 + (i - bytes.length - 1) = i := by omega
        simp only [hindex]
        exact (Vector.getElem_toList _).symm
  rw [hsplit, cstr_append_terminated]

theorem getLast?_filter_concat {α : Type} (q : α → Bool) (l : List α) (a : α) :
    ((l ++ [a]).filter q).getLast? = if q a then some a else (l.filter q).getLast? := by
  rw [List.filter_append]
  cases h : q a with
  | true => simp [h]
  | false => simp [h]

theorem nameOf_concat (fs : List (UInt8 × List UInt8)) (f : UInt8 × List UInt8) : nameOf (fs ++ [f]) =
    if isName true f ∨ (isName false f ∧ fs.any (isName true) = false) then some f.2 else nameOf fs := by
  have hnone : fs.any (isName true) = false ↔ fs.filter (isName true) = [] := by
    rw [List.filter_eq_nil_iff, List.any_eq_false]
  unfold nameOf
  rw [getLast?_filter_concat, getLast?_filter_concat]
  cases isName true f with
  | true => rfl
  | false =>
    cases isName false f with
    | false => simp
    | true =>
      by_cases hany : fs.any (isName true) = false
      · rw [hnone.1 hany, hany]
        rfl
      · have hne : fs.filter (isName true) ≠ [] := fun h => hany (hnone.2 h)
        have hlast := List.getLast?_eq_some_getLast hne
        have hany' : fs.any (isName true) = true := Bool.not_eq_false _ ▸ hany
        rw [hlast, hany']
        rfl

/-- What a field adds: its name is cut to what the entry holds, and a short one yields to a complete one. -/
theorem applyField_fields (p : AdvFields) (f : UInt8 × List UInt8) :
    (applyField p f).fields.hidService = (p.fields.hidService || namesHid f) ∧
    (applyField p f).fields.iineService = (p.fields.iineService || namesIine f) ∧
    (applyField p f).hasAppearance = (p.hasAppearance || f.1 == 0x19) ∧
    (applyField p f).fields.appearance = (if f.1 == 0x19 then appearanceOf f.2 else p.fields.appearance) ∧
    (applyField p f).fields.completeName = (p.fields.completeName || isName true f) ∧
    (applyField p f).fields.name = (if isName true f ∨ (isName false f ∧ p.fields.completeName = false) then
      copyName (storedName f.2) p.fields.name else p.fields.name) := by
  have hname : isName true f = true ∨ isName false f = true → f.1 ≠ 0x19 := by
    simp only [isName, Bool.and_eq_true, decide_eq_true_eq, if_true, Bool.false_eq_true, if_false]
    rintro (⟨h, -⟩ | ⟨h, -⟩) <;> rw [h] <;> decide
  unfold applyField
  by_cases happ : f.1 = 0x19
  · have hnot := not_or.1 fun h => hname h happ
    rw [if_pos happ, Bool.eq_false_iff.2 hnot.1, Bool.eq_false_iff.2 hnot.2]
    simp [happ, foundIine, foundHid]
  · rw [if_neg happ]
    split
    · rename_i hc
      refine ⟨rfl, rfl, by simp [happ], by simp [happ, foundIine, foundHid], ?_, rfl⟩
      dsimp only
      rcases hc with hc | ⟨-, hc⟩
      · rw [hc, Bool.or_true]
      · rw [hc, Bool.false_or]
    · rename_i hc
      refine ⟨rfl, rfl, by simp [happ], by simp [happ, foundIine, foundHid], ?_, rfl⟩
      rw [Bool.eq_false_iff.2 (not_or.1 hc).1, Bool.or_false]
      rfl

theorem evidence_fields (fs : List (UInt8 × List UInt8)) : Evidence fs (fs.foldl applyField {}) := by
  induction fs using List.reverseRecOn with
  | nil => exact ⟨rfl, rfl, rfl, rfl, rfl, by decide +kernel⟩
  | append_singleton fs f ih =>
    obtain ⟨h₁, h₂, h₃, h₄, h₅, h₆⟩ := ih
    rw [List.foldl_append, List.foldl_cons, List.foldl_nil]
    generalize fs.foldl applyField {} = p at *
    obtain ⟨hhid, hiine, hhas, happ, hcomplete, hname⟩ := applyField_fields p f
    refine ⟨?_, ?_, ?_, ?_, ?_, ?_⟩
    · rw [hhid, h₁, List.any_append, List.any_cons, List.any_nil, Bool.or_false]
    · rw [hiine, h₂, List.any_append, List.any_cons, List.any_nil, Bool.or_false]
    · rw [hhas, h₃, List.any_append, List.any_cons, List.any_nil, Bool.or_false]
    · rw [happ, h₄, getLast?_filter_concat]
      split <;> rfl
    · rw [hcomplete, h₅, List.any_append, List.any_cons, List.any_nil, Bool.or_false]
    · rw [hname, nameOf_concat, ← h₅]
      split
      · exact cstr_copyName (storedName_length f.2) _
      · exact h₆

/-! ## Names are cut between characters -/

theorem utf8EncodeChar_tail (c : Char) : ∀ b ∈ (String.utf8EncodeChar c).tail,
    b &&& (0xc0 : UInt8) = 0x80 := by
  have hcont : ∀ x, UInt8.ofNat (x % 0x40 + 0x80) &&& (0xc0 : UInt8) = 0x80 :=
    fun x => continuation_bits _ (Nat.mod_lt x (by decide))
  unfold String.utf8EncodeChar
  dsimp only
  repeat' split
  all_goals
    intro b hb
    simp only [List.tail_cons, List.mem_cons, List.not_mem_nil, or_false] at hb
  · rw [hb]
    exact hcont _
  · rcases hb with rfl | rfl <;> exact hcont _
  · rcases hb with rfl | rfl | rfl <;> exact hcont _

/-- Up to a byte that continues no sequence, there are whole characters. -/
theorem take_characters (chars : List Char) :
    ∀ m, m = 0 ∨ (∃ b, (chars.flatMap String.utf8EncodeChar)[m]? = some b ∧
      b &&& (0xc0 : UInt8) ≠ 0x80) →
    ∃ k, (chars.flatMap String.utf8EncodeChar).take m = (chars.take k).flatMap String.utf8EncodeChar := by
  induction chars with
  | nil => exact fun m _ => ⟨0, by simp⟩
  | cons c chars ih =>
    rintro m (rfl | ⟨b, hb, hstart⟩)
    · exact ⟨0, rfl⟩
    rw [List.flatMap_cons] at hb ⊢
    rcases Nat.eq_zero_or_pos m with rfl | hpos
    · exact ⟨0, rfl⟩
    rcases Nat.lt_or_ge m (String.utf8EncodeChar c).length with hlt | hge
    · -- inside a character
      rw [List.getElem?_append_left hlt] at hb
      obtain ⟨j, rfl⟩ : ∃ j, m = j + 1 := ⟨m - 1, by omega⟩
      have htail : b ∈ (String.utf8EncodeChar c).tail := by
        refine List.mem_of_getElem? (i := j) ?_
        rw [List.getElem?_tail]
        exact hb
      exact absurd (utf8EncodeChar_tail c b htail) hstart
    · rw [List.getElem?_append_right hge] at hb
      obtain ⟨k, hk⟩ := ih (m - (String.utf8EncodeChar c).length) (.inr ⟨b, hb, hstart⟩)
      refine ⟨k + 1, ?_⟩
      rw [List.take_succ_cons, List.flatMap_cons, List.take_append, List.take_of_length_le hge, hk]

theorem cutBefore_start (value : List UInt8) :
    ∀ n, cutBefore value n = 0 ∨ value.getD (cutBefore value n) 0 &&& (0xc0 : UInt8) ≠ 0x80
  | 0 => .inl rfl
  | n + 1 => by
    rw [cutBefore]
    split
    · exact cutBefore_start value n
    · rename_i h
      exact .inr h

theorem storedName_isPrefix (value : List UInt8) : storedName value <+: value := by
  unfold storedName
  split
  · exact List.take_prefix ..
  · exact List.prefix_refl _

theorem storedName_characters (chars : List Char) :
    ∃ k, storedName (chars.flatMap String.utf8EncodeChar) =
      (chars.take k).flatMap String.utf8EncodeChar := by
  unfold storedName
  split
  · rename_i hlen
    refine take_characters chars _ ((cutBefore_start _ _).imp_right fun hstart => ?_)
    have hlt : cutBefore (chars.flatMap String.utf8EncodeChar) (UNI_BT_LE_ADV_NAME_SIZE - 1) <
      (chars.flatMap String.utf8EncodeChar).length :=
      Nat.lt_of_le_of_lt (cutBefore_le _ _) hlen
    refine ⟨_, List.getElem?_eq_getElem hlt, ?_⟩
    rwa [List.getD_eq_getElem _ _ hlt] at hstart
  · exact ⟨chars.length, by rw [List.take_length]⟩

/-! ## Observing a packet -/

theorem AdStructure.unique {data : List UInt8} {fs : List (UInt8 × List UInt8)} (h : AdStructure data fs) :
    ∀ {fs' : List (UInt8 × List UInt8)}, AdStructure data fs' → fs = fs' := by
  induction h with
  | done =>
    intro fs' h'
    cases h'
    rfl
  | stop =>
    intro fs' h'
    cases h' with
    | stop => rfl
    | field hlen _ => cases hlen
  | @field length type value rest fs hlen _ ih =>
    intro fs' h'
    have hne : length ≠ 0 := by
      rintro rfl
      cases hlen
    obtain ⟨type', value', rest', fs₁, hlen', heq, rfl, h₁⟩ := h'.cons hne
    obtain ⟨rfl, happend⟩ := List.cons.inj heq
    obtain ⟨rfl, rfl⟩ := List.append_inj happend (by omega)
    rw [ih h₁]

theorem cstr_of_first {name : Vector UInt8 UNI_BT_LE_ADV_NAME_SIZE}
    (h : name.get ⟨0, advNameSize_pos⟩ = 0) : cstr name.toList = [] := by
  have hlen : name.toList.length = UNI_BT_LE_ADV_NAME_SIZE := Vector.length_toList
  have hfirst : name.toList.get ⟨0, by rw [hlen]; decide⟩ = 0 := (Vector.getElem_toList _).trans h
  generalize name.toList = l at *
  cases l with
  | nil => cases hlen
  | cons b l =>
    obtain rfl : b = 0 := hfirst
    rfl

/-- A new peer's entry holds what its packet says, and nothing else. -/
theorem Evidence.fresh {fs : List (UInt8 × List UInt8)} {p : AdvFields} (h : Evidence fs p)
    (address : Vector UInt8 6) (addressType : UInt8)
    (nowMs : UInt32) :
    let entry := advMerge p nowMs { used := true, address := address, addressType := addressType }
    entry.hidService = fs.any namesHid ∧ entry.iineService = fs.any namesIine ∧
      entry.appearance = ((fs.filter (·.1 == 0x19)).getLast?.map fun f => appearanceOf f.2).getD 0 ∧
      cstr entry.name.toList = cstr (((nameOf fs).map storedName).getD []) := by
  intro entry
  obtain ⟨-, -, -, -, hhid, hiine, happ, hname, -⟩ :=
    advMerge_fields p nowMs { used := true, address := address, addressType := addressType }
  refine ⟨?_, ?_, ?_, ?_⟩
  · rw [hhid, ← h.hidService]
    exact Bool.false_or _
  · rw [hiine, ← h.iineService]
    exact Bool.false_or _
  · rw [happ, ← h.appearance]
    split
    · rfl
    · rename_i hno
      rw [h.hasAppearance, Bool.not_eq_true] at hno
      rw [h.appearance, List.filter_eq_nil_iff.2 (List.any_eq_false.1 hno)]
      rfl
  · rw [hname, ← h.name]
    split
    · rfl
    · rename_i hno
      have hfirst : p.fields.name.get ⟨0, advNameSize_pos⟩ = 0 := not_not.1 fun hne => hno ⟨hne, .inr rfl⟩
      rw [cstr_of_first hfirst]
      show cstr (Vector.replicate UNI_BT_LE_ADV_NAME_SIZE (0 : UInt8)).toList = []
      decide +kernel

/-- A packet is accepted if and only if it is grammatical; a refused one leaves the cache, and no
load leaves the payload. What is stored is what the fields say; a name is stored up to the last
character that fits. -/
theorem uniBtLeAdvObserve_grammar :
    (∀ (cache : AdvCache) (address : Vector UInt8 6) (addressType : UInt8) (data : List UInt8) (nowMs : UInt32),
      ∃ result, uniBtLeAdvObserve cache address addressType data nowMs = some result ∧
        (result.1 ≠ none ↔ ∃ fs, Grammatical data fs) ∧ (result.1 = none → result.2 = cache) ∧
        ∀ fs, Grammatical data fs → ∃ p i before, Evidence fs p ∧
          Chosen address addressType nowMs (cache.entries.map (advExpire nowMs)) i before ∧ result.1 = some i ∧
          result.2.entries = (cache.entries.map (advExpire nowMs)).set i (advMerge p nowMs before)) ∧
    (∀ fs p address addressType nowMs, Evidence fs p →
      let entry := advMerge p nowMs { used := true, address := address, addressType := addressType }
      entry.hidService = fs.any namesHid ∧ entry.iineService = fs.any namesIine ∧
        entry.appearance = ((fs.filter (·.1 == 0x19)).getLast?.map fun f => appearanceOf f.2).getD 0 ∧
        cstr entry.name.toList = cstr (((nameOf fs).map storedName).getD [])) ∧
    (∀ value, storedName value <+: value ∧ (storedName value).length < UNI_BT_LE_ADV_NAME_SIZE) ∧
    ∀ chars : List Char, ∃ k, storedName (chars.flatMap String.utf8EncodeChar)
      = (chars.take k).flatMap String.utf8EncodeChar := by
  refine ⟨fun cache address addressType data nowMs => ?_,
    fun fs p address addressType nowMs h => h.fresh address addressType nowMs,
    fun value => ⟨storedName_isPrefix value, storedName_length value⟩, storedName_characters⟩
  unfold uniBtLeAdvObserve
  obtain ⟨fs, hgram, hrun⟩ | ⟨hbad, hrun⟩ := advFields_parsed data data.length data 0 {}
    (Nat.le_refl _) (Window.all data) (Nat.zero_add _) <;> rw [hrun]
  · obtain ⟨i, before, hchosen, hslot, hentries⟩ :=
      advUpdate_chosen (fs.foldl applyField {}) address addressType nowMs cache
    refine ⟨_, rfl, ?_, fun hnone => ?_, fun fs' hgram' => ?_⟩
    · rw [hslot]
      exact ⟨fun _ => ⟨fs, hgram⟩, fun _ h => (nomatch h)⟩
    · rw [hslot] at hnone
      cases hnone
    · obtain rfl := hgram.1.unique hgram'.1
      exact ⟨_, i, before, evidence_fields fs, hchosen, hslot, hentries⟩
  · exact ⟨_, rfl, ⟨fun h => absurd rfl h, fun h => absurd h hbad⟩, fun _ => rfl,
      fun fs hgram => absurd ⟨fs, hgram⟩ hbad⟩

/-- A gamepad that says its name. -/
def padAFields : List (UInt8 × List UInt8) := [(0x19, [0xc4, 0x03]), (0x09, [0x50, 0x61, 0x64, 0x41])]

theorem uniBtLeAdvObserve_grammar_padA :
    (∃ result, uniBtLeAdvObserve uniBtLeAdvReset (.replicate 6 1) 0
      [3, 0x19, 0xc4, 0x03, 5, 0x09, 0x50, 0x61, 0x64, 0x41, 0] 10 = some result ∧
      result.1 ≠ none) ∧
    let entry :=
      advMerge (padAFields.foldl applyField {}) 10 { used := true, address := .replicate 6 1, addressType := 0 }
    entry.appearance = 0x03c4 ∧ cstr entry.name.toList = [0x50, 0x61, 0x64, 0x41] := by
  have hgram : Grammatical [3, 0x19, 0xc4, 0x03, 5, 0x09, 0x50, 0x61, 0x64, 0x41, 0] padAFields := by
    refine ⟨@AdStructure.field 3 0x19 [0xc4, 0x03] _ _ rfl (@AdStructure.field 5 0x09 [0x50, 0x61,
      0x64, 0x41] _ _ rfl .stop), ?_⟩
    intro f hf
    simp only [padAFields, List.mem_cons, List.not_mem_nil, or_false] at hf
    rcases hf with rfl | rfl <;> constructor <;> simp
  constructor
  · obtain ⟨result, hrun, hiff, -, -⟩ := uniBtLeAdvObserve_grammar.1 uniBtLeAdvReset (.replicate 6 1) 0
      [3, 0x19, 0xc4, 0x03, 5, 0x09, 0x50, 0x61, 0x64, 0x41, 0] 10
    exact ⟨result, hrun, hiff.2 ⟨padAFields, hgram⟩⟩
  · obtain ⟨-, -, happ, hname⟩ :=
      uniBtLeAdvObserve_grammar.2.1 padAFields _ (.replicate 6 1) 0 10 (evidence_fields padAFields)
    exact ⟨happ.trans (by decide +kernel), hname.trans (by decide +kernel)⟩

end FoloGameboy

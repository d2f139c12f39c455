/-
`uni_bt_le_hid`: the class of a device by its HID report map, which is read in one pass with every load of
it checked, and the items that a report map is made of.
-/
import FoloGameboy.Lib.Brackets
import FoloGameboy.Lib.Loads
import FoloGameboy.Core.State

namespace FoloGameboy

open LoadAt Brackets

/-! ## The parser -/

structure HidState where
  page : UInt32 := 0
  /-- The pages that were pushed, the last one first. -/
  pages : List UInt32 := []
  usage : UInt32 := 0
  haveUsage : Bool := false
  depth : Nat := 0
  application : UInt16 := 0
  result : UInt16 := 0
deriving DecidableEq

/-- The loop over the data bytes: `i` of them are in the value, and `size` are left. -/
def hidValueAt (descriptor : List UInt8) : (size pos i : Nat) → UInt32 → Option UInt32
  | 0, _, _, value => some value
  | size + 1, pos, i, value =>
    match descriptor[pos]? with
    | none => none
    | some b => hidValueAt descriptor size (pos + 1) (i + 1) (value ||| (b.toUInt32 <<< UInt32.ofNat (8 * i)))

def hidSize (head : UInt8) : Nat := if head &&& 3 = 3 then 4 else (head &&& 3).toNat

def hidGlobal (tag : UInt8) (size : Nat) (value : UInt32) (s : HidState) : Option HidState :=
  if tag = 0 then some { s with page := value }
  else if tag = 10 then if size ≠ 0 ∨ s.pages.length = 8 then none else some { s with pages := s.page :: s.pages }
  else if tag = 11 then
    match s.pages with
    | [] => none
    | page :: pages => if size ≠ 0 then none else some { s with page := page, pages := pages }
  else some s

/-- The extended usage: the page is in its high half. -/
def hidUsage (page : UInt32) (size : Nat) (value : UInt32) : UInt32 :=
  if size = 4 then value else (page <<< 16) ||| value

def hidLocal (tag : UInt8) (size : Nat) (value : UInt32) (s : HidState) : Option HidState :=
  let s := if (tag = 0 ∨ tag = 1) ∧ ¬ s.haveUsage then
    { s with usage := hidUsage s.page size value, haveUsage := true } else s
  if tag = 10 then none else some s

/-- The class of a collection of a usage; 0xffff is another application of the Generic Desktop page. -/
def usageClass (usage : UInt32) : UInt16 :=
  if usage = 0x10004 then 0x0504
  else if usage = 0x10005 then 0x0508
  else if usage = 0x10006 then 0x0540
  else if usage >>> 16 = 1 then 0xffff
  else 0

def hidMain (tag : UInt8) (size : Nat) (value : UInt32) (s : HidState) : Option HidState :=
  (if tag = 10 then
    if size ≠ 1 ∨ s.depth = 32 then none
    else if s.depth = 0 then
      some { s with depth := s.depth + 1, application := if value = 1 ∧ s.haveUsage then usageClass s.usage else 0 }
    else some { s with depth := s.depth + 1 }
  else if tag = 12 then
    if size ≠ 0 ∨ s.depth = 0 then none
    else some { s with depth := s.depth - 1, application := if s.depth - 1 = 0 then 0 else s.application }
  else if tag = 8 then
    if s.depth = 0 ∨ size = 0 then none
    else if value &&& 1 = 0 ∧ s.application ≠ 0 then
      if s.application = 0xffff ∨ (s.result ≠ 0 ∧ s.result ≠ s.application) then none
      else some { s with result := s.application }
    else some s
  else some s).map fun s => { s with haveUsage := false }

/-- One item; nothing is `return 0`. -/
def hidItem (head : UInt8) (size : Nat) (value : UInt32) (s : HidState) : Option HidState :=
  let type := (head >>> 2) &&& 3
  let tag := head >>> 4
  if type = 1 then hidGlobal tag size value s
  else if type = 2 then hidLocal tag size value s
  else if type = 0 then hidMain tag size value s
  else none

def hidResult (s : HidState) : UInt16 := if s.depth ≠ 0 ∨ s.pages ≠ [] then 0 else s.result

/-- The items from `pos` on; nothing is a load outside the descriptor. -/
def hidItemsAt (descriptor : List UInt8) (pos : Nat) (s : HidState) : Option UInt16 :=
  if pos < descriptor.length then
    match descriptor[pos]? with
    | none => none
    | some head =>
      if head = 0xfe then some 0
      else if descriptor.length - (pos + 1) < hidSize head then some 0
      else
        match hidValueAt descriptor (hidSize head) (pos + 1) 0 0 with
        | none => none
        | some value =>
          match hidItem head (hidSize head) value s with
          | none => some 0
          | some s => hidItemsAt descriptor (pos + 1 + hidSize head) s
  else some (hidResult s)
termination_by descriptor.length - pos

def uniBtLeHidCod (descriptor : List UInt8) : Option UInt16 :=
  if descriptor = [] then some 0 else hidItemsAt descriptor 0 {}

/-! ## Items -/

structure HidItem where
  head : UInt8
  data : List UInt8
deriving DecidableEq

namespace HidItem

def type (x : HidItem) : UInt8 := (x.head >>> 2) &&& 3

def tag (x : HidItem) : UInt8 := x.head >>> 4

/-- The data bytes, the lowest first. -/
def value (x : HidItem) : UInt32 := x.data.zipIdx.foldl (fun v b => v ||| (b.1.toUInt32 <<< UInt32.ofNat (8 * b.2))) 0

def step (x : HidItem) (s : HidState) : Option HidState := hidItem x.head x.data.length x.value s

end HidItem

/-- A descriptor is a sequence of whole short items. -/
inductive HidItems : List UInt8 → List HidItem → Prop where
  | done : HidItems [] []
  | item {head : UInt8} {data rest : List UInt8} {items : List HidItem}
      (hhead : head ≠ 0xfe) (hsize : data.length = hidSize head)
      (h : HidItems rest items) : HidItems (head :: (data ++ rest)) (⟨head, data⟩ :: items)

abbrev hidRun : List HidItem → HidState → Option HidState := run HidItem.step

theorem HidItems.cons {head : UInt8} {rest : List UInt8} {items : List HidItem}
    (h : HidItems (head :: rest) items) :
    head ≠ 0xfe ∧ ∃ data rest' items', data.length = hidSize head ∧ rest = data ++ rest' ∧
      items = ⟨head, data⟩ :: items' ∧
      HidItems rest' items' := by
  cases h with
  | item hhead hsize h => exact ⟨hhead, _, _, _, hsize, rfl, rfl, h⟩

/-- A descriptor has one reading. -/
theorem HidItems.unique {descriptor : List UInt8} {items : List HidItem} (h : HidItems descriptor items) :
    ∀ {items'}, HidItems descriptor items' → items' = items := by
  induction h with
  | done =>
    intro items' h'
    cases h'
    rfl
  | item hhead hsize h ih =>
    intro items' h'
    obtain ⟨-, data', rest', items', hsize', happend, rfl, h'⟩ := h'.cons
    obtain ⟨rfl, rfl⟩ := List.append_inj happend (hsize.trans hsize'.symm)
    rw [ih h']

theorem hidValueAt_window {descriptor : List UInt8} (data : List UInt8) :
    ∀ {pos : Nat}, Window descriptor pos data → ∀ (i : Nat) (value : UInt32),
    hidValueAt descriptor data.length pos i value =
      some ((data.zipIdx i).foldl (fun v b => v ||| (b.1.toUInt32 <<< UInt32.ofNat (8 * b.2))) value) := by
  induction data with
  | nil => exact fun _ _ _ => rfl
  | cons b data ih =>
    intro pos h i value
    have hload : descriptor[pos]? = some b := h.getElem? (i := 0) (Nat.succ_pos _)
    rw [List.length_cons, hidValueAt, hload]
    exact ih (h.drop (i := 1) (Nat.succ_pos _)) (i + 1) _

/-- The parser goes through the items, or returns 0. -/
theorem hidItemsAt_run (descriptor : List UInt8) (n : Nat) :
    ∀ (rest : List UInt8) (pos : Nat) (s : HidState), rest.length ≤ n →
    Window descriptor pos rest → pos + rest.length = descriptor.length →
      (∃ items, HidItems rest items ∧ hidItemsAt descriptor pos s =
        some (((hidRun items s).map hidResult).getD 0)) ∨
        ((¬ ∃ items, HidItems rest items) ∧ hidItemsAt descriptor pos s = some 0) := by
  -- on the length of what is left: an item is at least one byte
  induction n with
  | zero =>
    intro rest pos s hle hw hend
    obtain rfl := List.length_eq_zero_iff.1 (Nat.le_zero.1 hle)
    refine .inl ⟨[], .done, ?_⟩
    rw [hidItemsAt, if_neg (by rw [← hend]; exact Nat.lt_irrefl _)]
    rfl
  | succ n ih =>
    intro rest pos s hle hw hend
    match rest, hle, hw, hend with
    | [], _, hw, hend => exact ih [] pos s (Nat.zero_le n) hw hend
    | head :: tail, hle, hw, hend =>
      have hload : descriptor[pos]? = some head := hw.getElem? (i := 0) (Nat.succ_pos _)
      rw [List.length_cons] at hend hle
      rw [hidItemsAt, if_pos (by omega), hload]
      dsimp only
      by_cases hlong : head = 0xfe
      · exact .inr ⟨fun ⟨items, h⟩ => h.cons.1 hlong, if_pos hlong⟩
      rw [if_neg hlong]
      by_cases hshort : descriptor.length - (pos + 1) < hidSize head
      · refine .inr ⟨?_, if_pos hshort⟩
        rintro ⟨items, h⟩
        obtain ⟨-, data, rest', items', hsize, rfl, -, -⟩ := h.cons
        rw [List.length_append] at hend
        omega
      rw [if_neg hshort]
      have hdata : (tail.take (hidSize head)).length = hidSize head := by
        rw [List.length_take]
        omega
      have hwdata : Window descriptor (pos + 1) (tail.take (hidSize head)) :=
        hw.sub (i := 1) (n := hidSize head) (by rw [List.length_cons]; omega)
      have hwrest : Window descriptor (pos + 1 + hidSize head) (tail.drop (hidSize head)) := by
        have hdrop := hw.drop (i := hidSize head + 1) (by rw [List.length_cons]; omega)
        have hindex : pos + (hidSize head + 1) = pos + 1 + hidSize head := by omega
        rwa [hindex] at hdrop
      have hvalue : hidValueAt descriptor (hidSize head) (pos + 1) 0 0 =
          some (HidItem.value ⟨head, tail.take (hidSize head)⟩) := by
        have hread := hidValueAt_window _ hwdata 0 0
        rw [hdata] at hread
        exact hread
      have hitem : hidItem head (hidSize head) (HidItem.value ⟨head, tail.take (hidSize head)⟩) s =
          HidItem.step ⟨head, tail.take (hidSize head)⟩ s := by
        rw [HidItem.step, hdata]
      -- whatever the items of these bytes are, this is the first
      have hsplit : ∀ items, HidItems (head :: tail) items →
          ∃ items', items = ⟨head, tail.take (hidSize head)⟩ :: items' ∧
            HidItems (tail.drop (hidSize head)) items' := by
        intro items h
        obtain ⟨-, data, rest', items', hsize, rfl, rfl, h'⟩ := h.cons
        rw [← hsize, List.take_left, List.drop_left]
        exact ⟨items', rfl, h'⟩
      rw [hvalue]
      dsimp only
      rw [hitem]
      have hrest := fun s => ih (tail.drop (hidSize head)) (pos + 1 + hidSize head) s
        (by rw [List.length_drop]; omega) hwrest
        (by rw [List.length_drop]; omega)
      -- an item that is refused ends the parser at once, and so the run
      cases hstep : HidItem.step ⟨head, tail.take (hidSize head)⟩ s with
      | none =>
        dsimp only
        by_cases hparse : ∃ items, HidItems (head :: tail) items
        · obtain ⟨items, h⟩ := hparse
          obtain ⟨items', rfl, -⟩ := hsplit items h
          refine .inl ⟨_, h, ?_⟩
          rw [hidRun, run, hstep]
          rfl
        · exact .inr ⟨hparse, rfl⟩
      | some s' =>
        dsimp only
        obtain ⟨items, h, hrun⟩ | ⟨hparse, hrun⟩ := hrest s'
        · refine .inl ⟨⟨head, tail.take (hidSize head)⟩ :: items, ?_, ?_⟩
          · have hitems := HidItems.item hlong hdata h
            rwa [List.take_append_drop] at hitems
          · rw [hrun, hidRun, run, hstep]
            rfl
        · refine .inr ⟨?_, hrun⟩
          rintro ⟨items, h⟩
          obtain ⟨items', -, h'⟩ := hsplit items h
          exact hparse ⟨items', h'⟩

/-- What the parser makes of the whole descriptor. -/
theorem uniBtLeHidCod_run (descriptor : List UInt8) :
    (∃ items, HidItems descriptor items ∧
      uniBtLeHidCod descriptor = some (((hidRun items {}).map hidResult).getD 0)) ∨
      ((¬ ∃ items, HidItems descriptor items) ∧ uniBtLeHidCod descriptor = some 0) := by
  rw [uniBtLeHidCod]
  by_cases hempty : descriptor = []
  · subst hempty
    exact .inl ⟨[], .done, rfl⟩
  · rw [if_neg hempty]
    exact hidItemsAt_run descriptor descriptor.length descriptor 0 {} (Nat.le_refl _)
      (.all descriptor) (Nat.zero_add _)

end FoloGameboy

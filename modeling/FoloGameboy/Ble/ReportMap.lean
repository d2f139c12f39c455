/-
What a report map says, read off its items by their places, and that the parser finds it: the page
in force, the first usage since the previous Main item, the top-level collection around a place, and
what each item needs where it stands.
-/
import Mathlib.Data.List.DropRight
import FoloGameboy.Ble.Hid

namespace FoloGameboy

open Brackets

/-! ## Kinds of items -/

inductive HidKind where
  | collection | endCollection | input | otherMain
  | page | push | pop | otherGlobal
  | usage | delimiter | otherLocal
  | reserved
deriving DecidableEq

def HidKind.isMain : HidKind → Bool
  | .collection | .endCollection | .input | .otherMain => true
  | _ => false

namespace HidItem

def kind (x : HidItem) : HidKind :=
  if x.type = 0 then
    if x.tag = 10 then .collection else if x.tag = 12 then .endCollection else if x.tag = 8 then .input else .otherMain
  else if x.type = 1 then
    if x.tag = 0 then .page else if x.tag = 10 then .push else if x.tag = 11 then .pop else .otherGlobal
  else if x.type = 2 then
    if x.tag = 0 ∨ x.tag = 1 then .usage else if x.tag = 10 then .delimiter else .otherLocal
  else .reserved

/-- A constant item is padding. -/
def isConstant (x : HidItem) : Bool := x.value &&& 1 ≠ 0

/-- The usage of the item on a page; four bytes bring their own. -/
def usageOn (x : HidItem) (page : UInt32) : UInt32 := hidUsage page x.data.length x.value

end HidItem

/-! ## Reading by places -/

abbrev InCollections : List HidItem → Prop :=
  Balanced (fun x => x.kind = .collection) (fun x => x.kind = .endCollection)

/-- The collections that are open. -/
abbrev OpenCollections : List HidItem → List (List HidItem) → Prop :=
  Pending (fun x : HidItem => x.kind = .collection) (fun x => x.kind = .endCollection)

abbrev InPushes : List HidItem → Prop := Balanced (fun x => x.kind = .push) (fun x => x.kind = .pop)

/-- The pages that are pushed. -/
abbrev OpenPushes : List HidItem → List (List HidItem) → Prop :=
  Pending (fun x : HidItem => x.kind = .push) (fun x => x.kind = .pop)

/-- The page in force after the items: a Pop brings back what was in force at its Push. -/
inductive PageOf : List HidItem → UInt32 → Prop where
  | start : PageOf [] 0
  | page {done : List HidItem} {x : HidItem} (hkind : x.kind = .page) : PageOf (done ++ [x]) x.value
  | pop {done inner : List HidItem} {page : UInt32} {x y : HidItem}
      (h : PageOf done page) (hpush : x.kind = .push) (hinner : InPushes inner)
      (hpop : y.kind = .pop) : PageOf (done ++ x :: (inner ++ [y])) page
  | other {done : List HidItem} {page : UInt32} {x : HidItem}
      (h : PageOf done page) (hpage : x.kind ≠ .page) (hpop : x.kind ≠ .pop) :
      PageOf (done ++ [x]) page

/-- The items since the previous Main item. -/
def sinceMain (done : List HidItem) : List HidItem := done.rtakeWhile (fun x => ¬ x.kind.isMain)

/-- `x` is the first usage since the previous Main item, and comes after `before`. -/
structure FirstUsage (done before : List HidItem) (x : HidItem) : Prop where
  usage : x.kind = .usage
  first : ∀ y ∈ sinceMain before, y.kind ≠ .usage
  since : ∃ after, done = before ++ x :: after ∧ ∀ y ∈ after, ¬ y.kind.isMain

/-- The end of the items lies in the top-level collection that `coll` begins after `outer`. -/
def TopLevel (done outer : List HidItem) (coll : HidItem) : Prop :=
  ∃ inside opens, done = outer ++ coll :: inside ∧ coll.kind = .collection ∧
    InCollections outer ∧ OpenCollections inside opens

/-- The end of the items lies in a top-level Application collection of this usage, of the Generic
Desktop page. -/
def DesktopApplication (done : List HidItem) (usage : UInt32) : Prop :=
  usage >>> 16 = 1 ∧ ∃ outer coll before x page, TopLevel done outer coll ∧ coll.value = 1 ∧ FirstUsage outer before x ∧
    PageOf before page ∧ x.usageOn page = usage

/-- A non-constant Input lies in a top-level Application collection of this usage, of the Generic
Desktop page. -/
def DesktopInput (items : List HidItem) (usage : UInt32) : Prop :=
  ∃ done x after, items = done ++ x :: after ∧ x.kind = .input ∧ ¬ x.isConstant ∧ DesktopApplication done usage

/-- What an item needs where it stands. -/
def HidItem.Legal (done : List HidItem) (x : HidItem) : Prop :=
  match x.kind with
  | .collection => x.data.length = 1 ∧ ∃ opens, OpenCollections done opens ∧ opens.length < 32
  | .endCollection => x.data = [] ∧ ∃ opens, OpenCollections done opens ∧ 0 < opens.length
  | .input => x.data ≠ [] ∧ ∃ opens, OpenCollections done opens ∧ 0 < opens.length
  | .push => x.data = [] ∧ ∃ opens, OpenPushes done opens ∧ opens.length < 8
  | .pop => x.data = [] ∧ ∃ opens, OpenPushes done opens ∧ 0 < opens.length
  | .delimiter | .reserved => False
  | _ => True

/-- Every item has what it needs where it stands. -/
def LegalItems (items : List HidItem) : Prop := ∀ done x after, items = done ++ x :: after → x.Legal done

/-- And all that is opened or pushed is closed. -/
structure WellFormedItems (items : List HidItem) : Prop where
  placed : LegalItems items
  collections : InCollections items
  pushes : InPushes items

/-- The usages that name a class: joystick, gamepad and keyboard. -/
def hidClasses : List (UInt32 × UInt16) := [(0x10004, 0x0504), (0x10005, 0x0508), (0x10006, 0x0540)]

/-! ## The steps -/

/-- What the parser does for each kind of item. -/
theorem HidItem.step_kind (x : HidItem) (s : HidState) : x.step s =
    match x.kind with
    | .collection =>
      if x.data.length ≠ 1 ∨ s.depth = 32 then none
      else some { s with
        depth := s.depth + 1, haveUsage := false
        application :=
          if s.depth = 0 then (if x.value = 1 ∧ s.haveUsage then usageClass s.usage else 0)
          else s.application }
    | .endCollection =>
      if x.data.length ≠ 0 ∨ s.depth = 0 then none
      else some { s with
        depth := s.depth - 1, haveUsage := false, application := if s.depth - 1 = 0 then 0 else s.application }
    | .input =>
      if s.depth = 0 ∨ x.data.length = 0 then none
      else if ¬ x.isConstant ∧ s.application ≠ 0 then
        if s.application = 0xffff ∨ (s.result ≠ 0 ∧ s.result ≠ s.application) then none
        else some { s with result := s.application, haveUsage := false }
      else some { s with haveUsage := false }
    | .otherMain => some { s with haveUsage := false }
    | .page => some { s with page := x.value }
    | .push => if x.data.length ≠ 0 ∨ s.pages.length = 8 then none
      else some { s with pages := s.page :: s.pages }
    | .pop =>
      match s.pages with
      | [] => none
      | page :: pages => if x.data.length ≠ 0 then none else some { s with page := page, pages := pages }
    | .otherGlobal => some s
    | .usage => if s.haveUsage then some s else some { s with usage := x.usageOn s.page, haveUsage := true }
    | .delimiter => none
    | .otherLocal => some s
    | .reserved => none := by
  unfold HidItem.step hidItem HidItem.kind HidItem.isConstant HidItem.usageOn
  change (if x.type = 1 then hidGlobal x.tag x.data.length x.value s
    else if x.type = 2 then hidLocal x.tag x.data.length x.value s
    else if x.type = 0 then hidMain x.tag x.data.length x.value s else none) = _
  -- main, global, local and reserved items, each by its tag
  by_cases h0 : x.type = 0
  · rw [h0, if_neg (by decide), if_neg (by decide), if_pos rfl, if_pos rfl, hidMain]
    by_cases h10 : x.tag = 10
    · rw [if_pos h10, if_pos h10]
      dsimp only
      split_ifs <;> simp_all
    rw [if_neg h10, if_neg h10]
    by_cases h12 : x.tag = 12
    · rw [if_pos h12, if_pos h12]
      dsimp only
      split_ifs <;> rfl
    rw [if_neg h12, if_neg h12]
    by_cases h8 : x.tag = 8
    · rw [if_pos h8, if_pos h8]
      dsimp only
      by_cases hconst : x.value &&& 1 = 0
      · simp only [hconst, ne_eq, not_true_eq_false, decide_false, Bool.false_eq_true,
          not_false_eq_true, true_and]
        split_ifs <;> rfl
      · simp only [hconst, ne_eq, not_false_eq_true, decide_true, not_true_eq_false, false_and, if_false]
        split_ifs <;> rfl
    · rw [if_neg h8, if_neg h8]
      rfl
  by_cases h1 : x.type = 1
  · rw [h1, if_pos rfl, if_neg (by decide), if_pos rfl, hidGlobal]
    by_cases ht0 : x.tag = 0
    · rw [if_pos ht0, if_pos ht0]
    rw [if_neg ht0, if_neg ht0]
    by_cases ht10 : x.tag = 10
    · rw [if_pos ht10, if_pos ht10]
    rw [if_neg ht10, if_neg ht10]
    by_cases ht11 : x.tag = 11
    · cases s.pages <;> simp [ht11]
    · rw [if_neg ht11, if_neg ht11]
  by_cases h2 : x.type = 2
  · rw [h2, if_neg (by decide), if_pos rfl, if_neg (by decide), if_neg (by decide), if_pos rfl, hidLocal]
    by_cases husage : x.tag = 0 ∨ x.tag = 1
    · have hdelimiter : ¬ x.tag = 10 := by
        obtain h | h := husage <;> rw [h] <;> decide
      rw [if_pos husage, if_neg hdelimiter]
      cases hhave : s.haveUsage with
      | false => rw [if_pos ⟨husage, Bool.false_ne_true⟩]; rfl
      | true => rw [if_neg fun h => h.2 rfl]; rfl
    · rw [if_neg husage]
      by_cases ht10 : x.tag = 10
      · rw [if_pos ht10, if_pos ht10]
      · rw [if_neg ht10, if_neg ht10, if_neg fun h => husage h.1]
  · rw [if_neg h1, if_neg h2, if_neg h0, if_neg h0, if_neg h1, if_neg h2]

section Step

variable {x : HidItem} {s s' : HidState}

/-- Push and Pop work a stack of pages. -/
theorem step_pages :
    Stacked (fun x : HidItem => x.kind = .push) (fun x => x.kind = .pop) HidItem.step HidState.pages
      HidState.page where
  skip {x s s'} h hpush hpop := by
    rw [HidItem.step_kind] at h
    grind
  opened {x s s'} h hpush := by
    rw [HidItem.step_kind, hpush] at h
    grind
  closed {x s s'} h hpop := by
    rw [HidItem.step_kind, hpop] at h
    grind

/-- Of the collections the parser counts only how many are open. -/
theorem step_depth :
    Stacked (fun x : HidItem => x.kind = .collection) (fun x => x.kind = .endCollection)
      HidItem.step
    (fun s => List.replicate s.depth ()) (fun _ => ()) where
  skip {x s s'} h hopen hclose := by
    have hdepth : s'.depth = s.depth := by
      rw [HidItem.step_kind] at h
      grind
    rw [hdepth]
  opened {x s s'} h hopen := by
    have hdepth : s'.depth = s.depth + 1 := by
      rw [HidItem.step_kind, hopen] at h
      grind
    rw [hdepth, List.replicate_succ]
  closed {x s s'} h hclose := by
    have hdepth : s.depth = s'.depth + 1 := by
      rw [HidItem.step_kind, hclose] at h
      grind
    exact ⟨(), by rw [hdepth, List.replicate_succ]⟩

theorem step_page (h : x.step s = some s') (hkind : x.kind = .page) : s'.page = x.value := by
  rw [HidItem.step_kind, hkind] at h
  grind

theorem step_pop (h : x.step s = some s') (hkind : x.kind = .pop) : s.pages = s'.page :: s'.pages := by
  rw [HidItem.step_kind, hkind] at h
  grind

theorem step_samePage (h : x.step s = some s') (hpage : x.kind ≠ .page) (hpop : x.kind ≠ .pop) :
    s'.page = s.page := by
  rw [HidItem.step_kind] at h
  grind

/-- Local state expires after every Main item. -/
theorem step_main (h : x.step s = some s') (hmain : x.kind.isMain) : s'.haveUsage = false := by
  rw [HidItem.step_kind] at h
  cases hkind : x.kind <;> rw [hkind] at h hmain <;> first | exact absurd hmain Bool.false_ne_true | grind

theorem step_usage (h : x.step s = some s') (hkind : x.kind = .usage) (hfirst : s.haveUsage = false) :
    s'.haveUsage ∧ s'.usage = x.usageOn s.page := by
  rw [HidItem.step_kind, hkind] at h
  grind

theorem step_haveUsage (h : x.step s = some s') (hmain : ¬ x.kind.isMain)
    (hkind : x.kind ≠ .usage) : s'.haveUsage = s.haveUsage := by
  rw [HidItem.step_kind] at h
  cases hkind : x.kind <;> rw [hkind] at h hmain <;> first | exact absurd rfl hmain | grind

/-- The first usage is retained. -/
theorem step_retain (h : x.step s = some s') (hmain : ¬ x.kind.isMain) (hhave : s.haveUsage) :
    s'.haveUsage ∧ s'.usage = s.usage := by
  rw [HidItem.step_kind] at h
  cases hkind : x.kind <;> rw [hkind] at h hmain <;> first | exact absurd rfl hmain | grind

/-- A collection keeps its application until it ends. -/
theorem step_application (h : x.step s = some s') (hdepth : 0 < s.depth) (hdepth' : 0 < s'.depth) :
    s'.application = s.application := by
  rw [HidItem.step_kind] at h
  grind

theorem step_topLevel (h : x.step s = some s') (hkind : x.kind = .collection) (hdepth : s.depth = 0) :
    s'.depth = 1 ∧ s'.application = if x.value = 1 ∧ s.haveUsage then usageClass s.usage else 0 := by
  rw [HidItem.step_kind, hkind] at h
  grind

theorem step_isSome : (x.step s).isSome ↔
    (match x.kind with
      | .collection => x.data.length = 1 ∧ s.depth ≠ 32
      | .endCollection => x.data = [] ∧ 0 < s.depth
      | .input => x.data ≠ [] ∧ 0 < s.depth
      | .push => x.data = [] ∧ s.pages.length ≠ 8
      | .pop => x.data = [] ∧ 0 < s.pages.length
      | .delimiter | .reserved => False
      | _ => True) ∧
      (x.kind = .input → ¬ x.isConstant → s.application ≠ 0 → s.application ≠ 0xffff ∧
        (s.result = 0 ∨ s.result = s.application)) := by
  rw [HidItem.step_kind]
  cases x.kind <;> grind [List.length_eq_zero_iff]

theorem step_bounds (h : x.step s = some s') (hb : s.depth ≤ 32 ∧ s.pages.length ≤ 8) :
    s'.depth ≤ 32 ∧ s'.pages.length ≤ 8 := by
  rw [HidItem.step_kind] at h
  grind

theorem step_result (h : x.step s = some s') :
    s'.result = if x.kind = .input ∧ ¬ x.isConstant ∧ s.application ≠ 0 then s.application
      else s.result := by
  rw [HidItem.step_kind] at h
  grind

end Step

/-! ## Runs -/

section Run

variable {done before : List HidItem} {x : HidItem} {s s' : HidState} {page : UInt32}

theorem PageOf.run (h : PageOf done page) : ∀ {s : HidState}, hidRun done {} = some s → s.page = page := by
  induction h with
  | start =>
    intro s hrun
    rw [← Option.some.inj hrun]
  | page hkind =>
    intro s hrun
    obtain ⟨s₁, -, hlast⟩ := run_concat_some hrun
    exact step_page hlast hkind
  | pop h hpush hinner hpop ih =>
    intro s hrun
    obtain ⟨s₁, hrun, hrest⟩ := run_append_some hrun
    obtain ⟨s₂, hfirst, hrest⟩ := run_cons_some hrest
    obtain ⟨s₃, hinside, hlast⟩ := run_concat_some hrest
    have hpages := step_pop hlast hpop
    rw [step_pages.balanced hinner hinside, step_pages.opened hfirst hpush, ih hrun] at hpages
    exact (List.cons.inj hpages).1.symm
  | other h hpage hpop ih =>
    intro s hrun
    obtain ⟨s₁, hrun, hlast⟩ := run_concat_some hrun
    rw [step_samePage hlast hpage hpop, ih hrun]

/-- The parser has the page in force: at a Pop it is the one on the stack, by the items before its Push. -/
theorem pageOf_run (n : Nat) : ∀ {done : List HidItem} {s : HidState}, done.length ≤ n →
    hidRun done {} = some s → PageOf done s.page := by
  induction n with
  | zero =>
    intro done s hle hrun
    obtain rfl := List.length_eq_zero_iff.1 (Nat.le_zero.1 hle)
    rw [← Option.some.inj hrun]
    exact .start
  | succ n ih =>
    intro done s hle hrun
    obtain rfl | ⟨done, x, rfl⟩ := List.eq_nil_or_concat' done
    · rw [← Option.some.inj hrun]
      exact .start
    rw [List.length_append, List.length_singleton] at hle
    obtain ⟨s₁, hrun, hlast⟩ := run_concat_some hrun
    by_cases hpage : x.kind = .page
    · rw [step_page hlast hpage]
      exact .page hpage
    by_cases hpop : x.kind = .pop
    · obtain ⟨opens, hpending, htops⟩ := step_pages.exists_pending rfl done hrun
      rw [step_pop hlast hpop] at htops
      cases htops with
      | cons htop _ =>
        obtain ⟨s₀, hrun₀, htop⟩ := htop
        cases hpending with
        | inside h hpush hinner =>
          rw [List.length_append, List.length_cons] at hle
          rw [List.append_assoc, List.cons_append, ← htop]
          exact .pop (ih (by omega) hrun₀) hpush hinner hpop
    · rw [step_samePage hlast hpage hpop]
      exact .other (ih (by omega) hrun) hpage hpop

theorem sinceMain_main (hmain : x.kind.isMain) : sinceMain (done ++ [x]) = [] :=
  List.rtakeWhile_concat_neg _ _ _ (by simp [hmain])

theorem sinceMain_concat (hmain : ¬ x.kind.isMain) : sinceMain (done ++ [x]) = sinceMain done ++ [x] :=
  List.rtakeWhile_concat_pos _ _ _ (by simp [hmain])

theorem haveUsage_run (done : List HidItem) : ∀ {s : HidState}, hidRun done {} = some s →
    (s.haveUsage = false ↔ ∀ y ∈ sinceMain done, y.kind ≠ .usage) := by
  induction done using List.reverseRecOn with
  | nil =>
    intro s hrun
    rw [← Option.some.inj hrun]
    exact ⟨fun _ _ hy => (List.not_mem_nil hy).elim, fun _ => rfl⟩
  | append_singleton done x ih =>
    intro s hrun
    obtain ⟨s₁, hrun, hlast⟩ := run_concat_some hrun
    by_cases hmain : x.kind.isMain
    · rw [step_main hlast hmain, sinceMain_main hmain]
      exact ⟨fun _ _ hy => (List.not_mem_nil hy).elim, fun _ => rfl⟩
    rw [sinceMain_concat hmain]
    by_cases husage : x.kind = .usage
    · refine ⟨fun hhave => ?_,
        fun hnone => absurd husage (hnone x (List.mem_append_right _ (List.mem_singleton_self x)))⟩
      have hhave' : s.haveUsage := by
        cases hfirst : s₁.haveUsage with
        | false => exact (step_usage hlast husage hfirst).1
        | true => exact (step_retain hlast hmain hfirst).1
      rw [hhave] at hhave'
      exact absurd hhave' Bool.false_ne_true
    · rw [step_haveUsage hlast hmain husage, ih hrun, List.forall_mem_append, List.forall_mem_singleton]
      exact ⟨fun h => ⟨h, husage⟩, fun h => h.1⟩

theorem retain_run : ∀ {after : List HidItem} {s s' : HidState}, (∀ y ∈ after, ¬ y.kind.isMain) →
    s.haveUsage → hidRun after s = some s' → s'.haveUsage ∧ s'.usage = s.usage
  | [], s, s', _, hhave, hrun => by
    rw [← Option.some.inj hrun]
    exact ⟨hhave, rfl⟩
  | y :: after, s, s', hmain, hhave, hrun => by
    obtain ⟨s₁, hfirst, hrun⟩ := run_cons_some hrun
    obtain ⟨hhave₁, husage₁⟩ := step_retain hfirst (hmain y List.mem_cons_self) hhave
    obtain ⟨hhave', husage'⟩ := retain_run (fun z hz => hmain z (List.mem_cons_of_mem y hz)) hhave₁ hrun
    exact ⟨hhave', husage'.trans husage₁⟩

theorem FirstUsage.run (h : FirstUsage done before x) (hrun : hidRun done {} = some s) :
    ∃ s₀, hidRun before {} = some s₀ ∧ s.haveUsage ∧ s.usage = x.usageOn s₀.page := by
  obtain ⟨after, rfl, hafter⟩ := h.since
  obtain ⟨s₀, hrun₀, hrest⟩ := run_append_some hrun
  obtain ⟨s₁, hfirst, hrest⟩ := run_cons_some hrest
  obtain ⟨hhave, husage⟩ := step_usage hfirst h.usage ((haveUsage_run before hrun₀).2 h.first)
  obtain ⟨hhave', husage'⟩ := retain_run hafter hhave hrest
  exact ⟨s₀, hrun₀, hhave', husage'.trans husage⟩

theorem firstUsage_run (done : List HidItem) : ∀ {s : HidState}, hidRun done {} = some s → s.haveUsage →
    ∃ before x, FirstUsage done before x := by
  induction done using List.reverseRecOn with
  | nil =>
    intro s hrun hhave
    rw [← Option.some.inj hrun] at hhave
    exact absurd hhave Bool.false_ne_true
  | append_singleton done x ih =>
    intro s hrun hhave
    obtain ⟨s₁, hrun, hlast⟩ := run_concat_some hrun
    by_cases hmain : x.kind.isMain
    · rw [step_main hlast hmain] at hhave
      exact absurd hhave Bool.false_ne_true
    cases hfirst : s₁.haveUsage with
    | true =>
      obtain ⟨before, y, hy⟩ := ih hrun hfirst
      obtain ⟨after, rfl, hafter⟩ := hy.since
      refine ⟨before, y, hy.usage, hy.first, after ++ [x], by rw [List.append_assoc, List.cons_append], ?_⟩
      exact List.forall_mem_append.2 ⟨hafter, List.forall_mem_singleton.2 hmain⟩
    | false =>
      have husage : x.kind = .usage := by
        by_contra hkind
        rw [step_haveUsage hlast hmain hkind, hfirst] at hhave
        exact absurd hhave Bool.false_ne_true
      exact ⟨done, x, husage, (haveUsage_run done hrun).1 hfirst, [], rfl,
        fun _ hy => (List.not_mem_nil hy).elim⟩

theorem bounds_run (done : List HidItem) : ∀ {s : HidState}, hidRun done {} = some s →
    s.depth ≤ 32 ∧ s.pages.length ≤ 8 := by
  induction done using List.reverseRecOn with
  | nil =>
    intro s hrun
    rw [← Option.some.inj hrun]
    exact ⟨Nat.zero_le 32, Nat.zero_le 8⟩
  | append_singleton done x ih =>
    intro s hrun
    obtain ⟨s₁, hrun, hlast⟩ := run_concat_some hrun
    exact step_bounds hlast (ih hrun)

theorem openCollections_iff (hrun : hidRun done {} = some s) (p : Nat → Prop) :
    (∃ opens, OpenCollections done opens ∧ p opens.length) ↔ p s.depth := by
  rw [step_depth.pending_iff rfl hrun p, List.length_replicate]

theorem openPushes_iff (hrun : hidRun done {} = some s) (p : Nat → Prop) :
    (∃ opens, OpenPushes done opens ∧ p opens.length) ↔ p s.pages.length :=
  step_pages.pending_iff rfl hrun p

/-- An item fails where it does not have what it needs, or where its application is not the one of
the result. -/
theorem legal_run (hrun : hidRun done {} = some s) : (x.step s).isSome ↔ x.Legal done ∧
    (x.kind = .input → ¬ x.isConstant → s.application ≠ 0 → s.application ≠ 0xffff ∧
      (s.result = 0 ∨ s.result = s.application)) := by
  obtain ⟨hdepth, hpages⟩ := bounds_run done hrun
  have hdepth' : s.depth ≠ 32 ↔ s.depth < 32 := by omega
  have hpages' : s.pages.length ≠ 8 ↔ s.pages.length < 8 := by omega
  rw [step_isSome, HidItem.Legal]
  refine and_congr_left' ?_
  cases hkind : x.kind with
  | collection => rw [openCollections_iff hrun (· < 32), hdepth']
  | endCollection => rw [openCollections_iff hrun (0 < ·)]
  | input => rw [openCollections_iff hrun (0 < ·)]
  | push => rw [openPushes_iff hrun (· < 8), hpages']
  | pop => rw [openPushes_iff hrun (0 < ·)]
  | _ => exact Iff.rfl

/-! ## The application -/

theorem balanced_run {inside : List HidItem} (h : InCollections inside) :
    ∀ {s s' : HidState}, hidRun inside s = some s' → 0 < s.depth →
    s'.depth = s.depth ∧ s'.application = s.application := by
  have hkept : ∀ {l s s'}, InCollections l → hidRun l s = some s' → s'.depth = s.depth := fun hl hrun =>
    (List.replicate_inj.1 (step_depth.balanced hl hrun)).1
  induction h with
  | nil =>
    intro s s' hrun hdepth
    rw [← Option.some.inj hrun]
    exact ⟨rfl, rfl⟩
  | skip h hopen hclose ih =>
    intro s s' hrun hdepth
    have hdepth' := hkept (h.skip hopen hclose) hrun
    obtain ⟨s₁, hrun, hlast⟩ := run_concat_some hrun
    obtain ⟨hdepth₁, happlication₁⟩ := ih hrun hdepth
    exact ⟨hdepth', (step_application hlast (by omega) (by omega)).trans happlication₁⟩
  | close h hopen h' hclose ih ih' =>
    intro s s' hrun hdepth
    have hdepth' := hkept (h.close hopen h' hclose) hrun
    obtain ⟨s₁, hrun, hrest⟩ := run_append_some hrun
    obtain ⟨s₂, hfirst, hrest⟩ := run_cons_some hrest
    obtain ⟨s₃, hinside, hlast⟩ := run_concat_some hrest
    obtain ⟨hdepth₁, happlication₁⟩ := ih hrun hdepth
    have hdepth₂ : s₂.depth = s₁.depth + 1 := (List.replicate_inj.1 (step_depth.opened hfirst hopen)).1
    obtain ⟨hdepth₃, happlication₃⟩ := ih' hinside (by omega)
    refine ⟨hdepth', ?_⟩
    rw [step_application hlast (by omega) (by omega), happlication₃,
      step_application hfirst (by omega) (by omega), happlication₁]

theorem open_run {inside : List HidItem} {opens : List (List HidItem)} (h : OpenCollections inside opens) :
    ∀ {s s' : HidState}, hidRun inside s = some s' → 0 < s.depth → 0 < s'.depth ∧
      s'.application = s.application := by
  induction h with
  | balanced h =>
    intro s s' hrun hdepth
    obtain ⟨hdepth', happlication⟩ := balanced_run h hrun hdepth
    exact ⟨hdepth' ▸ hdepth, happlication⟩
  | inside h hopen h' ih =>
    intro s s' hrun hdepth
    obtain ⟨s₁, hrun, hrest⟩ := run_append_some hrun
    obtain ⟨s₂, hfirst, hinside⟩ := run_cons_some hrest
    obtain ⟨hdepth₁, happlication₁⟩ := ih hrun hdepth
    have hdepth₂ : s₂.depth = s₁.depth + 1 := (List.replicate_inj.1 (step_depth.opened hfirst hopen)).1
    obtain ⟨hdepth', happlication'⟩ := balanced_run h' hinside (by omega)
    refine ⟨by omega, ?_⟩
    rw [happlication', step_application hfirst (by omega) (by omega), happlication₁]

/-- In a top-level collection the application is the one of the first usage before it. -/
theorem TopLevel.run {outer : List HidItem} {coll : HidItem} (h : TopLevel done outer coll)
    (hrun : hidRun done {} = some s) :
    ∃ s₀, hidRun outer {} = some s₀ ∧
      s.application = if coll.value = 1 ∧ s₀.haveUsage then usageClass s₀.usage else 0 := by
  obtain ⟨inside, opens, rfl, hcoll, houter, hinside⟩ := h
  obtain ⟨s₀, hrun₀, hrest⟩ := run_append_some hrun
  obtain ⟨s₁, hfirst, hrest⟩ := run_cons_some hrest
  have hdepth₀ : s₀.depth = 0 := (List.replicate_inj.1 (step_depth.balanced houter hrun₀)).1
  obtain ⟨hdepth₁, happlication₁⟩ := step_topLevel hfirst hcoll hdepth₀
  obtain ⟨-, happlication⟩ := open_run hinside hrest (by omega)
  exact ⟨s₀, hrun₀, happlication.trans happlication₁⟩

theorem topLevel_run (hrun : hidRun done {} = some s) (hdepth : 0 < s.depth) :
    ∃ outer coll, TopLevel done outer coll := by
  obtain ⟨opens, hopens, hlen⟩ := (openCollections_iff hrun (0 < ·)).2 hdepth
  obtain ⟨outer, coll, inside, opens', happend, hcoll, houter, hinside⟩ :=
    hopens.outermost (List.ne_nil_of_length_pos hlen)
  exact ⟨outer, coll, inside, opens', happend, hcoll, houter, hinside⟩

theorem usageClass_ne_zero {usage : UInt32} : usageClass usage ≠ 0 ↔ usage >>> 16 = 1 := by
  unfold usageClass
  split_ifs with h4 h5 h6 hpage
  · rw [h4]; decide
  · rw [h5]; decide
  · rw [h6]; decide
  · exact ⟨fun _ => hpage, fun _ => by decide⟩
  · exact ⟨fun h => absurd rfl h, fun h => absurd h hpage⟩

theorem mem_hidClasses {usage : UInt32} {c : UInt16} : (usage, c) ∈ hidClasses ↔
    (usage = 0x10004 ∧ c = 0x0504) ∨ (usage = 0x10005 ∧ c = 0x0508) ∨ (usage = 0x10006 ∧ c = 0x0540) := by
  simp [hidClasses]

theorem usageClass_eq {usage : UInt32} {c : UInt16} (h0 : c ≠ 0) (hc : c ≠ 0xffff) :
    usageClass usage = c ↔ (usage, c) ∈ hidClasses := by
  rw [mem_hidClasses, usageClass]
  split_ifs with h4 h5 h6 hpage <;> grind

theorem DesktopApplication.run {usage : UInt32} (h : DesktopApplication done usage)
    (hrun : hidRun done {} = some s) :
    s.application = usageClass usage := by
  obtain ⟨-, outer, coll, before, x, page, htop, hvalue, hfirst, hpage, rfl⟩ := h
  obtain ⟨s₀, hrun₀, happlication⟩ := htop.run hrun
  obtain ⟨s₁, hrun₁, hhave, husage⟩ := hfirst.run hrun₀
  rw [happlication, if_pos ⟨hvalue, hhave⟩, husage, hpage.run hrun₁]

theorem desktopApplication_run (hrun : hidRun done {} = some s) (hdepth : 0 < s.depth)
    (h : s.application ≠ 0) :
    ∃ usage, DesktopApplication done usage := by
  obtain ⟨outer, coll, htop⟩ := topLevel_run hrun hdepth
  obtain ⟨s₀, hrun₀, happlication⟩ := htop.run hrun
  split at happlication
  · rename_i hcond
    obtain ⟨before, x, hfirst⟩ := firstUsage_run outer hrun₀ hcond.2
    obtain ⟨s₁, hrun₁, -, husage⟩ := hfirst.run hrun₀
    refine ⟨s₀.usage, ?_, outer, coll, before, x, s₁.page, htop, hcond.1, hfirst,
      pageOf_run _ (Nat.le_refl _) hrun₁, husage.symm⟩
    rwa [← usageClass_ne_zero, ← happlication]
  · exact absurd happlication h

end Run

/-! ## The class -/

/-- What stands at some place of a list with one more element. -/
theorem places_concat {α : Type} {l : List α} {b : α} {p : List α → α → Prop} :
    (∃ done a after, l ++ [b] = done ++ a :: after ∧ p done a) ↔
      (∃ done a after, l = done ++ a :: after ∧ p done a) ∨ p l b := by
  constructor
  · rintro ⟨done, a, after, h, hp⟩
    obtain rfl | ⟨after, c, rfl⟩ := List.eq_nil_or_concat' after
    · obtain ⟨hdone, ha⟩ := List.append_inj' h rfl
      rw [← hdone, ← (List.cons.inj ha).1] at hp
      exact .inr hp
    · rw [← List.cons_append, ← List.append_assoc] at h
      exact .inl ⟨done, a, after, (List.append_inj' h rfl).1, hp⟩
  · rintro (⟨done, a, after, rfl, hp⟩ | hp)
    · exact ⟨done, a, after ++ [b], by rw [List.append_assoc, List.cons_append], hp⟩
    · exact ⟨l, b, [], rfl, hp⟩

section Class

variable {items : List HidItem} {x : HidItem} {usage : UInt32}

theorem desktopInput_concat : DesktopInput (items ++ [x]) usage ↔
    DesktopInput items usage ∨ x.kind = .input ∧ ¬ x.isConstant ∧ DesktopApplication items usage :=
  places_concat

theorem placed_concat : LegalItems (items ++ [x]) ↔ LegalItems items ∧ x.Legal items := by
  have hplaces := places_concat (l := items) (b := x) (p := fun done x => ¬ x.Legal done)
  constructor
  · intro h
    exact ⟨fun done y after happend => h done y (after ++ [x])
      (by rw [happend, List.append_assoc, List.cons_append]), h items x [] rfl⟩
  · intro h done y after happend
    by_contra hy
    obtain ⟨done, y, after, happend, hy⟩ | hx := hplaces.1 ⟨done, y, after, happend, hy⟩
    · exact hy (h.1 done y after happend)
    · exact hx h.2

/-- The result is the class of every Input of a Generic Desktop application, if there is one. -/
theorem result_run (items : List HidItem) : ∀ {s : HidState}, hidRun items {} = some s →
    (∀ usage, DesktopInput items usage → usageClass usage = s.result ∧ s.result ≠ 0xffff) ∧
      (s.result ≠ 0 → ∃ usage, DesktopInput items usage) := by
  induction items using List.reverseRecOn with
  | nil =>
    intro s hrun
    rw [← Option.some.inj hrun]
    refine ⟨fun usage h => ?_, fun h => absurd rfl h⟩
    obtain ⟨done, x, after, happend, -⟩ := h
    exact absurd happend.symm (List.append_ne_nil_of_right_ne_nil done (List.cons_ne_nil x after))
  | append_singleton items x ih =>
    intro s hrun
    obtain ⟨s₁, hrun, hlast⟩ := run_concat_some hrun
    obtain ⟨hclass, hexists⟩ := ih hrun
    obtain ⟨hlegal, hconflict⟩ := (legal_run hrun).1 (by rw [hlast]; rfl)
    have hresult := step_result hlast
    by_cases hinput : x.kind = .input ∧ ¬ x.isConstant ∧ s₁.application ≠ 0
    · rw [if_pos hinput] at hresult
      obtain ⟨hkind, hconstant, happlication⟩ := hinput
      obtain ⟨hother, hsame⟩ := hconflict hkind hconstant happlication
      have hdepth : 0 < s₁.depth := by
        rw [HidItem.Legal, hkind] at hlegal
        exact (openCollections_iff hrun (0 < ·)).1 hlegal.2
      obtain ⟨usage, husage⟩ := desktopApplication_run hrun hdepth happlication
      rw [hresult]
      refine ⟨fun usage' h => ?_, fun _ => ⟨usage, desktopInput_concat.2 (.inr ⟨hkind, hconstant, husage⟩)⟩⟩
      obtain h | ⟨-, -, h⟩ := desktopInput_concat.1 h
      · obtain ⟨hclass', -⟩ := hclass usage' h
        have hne : s₁.result ≠ 0 := by
          obtain ⟨-, -, -, -, -, -, hdesktop, -⟩ := h
          rw [← hclass']
          exact usageClass_ne_zero.2 hdesktop
        exact ⟨hclass'.trans (hsame.resolve_left hne), hother⟩
      · exact ⟨(h.run hrun).symm, hother⟩
    · rw [if_neg hinput] at hresult
      rw [hresult]
      refine ⟨fun usage h => ?_, fun hne => ?_⟩
      · obtain h | ⟨hkind, hconstant, h⟩ := desktopInput_concat.1 h
        · exact hclass usage h
        · refine absurd ⟨hkind, hconstant, ?_⟩ hinput
          rw [h.run hrun]
          exact usageClass_ne_zero.2 h.1
      · obtain ⟨usage, h⟩ := hexists hne
        exact ⟨usage, desktopInput_concat.2 (.inl h)⟩

/-- The items run through where each is legal and the Inputs of Generic Desktop applications have
one class. -/
theorem placed_run (c : UInt16) (hc : c ≠ 0xffff) (items : List HidItem) : LegalItems items →
    (∀ usage, DesktopInput items usage → usageClass usage = c) → ∃ s, hidRun items {} = some s := by
  induction items using List.reverseRecOn with
  | nil => exact fun _ _ => ⟨_, rfl⟩
  | append_singleton items x ih =>
    intro hplaced hclass
    obtain ⟨hplaced, hlegal⟩ := placed_concat.1 hplaced
    obtain ⟨s, hrun⟩ := ih hplaced fun usage h => hclass usage (desktopInput_concat.2 (.inl h))
    have hstep : (x.step s).isSome := by
      refine (legal_run hrun).2 ⟨hlegal, fun hkind hconstant happlication => ?_⟩
      have hdepth : 0 < s.depth := by
        rw [HidItem.Legal, hkind] at hlegal
        exact (openCollections_iff hrun (0 < ·)).1 hlegal.2
      obtain ⟨usage, h⟩ := desktopApplication_run hrun hdepth happlication
      have happlication' : s.application = c :=
        (h.run hrun).trans (hclass usage (desktopInput_concat.2 (.inr ⟨hkind, hconstant, h⟩)))
      refine ⟨happlication' ▸ hc, ?_⟩
      by_cases hresult : s.result = 0
      · exact .inl hresult
      · obtain ⟨usage', h'⟩ := (result_run items hrun).2 hresult
        rw [← ((result_run items hrun).1 usage' h').1, happlication',
          hclass usage' (desktopInput_concat.2 (.inl h'))]
        exact .inr rfl
    obtain ⟨s', hs'⟩ := Option.isSome_iff_exists.1 hstep
    exact ⟨s', run_concat hrun hs'⟩

theorem run_placed (items : List HidItem) : ∀ {s : HidState}, hidRun items {} = some s →
    LegalItems items := by
  induction items using List.reverseRecOn with
  | nil => exact fun _ done x after happend =>
      absurd happend.symm (List.append_ne_nil_of_right_ne_nil done (List.cons_ne_nil x after))
  | append_singleton items x ih =>
    intro s hrun
    obtain ⟨s₁, hrun, hlast⟩ := run_concat_some hrun
    exact placed_concat.2 ⟨ih hrun, ((legal_run hrun).1 (by rw [hlast]; rfl)).1⟩

theorem wellFormed_run {s : HidState} (hrun : hidRun items {} = some s) :
    WellFormedItems items ↔ s.depth = 0 ∧ s.pages = [] := by
  have hcollections : InCollections items ↔ s.depth = 0 :=
    (step_depth.balanced_iff rfl hrun).trans (List.replicate_eq_nil_iff _)
  have hpushes : InPushes items ↔ s.pages = [] := step_pages.balanced_iff rfl hrun
  exact ⟨fun h => ⟨hcollections.1 h.collections, hpushes.1 h.pushes⟩,
    fun h => ⟨run_placed items hrun, hcollections.2 h.1, hpushes.2 h.2⟩⟩

/-- All Inputs of Generic Desktop applications, at least one, lie in applications of the one class. -/
def Classified (items : List HidItem) (c : UInt16) : Prop :=
  ∃ usage, (usage, c) ∈ hidClasses ∧ DesktopInput items usage ∧ ∀ usage', DesktopInput items usage' → usage' = usage

theorem classified_run {c : UInt16} (h0 : c ≠ 0) (items : List HidItem) :
    ((hidRun items {}).map hidResult).getD 0 = c ↔ WellFormedItems items ∧ Classified items c := by
  constructor
  · intro h
    cases hrun : hidRun items {} with
    | none =>
      rw [hrun] at h
      exact absurd h.symm h0
    | some s =>
      rw [hrun, Option.map_some, Option.getD_some, hidResult] at h
      split_ifs at h with hopen
      · exact absurd h.symm h0
      obtain ⟨hdepth, hpages⟩ := not_or.1 hopen
      obtain ⟨hclass, hexists⟩ := result_run items hrun
      rw [h] at hclass hexists
      obtain ⟨usage, husage⟩ := hexists h0
      have hmem : ∀ usage, DesktopInput items usage → (usage, c) ∈ hidClasses := fun usage husage =>
        (usageClass_eq h0 (hclass usage husage).2).1 (hclass usage husage).1
      refine ⟨(wellFormed_run hrun).2 ⟨not_not.1 hdepth, not_not.1 hpages⟩, usage,
        hmem usage husage, husage, fun usage' husage' => ?_⟩
      have hmem₁ := mem_hidClasses.1 (hmem usage husage)
      have hmem₂ := mem_hidClasses.1 (hmem usage' husage')
      grind
  · rintro ⟨hwf, usage, hmem, husage, hall⟩
    have hc : c ≠ 0xffff := by
      have hmem' := mem_hidClasses.1 hmem
      grind
    have hclass : ∀ usage', DesktopInput items usage' → usageClass usage' = c := fun usage' husage' =>
      (usageClass_eq h0 hc).2 (hall usage' husage' ▸ hmem)
    obtain ⟨s, hrun⟩ := placed_run c hc items hwf.placed hclass
    obtain ⟨hdepth, hpages⟩ := (wellFormed_run hrun).1 hwf
    rw [hrun, Option.map_some, Option.getD_some, hidResult,
      if_neg (not_or.2 ⟨not_not.2 hdepth, not_not.2 hpages⟩),
      ← ((result_run items hrun).1 usage husage).1, hclass usage husage]

end Class

/-- No load is outside the descriptor; the result is a class exactly where the descriptor is
well-formed and has inputs of that one Generic Desktop application. -/
theorem uniBtLeHidCod_classifies (descriptor : List UInt8) : ∃ result, uniBtLeHidCod descriptor = some result ∧
    (∀ c, c ≠ 0 → (result = c ↔ ∃ items, HidItems descriptor items ∧ WellFormedItems items ∧ Classified items c)) ∧
    ∀ items, HidItems descriptor items →
      (∃ usage usage', DesktopInput items usage ∧ DesktopInput items usage' ∧ usage ≠ usage') ∨
        (∃ usage, DesktopInput items usage ∧ ∀ c, (usage, c) ∉ hidClasses) → result = 0 := by
  have hresult : ∃ result, uniBtLeHidCod descriptor = some result ∧
      ∀ c, c ≠ 0 → (result = c ↔ ∃ items, HidItems descriptor items ∧ WellFormedItems items ∧
        Classified items c) := by
    obtain ⟨items, hitems, hcod⟩ | ⟨hparse, hcod⟩ := uniBtLeHidCod_run descriptor
    · refine ⟨_, hcod, fun c h0 => (classified_run h0 items).trans ⟨fun h => ⟨items, hitems, h⟩, ?_⟩⟩
      rintro ⟨items', hitems', h⟩
      rwa [hitems.unique hitems'] at h
    · exact ⟨0, hcod,
        fun c h0 => ⟨fun h => absurd h.symm h0,
        fun ⟨items, hitems, _⟩ => absurd ⟨items, hitems⟩ hparse⟩⟩
  obtain ⟨result, hcod, hclass⟩ := hresult
  refine ⟨result, hcod, hclass, fun items hitems hmixed => ?_⟩
  by_contra h0
  obtain ⟨items', hitems', -, usage, hmem, husage, hall⟩ := (hclass result h0).1 rfl
  obtain rfl := hitems.unique hitems'
  obtain ⟨usage₁, usage₂, h₁, h₂, hne⟩ | ⟨usage₁, h₁, hnone⟩ := hmixed
  · exact hne ((hall usage₁ h₁).trans (hall usage₂ h₂).symm)
  · exact hnone result (hall usage₁ h₁ ▸ hmem)

/-- A gamepad with a page that is pushed and popped around its usages. -/
example : uniBtLeHidCod [0x05, 1, 0xa4, 0x05, 9, 0xb4, 0x09, 5, 0xa1, 1, 0x75, 8, 0x95, 1, 0x81, 2, 0xc0]
    = some 0x0508 := by decide +kernel

end FoloGameboy

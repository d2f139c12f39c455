/-
Lists in which some elements open and some close, and state machines that keep a stack of what is open: what
they keep is read off the list alone, and the list is balanced where the stack is empty.
-/
import Mathlib.Data.List.Forall2
import Mathlib.Data.List.Induction

namespace Brackets

variable {α σ β : Type} {isOpen isClose : α → Prop}

/-- All that opens is closed, in order, and nothing else is closed. -/
inductive Balanced (isOpen isClose : α → Prop) : List α → Prop where
  | nil : Balanced isOpen isClose []
  | skip {l : List α} {a : α} (h : Balanced isOpen isClose l)
      (hopen : ¬ isOpen a) (hclose : ¬ isClose a) : Balanced isOpen isClose (l ++ [a])
  | close {l l' : List α} {a b : α} (h : Balanced isOpen isClose l) (hopen : isOpen a) (h' : Balanced isOpen isClose l')
      (hclose : isClose b) : Balanced isOpen isClose (l ++ a :: (l' ++ [b]))

/-- What is open at the end of the list: what comes before each element that opens, the last one first. -/
inductive Pending (isOpen isClose : α → Prop) : List α → List (List α) → Prop where
  | balanced {l : List α} (h : Balanced isOpen isClose l) : Pending isOpen isClose l []
  | inside {l l' : List α} {a : α} {opens : List (List α)} (h : Pending isOpen isClose l opens) (hopen : isOpen a)
      (h' : Balanced isOpen isClose l') : Pending isOpen isClose (l ++ a :: l') (l :: opens)

namespace Pending

variable {l : List α} {opens : List (List α)} {a : α}

theorem skip (h : Pending isOpen isClose l opens) (hopen : ¬ isOpen a) (hclose : ¬ isClose a) :
    Pending isOpen isClose (l ++ [a]) opens := by
  cases h with
  | balanced h => exact .balanced (h.skip hopen hclose)
  | inside h ho h' =>
    rw [List.append_assoc, List.cons_append]
    exact .inside h ho (h'.skip hopen hclose)

theorem opened (h : Pending isOpen isClose l opens) (hopen : isOpen a) :
    Pending isOpen isClose (l ++ [a]) (l :: opens) :=
  .inside h hopen .nil

theorem closed {before : List α} (h : Pending isOpen isClose l (before :: opens)) (hclose : isClose a) :
    Pending isOpen isClose (l ++ [a]) opens := by
  cases h with
  | inside h ho h' =>
    rw [List.append_assoc, List.cons_append]
    cases h with
    | balanced h => exact .balanced (h.close ho h' hclose)
    | inside h ho' h'' =>
      rw [List.append_assoc, List.cons_append]
      exact .inside h ho' (h''.close ho h' hclose)

/-- What is open has an outermost element. -/
theorem outermost (h : Pending isOpen isClose l opens) (hopens : opens ≠ []) :
    ∃ outer a inside opens', l = outer ++ a :: inside ∧ isOpen a ∧ Balanced isOpen isClose outer ∧
      Pending isOpen isClose inside opens' := by
  induction h with
  | balanced h => exact absurd rfl hopens
  | @inside l l' a opens h ho h' ih =>
    by_cases hnil : opens = []
    · subst hnil
      cases h with
      | balanced h => exact ⟨_, _, _, _, rfl, ho, h, .balanced h'⟩
    · obtain ⟨outer, b, inside, opens', rfl, hb, houter, hinside⟩ := ih hnil
      refine ⟨outer, b, inside ++ a :: l', inside :: opens', ?_, hb, houter, .inside hinside ho h'⟩
      rw [List.append_assoc, List.cons_append]

end Pending

/-! ## Machines with a stack -/

def run (step : α → σ → Option σ) : List α → σ → Option σ
  | [], s => some s
  | a :: l, s => (step a s).bind (run step l)

section Run

variable {step : α → σ → Option σ} {l l' : List α} {s s' : σ} {a : α}

theorem run_append (l l' : List α) : ∀ s, run step (l ++ l') s = (run step l s).bind (run step l') := by
  induction l with
  | nil => exact fun s => rfl
  | cons a l ih =>
    intro s
    rw [List.cons_append, run, run]
    cases step a s with
    | none => rfl
    | some s => exact ih s

theorem run_append_some (h : run step (l ++ l') s = some s') : ∃ s₁, run step l s = some s₁ ∧
    run step l' s₁ = some s' := by
  rw [run_append] at h
  exact Option.bind_eq_some_iff.1 h

theorem run_cons_some (h : run step (a :: l) s = some s') :
    ∃ s₁, step a s = some s₁ ∧ run step l s₁ = some s' :=
  Option.bind_eq_some_iff.1 h

theorem run_singleton (a : α) (s : σ) : run step [a] s = step a s := by
  rw [run]
  cases step a s <;> rfl

theorem run_concat_some (h : run step (l ++ [a]) s = some s') : ∃ s₁, run step l s = some s₁ ∧
    step a s₁ = some s' := by
  obtain ⟨s₁, h, h'⟩ := run_append_some h
  rw [run_singleton] at h'
  exact ⟨s₁, h, h'⟩

theorem run_concat {s₁ : σ} (h : run step l s = some s₁) (h' : step a s₁ = some s') :
    run step (l ++ [a]) s = some s' := by
  rw [run_append, h, Option.bind_some, run_singleton, h']

end Run

/-- The machine keeps a stack: what opens pushes the top, what closes pops, nothing else touches it. -/
structure Stacked (isOpen isClose : α → Prop) (step : α → σ → Option σ) (stack : σ → List β) (top : σ → β) : Prop where
  skip : ∀ {a s s'}, step a s = some s' → ¬ isOpen a → ¬ isClose a → stack s' = stack s
  opened : ∀ {a s s'}, step a s = some s' → isOpen a → stack s' = top s :: stack s
  closed : ∀ {a s s'}, step a s = some s' → isClose a → ∃ x, stack s = x :: stack s'

namespace Stacked

variable {step : α → σ → Option σ} {stack : σ → List β} {top : σ → β} {l : List α}

theorem balanced (hstep : Stacked isOpen isClose step stack top) (h : Balanced isOpen isClose l) :
    ∀ {s s' : σ}, run step l s = some s' → stack s' = stack s := by
  induction h with
  | nil =>
    intro s s' hrun
    rw [← Option.some.inj hrun]
  | skip h ho hc ih =>
    intro s s' hrun
    obtain ⟨s₁, hrun, hlast⟩ := run_concat_some hrun
    rw [hstep.skip hlast ho hc, ih hrun]
  | close h ho h' hc ih ih' =>
    intro s s' hrun
    obtain ⟨s₁, hrun, hrest⟩ := run_append_some hrun
    obtain ⟨s₂, hopen, hrest⟩ := run_cons_some hrest
    obtain ⟨s₃, hinside, hclose⟩ := run_concat_some hrest
    obtain ⟨x, hx⟩ := hstep.closed hclose hc
    rw [ih' hinside, hstep.opened hopen ho, ih hrun] at hx
    exact (List.cons.inj hx).2.symm

/-- Over what is open, the stack holds the tops from which it was opened. -/
theorem pending (hstep : Stacked isOpen isClose step stack top) {opens : List (List α)}
    (h : Pending isOpen isClose l opens) :
    ∀ {s s' : σ}, run step l s = some s' → (stack s').length = opens.length + (stack s).length := by
  induction h with
  | balanced h =>
    intro s s' hrun
    rw [hstep.balanced h hrun, List.length_nil, Nat.zero_add]
  | inside h ho h' ih =>
    intro s s' hrun
    obtain ⟨s₁, hrun, hrest⟩ := run_append_some hrun
    obtain ⟨s₂, hopen, hinside⟩ := run_cons_some hrest
    rw [hstep.balanced h' hinside, hstep.opened hopen ho, List.length_cons, ih hrun, List.length_cons]
    omega

/-- Whatever the machine has gone through, its stack holds what is open in it. -/
theorem exists_pending (hstep : Stacked isOpen isClose step stack top) {s : σ}
    (hempty : stack s = []) (l : List α) :
    ∀ {s' : σ}, run step l s = some s' →
      ∃ opens, Pending isOpen isClose l opens ∧
        List.Forall₂ (fun before x => ∃ s₁, run step before s = some s₁ ∧
        top s₁ = x) opens (stack s') := by
  induction l using List.reverseRecOn with
  | nil =>
    intro s' hrun
    rw [← Option.some.inj hrun, hempty]
    exact ⟨[], .balanced .nil, .nil⟩
  | append_singleton l a ih =>
    intro s' hrun
    obtain ⟨s₁, hrun, hlast⟩ := run_concat_some hrun
    obtain ⟨opens, hpending, htops⟩ := ih hrun
    by_cases hopen : isOpen a
    · rw [hstep.opened hlast hopen]
      exact ⟨l :: opens, hpending.opened hopen, .cons ⟨s₁, hrun, rfl⟩ htops⟩
    by_cases hclose : isClose a
    · obtain ⟨x, hx⟩ := hstep.closed hlast hclose
      rw [hx] at htops
      cases htops with
      | cons _ htops => exact ⟨_, hpending.closed hclose, htops⟩
    · rw [hstep.skip hlast hopen hclose]
      exact ⟨opens, hpending.skip hopen hclose, htops⟩

theorem balanced_iff (hstep : Stacked isOpen isClose step stack top) {s s' : σ}
    (hempty : stack s = []) (hrun : run step l s = some s') :
    Balanced isOpen isClose l ↔ stack s' = [] := by
  constructor
  · intro h
    rw [hstep.balanced h hrun, hempty]
  · intro h
    obtain ⟨opens, hpending, htops⟩ := hstep.exists_pending hempty l hrun
    rw [h] at htops
    cases htops
    cases hpending with
    | balanced h => exact h

/-- How much is open is how much is on the stack. -/
theorem pending_iff (hstep : Stacked isOpen isClose step stack top) {s s' : σ}
    (hempty : stack s = []) (hrun : run step l s = some s')
    (p : Nat → Prop) : (∃ opens, Pending isOpen isClose l opens ∧ p opens.length) ↔
      p (stack s').length := by
  constructor
  · rintro ⟨opens, hpending, hp⟩
    rwa [hstep.pending hpending hrun, hempty, List.length_nil, Nat.add_zero]
  · intro hp
    obtain ⟨opens, hpending, htops⟩ := hstep.exists_pending hempty l hrun
    exact ⟨opens, hpending, by rwa [htops.length_eq]⟩

end Stacked

end Brackets

/-
Stores: a value in every cell, and the effect of a sequence of writes. A cell holds the value written to
it last, or what it held before.
-/
import Mathlib.Logic.Function.Basic

namespace Store

variable {C V : Type} [DecidableEq C]

/-- The store after a sequence of writes. -/
def after (m : C → V) : List (C × V) → C → V
  | [] => m
  | (c, v) :: log => after (Function.update m c v) log

/-- The value written last to a cell. -/
def lastTo (c : C) : List (C × V) → Option V
  | [] => none
  | (c', v) :: log => (lastTo c log).or (if c' = c then some v else none)

@[simp] theorem after_nil (m : C → V) : after m [] = m := rfl

theorem after_append (log log' : List (C × V)) : ∀ m : C → V, after m (log ++ log') = after (after m log) log' := by
  induction log with
  | nil => exact fun _ => rfl
  | cons e log ih => exact fun m => ih _

theorem lastTo_append (c : C) (log' : List (C × V)) : ∀ log : List (C × V),
    lastTo c (log ++ log') = (lastTo c log').or (lastTo c log)
  | [] => (Option.or_none).symm
  | (c', v) :: log => by
    rw [List.cons_append, lastTo, lastTo, lastTo_append c log' log, Option.or_assoc]

/-- A cell holds what was written to it last, or what it held before. -/
theorem after_eq (c : C) : ∀ (log : List (C × V)) (m : C → V), after m log c = (lastTo c log).getD (m c)
  | [], _ => rfl
  | (c', v) :: log, m => by
    rw [after, lastTo, after_eq c log]
    cases hlast : lastTo c log with
    | some w => rfl
    | none =>
      rw [Option.none_or]
      by_cases hc : c' = c
      · rw [if_pos hc, ← hc, Function.update_self]
        rfl
      · rw [if_neg hc, Function.update_of_ne (Ne.symm hc)]

/-- Without a write to it a cell is as it was. -/
theorem lastTo_eq_none (c : C) : ∀ {log : List (C × V)}, (∀ e ∈ log, e.1 ≠ c) → lastTo c log = none
  | [], _ => rfl
  | (c', v) :: log, h => by
    rw [lastTo, lastTo_eq_none c fun e he => h e (List.mem_cons_of_mem _ he), if_neg (h _ List.mem_cons_self)]
    rfl

end Store

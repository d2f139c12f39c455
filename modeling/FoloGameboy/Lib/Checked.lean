/-
Computations that may fault, as `Option`: where no step of one faults, it is the computation without
the checks.
-/
import Mathlib.Logic.Basic

namespace Checked

variable {α β : Type}

/-- A step that does not fault goes on with its result. -/
theorem bind {m : Option α} {a : α} (h : m = some a) (f : α → Option β) : (m >>= f) = f a := by
  rw [h]
  rfl

/-- A loop over a list in which no step faults. -/
theorem foldlM {f' : β → α → Option β} {f : β → α → β} :
    ∀ {l : List α}, (∀ b, ∀ a ∈ l, f' b a = some (f b a)) → ∀ b, l.foldlM f' b = some (l.foldl f b)
  | [], _, _ => rfl
  | a :: l, h, b => by
    rw [List.foldlM_cons, bind (h b a List.mem_cons_self)]
    exact foldlM (fun b a ha => h b a (List.mem_cons_of_mem _ ha)) (f b a)

end Checked

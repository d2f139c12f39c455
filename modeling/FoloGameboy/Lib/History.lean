/-
Histories, the latest entry first: what has occurred in one, with what was there before, and the
histories in which every entry was admitted by the earlier ones.
-/
import Mathlib.Data.List.Basic

namespace History

variable {α : Type}

/-- Some entry satisfies `Q` with the entries before it. -/
def Occurred (Q : α → List α → Prop) : List α → Prop
  | [] => False
  | a :: h => Q a h ∨ Occurred Q h

theorem Occurred.later {Q : α → List α → Prop} {h : List α} (ho : Occurred Q h) (a : α) :
    Occurred Q (a :: h) := .inr ho

theorem Occurred.append {Q : α → List α → Prop} {h : List α} (ho : Occurred Q h) : ∀ later :
    List α, Occurred Q (later ++ h)
  | [] => ho
  | a :: later => (ho.append later).later a

theorem Occurred.mono {Q Q' : α → List α → Prop} (hQ : ∀ a h, Q a h → Q' a h) :
    ∀ {h : List α}, Occurred Q h → Occurred Q' h
  | _ :: h, .inl hq => .inl (hQ _ h hq)
  | _ :: _, .inr ho => .inr (ho.mono hQ)

/-- Every entry is admitted by the earlier ones. -/
def Admitted (ok : α → List α → Prop) : List α → Prop
  | [] => True
  | a :: h => ok a h ∧ Admitted ok h

theorem Admitted.of_append {ok : α → List α → Prop} :
    ∀ {later h : List α}, Admitted ok (later ++ h) → Admitted ok h
  | [], _, ha => ha
  | _ :: _, _, ha => Admitted.of_append ha.2

theorem Admitted.entry {ok : α → List α → Prop} {h later earlier : List α} {a : α} (ha : Admitted ok h)
    (hs : h = later ++ a :: earlier) : ok a earlier := by
  subst hs
  exact ha.of_append.1

end History

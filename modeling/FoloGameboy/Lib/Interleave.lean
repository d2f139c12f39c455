/-
A program run by one thread among others: before each of its operations, and before its end, the
environment may have taken any steps. A condition on every operation, in the state it is performed in
and after the operations it was preceded by, is proved over the text of the program. Where operations
have several answers, the device they are performed on is the one among whose operations the others
take steps, and the weakest precondition goes by assertions that these steps keep.
-/
import FoloGameboy.Lib.Crash
import Mathlib.Logic.Relation

namespace Effect
namespace Prog

variable {Op : Type} {Res : Op → Type} {α σ : Type} {h : (o : Op) → σ → Res o × σ} {env : σ → σ → Prop}
  {G : List (Op × σ) → Op → σ → Prop}

/-- Among steps of `env`, every operation is performed where `G` allows it, and the program ends where `Q`
allows. Both see the operations performed before, the latest first, each with its state. -/
def Guarded (h : (o : Op) → σ → Res o × σ) (env : σ → σ → Prop) (G : List (Op × σ) → Op → σ → Prop)
    (Q : List (Op × σ) → α → σ → Prop) : Prog Op Res α → List (Op × σ) → σ → Prop
  | .pure a, log, s => ∀ s', env s s' → Q log a s'
  | .perform o k, log, s => ∀ s', env s s' → G log o s' ∧ (k (h o s').1).Guarded h env G Q ((o, s') :: log) (h o s').2

variable {Q : List (Op × σ) → α → σ → Prop}

/-- A step of the environment keeps what is guarded. -/
theorem Guarded.interfered (htrans : ∀ a b c, env a b → env b c → env a c) {p : Prog Op Res α}
    {log : List (Op × σ)} {s s' : σ}
    (hp : p.Guarded h env G Q log s) (hs : env s s') : p.Guarded h env G Q log s' := by
  cases p with
  | pure a => exact fun s'' hs' => hp s'' (htrans _ _ _ hs hs')
  | perform o k => exact fun s'' hs' => hp s'' (htrans _ _ _ hs hs')

theorem Guarded.ended (hrefl : ∀ s, env s s) {a : α} {log : List (Op × σ)} {s : σ}
    (hp : (Prog.pure a : Prog Op Res α).Guarded h env G Q log s) : Q log a s := hp s (hrefl s)

theorem Guarded.performed (hrefl : ∀ s, env s s) {o : Op} {k : Res o → Prog Op Res α}
    {log : List (Op × σ)} {s : σ} (hp : (Prog.perform o k).Guarded h env G Q log s) :
    G log o s ∧ (k (h o s).1).Guarded h env G Q ((o, s) :: log) (h o s).2 := hp s (hrefl s)

end Prog

/-! ## A device shared with others -/

section
variable {Op : Type} {Res : Op → Type} {α β σ : Type} {env : σ → σ → Prop} {D : Device Op Res σ}

/-- The device when others take steps before each operation; a program is looked at after any of them. -/
def Device.among (env : σ → σ → Prop) (D : Device Op Res σ) : Device Op Res σ where
  done o s r s' := ∃ s₀, Relation.ReflTransGen env s s₀ ∧ D.done o s₀ r s'
  cut _ s s' := Relation.ReflTransGen env s s'

/-- What every step of the others keeps, any number of them keep. -/
theorem stable_reflTransGen {P : σ → Prop} (hP : ∀ s s', P s → env s s' → P s') {s s' : σ} (hs : P s)
    (h : Relation.ReflTransGen env s s') : P s' := by
  induction h with
  | refl => exact hs
  | tail _ hstep ih => exact hP _ _ ih hstep

namespace Prog

/-- An operation, from an assertion that the steps of the others keep. -/
theorem wp_among {P : σ → Prop} {Q : β → σ → Prop} {C : σ → Prop} {o : Op} {f : Res o → Prog Op Res β} {s : σ}
    (hP : ∀ s s', P s → env s s' → P s') (hC : ∀ s', P s' → C s') (hs : P s)
    (h : ∀ s' r s'', P s' → D.done o s' r s'' → (f r).wp (D.among env) Q C s'') :
    (op o >>= f).wp (D.among env) Q C s := by
  refine ⟨fun r s'' hd => ?_, fun s' hc => hC s' (stable_reflTransGen hP hs hc)⟩
  obtain ⟨s', henv, hd⟩ := hd
  exact h s' r s'' (stable_reflTransGen hP hs henv) hd

end Prog
end

end Effect

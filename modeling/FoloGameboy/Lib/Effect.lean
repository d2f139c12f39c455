/-
Programs over an effect signature, their runs under a stateful handler, and the rules proofs
use: an invariant kept by every operation is kept by every run, two handlers that simulate each
other on every operation simulate each other on every run (possibly until the second state goes
bad), and a property of all outcomes of a program holds of the outcome of each run.
-/
import Mathlib.Logic.Basic

namespace Effect

/-- A program over operations `Op`, where `o` answers with a value of type `Res o`. -/
inductive Prog (Op : Type) (Res : Op → Type) (α : Type) : Type where
  | pure (a : α) : Prog Op Res α
  | perform (o : Op) (k : Res o → Prog Op Res α) : Prog Op Res α

namespace Prog

variable {Op : Type} {Res : Op → Type} {α β γ σ σ₁ σ₂ : Type}

def bind : Prog Op Res α → (α → Prog Op Res β) → Prog Op Res β
  | .pure a, f => f a
  | .perform o k, f => .perform o fun r => (k r).bind f

instance : Monad (Prog Op Res) where
  pure := .pure
  bind := .bind

/-- The program that performs one operation and returns its answer. -/
def op (o : Op) : Prog Op Res (Res o) := .perform o .pure

theorem bind_pure_right : ∀ p : Prog Op Res α, p.bind .pure = p
  | .pure _ => rfl
  | .perform o k => by simp only [bind]; congr; funext r; exact bind_pure_right (k r)

theorem bind_assoc' : ∀ (p : Prog Op Res α) (f : α → Prog Op Res β) (g : β → Prog Op Res γ),
    (p.bind f).bind g = p.bind fun a => (f a).bind g
  | .pure _, _, _ => rfl
  | .perform o k, f, g => by simp only [bind]; congr; funext r; exact bind_assoc' (k r) f g

instance : LawfulMonad (Prog Op Res) :=
  LawfulMonad.mk' _ (fun x => bind_pure_right x) (fun _ _ => rfl) (fun x f g => bind_assoc' x f g)

/-! ## Runs -/

/-- The run of a program from a state, each operation answered by the handler. -/
def run (h : (o : Op) → σ → Res o × σ) : Prog Op Res α → σ → α × σ
  | .pure a, s => (a, s)
  | .perform o k, s => (k (h o s).1).run h (h o s).2

@[simp] theorem run_pure (h : (o : Op) → σ → Res o × σ) (a : α) (s : σ) :
    (Pure.pure a : Prog Op Res α).run h s = (a, s) := rfl

@[simp] theorem run_op (h : (o : Op) → σ → Res o × σ) (o : Op) (s : σ) :
    (op o : Prog Op Res (Res o)).run h s = h o s := rfl

@[simp] theorem run_bind (h : (o : Op) → σ → Res o × σ) :
    ∀ (p : Prog Op Res α) (f : α → Prog Op Res β) (s : σ),
      (p >>= f).run h s = (f (p.run h s).1).run h (p.run h s).2
  | .pure _, _, _ => rfl
  | .perform o k, f, s => run_bind h (k (h o s).1) f (h o s).2

/-- An invariant of every operation is an invariant of every run. -/
theorem run_inv {h : (o : Op) → σ → Res o × σ} {P : σ → Prop} (hP : ∀ o s, P s → P (h o s).2) :
    ∀ (p : Prog Op Res α) (s : σ), P s → P (p.run h s).2
  | .pure _, _, hs => hs
  | .perform o k, s, hs => run_inv hP (k (h o s).1) _ (hP o s hs)

/-- The operations of a run, each with the state it is performed in. -/
def trace (h : (o : Op) → σ → Res o × σ) : Prog Op Res α → σ → List (Op × σ)
  | .pure _, _ => []
  | .perform o k, s => (o, s) :: (k (h o s).1).trace h (h o s).2

/-- An invariant of every operation holds whenever one is performed. -/
theorem trace_inv {h : (o : Op) → σ → Res o × σ} {P : σ → Prop} (hP : ∀ o s, P s → P (h o s).2) :
    ∀ (p : Prog Op Res α) (s : σ), P s → ∀ e ∈ p.trace h s, P e.2
  | .pure _, _, _, _, he => absurd he List.not_mem_nil
  | .perform o k, s, hs, e, he => by
    rcases List.mem_cons.mp he with rfl | he
    · exact hs
    · exact trace_inv hP (k (h o s).1) _ (hP o s hs) e he

/-- A relation between a log and the state that every operation keeps with what it adds to the log, every
run keeps with what its operations add. -/
theorem run_logged {ε : Type} {h : (o : Op) → σ → Res o × σ} {w : Op → σ → List ε} {R : List ε → σ → Prop}
    (hR : ∀ o log s, R log s → R (log ++ w o s) (h o s).2) : ∀ (p : Prog Op Res α) (log : List ε) (s : σ),
      R log s → R (log ++ (p.trace h s).flatMap fun e => w e.1 e.2) (p.run h s).2
  | .pure _, log, s, hs => by
    rw [trace, List.flatMap_nil, List.append_nil]
    exact hs
  | .perform o k, log, s, hs => by
    rw [trace, List.flatMap_cons, ← List.append_assoc]
    exact run_logged hR (k (h o s).1) _ _ (hR o log s hs)

/-- It holds whenever an operation is performed, of what the operations before it have added. -/
theorem trace_logged {ε : Type} {h : (o : Op) → σ → Res o × σ} {w : Op → σ → List ε} {R : List ε → σ → Prop}
    (hR : ∀ o log s, R log s → R (log ++ w o s) (h o s).2) : ∀ (p : Prog Op Res α) (log : List ε) (s : σ),
      R log s → ∀ pre e post, p.trace h s = pre ++ e :: post → R (log ++ pre.flatMap fun e => w e.1 e.2) e.2
  | .pure _, _, _, _, pre, _, _, heq => by
    rw [trace] at heq
    exact absurd heq.symm (List.append_ne_nil_of_right_ne_nil _ (List.cons_ne_nil _ _))
  | .perform o k, log, s, hs, [], e, post, heq => by
    rw [trace] at heq
    obtain ⟨rfl, -⟩ := List.cons_eq_cons.1 heq
    rw [List.flatMap_nil, List.append_nil]
    exact hs
  | .perform o k, log, s, hs, _ :: pre, e, post, heq => by
    rw [trace] at heq
    obtain ⟨rfl, hrest⟩ := List.cons_eq_cons.1 heq
    rw [List.flatMap_cons, ← List.append_assoc]
    exact trace_logged hR (k (h o s).1) _ _ (hR o log s hs) pre e post hrest

/-- Two handlers that answer alike and keep a relation on every operation do so on every run,
unless the second state goes bad, which it then stays. -/
theorem run_sim_or {h₁ : (o : Op) → σ₁ → Res o × σ₁} {h₂ : (o : Op) → σ₂ → Res o × σ₂}
    {R : σ₁ → σ₂ → Prop} {B : σ₂ → Prop}
    (hop : ∀ o s₁ s₂, R s₁ s₂ → ((h₁ o s₁).1 = (h₂ o s₂).1 ∧ R (h₁ o s₁).2 (h₂ o s₂).2) ∨ B (h₂ o s₂).2)
    (hbad : ∀ o s, B s → B (h₂ o s).2) :
    ∀ (p : Prog Op Res α) (s₁ : σ₁) (s₂ : σ₂), R s₁ s₂ →
      ((p.run h₁ s₁).1 = (p.run h₂ s₂).1 ∧ R (p.run h₁ s₁).2 (p.run h₂ s₂).2) ∨ B (p.run h₂ s₂).2
  | .pure _, _, _, hR => .inl ⟨rfl, hR⟩
  | .perform o k, s₁, s₂, hR => by
    rcases hop o s₁ s₂ hR with ⟨heq, hR'⟩ | hb
    · simp only [run]; rw [heq]; exact run_sim_or hop hbad (k (h₂ o s₂).1) _ _ hR'
    · exact .inr (run_inv hbad (k (h₂ o s₂).1) _ hb)

/-! ## Runs that may fault -/

/-- The run under a handler that may fault, which ends the run. -/
def tryRun (h : (o : Op) → σ → Option (Res o × σ)) : Prog Op Res α → σ → Option (α × σ)
  | .pure a, s => some (a, s)
  | .perform o k, s => (h o s).bind fun r => (k r.1).tryRun h r.2

/-- A handler that does not fault where an invariant holds does not fault in a run that starts there. -/
theorem tryRun_eq {h : (o : Op) → σ → Res o × σ} {h' : (o : Op) → σ → Option (Res o × σ)} {P : σ → Prop}
    (hop : ∀ o s, P s → h' o s = some (h o s)) (hP : ∀ o s, P s → P (h o s).2) :
    ∀ (p : Prog Op Res α) (s : σ), P s → p.tryRun h' s = some (p.run h s)
  | .pure _, _, _ => rfl
  | .perform o k, s, hs => by
    unfold tryRun
    rw [hop o s hs]
    exact tryRun_eq hop hP (k (h o s).1) _ (hP o s hs)

/-! ## Properties of all outcomes -/

/-- Every outcome of the program, whatever the operations answer, satisfies `Q`. -/
def Always (Q : α → Prop) : Prog Op Res α → Prop
  | .pure a => Q a
  | .perform _ k => ∀ r, (k r).Always Q

@[simp] theorem always_pure (Q : α → Prop) (a : α) :
    (Pure.pure a : Prog Op Res α).Always Q ↔ Q a := Iff.rfl

@[simp] theorem always_op (o : Op) (Q : Res o → Prop) :
    (op o : Prog Op Res (Res o)).Always Q ↔ ∀ r, Q r := Iff.rfl

@[simp] theorem always_bind (Q : β → Prop) : ∀ (p : Prog Op Res α) (f : α → Prog Op Res β),
    (p >>= f).Always Q ↔ p.Always fun a => (f a).Always Q
  | .pure _, _ => Iff.rfl
  | .perform _ k, f => forall_congr' fun r => always_bind Q (k r) f

theorem Always.mono {Q Q' : α → Prop} (h : ∀ a, Q a → Q' a) :
    ∀ {p : Prog Op Res α}, p.Always Q → p.Always Q'
  | .pure _, hp => h _ hp
  | .perform _ _, hp => fun r => Always.mono h (hp r)

theorem Always.of_forall {Q : α → Prop} (h : ∀ a, Q a) : ∀ p : Prog Op Res α, p.Always Q
  | .pure a => h a
  | .perform _ k => fun r => Always.of_forall h (k r)

theorem Always.run {Q : α → Prop} (h : (o : Op) → σ → Res o × σ) :
    ∀ {p : Prog Op Res α}, p.Always Q → ∀ s, Q (p.run h s).1
  | .pure _, hp, _ => hp
  | .perform o _, hp, s => Always.run h (hp (h o s).1) (h o s).2

end Prog

end Effect

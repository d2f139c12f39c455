/-
Programs over devices that may fail and lose power: the executions of a program, the weakest
precondition of what holds when it returns and when the power is cut during one of its operations,
and the rules proofs use.
-/
import FoloGameboy.Lib.Effect

namespace Effect

/-- A device: what an operation may answer and leave when it completes, and what a power cut during
it may leave. -/
structure Device (Op : Type) (Res : Op → Type) (σ : Type) where
  done : (o : Op) → σ → Res o → σ → Prop
  cut : Op → σ → σ → Prop

namespace Device

variable {Op : Type} {Res : Op → Type} {σ : Type}

/-- Every behaviour of `D` is one of `D'`. -/
structure Refines (D D' : Device Op Res σ) : Prop where
  done : ∀ o s r s', D.done o s r s' → D'.done o s r s'
  cut : ∀ o s s', D.cut o s s' → D'.cut o s s'

/-- The device restricted to answers that `ok` allows, without power cuts. -/
def answering (ok : (o : Op) → Res o → Prop) (D : Device Op Res σ) : Device Op Res σ where
  done o s r s' := D.done o s r s' ∧ ok o r
  cut _ _ _ := False

/-- The device whose completed operations meet a condition on the state before and the answer. -/
def when (ok : (o : Op) → σ → Res o → Prop) (D : Device Op Res σ) : Device Op Res σ where
  done o s r s' := D.done o s r s' ∧ ok o s r
  cut := D.cut

theorem answering_refines (ok : (o : Op) → Res o → Prop) (D : Device Op Res σ) : (D.answering ok).Refines D :=
  ⟨fun _ _ _ _ h => h.1, fun _ _ _ h => h.elim⟩

/-- A condition that always holds restricts nothing. -/
theorem refines_when {ok : (o : Op) → σ → Res o → Prop} (D : Device Op Res σ) (h : ∀ o s r, ok o s r) :
    D.Refines (D.when ok) :=
  ⟨fun _ _ _ _ hd => ⟨hd, h _ _ _⟩, fun _ _ _ hc => hc⟩

end Device

namespace Prog

variable {Op : Type} {Res : Op → Type} {α β σ : Type}

/-- The executions of a program: it returns a value, or the power is cut. -/
inductive Exec (D : Device Op Res σ) : Prog Op Res α → σ → Option α → σ → Prop where
  | pure (a : α) (s : σ) : Exec D (.pure a) s (some a) s
  | perform {o : Op} {k : Res o → Prog Op Res α} {s s' s'' : σ} {r : Res o} {out : Option α}
      (h : D.done o s r s') (hk : Exec D (k r) s' out s'') : Exec D (.perform o k) s out s''
  | cut {o : Op} {k : Res o → Prog Op Res α} {s s' : σ} (h : D.cut o s s') : Exec D (.perform o k) s none s'

/-- The weakest precondition for `Q` to hold when the program returns and `C` to hold after a power
cut. -/
def wp (D : Device Op Res σ) (Q : α → σ → Prop) (C : σ → Prop) : Prog Op Res α → σ → Prop
  | .pure a, s => Q a s
  | .perform o k, s => (∀ r s', D.done o s r s' → (k r).wp D Q C s') ∧ ∀ s', D.cut o s s' → C s'

/-- What holds at the end of an execution. -/
def Post (Q : α → σ → Prop) (C : σ → Prop) : Option α → σ → Prop
  | some a, s => Q a s
  | none, s => C s

variable {D D' : Device Op Res σ} {Q Q' : α → σ → Prop} {C C' : σ → Prop}

theorem wp_exec {p : Prog Op Res α} {s s' : σ} {out : Option α} (h : p.wp D Q C s)
    (he : p.Exec D s out s') :
    Post Q C out s' := by
  induction he with
  | pure a s => exact h
  | perform hd _ ih => exact ih (h.1 _ _ hd)
  | cut hc => exact h.2 _ hc

@[simp] theorem wp_pure (a : α) (s : σ) : (Pure.pure a : Prog Op Res α).wp D Q C s ↔ Q a s := Iff.rfl

theorem wp_bind {Q : β → σ → Prop} : ∀ (p : Prog Op Res α) (f : α → Prog Op Res β) (s : σ),
    (p >>= f).wp D Q C s ↔ p.wp D (fun a s => (f a).wp D Q C s) C s
  | .pure _, _, _ => Iff.rfl
  | .perform _ k, f, _ =>
    and_congr (forall_congr' fun r => forall_congr' fun s' => forall_congr' fun _ =>
      wp_bind (k r) f s') Iff.rfl

/-- An operation first, then the rest. -/
theorem wp_perform {o : Op} {f : Res o → Prog Op Res β} {Q : β → σ → Prop} {s : σ}
    (h : ∀ r s', D.done o s r s' → (f r).wp D Q C s') (hc : ∀ s', D.cut o s s' → C s') :
    (op o >>= f).wp D Q C s := ⟨h, hc⟩

theorem wp_mono (hQ : ∀ a s, Q a s → Q' a s) (hC : ∀ s, C s → C' s) :
    ∀ {p : Prog Op Res α} {s : σ}, p.wp D Q C s → p.wp D Q' C' s
  | .pure _, _, h => hQ _ _ h
  | .perform _ _, _, h => ⟨fun r s' hd => wp_mono hQ hC (h.1 r s' hd), fun s' hc => hC _ (h.2 s' hc)⟩

/-- A program first, up to what is known when it returns, then the rest. -/
theorem wp_seq {p : Prog Op Res α} {f : α → Prog Op Res β} {P : α → σ → Prop} {Q : β → σ → Prop}
    {s : σ} (hp : p.wp D P C s)
    (hf : ∀ a s', P a s' → (f a).wp D Q C s') : (p >>= f).wp D Q C s := by
  rw [wp_bind]
  exact wp_mono hf (fun _ h => h) hp

/-- Two facts about the same executions. -/
theorem wp_and : ∀ {p : Prog Op Res α} {s : σ}, p.wp D Q C s → p.wp D Q' C' s →
    p.wp D (fun a s => Q a s ∧ Q' a s) (fun s => C s ∧ C' s) s
  | .pure _, _, h, h' => ⟨h, h'⟩
  | .perform _ _, _, h, h' =>
    ⟨fun r s' hd => wp_and (h.1 r s' hd) (h'.1 r s' hd), fun s' hc => ⟨h.2 s' hc, h'.2 s' hc⟩⟩

/-- What holds on a device holds on every device with fewer behaviours. -/
theorem wp_refines (hD : D'.Refines D) : ∀ {p : Prog Op Res α} {s : σ}, p.wp D Q C s → p.wp D' Q C s
  | .pure _, _, h => h
  | .perform o _, s, h =>
    ⟨fun r s' hd => wp_refines hD (h.1 r s' (hD.done o s r s' hd)), fun s' hc => h.2 s' (hD.cut o s s' hc)⟩

/-- Where the power is never cut nothing is asked of a cut. -/
theorem wp_uncut (hD : ∀ o s s', ¬ D.cut o s s') : ∀ {p : Prog Op Res α} {s : σ}, p.wp D Q C s → p.wp D Q C' s
  | .pure _, _, h => h
  | .perform o _, s, h => ⟨fun r s' hd => wp_uncut hD (h.1 r s' hd), fun s' hc => absurd hc (hD o s s')⟩

/-- An invariant of every operation, completed or cut, is an invariant of every execution. -/
theorem wp_inv {I : σ → Prop} (hd : ∀ o s r s', I s → D.done o s r s' → I s')
    (hc : ∀ o s s', I s → D.cut o s s' → I s') :
    ∀ (p : Prog Op Res α) {s : σ}, I s → p.wp D (fun _ => I) I s
  | .pure _, _, h => h
  | .perform o k, s, h =>
    ⟨fun r s' hr => wp_inv hd hc (k r) (hd o s r s' h hr), fun s' hs => hc o s s' h hs⟩

/-! ## Operations a program may perform -/

/-- Every operation the program may perform, whatever the answers, is in `A`. -/
def Only (A : Op → Prop) : Prog Op Res α → Prop
  | .pure _ => True
  | .perform o k => A o ∧ ∀ r, (k r).Only A

@[simp] theorem only_pure (A : Op → Prop) (a : α) : (Pure.pure a : Prog Op Res α).Only A := trivial

theorem only_op {A : Op → Prop} {o : Op} (h : A o) : (op o : Prog Op Res (Res o)).Only A :=
  ⟨h, fun _ => trivial⟩

theorem only_bind {A : Op → Prop} : ∀ {p : Prog Op Res α} {f : α → Prog Op Res β}, p.Only A →
    (∀ a, (f a).Only A) → (p >>= f).Only A
  | .pure a, _, _, hf => hf a
  | .perform _ _, _, hp, hf => ⟨hp.1, fun r => only_bind (hp.2 r) hf⟩

theorem Only.mono {A A' : Op → Prop} (h : ∀ o, A o → A' o) : ∀ {p : Prog Op Res α}, p.Only A → p.Only A'
  | .pure _, _ => trivial
  | .perform o _, hp => ⟨h o hp.1, fun r => Only.mono h (hp.2 r)⟩

/-- An invariant of the operations the program may perform. -/
theorem Only.wp_inv {A : Op → Prop} {I : σ → Prop} (hd : ∀ o s r s', A o → I s → D.done o s r s' → I s')
    (hc : ∀ o s s', A o → I s → D.cut o s s' → I s') :
    ∀ {p : Prog Op Res α}, p.Only A → ∀ {s : σ}, I s → p.wp D (fun _ => I) I s
  | .pure _, _, _, h => h
  | .perform o _, hp, s, h =>
    ⟨fun r s' hr => Only.wp_inv hd hc (hp.2 r) (hd o s r s' hp.1 h hr), fun s' hs => hc o s s' hp.1 h hs⟩

/-- A property of all outcomes holds of every value returned. -/
theorem Always.wp {Q : α → Prop} : ∀ {p : Prog Op Res α}, p.Always Q → ∀ (s : σ),
    p.wp D (fun a _ => Q a) (fun _ => True) s
  | .pure _, h, _ => h
  | .perform _ _, h, _ => ⟨fun r s' _ => Always.wp (h r) s', fun _ _ => trivial⟩

theorem exec_bind {p : Prog Op Res α} {f : α → Prog Op Res β} {s s' s'' : σ} {a : α}
    {out : Option β} (h : p.Exec D s (some a) s')
    (hf : (f a).Exec D s' out s'') : (p >>= f).Exec D s out s'' := by
  generalize hout : some a = r at h
  induction h with
  | pure b s =>
    obtain rfl := Option.some.inj hout
    exact hf
  | perform hd _ ih => exact .perform hd (ih hf hout)
  | cut hc => cases hout

/-- An operation that completes, then the rest. -/
theorem exec_perform {o : Op} {k : Res o → Prog Op Res β} {s s' s'' : σ} {r : Res o} {out : Option β}
    (hd : D.done o s r s') (hk : (k r).Exec D s' out s'') : (op o >>= k).Exec D s out s'' := .perform hd hk

theorem exec_bind_cut {p : Prog Op Res α} {f : α → Prog Op Res β} {s s' : σ} (h : p.Exec D s none s') :
    (p >>= f).Exec D s none s' := by
  generalize hout : none = r at h
  induction h with
  | pure b s => cases hout
  | perform hd _ ih => exact .perform hd (ih hout)
  | cut hc => exact .cut hc

/-- Every execution is one on each device with more behaviours. -/
theorem Exec.refines {D' : Device Op Res σ} (hD : D.Refines D') {p : Prog Op Res α} {s s' : σ}
    {out : Option α}
    (h : p.Exec D s out s') : p.Exec D' s out s' := by
  induction h with
  | pure a s => exact .pure a s
  | perform hd _ ih => exact .perform (hD.done _ _ _ _ hd) ih
  | cut hc => exact .cut (hD.cut _ _ _ hc)

/-- A program whose operations can all complete has an execution that returns. -/
theorem Only.exec {A : Op → Prop} (hd : ∀ o s, A o → ∃ r s', D.done o s r s') :
    ∀ {p : Prog Op Res α}, p.Only A → ∀ s, ∃ a s', p.Exec D s (some a) s'
  | .pure a, _, s => ⟨a, s, .pure a s⟩
  | .perform o _, hp, s => by
    obtain ⟨r, s', hr⟩ := hd o s hp.1
    obtain ⟨a, s'', ha⟩ := Only.exec hd (hp.2 r) s'
    exact ⟨a, s'', .perform hr ha⟩

/-- A run under a handler is an execution on every device that may behave like the handler. -/
theorem exec_run {h : (o : Op) → σ → Res o × σ} (hd : ∀ o s, D.done o s (h o s).1 (h o s).2) :
    ∀ (p : Prog Op Res α) (s : σ), p.Exec D s (some (p.run h s).1) (p.run h s).2
  | .pure a, s => .pure a s
  | .perform o k, s => .perform (hd o s) (exec_run hd (k (h o s).1) (h o s).2)

end Prog

end Effect

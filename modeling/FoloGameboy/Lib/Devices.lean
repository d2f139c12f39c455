/-
Two devices side by side, a device that records what it is asked, and the executions of programs put
together from parts.
-/
import FoloGameboy.Lib.Crash

namespace Effect

/-! ## Executions of composed programs -/

namespace Prog

variable {Op : Type} {Res : Op → Type} {α β σ : Type} {D : Device Op Res σ}

@[simp] theorem exec_pure_iff {a : α} {s s' : σ} {out : Option α} :
    (Pure.pure a : Prog Op Res α).Exec D s out s' ↔ out = some a ∧ s' = s := by
  constructor
  · intro h
    cases h with
    | pure => exact ⟨rfl, rfl⟩
  · rintro ⟨rfl, rfl⟩
    exact .pure a _

/-- An execution of two parts: the first returns and the second runs, or the first is cut. -/
theorem exec_bind_iff {p : Prog Op Res α} {f : α → Prog Op Res β} {s s'' : σ} {out : Option β} :
    (p >>= f).Exec D s out s'' ↔
      (∃ a s', p.Exec D s (some a) s' ∧ (f a).Exec D s' out s'') ∨ (out = none ∧ p.Exec D s none s'') := by
  constructor
  · intro h
    induction p generalizing s with
    | pure a => exact .inl ⟨a, s, .pure a s, h⟩
    | perform o k ih =>
      cases h with
      | perform hd hk =>
        rcases ih _ hk with ⟨a, s', ha, hf⟩ | ⟨rfl, hc⟩
        · exact .inl ⟨a, s', .perform hd ha, hf⟩
        · exact .inr ⟨rfl, .perform hd hc⟩
      | cut hc => exact .inr ⟨rfl, .cut hc⟩
  · rintro (⟨a, s', hp, hf⟩ | ⟨rfl, hp⟩)
    · exact exec_bind hp hf
    · exact exec_bind_cut hp

end Prog

/-! ## Two devices -/

section
variable {Op₁ Op₂ : Type} {Res₁ : Op₁ → Type} {Res₂ : Op₂ → Type} {α σ₁ σ₂ : Type}

/-- Two devices side by side: an operation of one leaves the other alone. -/
def Device.sum (D₁ : Device Op₁ Res₁ σ₁) (D₂ : Device Op₂ Res₂ σ₂) :
    Device (Op₁ ⊕ Op₂) (Sum.elim Res₁ Res₂) (σ₁ × σ₂) where
  done
    | .inl o, s, r, s' => D₁.done o s.1 r s'.1 ∧ s'.2 = s.2
    | .inr o, s, r, s' => D₂.done o s.2 r s'.2 ∧ s'.1 = s.1
  cut
    | .inl o, s, s' => D₁.cut o s.1 s'.1 ∧ s'.2 = s.2
    | .inr o, s, s' => D₂.cut o s.2 s'.2 ∧ s'.1 = s.1

namespace Prog

/-- A program for the first of two devices. -/
def inl : Prog Op₁ Res₁ α → Prog (Op₁ ⊕ Op₂) (Sum.elim Res₁ Res₂) α
  | .pure a => .pure a
  | .perform o k => .perform (.inl o) fun r => (k r).inl

/-- A program for the second of two devices. -/
def inr : Prog Op₂ Res₂ α → Prog (Op₁ ⊕ Op₂) (Sum.elim Res₁ Res₂) α
  | .pure a => .pure a
  | .perform o k => .perform (.inr o) fun r => (k r).inr

variable {D₁ : Device Op₁ Res₁ σ₁} {D₂ : Device Op₂ Res₂ σ₂}

theorem exec_inl {p : Prog Op₁ Res₁ α} {s s' : σ₁ × σ₂} {out : Option α}
    (h : p.inl.Exec (D₁.sum D₂) s out s') :
    p.Exec D₁ s.1 out s'.1 ∧ s'.2 = s.2 := by
  induction p generalizing s with
  | pure a =>
    cases h with
    | pure => exact ⟨.pure a _, rfl⟩
  | perform o k ih =>
    cases h with
    | perform hd hk =>
      obtain ⟨hk, hrest⟩ := ih _ hk
      exact ⟨.perform hd.1 hk, hrest.trans hd.2⟩
    | cut hc => exact ⟨.cut hc.1, hc.2⟩

theorem exec_inr {p : Prog Op₂ Res₂ α} {s s' : σ₁ × σ₂} {out : Option α}
    (h : p.inr.Exec (D₁.sum D₂) s out s') :
    p.Exec D₂ s.2 out s'.2 ∧ s'.1 = s.1 := by
  induction p generalizing s with
  | pure a =>
    cases h with
    | pure => exact ⟨.pure a _, rfl⟩
  | perform o k ih =>
    cases h with
    | perform hd hk =>
      obtain ⟨hk, hrest⟩ := ih _ hk
      exact ⟨.perform hd.1 hk, hrest.trans hd.2⟩
    | cut hc => exact ⟨.cut hc.1, hc.2⟩

/-- And the other way. -/
theorem inl_exec {p : Prog Op₁ Res₁ α} {s s' : σ₁} {out : Option α} (h : p.Exec D₁ s out s') (v : σ₂) :
    p.inl.Exec (D₁.sum D₂) (s, v) out (s', v) := by
  induction h with
  | pure a s => exact .pure a _
  | @perform o k s₀ s₁ s₂ r out hd _ ih =>
    have hboth : (D₁.sum D₂).done (.inl o) (s₀, v) r (s₁, v) := ⟨hd, rfl⟩
    exact .perform hboth ih
  | cut hc => exact .cut ⟨hc, rfl⟩

/-- A program for the first device asks nothing of the second. -/
theorem inl_only (p : Prog Op₁ Res₁ α) :
    (p.inl : Prog (Op₁ ⊕ Op₂) (Sum.elim Res₁ Res₂) α).Only fun o => ∃ o₁, o = .inl o₁ := by
  induction p with
  | pure a => exact trivial
  | perform o k ih => exact ⟨⟨o, rfl⟩, ih⟩

end Prog

end

/-! ## Recorded devices -/

section
variable {Op : Type} {Res : Op → Type} {α σ : Type}

/-- An operation with its answer, unless it was cut. -/
abbrev Request (Res : Op → Type) : Type := (o : Op) × Option (Res o)

/-- The device with a record of the operations asked of it. -/
def Device.logged (D : Device Op Res σ) : Device Op Res (σ × List (Request Res)) where
  done o s r s' := D.done o s.1 r s'.1 ∧ s'.2 = s.2 ++ [⟨o, some r⟩]
  cut o s s' := D.cut o s.1 s'.1 ∧ s'.2 = s.2 ++ [⟨o, none⟩]

variable {D : Device Op Res σ}

namespace Prog

theorem Exec.unlogged {p : Prog Op Res α} {s s' : σ × List (Request Res)} {out : Option α}
    (h : p.Exec D.logged s out s') :
    p.Exec D s.1 out s'.1 := by
  induction h with
  | pure a s => exact .pure a _
  | perform hd _ ih => exact .perform hd.1 ih
  | cut hc => exact .cut hc.1

/-- Every execution leaves a record. -/
theorem Exec.logged {p : Prog Op Res α} {s s' : σ} {out : Option α} (h : p.Exec D s out s')
    (l : List (Request Res)) :
    ∃ l', p.Exec D.logged (s, l) out (s', l') := by
  induction h generalizing l with
  | pure a s => exact ⟨l, .pure a _⟩
  | perform hd _ ih =>
    obtain ⟨l', hl'⟩ := ih _
    exact ⟨l', .perform ⟨hd, rfl⟩ hl'⟩
  | cut hc => exact ⟨_, .cut ⟨hc, rfl⟩⟩

/-- An operation that completes is put on the record, then the rest. -/
theorem exec_recorded {o : Op} {k : Res o → Prog Op Res α} {s s' : σ}
    {r : Res o} {l : List (Request Res)} {out : Option α}
    {w : σ × List (Request Res)} (hd : D.done o s r s') (hk : (k r).Exec D.logged (s', l ++ [⟨o, some r⟩]) out w) :
    (op o >>= k).Exec D.logged (s, l) out w := .perform ⟨hd, rfl⟩ hk

/-- What a program asks for is on the record. -/
theorem Only.logged {A : Op → Prop} {p : Prog Op Res α} (hp : p.Only A)
    {s s' : σ × List (Request Res)} {out : Option α}
    (h : p.Exec D.logged s out s') : ∃ l, s'.2 = s.2 ++ l ∧ ∀ e ∈ l, A e.1 := by
  induction h with
  | pure a s => exact ⟨[], (List.append_nil _).symm, by simp⟩
  | @perform o k s₀ s₁ s₂ r out hd _ ih =>
    obtain ⟨l, hl, hA⟩ := ih (hp.2 r)
    refine ⟨⟨o, some r⟩ :: l, ?_, ?_⟩
    · rw [hl, hd.2, List.append_assoc]
      rfl
    · intro e he
      rcases List.mem_cons.mp he with rfl | he
      · exact hp.1
      · exact hA e he
  | @cut o k s₀ s₁ hc =>
    refine ⟨[⟨o, none⟩], hc.2, ?_⟩
    intro e he
    obtain rfl := List.mem_singleton.mp he
    exact hp.1

end Prog

/-- No request of a kind is on the record. -/
def Never (Q : Request Res → Prop) (l : List (Request Res)) : Prop := ∀ e ∈ l, ¬ Q e

theorem Never.nil (Q : Request Res → Prop) : Never Q [] := by
  intro e he
  cases he

theorem Never.concat {Q : Request Res → Prop} {l : List (Request Res)} (h : Never Q l)
    {e : Request Res} (he : ¬ Q e) :
    Never Q (l ++ [e]) := by
  intro e' he'
  rcases List.mem_append.mp he' with he' | he'
  · exact h e' he'
  · rw [List.mem_singleton.mp he']
    exact he

/-- A program that asks for nothing of a kind leaves none on the record. -/
theorem Prog.Only.never {Q : Request Res → Prop} {A : Op → Prop}
    (hA : ∀ e : Request Res, A e.1 → ¬ Q e) {p : Prog Op Res α}
    (hp : p.Only A) {w : σ × List (Request Res)} (h : Never Q w.2) :
    p.wp D.logged (fun _ w' => Never Q w'.2) (fun w' => Never Q w'.2) w := by
  refine Only.wp_inv (I := fun w : σ × List (Request Res) => Never Q w.2) ?_ ?_ hp h
  · rintro o w r w' ho hw ⟨-, hl⟩
    rw [hl]
    exact hw.concat (hA ⟨o, some r⟩ ho)
  · rintro o w w' ho hw ⟨-, hl⟩
    rw [hl]
    exact hw.concat (hA ⟨o, none⟩ ho)

end

end Effect

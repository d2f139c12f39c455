/-
Computations that may fault, by what they ensure: `Defined m P` says that `m` does not fault and that
its result satisfies `P`. The rules follow the shape of the computation; a `while` loop needs an
invariant and a potential that every pass through its body lowers.
-/
import Mathlib.Logic.Function.Iterate

/-- `m` does not fault, and `P` holds of its result. -/
def Defined {α : Type} (m : Option α) (P : α → Prop) : Prop := ∃ a, m = some a ∧ P a

namespace Defined

variable {α β : Type} {P : α → Prop} {Q : β → Prop}

theorem pure {a : α} (h : P a) : Defined (some a) P := ⟨a, rfl, h⟩

theorem bind {m : Option α} {f : α → Option β} (hm : Defined m P) (hf : ∀ a, P a → Defined (f a) Q) :
    Defined (m >>= f) Q := by
  obtain ⟨a, rfl, ha⟩ := hm
  exact hf a ha

theorem map {m : Option α} {f : α → β} (hm : Defined m P) (hf : ∀ a, P a → Q (f a)) : Defined (m.map f) Q := by
  obtain ⟨a, rfl, ha⟩ := hm
  exact ⟨f a, rfl, hf a ha⟩

theorem mono {m : Option α} {P' : α → Prop} (hm : Defined m P) (h : ∀ a, P a → P' a) : Defined m P' := by
  obtain ⟨a, rfl, ha⟩ := hm
  exact ⟨a, rfl, h a ha⟩

theorem ite {c : Prop} [Decidable c] {m m' : Option α} (h : c → Defined m P) (h' : ¬ c → Defined m' P) :
    Defined (if c then m else m') P := by
  by_cases hc : c
  · rw [if_pos hc]
    exact h hc
  · rw [if_neg hc]
    exact h' hc

theorem of_eq {m : Option α} {a : α} (h : m = some a) (ha : P a) : Defined m P := ⟨a, h, ha⟩

theorem isSome {m : Option α} (h : Defined m P) : m.isSome = true := by
  obtain ⟨a, rfl, -⟩ := h
  rfl

theorem of_some {m : Option α} {a : α} (h : Defined m P) (ha : m = some a) : P a := by
  obtain ⟨b, rfl, hb⟩ := h
  obtain rfl := Option.some.inj ha
  exact hb

/-- What every step of a fold ensures again. -/
theorem foldlM {step : α → β → Option α} {l : List β} (hstep : ∀ a, P a → ∀ b ∈ l, Defined (step a b) P)
    {a : α} (ha : P a) : Defined (l.foldlM step a) P := by
  induction l generalizing a with
  | nil => exact pure ha
  | cons b l ih =>
    rw [List.foldlM_cons]
    refine bind (hstep a ha b List.mem_cons_self) fun a' ha' => ?_
    exact ih (fun a ha b hb => hstep a ha b (List.mem_cons_of_mem _ hb)) ha'

end Defined

/-! ## Loops -/

namespace Loop

variable {σ : Type}

/-- `while (test) body`, where the test changes the state as well; without fuel the loop is not
followed any further, which counts as a fault. -/
def whileDo (test : σ → Bool × σ) (body : σ → Option σ) : Nat → σ → Option σ
  | 0, _ => none
  | fuel + 1, s =>
    match test s with
    | (false, s) => some s
    | (true, s) => (body s).bind (whileDo test body fuel)

variable {test : σ → Bool × σ} {body : σ → Option σ}

theorem whileDo_exit {s s' : σ} (h : test s = (false, s')) (fuel : Nat) :
    whileDo test body (fuel + 1) s = some s' := by
  unfold whileDo
  rw [h]

theorem whileDo_pass {s s' s'' : σ} (h : test s = (true, s')) (hbody : body s' = some s'') (fuel : Nat) :
    whileDo test body (fuel + 1) s = whileDo test body fuel s'' := by
  conv => lhs; unfold whileDo
  rw [h]
  show (body s').bind _ = _
  rw [hbody]
  rfl

section
variable {p : σ → Prop} [DecidablePred p]

/-- A loop with a plain test that does not hold. -/
theorem whileDo_of_not {s : σ} (h : ¬ p s) {fuel : Nat} (hfuel : 0 < fuel) :
    whileDo (fun s => (decide (p s), s)) body fuel s = some s := by
  obtain ⟨n, rfl⟩ := Nat.exists_eq_succ_of_ne_zero (Nat.ne_of_gt hfuel)
  exact whileDo_exit (by rw [decide_eq_false h]) n

/-- A loop with a plain test whose first pass is its last. -/
theorem whileDo_once_eq {s s' : σ} (h : p s) (hbody : body s = some s')
    (hnot : ¬ p s') {fuel : Nat} (hfuel : 1 < fuel) :
    whileDo (fun s => (decide (p s), s)) body fuel s = some s' := by
  obtain ⟨n, rfl⟩ := Nat.exists_eq_succ_of_ne_zero (Nat.ne_of_gt (Nat.zero_lt_of_lt hfuel))
  refine (whileDo_pass (by rw [decide_eq_true h]) hbody n).trans ?_
  exact whileDo_of_not hnot (by omega)

theorem whileDo_once {Q : σ → Prop} {s : σ} (h : p s) (hbody : Defined (body s) fun s' => ¬ p s' ∧ Q s') {fuel : Nat}
    (hfuel : 1 < fuel) : Defined (whileDo (fun s => (decide (p s), s)) body fuel s) Q := by
  obtain ⟨s', hs', hnot, hQ⟩ := hbody
  exact .of_eq (whileDo_once_eq h hs' hnot hfuel) hQ

end

/-- A potential above what is left of the fuel never occurs: each pass lowers it. -/
theorem whileDo_defined {I Q : σ → Prop} (potential : σ → Nat)
    (hpass : ∀ s s', I s → test s = (true, s') → Defined (body s') fun s'' => I s'' ∧ potential s'' < potential s)
    (hexit : ∀ s s', I s → test s = (false, s') → Q s') :
    ∀ (fuel : Nat) {s : σ}, I s → potential s < fuel → Defined (whileDo test body fuel s) Q
  | 0, _, _, hfuel => absurd hfuel (Nat.not_lt_zero _)
  | fuel + 1, s, hI, hfuel => by
    cases ht : test s with
    | mk again s' =>
      cases again with
      | false => exact .of_eq (whileDo_exit ht fuel) (hexit s s' hI ht)
      | true =>
        obtain ⟨s'', hbody, hI'', hlt⟩ := hpass s s' hI ht
        rw [whileDo_pass ht hbody]
        exact whileDo_defined potential hpass hexit fuel hI'' (by omega)

end Loop

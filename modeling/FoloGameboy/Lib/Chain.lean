/-
Arithmetic digit by digit: a step reads two digits and a carry that is part of a state, and the chain
of such steps, the lowest digit first, computes the sum or the difference of the numbers.
-/
import Mathlib.Data.Nat.Digits.Lemmas

namespace Chain

variable {α β σ : Type}

/-- A step for each element, the state passed on. -/
def chain (step : σ → α → β × σ) : σ → List α → List β × σ
  | s, [] => ([], s)
  | s, a :: as =>
    let head := step s a
    let tail := chain step head.2 as
    (head.1 :: tail.1, tail.2)

variable {step : σ → α → β × σ}

theorem chain_length (s : σ) (as : List α) : (chain step s as).1.length = as.length := by
  induction as generalizing s with
  | nil => rfl
  | cons a as ih => exact congrArg (· + 1) (ih (step s a).2)

/-- What every step ensures of its result holds of every result. -/
theorem chain_forall {ok : α → Prop} {P : β → Prop} (h : ∀ s a, ok a → P (step s a).1) (s : σ)
    {as : List α} (hok : ∀ a ∈ as, ok a) :
    ∀ b ∈ (chain step s as).1, P b := by
  induction as generalizing s with
  | nil => exact fun b hb => absurd hb List.not_mem_nil
  | cons a as ih =>
    intro b hb
    rcases List.mem_cons.1 hb with rfl | hb
    · exact h s a (hok a List.mem_cons_self)
    · exact ih (step s a).2 (fun a' ha => hok a' (List.mem_cons_of_mem a ha)) b hb

/-- What every step ensures of its result and the state after it holds of the last. -/
theorem chain_last {R : β → σ → Prop} (h : ∀ s a, R (step s a).1 (step s a).2) (s : σ) (as : List α) {b : β}
    (hb : (chain step s as).1.getLast? = some b) : R b (chain step s as).2 := by
  induction as generalizing s with
  | nil => exact absurd hb nofun
  | cons a as ih =>
    cases as with
    | nil =>
      have heq : (step s a).1 = b := Option.some.inj hb
      rw [← heq]
      exact h s a
    | cons a' as =>
      refine ih (step s a).2 ?_
      rw [← hb]
      exact (List.getLast?_cons_cons).symm

section
variable {base : Nat} {ok : α → Prop} {x y : α → Nat} {digit : β → Nat} {carry : σ → Nat}

/-- The number of some digits, the lowest first. -/
def value (base : Nat) (digit : α → Nat) (as : List α) : Nat := Nat.ofDigits base (as.map digit)

theorem value_cons (base : Nat) (digit : α → Nat) (a : α) (as : List α) :
    value base digit (a :: as) = digit a + base * value base digit as := Nat.ofDigits_cons ..

theorem value_lt (hbase : 1 < base) {bs : List β} (h : ∀ b ∈ bs, digit b < base) :
    value base digit bs < base ^ bs.length := by
  have hlt := Nat.ofDigits_lt_base_pow_length hbase (l := bs.map digit) fun d hd => by
    obtain ⟨b, hb, rfl⟩ := List.mem_map.1 hd
    exact h b hb
  rwa [List.length_map] at hlt

/-- Steps that add two digits and a carry add two numbers. -/
theorem chain_add
    (h : ∀ s a, ok a → digit (step s a).1 + base * carry (step s a).2 = x a + y a + carry s) (s : σ)
    {as : List α}
    (hok : ∀ a ∈ as, ok a) :
    value base digit (chain step s as).1 + base ^ as.length * carry (chain step s as).2 =
      value base x as + value base y as + carry s := by
  induction as generalizing s with
  | nil => simp [chain, value]
  | cons a as ih =>
    have hhead := h s a (hok a List.mem_cons_self)
    have htail := ih (step s a).2 fun a' ha => hok a' (List.mem_cons_of_mem a ha)
    rw [value_cons, value_cons, List.length_cons, Nat.pow_succ']
    show value base digit ((step s a).1 :: (chain step (step s a).2 as).1) + _ *
      carry (chain step (step s a).2 as).2 = _
    rw [value_cons]
    generalize value base digit (chain step (step s a).2 as).1 = v at *
    generalize carry (chain step (step s a).2 as).2 = k at *
    calc digit (step s a).1 + base * v + base * base ^ as.length * k
        = digit (step s a).1 + base * (v + base ^ as.length * k) := by ring
      _ = digit (step s a).1 + base * (value base x as + value base y as + carry (step s a).2) := by
        rw [htail]
      _ = digit (step s a).1 + base * carry (step s a).2 + base *
        (value base x as + value base y as) := by ring
      _ = x a + base * value base x as + (y a + base * value base y as) + carry s := by
        rw [hhead]
        ring

/-- Steps that subtract a digit and a borrow subtract a number. -/
theorem chain_sub
    (h : ∀ s a, ok a → digit (step s a).1 + y a + carry s = x a + base * carry (step s a).2) (s : σ)
    {as : List α}
    (hok : ∀ a ∈ as, ok a) : value base digit (chain step s as).1 + value base y as + carry s =
      value base x as + base ^ as.length * carry (chain step s as).2 := by
  induction as generalizing s with
  | nil => simp [chain, value]
  | cons a as ih =>
    have hhead := h s a (hok a List.mem_cons_self)
    have htail := ih (step s a).2 fun a' ha => hok a' (List.mem_cons_of_mem a ha)
    rw [value_cons, value_cons, List.length_cons, Nat.pow_succ']
    show value base digit ((step s a).1 :: (chain step (step s a).2 as).1) + _ + _ =
      _ + _ * carry (chain step (step s a).2 as).2
    rw [value_cons]
    generalize value base digit (chain step (step s a).2 as).1 = v at *
    generalize carry (chain step (step s a).2 as).2 = k at *
    calc digit (step s a).1 + base * v + (y a + base * value base y as) + carry s
        = digit (step s a).1 + y a + carry s + base * (v + value base y as) := by ring
      _ = x a + base * carry (step s a).2 + base * (v + value base y as) := by rw [hhead]
      _ = x a + base * (v + value base y as + carry (step s a).2) := by ring
      _ = x a + base * value base x as + base * base ^ as.length * k := by
        rw [htail]
        ring

end

/-! ## Results modulo a power -/

theorem mod_of_add {v w k total : Nat} (hv : v < w) (h : v + w * k = total) :
    v = total % w ∧ k = total / w := by
  subst h
  rw [Nat.add_mul_mod_self_left, Nat.add_mul_div_left v k (Nat.zero_lt_of_lt hv),
    Nat.mod_eq_of_lt hv, Nat.div_eq_of_lt hv, Nat.zero_add]
  exact ⟨rfl, rfl⟩

theorem mod_of_sub {v w k a b : Nat} (hv : v < w) (h : v + b = a + w * k) :
    (v : Int) = ((a : Int) - b) % w ∧ (0 < k ↔ a < b) := by
  constructor
  · have heq : (a : Int) - b = v + w * (-k : Int) := by
      have hint : (v : Int) + b = a + w * k := by exact_mod_cast h
      rw [mul_neg]
      omega
    rw [heq, Int.add_mul_emod_self_left, Int.emod_eq_of_lt (Int.natCast_nonneg v) (Int.ofNat_lt.2 hv)]
  · constructor
    · intro hk
      have hle : w ≤ w * k := Nat.le_mul_of_pos_right w hk
      omega
    · intro hab
      by_contra hk
      rw [Nat.eq_zero_of_not_pos hk, Nat.mul_zero] at h
      omega

end Chain

/-
Two lists that differ in one place, and what maps and folds make of them.
-/
import Mathlib.Data.List.Basic
import Mathlib.Logic.Function.Basic

namespace Change

variable {α β σ : Type}

/-- The lists differ in the place `i` and nowhere else. -/
def DiffersAt : Nat → List α → List α → Prop
  | 0, a :: l, b :: m => a ≠ b ∧ l = m
  | i + 1, a :: l, b :: m => a = b ∧ DiffersAt i l m
  | _, _, _ => False

theorem differsAt_set : ∀ {i : Nat} {l : List α} (h : i < l.length) {b : α}, b ≠ l[i] →
    DiffersAt i l (l.set i b)
  | _, [], h, _, _ => absurd h (Nat.not_lt_zero _)
  | 0, _ :: _, _, _, hb => ⟨fun heq => hb heq.symm, rfl⟩
  | _ + 1, _ :: _, h, _, hb => ⟨rfl, differsAt_set (Nat.lt_of_succ_lt_succ h) hb⟩

theorem DiffersAt.lt_length : ∀ {i : Nat} {l m : List α}, DiffersAt i l m → i < l.length
  | 0, _ :: _, _ :: _, _ => Nat.succ_pos _
  | _ + 1, _ :: _, _ :: _, h => Nat.succ_lt_succ h.2.lt_length

theorem DiffersAt.length_eq : ∀ {i : Nat} {l m : List α}, DiffersAt i l m → l.length = m.length
  | 0, _ :: _, _ :: _, h => congrArg (·.length + 1) h.2
  | _ + 1, _ :: _, _ :: _, h => congrArg (· + 1) h.2.length_eq

theorem DiffersAt.getElem? : ∀ {i : Nat} {l m : List α} {j : Nat}, DiffersAt i l m → j ≠ i → l[j]? = m[j]?
  | 0, _ :: _, _ :: _, 0, _, hj => absurd rfl hj
  | 0, _ :: _, _ :: _, _ + 1, h, _ => by rw [List.getElem?_cons_succ, List.getElem?_cons_succ, h.2]
  | _ + 1, _ :: _, _ :: _, 0, h, _ => congrArg some h.1
  | _ + 1, _ :: _, _ :: _, _ + 1, h, hj => h.2.getElem? fun heq => hj (congrArg (· + 1) heq)

/-- A byte-wise operation keeps the difference. -/
theorem DiffersAt.zipWith {f : α → β → σ} (hf : ∀ b, Function.Injective (f · b)) :
    ∀ {i : Nat} {l m : List α} {bs : List β},
    DiffersAt i l m → l.length ≤ bs.length → DiffersAt i (List.zipWith f l bs) (List.zipWith f m bs)
  | _, [], _, _, h, _ => absurd h.lt_length (Nat.not_lt_zero _)
  | _, _ :: _, _, [], _, hle => absurd hle (Nat.not_succ_le_zero _)
  | 0, _ :: _, _ :: _, _ :: _, h, _ => ⟨fun heq => h.1 (hf _ heq), by rw [h.2]⟩
  | _ + 1, _ :: _, _ :: _, b :: _, h, hle =>
    ⟨congrArg (f · b) h.1, h.2.zipWith hf (Nat.le_of_succ_le_succ hle)⟩

/-- The difference is in the last place, or the last place is the same. -/
theorem DiffersAt.concat : ∀ {i : Nat} {l m : List α} {a : α}, DiffersAt i (l ++ [a]) m →
    (∃ l', m = l' ++ [a] ∧ DiffersAt i l l') ∨ ∃ b, b ≠ a ∧ m = l ++ [b]
  | 0, [], _ :: _, _, h => .inr ⟨_, fun heq => h.1 heq.symm, by rw [← h.2]; rfl⟩
  | _ + 1, [], _ :: _, _, h => absurd h.2.lt_length (Nat.not_lt_zero _)
  | 0, _ :: l, b :: _, a, h => .inl ⟨b :: l, by rw [← h.2]; rfl, h.1, rfl⟩
  | _ + 1, c :: _, _ :: _, _, h => by
    obtain ⟨rfl, h⟩ := h
    rcases h.concat with ⟨l', rfl, hd⟩ | ⟨b, hb, rfl⟩
    · exact .inl ⟨c :: l', rfl, rfl, hd⟩
    · exact .inr ⟨b, hb, rfl⟩

/-! ## Folds that lose nothing -/

variable {f : σ → α → σ}

theorem foldl_injective (hs : ∀ a, Function.Injective (f · a)) : ∀ l :
    List α, Function.Injective (fun s => l.foldl f s)
  | [] => fun _ _ h => h
  | a :: l => fun _ _ h => hs a (foldl_injective hs l h)

theorem DiffersAt.foldl_ne (hs : ∀ a, Function.Injective (f · a))
    (ha : ∀ s, Function.Injective (f s)) : ∀ {i : Nat} {l m : List α} (s : σ),
    DiffersAt i l m → l.foldl f s ≠ m.foldl f s
  | 0, _ :: l, _ :: _, s, h => by
    obtain ⟨hne, rfl⟩ := h
    exact fun heq => hne (ha s (foldl_injective hs l heq))
  | _ + 1, a :: _, _ :: _, s, h => by
    obtain ⟨rfl, h⟩ := h
    exact h.foldl_ne hs ha (f s a)

end Change

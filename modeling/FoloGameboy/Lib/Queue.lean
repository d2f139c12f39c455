/-
A queue in a ring of cells, and a queue of the changes of a value: what is pushed goes in where it
differs from the value before, and what is taken is the oldest change, or the value where none is
left.
-/
import Mathlib.Data.List.Chain
import Mathlib.Data.List.Destutter
import Mathlib.Data.List.ReduceOption
import Mathlib.Data.Nat.ModEq
import Mathlib.Logic.Function.Basic

namespace Queue

variable {α β : Type}

/-! ## Rings -/

/-- `count` cells of a ring of `n`, from `head` on. -/
def ring (cell : Nat → α) (n head count : Nat) : List α := (List.range count).map fun i => cell ((head + i) % n)

@[simp] theorem ring_length (cell : Nat → α) (n head count : Nat) :
    (ring cell n head count).length = count := by
  rw [ring, List.length_map, List.length_range]

@[simp] theorem ring_zero (cell : Nat → α) (n head : Nat) : ring cell n head 0 = [] := rfl

theorem ring_succ (cell : Nat → α) (n head count : Nat) :
    ring cell n head (count + 1) = cell (head % n) :: ring cell n ((head + 1) % n) count := by
  rw [ring, List.range_succ_eq_map, List.map_cons, List.map_map, Nat.add_zero, ring]
  refine congrArg _ (List.map_congr_left fun i _ => ?_)
  rw [Function.comp, Nat.mod_add_mod, Nat.succ_eq_add_one, Nat.add_assoc, Nat.add_comm 1 i]

/-- The cell after the last one is another cell, while the ring is not full. -/
theorem ring_push {cell cell' : Nat → α} {n head count : Nat} {a : α} (hcount : count < n)
    (htail : cell' ((head + count) % n) = a)
    (hother : ∀ i, i ≠ (head + count) % n → cell' i = cell i) :
    ring cell' n head (count + 1) = ring cell n head count ++ [a] := by
  rw [ring, List.range_succ, List.map_append, List.map_singleton, htail, ring]
  congr 1
  refine List.map_congr_left fun i hi => hother _ fun heq => ?_
  have hlt : i < count := List.mem_range.1 hi
  have hmod : i ≡ count [MOD n] := Nat.ModEq.add_left_cancel' head heq
  exact absurd (Nat.ModEq.eq_of_lt_of_lt hmod (hlt.trans hcount) hcount) (Nat.ne_of_lt hlt)

/-! ## Signals -/

/-- The changes of a value that are not taken yet, and the value. -/
structure Signal (β : Type) where
  queue : List β := []
  latest : β

namespace Signal

def take (s : Signal β) : β × Signal β :=
  match s.queue with
  | [] => (s.latest, s)
  | b :: queue => (b, ⟨queue, s.latest⟩)

def drop (s : Signal β) : Signal β := ⟨[], s.latest⟩

/-- With `b` the value that was taken last, each queued value is a change and the last is the value. -/
structure Follows (s : Signal β) (b : β) : Prop where
  chain : (b :: s.queue).IsChain (· ≠ ·)
  last : (b :: s.queue).getLast? = some s.latest

theorem Follows.take {s : Signal β} {b : β} (h : s.Follows b) : s.take.2.Follows s.take.1 := by
  obtain ⟨queue, latest⟩ := s
  cases queue with
  | nil => exact ⟨.singleton _, rfl⟩
  | cons c queue => exact ⟨h.chain.tail, h.last ▸ List.getLast?_cons_cons.symm⟩

theorem follows_drop (s : Signal β) : s.drop.Follows s.latest := ⟨.singleton _, rfl⟩

variable [DecidableEq β]

def push (s : Signal β) (b : β) : Signal β := if b = s.latest then s else ⟨s.queue ++ [b], b⟩

theorem push_same {s : Signal β} {b : β} (h : b = s.latest) : s.push b = s := if_pos h

theorem push_change {s : Signal β} {b : β} (h : b ≠ s.latest) : s.push b = ⟨s.queue ++ [b], b⟩ := if_neg h

/-- Pushes, and takes where nothing is pushed. -/
def run : List (Option β) → Signal β → List β × Signal β
  | [], s => ([], s)
  | some b :: ops, s => run ops (s.push b)
  | none :: ops, s => (s.take.1 :: (run ops s.take.2).1, (run ops s.take.2).2)

theorem Follows.push {s : Signal β} {b : β} (h : s.Follows b) (c : β) : (s.push c).Follows b := by
  rw [Signal.push]
  split
  · exact h
  rename_i hne
  refine ⟨?_, ?_⟩
  · rw [← List.cons_append, List.isChain_append]
    refine ⟨h.chain, .singleton c, fun x hx y hy => ?_⟩
    rw [h.last] at hx
    obtain rfl := Option.some.inj hx
    obtain rfl := Option.some.inj hy
    exact fun heq => hne heq.symm
  · rw [← List.cons_append, List.getLast?_concat]

end Signal

end Queue

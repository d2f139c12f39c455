/-
The painter's algorithm at one place: of several coats laid on one after the other, each with a colour
and only where it has ink, the last one that has ink there is seen. Any state that reads so after each
coat reads so after all.
-/
import Mathlib.Data.List.Basic

namespace Painter

variable {α κ σ : Type} (ink : α → Prop) [DecidablePred ink] (color : α → κ)

/-- The colour at a place after the coats of a list. -/
def paint (coats : List α) (old : κ) : κ := coats.foldl (fun c a => if ink a then color a else c) old

@[simp] theorem paint_nil (old : κ) : paint ink color [] old = old := rfl

@[simp] theorem paint_cons (a : α) (coats : List α) (old : κ) :
    paint ink color (a :: coats) old = paint ink color coats (if ink a then color a else old) := rfl

/-- A state that reads at the place as each coat says reads as they all say. -/
theorem foldl_paint {f : σ → α → σ} (read : σ → κ) {coats : List α}
    (h : ∀ a ∈ coats, ∀ s, read (f s a) = if ink a then color a else read s) (s : σ) :
    read (coats.foldl f s) = paint ink color coats (read s) := by
  induction coats generalizing s with
  | nil => rfl
  | cons a coats ih =>
    rw [List.foldl_cons, paint_cons, ih (fun b hb => h b (List.mem_cons_of_mem _ hb)),
      h a List.mem_cons_self]

/-- The same where the coats only read so in certain states, which they keep. -/
theorem foldl_paint_of {f : σ → α → σ} (read : σ → κ) {keep : σ → Prop} {coats : List α}
    (h : ∀ a ∈ coats, ∀ s, keep s → read (f s a) = (if ink a then color a else read s) ∧ keep (f s a)) {s : σ}
    (hs : keep s) : read (coats.foldl f s) = paint ink color coats (read s) ∧ keep (coats.foldl f s) := by
  induction coats generalizing s with
  | nil => exact ⟨rfl, hs⟩
  | cons a coats ih =>
    obtain ⟨hread, hkeep⟩ := h a List.mem_cons_self s hs
    rw [List.foldl_cons, paint_cons, ← hread]
    exact ih (fun b hb => h b (List.mem_cons_of_mem _ hb)) hkeep

/-- The coat that is seen is the last one with ink. -/
theorem paint_eq (coats : List α) (old : κ) :
    paint ink color coats old = ((coats.reverse.find? fun a => decide (ink a)).map color).getD old := by
  induction coats generalizing old with
  | nil => rfl
  | cons a coats ih =>
    rw [paint_cons, ih, List.reverse_cons, List.find?_append]
    cases hlast : coats.reverse.find? fun a => decide (ink a) with
    | some b => rfl
    | none =>
      rw [Option.none_or, List.find?_singleton]
      by_cases ha : ink a
      · simp [ha]
      · simp [ha]

/-- Coats of one colour. -/
theorem paint_const (c : κ) (coats : List α) (old : κ) :
    paint ink (fun _ => c) coats old = if ∃ a ∈ coats, ink a then c else old := by
  induction coats generalizing old with
  | nil => simp
  | cons a coats ih =>
    rw [paint_cons, ih]
    by_cases ha : ink a <;> by_cases hcoats : ∃ b ∈ coats, ink b <;> simp [ha, hcoats]

/-- Where some coat has ink, what was there before is not seen. -/
theorem paint_covered {coats : List α} (h : ∃ a ∈ coats, ink a) (old old' : κ) :
    paint ink color coats old = paint ink color coats old' := by
  induction coats generalizing old old' with
  | nil =>
    obtain ⟨a, ha, -⟩ := h
    cases ha
  | cons a coats ih =>
    rw [paint_cons, paint_cons]
    by_cases ha : ink a
    · rw [if_pos ha, if_pos ha]
    · refine ih ?_ _ _
      obtain ⟨b, hb, hink⟩ := h
      rcases List.mem_cons.mp hb with rfl | hb
      · exact (ha hink).elim
      · exact ⟨b, hb, hink⟩

end Painter

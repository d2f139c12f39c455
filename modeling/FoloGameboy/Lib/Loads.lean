/-
Loads from a list that fault outside it: `none` is a load that reads past the end. A window names what
stands between two places of the list, so that a loop over the places can be read as one over the window.
-/
import Mathlib.Data.List.TakeDrop

namespace LoadAt

variable {α : Type} {data : List α}

/-- The `n` elements from `pos` on. -/
def bytesAt (data : List α) (pos n : Nat) : Option (List α) :=
  if pos + n ≤ data.length then some ((data.drop pos).take n) else none

/-- Compare with the elements from `pos` on, up to the first that differs. -/
def matchAt [DecidableEq α] (data : List α) : Nat → List α → Option Bool
  | _, [] => some true
  | pos, a :: l =>
    match data[pos]? with
    | none => none
    | some b => if b = a then matchAt data (pos + 1) l else some false

/-- Go through `count` places at a distance of `width`. -/
def foldAt {σ : Type} (body : Nat → σ → Option σ) (width : Nat) : (count pos : Nat) → σ → Option σ
  | 0, _, s => some s
  | count + 1, pos, s => (body pos s).bind (foldAt body width count (pos + width))

/-- `count` pieces of `width` elements. -/
def chunks (width : Nat) : (count : Nat) → List α → List (List α)
  | 0, _ => []
  | count + 1, l => l.take width :: chunks width count (l.drop width)

/-- What stands in the list from `pos` on. -/
structure Window (data : List α) (pos : Nat) (value : List α) : Prop where
  fits : pos + value.length ≤ data.length
  value : (data.drop pos).take value.length = value

namespace Window

variable {pos : Nat} {value : List α}

theorem all (data : List α) : Window data 0 data := ⟨by simp, by simp⟩

theorem sub (h : Window data pos value) {i n : Nat} (hle : i + n ≤ value.length) :
    Window data (pos + i) ((value.drop i).take n) := by
  have hfits := h.fits
  have hlen : ((value.drop i).take n).length = n := by
    rw [List.length_take, List.length_drop]
    omega
  refine ⟨by omega, ?_⟩
  have htake : min n (value.length - i) = n := by omega
  conv => rhs; rw [← h.value]
  rw [hlen, List.drop_take, List.take_take, List.drop_drop, htake]

theorem drop (h : Window data pos value) {i : Nat} (hle : i ≤ value.length) :
    Window data (pos + i) (value.drop i) := by
  have hsub := h.sub (i := i) (n := value.length - i) (by omega)
  rwa [List.take_of_length_le (Nat.le_of_eq List.length_drop)] at hsub

theorem take (h : Window data pos value) {n : Nat} (hle : n ≤ value.length) :
    Window data pos (value.take n) := by
  have hsub := h.sub (i := 0) (n := n) (by omega)
  rwa [List.drop_zero, Nat.add_zero] at hsub

theorem getElem? (h : Window data pos value) {i : Nat} (hi : i < value.length) :
    data[pos + i]? = some value[i] := by
  have hget : value[i]? = ((data.drop pos).take value.length)[i]? := by rw [h.value]
  rw [List.getElem?_take_of_lt hi, List.getElem?_drop, List.getElem?_eq_getElem hi] at hget
  exact hget.symm

theorem bytesAt (h : Window data pos value) : bytesAt data pos value.length = some value := by
  rw [LoadAt.bytesAt, if_pos h.fits, h.value]

theorem matchAt [DecidableEq α] (h : Window data pos value) {l : List α} (hle : l.length ≤ value.length) :
    matchAt data pos l = some (decide (value.take l.length = l)) := by
  induction l generalizing pos value with
  | nil => rfl
  | cons a l ih =>
    obtain _ | ⟨b, value⟩ := value
    · exact absurd hle (Nat.not_succ_le_zero _)
    have hget := h.getElem? (i := 0) (Nat.succ_pos _)
    rw [LoadAt.matchAt, ← Nat.add_zero pos, hget]
    show (if b = a then LoadAt.matchAt data (pos + 1) l else some false) =
      some (decide (b :: value.take l.length = a :: l))
    split
    · rename_i hb
      rw [ih (h.drop (i := 1) (Nat.succ_pos _)) (Nat.le_of_succ_le_succ hle), hb]
      simp
    · rename_i hb
      rw [decide_eq_false fun heq => hb (List.cons.inj heq).1]

theorem foldAt (h : Window data pos value) {σ : Type} {body : Nat → σ → Option σ}
    {width count : Nat} {f : σ → List α → σ}
    (hlen : value.length = count * width)
    (hbody : ∀ pos piece s, Window data pos piece → piece.length = width →
      body pos s = some (f s piece))
    (s : σ) : foldAt body width count pos s = some ((chunks width count value).foldl f s) := by
  induction count generalizing pos value s with
  | zero => rfl
  | succ count ih =>
    rw [Nat.succ_mul] at hlen
    have hpiece := hbody pos _ s (h.take (n := width) (by omega)) (by rw [List.length_take]; omega)
    have hrest :=
      ih (h.drop (i := width) (by omega)) (by rw [List.length_drop]; omega) (f s (value.take width))
    rw [LoadAt.foldAt, hpiece]
    exact hrest

end Window

end LoadAt

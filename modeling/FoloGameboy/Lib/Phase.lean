/-
A phase accumulator: a counter that is raised by some amount at a time and loses `ref` each time it
stands above `ref`. How often it fires and what it keeps depend on the sum of the amounts only, so
that however the time is cut into pieces nothing is lost.
-/
import Mathlib.Algebra.Group.Nat.Defs

namespace Phase

/-- How often a counter at `total` fires. -/
def fires (ref total : Nat) : Nat := (total - 1) / ref

/-- What a counter at `total` keeps. -/
def rest (ref total : Nat) : Nat := total - ref * fires ref total

variable {ref : Nat}

theorem fires_of_le {total : Nat} (h : total ≤ ref) : fires ref total = 0 := by
  unfold fires
  rcases Nat.eq_zero_or_pos ref with rfl | hpos
  · exact Nat.div_zero _
  · exact Nat.div_eq_of_lt (by omega)

theorem rest_of_le {total : Nat} (h : total ≤ ref) : rest ref total = total := by
  unfold rest
  rw [fires_of_le h, Nat.mul_zero, Nat.sub_zero]

theorem fires_of_lt {total : Nat} (hpos : 0 < ref) (h : ref < total) :
    fires ref total = fires ref (total - ref) + 1 := by
  unfold fires
  have hsplit : total - 1 = total - ref - 1 + ref := by omega
  rw [hsplit, Nat.add_div_right _ hpos]

theorem rest_of_lt {total : Nat} (hpos : 0 < ref) (h : ref < total) :
    rest ref total = rest ref (total - ref) := by
  unfold rest
  rw [fires_of_lt hpos h, Nat.mul_add, Nat.mul_one]
  omega

theorem mul_fires_le (ref total : Nat) : ref * fires ref total ≤ total := by
  have h := Nat.mul_div_le (total - 1) ref
  unfold fires
  omega

theorem rest_add_mul (ref total : Nat) : rest ref total + ref * fires ref total = total := by
  have h := mul_fires_le ref total
  unfold rest
  omega

theorem rest_le (hpos : 0 < ref) (total : Nat) : rest ref total ≤ ref := by
  have hdiv := Nat.div_add_mod (total - 1) ref
  have hmod := Nat.mod_lt (total - 1) hpos
  unfold rest fires
  omega

theorem rest_pos {total : Nat} (hpos : 0 < ref) (h : 0 < total) : 0 < rest ref total := by
  have hdiv := Nat.div_add_mod (total - 1) ref
  have hmod := Nat.mod_lt (total - 1) hpos
  unfold rest fires
  omega

/-- Firing late makes no difference. -/
theorem fires_rest_add (hpos : 0 < ref) (total amount : Nat) :
    fires ref total + fires ref (rest ref total + amount) = fires ref (total + amount) := by
  rcases Nat.eq_zero_or_pos total with rfl | h
  · rw [fires_of_le (Nat.zero_le _), rest_of_le (Nat.zero_le _), Nat.zero_add]
  have hsum := rest_add_mul ref total
  have hrest := rest_pos hpos h
  have hsplit : total + amount - 1 = rest ref total + amount - 1 + ref * fires ref total := by omega
  conv => rhs; unfold fires
  rw [hsplit, Nat.add_mul_div_left _ _ hpos]
  exact Nat.add_comm _ _

theorem rest_rest_add (hpos : 0 < ref) (total amount : Nat) :
    rest ref (rest ref total + amount) = rest ref (total + amount) := by
  have hfires := congrArg (ref * ·) (fires_rest_add hpos total amount)
  have hsum := rest_add_mul ref total
  have h₁ := rest_add_mul ref (rest ref total + amount)
  have h₂ := rest_add_mul ref (total + amount)
  rw [Nat.mul_add] at hfires
  omega

end Phase

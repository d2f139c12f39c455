/-
Byte buffers of a known size. A store outside the buffer is dropped and a load outside it gives
zero, so a buffer never changes size and a bad index never reaches another buffer.
-/
import Mathlib.Data.List.GetD
import Mathlib.Logic.Function.Basic

/-- A buffer of `size` bytes. -/
structure Buffer where
  size : Nat
  data : Nat → UInt8

namespace Buffer

def get (b : Buffer) (i : Nat) : UInt8 := if i < b.size then b.data i else 0

def set (b : Buffer) (i : Nat) (v : UInt8) : Buffer :=
  if i < b.size then { b with data := fun j => if j = i then v else b.data j } else b

/-- A store that faults outside the buffer. -/
def put (b : Buffer) (i : Nat) (v : UInt8) : Option Buffer := if i < b.size then some (b.set i v) else none

/-- A load that faults outside the buffer. -/
def load (b : Buffer) (i : Nat) : Option UInt8 := if i < b.size then some (b.data i) else none

/-- `n` bytes of value `v`. -/
def fill (n : Nat) (v : UInt8) : Buffer := ⟨n, fun _ => v⟩

/-- Overwrite the `n` bytes from `off` on. -/
def blit (b : Buffer) (off n : Nat) (f : Nat → UInt8) : Buffer :=
  { b with data := fun j => if off ≤ j ∧ j < off + n then f (j - off) else b.data j }

/-- A copy that faults where it passes the end of the buffer. -/
def copy (b : Buffer) (off n : Nat) (f : Nat → UInt8) : Option Buffer :=
  if off + n ≤ b.size then some (b.blit off n f) else none

@[simp] theorem size_blit (b : Buffer) (off n : Nat) (f : Nat → UInt8) :
    (b.blit off n f).size = b.size := rfl

@[simp] theorem size_set (b : Buffer) (i : Nat) (v : UInt8) : (b.set i v).size = b.size := by
  unfold set; split <;> rfl

@[simp] theorem size_fill (n : Nat) (v : UInt8) : (fill n v).size = n := rfl

theorem get_set_self {b : Buffer} {i : Nat} (h : i < b.size) (v : UInt8) : (b.set i v).get i = v := by
  simp [get, set, h]

theorem get_set_ne (b : Buffer) {i j : Nat} (h : j ≠ i) (v : UInt8) : (b.set i v).get j = b.get j := by
  unfold get set; split <;> simp_all

/-! ## Accesses inside the buffer -/

theorem load_eq {b : Buffer} {i : Nat} (h : i < b.size) : b.load i = some (b.get i) := by
  unfold load get
  rw [if_pos h, if_pos h]

theorem put_eq {b : Buffer} {i : Nat} (h : i < b.size) (v : UInt8) : b.put i v = some (b.set i v) :=
  if_pos h

theorem copy_eq {b : Buffer} {off n : Nat} (h : off + n ≤ b.size) (f : Nat → UInt8) :
    b.copy off n f = some (b.blit off n f) :=
  if_pos h

/-! ## Slices -/

/-- The bytes of a buffer from `offset` on. -/
def slice (b : Buffer) (offset n : Nat) : List UInt8 := (List.range n).map fun i => b.get (offset + i)

@[simp] theorem length_slice (b : Buffer) (offset n : Nat) : (b.slice offset n).length = n := by
  simp [slice]

theorem getElem_slice (b : Buffer) (offset n : Nat) {i : Nat} (h : i < (b.slice offset n).length) :
    (b.slice offset n)[i] = b.get (offset + i) := by
  simp [slice]

theorem slice_congr {b b' : Buffer} {offset n : Nat}
    (h : ∀ i < n, b'.get (offset + i) = b.get (offset + i)) :
    b'.slice offset n = b.slice offset n :=
  List.map_congr_left fun i hi => h i (List.mem_range.mp hi)

theorem slice_zero {b : Buffer} (h : ∀ i, b.get i = 0) (offset n : Nat) :
    b.slice offset n = List.replicate n 0 := by
  refine List.ext_getElem (by simp) ?_
  intro i h₁ h₂
  rw [getElem_slice, List.getElem_replicate]
  exact h (offset + i)

theorem slice_append (b : Buffer) (offset n m : Nat) :
    b.slice offset (n + m) = b.slice offset n ++ b.slice (offset + n) m := by
  unfold slice
  rw [List.range_add, List.map_append, List.map_map]
  refine congrArg _ (List.map_congr_left fun i _ => ?_)
  show b.get (offset + (n + i)) = b.get (offset + n + i)
  rw [Nat.add_assoc]

theorem get_blit {b : Buffer} {offset n : Nat} {f : Nat → UInt8} {i : Nat} (h : i < b.size) :
    (b.blit offset n f).get i = if offset ≤ i ∧ i < offset + n then f (i - offset) else b.get i := by
  unfold get
  rw [size_blit, if_pos h, if_pos h]
  rfl

/-- What is imported is there afterwards, and the bytes before it stay. -/
theorem slice_blit (b : Buffer) {offset : Nat} {src : List UInt8} (h : offset + src.length ≤ b.size) :
    (b.blit offset src.length fun i => src.getD i 0).slice 0 (offset + src.length) =
      b.slice 0 offset ++ src := by
  rw [slice_append]
  refine congr (congrArg _ (slice_congr fun i hi => ?_)) ?_
  · rw [get_blit (by omega), if_neg (by omega)]
  · refine List.ext_getElem (by simp) ?_
    intro i h₁ h₂
    rw [getElem_slice, get_blit (by omega), if_pos (by omega)]
    have hidx : 0 + offset + i - offset = i := by omega
    rw [hidx, List.getD_eq_getElem _ _ h₂]

end Buffer

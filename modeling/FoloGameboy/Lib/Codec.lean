/-
Fixed-size byte layouts. A layout stores a value in the first `size` bytes of a memory and loads a
value back from any memory; both laws are fields, so every layout built here is a bijection between
values and blocks of `size` bytes.
-/
import Mathlib.Data.List.GetD
import Mathlib.Logic.Equiv.Defs
import Mathlib.Tactic.Ring

/-- A bijection between values and blocks of `size` bytes. -/
structure Codec (α : Type) where
  size : Nat
  put : α → Nat → UInt8
  get : (Nat → UInt8) → α
  get_put : ∀ {a : α} {m : Nat → UInt8}, (∀ i < size, m i = put a i) → get m = a
  put_get : ∀ (m : Nat → UInt8) {i : Nat}, i < size → put (get m) i = m i

namespace Codec

variable {α β : Type}

/-- The bytes of a value. -/
def bytes (c : Codec α) (a : α) : List UInt8 := (List.range c.size).map (c.put a)

@[simp] theorem length_bytes (c : Codec α) (a : α) : (c.bytes a).length = c.size := by
  simp [bytes]

theorem bytes_getElem (c : Codec α) (a : α) {i : Nat} (h : i < (c.bytes a).length) :
    (c.bytes a)[i] = c.put a i := by
  simp [bytes]

theorem bytes_getD (c : Codec α) (a : α) {i : Nat} (h : i < c.size) : (c.bytes a).getD i 0 = c.put a i := by
  have hlen : i < (c.bytes a).length := by simpa using h
  rw [List.getD_eq_getElem _ _ hlen, c.bytes_getElem]

/-- Loading depends on the first `size` bytes only. -/
theorem get_congr (c : Codec α) {m m' : Nat → UInt8} (h : ∀ i < c.size, m i = m' i) : c.get m = c.get m' :=
  c.get_put fun i hi => (h i hi).trans (c.put_get m' hi).symm

@[simp] theorem get_self (c : Codec α) (a : α) : c.get (c.put a) = a := c.get_put fun _ _ => rfl

/-- A value followed by anything else loads back. -/
theorem get_bytes_append (c : Codec α) (a : α) (rest : List UInt8) :
    c.get (fun i => (c.bytes a ++ rest).getD i 0) = a := by
  refine c.get_put fun i hi => ?_
  have hlen : i < (c.bytes a).length := by simpa using hi
  rw [← c.bytes_getD a hi, List.getD_append _ _ _ _ hlen]

/-! ## Building blocks -/

def byte : Codec UInt8 where
  size := 1
  put a _ := a
  get m := m 0
  get_put h := h 0 Nat.one_pos
  put_get m i hi := by rw [Nat.lt_one_iff.mp hi]

/-- Two values, one after the other. -/
def pair (c : Codec α) (d : Codec β) : Codec (α × β) where
  size := c.size + d.size
  put a i := if i < c.size then c.put a.1 i else d.put a.2 (i - c.size)
  get m := (c.get m, d.get fun i => m (c.size + i))
  get_put {a m} h := by
    refine Prod.ext (c.get_put fun i hi => ?_) (d.get_put fun i hi => ?_)
    · rw [h i (by omega), if_pos hi]
    · rw [h (c.size + i) (by omega), if_neg (by omega), Nat.add_sub_cancel_left]
  put_get m i hi := by
    split
    · rename_i h
      exact c.put_get m h
    · rename_i h
      rw [d.put_get _ (by omega), Nat.add_sub_cancel' (Nat.le_of_not_lt h)]

/-- The layout of `α` read as a `β`. -/
def iso (c : Codec α) (e : α ≃ β) : Codec β where
  size := c.size
  put b := c.put (e.symm b)
  get m := e (c.get m)
  get_put {b m} h := by rw [c.get_put h, Equiv.apply_symm_apply]
  put_get m i hi := by rw [Equiv.symm_apply_apply]; exact c.put_get m hi

/-- `n` values, one after the other. -/
def array (n : Nat) (c : Codec α) : Codec (Vector α n) where
  size := n * c.size
  put v i := if h : i / c.size < n then c.put (v[i / c.size]) (i % c.size) else 0
  get m := Vector.ofFn fun k => c.get fun i => m (k * c.size + i)
  get_put {v m} h := by
    ext k hk
    rw [Vector.getElem_ofFn]
    refine c.get_put fun i hi => ?_
    have hdiv : (k * c.size + i) / c.size = k := by
      rw [Nat.mul_comm, Nat.mul_add_div (by omega), Nat.div_eq_of_lt hi, Nat.add_zero]
    have hmod : (k * c.size + i) % c.size = i := by
      rw [Nat.mul_comm, Nat.mul_add_mod, Nat.mod_eq_of_lt hi]
    have hlt : k * c.size + i < n * c.size := by
      have hle : (k + 1) * c.size ≤ n * c.size := Nat.mul_le_mul_right _ hk
      rw [Nat.add_mul, Nat.one_mul] at hle
      omega
    rw [h _ hlt, dif_pos (by rw [hdiv]; exact hk)]
    simp only [hdiv, hmod]
  put_get m i hi := by
    have hpos : 0 < c.size := Nat.pos_of_ne_zero fun h0 => by rw [h0, Nat.mul_zero] at hi; omega
    have hk : i / c.size < n := Nat.div_lt_of_lt_mul (by rwa [Nat.mul_comm])
    rw [dif_pos hk, Vector.getElem_ofFn, c.put_get _ (Nat.mod_lt i hpos), Nat.div_add_mod']

/-! ## Little-endian words -/

/-- The number with the little-endian digits `m 0, ..., m (n - 1)` in base 256. -/
def ofDigits (m : Nat → UInt8) : Nat → Nat
  | 0 => 0
  | n + 1 => ofDigits m n + (m n).toNat * 256 ^ n

theorem ofDigits_lt (m : Nat → UInt8) (n : Nat) : ofDigits m n < 256 ^ n := by
  induction n with
  | zero => exact Nat.one_pos
  | succ n ih =>
    have hbyte : (m n).toNat ≤ 255 := by have := (m n).toNat_lt; omega
    have hmul : (m n).toNat * 256 ^ n ≤ 255 * 256 ^ n := Nat.mul_le_mul_right _ hbyte
    unfold ofDigits
    rw [Nat.pow_succ]
    omega

theorem ofDigits_div_mod (x : Nat) {m : Nat → UInt8} (n : Nat)
    (h : ∀ i < n, m i = UInt8.ofNat (x / 256 ^ i)) :
    ofDigits m n = x % 256 ^ n := by
  induction n with
  | zero => simp [ofDigits, Nat.mod_one]
  | succ n ih =>
    have hdigit : (m n).toNat = x / 256 ^ n % 256 := by
      rw [h n (by omega), UInt8.toNat_ofNat']
    unfold ofDigits
    rw [ih fun i hi => h i (by omega), hdigit, Nat.pow_succ, Nat.mod_mul, Nat.mul_comm (256 ^ n)]

/-- The digit at place `i`. -/
theorem ofDigits_digit (m : Nat → UInt8) {n i : Nat} (h : i < n) :
    UInt8.ofNat (ofDigits m n / 256 ^ i) = m i := by
  induction n with
  | zero => omega
  | succ n ih =>
    unfold ofDigits
    by_cases hi : i = n
    · subst hi
      rw [Nat.add_mul_div_right _ _ (Nat.pow_pos (by decide)), Nat.div_eq_of_lt (ofDigits_lt m i),
        Nat.zero_add,
        UInt8.ofNat_toNat]
    · have hlt : i < n := by omega
      rw [← ih hlt]
      obtain ⟨k, rfl⟩ : ∃ k, n = i + 1 + k := ⟨n - i - 1, by omega⟩
      have hsplit : (m (i + 1 + k)).toNat * 256 ^ (i + 1 + k) = (m (i + 1 + k)).toNat * 256 ^ k *
          256 * 256 ^ i := by
        rw [Nat.pow_add, Nat.pow_succ]
        ring
      rw [hsplit, Nat.add_mul_div_right _ _ (Nat.pow_pos (by decide))]
      refine UInt8.toNat_inj.mp ?_
      rw [UInt8.toNat_ofNat', UInt8.toNat_ofNat']
      omega

/-- A little-endian 16 bit word. -/
def le16 : Codec UInt16 where
  size := 2
  put x i := UInt8.ofNat (x.toNat / 256 ^ i)
  get m := UInt16.ofNat (ofDigits m 2)
  get_put {x m} h := by
    have hx : x.toNat < 256 ^ 2 := x.toNat_lt
    rw [ofDigits_div_mod x.toNat 2 h, Nat.mod_eq_of_lt hx, UInt16.ofNat_toNat]
  put_get m i hi := by
    have hlt : ofDigits m 2 < 2 ^ 16 := ofDigits_lt m 2
    rw [UInt16.toNat_ofNat', Nat.mod_eq_of_lt hlt, ofDigits_digit m hi]

/-- A little-endian 32 bit word. -/
def le32 : Codec UInt32 where
  size := 4
  put x i := UInt8.ofNat (x.toNat / 256 ^ i)
  get m := UInt32.ofNat (ofDigits m 4)
  get_put {x m} h := by
    have hx : x.toNat < 256 ^ 4 := x.toNat_lt
    rw [ofDigits_div_mod x.toNat 4 h, Nat.mod_eq_of_lt hx, UInt32.ofNat_toNat]
  put_get m i hi := by
    have hlt : ofDigits m 4 < 2 ^ 32 := ofDigits_lt m 4
    rw [UInt32.toNat_ofNat', Nat.mod_eq_of_lt hlt, ofDigits_digit m hi]

/-- `n` bytes. -/
def raw (n : Nat) : Codec (Vector UInt8 n) := array n byte

end Codec

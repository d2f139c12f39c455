/-
Arithmetic on several bytes: ADC and SBC one byte after another, the lowest first, and the same with
DAA after each, on packed decimal digits. The flags a byte leaves are those the next one reads.
-/
import FoloGameboy.Core.Reach
import FoloGameboy.Core.StepLaws
import FoloGameboy.Lib.Chain
import Mathlib.Tactic.FinCases

namespace FoloGameboy

open Chain

variable {σ : Type} {env : Env σ}

/-! ## Bytes and flags as numbers -/

/-- The carry flag. -/
def carryOf (f : UInt8) : Nat := if hasBits f 0x10 then 1 else 0

theorem carry_bit : ∀ n < 256, ((UInt8.ofNat n >>> 4) &&& 1).toNat = carryOf (UInt8.ofNat n) := by
  decide +kernel

theorem carryOf_eq (f : UInt8) : ((f >>> 4) &&& (1 : UInt8)).toNat = carryOf f :=
  forall_byte (P := fun f => ((f >>> 4) &&& (1 : UInt8)).toNat = carryOf f) carry_bit f

theorem carryOf_le (f : UInt8) : carryOf f ≤ 1 := by
  unfold carryOf
  split <;> decide

theorem flags_carry (z n c h : Bool) :
    hasBits (flagIf z 0x80 ||| flagIf n 0x40 ||| flagIf c 0x10 ||| flagIf h 0x20) 0x10 = c := by
  cases z <;> cases n <;> cases c <;> cases h <;> rfl

theorem flags_half (z n c h : Bool) :
    hasBits (flagIf z 0x80 ||| flagIf n 0x40 ||| flagIf c 0x10 ||| flagIf h 0x20) 0x20 = h := by
  cases z <;> cases n <;> cases c <;> cases h <;> rfl

theorem flags_subtract (z n c h : Bool) :
    hasBits (flagIf z 0x80 ||| flagIf n 0x40 ||| flagIf c 0x10 ||| flagIf h 0x20) 0x40 = n := by
  cases z <;> cases n <;> cases c <;> cases h <;> rfl

theorem low_nibble (a : UInt8) : (a &&& (0xF : UInt8)).toNat = a.toNat % 16 := by
  rw [UInt8.toNat_and]
  exact Nat.and_two_pow_sub_one_eq_mod a.toNat 4

/-! ## The operations -/

/-- ADC: the sum of the bytes and the carry, with its carry and half carry. -/
theorem aluAdc_spec (a f v : UInt8) : (aluAdc a f v).1.toNat = (a.toNat + v.toNat + carryOf f) % 256 ∧
    ∃ z, (aluAdc a f v).2 = flagIf z 0x80 ||| flagIf false 0x40 |||
      flagIf (decide (256 ≤ a.toNat + v.toNat + carryOf f)) 0x10 |||
      flagIf (decide (16 ≤ a.toNat % 16 + v.toNat % 16 + carryOf f)) 0x20 := by
  have hc := carryOf_eq f
  have hcle := carryOf_le f
  have ha := a.toNat_lt
  have hv := v.toNat_lt
  have hsum : (a.toUInt16 + v.toUInt16 + ((f >>> 4) &&& (1 : UInt8)).toUInt16).toNat =
      a.toNat + v.toNat + carryOf f := by
    rw [UInt16.toNat_add, UInt16.toNat_add, UInt8.toNat_toUInt16, UInt8.toNat_toUInt16,
      UInt8.toNat_toUInt16, hc]
    omega
  have hnibble :
      ((a &&& (0xF : UInt8)) + (v &&& (0xF : UInt8)) + ((f >>> 4) &&& (1 : UInt8))).toNat =
      a.toNat % 16 + v.toNat % 16 + carryOf f := by
    rw [UInt8.toNat_add, UInt8.toNat_add, low_nibble, low_nibble, hc]
    omega
  constructor
  · show ((a.toUInt16 + v.toUInt16 + ((f >>> 4) &&& (1 : UInt8)).toUInt16).toUInt8).toNat = _
    rw [UInt16.toNat_toUInt8, hsum]
  · refine ⟨(a.toUInt16 + v.toUInt16 + ((f >>> 4) &&& (1 : UInt8)).toUInt16) &&& (0xFF : UInt16) == 0, ?_⟩
    have h1 : decide ((0xFF : UInt16) < a.toUInt16 + v.toUInt16 +
        ((f >>> 4) &&& (1 : UInt8)).toUInt16) = decide (256 ≤ a.toNat + v.toNat + carryOf f) := by
      rw [decide_eq_decide, UInt16.lt_iff_toNat_lt, hsum]
      exact Nat.lt_iff_add_one_le
    have h2 : decide ((0xF : UInt8) < (a &&& (0xF : UInt8)) + (v &&& (0xF : UInt8)) +
        ((f >>> 4) &&& (1 : UInt8))) =
        decide (16 ≤ a.toNat % 16 + v.toNat % 16 + carryOf f) := by
      rw [decide_eq_decide, UInt8.lt_iff_toNat_lt, hnibble]
      exact Nat.lt_iff_add_one_le
    have h0 : ∀ x : UInt8, x ||| flagIf false 0x40 = x := fun x => UInt8.or_zero
    rw [← h1, ← h2, h0]
    rfl

/-- SBC: the difference of the bytes and the borrow, with its borrow and half borrow. -/
theorem aluSbc_spec (a f v : UInt8) : (aluSbc a f v).1.toNat = (a.toNat + 512 - v.toNat - carryOf f) % 256 ∧
    ∃ z, (aluSbc a f v).2 = flagIf z 0x80 ||| flagIf true 0x40 |||
      flagIf (decide (a.toNat < v.toNat + carryOf f)) 0x10 |||
      flagIf (decide (a.toNat % 16 < v.toNat % 16 + carryOf f)) 0x20 := by
  have hc := carryOf_eq f
  have hcle := carryOf_le f
  have ha := a.toNat_lt
  have hv := v.toNat_lt
  have hsum : (v.toUInt16 + ((f >>> 4) &&& (1 : UInt8)).toUInt16).toNat = v.toNat + carryOf f := by
    rw [UInt16.toNat_add, UInt8.toNat_toUInt16, UInt8.toNat_toUInt16, hc]
    omega
  have hnibble : ((v &&& (0xF : UInt8)) + ((f >>> 4) &&& (1 : UInt8))).toNat =
      v.toNat % 16 + carryOf f := by
    rw [UInt8.toNat_add, low_nibble, hc]
    omega
  constructor
  · show ((a.toUInt16 - (v.toUInt16 + ((f >>> 4) &&& (1 : UInt8)).toUInt16)).toUInt8).toNat = _
    rw [UInt16.toNat_toUInt8, UInt16.toNat_sub, hsum, UInt8.toNat_toUInt16]
    omega
  · refine ⟨(a.toUInt16 - (v.toUInt16 + ((f >>> 4) &&& (1 : UInt8)).toUInt16)).toUInt8 == 0, ?_⟩
    have h1 : decide (a.toUInt16 < v.toUInt16 + ((f >>> 4) &&& (1 : UInt8)).toUInt16) =
        decide (a.toNat < v.toNat + carryOf f) := by
      rw [decide_eq_decide, UInt16.lt_iff_toNat_lt, hsum, UInt8.toNat_toUInt16]
    have h2 : decide ((a &&& (0xF : UInt8)) < (v &&& (0xF : UInt8)) + ((f >>> 4) &&& (1 : UInt8))) =
        decide (a.toNat % 16 < v.toNat % 16 + carryOf f) := by
      rw [decide_eq_decide, UInt8.lt_iff_toNat_lt, hnibble, low_nibble]
    rw [← h1, ← h2]
    rfl

/-- What DAA adds or subtracts. -/
def daaAdjust (low high : Bool) : Nat := (if low then 6 else 0) + if high then 0x60 else 0

theorem daaAdjust_eq (low high : Bool) :
    (flagIf low 0x06 ||| flagIf high 0x60).toNat = daaAdjust low high := by
  cases low <;> cases high <;> rfl

theorem daa_flags (high z : Bool) : ∀ n < 256,
    hasBits (((if high then UInt8.ofNat n ||| 0x10 else UInt8.ofNat n) &&& (0x50 : UInt8)) |||
      flagIf z 0x80) 0x10 =
        (high || hasBits (UInt8.ofNat n) 0x10) ∧
      hasBits (((if high then UInt8.ofNat n ||| 0x10 else UInt8.ofNat n) &&& (0x50 : UInt8)) |||
        flagIf z 0x80) 0x80 = z := by
  cases high <;> cases z <;> decide +kernel

theorem daa_subtract (high : Bool) :
    ∀ n < 256, hasBits (if high then UInt8.ofNat n ||| 0x10 else UInt8.ofNat n) 0x40 =
      hasBits (UInt8.ofNat n) 0x40 := by
  cases high <;> decide +kernel

/-- DAA, by which of the two digits it corrects. -/
theorem aluDaa_eq {a f : UInt8} {low high : Bool}
    (hlow : (hasBits f 0x20 || (!hasBits f 0x40 && decide ((9 : UInt8) < (a &&& (0x0F : UInt8))))) = low)
    (hhigh : (hasBits f 0x10 || (!hasBits f 0x40 && decide ((0x99 : UInt8) < a))) = high) :
    ∃ r, aluDaa a f = (r, ((if high then f ||| 0x10 else f) &&& (0x50 : UInt8)) ||| flagIf (r == 0) 0x80) ∧
      r = if hasBits f 0x40 then a - (flagIf low 0x06 ||| flagIf high 0x60)
        else a + (flagIf low 0x06 ||| flagIf high 0x60) := by
  have hsub := forall_byte (P := fun f => hasBits (if high then f ||| 0x10 else f) 0x40 =
    hasBits f 0x40) (daa_subtract high) f
  refine ⟨_, ?_, rfl⟩
  unfold aluDaa
  rw [hlow, hhigh]
  dsimp only
  rw [hsub]

/-- The flags DAA leaves. -/
theorem aluDaa_flags {a f : UInt8} {low high : Bool}
    (hlow : (hasBits f 0x20 || (!hasBits f 0x40 && decide ((9 : UInt8) < (a &&& (0x0F : UInt8))))) = low)
    (hhigh : (hasBits f 0x10 || (!hasBits f 0x40 && decide ((0x99 : UInt8) < a))) = high) :
    hasBits (aluDaa a f).2 0x10 = (high || hasBits f 0x10) ∧ hasBits (aluDaa a f).2 0x80 =
      ((aluDaa a f).1 == 0) := by
  obtain ⟨r, hr, -⟩ := aluDaa_eq hlow hhigh
  rw [hr]
  exact forall_byte
    (P := fun f => hasBits (((if high then f ||| 0x10 else f) &&& (0x50 : UInt8)) |||
    flagIf (r == 0) 0x80) 0x10 =
    (high || hasBits f 0x10) ∧
      hasBits (((if high then f ||| 0x10 else f) &&& (0x50 : UInt8)) ||| flagIf (r == 0) 0x80)
      0x80 = (r == 0))
    (daa_flags high (r == 0)) f

/-- The zero flag after DAA. -/
theorem aluDaa_zero (a f : UInt8) : hasBits (aluDaa a f).2 0x80 = ((aluDaa a f).1 == 0) :=
  (aluDaa_flags rfl rfl).2

/-- DAA after an addition. -/
theorem aluDaa_add (a f : UInt8) (hn : hasBits f 0x40 = false) :
    (aluDaa a f).1.toNat =
      (a.toNat + daaAdjust (hasBits f 0x20 || decide (9 < a.toNat % 16))
      (hasBits f 0x10 || decide (0x99 < a.toNat))) % 256 ∧
      hasBits (aluDaa a f).2 0x10 = (hasBits f 0x10 || decide (0x99 < a.toNat)) := by
  have hlow : (hasBits f 0x20 || (!hasBits f 0x40 && decide ((9 : UInt8) < (a &&& (0x0F : UInt8))))) =
      (hasBits f 0x20 || decide (9 < a.toNat % 16)) := by
    have hd : decide ((9 : UInt8) < (a &&& (0x0F : UInt8))) = decide (9 < a.toNat % 16) := by
      rw [decide_eq_decide, UInt8.lt_iff_toNat_lt, low_nibble]
      rfl
    rw [hn, hd, Bool.not_false, Bool.true_and]
  have hhigh : (hasBits f 0x10 || (!hasBits f 0x40 && decide ((0x99 : UInt8) < a))) =
      (hasBits f 0x10 || decide (0x99 < a.toNat)) := by
    have hd : decide ((0x99 : UInt8) < a) = decide (0x99 < a.toNat) := by
      rw [decide_eq_decide, UInt8.lt_iff_toNat_lt]
      rfl
    rw [hn, hd, Bool.not_false, Bool.true_and]
  obtain ⟨r, hr, hra⟩ := aluDaa_eq hlow hhigh
  constructor
  · rw [hr, hra, hn]
    exact (UInt8.toNat_add ..).trans (by rw [daaAdjust_eq])
  · rw [(aluDaa_flags hlow hhigh).1]
    cases hasBits f 0x10 <;> simp

/-- DAA after a subtraction. -/
theorem aluDaa_sub (a f : UInt8) (hn : hasBits f 0x40 = true) :
    (aluDaa a f).1.toNat = (a.toNat + 256 - daaAdjust (hasBits f 0x20) (hasBits f 0x10)) % 256 ∧
      hasBits (aluDaa a f).2 0x10 = hasBits f 0x10 := by
  have hlow : (hasBits f 0x20 ||
      (!hasBits f 0x40 && decide ((9 : UInt8) < (a &&& (0x0F : UInt8))))) = hasBits f 0x20 := by
    rw [hn, Bool.not_true, Bool.false_and, Bool.or_false]
  have hhigh : (hasBits f 0x10 || (!hasBits f 0x40 && decide ((0x99 : UInt8) < a))) = hasBits f 0x10 := by
    rw [hn, Bool.not_true, Bool.false_and, Bool.or_false]
  obtain ⟨r, hr, hra⟩ := aluDaa_eq hlow hhigh
  constructor
  · have hle : daaAdjust (hasBits f 0x20) (hasBits f 0x10) ≤ 102 := by
      cases hasBits f 0x20 <;> cases hasBits f 0x10 <;> decide
    rw [hr, hra, if_pos hn]
    show (a - _).toNat = _
    rw [UInt8.toNat_sub, daaAdjust_eq]
    omega
  · rw [(aluDaa_flags hlow hhigh).1, Bool.or_self]

/-! ## Packed decimal digits -/

/-- Both digits are decimal. -/
def PackedDecimal (b : UInt8) : Prop := b.toNat % 16 ≤ 9 ∧ b.toNat / 16 ≤ 9

def decimalOf (b : UInt8) : Nat := 10 * (b.toNat / 16) + b.toNat % 16

theorem decimalOf_lt {b : UInt8} (h : PackedDecimal b) : decimalOf b < 100 := by
  unfold PackedDecimal at h
  unfold decimalOf
  omega

/-- ADC then DAA, on one byte. -/
theorem adc_daa {a v : UInt8} (ha : PackedDecimal a) (hv : PackedDecimal v) (f : UInt8) :
    let r := aluAdc a f v
    let d := aluDaa r.1 r.2
    PackedDecimal d.1 ∧ decimalOf d.1 + 100 * carryOf d.2 = decimalOf a + decimalOf v + carryOf f := by
  intro r d
  obtain ⟨hr, z, hf⟩ := aluAdc_spec a f v
  obtain ⟨hd, hc⟩ := aluDaa_add r.1 r.2 (by rw [hf]; exact flags_subtract ..)
  have hcle := carryOf_le f
  have hhalf : hasBits r.2 0x20 = decide (16 ≤ a.toNat % 16 + v.toNat % 16 + carryOf f) := by
    rw [hf]; exact flags_half ..
  have hcarry : hasBits r.2 0x10 = decide (256 ≤ a.toNat + v.toNat + carryOf f) := by
    rw [hf]; exact flags_carry ..
  have hcd : carryOf d.2 = if hasBits d.2 0x10 then 1 else 0 := rfl
  rw [hhalf, hcarry, hr] at hd
  rw [hc, hcarry, hr] at hcd
  unfold PackedDecimal at ha hv ⊢
  unfold decimalOf
  rw [hcd]
  unfold daaAdjust at hd
  simp only [Bool.or_eq_true, decide_eq_true_eq] at hd ⊢
  generalize carryOf f = c at *
  generalize d.1.toNat = result at *
  generalize a.toNat = x at *
  generalize v.toNat = y at *
  by_cases hlow : 16 ≤ x % 16 + y % 16 + c ∨ 9 < (x + y + c) % 256 % 16 <;>
    by_cases hhigh : 256 ≤ x + y + c ∨ 0x99 < (x + y + c) % 256 <;>
    simp only [hlow, hhigh, if_true, if_false] at hd ⊢ <;> omega

/-- SBC then DAA, on one byte. -/
theorem sbc_daa {a v : UInt8} (ha : PackedDecimal a) (hv : PackedDecimal v) (f : UInt8) :
    let r := aluSbc a f v
    let d := aluDaa r.1 r.2
    PackedDecimal d.1 ∧ decimalOf d.1 + decimalOf v + carryOf f = decimalOf a + 100 * carryOf d.2 := by
  intro r d
  obtain ⟨hr, z, hf⟩ := aluSbc_spec a f v
  obtain ⟨hd, hc⟩ := aluDaa_sub r.1 r.2 (by rw [hf]; exact flags_subtract ..)
  have hcle := carryOf_le f
  have hhalf : hasBits r.2 0x20 = decide (a.toNat % 16 < v.toNat % 16 + carryOf f) := by
    rw [hf]; exact flags_half ..
  have hborrow : hasBits r.2 0x10 = decide (a.toNat < v.toNat + carryOf f) := by
    rw [hf]; exact flags_carry ..
  have hcd : carryOf d.2 = if hasBits d.2 0x10 then 1 else 0 := rfl
  rw [hhalf, hborrow, hr] at hd
  rw [hc, hborrow] at hcd
  unfold PackedDecimal at ha hv ⊢
  unfold decimalOf
  rw [hcd]
  unfold daaAdjust at hd
  simp only [decide_eq_true_eq] at hd ⊢
  generalize carryOf f = c at *
  generalize d.1.toNat = result at *
  generalize a.toNat = x at *
  generalize v.toNat = y at *
  by_cases hlow : x % 16 < y % 16 + c <;> by_cases hhigh : x < y + c <;>
    simp only [hlow, hhigh, if_true, if_false] at hd ⊢ <;> omega

/-! ## Instructions -/

/-- The operand of an arithmetic opcode. -/
def operandOf (env : Env σ) (r : Fin 8) (g : GBEmulator σ) : UInt8 := (runCpu env (getReg r) g).1

def withFlags (f : UInt8) (g : GBEmulator σ) : GBEmulator σ := { g with cpu := { g.cpu with f := f } }

def opcodeAdc (r : Fin 8) : UInt8 := UInt8.ofNat (0x88 + r)
def opcodeSbc (r : Fin 8) : UInt8 := UInt8.ofNat (0x98 + r)
def OPCODE_DAA : UInt8 := 0x27

/-- A program on one byte, from the flags the byte before left: the A and F it leaves. -/
def byteStep (env : Env σ) (program : CpuM Int) (f : UInt8) (g : GBEmulator σ) : UInt8 × UInt8 :=
  let g' := (runCpu env program (withFlags f g)).2
  (g'.cpu.a, g'.cpu.f)

/-- A program on one byte after another, which lie in A and the operand of the given states. -/
def foldBytes (env : Env σ) (program : CpuM Int) (f : UInt8) (gs : List (GBEmulator σ)) : List UInt8 × UInt8 :=
  chain (byteStep env program) f gs

theorem operandOf_withFlags (r : Fin 8) (f : UInt8) (g : GBEmulator σ) :
    operandOf env r (withFlags f g) = operandOf env r g := by
  fin_cases r <;> rfl

theorem execute_adc (r : Fin 8) (g : GBEmulator σ) : (runCpu env (execute (opcodeAdc r)) g).2.cpu =
    { g.cpu with
      a := (aluAdc g.cpu.a g.cpu.f (operandOf env r g)).1, f := (aluAdc g.cpu.a g.cpu.f (operandOf env r g)).2 } := by
  fin_cases r <;> rfl

theorem execute_sbc (r : Fin 8) (g : GBEmulator σ) : (runCpu env (execute (opcodeSbc r)) g).2.cpu =
    { g.cpu with
      a := (aluSbc g.cpu.a g.cpu.f (operandOf env r g)).1, f := (aluSbc g.cpu.a g.cpu.f (operandOf env r g)).2 } := by
  fin_cases r <;> rfl

theorem execute_daa (g : GBEmulator σ) : (runCpu env (execute OPCODE_DAA) g).2.cpu =
    { g.cpu with a := (aluDaa g.cpu.a g.cpu.f).1, f := (aluDaa g.cpu.a g.cpu.f).2 } := rfl

theorem byteStep_adc (r : Fin 8) (f : UInt8) (g : GBEmulator σ) :
    byteStep env (execute (opcodeAdc r)) f g = aluAdc g.cpu.a f (operandOf env r g) := by
  unfold byteStep
  dsimp only
  rw [execute_adc, operandOf_withFlags]
  rfl

theorem byteStep_sbc (r : Fin 8) (f : UInt8) (g : GBEmulator σ) :
    byteStep env (execute (opcodeSbc r)) f g = aluSbc g.cpu.a f (operandOf env r g) := by
  unfold byteStep
  dsimp only
  rw [execute_sbc, operandOf_withFlags]
  rfl

/-- DAA after another instruction. -/
theorem byteStep_daa (m : CpuM Int) (f : UInt8) (g : GBEmulator σ) :
    byteStep env (m >>= fun _ => execute OPCODE_DAA) f g =
      aluDaa (byteStep env m f g).1 (byteStep env m f g).2 := by
  unfold byteStep
  dsimp only
  rw [runCpu_bind, execute_daa]

/-! ## Several bytes -/

theorem adc_byte (r : Fin 8) (f : UInt8) (g : GBEmulator σ) :
    (byteStep env (execute (opcodeAdc r)) f g).1.toNat +
    256 * carryOf (byteStep env (execute (opcodeAdc r)) f g).2 =
      g.cpu.a.toNat + (operandOf env r g).toNat + carryOf f := by
  rw [byteStep_adc]
  obtain ⟨hr, z, hf⟩ := aluAdc_spec g.cpu.a f (operandOf env r g)
  have hcarry : carryOf (aluAdc g.cpu.a f (operandOf env r g)).2 =
      if 256 ≤ g.cpu.a.toNat + (operandOf env r g).toNat + carryOf f then 1 else 0 := by
    show (if hasBits _ 0x10 then 1 else 0) = _
    rw [hf, flags_carry]
    simp only [decide_eq_true_eq]
  have ha := g.cpu.a.toNat_lt
  have hv := (operandOf env r g).toNat_lt
  have hc := carryOf_le f
  rw [hr, hcarry]
  split <;> omega

theorem sbc_byte (r : Fin 8) (f : UInt8) (g : GBEmulator σ) :
    (byteStep env (execute (opcodeSbc r)) f g).1.toNat +
    (operandOf env r g).toNat + carryOf f = g.cpu.a.toNat + 256 *
      carryOf (byteStep env (execute (opcodeSbc r)) f g).2 := by
  rw [byteStep_sbc]
  obtain ⟨hr, z, hf⟩ := aluSbc_spec g.cpu.a f (operandOf env r g)
  have hborrow : carryOf (aluSbc g.cpu.a f (operandOf env r g)).2 =
      if g.cpu.a.toNat < (operandOf env r g).toNat + carryOf f then 1 else 0 := by
    show (if hasBits _ 0x10 then 1 else 0) = _
    rw [hf, flags_carry]
    simp only [decide_eq_true_eq]
  have ha := g.cpu.a.toNat_lt
  have hv := (operandOf env r g).toNat_lt
  have hc := carryOf_le f
  rw [hr, hborrow]
  split <;> omega

/-- Both bytes of a state are packed decimal. -/
def DecimalBytes (env : Env σ) (r : Fin 8) (g : GBEmulator σ) : Prop :=
  PackedDecimal g.cpu.a ∧ PackedDecimal (operandOf env r g)

/-- A result in decimal: every byte is packed decimal and the zero flag tells of the last. -/
structure DecimalResult (bytes : List UInt8) (f : UInt8) : Prop where
  packed : ∀ b ∈ bytes, PackedDecimal b
  zero : ∀ last, bytes.getLast? = some last → (hasBits f 0x80 = true ↔ last = 0)

theorem decimalResult_fold (m : CpuM Int) {ok : GBEmulator σ → Prop}
    (h : ∀ f g, ok g → PackedDecimal (byteStep env (m >>= fun _ => execute OPCODE_DAA) f g).1)
    (f : UInt8) {gs : List (GBEmulator σ)}
    (hok : ∀ g ∈ gs, ok g) :
    DecimalResult (foldBytes env (m >>= fun _ => execute OPCODE_DAA) f gs).1
      (foldBytes env (m >>= fun _ => execute OPCODE_DAA) f gs).2 where
  packed := chain_forall h f hok
  zero last hlast := by
    refine chain_last (R := fun b f => hasBits f 0x80 = true ↔ b = 0) (fun f g => ?_) f gs hlast
    rw [byteStep_daa, aluDaa_zero]
    exact beq_iff_eq

/-- Several bytes: ADC and SBC compute the sum and the difference modulo `256 ^ n` with their carry
and borrow, and with DAA after each, on packed decimal bytes, those of the decimal numbers modulo
`100 ^ n`. The bytes lie in A and in any operand `r`, and the first instruction finds any flags. -/
theorem foldBytes_arithmetic (env : Env σ) (r : Fin 8) (f : UInt8) (gs : List (GBEmulator σ)) :
    let first := value 256 (fun g : GBEmulator σ => g.cpu.a.toNat) gs
    let second := value 256 (fun g : GBEmulator σ => (operandOf env r g).toNat) gs
    let adc := foldBytes env (execute (opcodeAdc r)) f gs
    let sbc := foldBytes env (execute (opcodeSbc r)) f gs
    (value 256 UInt8.toNat adc.1 = (first + second + carryOf f) % 256 ^ gs.length ∧
      carryOf adc.2 = (first + second + carryOf f) / 256 ^ gs.length) ∧
    ((value 256 UInt8.toNat sbc.1 : Int) = ((first : Int) - (second + carryOf f : Nat)) % (256 ^ gs.length : Nat) ∧
      (hasBits sbc.2 0x10 = true ↔ first < second + carryOf f)) ∧
    ((∀ g ∈ gs, DecimalBytes env r g) →
      let first := value 100 (fun g : GBEmulator σ => decimalOf g.cpu.a) gs
      let second := value 100 (fun g : GBEmulator σ => decimalOf (operandOf env r g)) gs
      let add := foldBytes env (execute (opcodeAdc r) >>= fun _ => execute OPCODE_DAA) f gs
      let sub := foldBytes env (execute (opcodeSbc r) >>= fun _ => execute OPCODE_DAA) f gs
      (DecimalResult add.1 add.2 ∧ value 100 decimalOf add.1 = (first + second + carryOf f) % 100 ^ gs.length ∧
        carryOf add.2 = (first + second + carryOf f) / 100 ^ gs.length) ∧
      (DecimalResult sub.1 sub.2 ∧
        (value 100 decimalOf sub.1 : Int) = ((first : Int) - (second + carryOf f : Nat)) % (100 ^ gs.length : Nat) ∧
        (hasBits sub.2 0x10 = true ↔ first < second + carryOf f))) := by
  intro first second adc sbc
  have hcarry : ∀ f', 0 < carryOf f' ↔ hasBits f' 0x10 = true := fun f' => by
    unfold carryOf
    split <;> simp_all
  have hall : ∀ g ∈ gs, True := fun _ _ => trivial
  have hlen : ∀ program, (foldBytes env program f gs).1.length = gs.length :=
    fun program => chain_length f gs
  have hbytes : ∀ program, value 256 UInt8.toNat (foldBytes env program f gs).1 < 256 ^ gs.length :=
    fun program => by
    rw [← hlen program]
    exact value_lt (by decide) fun b _ => b.toNat_lt
  -- binary addition, binary subtraction, then both with DAA behind them
  refine ⟨?_, ?_, fun hd => ?_⟩
  · exact mod_of_add (hbytes _) (chain_add (fun f g _ => adc_byte r f g) f hall)
  · have hsub :=
      @chain_sub _ _ _ (byteStep env (execute (opcodeSbc r))) _ _ _ _ _ _
        (fun f g _ => sbc_byte r f g) f _ hall
    rw [Nat.add_assoc] at hsub
    obtain ⟨hv, hb⟩ := mod_of_sub (hbytes (execute (opcodeSbc r))) hsub
    exact ⟨hv, (hcarry _).symm.trans hb⟩
  · intro first second add sub
    have hadd : ∀ f g, DecimalBytes env r g →
        PackedDecimal (byteStep env (execute (opcodeAdc r) >>= fun _ => execute OPCODE_DAA) f g).1 ∧
        decimalOf (byteStep env (execute (opcodeAdc r) >>= fun _ => execute OPCODE_DAA) f g).1 +
          100 * carryOf (byteStep env (execute (opcodeAdc r) >>= fun _ => execute OPCODE_DAA) f g).2 =
          decimalOf g.cpu.a + decimalOf (operandOf env r g) + carryOf f := fun f g hg => by
      rw [byteStep_daa, byteStep_adc]
      exact adc_daa hg.1 hg.2 f
    have hsub : ∀ f g, DecimalBytes env r g →
        PackedDecimal (byteStep env (execute (opcodeSbc r) >>= fun _ => execute OPCODE_DAA) f g).1 ∧
        decimalOf (byteStep env (execute (opcodeSbc r) >>= fun _ => execute OPCODE_DAA) f g).1 +
          decimalOf (operandOf env r g) + carryOf f =
          decimalOf g.cpu.a + 100 *
            carryOf (byteStep env (execute (opcodeSbc r) >>= fun _ => execute OPCODE_DAA) f g).2 :=
            fun f g hg => by
      rw [byteStep_daa, byteStep_sbc]
      exact sbc_daa hg.1 hg.2 f
    have haddResult : DecimalResult add.1 add.2 := decimalResult_fold _ (fun f g hg => (hadd f g hg).1) f hd
    have hsubResult : DecimalResult sub.1 sub.2 := decimalResult_fold _ (fun f g hg => (hsub f g hg).1) f hd
    -- a number of n decimal bytes is below 100 ^ n, so its equation determines it
    have hlt : ∀ {bytes : List UInt8} {f' : UInt8}, DecimalResult bytes f' → bytes.length = gs.length →
        value 100 decimalOf bytes < 100 ^ gs.length := fun hr hl => by
      rw [← hl]
      exact value_lt (by decide) fun b hb => decimalOf_lt (hr.packed b hb)
    refine ⟨⟨haddResult, ?_⟩, ⟨hsubResult, ?_⟩⟩
    · exact mod_of_add (hlt haddResult (hlen _)) (chain_add (fun f g hg => (hadd f g hg).2) f hd)
    · have hchain := chain_sub (fun f g hg => (hsub f g hg).2) f hd
      rw [Nat.add_assoc] at hchain
      obtain ⟨hv, hb⟩ := mod_of_sub (hlt hsubResult (hlen _)) hchain
      exact ⟨hv, (hcarry _).symm.trans hb⟩

/-- The bytes of 1995 and 105 in A and B, the low ones first. -/
def decimalPair : List (GBEmulator Unit) := [{ cpu := { a := 0x95, b := 0x05 } }, { cpu := { a := 0x19, b := 0x01 } }]

/-- 1995 + 105 = 2100. -/
theorem foldBytes_arithmetic_decimal :
    let add := foldBytes blankEnv (execute (opcodeAdc 0) >>= fun _ => execute OPCODE_DAA) 0 decimalPair
    DecimalResult add.1 add.2 ∧ value 100 decimalOf add.1 = 2100 ∧ carryOf add.2 = 0 := by
  have hdecimal : ∀ g ∈ decimalPair, DecimalBytes blankEnv 0 g := by
    intro g hg
    rcases List.mem_pair.mp hg with rfl | rfl
    · exact ⟨by unfold PackedDecimal; decide, by unfold PackedDecimal; decide⟩
    · exact ⟨by unfold PackedDecimal; decide, by unfold PackedDecimal; decide⟩
  obtain ⟨⟨hresult, hsum, hcarry⟩, -⟩ := (foldBytes_arithmetic blankEnv 0 0 decimalPair).2.2 hdecimal
  exact ⟨hresult, hsum.trans (by decide +kernel), hcarry.trans (by decide +kernel)⟩

end FoloGameboy

/-
The arithmetic of the SM83: the flag formulas of the 8 and 16 bit operations, rotates and shifts,
and the cycle tables `opCycles_` and `cbCycles_`.
-/
import FoloGameboy.Core.State

namespace FoloGameboy

/-- A flag bit set by a condition. -/
def flagIf (c : Bool) (mask : UInt8) : UInt8 := if c then mask else 0

/-! ## 8 bit operations, as the new A (or register) and F -/

def incFlags (f v : UInt8) : UInt8 :=
  (f &&& (0x10 : UInt8)) ||| flagIf (v == 0) 0x80 ||| flagIf (v &&& 0x0F == 0) 0x20

def decFlags (f v : UInt8) : UInt8 :=
  (f &&& (0x10 : UInt8)) ||| 0x40 ||| flagIf (v == 0) 0x80 ||| flagIf (v &&& 0x0F == 0x0F) 0x20

def aluAdd (a v : UInt8) : UInt8 × UInt8 :=
  let r := a.toUInt16 + v.toUInt16
  (r.toUInt8, flagIf (r &&& 0xFF == 0) 0x80 ||| flagIf (0xFF < r) 0x10 |||
    flagIf (0xF < (a &&& (0xF : UInt8)) + (v &&& 0xF)) 0x20)

def aluAdc (a f v : UInt8) : UInt8 × UInt8 :=
  let cy := (f >>> 4) &&& 1
  let r := a.toUInt16 + v.toUInt16 + cy.toUInt16
  (r.toUInt8, flagIf (r &&& 0xFF == 0) 0x80 ||| flagIf (0xFF < r) 0x10 |||
    flagIf (0xF < (a &&& (0xF : UInt8)) + (v &&& 0xF) + cy) 0x20)

def aluSub (a v : UInt8) : UInt8 × UInt8 :=
  let r := a - v
  (r, flagIf (r == 0) 0x80 ||| 0x40 ||| flagIf (a < v) 0x10 |||
    flagIf ((a &&& (0xF : UInt8)) < (v &&& (0xF : UInt8))) 0x20)

def aluSbc (a f v : UInt8) : UInt8 × UInt8 :=
  let cy := (f >>> 4) &&& 1
  let sum := v.toUInt16 + cy.toUInt16
  let r := (a.toUInt16 - sum).toUInt8
  (r, flagIf (r == 0) 0x80 ||| 0x40 ||| flagIf (a.toUInt16 < sum) 0x10 |||
    flagIf ((a &&& (0xF : UInt8)) < (v &&& 0xF) + cy) 0x20)

def aluAnd (a v : UInt8) : UInt8 × UInt8 := (a &&& v, flagIf (a &&& v == 0) 0x80 ||| 0x20)
def aluXor (a v : UInt8) : UInt8 × UInt8 := (a ^^^ v, flagIf (a ^^^ v == 0) 0x80)
def aluOr (a v : UInt8) : UInt8 × UInt8 := (a ||| v, flagIf (a ||| v == 0) 0x80)

/-- The flags of CP, which are also those of SUB with an immediate operand. -/
def cpFlags (a v : UInt8) : UInt8 :=
  flagIf (a == v) 0x80 ||| 0x40 ||| flagIf (a < v) 0x10 |||
    flagIf ((a &&& (0xF : UInt8)) < (v &&& (0xF : UInt8))) 0x20

/-- DAA. -/
def aluDaa (a f : UInt8) : UInt8 × UInt8 :=
  let low := hasBits f 0x20 || (!hasBits f 0x40 && 9 < (a &&& 0x0F))
  let high := hasBits f 0x10 || (!hasBits f 0x40 && 0x99 < a)
  let adj : UInt8 := flagIf low 0x06 ||| flagIf high 0x60
  let f := if high then f ||| 0x10 else f
  let a := if hasBits f 0x40 then a - adj else a + adj
  (a, (f &&& (0x50 : UInt8)) ||| flagIf (a == 0) 0x80)

/-! ## 16 bit operations -/

def word (hi lo : UInt8) : UInt16 := (hi.toUInt16 <<< 8) ||| lo.toUInt16
def hiByte (w : UInt16) : UInt8 := (w >>> 8).toUInt8
def loByte (w : UInt16) : UInt8 := w.toUInt8

/-- An offset byte as a signed 16 bit displacement. -/
def signExtend (v : UInt8) : UInt16 := v.toInt8.toInt16.toUInt16

/-- ADD HL,rr. -/
def aluAddHl (hl v : UInt16) (f : UInt8) : UInt16 × UInt8 :=
  (hl + v, (f &&& (0x80 : UInt8)) ||| flagIf (0xFFFF < hl.toUInt32 + v.toUInt32) 0x10 |||
    flagIf (0xFFF < (hl &&& (0xFFF : UInt16)) + (v &&& 0xFFF)) 0x20)

/-- The flags of SP plus a signed offset. -/
def spOffsetFlags (sp : UInt16) (n : UInt8) : UInt8 :=
  flagIf (0xFF < (sp &&& (0xFF : UInt16)) + n.toUInt16) 0x10 |||
    flagIf (0xF < (sp &&& (0xF : UInt16)) + (n &&& 0xF).toUInt16) 0x20

/-! ## Rotates and shifts -/

/-- A CB-prefixed rotate or shift, by its index `(cb >> 3) & 7`, as result and F. -/
def cbShift (idx : Nat) (val f : UInt8) : UInt8 × UInt8 :=
  let c7 := val >>> 7
  let c0 := val &&& 1
  let flags (result carry : UInt8) : UInt8 × UInt8 :=
    (result, flagIf (result == 0) 0x80 ||| flagIf (carry != 0) 0x10)
  match idx with
  | 0 => flags ((val <<< 1) ||| c7) c7
  | 1 => flags ((val >>> 1) ||| (c0 <<< 7)) c0
  | 2 => flags ((val <<< 1) ||| ((f >>> 4) &&& 1)) c7
  | 3 => flags ((val >>> 1) ||| ((f &&& 0x10) <<< 3)) c0
  | 4 => flags (val <<< 1) c7
  | 5 => flags ((val >>> 1) ||| (val &&& 0x80)) c0
  | 6 => flags (((val &&& 0x0F) <<< 4) ||| ((val >>> 4) &&& 0x0F)) 0
  | _ => flags (val >>> 1) c0

/-! ## Cycle tables -/

/-- `opCycles_`; a conditional branch has its not-taken cost, illegal opcodes cost 0. -/
def opCycleTable : List Int := [
  4, 12,  8,  8,  4,  4,  8,  4, 20,  8,  8,  8,  4,  4,  8,  4,
  4, 12,  8,  8,  4,  4,  8,  4, 12,  8,  8,  8,  4,  4,  8,  4,
  8, 12,  8,  8,  4,  4,  8,  4,  8,  8,  8,  8,  4,  4,  8,  4,
  8, 12,  8,  8, 12, 12, 12,  4,  8,  8,  8,  8,  4,  4,  8,  4,
  4,  4,  4,  4,  4,  4,  8,  4,  4,  4,  4,  4,  4,  4,  8,  4,
  4,  4,  4,  4,  4,  4,  8,  4,  4,  4,  4,  4,  4,  4,  8,  4,
  4,  4,  4,  4,  4,  4,  8,  4,  4,  4,  4,  4,  4,  4,  8,  4,
  8,  8,  8,  8,  8,  8,  4,  8,  4,  4,  4,  4,  4,  4,  8,  4,
  4,  4,  4,  4,  4,  4,  8,  4,  4,  4,  4,  4,  4,  4,  8,  4,
  4,  4,  4,  4,  4,  4,  8,  4,  4,  4,  4,  4,  4,  4,  8,  4,
  4,  4,  4,  4,  4,  4,  8,  4,  4,  4,  4,  4,  4,  4,  8,  4,
  4,  4,  4,  4,  4,  4,  8,  4,  4,  4,  4,  4,  4,  4,  8,  4,
  8, 12, 12, 16, 12, 16,  8, 16,  8, 16, 12,  4, 12, 24,  8, 16,
  8, 12, 12,  0, 12, 16,  8, 16,  8, 16, 12,  0, 12,  0,  8, 16,
 12, 12,  8,  0,  0, 16,  8, 16, 16,  4, 16,  0,  0,  0,  8, 16,
 12, 12,  8,  4,  0, 16,  8, 16, 12,  8, 16,  4,  0,  0,  8, 16]

def opCycles (op : UInt8) : Int := opCycleTable.getD op.toNat 0

/-- `cbCycles_`, by row of eight: registers cost 8, (HL) 16, BIT on (HL) 12. -/
def cbCycles (cb : UInt8) : Int :=
  if cb &&& 7 = 6 then (if 0x40 ≤ cb ∧ cb < 0x80 then 12 else 16) else 8

end FoloGameboy

/-
The SM83 interpreter `cpu_step`. An instruction is a program over the bus operations, with the
processor's registers as its own state, so that what an instruction can do to the rest of the
machine is only what the bus operations do.
-/
import FoloGameboy.Lib.Effect
import FoloGameboy.Core.Alu
import FoloGameboy.Core.Write

namespace FoloGameboy

open Effect

variable {σ : Type}

/-! ## Bus operations -/

inductive BusOp where
  | read (addr : UInt16)
  | write (addr : UInt16) (val : UInt8)
  /-- `ie_ & iflag_ & 0x1F` -/
  | pending
  /-- Clear bits of `iflag_`. -/
  | acknowledge (mask : UInt8)
  /-- The speed switch a STOP performs. -/
  | stop
deriving DecidableEq

def BusOp.Res : BusOp → Type
  | .read _ => UInt8
  | .write _ _ => Unit
  | .pending => UInt8
  | .acknowledge _ => Unit
  | .stop => Unit

def pendingIrqs (i : Irq) : UInt8 := i.ie &&& i.iflag &&& 0x1F

/-- STOP switches the CPU speed when KEY1 has it armed. -/
def stopSpeed (c : Cgb) : Cgb :=
  if c.isCgb ∧ hasBits c.key1 0x01 then
    { c with doubleSpeed := !c.doubleSpeed, key1 := if c.doubleSpeed then 0x00 else 0x80 }
  else c

def busStep (env : Env σ) : (o : BusOp) → Bus σ → o.Res × Bus σ
  | .read addr, b => readByte env addr b
  | .write addr val, b => ((), writeByte env addr val b)
  | .pending, b => (pendingIrqs b.irq, b)
  | .acknowledge mask, b => ((), { b with irq := { b.irq with iflag := b.irq.iflag &&& ~~~mask } })
  | .stop, b => ((), { b with cgb := stopSpeed b.cgb })

abbrev CpuM (α : Type) : Type := StateT Cpu (Prog BusOp BusOp.Res) α

def readM (addr : UInt16) : CpuM UInt8 := StateT.lift (Prog.op (BusOp.read addr))
def writeM (addr : UInt16) (val : UInt8) : CpuM Unit := StateT.lift (Prog.op (BusOp.write addr val))
def pendingM : CpuM UInt8 := StateT.lift (Prog.op BusOp.pending)
def acknowledgeM (mask : UInt8) : CpuM Unit := StateT.lift (Prog.op (BusOp.acknowledge mask))
def stopM : CpuM Unit := StateT.lift (Prog.op BusOp.stop)

/-! ## Operands -/

def Cpu.bc (c : Cpu) : UInt16 := word c.b c.c
def Cpu.de (c : Cpu) : UInt16 := word c.d c.e
def Cpu.hl (c : Cpu) : UInt16 := word c.h c.l
def Cpu.setBc (c : Cpu) (v : UInt16) : Cpu := { c with b := hiByte v, c := loByte v }
def Cpu.setDe (c : Cpu) (v : UInt16) : Cpu := { c with d := hiByte v, e := loByte v }
def Cpu.setHl (c : Cpu) (v : UInt16) : Cpu := { c with h := hiByte v, l := loByte v }

/-- `readByte(pc_++)`. -/
def fetch : CpuM UInt8 := do
  let c ← get
  set { c with pc := c.pc + 1 }
  readM c.pc

def fetch16 : CpuM UInt16 := do
  let low ← fetch
  let high ← fetch
  return word high low

/-- The 8 bit operand of an opcode's low three bits; index 6 is the byte at HL. -/
def getReg (idx : Nat) : CpuM UInt8 := do
  let c ← get
  match idx with
  | 0 => return c.b
  | 1 => return c.c
  | 2 => return c.d
  | 3 => return c.e
  | 4 => return c.h
  | 5 => return c.l
  | 6 => readM c.hl
  | _ => return c.a

def setReg (idx : Nat) (v : UInt8) : CpuM Unit := do
  let c ← get
  match idx with
  | 0 => set { c with b := v }
  | 1 => set { c with c := v }
  | 2 => set { c with d := v }
  | 3 => set { c with e := v }
  | 4 => set { c with h := v }
  | 5 => set { c with l := v }
  | 6 => writeM c.hl v
  | _ => set { c with a := v }

def setF (f : Cpu → UInt8) : CpuM Unit := modify fun c => { c with f := f c }
def setAF (p : UInt8 × UInt8) : CpuM Unit := modify fun c => { c with a := p.1, f := p.2 }

/-- `sp_ -= 2` and a store of both bytes. -/
def push (hi lo : UInt8) : CpuM Unit := do
  let c ← get
  let sp := c.sp - 2
  set { c with sp := sp }
  writeM sp lo
  writeM (sp + 1) hi

/-- Both bytes at `sp_`, then `sp_ += 2`. -/
def pop : CpuM (UInt8 × UInt8) := do
  let c ← get
  let lo ← readM c.sp
  let hi ← readM (c.sp + 1)
  modify fun c => { c with sp := c.sp + 2 }
  return (hi, lo)

def jump (addr : UInt16) : CpuM Unit := modify fun c => { c with pc := addr }

def pushPc : CpuM Unit := do
  let c ← get
  push (hiByte c.pc) (loByte c.pc)

/-! ## Families of instructions -/

def inc8 (idx : Nat) : CpuM Int := do
  let v := (← getReg idx) + 1
  setReg idx v
  setF fun c => incFlags c.f v
  return 0

def dec8 (idx : Nat) : CpuM Int := do
  let v := (← getReg idx) - 1
  setReg idx v
  setF fun c => decFlags c.f v
  return 0

def loadImm (idx : Nat) : CpuM Int := do
  setReg idx (← fetch)
  return 0

def updateRegs (f : Cpu → Cpu) : CpuM Int := do
  modify f
  return 0

def addHl (v : Cpu → UInt16) : CpuM Int := updateRegs fun c =>
  let p := aluAddHl c.hl (v c) c.f
  { c.setHl p.1 with f := p.2 }

/-- JR, with the extra cost when taken. -/
def jr (cond : Cpu → Bool) : CpuM Int := do
  let c ← get
  if cond c then
    let v ← readM c.pc
    jump (c.pc + (signExtend v + 1))
    return 4
  else
    jump (c.pc + 1)
    return 0

def jp (cond : Cpu → Bool) : CpuM Int := do
  let ad ← fetch16
  if cond (← get) then
    jump ad
    return 4
  else return 0

def call (cond : Cpu → Bool) : CpuM Int := do
  let ad ← fetch16
  if cond (← get) then
    pushPc
    jump ad
    return 12
  else return 0

def ret : CpuM Unit := do
  let p ← pop
  jump (word p.1 p.2)

def retIf (cond : Cpu → Bool) : CpuM Int := do
  if cond (← get) then
    ret
    return 12
  else return 0

def rst (addr : UInt16) : CpuM Int := do
  pushPc
  jump addr
  return 0

def pushReg (hi lo : Cpu → UInt8) : CpuM Int := do
  let c ← get
  push (hi c) (lo c)
  return 0

def popReg (f : UInt8 → UInt8 → Cpu → Cpu) : CpuM Int := do
  let p ← pop
  modify (f p.1 p.2)
  return 0

def isZ (c : Cpu) : Bool := hasBits c.f 0x80
def isC (c : Cpu) : Bool := hasBits c.f 0x10

/-- The ALU operation of an opcode's bits 3-5, on A and an operand. -/
def alu (kind : Nat) (v : UInt8) : CpuM Int := do
  let c ← get
  match kind with
  | 0 => setAF (aluAdd c.a v)
  | 1 => setAF (aluAdc c.a c.f v)
  | 2 => setAF (aluSub c.a v)
  | 3 => setAF (aluSbc c.a c.f v)
  | 4 => setAF (aluAnd c.a v)
  | 5 => setAF (aluXor c.a v)
  | 6 => setAF (aluOr c.a v)
  | _ => setF fun c => cpFlags c.a v
  return 0

/-! ## The opcode switch -/

/-- Opcodes 0x00-0x3F. -/
def execLow (n : Nat) : CpuM Int := do
  match n with
  | 0x00 => return 0
  | 0x01 =>
    let lo ← fetch
    let hi ← fetch
    updateRegs fun c => { c with c := lo, b := hi }
  | 0x02 =>
    let c ← get
    writeM c.bc c.a
    return 0
  | 0x03 => updateRegs fun c => c.setBc (c.bc + 1)
  | 0x04 => inc8 0
  | 0x05 => dec8 0
  | 0x06 => loadImm 0
  | 0x07 => updateRegs fun c =>
    let c7 := c.a >>> 7
    { c with a := (c.a <<< 1) ||| c7, f := flagIf (c7 != 0) 0x10 }
  | 0x08 =>
    let ad ← fetch16
    let c ← get
    writeM ad (loByte c.sp)
    writeM (ad + 1) (hiByte c.sp)
    return 0
  | 0x09 => addHl Cpu.bc
  | 0x0A =>
    let v ← readM (← get).bc
    updateRegs fun c => { c with a := v }
  | 0x0B => updateRegs fun c => c.setBc (c.bc - 1)
  | 0x0C => inc8 1
  | 0x0D => dec8 1
  | 0x0E => loadImm 1
  | 0x0F => updateRegs fun c =>
    let c0 := c.a &&& 1
    { c with a := (c.a >>> 1) ||| (c0 <<< 7), f := flagIf (c0 != 0) 0x10 }
  | 0x10 =>
    -- STOP is a 2 byte NOP, or the CGB speed switch when it is armed
    modify fun c => { c with pc := c.pc + 1 }
    stopM
    return 0
  | 0x11 =>
    let lo ← fetch
    let hi ← fetch
    updateRegs fun c => { c with e := lo, d := hi }
  | 0x12 =>
    let c ← get
    writeM c.de c.a
    return 0
  | 0x13 => updateRegs fun c => c.setDe (c.de + 1)
  | 0x14 => inc8 2
  | 0x15 => dec8 2
  | 0x16 => loadImm 2
  | 0x17 => updateRegs fun c =>
    let c7 := c.a >>> 7
    { c with a := (c.a <<< 1) ||| ((c.f >>> 4) &&& 1), f := flagIf (c7 != 0) 0x10 }
  | 0x18 =>
    let _ ← jr fun _ => true
    return 0
  | 0x19 => addHl Cpu.de
  | 0x1A =>
    let v ← readM (← get).de
    updateRegs fun c => { c with a := v }
  | 0x1B => updateRegs fun c => c.setDe (c.de - 1)
  | 0x1C => inc8 3
  | 0x1D => dec8 3
  | 0x1E => loadImm 3
  | 0x1F => updateRegs fun c =>
    let c0 := c.a &&& 1
    { c with a := (c.a >>> 1) ||| ((c.f &&& 0x10) <<< 3), f := flagIf (c0 != 0) 0x10 }
  | 0x20 => jr fun c => !isZ c
  | 0x21 =>
    let lo ← fetch
    let hi ← fetch
    updateRegs fun c => { c with l := lo, h := hi }
  | 0x22 =>
    let c ← get
    writeM c.hl c.a
    updateRegs fun c => { c with l := c.l + 1, h := if c.l + 1 = 0 then c.h + 1 else c.h }
  | 0x23 => updateRegs fun c => c.setHl (c.hl + 1)
  | 0x24 => inc8 4
  | 0x25 => dec8 4
  | 0x26 => loadImm 4
  | 0x27 => updateRegs fun c => { c with a := (aluDaa c.a c.f).1, f := (aluDaa c.a c.f).2 }
  | 0x28 => jr isZ
  | 0x29 => addHl Cpu.hl
  | 0x2A =>
    let v ← readM (← get).hl
    updateRegs fun c => { c with a := v, l := c.l + 1, h := if c.l + 1 = 0 then c.h + 1 else c.h }
  | 0x2B => updateRegs fun c => c.setHl (c.hl - 1)
  | 0x2C => inc8 5
  | 0x2D => dec8 5
  | 0x2E => loadImm 5
  | 0x2F => updateRegs fun c => { c with a := ~~~c.a, f := c.f ||| 0x60 }
  | 0x30 => jr fun c => !isC c
  | 0x31 =>
    let v ← fetch16
    updateRegs fun c => { c with sp := v }
  | 0x32 =>
    let c ← get
    writeM c.hl c.a
    updateRegs fun c => { c with l := c.l - 1, h := if c.l - 1 = 0xFF then c.h - 1 else c.h }
  | 0x33 => updateRegs fun c => { c with sp := c.sp + 1 }
  | 0x34 => inc8 6
  | 0x35 => dec8 6
  | 0x36 => loadImm 6
  | 0x37 => updateRegs fun c => { c with f := (c.f &&& (0x80 : UInt8)) ||| 0x10 }
  | 0x38 => jr isC
  | 0x39 => addHl Cpu.sp
  | 0x3A =>
    let v ← readM (← get).hl
    updateRegs fun c => { c with a := v, l := c.l - 1, h := if c.l - 1 = 0xFF then c.h - 1 else c.h }
  | 0x3B => updateRegs fun c => { c with sp := c.sp - 1 }
  | 0x3C => inc8 7
  | 0x3D => dec8 7
  | 0x3E => loadImm 7
  | 0x3F => updateRegs fun c => { c with f := (c.f &&& (0x80 : UInt8)) ||| flagIf (!isC c) 0x10 }
  | _ => return 0

/-- HALT (0x76): with IME off and an interrupt pending it triggers the halt bug instead. -/
def execHalt : CpuM Int := do
  if (← get).ime then updateRegs fun c => { c with halted := true }
  else if (← pendingM) ≠ 0 then updateRegs fun c => { c with haltBug := true }
  else updateRegs fun c => { c with halted := true }

/-- Opcodes 0x40-0x7F: LD r,r and HALT. -/
def execLoad (n : Nat) : CpuM Int := do
  if n = 0x76 then execHalt
  else
    let v ← getReg (n % 8)
    setReg (n / 8 % 8) v
    return 0

/-- Opcodes 0x80-0xBF: the ALU on A and a register. -/
def execAlu (n : Nat) : CpuM Int := do
  let v ← getReg (n % 8)
  alu (n / 8 % 8) v

/-- Opcodes 0xC0-0xFF but the CB prefix; what is not listed is illegal and does nothing. -/
def execHigh (n : Nat) : CpuM Int := do
  match n with
  | 0xC0 => retIf fun c => !isZ c
  | 0xC1 => popReg fun hi lo c => { c with c := lo, b := hi }
  | 0xC2 => jp fun c => !isZ c
  | 0xC3 =>
    let c ← get
    let lo ← readM c.pc
    let hi ← readM (c.pc + 1)
    jump (word hi lo)
    return 0
  | 0xC4 => call fun c => !isZ c
  | 0xC5 => pushReg Cpu.b Cpu.c
  | 0xC6 => alu 0 (← fetch)
  | 0xC7 => rst 0x00
  | 0xC8 => retIf isZ
  | 0xC9 =>
    ret
    return 0
  | 0xCA => jp isZ
  | 0xCC => call isZ
  | 0xCD =>
    let ad ← fetch16
    pushPc
    jump ad
    return 0
  | 0xCE => alu 1 (← fetch)
  | 0xCF => rst 0x08
  | 0xD0 => retIf fun c => !isC c
  | 0xD1 => popReg fun hi lo c => { c with e := lo, d := hi }
  | 0xD2 => jp fun c => !isC c
  | 0xD4 => call fun c => !isC c
  | 0xD5 => pushReg Cpu.d Cpu.e
  | 0xD6 =>
    let v ← fetch
    updateRegs fun c => { c with f := cpFlags c.a v, a := c.a - v }
  | 0xD7 => rst 0x10
  | 0xD8 => retIf isC
  | 0xD9 =>
    -- RETI enables interrupts at once
    modify fun c => { c with ime := true }
    ret
    return 0
  | 0xDA => jp isC
  | 0xDC => call isC
  | 0xDE => alu 3 (← fetch)
  | 0xDF => rst 0x18
  | 0xE0 =>
    let n ← fetch
    writeM (0xFF00 + n.toUInt16) (← get).a
    return 0
  | 0xE1 => popReg fun hi lo c => { c with l := lo, h := hi }
  | 0xE2 =>
    let c ← get
    writeM (0xFF00 + c.c.toUInt16) c.a
    return 0
  | 0xE5 => pushReg Cpu.h Cpu.l
  | 0xE6 => alu 4 (← fetch)
  | 0xE7 => rst 0x20
  | 0xE8 =>
    let n ← fetch
    updateRegs fun c => { c with f := spOffsetFlags c.sp n, sp := c.sp + signExtend n }
  | 0xE9 => updateRegs fun c => { c with pc := c.hl }
  | 0xEA =>
    let ad ← fetch16
    writeM ad (← get).a
    return 0
  | 0xEE => alu 5 (← fetch)
  | 0xEF => rst 0x28
  | 0xF0 =>
    let n ← fetch
    let v ← readM (0xFF00 + n.toUInt16)
    updateRegs fun c => { c with a := v }
  | 0xF1 => popReg fun hi lo c => { c with f := lo &&& 0xF0, a := hi }
  | 0xF2 =>
    let v ← readM (0xFF00 + (← get).c.toUInt16)
    updateRegs fun c => { c with a := v }
  | 0xF3 => updateRegs fun c => { c with ime := false }
  | 0xF5 => pushReg Cpu.a Cpu.f
  | 0xF6 => alu 6 (← fetch)
  | 0xF7 => rst 0x30
  | 0xF8 =>
    let n ← fetch
    updateRegs fun c => { c.setHl (c.sp + signExtend n) with f := spOffsetFlags c.sp n }
  | 0xF9 => updateRegs fun c => { c with sp := c.hl }
  | 0xFA =>
    let v ← readM (← fetch16)
    updateRegs fun c => { c with a := v }
  | 0xFB => updateRegs fun c => { c with eiPending := true }
  | 0xFE =>
    let v ← fetch
    updateRegs fun c => { c with f := cpFlags c.a v }
  | 0xFF => rst 0x38
  | _ => return 0

/-- The CB prefix, returning its own cycle count. -/
def execCB : CpuM Int := do
  let cb ← fetch
  let n := cb.toNat
  let idx := n % 8
  let bit : UInt8 := 1 <<< UInt8.ofNat (n / 8 % 8)
  let val ← getReg idx
  if n < 0x40 then
    let p := cbShift (n / 8 % 8) val (← get).f
    setF fun _ => p.2
    setReg idx p.1
  else if n < 0x80 then
    setF fun c => (c.f &&& (0x10 : UInt8)) ||| 0x20 ||| flagIf (val &&& bit == 0) 0x80
  else if n < 0xC0 then setReg idx (val &&& ~~~bit)
  else setReg idx (val ||| bit)
  return cbCycles cb

/-- Execute the instruction `op`, returning its cost in T-cycles. -/
def execute (op : UInt8) : CpuM Int := do
  let n := op.toNat
  if n = 0xCB then execCB
  else
    let branchExtra ←
      if n < 0x40 then execLow n
      else if n < 0x80 then execLoad n
      else if n < 0xC0 then execAlu n
      else execHigh n
    return opCycles op + branchExtra

/-! ## One step -/

/-- Push PC and jump to the vector of the highest priority pending interrupt. -/
def dispatch (pending : UInt8) : CpuM Unit := do
  modify fun c => { c with ime := false }
  pushPc
  let (mask, vector) : UInt8 × UInt16 :=
    if hasBits pending 0x01 then (0x01, 0x40)
    else if hasBits pending 0x02 then (0x02, 0x48)
    else if hasBits pending 0x04 then (0x04, 0x50)
    else if hasBits pending 0x08 then (0x08, 0x58)
    else (0x10, 0x60)
  acknowledgeM mask
  jump vector

/-- Promote a pending EI, fetch an opcode and execute it. -/
def instruction : CpuM Int := do
  modify fun c => if c.eiPending then { c with eiPending := false, ime := true } else c
  let op ← fetch
  -- the halt bug fetches the same byte again
  modify fun c => if c.haltBug then { c with pc := c.pc - 1, haltBug := false } else c
  execute op

def timerFreq (tac : UInt8) : UInt16 :=
  match (tac &&& 0x03).toNat with
  | 0 => 1024
  | 1 => 16
  | 2 => 64
  | _ => 256

/-- The cycles a halted step skips: the budget, or less up to an enabled timer overflow. -/
def haltSkip (idleBudget : Int) (t : Timer) (i : Irq) : Int :=
  let toOverflow : Int := (256 - t.tima.toNat) * (timerFreq t.tac).toNat - t.timerCounter.toNat
  let skip :=
    if hasBits t.tac 0x04 ∧ hasBits i.ie 0x04 ∧ 0 < toOverflow ∧ toOverflow < idleBudget then toOverflow
    else idleBudget
  if skip < 4 then 4 else skip

/-- Run a processor program against the emulator's bus. -/
def runCpu {α : Type} (env : Env σ) (m : CpuM α) (g : GBEmulator σ) : α × GBEmulator σ :=
  let r := (m.run g.cpu).run (busStep env) g.bus
  (r.1.1, { g with cpu := r.1.2, bus := r.2 })

/-- `cpu_step`: one interrupt dispatch, halted skip or instruction, with its T-cycles. -/
def cpuStep (env : Env σ) (idleBudget : Int) (g : GBEmulator σ) : Int × GBEmulator σ :=
  let pending := pendingIrqs g.bus.irq
  if pending ≠ 0 ∧ g.cpu.ime then
    (20, (runCpu env (dispatch pending) { g with cpu := { g.cpu with halted := false } }).2)
  else
    let g := if pending ≠ 0 then { g with cpu := { g.cpu with halted := false } } else g
    if g.cpu.halted then (haltSkip idleBudget g.bus.timer g.bus.irq, g)
    else runCpu env instruction g

end FoloGameboy

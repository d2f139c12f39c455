/-
What an instruction can do to the processor, whatever the bus answers: its cost, its effect on the
interrupt enable state, and which opcodes cost nothing.
-/
import FoloGameboy.Core.Cpu

namespace FoloGameboy

open Effect

variable {σ : Type}

/-! ## All outcomes of a processor program -/

/-- Whatever the bus answers, `m` started with registers `c` ends with `Q`. -/
def Ends {α : Type} (m : CpuM α) (c : Cpu) (Q : α → Cpu → Prop) : Prop :=
  (m.run c).Always fun r => Q r.1 r.2

section

variable {α β : Type} {c : Cpu}

@[simp] theorem ends_pure (a : α) (Q : α → Cpu → Prop) : Ends (pure a) c Q ↔ Q a c := Iff.rfl

@[simp] theorem ends_bind (m : CpuM α) (f : α → CpuM β) (Q : β → Cpu → Prop) :
    Ends (m >>= f) c Q ↔ Ends m c fun a c' => Ends (f a) c' Q :=
  Prog.always_bind _ (m.run c) fun r => (f r.1).run r.2

@[simp] theorem ends_get (Q : Cpu → Cpu → Prop) : Ends get c Q ↔ Q c c := Iff.rfl

@[simp] theorem ends_set (c' : Cpu) (Q : PUnit → Cpu → Prop) : Ends (set c') c Q ↔ Q ⟨⟩ c' := Iff.rfl

@[simp] theorem ends_modify (f : Cpu → Cpu) (Q : PUnit → Cpu → Prop) :
    Ends (modify f) c Q ↔ Q ⟨⟩ (f c) := Iff.rfl

@[simp] theorem ends_readM (addr : UInt16) (Q : UInt8 → Cpu → Prop) :
    Ends (readM addr) c Q ↔ ∀ v, Q v c := Iff.rfl

@[simp] theorem ends_writeM (addr : UInt16) (val : UInt8) (Q : Unit → Cpu → Prop) :
    Ends (writeM addr val) c Q ↔ Q () c :=
  ⟨fun h => h (), fun h _ => h⟩

@[simp] theorem ends_pendingM (Q : UInt8 → Cpu → Prop) : Ends pendingM c Q ↔ ∀ v, Q v c := Iff.rfl

@[simp] theorem ends_acknowledgeM (mask : UInt8) (Q : Unit → Cpu → Prop) :
    Ends (acknowledgeM mask) c Q ↔ Q () c :=
  ⟨fun h => h (), fun h _ => h⟩

@[simp] theorem ends_stopM (Q : Unit → Cpu → Prop) : Ends stopM c Q ↔ Q () c :=
  ⟨fun h => h (), fun h _ => h⟩

@[simp] theorem ends_fetch (Q : UInt8 → Cpu → Prop) :
    Ends fetch c Q ↔ ∀ v, Q v { c with pc := c.pc + 1 } := Iff.rfl

@[simp] theorem ends_fetch16 (Q : UInt16 → Cpu → Prop) :
    Ends fetch16 c Q ↔ ∀ lo hi, Q (word hi lo) { c with pc := c.pc + 1 + 1 } := Iff.rfl

@[simp] theorem ends_updateRegs (f : Cpu → Cpu) (Q : Int → Cpu → Prop) :
    Ends (updateRegs f) c Q ↔ Q 0 (f c) := Iff.rfl

@[simp] theorem ends_jump (addr : UInt16) (Q : Unit → Cpu → Prop) :
    Ends (jump addr) c Q ↔ Q () { c with pc := addr } := Iff.rfl

@[simp] theorem ends_push (hi lo : UInt8) (Q : Unit → Cpu → Prop) :
    Ends (push hi lo) c Q ↔ Q () { c with sp := c.sp - 2 } :=
  ⟨fun h => h () (), fun h _ _ => h⟩

@[simp] theorem ends_pop (Q : UInt8 × UInt8 → Cpu → Prop) :
    Ends pop c Q ↔ ∀ lo hi, Q (hi, lo) { c with sp := c.sp + 2 } := Iff.rfl

@[simp] theorem ends_pushPc (Q : Unit → Cpu → Prop) : Ends pushPc c Q ↔ Q () { c with sp := c.sp - 2 } :=
  ⟨fun h => h () (), fun h _ _ => h⟩

theorem Ends.mono {m : CpuM α} {Q Q' : α → Cpu → Prop} (h : Ends m c Q) (hQ : ∀ a c', Q a c' → Q' a c') :
    Ends m c Q' :=
  Prog.Always.mono (fun (r : α × Cpu) => hQ r.1 r.2) (p := m.run c) h

/-- A property of all outcomes holds of the outcome on a given bus. -/
theorem Ends.runCpu {m : CpuM α} {g : GBEmulator σ} {Q : α → Cpu → Prop} (h : Ends m g.cpu Q)
    (env : Env σ) :
    Q (runCpu env m g).1 (runCpu env m g).2.cpu :=
  Prog.Always.run (busStep env) h g.bus

end

/-! ## Calm instructions -/

/-- An instruction that leaves the interrupt enable state alone, with an extra cost of 0 or `k`. -/
structure Calm (c : Cpu) (k cost : Int) (c' : Cpu) : Prop where
  cost : cost = 0 ∨ cost = k
  ime : c'.ime = c.ime
  eiPending : c'.eiPending = c.eiPending

theorem getReg_ends (idx : Nat) (c : Cpu) : Ends (getReg idx) c fun _ c' => c' = c := by
  unfold getReg
  simp only [ends_bind, ends_get]
  split <;> simp

theorem setReg_ends (idx : Nat) (v : UInt8) (c : Cpu) :
    Ends (setReg idx v) c fun _ c' => c'.ime = c.ime ∧ c'.eiPending = c.eiPending := by
  unfold setReg
  simp only [ends_bind, ends_get]
  split <;> simp

theorem ends_getReg {α : Type} {idx : Nat} {c : Cpu} {f : UInt8 → CpuM α} {Q : α → Cpu → Prop}
    (h : ∀ v, Ends (f v) c Q) : Ends (getReg idx >>= f) c Q := by
  rw [ends_bind]
  exact (getReg_ends idx c).mono fun v c' hc => by subst hc; exact h v

theorem inc8_calm (idx : Nat) (c : Cpu) : Ends (inc8 idx) c (Calm c 0) := by
  unfold inc8
  refine ends_getReg fun v => ?_
  simp only [ends_bind]
  refine (setReg_ends idx (v + 1) c).mono fun _ c' h => ?_
  exact ⟨.inl rfl, h.1, h.2⟩

theorem dec8_calm (idx : Nat) (c : Cpu) : Ends (dec8 idx) c (Calm c 0) := by
  unfold dec8
  refine ends_getReg fun v => ?_
  simp only [ends_bind]
  refine (setReg_ends idx (v - 1) c).mono fun _ c' h => ?_
  exact ⟨.inl rfl, h.1, h.2⟩

theorem loadImm_calm (idx : Nat) (c : Cpu) : Ends (loadImm idx) c (Calm c 0) := by
  unfold loadImm
  simp only [ends_bind, ends_fetch]
  intro v
  exact (setReg_ends idx v _).mono fun _ c' h => ⟨.inl rfl, h.1, h.2⟩

theorem addHl_calm (v : Cpu → UInt16) (c : Cpu) : Ends (addHl v) c (Calm c 0) := ⟨.inl rfl, rfl, rfl⟩

theorem jr_calm (cond : Cpu → Bool) (c : Cpu) : Ends (jr cond) c (Calm c 4) := by
  unfold jr
  simp only [ends_bind, ends_get]
  split
  · simp only [ends_bind, ends_readM, ends_jump, ends_pure]
    exact fun _ => ⟨.inr rfl, rfl, rfl⟩
  · exact ⟨.inl rfl, rfl, rfl⟩

theorem jp_calm (cond : Cpu → Bool) (c : Cpu) : Ends (jp cond) c (Calm c 4) := by
  unfold jp
  simp only [ends_bind, ends_fetch16, ends_get]
  intro lo hi
  split
  · exact ⟨.inr rfl, rfl, rfl⟩
  · exact ⟨.inl rfl, rfl, rfl⟩

theorem call_calm (cond : Cpu → Bool) (c : Cpu) : Ends (call cond) c (Calm c 12) := by
  unfold call
  simp only [ends_bind, ends_fetch16, ends_get]
  intro lo hi
  split
  · simp only [ends_bind, ends_pushPc, ends_jump, ends_pure]
    exact ⟨.inr rfl, rfl, rfl⟩
  · exact ⟨.inl rfl, rfl, rfl⟩

theorem ret_ends (c : Cpu) : Ends ret c fun _ c' => c'.ime = c.ime ∧ c'.eiPending = c.eiPending := by
  simp [ret]

theorem retIf_calm (cond : Cpu → Bool) (c : Cpu) : Ends (retIf cond) c (Calm c 12) := by
  unfold retIf
  simp only [ends_bind, ends_get]
  split
  · simp only [ends_bind, ends_pure]
    exact (ret_ends c).mono fun _ _ h => ⟨.inr rfl, h.1, h.2⟩
  · exact ⟨.inl rfl, rfl, rfl⟩

theorem rst_calm (addr : UInt16) (c : Cpu) : Ends (rst addr) c (Calm c 0) := by
  simp only [rst, ends_bind, ends_pushPc, ends_jump, ends_pure]
  exact ⟨.inl rfl, rfl, rfl⟩

theorem pushReg_calm (hi lo : Cpu → UInt8) (c : Cpu) : Ends (pushReg hi lo) c (Calm c 0) := by
  simp only [pushReg, ends_bind, ends_get, ends_push, ends_pure]
  exact ⟨.inl rfl, rfl, rfl⟩

/-- A POP is calm when its register update keeps the interrupt enable state. -/
theorem popReg_calm {f : UInt8 → UInt8 → Cpu → Cpu}
    (hf : ∀ hi lo c, (f hi lo c).ime = c.ime ∧ (f hi lo c).eiPending = c.eiPending) (c : Cpu) :
    Ends (popReg f) c (Calm c 0) := by
  simp only [popReg, ends_bind, ends_pop, ends_modify, ends_pure]
  exact fun lo hi => ⟨.inl rfl, (hf hi lo _).1, (hf hi lo _).2⟩

theorem alu_calm (kind : Nat) (v : UInt8) (c : Cpu) : Ends (alu kind v) c (Calm c 0) := by
  unfold alu setAF setF
  simp only [ends_bind, ends_get]
  split <;> exact ⟨.inl rfl, rfl, rfl⟩

theorem execHalt_calm (c : Cpu) : Ends execHalt c (Calm c 0) := by
  unfold execHalt updateRegs
  simp only [ends_bind, ends_get]
  split
  · exact ⟨.inl rfl, rfl, rfl⟩
  · simp only [ends_bind, ends_pendingM]
    intro v
    split <;> exact ⟨.inl rfl, rfl, rfl⟩

theorem execLoad_calm (n : Nat) (c : Cpu) : Ends (execLoad n) c (Calm c 0) := by
  unfold execLoad
  split
  · exact execHalt_calm c
  · refine ends_getReg fun v => ?_
    simp only [ends_bind]
    exact (setReg_ends _ v c).mono fun _ c' h => ⟨.inl rfl, h.1, h.2⟩

theorem execAlu_calm (n : Nat) (c : Cpu) : Ends (execAlu n) c (Calm c 0) := by
  unfold execAlu
  exact ends_getReg fun v => alu_calm _ v c

theorem Calm.weaken {c c' : Cpu} {k cost : Int} (h : Calm c 0 cost c') : Calm c k cost c' :=
  ⟨.inl (h.cost.elim id id), h.ime, h.eiPending⟩

theorem execLow_calm (n : Nat) (c : Cpu) : Ends (execLow n) c (Calm c 4) := by
  unfold execLow
  split
  case h_25 =>
    -- JR is always taken, and its cost is in the table
    rw [ends_bind]
    exact (jr_calm _ c).mono fun _ _ h => ⟨.inl rfl, h.ime, h.eiPending⟩
  all_goals first
    | with_reducible exact jr_calm _ c
    | with_reducible exact (inc8_calm _ c).mono fun _ _ h => h.weaken
    | with_reducible exact (dec8_calm _ c).mono fun _ _ h => h.weaken
    | with_reducible exact (loadImm_calm _ c).mono fun _ _ h => h.weaken
    | with_reducible exact (addHl_calm _ c).mono fun _ _ h => h.weaken
    | simp only [ends_bind, ends_updateRegs, ends_get, ends_modify, ends_fetch, ends_fetch16, ends_readM,
        ends_writeM, ends_stopM, ends_pure]
      intros
      exact ⟨.inl rfl, rfl, rfl⟩

/-- The opcodes that set or clear the interrupt enable state themselves: RETI, DI and EI. -/
def imeOpcode (n : Nat) : Prop := n = 0xD9 ∨ n = 0xF3 ∨ n = 0xFB

/-- The extra cost a taken branch of 0xC0-0xFF adds. -/
def branchCost (n : Nat) : Int :=
  if 0xE0 ≤ n then 0 else if n % 8 = 0 ∨ n % 8 = 4 then 12 else if n % 8 = 2 then 4 else 0

theorem execHigh_calm {n : Nat} (hn : ¬ imeOpcode n) (c : Cpu) :
    Ends (execHigh n) c (Calm c (branchCost n)) := by
  unfold execHigh
  split
  case h_10 =>
    -- RET, whose cost is in the table
    rw [ends_bind]
    exact (ret_ends c).mono fun _ _ h => ⟨.inl rfl, h.1, h.2⟩
  case h_24 => exact absurd (.inl rfl) hn
  case h_43 => exact absurd (.inr (.inl rfl)) hn
  case h_50 => exact absurd (.inr (.inr rfl)) hn
  all_goals first
    | with_reducible refine (jp_calm _ c).mono fun _ _ h => ?_
      exact h
    | with_reducible refine (call_calm _ c).mono fun _ _ h => ?_
      exact h
    | with_reducible refine (retIf_calm _ c).mono fun _ _ h => ?_
      exact h
    | with_reducible exact (rst_calm _ c).mono fun _ _ h => h.weaken
    | with_reducible exact (pushReg_calm _ _ c).mono fun _ _ h => h.weaken
    | with_reducible refine (popReg_calm ?_ c).mono fun _ _ h => h.weaken
      exact fun _ _ _ => ⟨rfl, rfl⟩
    | simp only [ends_bind, ends_updateRegs, ends_get, ends_fetch, ends_fetch16, ends_readM, ends_writeM, ends_pure,
        ends_pushPc, ends_jump]
      intros
      exact ⟨.inl rfl, rfl, rfl⟩

/-- RETI sets IME at once. -/
theorem execHigh_reti (c : Cpu) :
    Ends (execHigh 0xD9) c fun cost c' => cost = 0 ∧ c'.ime = true ∧ c'.eiPending = c.eiPending := by
  show Ends (do modify fun c => { c with ime := true }; ret; return (0 : Int)) c _
  rw [ends_bind, ends_modify, ends_bind]
  exact (ret_ends _).mono fun _ _ h => ⟨rfl, h.1, h.2⟩

/-- The CB prefix has its own costs. -/
theorem execCB_calm (c : Cpu) :
    Ends execCB c fun cost c' => (cost = 8 ∨ cost = 12 ∨ cost = 16) ∧ c'.ime = c.ime ∧
      c'.eiPending = c.eiPending := by
  have hcost : ∀ cb, cbCycles cb = 8 ∨ cbCycles cb = 12 ∨ cbCycles cb = 16 := by
    intro cb
    unfold cbCycles
    split
    · split
      · exact .inr (.inl rfl)
      · exact .inr (.inr rfl)
    · exact .inl rfl
  unfold execCB
  rw [ends_bind, ends_fetch]
  intro cb
  refine ends_getReg fun v => ?_
  split
  · simp only [setF, ends_bind, ends_get, ends_modify, ends_pure]
    exact (setReg_ends _ _ _).mono fun _ _ h => ⟨hcost cb, h⟩
  split
  · exact ⟨hcost cb, rfl, rfl⟩
  split
  all_goals
    rw [ends_bind]
    exact (setReg_ends _ _ _).mono fun _ _ h => ⟨hcost cb, h⟩

/-! ## Costs -/

/-- The illegal opcodes. -/
def illegal (n : Nat) : Bool := n ∈ [0xD3, 0xDB, 0xDD, 0xE3, 0xE4, 0xEB, 0xEC, 0xED, 0xF4, 0xFC, 0xFD]

/-- The cost table: multiples of four, within 24 with a taken branch, and zero exactly for the
illegal opcodes. -/
structure TableOK (n : Nat) (base : Int) : Prop where
  nonneg : 0 ≤ base
  mod_four : base % 4 = 0
  le : base ≤ 24
  low : n < 0x40 → base + 4 ≤ 24
  high : 0xC0 ≤ n → base + branchCost n ≤ 24
  pos : illegal n = false → 4 ≤ base

theorem opCycleTable_ok : ∀ n < 256, TableOK n (opCycleTable.getD n 0) := by
  have h : ∀ n < 256, 0 ≤ opCycleTable.getD n 0 ∧ opCycleTable.getD n 0 % 4 = 0 ∧
      opCycleTable.getD n 0 ≤ 24 ∧
      (n < 0x40 → opCycleTable.getD n 0 + 4 ≤ 24) ∧ (0xC0 ≤ n → opCycleTable.getD n 0 + branchCost n ≤ 24) ∧
      (illegal n = false → 4 ≤ opCycleTable.getD n 0) := by
    decide +kernel
  intro n hn
  obtain ⟨h₁, h₂, h₃, h₄, h₅, h₆⟩ := h n hn
  exact ⟨h₁, h₂, h₃, h₄, h₅, h₆⟩

theorem opCycles_ok (op : UInt8) : TableOK op.toNat (opCycles op) := opCycleTable_ok op.toNat op.toNat_lt

/-- An illegal opcode does nothing and costs nothing. -/
theorem execute_illegal {op : UInt8} (h : illegal op.toNat = true) (c : Cpu) :
    (execute op).run c = pure (0, c) := by
  have hmem : op.toNat ∈ [0xD3, 0xDB, 0xDD, 0xE3, 0xE4, 0xEB, 0xEC, 0xED, 0xF4, 0xFC, 0xFD] := by
    simpa [illegal] using h
  simp only [List.mem_cons, List.not_mem_nil, or_false] at hmem
  have hop : opCycles op = 0 := by
    unfold opCycles
    rcases hmem with h | h | h | h | h | h | h | h | h | h | h <;> rw [h] <;> rfl
  unfold execute
  rcases hmem with h | h | h | h | h | h | h | h | h | h | h <;> rw [h, hop] <;> rfl

/-- The cost of a legal instruction. -/
structure CostOK (cost : Int) : Prop where
  mod_four : cost % 4 = 0
  pos : 4 ≤ cost
  le : cost ≤ 24

/-- A legal opcode other than RETI, DI and EI leaves the interrupt enable state alone. -/
theorem execute_calm {op : UInt8} (hop : illegal op.toNat = false) (hime : ¬ imeOpcode op.toNat) (c : Cpu) :
    Ends (execute op) c fun cost c' => CostOK cost ∧ c'.ime = c.ime ∧ c'.eiPending = c.eiPending := by
  have htab := opCycles_ok op
  have hpos := htab.pos hop
  have hle := htab.le
  have hmod := htab.mod_four
  unfold execute
  dsimp only
  split
  · exact (execCB_calm c).mono fun cost _ h => ⟨⟨by omega, by omega, by omega⟩, h.2⟩
  split
  · rw [ends_bind]
    refine (execLow_calm op.toNat c).mono fun cost _ h => ⟨?_, h.ime, h.eiPending⟩
    have := htab.low ‹_›
    have := h.cost
    exact ⟨by omega, by omega, by omega⟩
  split
  · rw [ends_bind]
    refine (execLoad_calm op.toNat c).mono fun cost _ h => ⟨?_, h.ime, h.eiPending⟩
    have := h.cost
    exact ⟨by omega, by omega, by omega⟩
  split
  · rw [ends_bind]
    refine (execAlu_calm op.toNat c).mono fun cost _ h => ⟨?_, h.ime, h.eiPending⟩
    have := h.cost
    exact ⟨by omega, by omega, by omega⟩
  · rw [ends_bind]
    refine (execHigh_calm hime c).mono fun cost _ h => ⟨?_, h.ime, h.eiPending⟩
    have := htab.high (by omega)
    have hextra : branchCost op.toNat = 0 ∨ branchCost op.toNat = 4 ∨ branchCost op.toNat = 12 := by
      unfold branchCost; split
      · exact .inl rfl
      split
      · exact .inr (.inr rfl)
      split
      · exact .inr (.inl rfl)
      · exact .inl rfl
    have := h.cost
    exact ⟨by omega, by omega, by omega⟩

/-- What RETI, DI and EI leave in IME and in the pending EI. -/
def imeAfter (n : Nat) (c : Cpu) : Bool × Bool :=
  if n = 0xD9 then (true, c.eiPending)
  else if n = 0xF3 then (false, c.eiPending)
  else if n = 0xFB then (c.ime, true)
  else (c.ime, c.eiPending)

/-- The cost of any legal opcode, and what it leaves in the interrupt enable state. -/
theorem execute_legal {op : UInt8} (hop : illegal op.toNat = false) (c : Cpu) :
    Ends (execute op) c fun cost c' => CostOK cost ∧ (c'.ime, c'.eiPending) = imeAfter op.toNat c := by
  have htab := opCycles_ok op
  have hpos := htab.pos hop
  have hle := htab.le
  have hmod := htab.mod_four
  by_cases hime : imeOpcode op.toNat
  · have hcost : CostOK (opCycles op + 0) := ⟨by omega, by omega, by omega⟩
    rcases hime with h | h | h
    · have : op = 0xD9 := UInt8.toNat_inj.mp h
      subst this
      show Ends (execHigh 0xD9 >>= fun extra => pure (opCycles 0xD9 + extra)) c _
      rw [ends_bind]
      refine (execHigh_reti c).mono fun _ c' h => ?_
      obtain ⟨rfl, h₁, h₂⟩ := h
      exact ⟨hcost, by rw [h₁, h₂]; rfl⟩
    · have : op = 0xF3 := UInt8.toNat_inj.mp h
      subst this
      exact ⟨hcost, rfl⟩
    · have : op = 0xFB := UInt8.toNat_inj.mp h
      subst this
      exact ⟨hcost, rfl⟩
  · refine (execute_calm hop hime c).mono fun _ _ h => ⟨h.1, ?_⟩
    unfold imeOpcode at hime
    simp only [imeAfter, if_neg (fun h => hime (.inl h)), if_neg (fun h => hime (.inr (.inl h))),
      if_neg (fun h => hime (.inr (.inr h))), h.2.1, h.2.2]

end FoloGameboy

/-
Guest memory is a store: every bus operation of the processor is a sequence of writes to cells, those of
the two DMA engines included, and after any run of steps a cell holds what was written to it last.
-/
import FoloGameboy.Core.Cells
import FoloGameboy.Core.Logged

namespace FoloGameboy

variable {σ : Type} {env : Env σ}

/-! ## The writes of one operation -/

/-- The first `n` bytes of an OAM DMA: each is what a read shows when its turn comes. -/
def oamDmaWrites (env : Env σ) (val : UInt8) : Nat → Bus σ → List (Cell × UInt8)
  | 0, _ => []
  | n + 1, b => oamDmaWrites env val n b ++
      [(.oam n, (readByte env ((val.toUInt16 <<< 8) ||| UInt16.ofNat n) (oamDma env val n b)).1)]

/-- The first `n` steps of a CGB general DMA; it ends where VRAM ends. -/
def hdmaWrites (env : Env σ) (src dst : Nat) : Nat → Bus σ → List (Cell × UInt8)
  | 0, _ => []
  | n + 1, b => hdmaWrites env src dst n b ++
      if dst + n < 0xA000 then
        [(vramCell (hdmaLoop env src dst n b) (dst + n - 0x8000),
          (readByte env (UInt16.ofNat (src + n)) (hdmaLoop env src dst n b)).1)]
      else []

/-- Where a general DMA reads and writes, and how much it copies; none in DMG mode or from video memory. -/
def hdmaRange (val : UInt8) (c : Cgb) : Option (Nat × Nat × Nat) :=
  let src : UInt16 := ((c.hdma1.toUInt16 <<< 8) ||| c.hdma2.toUInt16) &&& 0xFFF0
  let dst : UInt16 := ((0x8000 : UInt16) ||| (c.hdma3.toUInt16 <<< 8) ||| c.hdma4.toUInt16) &&& 0x9FF0
  if ¬ c.isCgb ∨ 0xE000 ≤ src ∨ (0x8000 ≤ src ∧ src < 0xA000) then none
  else some (src.toNat, dst.toNat, ((val &&& 0x7F).toNat + 1) * 16)

/-- The cells a bus operation writes, in order. -/
def busWrites (env : Env σ) : BusOp → Bus σ → List (Cell × UInt8)
  | .write addr val, b =>
    if addr = 0xFF46 then oamDmaWrites env val 0xA0 b
    else if addr = 0xFF55 then
      match hdmaRange val b.cgb with
      | some (src, dst, len) => hdmaWrites env src dst len b
      | none => []
    else
      match cellOf b addr with
      | some c => [(c, cellStores b.mbc.mbcType c val)]
      | none => []
  | _, _ => []

theorem readByte_mem (addr : UInt16) (b : Bus σ) : (readByte env addr b).2.mem = b.mem := by
  rw [(readByte_frame env addr b).eq]

theorem setOam_mem (m : Memory) (i : Nat) (val : UInt8) :
    { m with oam := m.oam.set i val } = m.setCell (.oam i) val := rfl

theorem oamDma_content (val : UInt8) {b : Bus σ} (h : b.MemSized) : ∀ n ≤ 0xA0,
    (oamDma env val n b).mem.content = Store.after b.mem.content (oamDmaWrites env val n b)
  | 0, _ => rfl
  | n + 1, hn => by
    have hsized := h.shape (oamDma_shape env val n b)
    have hhas : (oamDma env val n b).mem.Has (.oam n) := by
      show n < (oamDma env val n b).mem.oam.size
      rw [hsized.oam]
      omega
    -- the byte is read from the memory as the DMA has left it so far
    rw [oamDmaWrites, Store.after_append, ← oamDma_content val h n (by omega)]
    refine Eq.trans ?_ (content_setCell hhas _)
    rw [oamDma]
    dsimp only
    rw [readByte_mem, setOam_mem]

theorem hdmaLoop_content (src : Nat) {dst : Nat} (hdst : 0x8000 ≤ dst) {b : Bus σ} (h : b.MemSized) :
    ∀ n, (hdmaLoop env src dst n b).mem.content = Store.after b.mem.content (hdmaWrites env src dst n b)
  | 0 => rfl
  | n + 1 => by
    rw [hdmaWrites, Store.after_append, ← hdmaLoop_content src hdst h n, hdmaLoop]
    dsimp only
    split
    · rename_i hin
      have hsized := h.shape (hdmaLoop_shape env src dst n b)
      have haddr : (UInt16.ofNat (dst + n)).toNat = dst + n := UInt16.toNat_ofNat_of_lt' (Nat.lt_trans hin (by decide))
      have hlow : ¬ UInt16.ofNat (dst + n) < 0x8000 := fun hlt => by
        have hval : (UInt16.ofNat (dst + n)).toNat < 0x8000 := UInt16.lt_iff_toNat_lt.1 hlt
        omega
      have hhigh : UInt16.ofNat (dst + n) < 0xA000 := UInt16.lt_iff_toNat_lt.2 (by rw [haddr]; exact hin)
      have hcell : vramCell (readByte env (UInt16.ofNat (src + n)) (hdmaLoop env src dst n b)).2 =
          vramCell (hdmaLoop env src dst n b) := by
        rw [(readByte_frame env _ _).eq]
        rfl
      rw [writeMemory, if_neg hlow, if_pos hhigh, writeVram_mem, haddr, hcell, readByte_mem]
      exact content_setCell (hsized.hasVram (by unfold GB_VRAM_SIZE; omega)) _
    · rfl

theorem writeHdma5_content (val : UInt8) {b : Bus σ} (h : b.MemSized) : (writeHdma5 env val b).mem.content =
    Store.after b.mem.content (match hdmaRange val b.cgb with
      | some (src, dst, len) => hdmaWrites env src dst len b
      | none => []) := by
  unfold writeHdma5 hdmaRange
  dsimp only
  by_cases hcgb : ¬ b.cgb.isCgb = true
  · rw [if_pos hcgb, if_pos (.inl hcgb)]
    rfl
  rw [if_neg hcgb]
  split
  · rename_i hsrc
    rw [if_pos (.inr hsrc)]
    rfl
  · rename_i hsrc
    rw [if_neg (by rintro (hc | hs); exacts [hcgb hc, hsrc hs])]
    exact hdmaLoop_content _ (hdmaDst_ge _ _) h _

/-- A bus operation does to the cells what its writes do. -/
theorem busStep_content (o : BusOp) {b : Bus σ} (h : b.MemSized) :
    (busStep env o b).2.mem.content = Store.after b.mem.content (busWrites env o b) := by
  cases o with
  | read addr =>
    show (readByte env addr b).2.mem.content = _
    rw [readByte_mem]
    rfl
  | write addr val =>
    show (writeByte env addr val b).mem.content = _
    rw [busWrites]
    split
    · rename_i hoam
      rw [hoam]
      exact oamDma_content val h 0xA0 (Nat.le_refl _)
    split
    · rename_i hhdma
      rw [hhdma]
      exact writeHdma5_content val h
    rename_i hoam hhdma
    rw [writeByte_cell hoam hhdma]
    cases hc : cellOf b addr with
    | none => rfl
    | some c => exact content_setCell (h.hasCell hc) _
  | pending => rfl
  | acknowledge mask => rfl
  | stop => rfl

/-! ## The writes of a run -/

theorem content_logInv (m : Cell → UInt8) :
    LogInv env (busWrites env) fun log b => b.MemSized ∧ b.mem.content = Store.after m log where
  op o log b h := by
    refine ⟨h.1.shape (busStep_shape env o b), ?_⟩
    rw [busStep_content o h.1, h.2, Store.after_append]
  timer _ _ _ _ h := ⟨h.1.shape { Bus.SameShape.refl _ with }, h.2⟩
  ppu _ _ _ _ _ h := ⟨h.1.shape { Bus.SameShape.refl _ with }, h.2⟩
  host _ _ _ _ _ h := ⟨h.1.shape { Bus.SameShape.refl _ with }, h.2⟩

/-- Each read of a cell shows the byte written to it last, or the byte it had in the beginning. -/
def ReadsLast (env : Env σ) (m : Cell → UInt8) (log : List (Cell × UInt8)) (b : Bus σ) : Prop :=
  ∀ addr c, cellOf b addr = some c →
    (readByte env addr b).1 = cellShows b.mbc.mbcType c ((Store.lastTo c log).getD (m c))

theorem readsLast_of_content {m : Cell → UInt8} {log : List (Cell × UInt8)} {b : Bus σ}
    (h : b.mem.content = Store.after m log) : ReadsLast env m log b := by
  intro addr c hc
  rw [readByte_cell hc, h, Store.after_eq]

/-- A run of the machine with the cells written in its course. -/
abbrev GuestRun (env : Env σ) : GBEmulator σ → List (Cell × UInt8) → GBEmulator σ → Prop :=
  LoggedRun env (busWrites env)

/-- After a run from a state whose memory is in order, and at every operation of the next step, reads show the
writes of the run and, of that step, the writes before the operation. -/
theorem GuestRun.readsLast {g₀ g : GBEmulator σ} {log : List (Cell × UInt8)} (h : GuestRun env g₀ log g)
    (hsized : g₀.bus.MemSized) : ReadsLast env g₀.bus.mem.content log g.bus ∧
      ∀ pre e post, stepTrace env g = pre ++ e :: post →
        ReadsLast env g₀.bus.mem.content (log ++ pre.flatMap fun e => busWrites env e.1 e.2) e.2 := by
  have hinv : LogInv env (busWrites env) _ := content_logInv g₀.bus.mem.content
  have hafter := hinv.run ⟨hsized, rfl⟩ h
  refine ⟨readsLast_of_content hafter.2, fun pre e post he => ?_⟩
  exact readsLast_of_content (hinv.stepTrace_logged hafter he).2

end FoloGameboy

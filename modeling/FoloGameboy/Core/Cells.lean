/-
The memory of the guest as cells. The bank registers of a moment decide which cell an address is;
a read shows what the cell holds, and a write changes that cell and no other.
-/
import FoloGameboy.Core.Bounds
import FoloGameboy.Lib.Store

namespace FoloGameboy

variable {σ : Type} {env : Env σ}

/-! ## Cells -/

/-- A byte of memory, in the buffer it is in. -/
inductive Cell where
  | vram (i : Nat)
  | vram1 (i : Nat)
  | wram (i : Nat)
  | wramExtra (i : Nat)
  | sram (i : Nat)
  | oam (i : Nat)
  | hram (i : Nat)
deriving DecidableEq

/-- What a cell holds. -/
def Memory.content (m : Memory) : Cell → UInt8
  | .vram i => m.vram.get i
  | .vram1 i => Buffer.byteOf m.vram1 i
  | .wram i => m.wram.get i
  | .wramExtra i => Buffer.byteOf m.wramExtra i
  | .sram i => m.sramData.get i
  | .oam i => m.oam.get i
  | .hram i => m.hram.get i

@[simp] theorem content_oam (m : Memory) (i : Nat) : m.content (.oam i) = m.oam.get i := rfl
@[simp] theorem content_hram (m : Memory) (i : Nat) : m.content (.hram i) = m.hram.get i := rfl

def vramCell (b : Bus σ) (i : Nat) : Cell :=
  if b.mem.vram1.isSome ∧ b.cgb.isCgb ∧ b.cgb.vramBank ≠ 0 then .vram1 i else .vram i

/-- 0xC000-0xDFFF: two banks, the second of which the CGB replaces by one of six others. -/
def wramCell (b : Bus σ) (addr : Nat) : Cell :=
  if addr < 0xD000 ∨ ¬ wramBanked b then .wram (addr - 0xC000) else .wramExtra (wramExtraIndex b.cgb.wramBank addr)

/-- The external RAM, while it is enabled, is selected, and reaches that far. -/
def sramCell (b : Bus σ) (addr : UInt16) : Option Cell :=
  if ¬ b.mbc.ramEnabled then none
  -- 512 half bytes, repeated over the whole window
  else if b.mbc.mbcType = .mbc2 then some (.sram ((addr.toNat - 0xA000) &&& 0x1FF))
  -- a register of the clock is in its place
  else if rtcSelected b.mbc then none
  else if b.mbc.ramBank ≤ 3 ∧ sramIndex b.mbc.ramBank addr < b.mem.sramPersistSize then
    some (.sram (sramIndex b.mbc.ramBank addr))
  else none

/-- The cell an address is now; ROM, registers and what is switched off are none. -/
def cellOf (b : Bus σ) (addr : UInt16) : Option Cell :=
  if addr < 0x8000 then none
  else if addr < 0xA000 then some (vramCell b (addr.toNat - 0x8000))
  else if addr < 0xC000 then sramCell b addr
  else if addr < 0xE000 then some (wramCell b addr.toNat)
  -- the echo of the work RAM
  else if addr < 0xFE00 then some (wramCell b (addr.toNat - 0x2000))
  else if addr < 0xFEA0 then some (.oam (addr.toNat - 0xFE00))
  else if 0xFF80 ≤ addr ∧ addr ≠ 0xFFFF then some (.hram (addr.toNat - 0xFF80))
  else none

/-- MBC2 keeps the low half of a byte. -/
def cellStores (t : MBCType) (c : Cell) (val : UInt8) : UInt8 :=
  match c with
  | .sram _ => if t = .mbc2 then val &&& 0x0F else val
  | _ => val

/-- What a read shows of a cell; MBC2 has no upper half. -/
def cellShows (t : MBCType) (c : Cell) (val : UInt8) : UInt8 :=
  match c with
  | .sram _ => if t = .mbc2 then 0xF0 ||| (val &&& 0x0F) else val
  | _ => val

/-- Only cartridge RAM may show something else than it holds. -/
theorem cellShows_eq {c : Cell} (t : MBCType) (hc : ∀ i, c ≠ .sram i) (val : UInt8) : cellShows t c val = val := by
  cases c with
  | sram i => exact absurd rfl (hc i)
  | _ => rfl

theorem cellStores_eq {c : Cell} (t : MBCType) (hc : ∀ i, c ≠ .sram i) (val : UInt8) : cellStores t c val = val := by
  cases c with
  | sram i => exact absurd rfl (hc i)
  | _ => rfl

theorem vramCell_ne (b : Bus σ) (i j : Nat) : vramCell b i ≠ .sram j := by
  unfold vramCell
  split <;> exact Cell.noConfusion

theorem wramCell_ne (b : Bus σ) (addr j : Nat) : wramCell b addr ≠ .sram j := by
  unfold wramCell
  split <;> exact Cell.noConfusion

/-! ## Reads -/

theorem readVram_cell (b : Bus σ) (i : Nat) : b.mem.content (vramCell b i) =
    match b.mem.vram1 with
    | some bank1 => if b.cgb.isCgb ∧ b.cgb.vramBank ≠ 0 then bank1.get i else b.mem.vram.get i
    | none => b.mem.vram.get i := by
  unfold vramCell
  cases hbank1 : b.mem.vram1 with
  | none =>
    rw [if_neg (fun h => by cases h.1)]
    rfl
  | some bank1 =>
    dsimp only
    by_cases hbank : b.cgb.isCgb = true ∧ b.cgb.vramBank ≠ 0
    · rw [if_pos hbank, if_pos ⟨rfl, hbank⟩]
      show Buffer.byteOf b.mem.vram1 i = _
      rw [hbank1]
      rfl
    · rw [if_neg hbank, if_neg (fun h => hbank h.2)]
      rfl

theorem readWram_cell (addr : Nat) (b : Bus σ) : readWram addr b = b.mem.content (wramCell b addr) := by
  unfold readWram wramCell
  by_cases hlow : addr < 0xD000
  · rw [if_pos hlow, if_pos (.inl hlow)]
    rfl
  · rw [if_neg hlow]
    by_cases hbank : wramBanked b = true
    · rw [if_pos hbank, if_neg (by rintro (h | h); exacts [hlow h, h hbank])]
      rfl
    · rw [if_neg hbank, if_pos (.inr hbank)]
      rfl

theorem readExternalRam_cell {addr : UInt16} {b : Bus σ} {c : Cell} (hc : sramCell b addr = some c) :
    (readExternalRam env addr b).1 = cellShows b.mbc.mbcType c (b.mem.content c) := by
  unfold sramCell at hc
  unfold readExternalRam
  split at hc
  · cases hc
  rename_i henabled
  rw [if_neg henabled]
  split at hc
  · rename_i hmbc2
    obtain rfl := Option.some.inj hc
    rw [if_pos hmbc2]
    exact (if_pos hmbc2).symm
  rename_i hmbc2
  rw [if_neg hmbc2]
  split at hc
  · cases hc
  rename_i hrtc
  rw [if_neg hrtc]
  split at hc
  · rename_i hbank
    obtain rfl := Option.some.inj hc
    rw [if_pos hbank.1]
    dsimp only
    rw [if_neg (Nat.not_le.2 hbank.2)]
    exact (if_neg hmbc2).symm
  · cases hc

/-- A read of a cell shows what it holds. -/
theorem readByte_cell {addr : UInt16} {b : Bus σ} {c : Cell} (hc : cellOf b addr = some c) :
    (readByte env addr b).1 = cellShows b.mbc.mbcType c (b.mem.content c) := by
  unfold cellOf at hc
  -- the regions in the order of the source: ROM has no cell
  split at hc
  · cases hc
  rename_i hrom
  unfold readByte
  rw [if_neg hrom, readByteRam_eq_slow]
  unfold readByteSlow
  rw [if_neg (fun h => hrom (UInt16.lt_trans h (by decide))), if_neg hrom]
  split at hc
  · rename_i hvram
    obtain rfl := Option.some.inj hc
    rw [if_pos hvram]
    rw [cellShows_eq _ (vramCell_ne b _), readVram_cell]
    cases b.mem.vram1 with
    | none => rfl
    | some bank1 =>
      dsimp only
      split <;> rfl
  rename_i hvram
  rw [if_neg hvram]
  split at hc
  · rename_i hext
    rw [if_pos hext]
    exact readExternalRam_cell hc
  rename_i hext
  rw [if_neg hext]
  split at hc
  · rename_i hwram
    obtain rfl := Option.some.inj hc
    rw [if_pos hwram, cellShows_eq _ (wramCell_ne b _), readWram_cell]
  rename_i hwram
  rw [if_neg hwram]
  split at hc
  · rename_i hecho
    obtain rfl := Option.some.inj hc
    rw [if_pos hecho, cellShows_eq _ (wramCell_ne b _), readWram_cell]
  rename_i hecho
  rw [if_neg hecho]
  split at hc
  · rename_i hoam
    obtain rfl := Option.some.inj hc
    rw [if_pos hoam, cellShows_eq _ fun _ => Cell.noConfusion, content_oam]
  rename_i hoam
  rw [if_neg hoam]
  split at hc
  · rename_i hhram
    obtain rfl := Option.some.inj hc
    -- above OAM only HRAM has a cell
    have hio : ¬ addr < 0xFF00 := fun h => UInt16.not_lt.2 hhram.1 (UInt16.lt_trans h (by decide))
    rw [if_neg hio]
    rw [cellShows_eq _ fun _ => Cell.noConfusion, content_hram]
    exact readIo_hram hhram.1 hhram.2 b
  · cases hc

/-! ## Writes -/

theorem Buffer.get_set {b : Buffer} {i : Nat} (h : i < b.size) (val : UInt8) (j : Nat) :
    (b.set i val).get j = if j = i then val else b.get j := by
  by_cases hj : j = i
  · rw [if_pos hj, hj, Buffer.get_set_self h]
  · rw [if_neg hj, Buffer.get_set_ne b hj]

/-- The memory with another byte in one cell. -/
def Memory.setCell (m : Memory) (c : Cell) (val : UInt8) : Memory :=
  match c with
  | .vram i => { m with vram := m.vram.set i val }
  | .vram1 i => { m with vram1 := m.vram1.map fun d => d.set i val }
  | .wram i => { m with wram := m.wram.set i val }
  | .wramExtra i => { m with wramExtra := m.wramExtra.map fun d => d.set i val }
  | .sram i => storeSram m i val
  | .oam i => { m with oam := m.oam.set i val }
  | .hram i => { m with hram := m.hram.set i val }

theorem setCell_sram (m : Memory) (i : Nat) (val : UInt8) : m.setCell (.sram i) val = storeSram m i val := rfl

/-- The cell is inside its buffer. -/
def Memory.Has (m : Memory) : Cell → Prop
  | .vram i => i < m.vram.size
  | .vram1 i => ∃ d, m.vram1 = some d ∧ i < d.size
  | .wram i => i < m.wram.size
  | .wramExtra i => ∃ d, m.wramExtra = some d ∧ i < d.size
  | .sram i => i < m.sramData.size
  | .oam i => i < m.oam.size
  | .hram i => i < m.hram.size

theorem storeSram_get {m : Memory} {i : Nat} (h : i < m.sramData.size) (val : UInt8) (j : Nat) :
    (storeSram m i val).sramData.get j = if j = i then val else m.sramData.get j := by
  unfold storeSram
  split
  · exact Buffer.get_set h val j
  · -- the byte is there already, and nothing is stored
    rename_i hsame
    split
    · rename_i hj
      rw [hj]
      exact not_not.1 hsame
    · rfl

/-- A write to a cell changes what that cell holds, and nothing else. -/
theorem content_setCell {m : Memory} {c : Cell} (h : m.Has c) (val : UInt8) :
    (m.setCell c val).content = Function.update m.content c val := by
  funext c'
  rw [Function.update_apply]
  -- in its own buffer the byte moves, and no other cell has the same buffer
  cases c with
  | vram i =>
    cases c' with
    | vram j => exact (Buffer.get_set h val j).trans (by simp only [Cell.vram.injEq]; rfl)
    | _ => exact (if_neg Cell.noConfusion).symm
  | vram1 i =>
    obtain ⟨d, hd, hi⟩ := h
    cases c' with
    | vram1 j =>
      show Buffer.byteOf (m.vram1.map fun d => d.set i val) j = if _ then val else Buffer.byteOf m.vram1 j
      rw [hd]
      exact (Buffer.get_set hi val j).trans (by simp only [Cell.vram1.injEq]; rfl)
    | _ => exact (if_neg Cell.noConfusion).symm
  | wram i =>
    cases c' with
    | wram j => exact (Buffer.get_set h val j).trans (by simp only [Cell.wram.injEq]; rfl)
    | _ => exact (if_neg Cell.noConfusion).symm
  | wramExtra i =>
    obtain ⟨d, hd, hi⟩ := h
    cases c' with
    | wramExtra j =>
      show Buffer.byteOf (m.wramExtra.map fun d => d.set i val) j = if _ then val else Buffer.byteOf m.wramExtra j
      rw [hd]
      exact (Buffer.get_set hi val j).trans (by simp only [Cell.wramExtra.injEq]; rfl)
    | _ => exact (if_neg Cell.noConfusion).symm
  | sram i =>
    -- a store may mark the RAM as dirty, but reaches no other buffer
    have hother : ∀ m' : Memory, m' = storeSram m i val → m'.vram = m.vram ∧ m'.vram1 = m.vram1 ∧ m'.wram = m.wram ∧
        m'.wramExtra = m.wramExtra ∧ m'.oam = m.oam ∧ m'.hram = m.hram := by
      rintro m' rfl
      unfold storeSram
      split <;> exact ⟨rfl, rfl, rfl, rfl, rfl, rfl⟩
    obtain ⟨hvram, hvram1, hwram, hextra, hoam, hhram⟩ := hother _ rfl
    cases c' with
    | sram j => exact (storeSram_get h val j).trans (by simp only [Cell.sram.injEq]; rfl)
    | vram j =>
      rw [if_neg (by simp)]
      exact congrArg (fun d => d.get j) hvram
    | vram1 j =>
      rw [if_neg (by simp)]
      exact congrArg (fun d => Buffer.byteOf d j) hvram1
    | wram j =>
      rw [if_neg (by simp)]
      exact congrArg (fun d => d.get j) hwram
    | wramExtra j =>
      rw [if_neg (by simp)]
      exact congrArg (fun d => Buffer.byteOf d j) hextra
    | oam j =>
      rw [if_neg (by simp)]
      exact congrArg (fun d => d.get j) hoam
    | hram j =>
      rw [if_neg (by simp)]
      exact congrArg (fun d => d.get j) hhram
  | oam i =>
    cases c' with
    | oam j => exact (Buffer.get_set h val j).trans (by simp only [Cell.oam.injEq]; rfl)
    | _ => exact (if_neg Cell.noConfusion).symm
  | hram i =>
    cases c' with
    | hram j => exact (Buffer.get_set h val j).trans (by simp only [Cell.hram.injEq]; rfl)
    | _ => exact (if_neg Cell.noConfusion).symm

/-- The memory of a running session has its sizes. -/
structure Bus.MemSized (b : Bus σ) : Prop where
  vram : b.mem.vram.size = GB_VRAM_SIZE
  wram : b.mem.wram.size = GB_WRAM_SIZE
  oam : b.mem.oam.size = 0xA0
  hram : b.mem.hram.size = 0x80
  sramData : b.mem.sramData.size = b.mem.sramSize
  sramPersist : b.mem.sramPersistSize ≤ b.mem.sramSize
  mbc2 : b.mbc.mbcType = .mbc2 → b.mem.sramSize = 512
  vram1 : Buffer.OfSize b.mem.vram1 GB_VRAM_SIZE
  wramExtra : Buffer.OfSize b.mem.wramExtra 0x6000
  wramBank : b.cgb.wramBank ≤ 7

theorem Bus.Sized.memSized {b : Bus σ} (h : b.Sized) : b.MemSized :=
  ⟨h.vram, h.wram, h.oam, h.hram, h.sramData, h.sramPersist, h.mbc2, h.vram1, h.wramExtra, h.wramBank⟩

theorem Buffer.OfSize.of_map {d d' : Option Buffer} (h : d'.map Buffer.size = d.map Buffer.size) {n : Nat}
    (hd : Buffer.OfSize d n) : Buffer.OfSize d' n := by
  intro c' hc'
  rw [hc'] at h
  obtain ⟨c, hc, hsize⟩ := Option.map_eq_some_iff.1 h.symm
  rw [← hsize]
  exact hd c hc

theorem Bus.MemSized.shape {b b' : Bus σ} (h : b.MemSized) (hs : b.SameShape b') : b'.MemSized where
  vram := hs.mem.vram.trans h.vram
  wram := hs.mem.wram.trans h.wram
  oam := hs.mem.oam.trans h.oam
  hram := hs.mem.hram.trans h.hram
  sramData := hs.mem.sramData.trans (h.sramData.trans hs.mem.sramSize.symm)
  sramPersist := by
    rw [hs.mem.sramPersistSize, hs.mem.sramSize]
    exact h.sramPersist
  mbc2 ht := hs.mem.sramSize.trans (h.mbc2 (hs.mbcType.symm.trans ht))
  vram1 := h.vram1.of_map hs.mem.vram1
  wramExtra := h.wramExtra.of_map hs.mem.wramExtra
  wramBank := hs.wramBank h.wramBank

theorem Bus.MemSized.hasVram {b : Bus σ} (h : b.MemSized) {i : Nat} (hi : i < GB_VRAM_SIZE) :
    b.mem.Has (vramCell b i) := by
  unfold vramCell
  split
  · rename_i hbank
    obtain ⟨d, hd⟩ := Option.isSome_iff_exists.1 hbank.1
    refine ⟨d, hd, ?_⟩
    rw [h.vram1 d hd]
    exact hi
  · show i < b.mem.vram.size
    rw [h.vram]
    exact hi

theorem Bus.MemSized.hasWram {b : Bus σ} (h : b.MemSized) (addr : Nat) (haddr : addr < 0xE000) :
    b.mem.Has (wramCell b addr) := by
  unfold wramCell
  split
  · show _ < b.mem.wram.size
    rw [h.wram]
    unfold GB_WRAM_SIZE
    omega
  · rename_i hbank
    obtain ⟨hlow, hbank⟩ := not_or.1 hbank
    have hbank : wramBanked b = true := not_not.1 hbank
    obtain ⟨d, hd⟩ := Option.isSome_iff_exists.1 (Bool.and_eq_true_iff.1 hbank).2
    -- banks 2 to 7 are the six of the extra buffer
    have hseven : b.cgb.wramBank.toNat ≤ 7 := UInt8.le_iff_toNat_le.1 h.wramBank
    have hmul : (b.cgb.wramBank.toNat - 2) * 0x1000 ≤ 5 * 0x1000 := Nat.mul_le_mul_right _ (by omega)
    refine ⟨d, hd, ?_⟩
    rw [h.wramExtra d hd]
    unfold wramExtraIndex
    omega

/-- On a bus of the right sizes, an address is a cell that is there. -/
theorem Bus.MemSized.hasCell {b : Bus σ} (h : b.MemSized) {addr : UInt16} {c : Cell} (hc : cellOf b addr = some c) :
    b.mem.Has c := by
  have hto (k : UInt16) (hk : addr < k) : addr.toNat < k.toNat := UInt16.lt_iff_toNat_lt.1 hk
  unfold cellOf at hc
  split at hc
  · cases hc
  split at hc
  · rename_i hvram
    obtain rfl := Option.some.inj hc
    have hlt : addr.toNat < 0xA000 := hto _ hvram
    exact h.hasVram (by show _ < 0x2000; omega)
  split at hc
  · unfold sramCell at hc
    split at hc
    · cases hc
    split at hc
    · rename_i hmbc2
      obtain rfl := Option.some.inj hc
      show _ < b.mem.sramData.size
      rw [h.sramData, h.mbc2 hmbc2]
      exact Nat.lt_of_le_of_lt Nat.and_le_right (by decide)
    split at hc
    · cases hc
    split at hc
    · rename_i hbank
      obtain rfl := Option.some.inj hc
      show _ < b.mem.sramData.size
      rw [h.sramData]
      exact Nat.lt_of_lt_of_le hbank.2 h.sramPersist
    · cases hc
  split at hc
  · rename_i hwram
    obtain rfl := Option.some.inj hc
    exact h.hasWram _ (hto _ hwram)
  split at hc
  · rename_i hecho
    obtain rfl := Option.some.inj hc
    have hlt : addr.toNat < 0xFE00 := hto _ hecho
    refine h.hasWram _ ?_
    omega
  split at hc
  · rename_i hoam
    obtain rfl := Option.some.inj hc
    have hlt : addr.toNat < 0xFEA0 := hto _ hoam
    show _ < b.mem.oam.size
    rw [h.oam]
    omega
  split at hc
  · rename_i hhram
    obtain rfl := Option.some.inj hc
    have hlast : addr.toNat ≠ 0xFFFF := fun heq => hhram.2 (UInt16.toNat_inj.1 heq)
    have hlt := addr.toNat_lt
    show _ < b.mem.hram.size
    rw [h.hram]
    omega
  · cases hc

theorem checkStatInterrupt_mem (b : Bus σ) : (checkStatInterrupt b).mem = b.mem := by
  obtain ⟨line, irq, h, -⟩ := checkStatInterrupt_eq b
  rw [h]

theorem writeLcdc_mem (val : UInt8) (b : Bus σ) : (writeLcdc val b).mem = b.mem := by
  unfold writeLcdc
  split
  · exact checkStatInterrupt_mem _
  · rfl

theorem writeSerialControl_mem (val : UInt8) (b : Bus σ) : (writeSerialControl val b).mem = b.mem := by
  unfold writeSerialControl
  dsimp only
  split <;> rfl

/-- Of the registers, only the two that start a DMA reach memory. -/
theorem writeIo_mem {addr : UInt16} {val : UInt8} {b : Bus σ} (hoam : addr ≠ 0xFF46) (hhdma : addr ≠ 0xFF55) :
    (writeIo env addr val b).mem =
      if 0xFF80 ≤ addr ∧ addr ≠ 0xFFFF then b.mem.setCell (.hram (addr.toNat - 0xFF80)) val else b.mem := by
  have hlow : addr.toNat < 0xFF80 → ¬ (0xFF80 ≤ addr ∧ addr ≠ 0xFFFF) := fun hlt h =>
    Nat.not_lt.2 (UInt16.le_iff_toNat_le.1 h.1) hlt
  unfold writeIo
  split
  · rename_i hsound
    rw [if_neg]
    rintro ⟨hge, -⟩
    rw [not_soundReg hge] at hsound
    cases hsound
  -- serial control, LCDC, STAT and LYC do more than store a byte, but not in memory
  split
  case h_3 heq =>
    rw [if_neg (hlow (by rw [heq]; decide))]
    exact writeSerialControl_mem val b
  case h_9 heq =>
    rw [if_neg (hlow (by rw [heq]; decide))]
    exact writeLcdc_mem val b
  case h_10 heq =>
    rw [if_neg (hlow (by rw [heq]; decide))]
    exact checkStatInterrupt_mem _
  case h_11 heq =>
    rw [if_neg (hlow (by rw [heq]; decide))]
    exact checkStatInterrupt_mem _
  case h_12 heq => exact absurd (UInt16.toNat_inj.1 heq) hoam
  case h_20 heq => exact absurd (UInt16.toNat_inj.1 heq) hhdma
  case h_32 heq =>
    have hlast : addr = 0xFFFF := UInt16.toNat_inj.1 heq
    rw [if_neg fun h => h.2 hlast]
  case h_33 =>
    by_cases hhram : 0xFF80 ≤ addr ∧ addr ≠ 0xFFFF
    · have hge := UInt16.le_iff_toNat_le.1 hhram.1
      have hlast : addr.toNat ≠ 0xFFFF := fun heq => hhram.2 (UInt16.toNat_inj.1 heq)
      have hlt := addr.toNat_lt
      rw [if_pos hhram, if_pos ⟨hge, by omega⟩]
      rfl
    · rw [if_neg hhram, if_neg]
      rintro ⟨hge, hlt⟩
      refine hhram ⟨UInt16.le_iff_toNat_le.2 hge, ?_⟩
      rintro rfl
      exact absurd hlt (by decide)
  all_goals
    rename_i heq
    rw [if_neg (hlow (by rw [heq]; decide))]

theorem writeVram_mem (addr : UInt16) (val : UInt8) (b : Bus σ) :
    (writeVram addr val b).mem = b.mem.setCell (vramCell b (addr.toNat - 0x8000)) val := by
  unfold writeVram vramCell
  cases hbank1 : b.mem.vram1 with
  | none =>
    rw [if_neg (fun h => by cases h.1)]
    rfl
  | some bank1 =>
    dsimp only
    by_cases hbank : b.cgb.isCgb = true ∧ b.cgb.vramBank ≠ 0
    · rw [if_pos hbank, if_pos ⟨rfl, hbank⟩]
      unfold Memory.setCell
      rw [hbank1]
      rfl
    · rw [if_neg hbank, if_neg (fun h => hbank h.2)]
      rfl

theorem writeWram_mem (addr : Nat) (val : UInt8) (b : Bus σ) :
    (writeWram addr val b).mem = b.mem.setCell (wramCell b addr) val := by
  unfold writeWram wramCell
  by_cases hlow : addr < 0xD000
  · rw [if_pos hlow, if_pos (.inl hlow)]
    rfl
  · rw [if_neg hlow]
    by_cases hbank : wramBanked b = true
    · rw [if_pos hbank, if_neg (by rintro (h | h); exacts [hlow h, h hbank])]
      rfl
    · rw [if_neg hbank, if_pos (.inr hbank)]
      rfl

/-- Selected cartridge RAM takes a write where it reaches that far. -/
theorem writeExternalRam_ram {addr : UInt16} {val : UInt8} {b : Bus σ} (henabled : ¬ ¬ b.mbc.ramEnabled = true)
    (hmbc2 : ¬ b.mbc.mbcType = .mbc2) (hrtc : ¬ rtcSelected b.mbc = true) (hbank : b.mbc.ramBank ≤ 3) :
    writeExternalRam addr val b =
      if sramIndex b.mbc.ramBank addr < b.mem.sramPersistSize then
        { b with mem := storeSram b.mem (sramIndex b.mbc.ramBank addr) val }
      else b := by
  rw [writeExternalRam, if_neg henabled, if_neg hmbc2, if_neg hrtc, if_pos hbank]

theorem mem_store {b : Bus σ} {idx : Nat} {val : UInt8} (h : idx < b.mem.sramPersistSize) :
    (if idx < b.mem.sramPersistSize then { b with mem := storeSram b.mem idx val } else b).mem =
      storeSram b.mem idx val := by
  rw [if_pos h]

theorem writeExternalRam_mem (addr : UInt16) (val : UInt8) (b : Bus σ) :
    (writeExternalRam addr val b).mem = match sramCell b addr with
      | some c => b.mem.setCell c (cellStores b.mbc.mbcType c val)
      | none => b.mem := by
  unfold sramCell
  by_cases henabled : ¬ b.mbc.ramEnabled = true
  · rw [if_pos henabled, writeExternalRam, if_pos henabled]
  rw [if_neg henabled]
  by_cases hmbc2 : b.mbc.mbcType = .mbc2
  · rw [if_pos hmbc2, writeExternalRam, if_neg henabled, if_pos hmbc2]
    dsimp only [cellStores]
    rw [if_pos hmbc2, setCell_sram]
  rw [if_neg hmbc2]
  by_cases hrtc : rtcSelected b.mbc = true
  · rw [if_pos hrtc, writeExternalRam, if_neg henabled, if_neg hmbc2, if_pos hrtc]
  rw [if_neg hrtc]
  by_cases hbank : b.mbc.ramBank ≤ 3
  · rw [writeExternalRam_ram henabled hmbc2 hrtc hbank]
    by_cases hinside : sramIndex b.mbc.ramBank addr < b.mem.sramPersistSize
    · rw [mem_store hinside, if_pos ⟨hbank, hinside⟩]
      dsimp only [cellStores]
      rw [if_neg hmbc2, setCell_sram]
    · rw [if_neg hinside, if_neg fun h => hinside h.2]
  · rw [writeExternalRam, if_neg henabled, if_neg hmbc2, if_neg hrtc, if_neg hbank, if_neg fun h => hbank h.1]

/-- The memory after a write to an address, where no DMA is started. -/
theorem writeByte_cell {addr : UInt16} {val : UInt8} {b : Bus σ} (hoam : addr ≠ 0xFF46) (hhdma : addr ≠ 0xFF55) :
    (writeByte env addr val b).mem = match cellOf b addr with
      | some c => b.mem.setCell c (cellStores b.mbc.mbcType c val)
      | none => b.mem := by
  unfold writeByte cellOf
  by_cases hio : addr < 0xFF00
  · rw [if_pos hio]
    have hhram : ¬ (0xFF80 ≤ addr ∧ addr ≠ 0xFFFF) := fun h => UInt16.not_lt.2 h.1 (UInt16.lt_trans hio (by decide))
    unfold writeMemory
    split
    · rfl
    split
    · dsimp only
      rw [cellStores_eq _ (vramCell_ne b _)]
      exact writeVram_mem addr val b
    split
    · exact writeExternalRam_mem addr val b
    split
    · dsimp only
      rw [cellStores_eq _ (wramCell_ne b _), writeWram_mem]
    split
    · dsimp only
      rw [cellStores_eq _ (wramCell_ne b _), writeWram_mem]
    split
    · rfl
    · rfl
  · have hnot (k : UInt16) (hk : k ≤ 0xFF00) : ¬ addr < k := fun h => hio (UInt16.lt_of_lt_of_le h hk)
    rw [if_neg hio, writeIo_mem hoam hhdma, if_neg (hnot 0x8000 (by decide)), if_neg (hnot 0xA000 (by decide)),
      if_neg (hnot 0xC000 (by decide)), if_neg (hnot 0xE000 (by decide)), if_neg (hnot 0xFE00 (by decide)),
      if_neg (hnot 0xFEA0 (by decide))]
    split <;> rfl

end FoloGameboy

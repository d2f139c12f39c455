/-
No bus operation leaves its buffers: on a bus whose buffers have the sizes `gb_port_create` gives them,
which every operation keeps, the checked bus never faults, and its outcome is the bus's own.
-/
import FoloGameboy.Lib.Checked
import FoloGameboy.Core.Access
import FoloGameboy.Core.MappedRead
import FoloGameboy.Core.Shape

namespace FoloGameboy

variable {σ : Type}

/-! ## Sizes -/

/-- The ROM behind the pointers: whole banks when it is mapped, a bank 0 copy and whole cache slots
when it is streamed; each mapped window is a whole bank. -/
structure RomAccess.Sized (r : RomAccess) : Prop where
  banks : 0 < r.romBankCount
  inRam : r.romInRam = true → ∃ d, r.romData = some d ∧ r.romBankCount * ROM_BANK_SIZE ≤ d.size
  bank0 : r.romInRam = false → ∃ d, r.romBank0 = some d ∧ ROM_BANK_SIZE ≤ d.size
  cache : r.cacheSlots * ROM_BANK_SIZE ≤ r.bankCache.size
  nextSlot : r.cacheSlots ≠ 0 → r.cacheNextSlot < r.cacheSlots
  windows : ∀ base, r.mappedRomBank0 = some base ∨ r.mappedRomBank1 = some base →
    ∃ d, r.romData = some d ∧ base + ROM_BANK_SIZE ≤ d.size

/-- A buffer that may be missing has `n` bytes when it is there. -/
def Buffer.OfSize (b : Option Buffer) (n : Nat) : Prop := ∀ d, b = some d → d.size = n

/-- The buffers of a running session. -/
structure Bus.Sized (b : Bus σ) : Prop where
  rom : b.rom.Sized
  vram : b.mem.vram.size = GB_VRAM_SIZE
  wram : b.mem.wram.size = GB_WRAM_SIZE
  oam : b.mem.oam.size = 0xA0
  hram : b.mem.hram.size = 0x80
  sramData : b.mem.sramData.size = b.mem.sramSize
  sramPersist : b.mem.sramPersistSize ≤ b.mem.sramSize
  mbc2 : b.mbc.mbcType = .mbc2 → b.mem.sramSize = 512
  cgb : b.cgb.isCgb = true → b.mem.vram1.isSome = true
  vram1 : Buffer.OfSize b.mem.vram1 GB_VRAM_SIZE
  wramExtra : Buffer.OfSize b.mem.wramExtra 0x6000
  wramBank : b.cgb.wramBank ≤ 7
  soundRegs : b.sound.soundRegs.size = 0x30
  rtcLatched : b.rtc.rtcLatched.size = 5
  bgPalette : b.cgb.bgPalette.size = 64
  objPalette : b.cgb.objPalette.size = 64
  framebuf : Buffer.OfSize b.screen.framebuf GB_FB_SIZE
  colorFramebuf : Buffer.OfSize b.screen.colorFramebuf (GB_W * GB_H)

/-! ## Sizes are kept -/

theorem refreshMappedRomBanks_windows {r : RomAccess} (h : r.Sized) (m : MbcState) :
    (refreshMappedRomBanks m r).Sized := by
  have hwindow : ∀ bank, r.romInRam = true → ∃ d, r.romData = some d ∧
      bank % r.romBankCount * ROM_BANK_SIZE + ROM_BANK_SIZE ≤ d.size := by
    intro bank hram
    obtain ⟨d, hd, hsize⟩ := h.inRam hram
    refine ⟨d, hd, Nat.le_trans ?_ hsize⟩
    rw [← Nat.succ_mul]
    exact Nat.mul_le_mul_right _ (Nat.mod_lt bank h.banks)
  unfold refreshMappedRomBanks
  split
  · refine { h with windows := ?_ }
    rintro base (hb | hb) <;> cases hb
  · rename_i hmapped
    have hram : r.romInRam = true := by
      by_contra hn
      exact hmapped (.inl hn)
    refine { h with windows := ?_ }
    rintro base (hb | hb)
    · obtain rfl := Option.some.inj hb
      exact hwindow _ hram
    · obtain rfl := Option.some.inj hb
      exact hwindow _ hram

/-- The same windows on the same ROM. -/
theorem RomAccess.Sized.keep {r r' : RomAccess} (h : r.Sized) (hshape : r.SameShape r')
    (h₀ : r'.mappedRomBank0 = r.mappedRomBank0)
    (h₁ : r'.mappedRomBank1 = r.mappedRomBank1) : r'.Sized := by
  refine ⟨?_, ?_, ?_, ?_, ?_, ?_⟩
  · rw [hshape.romBankCount]
    exact h.banks
  · rw [hshape.romInRam, hshape.romData, hshape.romBankCount]
    exact h.inRam
  · rw [hshape.romInRam, hshape.romBank0]
    exact h.bank0
  · rw [hshape.cacheSlots, hshape.bankCache]
    exact h.cache
  · intro hslots
    rw [hshape.cacheSlots] at hslots
    exact hshape.nextSlot (h.nextSlot hslots)
  · rw [h₀, h₁, hshape.romData]
    exact h.windows

theorem BusEffect.romSized {env : Env σ} {b b' : Bus σ} (h : b.rom.Sized) (he : BusEffect env b b')
    (hshape : b.SameShape b') :
    b'.rom.Sized := by
  cases he with
  | quiet hq => exact h.keep hshape.rom hq.layout.mapped0 hq.layout.mapped1
  | mapper addr val => exact refreshMappedRomBanks_windows h _
  | lcd val hne =>
    have hlayout : b.rom.SameLayout (writeLcdc val b).rom := by
      unfold writeLcdc
      rw [if_pos hne]
      exact (checkStatInterrupt_quiet { b with
        lcd := toggleLcd b.lcd val
        screen := if hasBits val 0x80 then b.screen else blankScreen b.screen }).layout
    exact h.keep hshape.rom hlayout.mapped0 hlayout.mapped1

/-- Only switching the LCD off touches the framebuffers, which it refills at their own sizes. -/
theorem BusEffect.screens {env : Env σ} {b b' : Bus σ} (he : BusEffect env b b') :
    b'.screen = b.screen ∨ b'.screen = blankScreen b.screen := by
  cases he with
  | quiet hq => exact .inl hq.screen
  | mapper addr val => exact .inl rfl
  | lcd val hne =>
    have hscreen : (writeLcdc val b).screen = if hasBits val 0x80 then b.screen
        else blankScreen b.screen := by
      unfold writeLcdc
      rw [if_pos hne]
      exact (checkStatInterrupt_quiet _).screen
    rw [hscreen]
    exact ite_eq_or_eq _ _ _

theorem Buffer.OfSize.keep {b b' : Option Buffer} {n : Nat} (h : OfSize b n)
    (hmap : b'.map Buffer.size = b.map Buffer.size) :
    OfSize b' n := by
  rintro d rfl
  obtain ⟨d₀, hd, hsize⟩ := Option.map_eq_some_iff.mp hmap.symm
  exact hsize.symm.trans (h d₀ hd)

theorem Buffer.OfSize.fill (b : Option Buffer) (n : Nat) (v : UInt8) :
    OfSize (b.map fun _ => .fill n v) n := by
  intro d hd
  obtain ⟨-, -, rfl⟩ := Option.map_eq_some_iff.mp hd
  rfl

/-- Every bus operation keeps the sizes. -/
theorem Bus.Sized.step {env : Env σ} {b b' : Bus σ} (h : b.Sized) (he : BusEffect env b b')
    (hshape : b.SameShape b') : b'.Sized := by
  have hscreens : Buffer.OfSize b'.screen.framebuf GB_FB_SIZE ∧
      Buffer.OfSize b'.screen.colorFramebuf (GB_W * GB_H) := by
    rcases he.screens with hs | hs
    · rw [hs]
      exact ⟨h.framebuf, h.colorFramebuf⟩
    · rw [hs]
      exact ⟨.fill _ _ _, .fill _ _ _⟩
  have hm := hshape.mem
  exact {
    rom := he.romSized h.rom hshape
    vram := hm.vram.trans h.vram
    wram := hm.wram.trans h.wram
    oam := hm.oam.trans h.oam
    hram := hm.hram.trans h.hram
    sramData := by rw [hm.sramData, hm.sramSize, h.sramData]
    sramPersist := by rw [hm.sramPersistSize, hm.sramSize]; exact h.sramPersist
    mbc2 := by rw [hshape.mbcType, hm.sramSize]; exact h.mbc2
    cgb := fun hc => by
      have hsome := h.cgb (hshape.isCgb.symm.trans hc)
      rw [← Option.isSome_map (f := Buffer.size), hm.vram1, Option.isSome_map]
      exact hsome
    vram1 := h.vram1.keep hm.vram1
    wramExtra := h.wramExtra.keep hm.wramExtra
    wramBank := hshape.wramBank h.wramBank
    soundRegs := hshape.soundRegs.trans h.soundRegs
    rtcLatched := hshape.rtcLatched.trans h.rtcLatched
    bgPalette := hshape.bgPalette.trans h.bgPalette
    objPalette := hshape.objPalette.trans h.objPalette
    framebuf := hscreens.1
    colorFramebuf := hscreens.2 }

theorem readByte_sized (env : Env σ) {b : Bus σ} (h : b.Sized) (addr : UInt16) :
    (readByte env addr b).2.Sized := by
  have he : BusEffect env b (readByte env addr b).2 := .quiet (readByte_frame env addr b).quiet
  exact h.step he (readByte_shape env addr b)

/-! ## ROM reads inside their buffers -/

@[simp] theorem Buffer.byteOf_some (d : Buffer) (i : Nat) : byteOf (some d) i = d.get i := rfl

theorem Buffer.loadOf_eq {b : Option Buffer} {d : Buffer} {i : Nat} (hb : b = some d) (h : i < d.size) :
    loadOf b i = some (byteOf b i) := by
  subst hb
  exact Buffer.load_eq h

theorem loadBankChecked_eq (env : Env σ) (bank : Nat) {slot : Nat} {r : RomAccess}
    (h : slot * ROM_BANK_SIZE + ROM_BANK_SIZE ≤ r.bankCache.size) :
    loadBankChecked env bank slot r = some (loadBank env bank slot r) :=
  if_pos h

/-- A slot of the cache, and an offset in its bank. -/
theorem RomAccess.Sized.slot {r : RomAccess} (h : r.Sized) {slot : Nat} (hslot : slot < r.cacheSlots) :
    slot * ROM_BANK_SIZE + ROM_BANK_SIZE ≤ r.bankCache.size := by
  rw [← Nat.succ_mul]
  exact Nat.le_trans (Nat.mul_le_mul_right _ hslot) h.cache

theorem readCachedBankChecked_eq (env : Env σ) (bank : Nat) {offset : Nat}
    (hoff : offset < ROM_BANK_SIZE) {r : RomAccess}
    (h : r.Sized) : readCachedBankChecked env bank offset r = some (readCachedBank env bank offset r) := by
  unfold readCachedBankChecked
  split
  · rfl
  rename_i hslots
  unfold readCachedBank
  rw [if_neg hslots]
  cases hfind : (List.range r.cacheSlots).find? fun i => r.cacheMap i == (bank : Int) with
  | some i =>
    have hi := h.slot (List.mem_range.mp (List.mem_of_find?_eq_some hfind))
    exact Checked.bind (Buffer.load_eq (show i * ROM_BANK_SIZE + offset < r.bankCache.size by omega)) _
  | none =>
    have hnext := h.nextSlot hslots
    have hshape :=
      loadBank_shape env bank r.cacheNextSlot { r with
        cacheNextSlot := (r.cacheNextSlot + 1) % r.cacheSlots }
    have hload :=
      loadBankChecked_eq env bank
        (r := { r with cacheNextSlot := (r.cacheNextSlot + 1) % r.cacheSlots }) (h.slot hnext)
    dsimp only
    rw [Checked.bind hload]
    generalize loadBank env bank r.cacheNextSlot { r with
      cacheNextSlot := (r.cacheNextSlot + 1) % r.cacheSlots } = loaded at hshape ⊢
    obtain ⟨ok, r'⟩ := loaded
    cases ok with
    | false => rfl
    | true =>
      have hcount : r.cacheNextSlot < r'.cacheSlots := Nat.lt_of_lt_of_eq hnext hshape.cacheSlots.symm
      have hmap : mapSlotChecked bank r.cacheNextSlot r' = some _ := if_pos hcount
      have hpatch := patchSlot_shape env bank r.cacheNextSlot
        { r' with cacheMap := fun i => if i = r.cacheNextSlot then (bank : Int) else r'.cacheMap i }
      have hsize := hpatch.bankCache.trans hshape.bankCache
      have hslot := h.slot hnext
      dsimp only
      rw [Checked.bind hmap]
      refine Checked.bind (Buffer.load_eq (Nat.lt_of_lt_of_eq ?_ hsize.symm)) _
      show r.cacheNextSlot * ROM_BANK_SIZE + offset < r.bankCache.size
      omega

/-- A byte of the mapped ROM. -/
theorem RomAccess.Sized.loadRomData {r : RomAccess} (h : r.Sized) (hram : r.romInRam = true)
    {bank offset : Nat} (hbank : bank < r.romBankCount) (hoff : offset < ROM_BANK_SIZE) :
    Buffer.loadOf r.romData (bank * ROM_BANK_SIZE + offset) =
      some (Buffer.byteOf r.romData (bank * ROM_BANK_SIZE + offset)) := by
  obtain ⟨d, hd, hsize⟩ := h.inRam hram
  refine Buffer.loadOf_eq hd ?_
  have hle : (bank + 1) * ROM_BANK_SIZE ≤ r.romBankCount * ROM_BANK_SIZE := Nat.mul_le_mul_right _ hbank
  rw [Nat.succ_mul] at hle
  omega

theorem RomAccess.Sized.loadBank0 {r : RomAccess} (h : r.Sized) (hram : ¬ r.romInRam = true) {offset : Nat}
    (hoff : offset < ROM_BANK_SIZE) :
    Buffer.loadOf r.romBank0 offset = some (Buffer.byteOf r.romBank0 offset) := by
  obtain ⟨d, hd, hsize⟩ := h.bank0 (eq_false_of_ne_true hram)
  exact Buffer.loadOf_eq hd (by omega)

/-- The bank a mapper register selects, reduced modulo the bank count. -/
theorem reduced_bank {count : Nat} (h : 0 < count) (bank : Nat) :
    (if count ≤ bank then bank % count else bank) < count := by
  split
  · exact Nat.mod_lt bank h
  · omega

theorem readRomLowChecked_eq (env : Env σ) {addr : UInt16} (haddr : addr < 0x4000) {b : Bus σ}
    (h : b.rom.Sized) :
    readRomLowChecked env addr b = some (readRomLow env addr b) := by
  have hoff : addr.toNat < ROM_BANK_SIZE := UInt16.lt_iff_toNat_lt.mp haddr
  have hbank := reduced_bank h.banks (b.mbc.mbc1Bank2.toNat <<< 5)
  unfold readRomLowChecked readRomLow
  dsimp only
  generalize (if b.rom.romBankCount ≤ b.mbc.mbc1Bank2.toNat <<< 5 then _ else _) = bank at hbank ⊢
  split
  · split
    · rename_i hram
      exact Checked.bind (h.loadRomData hram hbank hoff) _
    split
    · rename_i hram hzero
      exact Checked.bind (h.loadBank0 hram hoff) _
    · exact Checked.bind (readCachedBankChecked_eq env bank hoff h) _
  · split
    · rename_i hram
      have hload := h.loadRomData hram h.banks hoff
      rw [Nat.zero_mul, Nat.zero_add] at hload
      exact Checked.bind hload _
    · rename_i hram
      exact Checked.bind (h.loadBank0 hram hoff) _

theorem readRomHighChecked_eq (env : Env σ) {addr : UInt16} (haddr : addr < 0x8000) {b : Bus σ}
    (h : b.rom.Sized) :
    readRomHighChecked env addr b = some (readRomHigh env addr b) := by
  have hoff : addr.toNat - 0x4000 < ROM_BANK_SIZE := by
    have hlt : addr.toNat < 0x8000 := UInt16.lt_iff_toNat_lt.mp haddr
    unfold ROM_BANK_SIZE
    omega
  have hbank := reduced_bank h.banks b.mbc.romBank.toNat
  unfold readRomHighChecked readRomHigh
  dsimp only
  generalize (if b.rom.romBankCount ≤ b.mbc.romBank.toNat then _ else _) = bank at hbank ⊢
  split
  · rename_i hram
    exact Checked.bind (h.loadRomData hram hbank hoff) _
  · exact Checked.bind (readCachedBankChecked_eq env bank hoff h) _

/-! ## RAM reads inside their buffers -/

/-- The bank of VRAM an address reads, as the decoder selects it. -/
theorem readVramChecked_eq {addr : UInt16} (haddr : addr < 0xA000) {b : Bus σ} (h : b.Sized) :
    readVramChecked addr b =
    some (if b.cgb.isCgb ∧ b.cgb.vramBank ≠ 0 ∧ b.mem.vram1.isSome then (Buffer.byteOf b.mem.vram1
      (addr.toNat - 0x8000), b)
      else (b.mem.vram.get (addr.toNat - 0x8000), b)) := by
  have hlt : addr.toNat < 0xA000 := UInt16.lt_iff_toNat_lt.mp haddr
  have hoff : addr.toNat - 0x8000 < GB_VRAM_SIZE := by
    unfold GB_VRAM_SIZE
    omega
  unfold readVramChecked
  split
  · rename_i hbank
    obtain ⟨bank1, hv⟩ := Option.isSome_iff_exists.mp hbank.2.2
    exact Checked.bind (Buffer.loadOf_eq hv (Nat.lt_of_lt_of_eq hoff (h.vram1 _ hv).symm)) _
  · exact Checked.bind (Buffer.load_eq (Nat.lt_of_lt_of_eq hoff h.vram.symm)) _

theorem and_lt_of_lt {a n : Nat} (m : Nat) (h : n < a) :
    m &&& n < a := Nat.lt_of_le_of_lt Nat.and_le_right h

theorem readExternalRamChecked_eq (env : Env σ) (addr : UInt16) {b : Bus σ} (h : b.Sized) :
    readExternalRamChecked env addr b = some (readExternalRam env addr b) := by
  unfold readExternalRamChecked readExternalRam
  dsimp only
  split
  · rfl
  split
  · rename_i hmbc
    refine Checked.bind (Buffer.load_eq ?_) _
    rw [h.sramData, h.mbc2 hmbc]
    exact and_lt_of_lt _ (by decide)
  split
  · rename_i hrtc
    refine Checked.bind (Buffer.load_eq ?_) _
    rw [tickRTC_latched, h.rtcLatched]
    unfold rtcSelected at hrtc
    simp only [Bool.and_eq_true, decide_eq_true_eq] at hrtc
    have hle : b.mbc.ramBank.toNat ≤ 0x0C := UInt8.le_iff_toNat_le.mp hrtc.2
    omega
  split
  · split
    · rfl
    · rename_i hidx
      refine Checked.bind (Buffer.load_eq ?_) _
      have hsize := h.sramData
      have hpersist := h.sramPersist
      omega
  · rfl

/-- A CGB WRAM bank above 1 is inside its buffer. -/
theorem Bus.Sized.wramExtra_lt {b : Bus σ} (h : b.Sized) {addr : Nat} (haddr : addr < 0xE000) {d : Buffer}
    (hd : b.mem.wramExtra = some d) : wramExtraIndex b.cgb.wramBank addr < d.size := by
  have hbank : b.cgb.wramBank.toNat ≤ 7 := UInt8.le_iff_toNat_le.mp h.wramBank
  have hmul : (b.cgb.wramBank.toNat - 2) * 0x1000 ≤ 5 * 0x1000 := Nat.mul_le_mul_right _ (by omega)
  rw [h.wramExtra d hd]
  unfold wramExtraIndex
  omega

theorem Bus.Sized.wram_lt {b : Bus σ} (h : b.Sized) {addr : Nat} (haddr : addr < 0xE000) :
    addr - 0xC000 < b.mem.wram.size := by
  rw [h.wram]
  unfold GB_WRAM_SIZE
  omega

theorem readWramChecked_eq {addr : Nat} (haddr : addr < 0xE000) {b : Bus σ} (h : b.Sized) :
    readWramChecked addr b = some (readWram addr b) := by
  unfold readWramChecked readWram
  split
  · exact Buffer.load_eq (h.wram_lt haddr)
  split
  · rename_i hbanked
    unfold wramBanked at hbanked
    obtain ⟨d, hd⟩ := Option.isSome_iff_exists.mp (Bool.and_eq_true_iff.mp hbanked).2
    exact Buffer.loadOf_eq hd (h.wramExtra_lt haddr hd)
  · exact Buffer.load_eq (h.wram_lt haddr)

theorem soundReg_index {addr : UInt16} (h : soundReg addr = true) : addr.toNat - 0xFF10 < 0x30 := by
  unfold soundReg at h
  simp only [Bool.or_eq_true, Bool.and_eq_true, decide_eq_true_eq, UInt16.le_iff_toNat_le] at h
  have hmax : addr.toNat ≤ (0xFF3F : UInt16).toNat := by
    rcases h with ((h | h) | h) | h
    · exact Nat.le_trans h.2 (by decide)
    · exact Nat.le_trans h.2 (by decide)
    · exact Nat.le_trans h.2 (by decide)
    · exact h.2
  have hval : (0xFF3F : UInt16).toNat = 0xFF3F := rfl
  omega

theorem readSoundChecked_eq (env : Env σ) {addr : UInt16} (haddr : soundReg addr = true) {s : Sound σ}
    (h : s.soundRegs.size = 0x30) : readSoundChecked env addr s = some (readSound env addr s) := by
  unfold readSoundChecked readSound
  cases s.soundContext with
  | some chip => rfl
  | none => exact Buffer.load_eq (Nat.lt_of_lt_of_eq (soundReg_index haddr) h.symm)

theorem palette_index (reg : UInt8) : (reg &&& 0x3F).toNat < 64 := by
  rw [UInt8.toNat_and]
  exact and_lt_of_lt _ (by decide)

theorem hram_index {addr : UInt16} (h : addr < 0xFFFF) : addr.toNat - 0xFF80 < 0x80 := by
  have hlt : addr.toNat < 0xFFFF := UInt16.lt_iff_toNat_lt.mp h
  omega

theorem readIoChecked_eq (env : Env σ) (addr : UInt16) {b : Bus σ} (h : b.Sized) :
    readIoChecked env addr b = some (readIo env addr b) := by
  unfold readIoChecked
  split
  · rename_i hsound
    refine (readSoundChecked_eq env hsound h.soundRegs).trans ?_
    unfold readIo
    rw [if_pos hsound]
  rename_i hsound
  split
  · rename_i haddr
    subst haddr
    show _ = some (if b.cgb.isCgb then b.cgb.bgPalette.get (b.cgb.bcpsReg &&& 0x3F).toNat else 0xFF)
    split
    · exact Buffer.load_eq (Nat.lt_of_lt_of_eq (palette_index _) h.bgPalette.symm)
    · rfl
  split
  · rename_i haddr
    subst haddr
    show _ = some (if b.cgb.isCgb then b.cgb.objPalette.get (b.cgb.ocpsReg &&& 0x3F).toNat else 0xFF)
    split
    · exact Buffer.load_eq (Nat.lt_of_lt_of_eq (palette_index _) h.objPalette.symm)
    · rfl
  split
  · rename_i haddr
    rw [readIo_hram haddr.1 fun hc => absurd haddr.2 (by rw [hc]; decide)]
    exact Buffer.load_eq (Nat.lt_of_lt_of_eq (hram_index haddr.2) h.hram.symm)
  · rfl

/-! ## The decoder and the hot path -/

theorem readByteSlowChecked_eq (env : Env σ) (addr : UInt16) {b : Bus σ} (h : b.Sized) :
    readByteSlowChecked env addr b = some (readByteSlow env addr b) := by
  unfold readByteSlowChecked readByteSlow
  split
  · exact readRomLowChecked_eq env ‹_› h.rom
  split
  · exact readRomHighChecked_eq env ‹_› h.rom
  split
  · rename_i haddr
    rw [readVramChecked_eq haddr h]
    cases hv : b.mem.vram1 with
    | some bank1 =>
      dsimp only
      by_cases hbank : b.cgb.isCgb = true ∧ b.cgb.vramBank ≠ 0
      · rw [if_pos ⟨hbank.1, hbank.2, rfl⟩, if_pos hbank, Buffer.byteOf_some]
      · rw [if_neg fun hc => hbank ⟨hc.1, hc.2.1⟩, if_neg hbank]
    | none => rw [if_neg fun hc => Bool.noConfusion hc.2.2]
  split
  · exact readExternalRamChecked_eq env addr h
  split
  · rename_i haddr
    exact Checked.bind (readWramChecked_eq (UInt16.lt_iff_toNat_lt.mp haddr) h) _
  split
  · rename_i haddr
    have hlt : addr.toNat < 0xFE00 := UInt16.lt_iff_toNat_lt.mp haddr
    exact Checked.bind (readWramChecked_eq (by omega) h) _
  split
  · rename_i haddr
    have hlt : addr.toNat < 0xFEA0 := UInt16.lt_iff_toNat_lt.mp haddr
    exact Checked.bind (Buffer.load_eq (by rw [h.oam]; omega)) _
  split
  · rfl
  · exact Checked.bind (readIoChecked_eq env addr h) _

theorem readByteRamChecked_eq (env : Env σ) (addr : UInt16) {b : Bus σ} (h : b.Sized) :
    readByteRamChecked env addr b = some (readByteRam env addr b) := by
  unfold readByteRamChecked readByteRam
  split
  · have hlt : addr.toNat < 0x10000 := addr.toNat_lt
    have hne : addr.toNat ≠ 0xFFFF :=
      fun heq => (‹0xFF80 ≤ addr ∧ addr ≠ 0xFFFF›).2 (UInt16.toNat_inj.mp heq)
    exact Checked.bind (Buffer.load_eq (by rw [h.hram]; omega)) _
  split
  · rename_i haddr
    exact Checked.bind (Buffer.load_eq (h.wram_lt (UInt16.lt_iff_toNat_lt.mp haddr.1.2))) _
  · exact readByteSlowChecked_eq env addr h

theorem mappedRomBankChecked_eq (r : RomAccess) {addr : UInt16} (haddr : addr < 0x8000) :
    mappedRomBankChecked r addr = some (mappedRomBank r addr) := by
  have hlt : addr.toNat < 0x8000 := UInt16.lt_iff_toNat_lt.mp haddr
  have hshift : (addr >>> 14).toNat = addr.toNat / 0x4000 := by
    rw [UInt16.toNat_shiftRight]
    exact Nat.shiftRight_eq_div_pow addr.toNat 14
  unfold mappedRomBankChecked mappedRomBank
  rw [hshift]
  split
  · rename_i hlow
    have hdiv : addr.toNat / 0x4000 = 0 := Nat.div_eq_of_lt (UInt16.lt_iff_toNat_lt.mp hlow)
    rw [hdiv]
    rfl
  · rename_i hlow
    have hge : 0x4000 ≤ addr.toNat := Nat.not_lt.mp fun hc => hlow (UInt16.lt_iff_toNat_lt.mpr hc)
    have hdiv : addr.toNat / 0x4000 = 1 := by omega
    rw [hdiv]
    rfl

theorem readByteChecked_eq (env : Env σ) (addr : UInt16) {b : Bus σ} (h : b.Sized) :
    readByteChecked env addr b = some (readByte env addr b) := by
  unfold readByteChecked readByte
  split
  · rename_i haddr
    rw [Checked.bind (mappedRomBankChecked_eq b.rom haddr)]
    cases hbase : mappedRomBank b.rom addr with
    | some base =>
      have hwindow : b.rom.mappedRomBank0 = some base ∨ b.rom.mappedRomBank1 = some base := by
        unfold mappedRomBank at hbase
        split at hbase
        · exact .inl hbase
        · exact .inr hbase
      obtain ⟨d, hd, hsize⟩ := h.rom.windows base hwindow
      have hoff : (addr &&& 0x3fff).toNat < ROM_BANK_SIZE := by
        rw [UInt16.toNat_and]
        exact and_lt_of_lt _ (by decide)
      exact Checked.bind (Buffer.loadOf_eq hd (by omega)) _
    | none => exact readByteSlowChecked_eq env addr h
  · exact readByteRamChecked_eq env addr h

/-! ## Memory writes inside their buffers -/

theorem latchRTCChecked_eq {r : Rtc} (h : r.rtcLatched.size = 5) :
    latchRTCChecked r = some (latchRTC r) := by
  have hput : ∀ (d : Buffer) (i : Nat) (v : UInt8), d.size = 5 → i < 5 → d.put i v = some (d.set i v) :=
    fun d i v hd hi => Buffer.put_eq (Nat.lt_of_lt_of_eq hi hd.symm) v
  unfold latchRTCChecked
  rw [Checked.bind (hput _ 0 _ h (by decide)),
    Checked.bind (hput _ 1 _ (by simp only [Buffer.size_set, h]) (by decide)),
    Checked.bind (hput _ 2 _ (by simp only [Buffer.size_set, h]) (by decide)),
    Checked.bind (hput _ 3 _ (by simp only [Buffer.size_set, h]) (by decide)),
    Checked.bind (hput _ 4 _ (by simp only [Buffer.size_set, h]) (by decide))]
  rfl

theorem mbc3LatchChecked_eq (env : Env σ) {r : Rtc} (h : r.rtcLatched.size = 5) (addr : UInt16)
    (val : UInt8) :
    mbc3LatchChecked env r addr val = some (mbc3Latch env r addr val) := by
  unfold mbc3LatchChecked mbc3Latch
  split
  · rfl
  · dsimp only
    split
    · exact Checked.bind (latchRTCChecked_eq ((congrArg Buffer.size (tickRTC_latched env r)).trans h)) _
    · rfl

theorem writeMBCChecked_eq (env : Env σ) (addr : UInt16) (val : UInt8) {b : Bus σ} (h : b.Sized) :
    writeMBCChecked env addr val b = some (writeMBC env addr val b) := by
  unfold writeMBCChecked writeMBC
  dsimp only
  split
  · exact Checked.bind (mbc3LatchChecked_eq env h.rtcLatched addr val) _
  · rfl

theorem writeVramChecked_eq {addr : UInt16} (haddr : addr < 0xA000) (val : UInt8) {b : Bus σ}
    (h : b.Sized) :
    writeVramChecked addr val b = some (writeVram addr val b) := by
  have hlt : addr.toNat < 0xA000 := UInt16.lt_iff_toNat_lt.mp haddr
  have hoff : addr.toNat - 0x8000 < GB_VRAM_SIZE := by
    unfold GB_VRAM_SIZE
    omega
  have hbank0 := Buffer.put_eq (Nat.lt_of_lt_of_eq hoff h.vram.symm) val
  unfold writeVramChecked writeVram
  cases hv : b.mem.vram1 with
  | some bank1 =>
    have hbank1 := Buffer.put_eq (Nat.lt_of_lt_of_eq hoff (h.vram1 _ hv).symm) val
    dsimp only
    split
    · exact Checked.bind hbank1 _
    · exact Checked.bind hbank0 _
  | none => exact Checked.bind hbank0 _

theorem storeSramChecked_eq {m : Memory} {idx : Nat} (h : idx < m.sramData.size) (val : UInt8) :
    storeSramChecked m idx val = some (storeSram m idx val) := by
  unfold storeSramChecked storeSram
  rw [Checked.bind (Buffer.load_eq h)]
  split
  · exact Checked.bind (Buffer.put_eq h val) _
  · rfl

theorem writeExternalRamChecked_eq (addr : UInt16) (val : UInt8) {b : Bus σ} (h : b.Sized) :
    writeExternalRamChecked addr val b = some (writeExternalRam addr val b) := by
  unfold writeExternalRamChecked writeExternalRam
  dsimp only
  split
  · rfl
  split
  · rename_i hmbc
    refine Checked.bind (storeSramChecked_eq ?_ _) _
    rw [h.sramData, h.mbc2 hmbc]
    exact and_lt_of_lt _ (by decide)
  split
  · rfl
  split
  · split
    · rename_i hidx
      refine Checked.bind (storeSramChecked_eq ?_ _) _
      rw [h.sramData]
      exact Nat.lt_of_lt_of_le hidx h.sramPersist
    · rfl
  · rfl

theorem writeWramChecked_eq {addr : Nat} (haddr : addr < 0xE000) (val : UInt8) {b : Bus σ} (h : b.Sized) :
    writeWramChecked addr val b = some (writeWram addr val b) := by
  have hwram := Buffer.put_eq (h.wram_lt haddr) val
  unfold writeWramChecked writeWram
  split
  · exact Checked.bind hwram _
  split
  · rename_i hbanked
    unfold wramBanked at hbanked
    obtain ⟨d, hd⟩ := Option.isSome_iff_exists.mp (Bool.and_eq_true_iff.mp hbanked).2
    rw [Checked.bind hd, Checked.bind (Buffer.put_eq (h.wramExtra_lt haddr hd) val), hd]
    rfl
  · exact Checked.bind hwram _

theorem writeMemoryChecked_eq (env : Env σ) (addr : UInt16) (val : UInt8) {b : Bus σ} (h : b.Sized) :
    writeMemoryChecked env addr val b = some (writeMemory env addr val b) := by
  unfold writeMemoryChecked writeMemory
  split
  · exact writeMBCChecked_eq env addr val h
  split
  · exact writeVramChecked_eq ‹_› val h
  split
  · exact writeExternalRamChecked_eq addr val h
  split
  · rename_i haddr
    exact writeWramChecked_eq (UInt16.lt_iff_toNat_lt.mp haddr) val h
  split
  · rename_i haddr
    have hlt : addr.toNat < 0xFE00 := UInt16.lt_iff_toNat_lt.mp haddr
    exact writeWramChecked_eq (by omega) val h
  split
  · rename_i haddr
    have hlt : addr.toNat < 0xFEA0 := UInt16.lt_iff_toNat_lt.mp haddr
    exact Checked.bind (Buffer.put_eq (by rw [h.oam]; omega) val) _
  · rfl

/-! ## I/O writes inside their buffers -/

theorem writeSoundChecked_eq (env : Env σ) {addr : UInt16} (haddr : soundReg addr = true)
    (val : UInt8) {s : Sound σ}
    (h : s.soundRegs.size = 0x30) : writeSoundChecked env addr val s = some (writeSound env addr val s) :=
  Checked.bind (Buffer.put_eq (Nat.lt_of_lt_of_eq (soundReg_index haddr) h.symm) val) _

theorem Buffer.wipe_eq {b : Option Buffer} {n : Nat} (h : OfSize b n) (v : UInt8) :
    wipe b n v = some (b.map fun _ => .fill n v) := by
  unfold wipe
  cases b with
  | none => rfl
  | some d => exact if_pos (Nat.le_of_eq (h d rfl).symm)

theorem blankScreenChecked_eq {s : Screen} (hf : Buffer.OfSize s.framebuf GB_FB_SIZE)
    (hc : Buffer.OfSize s.colorFramebuf (GB_W * GB_H)) : blankScreenChecked s = some (blankScreen s) := by
  unfold blankScreenChecked
  rw [Checked.bind (Buffer.wipe_eq hf 0)]
  exact Checked.bind (Buffer.wipe_eq hc GB_PORT_COLOR_BLANK) _

theorem writeLcdcChecked_eq (val : UInt8) {b : Bus σ} (h : b.Sized) :
    writeLcdcChecked val b = some (writeLcdc val b) := by
  unfold writeLcdcChecked writeLcdc
  split
  · split
    · rfl
    · exact Checked.bind (blankScreenChecked_eq h.framebuf h.colorFramebuf) _
  · rfl

theorem oamDmaChecked_eq (env : Env σ) (val : UInt8) {b : Bus σ} (h : b.Sized) :
    ∀ n ≤ 0xA0, oamDmaChecked env val n b = some (oamDma env val n b)
  | 0, _ => rfl
  | n + 1, hn => by
    have he : BusEffect env b (oamDma env val n b) := .quiet (oamDma_quiet env val n b)
    have hsized := h.step he (oamDma_shape env val n b)
    have hread := readByte_sized env hsized ((val.toUInt16 <<< 8) ||| UInt16.ofNat n)
    unfold oamDmaChecked oamDma
    rw [Checked.bind (oamDmaChecked_eq env val h n (Nat.le_of_succ_le hn)),
      Checked.bind (readByteChecked_eq env _ hsized)]
    exact Checked.bind (Buffer.put_eq (Nat.lt_of_lt_of_eq hn hread.oam.symm) _) _

theorem hdmaLoopChecked_eq (env : Env σ) (src : Nat) {dst : Nat} (hdst : 0x8000 ≤ dst) {b : Bus σ}
    (h : b.Sized) :
    ∀ n, hdmaLoopChecked env src dst n b = some (hdmaLoop env src dst n b)
  | 0 => rfl
  | n + 1 => by
    have he : BusEffect env b (hdmaLoop env src dst n b) := .quiet (hdmaLoop_quiet env src dst hdst n b)
    have hsized := h.step he (hdmaLoop_shape env src dst n b)
    unfold hdmaLoopChecked hdmaLoop
    rw [Checked.bind (hdmaLoopChecked_eq env src hdst h n)]
    split
    · rw [Checked.bind (readByteChecked_eq env _ hsized)]
      exact writeMemoryChecked_eq env _ _ (readByte_sized env hsized _)
    · rfl

theorem writeHdma5Checked_eq (env : Env σ) (val : UInt8) {b : Bus σ} (h : b.Sized) :
    writeHdma5Checked env val b = some (writeHdma5 env val b) := by
  unfold writeHdma5Checked writeHdma5
  dsimp only
  split
  · rfl
  split
  · rfl
  · exact Checked.bind (hdmaLoopChecked_eq env _ (hdmaDst_ge _ _) h _) _

theorem writeCgbChecked_eq (n : Nat) (val : UInt8) {c : Cgb} (hbg : c.bgPalette.size = 64)
    (hobj : c.objPalette.size = 64) :
    writeCgbChecked n val c = some (writeCgb n val c) := by
  unfold writeCgbChecked
  split
  · rename_i hc
    obtain ⟨hcgb, rfl⟩ := hc
    rw [Checked.bind (Buffer.put_eq (Nat.lt_of_lt_of_eq (palette_index _) hbg.symm) val)]
    unfold writeCgb
    rw [if_neg (not_not.mpr hcgb)]
    rfl
  split
  · rename_i hc
    obtain ⟨hcgb, rfl⟩ := hc
    rw [Checked.bind (Buffer.put_eq (Nat.lt_of_lt_of_eq (palette_index _) hobj.symm) val)]
    unfold writeCgb
    rw [if_neg (not_not.mpr hcgb)]
    rfl
  · rfl

theorem writeIo_hram (env : Env σ) {addr : UInt16} (hsound : ¬ soundReg addr = true)
    (h : 0xFF80 ≤ addr ∧ addr < 0xFFFF) (val : UInt8) (b : Bus σ) :
    writeIo env addr val b =
      { b with mem := { b.mem with hram := b.mem.hram.set (addr.toNat - 0xFF80) val } } := by
  have hlow : 0xFF80 ≤ addr.toNat := UInt16.le_iff_toNat_le.mp h.1
  have hhigh : addr.toNat < 0xFFFF := UInt16.lt_iff_toNat_lt.mp h.2
  unfold writeIo
  rw [if_neg hsound]
  split
  all_goals first
    | omega
    | exact if_pos ⟨hlow, hhigh⟩

theorem writeIoChecked_eq (env : Env σ) (addr : UInt16) (val : UInt8) {b : Bus σ} (h : b.Sized) :
    writeIoChecked env addr val b = some (writeIo env addr val b) := by
  unfold writeIoChecked
  split
  · rename_i hsound
    rw [Checked.bind (writeSoundChecked_eq env hsound val h.soundRegs)]
    unfold writeIo
    rw [if_pos hsound]
    rfl
  rename_i hsound
  split
  · rename_i haddr
    subst haddr
    exact writeLcdcChecked_eq val h
  split
  · rename_i haddr
    subst haddr
    exact oamDmaChecked_eq env val h 0xA0 (Nat.le_refl _)
  split
  · rename_i haddr
    subst haddr
    exact writeHdma5Checked_eq env val h
  split
  · rename_i haddr
    rw [Checked.bind (writeCgbChecked_eq addr.toNat val h.bgPalette h.objPalette)]
    rcases haddr with rfl | rfl
    · rfl
    · rfl
  split
  · rename_i haddr
    rw [Checked.bind (Buffer.put_eq (Nat.lt_of_lt_of_eq (hram_index haddr.2) h.hram.symm) val),
      writeIo_hram env hsound haddr]
    rfl
  · rfl

/-- A write from any guest to any address stays inside the buffers. -/
theorem writeByteChecked_eq (env : Env σ) (addr : UInt16) (val : UInt8) {b : Bus σ} (h : b.Sized) :
    writeByteChecked env addr val b = some (writeByte env addr val b) := by
  unfold writeByteChecked writeByte
  split
  · exact writeMemoryChecked_eq env addr val h
  · exact writeIoChecked_eq env addr val h

end FoloGameboy

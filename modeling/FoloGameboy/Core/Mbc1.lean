/-
MBC1 banking over sequences of guest writes: what the three registers last held, what the mapper's
composite registers hold, and exactly when the two select the same banks.
-/
import FoloGameboy.Core.MappedRead

namespace FoloGameboy

variable {σ : Type} {env : Env σ}

/-! ## The visible banks -/

/-- The banks the decoder reads in the low and the high ROM window, and the RAM bank it selects. -/
def lowVisible (b : Bus σ) : Nat := lowBank b.mbc % b.rom.romBankCount
def highVisible (b : Bus σ) : Nat := b.mbc.romBank.toNat % b.rom.romBankCount
def ramVisible (b : Bus σ) : UInt8 := b.mbc.ramBank

/-- A sequence of guest writes. -/
def guestWrites (env : Env σ) (ws : List (UInt16 × UInt8)) (b : Bus σ) : Bus σ :=
  ws.foldl (fun b w => writeByte env w.1 w.2 b) b

/-! ## The history of a sequence of writes -/

/-- What a sequence of writes last put in each register, with two facts about the order: the upper
bits that were in force at the last write that composes a ROM bank (one to the 5 bit register, or one
to the 2 bit register in mode 0), and whether the 2 bit register was written in mode 1 since mode 0
was last selected. -/
structure Mbc1History where
  bank1 : UInt8 := 1
  bank2 : UInt8 := 0
  mode : UInt8 := 0
  composed : UInt8 := 0
  ramLoaded : Bool := false

def Mbc1History.write (h : Mbc1History) (w : UInt16 × UInt8) : Mbc1History :=
  if w.1 < 0x2000 then h
  else if w.1 < 0x4000 then
    { h with bank1 := if w.2 &&& 0x1F = 0 then 1 else w.2 &&& 0x1F, composed := h.bank2 }
  else if w.1 < 0x6000 then
    if h.mode = 0 then { h with bank2 := w.2 &&& 0x03, composed := w.2 &&& 0x03 }
    else { h with bank2 := w.2 &&& 0x03, ramLoaded := true }
  else { h with mode := w.2 &&& 0x01, ramLoaded := h.ramLoaded && w.2 &&& 0x01 != 0 }

def mbc1History (ws : List (UInt16 × UInt8)) : Mbc1History := ws.foldl Mbc1History.write {}

/-- The high window's bank for given upper and lower bits. -/
def composeBank (bank2 bank1 : UInt8) : UInt16 := (bank2.toUInt16 <<< 5) ||| bank1.toUInt16

/-- The mapping that the last value of each register selects. -/
structure MapsAsLast (h : Mbc1History) (b : Bus σ) : Prop where
  high : highVisible b = (composeBank h.bank2 h.bank1).toNat % b.rom.romBankCount
  low : lowVisible b = (if h.mode = 1 then h.bank2.toNat <<< 5 else 0) % b.rom.romBankCount
  ram : ramVisible b = if h.mode = 1 then h.bank2 else 0

/-! ## What the mapper holds -/

/-- The mapper registers of a history. -/
structure HoldsHistory (h : Mbc1History) (m : MbcState) : Prop where
  mbcType : m.mbcType = .mbc1
  romBank : m.romBank = composeBank h.composed h.bank1
  bank2 : m.mbc1Bank2 = h.bank2
  mode : m.mbc1Mode = h.mode
  ramBank : m.ramBank = if h.ramLoaded then h.bank2 else 0
  lower : h.bank1 &&& 0x1F = h.bank1
  oneBit : h.mode = 0 ∨ h.mode = 1
  loaded : h.ramLoaded = true → h.mode = 1

theorem compose_lower {bank2 bank1 : UInt8} (h : bank1 &&& 0x1F = bank1) :
    composeBank bank2 bank1 &&& 0x1F = bank1.toUInt16 := by
  have hupper : ∀ v : UInt8, (v.toUInt16 <<< 5) &&& 0x1F = 0 := fun ⟨b⟩ => by revert b; decide +kernel
  have hlower : ∀ v : UInt8, v.toUInt16 &&& 0x1F = (v &&& 0x1F).toUInt16 :=
    fun ⟨b⟩ => by revert b; decide +kernel
  have hdistrib : ∀ x y z : UInt16, (x ||| y) &&& z = (x &&& z) ||| (y &&& z) :=
    fun _ _ _ => UInt16.toBitVec_inj.mp BitVec.and_or_distrib_right
  unfold composeBank
  rw [hdistrib, hupper, hlower, h, UInt16.zero_or]

theorem lowerBits (val : UInt8) : (if val &&& 0x1F = 0 then 1 else val &&& 0x1F) &&& 0x1F =
    if val &&& 0x1F = 0 then 1 else val &&& 0x1F := by
  split
  · rfl
  · rw [UInt8.and_assoc]; rfl

theorem oneBit_cases : ∀ val : UInt8, val &&& 0x01 = 0 ∨ val &&& 0x01 = 1 :=
  fun ⟨b⟩ => by revert b; decide +kernel

/-- One write keeps the mapper in step with the history. -/
theorem HoldsHistory.write {h : Mbc1History} {m : MbcState} (hh : HoldsHistory h m) (w : UInt16 × UInt8) :
    HoldsHistory (h.write w) (mbcWrite m w.1 w.2) := by
  obtain ⟨addr, val⟩ := w
  obtain ⟨htype, hrom, hbank2, hmode, hram, hlower, hbit, hloaded⟩ := hh
  unfold mbcWrite
  rw [htype]
  dsimp only
  -- by the area: RAM enable, lower bits, upper bits, mode
  unfold mbc1Write Mbc1History.write
  dsimp only
  split
  · exact ⟨htype, hrom, hbank2, hmode, hram, hlower, hbit, hloaded⟩
  split
  · refine ⟨htype, ?_, hbank2, hmode, hram, lowerBits val, hbit, hloaded⟩
    show (m.mbc1Bank2.toUInt16 <<< 5) ||| _ = composeBank h.bank2 _
    rw [hbank2]; rfl
  split
  · rw [hmode]
    split
    · refine ⟨htype, ?_, rfl, rfl, ?_, hlower, hbit, hloaded⟩
      · show ((val &&& 0x03).toUInt16 <<< 5) ||| (m.romBank &&& 0x1F) = _
        rw [hrom, compose_lower hlower]; rfl
      · rename_i h0
        -- in mode 0 no upper bits have been loaded into the RAM bank
        have hnot : h.ramLoaded = false := by
          by_contra hl
          have := hloaded (eq_true_of_ne_false hl)
          rw [h0] at this; cases this
        show m.ramBank = if h.ramLoaded then val &&& 0x03 else 0
        rw [hram, hnot]; rfl
    · rename_i h0
      exact ⟨htype, hrom, rfl, rfl, rfl, hlower, hbit, fun _ => hbit.resolve_left h0⟩
  · rcases oneBit_cases val with h0 | h1
    · rw [h0]
      refine ⟨htype, hrom, hbank2, rfl, ?_, hlower, .inl rfl, ?_⟩
      · show (0 : UInt8) = if (h.ramLoaded && false) = true then _ else _
        rw [Bool.and_false]; rfl
      · intro hl
        have hl : (h.ramLoaded && false) = true := hl
        rw [Bool.and_false] at hl; cases hl
    · rw [h1]
      refine ⟨htype, hrom, hbank2, rfl, ?_, hlower, .inr rfl, fun _ => rfl⟩
      show m.ramBank = if (h.ramLoaded && true) = true then h.bank2 else 0
      rw [Bool.and_true]; exact hram

variable (env) in
/-- A write to the register areas reaches the mapper alone. -/
theorem writeByte_mbc {w : UInt16 × UInt8} (h : w.1 < 0x8000) (b : Bus σ) :
    (writeByte env w.1 w.2 b).mbc = mbcWrite b.mbc w.1 w.2 ∧
      (writeByte env w.1 w.2 b).rom.romBankCount = b.rom.romBankCount := by
  have hlow : w.1 < 0xFF00 := UInt16.lt_of_lt_of_le h (by decide)
  unfold writeByte writeMemory
  rw [if_pos hlow, if_pos h]
  refine ⟨rfl, ?_⟩
  unfold writeMBC refreshMappedRomBanks
  dsimp only
  split <;> rfl

variable (env) in
theorem guestWrites_holds : ∀ (ws : List (UInt16 × UInt8)) {h : Mbc1History} {b : Bus σ},
    (∀ w ∈ ws, w.1 < 0x8000) →
    HoldsHistory h b.mbc → HoldsHistory (ws.foldl Mbc1History.write h) (guestWrites env ws b).mbc ∧
      (guestWrites env ws b).rom.romBankCount = b.rom.romBankCount
  | [], _, _, _, hh => ⟨hh, rfl⟩
  | w :: ws, h, b, hw, hh => by
    obtain ⟨hmbc, hcount⟩ := writeByte_mbc env (hw w List.mem_cons_self) b
    have hstep : HoldsHistory (h.write w) (writeByte env w.1 w.2 b).mbc := by rw [hmbc]; exact hh.write w
    obtain ⟨hh', hcount'⟩ := guestWrites_holds ws (fun w' hw' => hw w' (List.mem_cons_of_mem _ hw')) hstep
    exact ⟨hh', hcount'.trans hcount⟩

/-! ## When the last values decide the mapping -/

/-- The bits in force at the last composition select the bank that the last upper bits select. -/
def SameHighBank (h : Mbc1History) (count : Nat) : Prop :=
  (composeBank h.composed h.bank1).toNat % count = (composeBank h.bank2 h.bank1).toNat % count

/-- The RAM bank register holds what the mode and the upper bits select: mode 0, no upper bits, or
upper bits written in the mode that selects RAM banks. -/
def RamBankLoaded (h : Mbc1History) : Prop := h.mode = 0 ∨ h.bank2 = 0 ∨ h.ramLoaded = true

theorem mapsAsLast_iff {h : Mbc1History} {b : Bus σ} (hh : HoldsHistory h b.mbc) :
    MapsAsLast h b ↔ SameHighBank h b.rom.romBankCount ∧ RamBankLoaded h := by
  have hlow : lowVisible b = (if h.mode = 1 then h.bank2.toNat <<< 5 else 0) % b.rom.romBankCount := by
    unfold lowVisible lowBank
    rw [hh.mode, hh.bank2]
    simp only [hh.mbcType, true_and]
  have hhigh : highVisible b = (composeBank h.composed h.bank1).toNat % b.rom.romBankCount := by
    unfold highVisible; rw [hh.romBank]
  have hram : (ramVisible b = if h.mode = 1 then h.bank2 else 0) ↔ RamBankLoaded h := by
    unfold ramVisible RamBankLoaded
    rw [hh.ramBank]
    cases hl : h.ramLoaded with
    | true => simp [hh.loaded hl]
    | false =>
      rcases hh.oneBit with h0 | h1
      · simp [h0]
      · simp [h1, eq_comm]
  refine ⟨fun hm => ⟨hhigh.symm.trans hm.high, hram.mp hm.ram⟩,
    fun hc => ⟨hhigh.trans hc.1, hlow, hram.mpr hc.2⟩⟩

/-- An MBC1 cartridge whose mapper is as reset leaves it. -/
def FreshMbc1 (b : Bus σ) : Prop := b.mbc = { mbcType := .mbc1 }

theorem FreshMbc1.holds {b : Bus σ} (h : FreshMbc1 b) : HoldsHistory {} b.mbc := by
  unfold FreshMbc1 at h
  rw [h]
  exact ⟨rfl, rfl, rfl, rfl, rfl, rfl, .inl rfl, fun h => Bool.noConfusion h⟩

/-- After any sequence of writes to the MBC1 registers, the banks in the two ROM windows and the RAM
bank are those of the last values of the registers if and only if the ROM bank was last composed with
upper bits that select the same bank, and the RAM bank register was loaded if it had to be. -/
theorem mbc1_maps_as_last (env : Env σ) (b : Bus σ) (hb : FreshMbc1 b) (ws : List (UInt16 × UInt8))
    (hw : ∀ w ∈ ws, w.1 < 0x8000) : MapsAsLast (mbc1History ws) (guestWrites env ws b) ↔
      SameHighBank (mbc1History ws) b.rom.romBankCount ∧ RamBankLoaded (mbc1History ws) := by
  obtain ⟨hh, hcount⟩ := guestWrites_holds env ws hw hb.holds
  rw [← hcount]
  exact mapsAsLast_iff hh

/-! ## Upper bits written in mode 1 -/

/-- A 64 bank MBC1 cartridge at power on. -/
def mbc1Setup : Setup := { data := some ⟨0x100000, fun i => if i = 0x147 then 1 else 0⟩, size := 0x100000 }

def mbc1Bus : Bus Unit := ((powerOn mbc1Setup).getD {}).bus

/-- Upper bits written in mode 1, and then the lower bits. -/
theorem mbc1_maps_as_last_mode1 :
    MapsAsLast (mbc1History [(0x6000, 1), (0x4000, 2), (0x2000, 5)])
      (guestWrites blankEnv [(0x6000, 1), (0x4000, 2), (0x2000, 5)] mbc1Bus) :=
  (mbc1_maps_as_last blankEnv mbc1Bus rfl _ (by simp)).mpr ⟨rfl, .inr (.inr rfl)⟩

/-- Selecting mode 1 and then upper bits 1 leaves bank 1 in the high window, where the same two values
in the other order leave bank 33. -/
theorem mode1_order : ¬ ∀ (env : Env Unit) (b : Bus Unit), FreshMbc1 b → ∀ ws : List (UInt16 × UInt8),
    (∀ w ∈ ws, w.1 < 0x8000) → MapsAsLast (mbc1History ws) (guestWrites env ws b) := by
  intro h
  have hhigh := (h blankEnv mbc1Bus rfl [(0x6000, 1), (0x4000, 1)] (by simp)).high
  exact absurd hhigh (by decide)

end FoloGameboy

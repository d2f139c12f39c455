/-
The registers of the sound chip. Whatever is written to them, and however often the chip is called in
between, no call faults: every write keeps the invariant of the channels.
-/
import FoloGameboy.Apu.Mix

namespace FoloGameboy

/-! ## Addresses -/

def SoundAddr (addr : UInt16) : Prop := 0xFF10 ≤ addr ∧ addr ≤ 0xFF3F

instance (addr : UInt16) : Decidable (SoundAddr addr) := inferInstanceAs (Decidable (_ ∧ _))

theorem SoundAddr.index {addr : UInt16} (h : SoundAddr addr) : (addr - 0xFF10).toNat < 0x30 := by
  have hhigh := UInt16.le_iff_toNat_le.1 h.2
  have hbase : (0xFF10 : UInt16).toNat = 0xFF10 := rfl
  have htop : (0xFF3F : UInt16).toNat = 0xFF3F := rfl
  rw [UInt16.toNat_sub_of_le _ _ h.1]
  omega

/-- The registers of the channels belong to channels that exist. -/
theorem volume_channel {addr : UInt16} (h : addr ∈ [0xFF12, 0xFF17, 0xFF21]) :
    ∃ i, regChannel addr = some i ∧ i ≠ 2 := by
  simp only [List.mem_cons, List.not_mem_nil, or_false] at h
  rcases h with rfl | rfl | rfl
  · exact ⟨0, by decide, by decide⟩
  · exact ⟨1, by decide, by decide⟩
  · exact ⟨3, by decide, by decide⟩

theorem duty_channel {addr : UInt16} (h : addr ∈ [0xFF11, 0xFF16, 0xFF20]) :
    ∃ i, regChannel addr = some i ∧ i ≠ 2 := by
  simp only [List.mem_cons, List.not_mem_nil, or_false] at h
  rcases h with rfl | rfl | rfl
  · exact ⟨0, by decide, by decide⟩
  · exact ⟨1, by decide, by decide⟩
  · exact ⟨3, by decide, by decide⟩

theorem freqLow_channel {addr : UInt16} (h : addr ∈ [0xFF13, 0xFF18, 0xFF1D]) :
    ∃ i, regChannel addr = some i ∧ i ≠ 3 := by
  simp only [List.mem_cons, List.not_mem_nil, or_false] at h
  rcases h with rfl | rfl | rfl
  · exact ⟨0, by decide, by decide⟩
  · exact ⟨1, by decide, by decide⟩
  · exact ⟨2, by decide, by decide⟩

theorem freqHigh_channel {addr : UInt16} (h : addr ∈ [0xFF14, 0xFF19, 0xFF1E]) :
    ∃ i, regChannel addr = some i ∧ i ≠ 3 := by
  simp only [List.mem_cons, List.not_mem_nil, or_false] at h
  rcases h with rfl | rfl | rfl
  · exact ⟨0, by decide, by decide⟩
  · exact ⟨1, by decide, by decide⟩
  · exact ⟨2, by decide, by decide⟩

/-! ## Bytes -/

theorem and_le (x mask : UInt8) : (x &&& mask).toNat ≤ mask.toNat := by
  rw [UInt8.toNat_and]
  exact Nat.and_le_right

theorem shift_four (x : UInt8) : (x >>> 4).toNat ≤ 15 :=
  forall_byte (P := fun x => (x >>> 4).toNat ≤ 15) (by decide +kernel) x

theorem shift_six (x : UInt8) : (x >>> 6).toNat ≤ 3 :=
  forall_byte (P := fun x => (x >>> 6).toNat ≤ 3) (by decide +kernel) x

/-- A frequency keeps its range when its low byte is written. -/
theorem freqLow_le {freq : UInt16} (h : freq.toNat ≤ 2047) (val : UInt8) :
    ((freq &&& 0xFF00) ||| val.toUInt16).toNat ≤ 2047 := by
  have hhigh : (freq &&& 0xFF00).toNat < 2 ^ 11 := by
    rw [UInt16.toNat_and]
    exact Nat.lt_of_le_of_lt Nat.and_le_left (by omega)
  have hlow : val.toUInt16.toNat < 2 ^ 11 := by
    rw [UInt8.toNat_toUInt16]
    exact Nat.lt_trans val.toNat_lt (by decide)
  rw [UInt16.toNat_or]
  exact Nat.le_of_lt_succ (Nat.or_lt_two_pow hhigh hlow)

/-- Writing the high bits brings any frequency in range. -/
theorem freqHigh_le (freq : UInt16) (val : UInt8) :
    ((freq &&& 0x00FF) ||| ((val &&& 0x07).toUInt16 <<< (8 : UInt16))).toNat ≤ 2047 := by
  have hlow : (freq &&& 0x00FF).toNat < 2 ^ 11 := by
    rw [UInt16.toNat_and]
    exact Nat.lt_of_le_of_lt Nat.and_le_right (by decide)
  have hhigh : ((val &&& 0x07).toUInt16 <<< 8).toNat < 2 ^ 11 :=
    forall_byte (P := fun v => ((v &&& 0x07).toUInt16 <<< 8).toNat < 2 ^ 11) (by decide +kernel) val
  rw [UInt16.toNat_or]
  exact Nat.le_of_lt_succ (Nat.or_lt_two_pow hlow hhigh)

/-! ## Channel registers -/

theorem volumeMax_of_ne {i : Fin 4} (h : i ≠ 2) : volumeMax i = 15 := if_neg h

theorem freqMax_of_ne {i : Fin 4} (h : i ≠ 3) : freqMax i = 2047 := if_neg h

theorem writeVolume_ok {i : Fin 4} (hi : i ≠ 2) (val : UInt8) {c : Chan} (h : ChanOK i c) :
    ChanOK i (writeVolume val c) := by
  have hinit : ChanOK i { c with volumeInit := val >>> 4, powered := decide (val >>> 3 ≠ 0) } :=
    { h with volumeInit := Nat.le_trans (shift_four val) (Nat.le_of_eq (volumeMax_of_ne hi).symm) }
  unfold writeVolume zombieVolume
  split
  · exact { hinit with volume := Nat.le_trans (and_le _ 0x0F) (Nat.le_of_eq (volumeMax_of_ne hi).symm) }
  · exact hinit

theorem writeDuty_defined {i : Fin 4} (val : UInt8) {c : Chan} (h : ChanOK i c) :
    Defined (writeDuty val c) (ChanOK i) := by
  have hlt : (val >>> 6).toNat < dutyLookup.length := Nat.lt_of_le_of_lt (shift_six val) (by decide)
  unfold writeDuty
  rw [List.getElem?_eq_getElem hlt]
  exact .pure { h with load := fun _ => and_le val 0x3f }

theorem incLut_bounds : ∀ k < 8, (incLut[k]?).any (fun d => d.toNat ≤ 6720) = true := by decide

theorem triggerEnv_defined {i : Fin 4} (val : UInt8) {c : Chan} (h : ChanOK i c) :
    Defined (triggerEnv val c) fun c' => ChanOK i c' ∧ c'.freq = c.freq := by
  obtain ⟨d, hlut, hd⟩ := (Option.any_eq_true _ _).1 (incLut_bounds _ (Nat.lt_succ_of_le (and_le val 0x7)))
  unfold triggerEnv
  dsimp only
  rw [hlut]
  exact .pure ⟨{ h with env := ⟨Nat.zero_le _, of_decide_eq_true hd⟩ }, rfl⟩

theorem sweepInc_defined {rate : UInt8} (h : rate.toNat ≤ 7) :
    Defined (if rate = 0 then some 0 else cDiv (128 * FREQ_INC_REF) (rate.toUInt32 * 16000)) fun inc =>
      inc.toNat ≤ 13440 := by
  split
  · exact .pure (by decide)
  · rename_i hne
    have hpos : 1 ≤ rate.toNat := Nat.pos_of_ne_zero fun hz => hne (UInt8.toNat_inj.1 hz)
    have hmul : (rate.toUInt32 * 16000).toNat = rate.toNat * 16000 := by
      rw [UInt32.toNat_mul, UInt8.toNat_toUInt32]
      show rate.toNat * 16000 % 4294967296 = _
      exact Nat.mod_eq_of_lt (by omega)
    have hzero : rate.toUInt32 * 16000 ≠ 0 := fun hz => by
      rw [hz] at hmul
      have hnum : (0 : UInt32).toNat = 0 := rfl
      omega
    unfold cDiv
    rw [if_neg hzero]
    refine .pure ?_
    rw [UInt32.toNat_div, hmul]
    exact Nat.div_le_of_le_mul (Nat.le_trans (by decide : _ ≤ 16000 * 13440) (Nat.mul_le_mul_right 13440 (by omega)))

theorem triggerSweep_defined (val : UInt8) {c : Chan} (h : ChanOK 0 c) : Defined (triggerSweep val c) (ChanOK 0) := by
  unfold triggerSweep
  refine .bind (sweepInc_defined (and_le (val >>> 4) 0x07)) fun inc hinc => ?_
  exact .pure { h with
    sweep := ⟨Nat.le_refl _, hinc⟩
    shift := and_le val 0x07 }

theorem triggerWave_ok {i : Fin 4} {c : Chan} (h : ChanOK i c) : ChanOK i (triggerWave i c) := by
  unfold triggerWave
  split
  · rename_i hi
    subst hi
    have hval : LevelOK 2 0 := ⟨by decide, by decide⟩
    exact { h with val := hval }
  · split
    · rename_i hi
      subst hi
      have hval : LevelOK 3 LEVEL_LOW := ⟨by decide, by decide⟩
      exact { h with val := hval }
    · exact h

theorem triggerLen_defined {i : Fin 4} {c : Chan} (h : ChanOK i c) : Defined (triggerLen i c) (ChanOK i) := by
  have hload : c.len.load.toUInt32.toNat < (lenMax i).toNat := by
    rw [UInt8.toNat_toUInt32]
    unfold lenMax
    split
    · exact c.len.load.toNat_lt
    · rename_i hi
      exact Nat.lt_succ_of_le (h.load hi)
  have hmax : (lenMax i).toNat ≤ 256 := by
    unfold lenMax
    split <;> decide
  have hsub : (lenMax i - c.len.load.toUInt32).toNat = (lenMax i).toNat - c.len.load.toUInt32.toNat :=
    UInt32.toNat_sub_of_le _ _ (UInt32.le_iff_toNat_le.2 (Nat.le_of_lt hload))
  have hmul : (16000 * (lenMax i - c.len.load.toUInt32)).toNat
      = 16000 * ((lenMax i).toNat - c.len.load.toUInt32.toNat) := by
    rw [UInt32.toNat_mul, hsub]
    show 16000 * _ % 4294967296 = _
    exact Nat.mod_eq_of_lt (by omega)
  have hzero : 16000 * (lenMax i - c.len.load.toUInt32) ≠ 0 := fun hz => by
    rw [hz] at hmul
    have hnum : (0 : UInt32).toNat = 0 := rfl
    omega
  unfold triggerLen cDiv
  rw [if_neg hzero]
  refine .pure { h with len := ⟨Nat.zero_le _, ?_⟩ }
  show (256 * FREQ_INC_REF / _ : UInt32).toNat ≤ 26880
  rw [UInt32.toNat_div, hmul]
  exact Nat.div_le_of_le_mul (Nat.le_trans (by decide : _ ≤ 16000 * 26880) (Nat.mul_le_mul_right 26880 (by omega)))

theorem chanTrigger_defined {i : Fin 4} {a : Apu} (h : ApuOK a) (hfreq : (a.chans i).freq.toNat ≤ freqMax i) :
    Defined (chanTrigger i a) ApuOK := by
  obtain ⟨a₁, hen, hc, honly⟩ := chanEnable_eq h.audioMem i true
  have hok : ChanOK i (a₁.chans i) := by
    rw [hc]
    exact (h.chans i).enable true fun _ => hfreq
  have hsize := (honly.ok h hok).audioMem
  have hstart : ChanOK i { a₁.chans i with volume := (a₁.chans i).volumeInit } := { hok with volume := hok.volumeInit }
  have henv : 0x02 + i.val * 5 < a₁.audioMem.size := by
    rw [hsize]
    unfold AUDIO_MEM_SIZE
    omega
  have hsweep : 0x00 < a₁.audioMem.size := by
    rw [hsize]
    decide
  unfold chanTrigger
  simp only [hen, Option.bind_eq_bind, Option.bind_some, Buffer.load_eq henv, Buffer.load_eq hsweep]
  refine .bind (triggerEnv_defined _ hstart) fun c hc => ?_
  have hsw : Defined (if i = 0 then triggerSweep (a₁.audioMem.get 0) c else some c) (ChanOK i) := by
    split
    · rename_i hi
      subst hi
      exact triggerSweep_defined _ hc.1
    · exact .pure hc.1
  refine .bind hsw fun c hc => ?_
  refine .bind (triggerLen_defined (triggerWave_ok hc)) fun c hc => ?_
  exact .pure ((honly.ok h hok).setChan hc)

theorem writeControl_defined {i : Fin 4} (val : UInt8) {a : Apu} (h : ApuOK a)
    (hfreq : (a.chans i).freq.toNat ≤ freqMax i) : Defined (writeControl i val a) ApuOK := by
  have hset : ApuOK (a.setChan i { a.chans i with len := { (a.chans i).len with enabled := hasBits val 0x40 } }) :=
    h.setChan { h.chans i with }
  unfold writeControl
  dsimp only
  split
  · refine chanTrigger_defined hset ?_
    rw [setChan_self]
    exact hfreq
  · exact .pure hset

theorem writePanning_ok (val : UInt8) {a : Apu} (h : ApuOK a) : ApuOK (writePanning val a) :=
  { h with chans := fun j => { h.chans j with onLeft := and_le _ 1, onRight := and_le _ 1 } }

/-! ## Writes -/

theorem writePower_defined (val : UInt8) {a : Apu} (h : ApuOK a) : Defined (writePower val a) ApuOK := by
  have hin : 0x16 < a.audioMem.size := by
    rw [h.audioMem]
    decide
  unfold writePower
  refine .bind (P := fun audioMem => audioMem.size = AUDIO_MEM_SIZE)
    (.of_eq (Buffer.put_eq hin (val &&& 0x80)) ((Buffer.size_set _ _ _).trans h.audioMem))
    fun audioMem hsize => ?_
  split
  · have hclear : 0 + 0x16 ≤ audioMem.size := by
      rw [hsize]
      decide
    refine .bind (P := fun audioMem => audioMem.size = AUDIO_MEM_SIZE)
      (.of_eq (Buffer.copy_eq hclear _) ((Buffer.size_blit _ _ _ _).trans hsize))
      fun audioMem hsize => ?_
    exact .pure { h with chans := fun i => (h.chans i).enable false nofun, audioMem := hsize }
  · exact .pure { h with audioMem := hsize }

theorem writeRegister_defined (addr : UInt16) (val : UInt8) {a : Apu} (h : ApuOK a) :
    Defined (writeRegister addr val a) ApuOK := by
  unfold writeRegister
  refine .ite (fun haddr => ?_) fun _ => ?_
  · obtain ⟨i, hi, hne⟩ := volume_channel haddr
    rw [hi]
    exact .pure (h.setChan (writeVolume_ok hne val (h.chans i)))
  refine .ite (fun haddr => ?_) fun _ => ?_
  · subst haddr
    have hvol : ((val >>> 5) &&& 0x03).toNat ≤ volumeMax 2 := and_le _ 0x03
    exact .pure (h.setChan { h.chans 2 with volume := hvol, volumeInit := hvol })
  refine .ite (fun haddr => ?_) fun _ => ?_
  · obtain ⟨i, hi, hne⟩ := duty_channel haddr
    rw [hi]
    show Defined (writeDuty val (a.chans i) >>= _) ApuOK
    refine .bind (writeDuty_defined val (h.chans i)) fun c hc => ?_
    exact .pure (h.setChan hc)
  refine .ite (fun haddr => ?_) fun _ => ?_
  · subst haddr
    exact .pure (h.setChan { h.chans 2 with load := fun hne => absurd rfl hne })
  refine .ite (fun haddr => ?_) fun _ => ?_
  · obtain ⟨i, hi, hne⟩ := freqLow_channel haddr
    rw [hi]
    refine .pure (h.setChan { h.chans i with freq := fun hon => ?_ })
    have hle := (h.chans i).freq hon
    rw [freqMax_of_ne hne] at hle ⊢
    exact freqLow_le hle val
  refine .ite (fun haddr => ?_) fun _ => ?_
  · subst haddr
    have hset : ApuOK (a.setChan 2 { a.chans 2 with powered := hasBits val 0x80 }) := h.setChan { h.chans 2 with }
    obtain ⟨a', hen, hc, honly⟩ := chanEnable_eq hset.audioMem 2 (hasBits val 0x80)
    refine .of_eq hen (honly.ok hset ?_)
    rw [hc]
    exact (hset.chans 2).enable _ fun _ => (hset.chans 2).freq fun h => absurd h (by decide)
  refine .ite (fun haddr => ?_) fun _ => ?_
  · obtain ⟨i, hi, hne⟩ := freqHigh_channel haddr
    rw [hi]
    have hfreq := freqHigh_le (a.chans i).freq val
    rw [← freqMax_of_ne hne] at hfreq
    refine writeControl_defined val (h.setChan { h.chans i with freq := fun _ => hfreq }) ?_
    rw [setChan_self]
    exact hfreq
  refine .ite (fun haddr => ?_) fun _ => ?_
  · subst haddr
    exact writeControl_defined (i := 3) val h ((h.chans 3).freq fun h => absurd h (by decide))
  refine .ite (fun _ => ?_) fun _ => ?_
  · have hfreq : (val >>> 4).toUInt16.toNat ≤ freqMax 3 := by
      rw [UInt8.toNat_toUInt16]
      exact shift_four val
    exact .pure (h.setChan { h.chans 3 with freq := fun _ => hfreq, lfsrDiv := fun _ => and_le val 0x07 })
  refine .ite (fun _ => ?_) fun _ => ?_
  · have hL := and_le (val >>> 4) 0x07
    have hR := and_le val 0x07
    have hseven : (0x07 : UInt8).toNat = 7 := rfl
    exact .pure { h with
      volL := ⟨Int.natCast_nonneg _, by show (((val >>> 4) &&& 0x07).toNat : Int) ≤ 7; omega⟩
      volR := ⟨Int.natCast_nonneg _, by show ((val &&& 0x07).toNat : Int) ≤ 7; omega⟩ }
  refine .ite (fun _ => ?_) fun _ => ?_
  · exact .pure (writePanning_ok val h)
  · exact .pure h

/-- A write to a sound register, at any time and of any byte. -/
theorem audioWrite_defined {addr : UInt16} (haddr : SoundAddr addr) (val : UInt8) {a : Apu} (h : ApuOK a) :
    Defined (minigbApuAudioWrite addr val a) ApuOK := by
  have hpower : 0x16 < a.audioMem.size := by
    rw [h.audioMem]
    decide
  have hin : (addr - 0xFF10).toNat < a.audioMem.size := by
    rw [h.audioMem]
    exact haddr.index
  unfold minigbApuAudioWrite
  split
  · exact writePower_defined val h
  · simp only [Buffer.load_eq hpower, Option.bind_eq_bind, Option.bind_some]
    split
    · exact .pure h
    · rw [Buffer.put_eq hin]
      exact writeRegister_defined addr val { h with audioMem := (Buffer.size_set _ _ _).trans h.audioMem }

theorem audioRead_defined {addr : UInt16} (haddr : SoundAddr addr) {a : Apu} (h : ApuOK a) :
    Defined (minigbApuAudioRead addr a) fun _ => True := by
  have hin : (addr - 0xFF10).toNat < a.audioMem.size := by
    rw [h.audioMem]
    exact haddr.index
  have hmask : (addr - 0xFF10).toNat < ortab.length := Nat.lt_of_lt_of_eq haddr.index rfl
  unfold minigbApuAudioRead
  rw [Buffer.load_eq hin, List.getElem?_eq_getElem hmask]
  exact .pure trivial

/-! ## Runs -/

theorem writeAll_defined {addr : UInt16} {bytes : List UInt8} (haddr : ∀ k < bytes.length, SoundAddr (addr + .ofNat k))
    {a : Apu} (h : ApuOK a) : Defined (writeAll addr bytes a) ApuOK := by
  refine Defined.foldlM (fun a ha b hb => audioWrite_defined (haddr b.2 ?_) b.1 ha) h
  have hmem := List.snd_lt_of_mem_zipIdx hb
  omega

/-- A cleared channel. -/
theorem newChan_ok (i : Fin 4) {val : Int} (hval : LevelOK i val) : ChanOK i { val := val } where
  onLeft := Nat.zero_le _
  onRight := Nat.zero_le _
  volume := Nat.zero_le _
  volumeInit := Nat.zero_le _
  freq _ := Nat.zero_le _
  freqCounter := Nat.zero_le _
  val := hval
  load _ := Nat.zero_le _
  len := ⟨Nat.zero_le _, Nat.zero_le _⟩
  env := ⟨Nat.zero_le _, Nat.zero_le _⟩
  sweep := ⟨Nat.zero_le _, Nat.zero_le _⟩
  shift := Nat.zero_le _
  lfsrDiv _ := Nat.zero_le _

theorem audioInit_defined {a : Apu} (hL : 0 ≤ a.volL ∧ a.volL ≤ 7) (hR : 0 ≤ a.volR ∧ a.volR ≤ 7)
    (hsize : a.audioMem.size = AUDIO_MEM_SIZE) : Defined (minigbApuAudioInit a) ApuOK := by
  have hstart : ApuOK { a with chans := fun i => if i.val ≤ 1 then { val := -1 } else {} } := {
    chans := fun i => by
      show ChanOK i (if i.val ≤ 1 then { val := -1 } else {})
      split
      · rename_i hi
        refine newChan_ok i (levelOK_of_bounds ?_ (by decide))
        rintro rfl
        exact absurd hi (by decide)
      · refine newChan_ok i ?_
        unfold LevelOK
        split <;> decide
    volL := hL
    volR := hR
    audioMem := hsize }
  unfold minigbApuAudioInit
  refine .bind (writeAll_defined (by decide +kernel) hstart) fun a ha => ?_
  exact writeAll_defined (by decide +kernel) ha

/-- What the emulator and the audio output call. -/
inductive ApuOp where
  | write (addr : UInt16) (val : UInt8)
  | read (addr : UInt16)
  | callback

def ApuOp.InRange : ApuOp → Prop
  | .write addr _ => SoundAddr addr
  | .read addr => SoundAddr addr
  | .callback => True

def apuStep (op : ApuOp) (a : Apu) : Option Apu :=
  match op with
  | .write addr val => minigbApuAudioWrite addr val a
  | .read addr => (minigbApuAudioRead addr a).map fun _ => a
  | .callback => (minigbApuAudioCallback a).map Prod.snd

/-- A new chip, initialised and then used. -/
def runApu (ops : List ApuOp) : Option Apu :=
  (minigbApuAudioInit {}).bind fun a => ops.foldlM (fun a op => apuStep op a) a

theorem apuStep_defined {op : ApuOp} (hop : op.InRange) {a : Apu} (h : ApuOK a) : Defined (apuStep op a) ApuOK := by
  cases op with
  | write addr val => exact audioWrite_defined hop val h
  | read addr => exact (audioRead_defined hop h).map fun _ _ => h
  | callback =>
    obtain ⟨v₀, v₁, v₂, v₃, a₀, a₁, a₂, a₃, -, -, -, h₃, hrun⟩ := callback_sounds h
    exact Defined.map (P := fun r => ApuOK r.2) (.of_eq hrun h₃.ok) fun _ h => h

theorem runApu_defined {ops : List ApuOp} (hops : ∀ op ∈ ops, op.InRange) : Defined (runApu ops) ApuOK :=
  .bind (audioInit_defined ⟨by decide, by decide⟩ ⟨by decide, by decide⟩ rfl) fun _ ha =>
    Defined.foldlM (fun _ ha op hop => apuStep_defined (hops op hop) ha) ha

/-- No sequence of register accesses and calls makes the chip fault: no index leaves its array, nothing is
divided by zero, no `int` overflows and every loop ends. -/
theorem apu_never_faults {ops : List ApuOp} (hops : ∀ op ∈ ops, op.InRange) :
    ∃ a, runApu ops = some a ∧ ApuOK a ∧
      (∀ addr, SoundAddr addr → (minigbApuAudioRead addr a).isSome = true) ∧
      ∃ out a', minigbApuAudioCallback a = some (out, a') ∧ out.length = AUDIO_SAMPLES ∧ ∀ s ∈ out, s.IsInt16 := by
  obtain ⟨a, hrun, hok⟩ := runApu_defined hops
  obtain ⟨v₀, v₁, v₂, v₃, a₀, a₁, a₂, a₃, h₀, h₁, h₂, h₃, hcall⟩ := callback_sounds hok
  refine ⟨a, hrun, hok, fun addr haddr => (audioRead_defined haddr hok).isSome, _, a₃, hcall, ?_, map_wrap_isInt16 _⟩
  rw [List.length_map]
  exact length_zipWith_plus (length_zipWith_plus (length_zipWith_plus h₀.length h₁.length) h₂.length) h₃.length

/-- A sweeping channel, the wave channel with its longest length, and two calls. -/
theorem apu_never_faults_sweep : ∃ a, runApu [.write 0xFF10 0x71, .write 0xFF12 0xF3, .write 0xFF14 0x87, .callback,
    .write 0xFF1A 0x80, .write 0xFF1B 0xFF, .write 0xFF1E 0xC7, .callback, .read 0xFF26] = some a ∧ ApuOK a ∧
      (∀ addr, SoundAddr addr → (minigbApuAudioRead addr a).isSome = true) ∧
      ∃ out a', minigbApuAudioCallback a = some (out, a') ∧ out.length = AUDIO_SAMPLES ∧ ∀ s ∈ out, s.IsInt16 :=
  apu_never_faults (by simp [ApuOp.InRange, SoundAddr])

/-- Up to master volume 6 a call returns the exact sum of what its four channels play alone; above, the sum
is taken modulo 2^16. -/
theorem apu_mix_exact {ops : List ApuOp} (hops : ∀ op ∈ ops, op.InRange) {a : Apu} (h : runApu ops = some a) :
    ∃ v₀ v₁ v₂ v₃ a', Voices a a' v₀ v₁ v₂ v₃ ∧
      minigbApuAudioCallback a = some ((voiceSum v₀ v₁ v₂ v₃).map StereoSample.wrap, a') ∧
      (a.volL ≤ 6 → a.volR ≤ 6 → minigbApuAudioCallback a = some (voiceSum v₀ v₁ v₂ v₃, a') ∧
        ∀ s ∈ voiceSum v₀ v₁ v₂ v₃, (-30690 ≤ s.left ∧ s.left ≤ 29154) ∧ -30690 ≤ s.right ∧ s.right ≤ 29154) := by
  have hok := (runApu_defined hops).of_some h
  obtain ⟨v₀, v₁, v₂, v₃, a₀, a₁, a₂, a₃, h₀, h₁, h₂, h₃, hcall⟩ := callback_sounds hok
  refine ⟨v₀, v₁, v₂, v₃, a₃, ⟨a₀, a₁, a₂, h₀.alone hok, h₁.alone h₀.ok, h₂.alone h₁.ok, h₃.alone h₂.ok⟩, hcall,
    fun hL hR => ?_⟩
  have hbound : ∀ s ∈ voiceSum v₀ v₁ v₂ v₃,
      (-30690 ≤ s.left ∧ s.left ≤ 29154) ∧ -30690 ≤ s.right ∧ s.right ≤ 29154 := fun s hs => by
    have hwithin := voiceSum_within h₀ h₁ h₂ h₃ s hs
    have hL0 := hok.volL.1
    have hR0 := hok.volR.1
    obtain ⟨⟨hl₁, hl₂⟩, hr₁, hr₂⟩ := hwithin
    refine ⟨⟨?_, ?_⟩, ?_, ?_⟩ <;> omega
  have hwrap : (voiceSum v₀ v₁ v₂ v₃).map StereoSample.wrap = voiceSum v₀ v₁ v₂ v₃ := by
    refine (List.map_congr_left fun s hs => ?_).trans (List.map_id' _)
    obtain ⟨⟨hl₁, hl₂⟩, hr₁, hr₂⟩ := hbound s hs
    exact StereoSample.wrap_eq ⟨⟨by omega, by omega⟩, by omega, by omega⟩
  rw [hcall, hwrap]
  exact ⟨rfl, hbound⟩

/-- Square channel 2 on the left at master volume 6. -/
theorem apu_mix_exact_square :
    ∃ a, runApu [.write 0xFF24 0x66, .write 0xFF25 0x20, .write 0xFF17 0xF0, .write 0xFF19 0x87] = some a ∧
    ∃ v₀ v₁ v₂ v₃ a', Voices a a' v₀ v₁ v₂ v₃ ∧
      minigbApuAudioCallback a = some ((voiceSum v₀ v₁ v₂ v₃).map StereoSample.wrap, a') ∧
      (a.volL ≤ 6 → a.volR ≤ 6 → minigbApuAudioCallback a = some (voiceSum v₀ v₁ v₂ v₃, a') ∧
        ∀ s ∈ voiceSum v₀ v₁ v₂ v₃, (-30690 ≤ s.left ∧ s.left ≤ 29154) ∧ -30690 ≤ s.right ∧ s.right ≤ 29154) := by
  have hops : ∀ op ∈ [ApuOp.write 0xFF24 0x66, .write 0xFF25 0x20, .write 0xFF17 0xF0, .write 0xFF19 0x87],
      op.InRange := by
    simp [ApuOp.InRange, SoundAddr]
  obtain ⟨a, hrun, -⟩ := runApu_defined hops
  exact ⟨a, hrun, apu_mix_exact hops hrun⟩

end FoloGameboy

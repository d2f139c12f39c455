/-
The battery side of `gb_port`: the SRAM and the clock of a session as the save files read and set
them, and the dirty flag.
-/
import FoloGameboy.Port.Session

namespace FoloGameboy

variable {σ : Type}

/-! ## The dirty flag -/

def gbPortSramSize (s : Session σ) : Nat := s.core.bus.mem.sramPersistSize

def gbPortHasBattery (s : Session σ) : Bool := s.battery

def gbPortNeedsSave (s : Session σ) : Bool := s.battery && (s.rtc || s.core.bus.mem.sramDirty)

def withMem (m : Memory) (s : Session σ) : Session σ :=
  { s with core := { s.core with bus := { s.core.bus with mem := m } } }

def withRtc (r : Rtc) (s : Session σ) : Session σ :=
  { s with core := { s.core with bus := { s.core.bus with rtc := r } } }

def gbPortMarkSaved (s : Session σ) : Session σ := withMem { s.core.bus.mem with sramDirty := false } s

/-! ## SRAM -/

def inSram (m : Memory) (offset bytes : Nat) : Bool := offset ≤ m.sramPersistSize && bytes ≤ m.sramPersistSize - offset

def gbPortReadSram (offset bytes : Nat) (s : Session σ) : Option (List UInt8) :=
  if inSram s.core.bus.mem offset bytes then some (s.core.bus.mem.sramData.slice offset bytes) else none

/-- Import bytes; the dirty flag is raised only when they differ from what is there. -/
def gbPortWriteSram (offset : Nat) (src : List UInt8) (s : Session σ) : Option (Session σ) :=
  let m := s.core.bus.mem
  if inSram m offset src.length then
    if m.sramData.slice offset src.length ≠ src then
      some (withMem { m with sramData := m.sramData.blit offset src.length fun i => src.getD i 0, sramDirty := true } s)
    else some s
  else none

/-- Import all of the SRAM at once. -/
def gbPortImportSram (src : List UInt8) (s : Session σ) : Option (Session σ) :=
  let m := s.core.bus.mem
  if src.length = m.sramPersistSize then
    some (withMem { m with sramData := m.sramData.blit 0 src.length fun i => src.getD i 0, sramDirty := true } s)
  else none

/-- The SRAM contents of a session. -/
def sramOf (s : Session σ) : List UInt8 := s.core.bus.mem.sramData.slice 0 (gbPortSramSize s)

/-! ## The clock -/

/-- The clock registers and their latch, as a save file holds them. -/
def rtcBytes (r : Rtc) : List UInt8 := [r.rtcSec, r.rtcMin, r.rtcHour, r.rtcDay, r.rtcDayHi] ++ r.rtcLatched.slice 0 5

def gbPortExportRtc (env : Env σ) (s : Session σ) : List UInt8 × Session σ :=
  let r := tickRTC env s.core.bus.rtc
  (rtcBytes r, withRtc r s)

/-- Set the clock; its anchor is dropped. -/
def gbPortImportRtc (src : List UInt8) (s : Session σ) : Session σ :=
  let r := s.core.bus.rtc
  withRtc { r with
    rtcSec := src.getD 0 0, rtcMin := src.getD 1 0, rtcHour := src.getD 2 0
    rtcDay := src.getD 3 0, rtcDayHi := src.getD 4 0
    rtcLatched := r.rtcLatched.blit 0 5 fun i => src.getD (5 + i) 0
    rtcLastTickMs := 0 } s

/-! ## Laws -/

theorem rtcBytes_length (r : Rtc) : (rtcBytes r).length = 10 := by
  simp [rtcBytes]

/-- An imported clock exports as it was. -/
theorem rtcBytes_import (s : Session σ) {src : List UInt8} (hlen : src.length = 10)
    (hsize : s.core.bus.rtc.rtcLatched.size = 5) :
    rtcBytes (gbPortImportRtc src s).core.bus.rtc = src := by
  have hregs : [src.getD 0 0, src.getD 1 0, src.getD 2 0, src.getD 3 0, src.getD 4 0] = src.take 5 := by
    match src, hlen with
    | [_, _, _, _, _, _, _, _, _, _], _ => rfl
  have hlatched : (s.core.bus.rtc.rtcLatched.blit 0 5 fun i => src.getD (5 + i) 0).slice 0 5 =
      src.drop 5 := by
    refine List.ext_getElem (by rw [Buffer.length_slice, List.length_drop, hlen]) ?_
    intro i h₁ h₂
    rw [Buffer.length_slice] at h₁
    rw [Buffer.getElem_slice, Buffer.get_blit (by omega), if_pos (by omega), List.getElem_drop,
      Nat.zero_add, Nat.sub_zero,
      List.getD_eq_getElem]
  show [src.getD 0 0, src.getD 1 0, src.getD 2 0, src.getD 3 0, src.getD 4 0] ++ Buffer.slice _ 0 5 = src
  rw [hregs]
  exact (congrArg _ hlatched).trans (List.take_append_drop 5 src)

/-! ## A new session -/

/-- The battery side of a session as `gb_port_create` leaves it: SRAM all zero, nothing to save. -/
structure NewBattery (s : Session σ) : Prop where
  size : gbPortSramSize s ≤ s.core.bus.mem.sramData.size
  persist : gbPortSramSize s ∈ [0, 512, 2048, 8192, 32768]
  latch : s.core.bus.rtc.rtcLatched.size = 5
  clean : s.core.bus.mem.sramDirty = false
  zero : sramOf s = List.replicate (gbPortSramSize s) 0

theorem loadRom_battery {data : Option Buffer} {size : Nat} {g g' : GBEmulator σ}
    (h : loadRom data size g = some g') :
    g'.bus.mem.sramPersistSize ≤ g'.bus.mem.sramSize ∧ g'.bus.mem.sramPersistSize ∈
      [0, 512, 2048, 8192, 32768] ∧
      g'.bus.mem.sramDirty = g.bus.mem.sramDirty ∧ g'.bus.rtc = g.bus.rtc := by
  unfold loadRom at h
  dsimp only at h
  split at h
  · cases h
  split at h
  · cases h
  split at h
  · cases h
  rename_i ramSize hram
  have hmem : ramSize ∈ [0, 2048, 8192, 32768, 131072, 65536] := List.mem_of_getElem? hram
  generalize hpersist : (if _ = MBCType.mbc2 then 512 else ramSize) = persist at h
  have hvalues : persist = 512 ∨ persist = ramSize := by
    rw [← hpersist]
    exact ite_eq_or_eq _ _ _
  by_cases hmax : 32768 < persist
  · rw [if_pos hmax] at h
    cases h
  · rw [if_neg hmax] at h
    obtain rfl := Option.some.inj h
    refine ⟨?_, ?_, rfl, rfl⟩
    · show persist ≤ if persist = 0 then 1 else persist
      split <;> omega
    · show persist ∈ _
      simp only [List.mem_cons, List.not_mem_nil, or_false] at hmem ⊢
      omega

theorem init_battery {heap : Bool} {g g' : GBEmulator σ} (h : init heap g = some g') :
    g'.bus.mem.sramPersistSize = g.bus.mem.sramPersistSize ∧ g'.bus.mem.sramDirty = g.bus.mem.sramDirty ∧
      g'.bus.mem.sramData = .fill g.bus.mem.sramSize 0 ∧ g'.bus.rtc = g.bus.rtc := by
  unfold init at h
  split at h
  · cases h
  · obtain rfl := Option.some.inj h
    exact ⟨rfl, rfl, rfl, rfl⟩

theorem prepare_battery (p : Setup) : (prepare p : GBEmulator σ).bus.mem.sramDirty = false ∧
    (prepare p : GBEmulator σ).bus.rtc = {} := by
  unfold prepare
  dsimp only
  split <;> split <;> exact ⟨rfl, rfl⟩

theorem gbPortCreate_battery {env : Env σ} {p : Platform σ} {rom : RomSource} {s : Session σ}
    (h : gbPortCreate env p rom = some s) :
    NewBattery s := by
  unfold gbPortCreate at h
  split at h
  · cases h
  split at h
  · cases h
  split at h
  · cases h
  obtain ⟨g, hg, rfl⟩ := Option.map_eq_some_iff.mp h
  obtain ⟨setup, -, hon⟩ := Option.bind_eq_some_iff.mp hg
  obtain ⟨g₁, hload, hinit⟩ := Option.bind_eq_some_iff.mp hon
  obtain ⟨hle, hmem, hdirty, hrtc⟩ := loadRom_battery hload
  obtain ⟨hpersist, hdirty', hdata, hrtc'⟩ := init_battery hinit
  obtain ⟨hclean, hnew⟩ := prepare_battery (σ := σ) setup
  have hsize : g.bus.mem.sramData.size = g₁.bus.mem.sramSize := by
    rw [hdata]
    rfl
  have hget : ∀ i, g.bus.mem.sramData.get i = 0 := by
    intro i
    rw [hdata]
    unfold Buffer.get Buffer.fill
    split <;> rfl
  constructor
  · show g.bus.mem.sramPersistSize ≤ g.bus.mem.sramData.size
    rw [hsize, hpersist]
    exact hle
  · show g.bus.mem.sramPersistSize ∈ _
    rw [hpersist]
    exact hmem
  · show g.bus.rtc.rtcLatched.size = 5
    rw [hrtc', hrtc, hnew]
    rfl
  · show g.bus.mem.sramDirty = false
    rw [hdirty', hdirty, hclean]
  · exact Buffer.slice_zero hget 0 _

/-! A 32 KB MBC1 cartridge with a battery and 8 KB of SRAM. -/

def batteryEnv : Env Unit := { blankEnv with rom := fun a => if a = 0x147 then 0x03 else if a = 0x149 then 0x02 else 0 }

theorem batteryEnv_session : ∃ s, gbPortCreate batteryEnv ⟨false, true, ()⟩ ⟨32768, true⟩ = some s ∧
    gbPortHasBattery s = true ∧ gbPortSramSize s = 8192 :=
  ⟨_, rfl, rfl, rfl⟩

end FoloGameboy

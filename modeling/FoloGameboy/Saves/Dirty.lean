/-
The dirty flag loses no update: through a battery session's frames and saves, cartridge RAM that is
not marked for saving is what the stored copies restore.
-/
import FoloGameboy.Core.Shape
import FoloGameboy.Saves.History

namespace FoloGameboy

open Effect

variable {σ : Type} {env : Env σ} {hash : Vector UInt8 32} {n : Nat} {s s' : Session σ} {v v' : SaveFs}

/-! ## Frames -/

/-- The same cartridge with the same buffers, and its RAM unchanged unless it is marked dirty. -/
structure SameCartridge (s s' : Session σ) : Prop where
  battery : s'.battery = s.battery
  rtc : s'.rtc = s.rtc
  bus : s.core.bus.SameShape s'.core.bus

namespace SameCartridge

@[refl] theorem refl (s : Session σ) : SameCartridge s s := ⟨rfl, rfl, .refl _⟩

theorem trans {s₁ s₂ s₃ : Session σ} (h : SameCartridge s₁ s₂) (h' : SameCartridge s₂ s₃) :
    SameCartridge s₁ s₃ :=
  ⟨h'.battery.trans h.battery, h'.rtc.trans h.rtc, h.bus.trans h'.bus⟩

theorem sramSize (h : SameCartridge s s') : gbPortSramSize s' = gbPortSramSize s :=
  h.bus.mem.sramPersistSize

/-- What needs no saving has not changed. -/
theorem clean (h : SameCartridge s s') (hclean : gbPortNeedsSave s' = false) :
    gbPortNeedsSave s = false ∧ (gbPortHasBattery s = true → sramOf s' = sramOf s) := by
  unfold gbPortNeedsSave at hclean ⊢
  rw [h.battery, h.rtc] at hclean
  cases hb : s.battery with
  | false => exact ⟨rfl, fun hbattery => by rw [gbPortHasBattery, hb] at hbattery; cases hbattery⟩
  | true =>
    rw [hb, Bool.true_and, Bool.or_eq_false_iff] at hclean
    obtain ⟨hrtc, hdirty⟩ := hclean
    obtain ⟨hdirty', hdata⟩ := h.bus.mem.clean hdirty
    refine ⟨by rw [hrtc, hdirty']; rfl, fun _ => ?_⟩
    unfold sramOf
    rw [hdata, h.sramSize]

end SameCartridge

theorem setInput_shape (buttons : UInt8) (b : Bus σ) : b.SameShape (setInput buttons b) :=
  { Bus.SameShape.refl b with }

theorem setAllKeys_cartridge (keys : List Keys) (s : Session σ) : SameCartridge s (setAllKeys keys s) := by
  induction keys generalizing s with
  | nil => exact .refl s
  | cons k keys ih =>
    have hkey : SameCartridge s (gbPortSetKeys k s) := ⟨rfl, rfl, setInput_shape k.mask s.core.bus⟩
    exact hkey.trans (ih (gbPortSetKeys k s))

theorem gbPortStepFrame_cartridge {render ok : Bool}
    (hs : gbPortStepFrame env render s = some (ok, s')) : SameCartridge s s' := by
  unfold gbPortStepFrame at hs
  split at hs
  · obtain ⟨-, rfl⟩ := Prod.mk.inj (Option.some.inj hs)
    exact .refl s
  · obtain ⟨⟨g, spent⟩, hg, hr⟩ := Option.map_eq_some_iff.mp hs
    obtain ⟨-, rfl⟩ := Prod.mk.inj hr
    have hstart : s.core.bus.SameShape (setRender render s.core).bus :=
      { Bus.SameShape.refl s.core.bus with }
    have hframe := hstart.trans (runFrame_shape hg)
    exact ⟨rfl, rfl, hframe⟩

theorem playFrame_cartridge {keys : List Keys} {render ok : Bool}
    (hs : playFrame env keys render s = some (ok, s')) :
    SameCartridge s s' :=
  (setAllKeys_cartridge keys s).trans (gbPortStepFrame_cartridge hs)

/-! ## Runs of a battery session -/

/-- What a load restores from the stored copies: the SRAM of the newest copy, or zeros while there
is no copy at all. -/
inductive Restores (hash : Vector UInt8 32) (n : Nat) (files : Volume) : List UInt8 → Prop where
  | copy {h : SaveHeader} {p : Snapshot} (hnewest : newestCopy hash n files = some (h, p)) :
      Restores hash n files p.sram
  | none (ha : files (savePath hash copyA) = none) (hb : files (savePath hash copyB) = none) :
      Restores hash n files (List.replicate n 0)

/-- A battery session whose save was loaded or empty, with any frames and saves since, the saves
failing anywhere. -/
inductive BatteryRun (env : Env σ) (hash : Vector UInt8 32) (n : Nat) : Session σ → SaveFs → Prop where
  | loaded {p : Platform σ} {rom : RomSource} {s s' : Session σ} {v v' : SaveFs} {r : SaveResult}
      (hcreate : gbPortCreate env p rom = some s) (hbattery : gbPortHasBattery s = true) (hn : gbPortSramSize s = n)
      (he : (gbSavesLoad hash s).Exec (saveDevice (Incomplete hash n)) v (some (r, s')) v') (hr : r ≠ .error) :
      BatteryRun env hash n s' v'
  | frame {s s' : Session σ} {v : SaveFs} (h : BatteryRun env hash n s v) (keys : List Keys) (render : Bool) {ok : Bool}
      (hs : playFrame env keys render s = some (ok, s')) : BatteryRun env hash n s' v
  | write {s s' : Session σ} {v v' : SaveFs} {ok : Bool} (h : BatteryRun env hash n s v)
      (he : (gbSavesWrite env hash s).Exec (saveDevice (Incomplete hash n)) v (some (ok, s')) v') :
      BatteryRun env hash n s' v'

/-- The invariant of such a run. -/
structure BatteryInv (hash : Vector UInt8 32) (n : Nat) (s : Session σ) (v : SaveFs) : Prop where
  battery : gbPortHasBattery s = true
  size : gbPortSramSize s = n
  stored : gbPortNeedsSave s = false → Restores hash n v.files (sramOf s)

theorem load_inv {p : Platform σ} {rom : RomSource} {r : SaveResult}
    (hcreate : gbPortCreate env p rom = some s)
    (hbattery : gbPortHasBattery s = true) (hn : gbPortSramSize s = n)
    (he : (gbSavesLoad hash s).Exec (saveDevice (Incomplete hash n)) v (some (r, s')) v')
    (hr : r ≠ .error) :
    BatteryInv hash n s' v' := by
  have hnew := gbPortCreate_battery hcreate
  obtain ⟨rfl, hload⟩ := Prog.wp_exec (gbSavesLoad_wp hash ⟨hnew.size, hnew.latch⟩ hn hbattery v) he
  cases hload with
  | loaded hnewest hi =>
    refine ⟨hi.battery.1.trans hbattery, hi.size.trans hn, fun _ => ?_⟩
    rw [hi.sram]
    exact .copy hnewest
  | error _ _ => exact absurd rfl hr
  | empty _ ha hb =>
    refine ⟨hbattery, hn, fun _ => ?_⟩
    rw [hnew.zero, hn]
    exact .none ha hb

theorem frame_inv {keys : List Keys} {render ok : Bool} (h : BatteryInv hash n s v)
    (hs : playFrame env keys render s = some (ok, s')) : BatteryInv hash n s' v := by
  have hsame := playFrame_cartridge hs
  refine ⟨hsame.battery.trans h.battery, hsame.sramSize.trans h.size, fun hclean => ?_⟩
  obtain ⟨hclean', hsram⟩ := hsame.clean hclean
  rw [hsram h.battery]
  exact h.stored hclean'

/-- A save keeps the cartridge RAM, and clears the flag only when it returns true. -/
theorem SaveWritten.session {files : Volume} {ok : Bool}
    (h : SaveWritten env hash n s files (some (ok, s')) v) :
    gbPortHasBattery s' = gbPortHasBattery s ∧ gbPortSramSize s' = gbPortSramSize s ∧ sramOf s' = sramOf s ∧
      (ok = false → gbPortNeedsSave s' = gbPortNeedsSave s) := by
  cases h with
  | refused hout _ =>
    obtain ⟨-, rfl⟩ := hout ok s' rfl
    exact ⟨rfl, rfl, rfl, fun _ => rfl⟩
  | attempted _ hout _ =>
    rw [hout ok s' rfl]
    cases ok with
    | true => exact ⟨rfl, rfl, rfl, fun hok => by cases hok⟩
    | false => exact ⟨rfl, rfl, rfl, fun _ => rfl⟩

/-- A save that returns true leaves what it saved, written now or before. -/
theorem write_restores {ok : Bool} (h : BatteryInv hash n s v)
    (he : (gbSavesWrite env hash s).Exec (saveDevice (Incomplete hash n)) v (some (ok, s')) v') :
    BatteryInv hash n s' v' ∧ (ok = true → Restores hash n v'.files (sramOf s')) := by
  cases hdirty : gbPortNeedsSave s with
  | false =>
    rw [gbSavesWrite_clean h.battery hdirty] at he
    cases he with
    | pure => exact ⟨h, fun _ => h.stored hdirty⟩
  | true =>
    have hw := gbSavesWrite_exec h.size h.battery hdirty he
    obtain ⟨hbattery, hsize, hsram, hkeeps⟩ := hw.session
    have hstored : ok = true → Restores hash n v'.files (sramOf s') := by
      rintro rfl
      rcases hw.newest h.size with ⟨-, hout⟩ | hnew
      · exact absurd rfl (hout s')
      · obtain ⟨⟨header, p⟩, hcopy, hp⟩ := Option.map_eq_some_iff.mp hnew
        have hp' : p.sram = sramOf s := congrArg Snapshot.sram hp
        rw [hsram, ← hp']
        exact .copy hcopy
    refine ⟨⟨hbattery.trans h.battery, hsize.trans h.size, fun hclean => ?_⟩, hstored⟩
    cases ok with
    | true => exact hstored rfl
    | false =>
      rw [hkeeps rfl, hdirty] at hclean
      cases hclean

theorem BatteryRun.inv (h : BatteryRun env hash n s v) : BatteryInv hash n s v := by
  induction h with
  | loaded hcreate hbattery hn he hr => exact load_inv hcreate hbattery hn he hr
  | frame _ keys render hs ih => exact frame_inv ih hs
  | write _ he ih => exact (write_restores ih he).1

theorem newestCopy_missing {files : Volume} (ha : files (savePath hash copyA) = none)
    (hb : files (savePath hash copyB) = none) :
    newestCopy hash n files = none := by
  unfold newestCopy validCopy
  rw [ha, hb]
  rfl

/-- A load restores just that. -/
theorem Restores.load {sram : List UInt8} (h : Restores hash n v.files sram) {env : Env σ}
    {p : Platform σ} {rom : RomSource}
    (hcreate : gbPortCreate env p rom = some s) (hbattery : gbPortHasBattery s = true)
    (hn : gbPortSramSize s = n)
    {r : SaveResult × Session σ}
    (he : (gbSavesLoad hash s).Exec (saveDevice (Incomplete hash n)) v (some r) v') :
    r.1 ≠ .error ∧ sramOf r.2 = sram := by
  have hnew := gbPortCreate_battery hcreate
  obtain ⟨-, hload⟩ := Prog.wp_exec (gbSavesLoad_wp hash ⟨hnew.size, hnew.latch⟩ hn hbattery v) he
  cases h with
  | @copy header p hcopy =>
    cases hload with
    | loaded hnewest hi =>
      obtain ⟨-, rfl⟩ := Prod.mk.inj (Option.some.inj (hcopy.symm.trans hnewest))
      exact ⟨nofun, hi.sram⟩
    | error hnone _ => exact absurd (hcopy.symm.trans hnone) (by simp)
    | empty hnone _ _ => exact absurd (hcopy.symm.trans hnone) (by simp)
  | none ha hb =>
    cases hload with
    | loaded hnewest _ =>
      rw [newestCopy_missing ha hb] at hnewest
      cases hnewest
    | error _ hfile => exact (hfile.elim (absurd ha) (absurd hb))
    | empty _ _ _ => exact ⟨nofun, by rw [hnew.zero, hn]⟩

/-- In every such run, while `gb_port_needs_save` is false the SRAM is the newest copy's, or zero
without copies; and after every `gb_saves_write` that returns true, written or not, a later load
restores the current SRAM. -/
theorem dirty_flag_loses_nothing (env : Env σ) (hash : Vector UInt8 32) (n : Nat) (s : Session σ) (v : SaveFs)
    (h : BatteryRun env hash n s v) :
    (gbPortNeedsSave s = false → Restores hash n v.files (sramOf s)) ∧
    ∀ s' v', (gbSavesWrite env hash s).Exec (saveDevice (Incomplete hash n)) v (some (true, s')) v' →
      sramOf s' = sramOf s ∧
      ∀ (env' : Env σ) p rom s₀, gbPortCreate env' p rom = some s₀ →
        gbPortHasBattery s₀ = true → gbPortSramSize s₀ = n →
        ∀ r v'', (gbSavesLoad hash s₀).Exec (saveDevice (Incomplete hash n)) v' (some r) v'' →
          r.1 ≠ .error ∧ sramOf r.2 = sramOf s' := by
  have hinv := h.inv
  refine ⟨hinv.stored, fun s' v' he => ⟨?_, ?_⟩⟩
  · cases hdirty : gbPortNeedsSave s with
    | false =>
      rw [gbSavesWrite_clean hinv.battery hdirty] at he
      cases he with
      | pure => rfl
    | true => exact (gbSavesWrite_exec hinv.size hinv.battery hdirty he).session.2.2.1
  · intro env' p rom s₀ hcreate hbattery hn r v'' hload
    exact ((write_restores hinv he).2 rfl).load hcreate hbattery hn hload

/-- A battery cartridge that enables its RAM, writes one byte to it and loops. -/
def writingRom : List (Nat × UInt8) :=
  [(0x100, 0x3E), (0x101, 0x0A), (0x102, 0xEA), (0x105, 0xEA),
    (0x107, 0xA0), (0x108, 0x18), (0x109, 0xFE), (0x147, 0x03), (0x149, 0x02)]

def writingEnv : Env Unit := { blankEnv with rom := fun a => (writingRom.lookup a).getD 0 }

def writingSetup : Setup :=
  { data := some ⟨32768, writingEnv.rom⟩, size := 32768, cgb := none, heap := true, romReads := 1 }

def writingSession : Session Unit :=
  ⟨act writingEnv (.sound ()) ((powerOn writingSetup).getD (prepare writingSetup)), true, false⟩

theorem writingSession_created : gbPortCreate writingEnv ⟨false, true, ()⟩ ⟨32768, true⟩ =
    some writingSession := rfl

/-- The session at the start of its first frame, and after each of its first three instructions. -/
def writingStart : GBEmulator Unit := setRender true (gbPortSetKeys {} writingSession).core
def writingFirst : GBEmulator Unit := (timedStep writingEnv 80 (clearLcdChanged writingStart)).2
def writingSecond : GBEmulator Unit := (timedStep writingEnv 72 writingFirst).2
def writingThird : GBEmulator Unit := (timedStep writingEnv 56 writingSecond).2

/-- JR, taken. -/
theorem runCpu_jr (env : Env σ) (g : GBEmulator σ) : runCpu env (execute 0x18) g =
    (12, { g with
      cpu := { g.cpu with pc := g.cpu.pc + (signExtend (readByte env g.cpu.pc g.bus).1 + 1) }
      bus := (readByte env g.cpu.pc g.bus).2 }) := rfl

/-- The byte of a mapped ROM at an address. -/
def mappedByte (env : Env σ) (r : RomAccess) (addr : UInt16) : Option UInt8 :=
  (mappedRomBank r addr).map fun base => cheatWrap env addr (Buffer.byteOf r.romData (base + (addr &&& 0x3fff).toNat))

theorem readByte_mappedByte {env : Env σ} {addr : UInt16} {b : Bus σ} {v : UInt8} (hlow : addr < 0x8000)
    (h : mappedByte env b.rom addr = some v) : readByte env addr b = (v, b) := by
  obtain ⟨base, hbase, rfl⟩ := Option.map_eq_some_iff.mp h
  unfold readByte
  rw [if_pos hlow, hbase]

/-- The cartridge loops at 0x108, with the byte in its RAM. -/
structure Looping (g : GBEmulator Unit) : Prop where
  pc : g.cpu.pc = 0x108
  running : g.cpu.ime = false ∧ g.cpu.eiPending = false ∧ g.cpu.halted = false ∧ g.cpu.haltBug = false
  code : mappedByte writingEnv g.bus.rom 0x108 = some 0x18 ∧ mappedByte writingEnv g.bus.rom 0x109 = some 0xFE
  rom : g.bus.rom.romIoFailed = false
  sram : g.bus.mem.sramData.get 0 = 0x0A

theorem cpuStep_jr {env : Env σ} {g : GBEmulator σ} {v : UInt8} (idleBudget : Int)
    (hd : ¬ dispatches g) (hh : (wake g).cpu.halted = false)
    (hbug : g.cpu.haltBug = false) (hop : readByte env g.cpu.pc g.bus = (0x18, g.bus))
    (harg : readByte env (g.cpu.pc + 1) g.bus = (v, g.bus)) :
    cpuStep env idleBudget g = (12, { wake g with
      cpu := { afterFetch (wake g).cpu with pc := g.cpu.pc + 1 + (signExtend v + 1) } }) := by
  have hopcode : opcodeAt env (wake g) = 0x18 := by rw [opcodeAt, wake_pc, wake_bus, hop]
  have hpc : (afterFetch (wake g).cpu).pc = g.cpu.pc + 1 := by
    rw [afterFetch_pc, wake_haltBug, hbug, wake_pc, if_neg Bool.false_ne_true]
  rw [cpuStep_instruction hd hh, runCpu_instruction, hopcode, runCpu_jr, wake_pc, wake_bus, hop]
  dsimp only
  rw [hpc, harg, wake_bus]

theorem looping_step (idleBudget : Int) {g : GBEmulator Unit} (h : Looping g) :
    Looping (cpuStep writingEnv idleBudget g).2 := by
  obtain ⟨hpc, ⟨hime, hei, hhalted, hbug⟩, ⟨hjr, hoffset⟩, hrom, hsram⟩ := h
  have hd : ¬ dispatches g := by
    rintro ⟨-, h⟩
    rw [hime] at h
    cases h
  have hh : (wake g).cpu.halted = false := by
    unfold wake
    split
    · rfl
    · exact hhalted
  have hnext : g.cpu.pc + 1 = 0x109 := by rw [hpc]; decide
  have hop : readByte writingEnv g.cpu.pc g.bus = (0x18, g.bus) := by
    rw [hpc]; exact readByte_mappedByte (by decide) hjr
  have harg : readByte writingEnv (g.cpu.pc + 1) g.bus = (0xFE, g.bus) := by
    rw [hnext]; exact readByte_mappedByte (by decide) hoffset
  have hback : g.cpu.pc + 1 + (signExtend 0xFE + 1) = 0x108 := by rw [hnext]; decide
  have hrun : (afterFetch (wake g).cpu).ime = false := by
    rw [afterFetch_ime, wake_ime, wake_eiPending, hime, hei]; rfl
  have hawake : (afterFetch (wake g).cpu).halted = false := by
    unfold afterFetch undoHaltBug promote
    split <;> split <;> exact hh
  have hbus : (wake g).bus = g.bus := wake_bus g
  rw [cpuStep_jr idleBudget hd hh hbug hop harg]
  refine ⟨hback, ⟨hrun, afterFetch_eiPending (wake g).cpu, hawake, afterFetch_haltBug (wake g).cpu⟩,
    ?_, ?_, ?_⟩ <;> dsimp only <;> rw [hbus]
  · exact ⟨hjr, hoffset⟩
  · exact hrom
  · exact hsram

theorem looping_inv : FrameInv writingEnv Looping where
  step := fun idleBudget _ h => looping_step idleBudget h
  timer := fun _ _ _ h => ⟨h.pc, h.running, h.code, h.rom, h.sram⟩
  ppu := fun _ _ _ _ h => ⟨h.pc, h.running, h.code, h.rom, h.sram⟩

theorem writingThird_looping : Looping writingThird :=
  ⟨by decide +kernel, by decide +kernel, by decide +kernel, by decide +kernel, by decide +kernel⟩

/-- The first frame ends in the loop. -/
theorem writing_frame {g : GBEmulator Unit} {spent : Int}
    (h : runFrame writingEnv writingStart = some (g, spent)) : Looping g := by
  obtain ⟨s, hs, hg⟩ := Option.map_eq_some_iff.mp h
  obtain ⟨rfl, -⟩ := Prod.mk.inj hg
  refine looping_inv.ppu _ _ _ _ ?_
  have hfuel : FRAME_CYCLES.toNat = 70223 + 1 := rfl
  rw [hfuel] at hs
  unfold frameLoop at hs
  rw [if_pos (by decide +kernel)] at hs
  obtain ⟨s₁, hs₁, hrest⟩ := Option.bind_eq_some_iff.mp hs
  refine looping_inv.frameLoop_inv _ ?_ hrest
  obtain ⟨r, hr, rfl⟩ := Option.map_eq_some_iff.mp hs₁
  refine looping_inv.endChunk_inv _ ?_
  have hover : writingStart.bus.lcd.frameOvershoot = 0 := by decide +kernel
  have hbudget : chunkBudget ⟨0, 0, writingStart⟩ = 80 := by decide +kernel
  have hchunk : chunkFuel 80 = 5308494 + 1 + 1 + 1 := by decide +kernel
  unfold runChunk at hr
  rw [hover, hbudget, hchunk] at hr
  -- the three instructions before the loop
  have hcost₁ : (timedStep writingEnv (80 - 0) (clearLcdChanged writingStart)).1 = 8 := by decide +kernel
  have hcost₂ : (timedStep writingEnv (80 - 8) writingFirst).1 = 16 := by decide +kernel
  have hcost₃ : (timedStep writingEnv (80 - 24) writingSecond).1 = 16 := by decide +kernel
  rw [chunkLoop_succ ⟨by decide, by decide +kernel⟩, hcost₁] at hr
  change chunkLoop writingEnv 80 _ 8 writingFirst = some r at hr
  rw [chunkLoop_succ ⟨by decide, by decide +kernel⟩, hcost₂] at hr
  change chunkLoop writingEnv 80 _ 24 writingSecond = some r at hr
  rw [chunkLoop_succ ⟨by decide, by decide +kernel⟩, hcost₃] at hr
  exact looping_inv.chunkLoop_inv _ _ _ _ r writingThird_looping hr

theorem writing_returns : ∃ s, gbPortStepFrame writingEnv true (gbPortSetKeys {} writingSession) =
    some (true, s) ∧
    s.core.bus.mem.sramData.get 0 = 0x0A := by
  have hreach : Reachable writingEnv (gbPortSetKeys {} writingSession).core :=
    setKeys_reachable [{}] (gbPortCreate_reachable writingSession_created)
  obtain ⟨⟨g, spent⟩, hrun⟩ :=
    Option.isSome_iff_exists.mp (runFrame_isSome (g := writingStart) writingEnv hreach.ppuOK)
  have hloop := writing_frame hrun
  refine ⟨{ gbPortSetKeys {} writingSession with
    core := { g with frameCount := g.frameCount + 1 } }, ?_, hloop.sram⟩
  change runFrame writingEnv (setRender true (gbPortSetKeys {} writingSession).core) =
    some (g, spent) at hrun
  unfold gbPortStepFrame
  rw [if_neg (by decide +kernel), hrun, Option.map_some, hloop.rom]
  rfl

theorem empty_not_restores {s : Session Unit} (h : s.core.bus.mem.sramData.get 0 = 0x0A) :
    ¬ Restores (.replicate 32 0) 8192 emptyVolume.files (sramOf s) := by
  have hnone : newestCopy (.replicate 32 0) 8192 emptyVolume.files = none := newestCopy_missing rfl rfl
  generalize hsram : sramOf s = sram
  intro hr
  cases hr with
  | copy hnewest =>
    rw [hnone] at hnewest
    cases hnewest
  | none _ _ =>
    have hlen : gbPortSramSize s = 8192 := by
      have := congrArg List.length hsram
      rwa [sramOf, Buffer.length_slice, List.length_replicate] at this
    have hfirst : (sramOf s)[0]? = some 0 := by
      rw [hsram, List.getElem?_replicate, if_pos (by decide)]
    unfold sramOf Buffer.slice at hfirst
    rw [hlen, List.getElem?_map, List.getElem?_range (by decide), Option.map_some, Nat.add_zero,
      h] at hfirst
    exact absurd hfirst (by decide)

theorem writing_loaded :
    (gbSavesLoad (.replicate 32 0) writingSession).Exec
      (saveDevice (Incomplete (.replicate 32 0) 8192)) emptyVolume
    (some (.empty, writingSession)) emptyVolume := by
  obtain ⟨⟨r, s'⟩, v', he⟩ := @gbSavesLoad_returns Unit (.replicate 32 0) 8192 writingSession emptyVolume
  have hnew := gbPortCreate_battery writingSession_created
  obtain ⟨hv, hload⟩ :=
    Prog.wp_exec (gbSavesLoad_wp (s := writingSession) (n := 8192) (.replicate 32 0) ⟨hnew.size,
      hnew.latch⟩ rfl rfl emptyVolume) he
  obtain rfl : v' = emptyVolume := hv
  have hnone : newestCopy (.replicate 32 0) 8192 emptyVolume.files = none := newestCopy_missing rfl rfl
  generalize hs : writingSession = s at hload he ⊢
  cases hload with
  | loaded hnewest _ =>
    rw [hnone] at hnewest
    cases hnewest
  | error _ hfile => exact (hfile.elim (absurd rfl) (absurd rfl))
  | empty _ _ _ => exact he

/-- The session after the frame that writes to the RAM. -/
theorem writing_run : ∃ s : Session Unit, BatteryRun writingEnv (.replicate 32 0) 8192 s emptyVolume ∧
    gbPortStepFrame writingEnv true (gbPortSetKeys {} writingSession) = some (true, s) ∧
    s.rtc = false ∧ gbPortNeedsSave s = true ∧ (sramOf s)[0]? = some 0x0A := by
  obtain ⟨s, hframe, hsram⟩ := writing_returns
  have hrtc : s.rtc = false :=
    (setAllKeys_cartridge [{}] writingSession |>.trans (gbPortStepFrame_cartridge hframe)).rtc
  have hrun : BatteryRun writingEnv (.replicate 32 0) 8192 s emptyVolume :=
    .frame (.loaded writingSession_created rfl rfl writing_loaded nofun) [{}] true hframe
  refine ⟨s, hrun, hframe, hrtc, ?_, ?_⟩
  · by_contra hclean
    exact empty_not_restores hsram (hrun.inv.stored (Bool.eq_false_iff.mpr hclean))
  · unfold sramOf Buffer.slice
    rw [hrun.inv.size, List.getElem?_map, List.getElem?_range (by decide), Option.map_some, Nat.add_zero, hsram]

/-- A cartridge without a clock has nothing to save after a save. -/
theorem saved_clean {s : Session σ} (hrtc : s.rtc = false) :
    gbPortNeedsSave (gbPortMarkSaved (ticked env s)) = false := by
  show (s.battery && (s.rtc || false)) = false
  rw [hrtc, Bool.or_self, Bool.and_false]

/-- A frame writes to the RAM, `gb_saves_write` returns true, and a new session loads the byte. -/
theorem dirty_flag_loses_nothing_written : ∃ (s s' : Session Unit) (v' : SaveFs),
    BatteryRun writingEnv (.replicate 32 0) 8192 s emptyVolume ∧ gbPortNeedsSave s = true ∧
    (gbSavesWrite writingEnv (.replicate 32 0) s).Exec (saveDevice (Incomplete (.replicate 32 0) 8192)) emptyVolume
      (some (true, s')) v' ∧
    gbPortNeedsSave s' = false ∧ Restores (.replicate 32 0) 8192 v'.files (sramOf s') ∧
    sramOf s' = sramOf s ∧ (sramOf s)[0]? = some 0x0A ∧
    ∀ r v'', (gbSavesLoad (.replicate 32 0) writingSession).Exec (saveDevice (Incomplete (.replicate 32 0) 8192)) v'
      (some r) v'' → r.1 ≠ .error ∧ sramOf r.2 = sramOf s' := by
  obtain ⟨s, hrun, -, hrtc, hdirty, hfirst⟩ := writing_run
  have hinv := hrun.inv
  have hwrite : (gbSavesWrite writingEnv (.replicate 32 0) s).Exec
      (saveDevice (Incomplete (.replicate 32 0) 8192)) emptyVolume
      (some (true, gbPortMarkSaved (ticked writingEnv s))) _ :=
    gbSavesWrite_succeeds writingEnv hinv.size hinv.battery hdirty (targetOf_missing rfl rfl)
  obtain ⟨hsame, hloads⟩ :=
    (dirty_flag_loses_nothing writingEnv (.replicate 32 0) 8192 s emptyVolume hrun).2 _ _ hwrite
  have hclean := @saved_clean _ writingEnv _ hrtc
  exact ⟨s, _, _, hrun, hdirty, hwrite, hclean,
    (dirty_flag_loses_nothing writingEnv (.replicate 32 0) 8192 _ _ (hrun.write hwrite)).1 hclean, hsame, hfirst,
    hloads writingEnv _ _ _ writingSession_created rfl rfl⟩

end FoloGameboy

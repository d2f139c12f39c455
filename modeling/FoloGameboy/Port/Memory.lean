/-
The memory of a session: over any frames the guest reads back what it wrote last.
-/
import FoloGameboy.Core.Store
import FoloGameboy.Port.Bounds

namespace FoloGameboy

variable {σ : Type} {env : Env σ} {p : Platform σ} {rom : RomSource}

/-! ## Sessions as runs -/

section
variable {ε : Type} {w : BusOp → Bus σ → List ε}

theorem setAllKeys_logged {g₀ : GBEmulator σ} {log : List ε} : ∀ (keys : List Keys) {s : Session σ},
    LoggedRun env w g₀ log s.core → LoggedRun env w g₀ log (setAllKeys keys s).core
  | [], _, h => h
  | k :: keys, s, h => setAllKeys_logged keys (s := gbPortSetKeys k s)
      (h.host (setInput k.mask s.core.bus).pad (setInput k.mask s.core.bus).irq s.core.bus.renderThisFrame
        s.core.frameCount)

theorem playFrame_logged {keys : List Keys} {render ok : Bool} {s s' : Session σ}
    (hs : playFrame env keys render s = some (ok, s')) : ∃ log, LoggedRun env w s.core log s'.core := by
  have hkeys : LoggedRun env w s.core [] (setAllKeys keys s).core := setAllKeys_logged keys .start
  unfold playFrame gbPortStepFrame at hs
  split at hs
  · obtain ⟨-, rfl⟩ := Prod.mk.inj (Option.some.inj hs)
    exact ⟨[], hkeys⟩
  · obtain ⟨⟨g, spent⟩, hg, hr⟩ := Option.map_eq_some_iff.1 hs
    obtain ⟨-, rfl⟩ := Prod.mk.inj hr
    obtain ⟨log, hrun⟩ := runFrame_logged hg
    have hstart := hkeys.host (setAllKeys keys s).core.bus.pad (setAllKeys keys s).core.bus.irq render
      (setAllKeys keys s).core.frameCount
    exact ⟨_, (hstart.trans hrun).host g.bus.pad g.bus.irq g.bus.renderThisFrame (g.frameCount + 1)⟩

theorem play_logged : ∀ {frames : List (List Keys × Bool)} {rets : List Bool} {s s' : Session σ},
    play env frames s = some (rets, s') → ∃ log, LoggedRun env w s.core log s'.core
  | [], _, _, _, hs => by
    obtain ⟨-, rfl⟩ := Prod.mk.inj (Option.some.inj hs)
    exact ⟨[], .start⟩
  | (keys, render) :: rest, rets, s, s', hs => by
    obtain ⟨⟨ok, s₁⟩, hframe, hs⟩ := Option.bind_eq_some_iff.1 hs
    obtain ⟨⟨rets', s₂⟩, hrest, hr⟩ := Option.map_eq_some_iff.1 hs
    obtain ⟨-, rfl⟩ := Prod.mk.inj hr
    obtain ⟨log, hrun⟩ := playFrame_logged hframe
    obtain ⟨log', hrun'⟩ := play_logged hrest
    exact ⟨log ++ log', hrun.trans hrun'⟩

end

/-! ## Memory -/

/-- In a session, whatever frames are played: the run is one of steps with a log of the cells they wrote, DMA
included. At each instruction boundary of such a run, and at each bus operation of the next step, a read of
memory shows the byte written last to the cell it reaches, through whichever address and bank that was. -/
theorem guest_memory_is_store {s : Session σ} (h : InUse env p rom s) :
    (∀ frames rets s', play env frames s = some (rets, s') → ∃ log, GuestRun env s.core log s'.core) ∧
    ∀ log g, GuestRun env s.core log g → ReadsLast env s.core.bus.mem.content log g.bus ∧
      ∀ pre e post, stepTrace env g = pre ++ e :: post →
        ReadsLast env s.core.bus.mem.content (log ++ pre.flatMap fun e => busWrites env e.1 e.2) e.2 :=
  ⟨fun _ _ _ hs => play_logged hs, fun _ _ hrun => hrun.readsLast h.safe.contained.sized.memSized⟩

/-- A cartridge that stores 5A at 0xC000 and copies 0xC000 to 0xC09F to the OAM. -/
def dmaRom : List (Nat × UInt8) :=
  [(0x100, 0x3E), (0x101, 0x5A), (0x102, 0xEA), (0x104, 0xC0),
    (0x105, 0x3E), (0x106, 0xC0), (0x107, 0xE0), (0x108, 0x46)]

def dmaEnv : Env Unit := { blankEnv with rom := fun a => (dmaRom.lookup a).getD 0 }

def dmaSession : Session Unit :=
  (gbPortCreate dmaEnv ⟨false, true, ()⟩ ⟨32768, true⟩).getD ⟨prepare blankSetup, false, false⟩

/-- The machine after a number of instructions, with the cells they wrote. -/
def dmaRun : Nat → List (Cell × UInt8) × GBEmulator Unit
  | 0 => ([], dmaSession.core)
  | n + 1 => ((dmaRun n).1 ++ stepLog dmaEnv (busWrites dmaEnv) (dmaRun n).2, (cpuStep dmaEnv 80 (dmaRun n).2).2)

/-- After the DMA the first byte of the OAM reads as what was stored at 0xC000. -/
theorem guest_memory_is_store_dma : InUse dmaEnv ⟨false, true, ()⟩ ⟨32768, true⟩ dmaSession ∧
    GuestRun dmaEnv dmaSession.core (dmaRun 4).1 (dmaRun 4).2 ∧ (dmaRun 4).1.head? = some (.wram 0, 0x5A) ∧
    (dmaRun 4).1.length = 161 ∧ Store.lastTo (.oam 0) (dmaRun 4).1 = some 0x5A ∧
    (readByte dmaEnv 0xFE00 (dmaRun 4).2.bus).1 = 0x5A := by
  have huse : InUse dmaEnv ⟨false, true, ()⟩ ⟨32768, true⟩ dmaSession := .create rfl
  have hrun : ∀ n, GuestRun dmaEnv dmaSession.core (dmaRun n).1 (dmaRun n).2 := by
    intro n
    induction n with
    | zero => exact .start
    | succ n ih => exact ih.step 80
  have hlast : Store.lastTo (.oam 0) (dmaRun 4).1 = some 0x5A := by decide +kernel
  have hread := ((guest_memory_is_store huse).2 _ _ (hrun 4)).1 0xFE00 (.oam 0) (by decide +kernel)
  rw [hlast] at hread
  exact ⟨huse, hrun 4, by decide +kernel, by decide +kernel, hlast, hread⟩
end FoloGameboy

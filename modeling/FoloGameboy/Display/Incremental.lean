/-
Incremental drawing: over every sequence of screens and frames, with transfers failing anywhere, a frame
that was drawn without an error is on the panel, pixel by pixel.
-/
import FoloGameboy.Display.Boot
import FoloGameboy.Display.Strips

namespace FoloGameboy

/-! ## The game area -/

/-- The game area of the panel shows an enlarged frame. -/
def Shows (frame : Buffer) (d : Display) : Prop := ∀ x < 240, ∀ y < 216, d.panel x (52 + y) = enlargedPixel frame x y

/-- A valid previous frame is enlarged and on the panel. -/
def ShowsPrevious (d : Display) : Prop := d.previousValid = true → d.previousEnlarged = true ∧ Shows d.previousFrame d

theorem strips_rows {first limit : Nat} {s : Nat × Nat} (hs : s ∈ strips first limit) : first ≤ s.1 := by
  obtain ⟨i, hrow, -⟩ := strips_mem hs
  omega

/-- The strips that are drawn have the frame's pixels, and the others show them already. -/
theorem eachStrip_shows {frame : Buffer} {paint : Nat → Nat → Strip → Option Strip} {d d' : Display}
    (hd : ShowsPrevious d)
    (hskipped : ∀ row rows buf, paint row rows buf = none →
      d.previousValid = true ∧ gbPixelsStripChanged frame d.previousFrame row rows true = false)
    (hdrawn : ∀ row rows buf strip, row + rows ≤ 216 → paint row rows buf = some strip →
      ∀ dy < rows, ∀ x < 240, strip (dy * 240 + x) = enlargedPixel frame x (row + dy))
    (hok : eachStrip 0 52 240 paint (strips 0 216) d = (none, d')) : Shows frame d' := by
  intro x hx y hy
  obtain ⟨s, hs, hfirst, hlast⟩ := strips_cover (Nat.zero_le y) hy
  obtain ⟨i, hrow, hrows, hlimit⟩ := strips_mem hs
  have hin : InRect 0 (52 + s.1) 240 s.2 x (52 + y) := ⟨Nat.zero_le _, by omega, by omega, by omega⟩
  refine eachStrip_inside (P := fun color => color = enlargedPixel frame x y) hin ?_ _
    (strips_pairwise 0 216) hs ?_ hok
  · intro buf strip hpaint
    have hindex : (52 + y - (52 + s.1)) * 240 + (x - 0) = (y - s.1) * 240 + x := by omega
    have hy' : s.1 + (y - s.1) = y := by omega
    rw [hindex, hdrawn s.1 s.2 buf strip (by omega) hpaint (y - s.1) (by omega) x hx, hy']
  · intro buf hpaint
    obtain ⟨hvalid, hsame⟩ := hskipped s.1 s.2 buf hpaint
    rw [(hd hvalid).2 x hx y hy]
    exact (not_stripChanged hsame hx hfirst hlast).symm

/-! ## Screens -/

/-- What every drawing call keeps. -/
def KeepsShown (m : DisplayM) : Prop := ∀ d, ShowsPrevious d → ShowsPrevious (m d).2

theorem whenIdle_shown (refused : Display → Option DisplayError) {m : DisplayM}
    (hm : KeepsShown m) : KeepsShown (whenIdle refused m) := by
  intro d hd
  have hwaited : ShowsPrevious (waitFrameIdle d).2 := hd
  unfold whenIdle
  split
  · exact hd
  · split
    · rename_i e d' hwait
      rwa [hwait] at hwaited
    · rename_i d' hwait
      rw [hwait] at hwaited
      exact hm d' hwaited

/-- Screens that are drawn below the game area leave it alone. -/
theorem drawScreen_below {first : Nat} (hfirst : 268 ≤ first) (paint : Nat → Nat → Strip → Strip) :
    KeepsShown (drawScreen first paint) := by
  intro d hd
  obtain ⟨-, hframe, hvalid, henlarged⟩ :=
    eachStrip_statics 0 0 BSP_LCD_W (fun row rows s => some (paint row rows s)) (strips first BSP_LCD_H) d
  have hpanel : ∀ x y, y < 216 → (drawScreen first paint d).2.panel x (52 + y) = d.panel x (52 + y) := by
    intro x y hy
    refine eachStrip_outside _ _ _ ?_
    rintro s hs ⟨-, -, hrow, -⟩
    have hbelow := strips_rows hs
    omega
  intro h
  obtain ⟨henl, hshows⟩ := hd (hvalid ▸ h)
  refine ⟨henlarged.trans henl, fun x hx y hy => ?_⟩
  rw [hpanel x y hy, hshows x hx y hy]
  exact congrArg (fun f => enlargedPixel f x y) hframe.symm

/-- A picture over the game area is drawn without a previous frame. -/
theorem eachStrip_invalid (x0 y0 width : Nat) (paint : Nat → Nat → Strip → Option Strip)
    (l : List (Nat × Nat)) :
    KeepsShown fun d => eachStrip x0 y0 width paint l { d with previousValid := false } := by
  intro d _ h
  have hvalid := (eachStrip_statics x0 y0 width paint l { d with previousValid := false }).previousValid
  exact absurd (hvalid.symm.trans h) Bool.false_ne_true

theorem gbDisplayClear_shown (rgb565 : UInt16) : KeepsShown (gbDisplayClear rgb565) :=
  whenIdle_shown _ (eachStrip_invalid _ _ _ _ _)

theorem gbDisplayLines_shown (lines : List (Option (List UInt8))) : KeepsShown (gbDisplayLines lines) :=
  whenIdle_shown _ (eachStrip_invalid _ _ _ _ _)

theorem gbDisplayUi_shown (font : UiFont) (model : UiModel) : KeepsShown (gbDisplayUi font model) :=
  whenIdle_shown _ (eachStrip_invalid _ _ _ _ _)

theorem gbDisplayColorFrame_shown (indices bgPalette objPalette : Buffer) :
    KeepsShown (gbDisplayColorFrame indices bgPalette objPalette) :=
  whenIdle_shown _ (eachStrip_invalid _ _ _ _ _)

theorem gbDisplayFooter_shown (font : UiFont) (text : List UInt8) (scrollPx : UInt32) :
    KeepsShown (gbDisplayFooter font text scrollPx) :=
  whenIdle_shown _ (drawScreen_below (by decide) _)

theorem gbDisplayGameHint_shown (font : UiFont) (text : List UInt8) :
    KeepsShown (gbDisplayGameHint font text) :=
  whenIdle_shown _ (drawScreen_below (by decide) _)

/-! ## Frames -/

/-- A frame whose strips show it becomes the previous one; after an error there is none. -/
theorem rememberFrame_shown {frame : Buffer} {r : Option DisplayError × Display}
    (h : r.1 = none → Shows frame r.2) :
    ShowsPrevious (rememberFrame frame true r).2 ∧
      ((rememberFrame frame true r).1 = none → Shows frame (rememberFrame frame true r).2) := by
  obtain ⟨answer, d⟩ := r
  cases answer with
  | some e => exact ⟨fun h => absurd h Bool.false_ne_true, nofun⟩
  | none => exact ⟨fun _ => ⟨rfl, h rfl⟩, fun _ => h rfl⟩

theorem bootStrip_pixel {frame : Buffer} (htwo : TwoShades frame) (row : Nat) {rows : Nat}
    (hin : row + rows ≤ 216) (s : Strip) :
    ∀ dy < rows, ∀ x < 240, bootStrip frame row rows s (dy * 240 + x) =
      enlargedPixel frame x (row + dy) := by
  intro dy hdy x hx
  unfold bootStrip BSP_LCD_W
  rw [foldl_rows 240 _ s hx rows dy hdy]
  have hshade :=
    htwo (x * 2 / 3) (by unfold GB_WIDTH; omega) ((row + dy) * 2 / 3) (by unfold GB_HEIGHT; omega)
  unfold enlargedPixel
  rw [sourceX_enlarged, sourceY_enlarged]
  rcases hshade with h | h <;> rw [h] <;> rfl

theorem gbDisplayBootFrame_shown (boot : BootFrame) : KeepsShown (gbDisplayBootFrame boot.frame) := by
  refine whenIdle_shown _ fun d hd => (rememberFrame_shown fun hok => ?_).1
  refine eachStrip_shows hd ?_ ?_ (Prod.ext hok rfl)
  · intro row rows buf hpaint
    by_contra hchanged
    rw [if_neg hchanged] at hpaint
    exact absurd hpaint nofun
  · intro row rows buf strip hin hpaint
    split at hpaint
    · exact absurd hpaint nofun
    · cases hpaint
      exact bootStrip_pixel boot.twoShades row hin buf

theorem gbDisplayFrame_shown (frame : Buffer) {d : Display} (hd : ShowsPrevious d) :
    ShowsPrevious (gbDisplayFrame frame true d).2 ∧
      ((gbDisplayFrame frame true d).1 = none → Shows frame (gbDisplayFrame frame true d).2) := by
  unfold gbDisplayFrame
  split
  · exact ⟨hd, nofun⟩
  · refine rememberFrame_shown fun hok => eachStrip_shows hd ?_ ?_ (Prod.ext hok rfl)
    · intro row rows buf hpaint
      by_contra hchanged
      rw [if_neg fun h => hchanged ⟨h.1, h.2.2⟩] at hpaint
      exact absurd hpaint nofun
    · intro row rows buf strip _ hpaint
      split at hpaint
      · exact absurd hpaint nofun
      · cases hpaint
        exact (frameRows_pixel frame row buf rows).2

/-! ## Every sequence of calls -/

inductive DisplayCall where
  | clear (rgb565 : UInt16)
  | ui (model : UiModel)
  | lines (texts : List (Option (List UInt8)))
  | gameHint (text : List UInt8)
  | footer (text : List UInt8) (scrollPx : UInt32)
  | colorFrame (indices bgPalette objPalette : Buffer)
  | bootFrame (boot : BootFrame)
  /-- `gb_display_frame` with `enlarged`. -/
  | frame (packed : Buffer)

def DisplayCall.draw (font : UiFont) : DisplayCall → DisplayM
  | .clear rgb565 => gbDisplayClear rgb565
  | .ui model => gbDisplayUi font model
  | .lines texts => gbDisplayLines texts
  | .gameHint text => gbDisplayGameHint font text
  | .footer text scrollPx => gbDisplayFooter font text scrollPx
  | .colorFrame indices bgPalette objPalette => gbDisplayColorFrame indices bgPalette objPalette
  | .bootFrame boot => gbDisplayBootFrame boot.frame
  | .frame packed => gbDisplayFrame packed true

def displayRun (font : UiFont) (calls : List DisplayCall) (d : Display) : Display :=
  calls.foldl (fun d call => (call.draw font d).2) d

theorem DisplayCall.draw_shown (font : UiFont) (call : DisplayCall) : KeepsShown (call.draw font) := by
  cases call with
  | clear rgb565 => exact gbDisplayClear_shown rgb565
  | ui model => exact gbDisplayUi_shown font model
  | lines texts => exact gbDisplayLines_shown texts
  | gameHint text => exact gbDisplayGameHint_shown font text
  | footer text scrollPx => exact gbDisplayFooter_shown font text scrollPx
  | colorFrame indices bgPalette objPalette => exact gbDisplayColorFrame_shown indices bgPalette objPalette
  | bootFrame boot => exact gbDisplayBootFrame_shown boot
  | frame packed => exact fun d hd => (gbDisplayFrame_shown packed hd).1

theorem displayRun_shown (font : UiFont) : ∀ (calls : List DisplayCall) {d : Display},
    ShowsPrevious d → ShowsPrevious (displayRun font calls d)
  | [], _, h => h
  | call :: calls, _, h => displayRun_shown font calls (call.draw_shown font _ h)

/-- A panel with anything on it, before the first frame. -/
def startedDisplay (env : DisplayEnv) (panel : Nat → Nat → UInt16)
    (ready : Bool) (strip : Strip) (previous : Buffer) : Display :=
  { env := env, panel := panel, ready := ready, strip := strip, previousFrame := previous }

/-- After any calls, with transfers failing anywhere, a frame drawn without an error is on the panel: every
pixel of the game area has the wire colour of the frame's shade at its source. -/
theorem frame_shown (font : UiFont) (env : DisplayEnv) (panel : Nat → Nat → UInt16)
    (ready : Bool) (strip : Strip) (previous : Buffer)
    (calls : List DisplayCall) (frame : Buffer) (d : Display)
    (hok : gbDisplayFrame frame true (displayRun font calls (startedDisplay env panel ready strip previous))
      = (none, d)) :
    ∀ x < 240, ∀ y < 216, d.panel x (52 + y) = bswap16
      (gbPixelRgb565 (gbPixelShade frame (x * 160 / 240) (y * 144 / 216))) := by
  have hrun : ShowsPrevious (displayRun font calls (startedDisplay env panel ready strip previous)) :=
    displayRun_shown font calls fun h => absurd h Bool.false_ne_true
  have hshows := (gbDisplayFrame_shown frame hrun).2
  rw [hok] at hshows
  exact hshows rfl

/-- A boot frame, a frame whose third transfer fails, and the frame again. -/
def faultyDisplay : Display :=
  startedDisplay ⟨fun _ => none, fun n => if n = 13 then some ⟨.timeout, fun _ _ => 0⟩ else none⟩
    (fun _ _ => 0) true (fun _ => 0)
    (.fill 5760 0)

theorem frame_shown_after_fault :
    (∀ x < 240, ∀ y < 216,
      (gbDisplayFrame (.fill 5760 0xE4) true (displayRun (fun _ => none)
        [.bootFrame ⟨.fill 5760 0, blank_twoShades 5760⟩, .frame (.fill 5760 0xE4)] faultyDisplay)).2.panel x (52 + y) =
      bswap16 (gbPixelRgb565 (gbPixelShade (.fill 5760 0xE4) (x * 160 / 240) (y * 144 / 216)))) ∧
    (displayRun (fun _ => none) [.bootFrame ⟨.fill 5760 0, blank_twoShades 5760⟩, .frame (.fill 5760 0xE4)]
      faultyDisplay).previousValid =
      false :=
  ⟨frame_shown _ _ _ _ _ _ _ _ _ (Prod.ext (by decide +kernel) rfl), by decide +kernel⟩

end FoloGameboy

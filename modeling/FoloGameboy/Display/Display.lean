/-
`gb_display`: the screens, drawn strip by strip on the panel. A transfer writes its rectangle, or fails
and leaves anything in it. The count of completed frames, which is only logged, is left out.
-/
import FoloGameboy.Core.State
import FoloGameboy.Display.Draw

namespace FoloGameboy

/-! ## The panel -/

def STRIP_ROWS : Nat := 20

inductive DisplayError where
  | invalidArg | invalidState | timeout | transfer
deriving DecidableEq

/-- A failed transfer: its error, and the pixels it leaves in its rectangle. -/
structure TransferFault where
  error : DisplayError
  left : Nat → Nat → UInt16

/-- What is not decided by the program: the answers of `wait_frame_idle` and of the transfers, in order. -/
structure DisplayEnv where
  idle : Nat → Option DisplayError
  transfer : Nat → Option TransferFault

/-- The panel, column by row, and the statics of `gb_display`; `waits` and `transfers` count the answers. -/
structure Display where
  env : DisplayEnv
  panel : Nat → Nat → UInt16
  ready : Bool
  strip : Strip
  previousFrame : Buffer
  previousValid : Bool := false
  previousEnlarged : Bool := false
  waits : Nat := 0
  transfers : Nat := 0

/-- The pixels of a rectangle. -/
def InRect (x y width rows px py : Nat) : Prop := x ≤ px ∧ px < x + width ∧ y ≤ py ∧ py < y + rows

instance (x y width rows px py : Nat) : Decidable (InRect x y width rows px py) := by unfold InRect; infer_instance

/-- The answer, none for `ESP_OK`, and the display after it. -/
abbrev DisplayM : Type := Display → Option DisplayError × Display

def waitFrameIdle : DisplayM := fun d => (d.env.idle d.waits, { d with waits := d.waits + 1 })

def sendStrip (x y width rows : Nat) : DisplayM := fun d =>
  let fault := d.env.transfer d.transfers
  let written := fun px py =>
    match fault with
    | none => d.strip ((py - y) * width + (px - x))
    | some fault => fault.left px py
  (fault.map TransferFault.error,
    { d with
      panel := fun px py => if InRect x y width rows px py then written px py else d.panel px py
      transfers := d.transfers + 1 })

/-! ## Strips -/

/-- The strips of the rows from `first` to `limit`: the row of each and how many it has. -/
def strips (first limit : Nat) : List (Nat × Nat) :=
  (List.range ((limit - first + (STRIP_ROWS - 1)) / STRIP_ROWS)).map fun i =>
    (first + i * STRIP_ROWS, min STRIP_ROWS (limit - (first + i * STRIP_ROWS)))

/-- The loop over strips. `paint` draws a strip over the last one, or skips it. -/
def eachStrip (x0 y0 width : Nat) (paint : Nat → Nat → Strip → Option Strip) : List (Nat × Nat) → DisplayM
  | [], d => (none, d)
  | (row, rows) :: rest, d =>
    match paint row rows d.strip with
    | none => eachStrip x0 y0 width paint rest d
    | some strip =>
      match sendStrip x0 (y0 + row) width rows { d with strip := strip } with
      | (none, d) => eachStrip x0 y0 width paint rest d
      | (some e, d) => (some e, d)

/-- A screen that is drawn whole when no frame is on its way. -/
def drawScreen (first : Nat) (paint : Nat → Nat → Strip → Strip) : DisplayM := fun d =>
  eachStrip 0 0 BSP_LCD_W (fun row rows s => some (paint row rows s)) (strips first BSP_LCD_H) d

/-- How a drawing call begins: its checks, then `wait_frame_idle`. -/
def whenIdle (refused : Display → Option DisplayError) (m : DisplayM) : DisplayM := fun d =>
  match refused d with
  | some e => (some e, d)
  | none =>
    match waitFrameIdle d with
    | (some e, d) => (some e, d)
    | (none, d) => m d

/-! ## Screens -/

def gbDisplayClear (rgb565 : UInt16) : DisplayM :=
  whenIdle (fun d => if ¬ d.ready then some .invalidState else none) fun d =>
    let wire := bswap16 rgb565
    drawScreen 0 (fun _ rows s => s.fill 0 (BSP_LCD_W * rows) wire) { d with previousValid := false }

/-- The pixels of a character in `gb_display_lines`. -/
def lineCharacter (dy yy x : Nat) (c : UInt8) (s : Strip) : Strip :=
  (List.range 5).foldl (fun s col =>
    if glyphColumn c col &&& (1 <<< UInt8.ofNat (yy % 16)) ≠ 0 then
      s.set (dy * BSP_LCD_W + (6 + x * 6) + col) 0xffff else s) s

def lineRow (lines : List (Option (List UInt8))) (row dy : Nat) (s : Strip) : Strip :=
  let top := 24
  if row + dy < top then s
  else
    let yy := row + dy - top
    if lines.length ≤ yy / 16 ∨ 7 ≤ yy % 16 then s
    else
      match lines.getD (yy / 16) none with
      | none => s
      | some line => ((cstr line).take 38).zipIdx.foldl (fun s (c, x) => lineCharacter dy yy x c s) s

/-- A null line is empty. -/
def gbDisplayLines (lines : List (Option (List UInt8))) : DisplayM :=
  whenIdle (fun d => if ¬ d.ready then some .invalidArg else none) fun d =>
    drawScreen 0
      (fun row rows s => (List.range rows).foldl (fun s dy => lineRow lines row dy s) (s.fill 0 (BSP_LCD_W * rows) 0))
      { d with previousValid := false }

def gbDisplayFooter (font : UiFont) (text : List UInt8) (scrollPx : UInt32) : DisplayM :=
  whenIdle (fun d => if ¬ d.ready then some .invalidArg else none) fun d =>
    let paper := bswap16 GB_LCD_LIGHT
    let ink := bswap16 GB_LCD_DARK
    let width := uiTextWidth text
    let offset : Int := if 220 < width then (scrollPx.toNat % (width + 28) : Nat) else 0
    drawScreen 289 (fun row rows s =>
      let s := uiFill row rows 0 row BSP_LCD_W rows ink s
      let s := uiFill row rows 6 293 4 23 (bswap16 GB_LCD_MID) s
      let s := uiTextRegion font row rows (13 - offset) 299 13 233 (some text) paper s
      if offset ≠ 0 ∧ 220 < width then uiTextRegion font row rows
        (13 + width + 28 - offset) 299 13 233 (some text) paper s
      else s) d

def gbDisplayGameHint (font : UiFont) (text : List UInt8) : DisplayM :=
  whenIdle (fun d => if ¬ d.ready then some .invalidArg else none) fun d =>
    drawScreen 272 (fun row rows s =>
      let s := uiFill row rows 0 row BSP_LCD_W rows (bswap16 GB_LCD_MID) s
      let s := uiFill row rows 0 272 BSP_LCD_W 2 (bswap16 GB_LCD_SHADE) s
      uiText font row rows 10 289 232 (some text) (bswap16 GB_LCD_DARK) s) d

def GB_UI_MAX_ITEMS : Nat := 5

/-- `gb_ui_model_t`; its count is that of the items. -/
structure UiModel where
  title : Option (List UInt8)
  hint : Option (List UInt8)
  items : List (Option (List UInt8))
  selected : Nat
  footer : Option (List UInt8)
  /-- -1 when unavailable. -/
  batteryPercent : Int
  compact : Bool

/-- The loop body over the items. -/
def uiItem (font : UiFont) (model : UiModel) (row rows : Int) (s : Strip) (item : Option (List UInt8) × Nat) : Strip :=
  let ink := bswap16 GB_LCD_DARK
  let paper := bswap16 GB_LCD_LIGHT
  let mid := bswap16 GB_LCD_MID
  let shade := bswap16 GB_LCD_SHADE
  let y : Int := 54 + item.2 * 42
  let active := !model.compact && item.2 == model.selected
  let s := uiFill row rows 10 y 220 37 (if active then ink else mid) s
  let s := uiFrame row rows 10 y 220 37 2 (if active then ink else shade) s
  if model.compact then
    let s := uiFill row rows 16 (y + 15) 7 7 ink s
    uiTextRegion font row rows 29 (y + 10) 29 224 item.1 ink s
  else
    let s := uiFill row rows 17 (y + 8) 20 20 (if active then paper else shade) s
    let s := uiText font row rows 21 (y + 10) 36 (some (if active then ">" else "-").toUTF8.toList)
      (if active then ink else paper) s
    uiText font row rows 45 (y + 10) 224 item.1 (if active then paper else ink) s

/-- The battery of the title. -/
def uiBattery (font : UiFont) (percent : Int) (row rows : Int) (s : Strip) : Strip :=
  let ink := bswap16 GB_LCD_DARK
  if 0 ≤ percent then
    let percent := min percent 100
    let s := uiFill row rows 202 9 (percent * 23 / 100) 10 (if percent < 20 then bswap16 GB_LCD_SHADE else ink) s
    uiText font row rows 180 24 239 (some (toString percent ++ "%").toUTF8.toList) ink s
  else uiText font row rows 209 24 239 (some "?".toUTF8.toList) ink s

def uiStrip (font : UiFont) (model : UiModel) (row rows : Int) (s : Strip) : Strip :=
  let bg := bswap16 GB_LCD_LIGHT
  let ink := bswap16 GB_LCD_DARK
  let paper := bswap16 GB_LCD_LIGHT
  let mid := bswap16 GB_LCD_MID
  let s := uiFill row rows 0 row BSP_LCD_W rows bg s
  let s := uiFrame row rows 2 2 236 286 2 ink s
  let s := uiFill row rows 6 41 228 3 ink s
  let s := uiFill row rows 9 8 4 23 (bswap16 GB_LCD_SHADE) s
  let s := uiText font row rows 17 13 180 model.title ink s
  let s := uiFrame row rows 199 6 29 16 2 ink s
  let s := uiFill row rows 228 10 3 8 ink s
  let s := uiBattery font model.batteryPercent row rows s
  let s := model.items.zipIdx.foldl (uiItem font model row rows) s
  let s := uiFill row rows 9 264 222 21 mid s
  let s := uiText font row rows 12 268 230 model.hint ink s
  let s := uiFill row rows 0 289 240 31 ink s
  let s := uiFill row rows 6 293 4 23 mid s
  uiText font row rows 13 299 233 model.footer paper s

def gbDisplayUi (font : UiFont) (model : UiModel) : DisplayM :=
  whenIdle (fun d => if ¬ d.ready ∨ GB_UI_MAX_ITEMS < model.items.length then some .invalidArg else none) fun d =>
    drawScreen 0 (fun row rows s => uiStrip font model row rows s) { d with previousValid := false }

/-! ## Frames -/

/-- The wire colour of a palette index. -/
def wireColor (bgPalette objPalette : Buffer) (index : UInt8) : UInt16 :=
  if GB_PORT_COLOR_BLANK ≤ index then 0xffff
  else
    let i := index.toNat
    let palette := if i < 32 then bgPalette else objPalette
    let offset := i % 32 * 2
    let rgb555 := (palette.get offset).toUInt16 ||| (palette.get (offset + 1)).toUInt16 <<< 8
    let r := rgb555 &&& 31
    let g := (rgb555 >>> 5) &&& 31
    let b := (rgb555 >>> 10) &&& 31
    bswap16 (r <<< 11 ||| ((g <<< 1 ||| g >>> 4) <<< 5) ||| b)

/-- One strip of a color frame. -/
def colorStrip (indices bgPalette objPalette : Buffer) (row rows : Nat) (s : Strip) : Strip :=
  (List.range rows).foldl (fun s dy =>
    (List.range 240).foldl (fun s x =>
      s.set (dy * 240 + x) (wireColor bgPalette objPalette (indices.get ((row + dy) * 2 / 3 * GB_WIDTH + x * 2 / 3))))
        s) s

def gbDisplayColorFrame (indices bgPalette objPalette : Buffer) : DisplayM :=
  whenIdle (fun d => if ¬ d.ready then some .invalidArg else none) fun d =>
    eachStrip 0 52 240 (fun row rows s => some (colorStrip indices bgPalette objPalette row rows s)) (strips 0 216)
      { d with previousValid := false }

/-- What follows the strips of a frame: the frame is the previous one, or there is none. -/
def rememberFrame (frame : Buffer) (enlarged : Bool) (r : Option DisplayError × Display) :
    Option DisplayError × Display :=
  match r with
  | (some e, d) => (some e, { d with previousValid := false })
  | (none, d) => (none, { d with previousFrame := frame, previousValid := true, previousEnlarged := enlarged })

/-- One strip of a boot frame. -/
def bootStrip (frame : Buffer) (row rows : Nat) (s : Strip) : Strip :=
  (List.range rows).foldl (fun s y =>
    (List.range BSP_LCD_W).foldl (fun s x =>
      let dark := gbPixelShade frame (x * 2 / 3) ((row + y) * 2 / 3) != 0
      s.set (y * BSP_LCD_W + x) (bswap16 (if dark then GB_LCD_DARK else GB_LCD_LIGHT))) s) s

def gbDisplayBootFrame (frame : Buffer) : DisplayM :=
  whenIdle (fun _ => none) fun d =>
    rememberFrame frame true <| eachStrip 0 52 BSP_LCD_W (fun row rows s =>
      if d.previousValid ∧ gbPixelsStripChanged frame d.previousFrame row rows true = false then none
      else some (bootStrip frame row rows s)) (strips 0 216) d

/-- One row of a frame, with the source row of the row before it in the strip. -/
def frameRow (frame : Buffer) (enlarged : Bool) (width row : Nat) (acc : Strip × Option Nat) (dy : Nat) :
    Strip × Option Nat :=
  let sy := gbPixelSourceY (row + dy) enlarged
  let out := dy * width
  let s :=
    if enlarged then
      if acc.2 = some sy then acc.1.copy out (out - width) width
      else gbPixelsExpandRow32 frame (sy * (GB_WIDTH / 4)) out acc.1
    else
      (List.range width).foldl (fun s dx => s.set (out + dx) (bswap16 (gbPixelRgb565 (gbPixelShade frame dx sy)))) acc.1
  (s, some sy)

def frameStrip (frame : Buffer) (enlarged : Bool) (width row rows : Nat) (s : Strip) : Strip :=
  ((List.range rows).foldl (frameRow frame enlarged width row) (s, none)).1

def gbDisplayFrame (frame : Buffer) (enlarged : Bool) : DisplayM := fun d =>
  if ¬ d.ready then (some .invalidArg, d)
  else
    let width := if enlarged then 240 else GB_WIDTH
    let height := if enlarged then 216 else GB_HEIGHT
    let x0 := (BSP_LCD_W - width) / 2
    let y0 := (BSP_LCD_H - height) / 2
    rememberFrame frame enlarged <| eachStrip x0 y0 width (fun row rows s =>
      if d.previousValid ∧ d.previousEnlarged = enlarged ∧
        gbPixelsStripChanged frame d.previousFrame row rows enlarged = false then none
      else some (frameStrip frame enlarged width row rows s)) (strips 0 height) d

end FoloGameboy

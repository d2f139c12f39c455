/-
The drawing of `gb_display` into one strip: filled rectangles, frames, and text in the five-column font
and in the sixteen-pixel glyphs of `ui_font`, whose table is a parameter.
-/
import FoloGameboy.Display.Pixels
import FoloGameboy.Storage.Layout

namespace FoloGameboy

def BSP_LCD_W : Nat := 240
def BSP_LCD_H : Nat := 320

/-! ## The five-column font -/

def sDigits : Vector (Vector UInt8 5) 10 :=
  #v[#v[0x3e, 0x51, 0x49, 0x45, 0x3e], #v[0x00, 0x42, 0x7f, 0x40, 0x00], #v[0x42, 0x61, 0x51, 0x49, 0x46],
    #v[0x21, 0x41, 0x45, 0x4b, 0x31], #v[0x18, 0x14, 0x12, 0x7f, 0x10], #v[0x27, 0x45, 0x45, 0x45, 0x39],
    #v[0x3c, 0x4a, 0x49, 0x49, 0x30], #v[0x01, 0x71, 0x09, 0x05, 0x03], #v[0x36, 0x49, 0x49, 0x49, 0x36],
    #v[0x06, 0x49, 0x49, 0x29, 0x1e]]

def sLetters : Vector (Vector UInt8 5) 26 :=
  #v[#v[0x7e, 0x11, 0x11, 0x11, 0x7e], #v[0x7f, 0x49, 0x49, 0x49, 0x36], #v[0x3e, 0x41, 0x41, 0x41, 0x22],
    #v[0x7f, 0x41, 0x41, 0x22, 0x1c], #v[0x7f, 0x49, 0x49, 0x49, 0x41], #v[0x7f, 0x09, 0x09, 0x09, 0x01],
    #v[0x3e, 0x41, 0x49, 0x49, 0x7a], #v[0x7f, 0x08, 0x08, 0x08, 0x7f], #v[0x00, 0x41, 0x7f, 0x41, 0x00],
    #v[0x20, 0x40, 0x41, 0x3f, 0x01], #v[0x7f, 0x08, 0x14, 0x22, 0x41], #v[0x7f, 0x40, 0x40, 0x40, 0x40],
    #v[0x7f, 0x02, 0x0c, 0x02, 0x7f], #v[0x7f, 0x04, 0x08, 0x10, 0x7f], #v[0x3e, 0x41, 0x41, 0x41, 0x3e],
    #v[0x7f, 0x09, 0x09, 0x09, 0x06], #v[0x3e, 0x41, 0x51, 0x21, 0x5e], #v[0x7f, 0x09, 0x19, 0x29, 0x46],
    #v[0x46, 0x49, 0x49, 0x49, 0x31], #v[0x01, 0x01, 0x7f, 0x01, 0x01], #v[0x3f, 0x40, 0x40, 0x40, 0x3f],
    #v[0x1f, 0x20, 0x40, 0x20, 0x1f], #v[0x7f, 0x20, 0x18, 0x20, 0x7f], #v[0x63, 0x14, 0x08, 0x14, 0x63],
    #v[0x03, 0x04, 0x78, 0x04, 0x03], #v[0x61, 0x51, 0x49, 0x45, 0x43]]

/-- `toupper` of the C locale. -/
def toUpper (c : UInt8) : UInt8 := if 0x61 ≤ c ∧ c ≤ 0x7a then c - 0x20 else c

/-- An entry of a font table. -/
def fontColumn {n : Nat} (table : Vector (Vector UInt8 5) n) (row column : Nat) : UInt8 :=
  (table[row]?.bind fun columns => columns[column]?).getD 0

def glyphColumn (character : UInt8) (column : Nat) : UInt8 :=
  let c := toUpper character
  if 0x30 ≤ c ∧ c ≤ 0x39 then fontColumn sDigits (c - 0x30).toNat column
  else if 0x41 ≤ c ∧ c ≤ 0x5a then fontColumn sLetters (c - 0x41).toNat column
  else if c = '-'.toUInt8 then 0x08
  else if c = '+'.toUInt8 then if column = 2 then 0x1c else 0x08
  else if c = '_'.toUInt8 then if column < 5 then 0x40 else 0
  else if c = '.'.toUInt8 then if column = 2 then 0x40 else 0
  else if c = ':'.toUInt8 then if column = 2 then 0x24 else 0
  else if c = '%'.toUInt8 then
    if column = 0 then 0x63 else if column = 1 then 0x13 else if column = 2 then 0x08
    else if column = 3 then 0x64 else 0x63
  else if c = '?'.toUInt8 then
    if column = 0 then 0x02 else if column = 1 then 0x01 else if column = 2 then 0x51
    else if column = 3 then 0x09 else 0x06
  else if c = '>'.toUInt8 then if column = 1 then 0x22 else if column = 2 then 0x14 else if column = 3 then 0x08 else 0
  else if c = '/'.toUInt8 then 0x40 >>> UInt8.ofNat column
  else 0

/-! ## Rectangles -/

def uiFill (stripY rows x y w h : Int) (color : UInt16) (s : Strip) : Strip :=
  let w := if x < 0 then w + x else w
  let x := if x < 0 then 0 else x
  let w := if (BSP_LCD_W : Int) < x + w then BSP_LCD_W - x else w
  if w ≤ 0 then s
  else
    let first := max y stripY
    let last := min (y + h) (stripY + rows)
    (List.range (last - first).toNat).foldl
      (fun s (i : Nat) => s.fill ((first + i - stripY) * BSP_LCD_W + x).toNat w.toNat color) s

def uiFrame (stripY rows x y w h border : Int) (color : UInt16) (s : Strip) : Strip :=
  let s := uiFill stripY rows x y w border color s
  let s := uiFill stripY rows x (y + h - border) w border color s
  let s := uiFill stripY rows x y border h color s
  uiFill stripY rows (x + w - border) y border h color s

/-! ## Text -/

/-- The code point at the head of a text and the rest; past its end a text reads as zero. -/
def uiNextCodepoint (text : List UInt8) : UInt32 × List UInt8 :=
  let cp := (text.getD 0 0).toUInt32
  let s := text.drop 1
  let at' := fun i => s.getD i 0
  let low := fun i => (at' i &&& 63).toUInt32
  if 0xF0 ≤ cp ∧ at' 0 ≠ 0 ∧ at' 1 ≠ 0 ∧ at' 2 ≠ 0 then
    (((cp &&& 7) <<< 18) ||| (low 0 <<< 12) ||| (low 1 <<< 6) ||| low 2, s.drop 3)
  else if 0xE0 ≤ cp ∧ at' 0 ≠ 0 ∧ at' 1 ≠ 0 then (((cp &&& 15) <<< 12) ||| (low 0 <<< 6) ||| low 1, s.drop 2)
  else if 0xC0 ≤ cp ∧ at' 0 ≠ 0 then (((cp &&& 31) <<< 6) ||| low 0, s.drop 1)
  else (cp, s)

/-- `ui_font_rows`. -/
abbrev UiFont : Type := UInt32 → Option (Vector UInt16 16)

/-- Whether a pixel of a glyph is drawn; a missing glyph is a box. -/
def glyphOn (font : UiFont) (cp : UInt32) (px py : Nat) : Bool :=
  match if 127 < cp then font cp else none with
  | some glyph => (glyph[py]?.getD 0) &&& ((0x8000 : UInt16) >>> UInt16.ofNat px) != 0
  | none =>
    if 127 < cp then py == 0 || py == 15 || px == 0 || px == 15
    else if px < 10 ∧ 1 ≤ py ∧ py < 15 then glyphColumn cp.toUInt8 (px / 2) &&& (1 <<< UInt8.ofNat ((py - 1) / 2)) != 0
    else false

/-- One character. -/
def uiGlyph (font : UiFont) (stripY rows x y minX maxX : Int) (cp : UInt32) (color : UInt16) (s : Strip) : Strip :=
  (List.range 16).foldl (fun s (py : Nat) =>
    let yy := y + py
    if yy < stripY ∨ stripY + rows ≤ yy then s
    else
      (List.range (if 127 < cp then 16 else 12)).foldl (fun s (px : Nat) =>
        if x + px < maxX ∧ glyphOn font cp px py ∧ minX ≤ x + px then
          s.set ((yy - stripY) * BSP_LCD_W + x + px).toNat color
        else s) s) s

/-- The loop of `ui_text_region`, over the characters left; every character takes a byte at least. -/
def uiCharacters (font : UiFont) (stripY rows y minX maxX : Int) (color : UInt16) :
    Nat → Int → List UInt8 → Strip → Strip
  | 0, _, _, s => s
  | fuel + 1, x, text, s =>
    if text.isEmpty ∨ maxX ≤ x then s
    else
      let (cp, rest) := uiNextCodepoint text
      uiCharacters font stripY rows y minX maxX color fuel (x + (if 127 < cp then 16 else 12) + 1) rest
        (uiGlyph font stripY rows x y minX maxX cp color s)

/-- A null text is not drawn. -/
def uiTextRegion (font : UiFont) (stripY rows x y minX maxX : Int)
    (text : Option (List UInt8)) (color : UInt16) (s : Strip) : Strip :=
  match text with
  | none => s
  | some text =>
    let text := cstr text
    uiCharacters font stripY rows y minX maxX color text.length x text s

def uiText (font : UiFont) (stripY rows x y maxX : Int) (text : Option (List UInt8))
    (color : UInt16) (s : Strip) : Strip :=
  uiTextRegion font stripY rows x y 0 maxX text color s

def uiWidths : Nat → List UInt8 → Nat
  | 0, _ => 0
  | fuel + 1, text =>
    if text.isEmpty then 0
    else
      let (cp, rest) := uiNextCodepoint text
      (if 127 < cp then 17 else 13) + uiWidths fuel rest

def uiTextWidth (text : List UInt8) : Nat :=
  let text := cstr text
  uiWidths text.length text

end FoloGameboy

/-
`gb_pixels`: shades and colours of a packed frame, the 3:2 row expansion and the comparison of strips;
with the strip buffer they are drawn into.
-/
import FoloGameboy.Lib.Buffer
import Mathlib.Tactic.IntervalCases

namespace FoloGameboy

/-! ## Strips -/

/-- `s_strip`, pixel by pixel. -/
abbrev Strip : Type := Nat → UInt16

def Strip.set (s : Strip) (i : Nat) (color : UInt16) : Strip := fun j => if j = i then color else s j

/-- The same colour in `n` pixels from `start` on. -/
def Strip.fill (s : Strip) (start n : Nat) (color : UInt16) : Strip :=
  fun j => if start ≤ j ∧ j < start + n then color else s j

/-- `memcpy` of `n` pixels inside the strip. -/
def Strip.copy (s : Strip) (dst src n : Nat) : Strip :=
  fun j => if dst ≤ j ∧ j < dst + n then s (src + (j - dst)) else s j

/-- `__builtin_bswap16`. -/
def bswap16 (v : UInt16) : UInt16 := v <<< 8 ||| v >>> 8

/-! ## Frames -/

def GB_WIDTH : Nat := 160
def GB_HEIGHT : Nat := 144
def GB_LCD_LIGHT : UInt16 := 0x9DC2
def GB_LCD_MID : UInt16 := 0x8D42
def GB_LCD_SHADE : UInt16 := 0x3306
def GB_LCD_DARK : UInt16 := 0x09C2

def gbPixelShade (frame : Buffer) (x y : Nat) : UInt8 :=
  (frame.get (y * (GB_WIDTH / 4) + x / 4) >>> UInt8.ofNat (x % 4 * 2)) &&& 3

def gbPixelRgb565 (shade : UInt8) : UInt16 :=
  (#v[GB_LCD_LIGHT, GB_LCD_MID, GB_LCD_SHADE, GB_LCD_DARK] : Vector UInt16 4)[(shade &&& 3).toNat]?.getD 0

def gbPixelSourceX (destX : Nat) (enlarged : Bool) : Nat := if enlarged then destX * GB_WIDTH / 240 else destX
def gbPixelSourceY (destY : Nat) (enlarged : Bool) : Nat := if enlarged then destY * GB_HEIGHT / 216 else destY

/-- One byte of a row: four pixels on six. -/
def expandByte (pixels : UInt8) (i : Nat) (wire : Strip) : Strip :=
  let colors := fun shade => bswap16 (gbPixelRgb565 shade)
  let wire := (wire.set i (colors (pixels &&& 3))).set (i + 1) (colors (pixels &&& 3))
  let wire := wire.set (i + 2) (colors ((pixels >>> 2) &&& 3))
  let wire := (wire.set (i + 3) (colors ((pixels >>> 4) &&& 3))).set (i + 4) (colors ((pixels >>> 4) &&& 3))
  wire.set (i + 5) (colors (pixels >>> 6))

/-- `packed` and `wire` point into the frame and the strip. -/
def gbPixelsExpandRow32 (frame : Buffer) (packed : Nat) (out : Nat) (wire : Strip) : Strip :=
  (List.range (GB_WIDTH / 4)).foldl (fun wire i => expandByte (frame.get (packed + i)) (out + i * 6) wire) wire

def gbPixelsStripChanged (frame previous : Buffer) (firstDestRow destRows : Nat) (enlarged : Bool) : Bool :=
  let first := gbPixelSourceY firstDestRow enlarged
  let last := gbPixelSourceY (firstDestRow + destRows - 1) enlarged
  (List.range (last + 1 - first)).any fun i =>
    (List.range (GB_WIDTH / 4)).any fun k =>
      frame.get ((first + i) * (GB_WIDTH / 4) + k) != previous.get ((first + i) * (GB_WIDTH / 4) + k)

/-! ## The 3:2 expansion -/

/-- The pixel of an enlarged frame at a column and a row of the panel's game area. -/
def enlargedPixel (frame : Buffer) (x y : Nat) : UInt16 :=
  bswap16 (gbPixelRgb565 (gbPixelShade frame (gbPixelSourceX x true) (gbPixelSourceY y true)))

theorem sourceX_enlarged (x : Nat) : gbPixelSourceX x true = x * 2 / 3 := by
  show x * 160 / 240 = x * 2 / 3
  omega

theorem sourceY_enlarged (y : Nat) : gbPixelSourceY y true = y * 2 / 3 := by
  show y * 144 / 216 = y * 2 / 3
  omega

theorem gbPixelRgb565_high : ∀ p :
    UInt8, gbPixelRgb565 (p >>> 6) = gbPixelRgb565 ((p >>> 6) &&& 3) := fun ⟨p⟩ => by
  revert p
  decide +kernel

theorem expandByte_pixel (pixels : UInt8) (i : Nat) (wire : Strip) (k : Nat) : expandByte pixels i wire k =
    if i ≤ k ∧ k < i + 6 then bswap16
      (gbPixelRgb565 ((pixels >>> UInt8.ofNat ((k - i) * 2 / 3 * 2)) &&& 3)) else wire k := by
  by_cases hin : i ≤ k ∧ k < i + 6
  · obtain ⟨r, rfl⟩ := Nat.exists_eq_add_of_le hin.1
    have hr : r < 6 := by omega
    rw [if_pos hin, Nat.add_sub_cancel_left]
    unfold expandByte Strip.set
    interval_cases r <;> simp [gbPixelRgb565_high]
  · rw [if_neg hin]
    unfold expandByte Strip.set
    simp only
    repeat rw [if_neg (by omega)]

theorem gbPixelsExpandRow32_pixel (frame : Buffer) (packed out : Nat) (wire : Strip) (k : Nat) :
    gbPixelsExpandRow32 frame packed out wire k =
      if out ≤ k ∧ k < out + 240 then
        bswap16 (gbPixelRgb565
          ((frame.get (packed + (k - out) * 2 / 3 / 4) >>>
          UInt8.ofNat ((k - out) * 2 / 3 % 4 * 2)) &&& 3))
      else wire k := by
  -- the first `n` bytes of the row
  have hrow : ∀ n,
      ((List.range n).foldl (fun wire i => expandByte (frame.get (packed + i)) (out + i * 6) wire)
      wire) k = if out ≤ k ∧ k < out + n * 6 then
        bswap16 (gbPixelRgb565
          ((frame.get (packed + (k - out) * 2 / 3 / 4) >>>
          UInt8.ofNat ((k - out) * 2 / 3 % 4 * 2)) &&& 3))
      else wire k := by
    intro n
    induction n with
    | zero => rw [if_neg (by omega)]; rfl
    | succ n ih =>
      rw [List.range_succ, List.foldl_append, List.foldl_cons, List.foldl_nil, expandByte_pixel, ih]
      by_cases hlast : out + n * 6 ≤ k ∧ k < out + n * 6 + 6
      · have hbyte : (k - out) * 2 / 3 / 4 = n := by omega
        have hpixel : (k - out) * 2 / 3 % 4 = (k - (out + n * 6)) * 2 / 3 := by omega
        rw [if_pos hlast, if_pos (by omega), hbyte, hpixel]
      · rw [if_neg hlast]
        by_cases hin : out ≤ k ∧ k < out + n * 6
        · rw [if_pos hin, if_pos (by omega)]
        · rw [if_neg hin, if_neg (by omega)]
  exact hrow 40

/-- A row of the frame, expanded at a row of the strip. -/
theorem expandRow_enlarged (frame : Buffer) (y dy : Nat) (wire : Strip) {x : Nat} (hx : x < 240) :
    gbPixelsExpandRow32 frame (gbPixelSourceY y true * (GB_WIDTH / 4)) (dy * 240) wire
      (dy * 240 + x) = enlargedPixel frame x y := by
  rw [gbPixelsExpandRow32_pixel, if_pos (by omega), Nat.add_sub_cancel_left]
  unfold enlargedPixel gbPixelShade
  rw [sourceX_enlarged]

theorem expandRow_other (frame : Buffer) (packed dy : Nat) (wire : Strip) {k : Nat} (hk : k < dy * 240) :
    gbPixelsExpandRow32 frame packed (dy * 240) wire k = wire k := by
  rw [gbPixelsExpandRow32_pixel, if_neg (by omega)]

/-! ## Unchanged strips -/

/-- The source rows of an unchanged strip look the same in both frames. -/
theorem not_stripChanged {frame previous : Buffer} {row rows : Nat}
    (h : gbPixelsStripChanged frame previous row rows true = false)
    {x y : Nat} (hx : x < 240) (hfirst : row ≤ y) (hlast : y < row + rows) :
    enlargedPixel frame x y = enlargedPixel previous x y := by
  have hsource : gbPixelSourceX x true / 4 < GB_WIDTH / 4 := by
    rw [sourceX_enlarged]
    show x * 2 / 3 / 4 < 160 / 4
    omega
  have hbyte : frame.get (gbPixelSourceY y true * (GB_WIDTH / 4) + gbPixelSourceX x true / 4) =
      previous.get (gbPixelSourceY y true * (GB_WIDTH / 4) + gbPixelSourceX x true / 4) := by
    unfold gbPixelsStripChanged at h
    simp only [List.any_eq_false, List.mem_range, Bool.not_eq_true, bne_eq_false_iff_eq] at h
    rw [sourceY_enlarged row, sourceY_enlarged (row + rows - 1)] at h
    rw [sourceY_enlarged y]
    have hrow : row * 2 / 3 + (y * 2 / 3 - row * 2 / 3) = y * 2 / 3 := by omega
    have hrowIn : y * 2 / 3 - row * 2 / 3 < (row + rows - 1) * 2 / 3 + 1 - row * 2 / 3 := by omega
    have hsame := h _ hrowIn _ hsource
    rwa [hrow] at hsame
  unfold enlargedPixel gbPixelShade
  rw [hbyte]

end FoloGameboy

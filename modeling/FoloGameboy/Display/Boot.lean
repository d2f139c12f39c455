/-
`gb_boot_frame`: the frames of the boot animation, whose pixels have the lightest or the darkest shade.
-/
import FoloGameboy.Display.Pixels
import Mathlib.Tactic.IntervalCases

namespace FoloGameboy

/-! ## The picture -/

def bootLogo : Vector UInt8 48 :=
  #v[0xce, 0xed, 0x66, 0x66, 0xcc, 0x0d, 0x00, 0x0b, 0x03, 0x73,
    0x00, 0x83, 0x00, 0x0c, 0x00, 0x0d, 0x00, 0x08, 0x11, 0x1f, 0x88, 0x89, 0x00,
    0x0e, 0xdc, 0xcc, 0x6e, 0xe6, 0xdd, 0xdd, 0xd9, 0x99, 0xbb,
      0xbb, 0x67, 0x63, 0x6e, 0x0e, 0xec, 0xcc, 0xdd, 0xdc, 0x99, 0x9f, 0xbb, 0xb9,
    0x33, 0x3e]

def bootRegistered : Vector UInt8 8 := #v[0x3c, 0x42, 0xb9, 0xa5, 0xb9, 0xa5, 0x42, 0x3c]

/-- `dot`: one pixel of the darkest shade. -/
def dot (x y : Int) (frame : Buffer) : Buffer :=
  if 0 ≤ x ∧ x < GB_WIDTH ∧ 0 ≤ y ∧ y < GB_HEIGHT then
    let i := y.toNat * (GB_WIDTH / 4) + x.toNat / 4
    frame.set i (frame.get i ||| 3 <<< UInt8.ofNat (x.toNat % 4 * 2))
  else frame

/-- The bits of a byte of the logo, each four pixels. -/
def logoByte (value : UInt8) (x y : Int) (frame : Buffer) : Buffer :=
  (List.range 8).foldl (fun frame (bit : Nat) =>
    if value &&& (0x80 >>> UInt8.ofNat bit) ≠ 0 then
      let dx : Int := (bit % 4 * 2 : Nat)
      let dy : Int := (bit / 4 * 2 : Nat)
      dot (x + dx + 1) (y + dy + 1)
        (dot (x + dx) (y + dy + 1) (dot (x + dx + 1) (y + dy) (dot (x + dx) (y + dy) frame)))
    else frame) frame

def gbBootFrame (top : Int) : Buffer :=
  let frame := (List.range 48).foldl (fun frame (i : Nat) =>
    logoByte (bootLogo[i]?.getD 0) (32 + i / 2 % 12 * 8) (top + i / 24 * 8 + i % 2 * 4) frame)
      (.fill (GB_WIDTH * GB_HEIGHT / 4) 0)
  (List.range 8).foldl (fun frame (y : Nat) =>
    (List.range 8).foldl (fun frame (x : Nat) =>
      if (bootRegistered[y]?.getD 0) &&& (0x80 >>> UInt8.ofNat x) ≠ 0 then dot (128 + x) (top + y) frame
      else frame) frame) frame

/-! ## Two shades -/

/-- Every pixel has the lightest or the darkest shade. -/
def TwoShades (frame : Buffer) : Prop :=
  ∀ x < GB_WIDTH, ∀ y < GB_HEIGHT, gbPixelShade frame x y = 0 ∨ gbPixelShade frame x y = 3

theorem dot_shade : ∀ v : UInt8, ∀ k < 4, ∀ j < 4,
    ((v ||| 3 <<< UInt8.ofNat (k * 2)) >>> UInt8.ofNat (j * 2)) &&& 3 = if j = k then 3
      else (v >>> UInt8.ofNat (j * 2)) &&& 3 :=
  fun ⟨v⟩ => by
    revert v
    decide +kernel

theorem dot_twoShades (x y : Int) {frame : Buffer} (h : TwoShades frame) : TwoShades (dot x y frame) := by
  unfold dot
  split
  · intro px hpx py hpy
    unfold gbPixelShade
    dsimp only
    generalize hi : y.toNat * (GB_WIDTH / 4) + x.toNat / 4 = i
    by_cases hbyte : py * (GB_WIDTH / 4) + px / 4 = i
    · rw [hbyte]
      by_cases hin : i < frame.size
      · rw [Buffer.get_set_self hin, dot_shade _ _ (Nat.mod_lt _ (by decide)) _ (Nat.mod_lt _ (by decide))]
        split
        · exact .inr rfl
        · rw [← hbyte]
          exact h px hpx py hpy
      · unfold Buffer.set
        rw [if_neg hin, ← hbyte]
        exact h px hpx py hpy
    · rw [Buffer.get_set_ne frame hbyte]
      exact h px hpx py hpy
  · exact h

theorem foldl_twoShades {α : Type} (l : List α) (f : Buffer → α → Buffer)
    (hf : ∀ frame a, TwoShades frame → TwoShades (f frame a))
    {frame : Buffer} (h : TwoShades frame) : TwoShades (l.foldl f frame) := by
  induction l generalizing frame with
  | nil => exact h
  | cons a l ih => exact ih (hf frame a h)

theorem logoByte_twoShades (value : UInt8) (x y : Int) {frame : Buffer} (h : TwoShades frame) :
    TwoShades (logoByte value x y frame) := by
  refine foldl_twoShades _ _ (fun frame bit h => ?_) h
  split
  · exact dot_twoShades _ _ (dot_twoShades _ _ (dot_twoShades _ _ (dot_twoShades _ _ h)))
  · exact h

theorem blank_twoShades (n : Nat) : TwoShades (.fill n 0) := by
  intro x _ y _
  have hzero : (Buffer.fill n 0).get (y * (GB_WIDTH / 4) + x / 4) = 0 := by
    unfold Buffer.get
    exact ite_self 0
  left
  unfold gbPixelShade
  rw [hzero, UInt8.zero_shiftRight, UInt8.zero_and]

theorem gbBootFrame_twoShades (top : Int) : TwoShades (gbBootFrame top) := by
  refine foldl_twoShades _ _ (fun frame y h => ?_)
    (foldl_twoShades _ _ (fun frame i h => logoByte_twoShades _ _ _ h) (blank_twoShades _))
  refine foldl_twoShades _ _ (fun frame x h => ?_) h
  split
  · exact dot_twoShades _ _ h
  · exact h

/-- A frame as the boot animation makes them. -/
structure BootFrame where
  frame : Buffer
  twoShades : TwoShades frame

def bootAnimationFrame (top : Int) : BootFrame := ⟨gbBootFrame top, gbBootFrame_twoShades top⟩

end FoloGameboy

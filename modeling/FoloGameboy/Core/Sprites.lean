/-
Sprites of a DMG line: what the painter's loop of `renderLine` leaves at a pixel, and when that is the
pixel of the opaque sprite with the highest priority. A sprite that stays behind the background does
not cover the sprites drawn before it.
-/
import FoloGameboy.Core.Line

namespace FoloGameboy

variable {σ : Type}

/-! ## One sprite at one pixel -/

def spriteX (b : Bus σ) (i : Nat) : UInt8 := b.mem.oam.get (i * 4 + 1)

def spriteFlags (b : Bus σ) (i : Nat) : UInt8 := b.mem.oam.get (i * 4 + 3)

/-- The row of the sprite on a line, counted from its top. -/
def spriteRow (b : Bus σ) (line i : Nat) : Nat :=
  let row := line + 16 - (b.mem.oam.get (i * 4)).toNat
  if hasBits (spriteFlags b i) 0x40 then spriteHeight b.lcd - 1 - row else row

/-- The address of that row: a sprite of 16 rows lies in two tiles that follow each other. -/
def spriteAddr (b : Bus σ) (line i : Nat) : Nat :=
  let tile := b.mem.oam.get (i * 4 + 2)
  (if spriteHeight b.lcd = 16 then tile &&& 0xFE else tile).toNat * 16 + spriteRow b line i * 2

/-- The sprite's colour index at a column; 0, which is transparent, beside its 8 columns. -/
def spriteIndex (b : Bus σ) (line i x : Nat) : UInt8 :=
  if (spriteX b i).toNat ≤ x + 8 ∧ x < (spriteX b i).toNat then
    let px := x + 8 - (spriteX b i).toNat
    colorIndex (b.mem.vram.get (spriteAddr b line i)) (b.mem.vram.get (spriteAddr b line i + 1))
      (if hasBits (spriteFlags b i) 0x20 then px else 7 - px)
  else 0

def spriteShade (b : Bus σ) (line i x : Nat) : UInt8 :=
  applyPalette b (if hasBits (spriteFlags b i) 0x10 then b.lcd.obp1 else b.lcd.obp0) (spriteIndex b line i x).toNat

/-- The sprite's behind-background flag. -/
def Behind (b : Bus σ) (i : Nat) : Prop := hasBits (spriteFlags b i) 0x80 = true

instance (b : Bus σ) (i : Nat) : Decidable (Behind b i) := by unfold Behind; infer_instance

/-! ## The priority rule -/

/-- Lower X first, ties by OAM index. -/
def Before (oam : Buffer) (i j : Nat) : Prop :=
  oam.get (i * 4 + 1) < oam.get (j * 4 + 1) ∨ (oam.get (i * 4 + 1) = oam.get (j * 4 + 1) ∧ i < j)

/-- Of the line's sprites with a property, the one with the highest priority. -/
def Top (b : Bus σ) (line : Nat) (p : Nat → Prop) (i : Nat) : Prop :=
  i ∈ visibleSprites b line ∧ p i ∧ ∀ j ∈ visibleSprites b line, p j → j = i ∨ Before b.mem.oam i j

/-- The opaque sprite with the highest priority decides the pixel, by itself. -/
structure SpriteRule (b : Bus σ) (line x : Nat) (shade : UInt8) : Prop where
  winner : ∀ i, Top b line (fun i => spriteIndex b line i x ≠ 0) i →
    shade = (if Behind b i ∧ referenceIndex b line x ≠ 0 then referenceShade b line x else spriteShade b line i x) &&& 3
  none : (∀ i ∈ visibleSprites b line, spriteIndex b line i x = 0) → shade = referenceShade b line x &&& 3

/-- Behind a winner that the background hides, a sprite without the flag is drawn, and looks different
from the background. -/
def ShowsThrough (b : Bus σ) (line x : Nat) : Prop :=
  ∃ i j, Top b line (fun i => spriteIndex b line i x ≠ 0) i ∧ Behind b i ∧ referenceIndex b line x ≠ 0 ∧
    Top b line (fun j => spriteIndex b line j x ≠ 0 ∧ ¬ Behind b j) j ∧
      spriteShade b line j x &&& 3 ≠ referenceShade b line x &&& 3

/-! ## The painter's loop -/

/-- The sprite is drawn at a pixel: opaque and not hidden. -/
def Shown (b : Bus σ) (line x : Nat) (i : Nat) : Prop :=
  spriteIndex b line i x ≠ 0 ∧ ¬ (Behind b i ∧ referenceIndex b line x ≠ 0)

instance (b : Bus σ) (line x i : Nat) : Decidable (Shown b line x i) := by unfold Shown; infer_instance

section
variable {b : Bus σ} (hdmg : b.cgb.isCgb = false)

theorem spriteHeight_cases (l : Lcd) : spriteHeight l = 8 ∨ spriteHeight l = 16 := by
  unfold spriteHeight
  split
  · exact .inr rfl
  · exact .inl rfl

/-- A sprite covers the line. -/
def Covers (b : Bus σ) (line i : Nat) : Prop :=
  spriteTop b.mem.oam i ≤ line ∧ (line : Int) < spriteTop b.mem.oam i + spriteHeight b.lcd

theorem covers_of_visible {line i : Nat} (h : i ∈ visibleSprites b line) : Covers b line i := by
  unfold visibleSprites at h
  have hcovers := (List.mem_filter.mp (List.mem_of_mem_take h)).2
  rw [decide_eq_true_eq] at hcovers
  exact hcovers

include hdmg

theorem fetchSprite_eq {line i : Nat} (h : Covers b line i) :
    fetchSprite b i line = (b.mem.vram.get (spriteAddr b line i),
      b.mem.vram.get (spriteAddr b line i + 1)) := by
  obtain ⟨hlow, hhigh⟩ := h
  have htop : ((line : Int) - spriteTop b.mem.oam i).toNat = line + 16 - (b.mem.oam.get (i * 4)).toNat := by
    unfold spriteTop
    omega
  have hrow : spriteRow b line i < spriteHeight b.lcd := by
    unfold spriteTop at hlow hhigh
    unfold spriteRow
    dsimp only
    rcases spriteHeight_cases b.lcd with hh | hh
    · rw [hh] at hhigh ⊢
      split <;> omega
    · rw [hh] at hhigh ⊢
      split <;> omega
  have hfetch : fetchSprite b i line = (b.mem.vram.get
      ((if spriteHeight b.lcd = 16 then (b.mem.oam.get (i * 4 + 2) &&& 0xFE).toNat +
        (if 8 ≤ spriteRow b line i then 1 else 0)
        else (b.mem.oam.get (i * 4 + 2)).toNat) * 16 +
          (if spriteHeight b.lcd = 16 then spriteRow b line i % 8 else spriteRow b line i) * 2),
      b.mem.vram.get
      ((if spriteHeight b.lcd = 16 then (b.mem.oam.get (i * 4 + 2) &&& 0xFE).toNat +
        (if 8 ≤ spriteRow b line i then 1 else 0)
        else (b.mem.oam.get (i * 4 + 2)).toNat) * 16 +
          (if spriteHeight b.lcd = 16 then spriteRow b line i % 8 else spriteRow b line i) * 2 + 1)) := by
    unfold fetchSprite
    simp only [hdmg, Bool.false_eq_true, false_and, if_false, htop]
    rfl
  have haddr : (if spriteHeight b.lcd = 16 then (b.mem.oam.get (i * 4 + 2) &&& 0xFE).toNat +
      (if 8 ≤ spriteRow b line i then 1 else 0)
      else (b.mem.oam.get (i * 4 + 2)).toNat) * 16 +
        (if spriteHeight b.lcd = 16 then spriteRow b line i % 8 else spriteRow b line i) * 2 =
          spriteAddr b line i := by
    unfold spriteAddr
    dsimp only
    rcases spriteHeight_cases b.lcd with hh | hh
    · rw [hh]
      rfl
    · rw [hh] at hrow ⊢
      simp only [if_true]
      split <;> omega
  rw [hfetch, haddr]

omit hdmg in
theorem spriteIndex_at {line i px x : Nat} (hx : x + 8 = (spriteX b i).toNat + px) (hpx : px < 8) :
    spriteIndex b line i x = colorIndex (b.mem.vram.get (spriteAddr b line i))
      (b.mem.vram.get (spriteAddr b line i + 1))
      (if hasBits (spriteFlags b i) 0x20 then px else 7 - px) := by
  have hcol : x + 8 - (spriteX b i).toNat = px := by omega
  unfold spriteIndex
  rw [if_pos (by omega), hcol]

theorem spriteHidden_iff {line i x : Nat} {lb : LineBuf}
    (hprio : lb.bgPriority x = referenceIndex b line x) :
    spriteHidden b (hasBits (spriteFlags b i) 0x80) (lb.bgPriority x) = true ↔ Behind b i ∧
      referenceIndex b line x ≠ 0 := by
  unfold spriteHidden Behind
  simp only [hdmg, Bool.false_eq_true, if_false, Bool.and_eq_true, bne_iff_ne, hprio]

/-- One pixel of a sprite. -/
theorem plotSprite_pixel {line i : Nat} (h : Covers b line i) {px x : Nat} (hpx : px < 8)
    (hx : x < GB_W) {lb : LineBuf} (hprio : lb.bgPriority x = referenceIndex b line x) :
    (plotSprite b i (fetchSprite b i line) px lb).row x =
        (if x + 8 = (spriteX b i).toNat + px ∧ Shown b line x i then spriteShade b line i x else lb.row x) ∧
      (plotSprite b i (fetchSprite b i line) px lb).bgPriority = lb.bgPriority := by
  have hX : (b.mem.oam.get (i * 4 + 1)).toNat = (spriteX b i).toNat := rfl
  have hF : b.mem.oam.get (i * 4 + 3) = spriteFlags b i := rfl
  unfold plotSprite
  rw [fetchSprite_eq hdmg h, hF]
  dsimp only
  rw [hX]
  generalize hscreen : ((spriteX b i).toNat : Int) - 8 + px = screenX
  by_cases hout : screenX < 0 ∨ (GB_W : Int) ≤ screenX
  · rw [if_pos hout]
    exact ⟨(if_neg fun hs => by omega).symm, rfl⟩
  rw [if_neg hout]
  by_cases hcol : x + 8 = (spriteX b i).toNat + px
  · -- this is the sprite's pixel at the column
    have hat : screenX.toNat = x := by omega
    rw [hat, ← spriteIndex_at hcol hpx]
    by_cases hskip : spriteIndex b line i x = 0 ∨
      spriteHidden b (hasBits (spriteFlags b i) 0x80) (lb.bgPriority x) = true
    · rw [if_pos hskip]
      refine ⟨(if_neg ?_).symm, rfl⟩
      rintro ⟨-, hne, hvis⟩
      rcases hskip with hskip | hskip
      · exact hne hskip
      · exact hvis ((spriteHidden_iff hdmg hprio).mp hskip)
    · rw [if_neg hskip]
      rw [not_or] at hskip
      have hshown : Shown b line x i :=
        ⟨hskip.1, fun hhid => hskip.2 ((spriteHidden_iff hdmg hprio).mpr hhid)⟩
      exact ⟨(Function.update_self ..).trans (if_pos ⟨hcol, hshown⟩).symm, rfl⟩
  · have hne : x ≠ screenX.toNat := by omega
    have hother : ¬ (x + 8 = (spriteX b i).toNat + px ∧ Shown b line x i) := fun hs => hcol hs.1
    generalize colorIndex _ _ _ = idx
    by_cases hskip : idx = 0 ∨
      spriteHidden b (hasBits (spriteFlags b i) 0x80) (lb.bgPriority screenX.toNat) = true
    · rw [if_pos hskip]
      exact ⟨(if_neg hother).symm, rfl⟩
    · rw [if_neg hskip]
      exact ⟨(Function.update_of_ne hne _ _).trans (if_neg hother).symm, rfl⟩

/-- The first `n` columns of a sprite. -/
theorem plotColumns_pixel {line i : Nat} (h : Covers b line i) {x : Nat} (hx : x < GB_W) {lb : LineBuf}
    (hprio : lb.bgPriority x = referenceIndex b line x) : ∀ n ≤ 8,
    ((List.range n).foldl (fun lb px => plotSprite b i (fetchSprite b i line) px lb) lb).row x =
        (if (spriteX b i).toNat ≤ x + 8 ∧ x + 8 < (spriteX b i).toNat + n ∧
          Shown b line x i then spriteShade b line i x else lb.row x) ∧
      ((List.range n).foldl (fun lb px => plotSprite b i (fetchSprite b i line) px lb)
        lb).bgPriority = lb.bgPriority
  | 0, _ => by
    rw [if_neg (by omega)]
    exact ⟨rfl, rfl⟩
  | n + 1, hn => by
    obtain ⟨hrow, hkept⟩ := plotColumns_pixel h hx hprio n (by omega)
    rw [List.range_succ, List.foldl_append, List.foldl_cons, List.foldl_nil]
    generalize (List.range n).foldl (fun lb px => plotSprite b i (fetchSprite b i line) px lb) lb =
      lb' at hrow hkept ⊢
    have hcolumn : n < 8 := by omega
    have hprio' : lb'.bgPriority x = referenceIndex b line x := by rw [hkept, hprio]
    obtain ⟨hrow', hkept'⟩ := plotSprite_pixel hdmg h hcolumn hx hprio'
    refine ⟨?_, hkept'.trans hkept⟩
    rw [hrow', hrow]
    by_cases hs : Shown b line x i
    · simp only [hs, and_true]
      by_cases hcol : x + 8 = (spriteX b i).toNat + n
      · rw [if_pos hcol, if_pos (by omega)]
      · rw [if_neg hcol]
        by_cases hin : (spriteX b i).toNat ≤ x + 8 ∧ x + 8 < (spriteX b i).toNat + n
        · rw [if_pos hin, if_pos (by omega)]
        · rw [if_neg hin, if_neg (by omega)]
    · simp only [hs, and_false, if_false]

/-- A whole sprite. -/
theorem drawSprite_pixel {line i : Nat} (h : Covers b line i) {x : Nat} (hx : x < GB_W) {lb : LineBuf}
    (hprio : lb.bgPriority x = referenceIndex b line x) :
    (drawSprite b line lb i).row x = (if Shown b line x i then spriteShade b line i x else lb.row x) ∧
      (drawSprite b line lb i).bgPriority = lb.bgPriority := by
  obtain ⟨hrow, hkept⟩ := plotColumns_pixel hdmg h hx hprio 8 (Nat.le_refl 8)
  refine ⟨?_, hkept⟩
  show ((List.range 8).foldl (fun lb px => plotSprite b i (fetchSprite b i line) px lb) lb).row x = _
  rw [hrow]
  by_cases hs : Shown b line x i
  · have hin : (spriteX b i).toNat ≤ x + 8 ∧ x < (spriteX b i).toNat := by
      by_contra hout
      refine hs.1 ?_
      unfold spriteIndex
      rw [if_neg hout]
    rw [if_pos hs, if_pos ⟨hin.1, by omega, hs⟩]
  · rw [if_neg hs, if_neg fun h => hs h.2.2]

/-- The last sprite drawn at a pixel is the one that stays. -/
theorem foldl_drawSprite_pixel {line x : Nat} (hx : x < GB_W) : ∀ (order : List Nat) (lb : LineBuf),
    (∀ i ∈ order, Covers b line i) →
    lb.bgPriority x = referenceIndex b line x → (order.foldl (drawSprite b line) lb).row x =
      ((order.reverse.find? fun i => decide (Shown b line x i)).map fun i => spriteShade b line i
        x).getD (lb.row x)
  | [], lb, _, _ => rfl
  | i :: order, lb, hcovers, hprio => by
    obtain ⟨hrow, hkept⟩ := drawSprite_pixel hdmg (hcovers i (by simp)) hx hprio
    rw [List.foldl_cons, foldl_drawSprite_pixel hx order _ (fun j hj => hcovers j (by simp [hj]))
      (by rw [hkept]; exact hprio), hrow,
      List.reverse_cons, List.find?_append]
    cases hfind : order.reverse.find? fun i => decide (Shown b line x i) with
    | some j => rfl
    | none =>
      rw [Option.none_or, List.find?_singleton]
      by_cases hs : Shown b line x i
      · simp [hs]
      · simp [hs]

end

/-! ## The drawing order -/

section
variable {oam : Buffer} {i j k : Nat}

theorem Before.trans (h : Before oam i j) (h' : Before oam j k) : Before oam i k := by
  unfold Before at *
  simp only [UInt8.lt_iff_toNat_lt, ← UInt8.toNat_inj] at *
  omega

theorem Before.asymm (h : Before oam i j) : ¬ Before oam j i := by
  unfold Before at *
  simp only [UInt8.lt_iff_toNat_lt, ← UInt8.toNat_inj] at *
  omega

theorem Before.total (hne : i ≠ j) (h : ¬ Before oam i j) : Before oam j i := by
  unfold Before at *
  simp only [UInt8.lt_iff_toNat_lt, ← UInt8.toNat_inj] at *
  omega

/-- Each sprite is drawn after those of a lower priority. -/
def DrawnUp (oam : Buffer) (order : List Nat) : Prop := order.Pairwise fun i j => Before oam j i

theorem mem_insertSprite {cur : Nat} {order : List Nat} : i ∈ insertSprite oam cur order ↔ i = cur ∨
    i ∈ order := by
  induction order with
  | nil => simp [insertSprite]
  | cons prev rest ih =>
    unfold insertSprite
    dsimp only
    split
    · simp
    · simp only [List.mem_cons, ih]
      exact or_left_comm

theorem insertSprite_drawnUp {cur : Nat} {order : List Nat} (h : DrawnUp oam order) (hnew : cur ∉ order) :
    DrawnUp oam (insertSprite oam cur order) := by
  induction order with
  | nil => exact List.pairwise_singleton _ _
  | cons prev rest ih =>
    obtain ⟨hprev, hrest⟩ := List.pairwise_cons.mp h
    rw [List.mem_cons, not_or] at hnew
    unfold insertSprite
    dsimp only
    split
    · rename_i hlower
      refine List.pairwise_cons.mpr ⟨fun a ha => ?_, h⟩
      rcases List.mem_cons.mp ha with rfl | ha
      · exact hlower
      · exact (hprev a ha).trans hlower
    · rename_i hhigher
      refine List.pairwise_cons.mpr ⟨fun a ha => ?_, ih hrest hnew.2⟩
      rcases mem_insertSprite.mp ha with rfl | ha
      · exact Before.total (Ne.symm hnew.1) hhigher
      · exact hprev a ha

/-- The insertion sort, from what is sorted already. -/
theorem foldl_insertSprite : ∀ (vis order : List Nat), DrawnUp oam order → vis.Nodup →
    (∀ i ∈ vis, i ∉ order) →
    DrawnUp oam (vis.foldl (fun acc cur => insertSprite oam cur acc) order) ∧
      ∀ i, i ∈ vis.foldl (fun acc cur => insertSprite oam cur acc) order ↔ i ∈ vis ∨ i ∈ order
  | [], order, h, _, _ => ⟨h, fun i => by simp⟩
  | cur :: vis, order, h, hnodup, hnew => by
    obtain ⟨hcur, hvis⟩ := List.nodup_cons.mp hnodup
    obtain ⟨hsorted, hmem⟩ := foldl_insertSprite vis (insertSprite oam cur order)
      (insertSprite_drawnUp h (hnew cur (by simp))) hvis
      (fun i hi hin => by
        rcases mem_insertSprite.mp hin with rfl | hin
        · exact hcur hi
        · exact hnew i (by simp [hi]) hin)
    refine ⟨hsorted, fun i => ?_⟩
    rw [List.foldl_cons, hmem i, mem_insertSprite, List.mem_cons]
    exact or_left_comm.trans or_assoc.symm

end

section
variable {b : Bus σ} {line : Nat}

theorem visibleSprites_nodup (b : Bus σ) (line : Nat) : (visibleSprites b line).Nodup :=
  ((List.nodup_range).filter _).sublist (List.take_sublist _ _)

theorem drawOrder_drawnUp (hdmg : b.cgb.isCgb = false) : DrawnUp b.mem.oam (drawOrder b line) ∧
    ∀ i, i ∈ drawOrder b line ↔ i ∈ visibleSprites b line := by
  have hempty : DrawnUp b.mem.oam [] := List.Pairwise.nil
  have h := foldl_insertSprite (visibleSprites b line) [] hempty (visibleSprites_nodup b line) (by simp)
  unfold drawOrder
  simp only [hdmg, Bool.false_eq_true, if_false]
  exact ⟨h.1, fun i => by rw [h.2 i]; simp⟩

/-- The first sprite of a list sorted by priority. -/
theorem find_first {oam : Buffer} {p : Nat → Prop} [DecidablePred p] {i : Nat} :
    ∀ {l : List Nat}, l.Pairwise (Before oam) →
    l.find? (fun i => decide (p i)) = some i → i ∈ l ∧ p i ∧ ∀ j ∈ l, p j → j = i ∨ Before oam i j
  | [], _, hfind => by cases hfind
  | a :: l, hsorted, hfind => by
    obtain ⟨ha, hl⟩ := List.pairwise_cons.mp hsorted
    by_cases hp : p a
    · rw [List.find?_cons_of_pos (by simpa using hp)] at hfind
      obtain rfl := Option.some.inj hfind
      refine ⟨by simp, hp, fun j hj _ => ?_⟩
      rcases List.mem_cons.mp hj with rfl | hj
      · exact .inl rfl
      · exact .inr (ha j hj)
    · rw [List.find?_cons_of_neg (by simpa using hp)] at hfind
      obtain ⟨hi, hpi, hfirst⟩ := find_first hl hfind
      refine ⟨by simp [hi], hpi, fun j hj hpj => ?_⟩
      rcases List.mem_cons.mp hj with rfl | hj
      · exact absurd hpj hp
      · exact hfirst j hj hpj

theorem find_top (hdmg : b.cgb.isCgb = false) {p : Nat → Prop} [DecidablePred p] {i : Nat}
    (h : (drawOrder b line).reverse.find? (fun i => decide (p i)) = some i) : Top b line p i := by
  have hdrawn : DrawnUp b.mem.oam (drawOrder b line) ∧ ∀ i, i ∈ drawOrder b line ↔
      i ∈ visibleSprites b line := drawOrder_drawnUp hdmg
  obtain ⟨hsorted, hmem⟩ := hdrawn
  obtain ⟨hi, hp, hfirst⟩ := find_first (List.pairwise_reverse.mpr hsorted) h
  rw [List.mem_reverse] at hi
  exact ⟨(hmem i).mp hi, hp, fun j hj => hfirst j (List.mem_reverse.mpr ((hmem j).mpr hj))⟩

theorem find_none (hdmg : b.cgb.isCgb = false) {p : Nat → Prop} [DecidablePred p]
    (h : (drawOrder b line).reverse.find? (fun i => decide (p i)) = none) :
    ∀ i ∈ visibleSprites b line, ¬ p i := by
  intro i hi
  have hnone := List.find?_eq_none.mp h i (List.mem_reverse.mpr (((drawOrder_drawnUp hdmg).2 i).mpr hi))
  simpa using hnone

theorem Top.unique {p : Nat → Prop} {i j : Nat} (h : Top b line p i) (h' : Top b line p j) : i = j := by
  rcases h.2.2 j h'.1 h'.2.1 with rfl | hij
  · rfl
  rcases h'.2.2 i h.1 h.2.1 with rfl | hji
  · rfl
  · exact absurd hji hij.asymm

end

/-! ## The winner takes the pixel -/

/-- What the painter's loop leaves at a column. -/
def paintedShade (b : Bus σ) (line x : Nat) : UInt8 :=
  (((drawOrder b line).reverse.find? fun i => decide (Shown b line x i)).map fun i => spriteShade b line i x).getD
    (referenceShade b line x)

theorem lineBuf_sprites {b : Bus σ} (hdmg : b.cgb.isCgb = false)
    (hsprites : hasBits b.lcd.lcdc 0x02 = true) {line x : Nat}
    (hx : x < GB_W) : (lineBuf b line).row x = paintedShade b line x := by
  have hpixel := bgLine_pixel hdmg line hx
  have hrow : (bgLine b line).row x = referenceShade b line x := congrArg Prod.fst hpixel
  have hprio : (bgLine b line).bgPriority x = referenceIndex b line x := congrArg Prod.snd hpixel
  rw [lineBuf_eq]
  unfold drawSprites paintedShade
  rw [if_pos hsprites, foldl_drawSprite_pixel hdmg hx _ _ ?_ hprio, hrow]
  exact fun i hi => covers_of_visible (((drawOrder_drawnUp hdmg).2 i).mp hi)

/-- The rule holds of what was painted unless a lower sprite shows through. -/
theorem paintedShade_rule {b : Bus σ} (hdmg : b.cgb.isCgb = false) (line x : Nat) :
    SpriteRule b line x (paintedShade b line x &&& 3) ↔ ¬ ShowsThrough b line x := by
  unfold paintedShade
  cases hopaque : (drawOrder b line).reverse.find? (fun i => decide (spriteIndex b line i x ≠ 0)) with
  | none =>
    have hnone := find_none hdmg hopaque
    have hshown : (drawOrder b line).reverse.find? (fun i => decide (Shown b line x i)) = none := by
      cases hfind : (drawOrder b line).reverse.find? (fun i => decide (Shown b line x i)) with
      | none => rfl
      | some i => exact absurd (find_top hdmg hfind).2.1.1 (hnone i (find_top hdmg hfind).1)
    rw [hshown]
    refine iff_of_true ⟨fun i hi => absurd hi.2.1 (hnone i hi.1), fun _ => rfl⟩ ?_
    rintro ⟨i, -, hi, -⟩
    exact hnone i hi.1 hi.2.1
  | some w =>
    have hw := find_top hdmg hopaque
    have hsome : ¬ ∀ i ∈ visibleSprites b line, spriteIndex b line i x = 0 :=
      fun hall => hw.2.1 (hall w hw.1)
    by_cases hhidden : Behind b w ∧ referenceIndex b line x ≠ 0
    · cases hfind : (drawOrder b line).reverse.find? (fun i => decide (Shown b line x i)) with
      | none =>
        -- every opaque sprite is hidden
        have hnone := find_none hdmg hfind
        refine iff_of_true ⟨fun i hi => ?_, fun hall => absurd hall hsome⟩ ?_
        · rw [hi.unique hw, if_pos hhidden]
          rfl
        · rintro ⟨-, j, -, -, -, hj, -⟩
          exact hnone j hj.1 ⟨hj.2.1.1, fun h => hj.2.1.2 h.1⟩
      | some j =>
        have hj := find_top hdmg hfind
        have hfront : Top b line (fun j => spriteIndex b line j x ≠ 0 ∧ ¬ Behind b j) j :=
          ⟨hj.1, ⟨hj.2.1.1, fun h => hj.2.1.2 ⟨h, hhidden.2⟩⟩,
            fun k hk hpk => hj.2.2 k hk ⟨hpk.1, fun h => hpk.2 h.1⟩⟩
        constructor
        · rintro hrule ⟨i, j', hi, -, -, hj', hne⟩
          have hshade := hrule.winner w hw
          rw [if_pos hhidden] at hshade
          rw [hj'.unique hfront] at hne
          exact hne hshade
        · intro hnot
          refine ⟨fun i hi => ?_, fun hall => absurd hall hsome⟩
          rw [hi.unique hw, if_pos hhidden]
          by_contra hne
          exact hnot ⟨w, j, hw, hhidden.1, hhidden.2, hfront, hne⟩
    · -- the winner is drawn last
      have hshown : (drawOrder b line).reverse.find? (fun i => decide (Shown b line x i)) = some w := by
        have hwShown : Top b line (fun i => Shown b line x i) w :=
          ⟨hw.1, ⟨hw.2.1, hhidden⟩, fun j hj hpj => hw.2.2 j hj hpj.1⟩
        cases hfind : (drawOrder b line).reverse.find? (fun i => decide (Shown b line x i)) with
        | none => exact absurd hwShown.2.1 (find_none hdmg hfind w hw.1)
        | some j => rw [(find_top hdmg hfind).unique hwShown]
      rw [hshown]
      refine iff_of_true ⟨fun i hi => ?_, fun hall => absurd hall hsome⟩ ?_
      · rw [hi.unique hw, if_neg hhidden]
        rfl
      · rintro ⟨i, -, hi, hbehind, hindex, -⟩
        rw [hi.unique hw] at hbehind
        exact hhidden ⟨hbehind, hindex⟩

/-- The priority rule at each pixel of a line with sprites: it holds exactly where no lower sprite shows
through a winner that the background hides. -/
theorem sprite_priority {b : Bus σ} (hdmg : b.cgb.isCgb = false) (hon : hasBits b.lcd.lcdc 0x80 = true)
    (hsprites : hasBits b.lcd.lcdc 0x02 = true) {line : Nat}
    (hline : line < GB_H) {f : Buffer} (hf : b.screen.framebuf = some f)
    (hsize : f.size = GB_FB_SIZE) : ∃ f', (renderLine b line).screen.framebuf = some f' ∧
      ∀ x < GB_W, SpriteRule b line x (framePixel f' line x) ↔ ¬ ShowsThrough b line x := by
  unfold renderLine
  rw [if_neg (not_not.mpr hon)]
  obtain ⟨f', hf', hrow, -⟩ := storeLine_framebuf hf hsize hline (lineBuf b line)
  refine ⟨f', hf', fun x hx => ?_⟩
  rw [hrow x hx, lineBuf_sprites hdmg hsprites hx]
  exact paintedShade_rule hdmg line x

/-- Two sprites at the top left corner, on a background of index 1: the first one with the given flags,
the second one drawn in black. -/
def twoSprites (flags : UInt8) : Bus Unit where
  screen := { framebuf := some (.fill GB_FB_SIZE 0) }
  mem :=
    { vram := ⟨GB_VRAM_SIZE, fun i => if i = 0 ∨ i = 16 then 0xFF else 0⟩
      oam := ⟨0xA0, fun i => [16, 8, 1, flags, 16, 8, 1, 0].getD i 0⟩ }
  lcd := { lcdc := 0x93, bgp := 0xE4, obp0 := 0x0C }

theorem sprite_priority_front : ∃ f', (renderLine (twoSprites 0) 0).screen.framebuf = some f' ∧
    ∀ x < GB_W, SpriteRule (twoSprites 0) 0 x (framePixel f' 0 x) := by
  have hline : 0 < GB_H := by decide
  obtain ⟨f', hf', hrule⟩ := sprite_priority (b := twoSprites 0) rfl (by decide) (by decide) hline rfl rfl
  refine ⟨f', hf', fun x hx => (hrule x hx).mpr ?_⟩
  rintro ⟨i, -, ⟨hi, -⟩, hbehind, -⟩
  have hvisible : ∀ i ∈ visibleSprites (twoSprites 0) 0, ¬ Behind (twoSprites 0) i := by decide +kernel
  exact hvisible i hi hbehind

/-- The first sprite stays behind the background, and the second one is drawn black in its place. -/
theorem lower_sprite_shows :
    ¬ ∀ (b : Bus Unit) (line : Nat) (f f' : Buffer), b.cgb.isCgb = false → hasBits b.lcd.lcdc 0x80 = true →
    hasBits b.lcd.lcdc 0x02 = true → line < GB_H → b.screen.framebuf = some f → f.size = GB_FB_SIZE →
      (renderLine b line).screen.framebuf = some f' → ∀ x < GB_W, SpriteRule b line x (framePixel f' line x) := by
  intro h
  have hrule := h (twoSprites 0x80) 0 _ _ rfl (by decide) (by decide) (by decide) rfl rfl rfl 0 (by decide)
  have htop : Top (twoSprites 0x80) 0 (fun i => spriteIndex (twoSprites 0x80) 0 i 0 ≠ 0) 0 := by
    refine ⟨by decide +kernel, by decide +kernel, fun j hj _ => ?_⟩
    have hvisible : visibleSprites (twoSprites 0x80) 0 = [0, 1] := by decide +kernel
    rw [hvisible] at hj
    simp only [List.mem_cons, List.not_mem_nil, or_false] at hj
    rcases hj with rfl | rfl
    · exact .inl rfl
    · exact .inr (.inr ⟨by decide +kernel, by decide⟩)
  exact absurd (hrule.winner 0 htop) (by decide +kernel)

end FoloGameboy

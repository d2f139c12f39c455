/-
The loop over strips: where it changes the panel, what it leaves there when every transfer succeeds,
and the pixels of a drawn strip.
-/
import FoloGameboy.Display.Display

namespace FoloGameboy

/-! ## The rows of the strips -/

theorem strips_mem {first limit : Nat} {s : Nat × Nat} (hs : s ∈ strips first limit) :
    ∃ i, s.1 = first + i * 20 ∧ s.2 = min 20 (limit - s.1) ∧ s.1 < limit := by
  obtain ⟨i, hi, rfl⟩ := List.mem_map.mp hs
  rw [List.mem_range] at hi
  unfold STRIP_ROWS at *
  exact ⟨i, rfl, rfl, by dsimp only; omega⟩

theorem strips_cover {first limit y : Nat} (hfirst : first ≤ y) (hlimit : y < limit) :
    ∃ s ∈ strips first limit, s.1 ≤ y ∧ y < s.1 + s.2 := by
  refine ⟨_, List.mem_map.mpr ⟨(y - first) / 20, List.mem_range.mpr ?_, rfl⟩, ?_⟩
  · unfold STRIP_ROWS
    omega
  · unfold STRIP_ROWS
    dsimp only
    omega

theorem strips_pairwise (first limit : Nat) : (strips first limit).Pairwise fun a b => a.1 + a.2 ≤ b.1 := by
  unfold strips
  rw [List.pairwise_map]
  refine List.pairwise_lt_range.imp fun {i j} hij => ?_
  unfold STRIP_ROWS
  dsimp only
  omega

/-! ## The loop -/

section
variable {x0 y0 width : Nat} {paint : Nat → Nat → Strip → Option Strip}

/-- The statics other than the panel and the strip. -/
structure SameStatics (d d' : Display) : Prop where
  ready : d'.ready = d.ready
  previousFrame : d'.previousFrame = d.previousFrame
  previousValid : d'.previousValid = d.previousValid
  previousEnlarged : d'.previousEnlarged = d.previousEnlarged

theorem SameStatics.refl (d : Display) : SameStatics d d := ⟨rfl, rfl, rfl, rfl⟩

theorem SameStatics.trans {a b c : Display} (h : SameStatics a b) (h' : SameStatics b c) :
    SameStatics a c :=
  ⟨h'.ready.trans h.ready, h'.previousFrame.trans h.previousFrame, h'.previousValid.trans h.previousValid,
    h'.previousEnlarged.trans h.previousEnlarged⟩

theorem sendStrip_outside {x y width rows px py : Nat} (h : ¬ InRect x y width rows px py) (d : Display) :
    (sendStrip x y width rows d).2.panel px py = d.panel px py := if_neg h

theorem eachStrip_statics (x0 y0 width : Nat) (paint : Nat → Nat → Strip → Option Strip) :
    ∀ (l : List (Nat × Nat)) (d : Display), SameStatics d (eachStrip x0 y0 width paint l d).2
  | [], d => .refl d
  | (row, rows) :: l, d => by
    unfold eachStrip
    split
    · exact eachStrip_statics x0 y0 width paint l d
    · rename_i strip hpaint
      have hsent : SameStatics d (sendStrip x0 (y0 + row) width rows { d with strip := strip }).2 :=
        ⟨rfl, rfl, rfl, rfl⟩
      split
      · rename_i d' hd'
        rw [hd'] at hsent
        exact hsent.trans (eachStrip_statics x0 y0 width paint l d')
      · rename_i e d' hd'
        rw [hd'] at hsent
        exact hsent

/-- A pixel outside of every strip stays. -/
theorem eachStrip_outside (paint : Nat → Nat → Strip → Option Strip) {px py : Nat} :
    ∀ (l : List (Nat × Nat)) (d : Display),
    (∀ s ∈ l, ¬ InRect x0 (y0 + s.1) width s.2 px py) →
      (eachStrip x0 y0 width paint l d).2.panel px py = d.panel px py
  | [], _, _ => rfl
  | (row, rows) :: l, d, h => by
    have hrest := fun s hs => h s (List.mem_cons_of_mem _ hs)
    unfold eachStrip
    split
    · exact eachStrip_outside paint l d hrest
    · rename_i strip hpaint
      have hsent := sendStrip_outside (h (row, rows) List.mem_cons_self) { d with strip := strip }
      dsimp only at hsent
      split
      · rename_i d' hd'
        rw [hd'] at hsent
        exact (eachStrip_outside paint l d' hrest).trans hsent
      · rename_i e d' hd'
        rw [hd'] at hsent
        exact hsent

/-- A strip that was sent is on the panel. -/
theorem sendStrip_inside {x y width rows px py : Nat} (h : InRect x y width rows px py) {d d' : Display}
    (hok : sendStrip x y width rows d = (none, d')) :
    d'.panel px py = d.strip ((py - y) * width + (px - x)) := by
  have hfault : d.env.transfer d.transfers = none := by
    have hanswer := congrArg Prod.fst hok
    exact Option.map_eq_none_iff.mp hanswer
  have hpanel : (sendStrip x y width rows d).2.panel px py = d.strip ((py - y) * width + (px - x)) := by
    unfold sendStrip
    dsimp only
    rw [hfault, if_pos h]
  rwa [hok] at hpanel

/-- After a loop without a failure, a pixel of a strip has what is true of it where the strip is skipped and
where it is drawn. -/
theorem eachStrip_inside {P : UInt16 → Prop} {px py : Nat} {s : Nat × Nat}
    (hin : InRect x0 (y0 + s.1) width s.2 px py)
    (hdrawn : ∀ buf strip, paint s.1 s.2 buf = some strip →
      P (strip ((py - (y0 + s.1)) * width + (px - x0)))) :
    ∀ (l : List (Nat × Nat)) {d d' : Display}, l.Pairwise (fun a b => a.1 + a.2 ≤ b.1) → s ∈ l →
      (∀ buf, paint s.1 s.2 buf = none → P (d.panel px py)) →
      eachStrip x0 y0 width paint l d = (none, d') → P (d'.panel px py)
  | [], _, _, _, hmem, _, _ => absurd hmem List.not_mem_nil
  | (row, rows) :: l, d, d', hpair, hmem, hskipped, hok => by
    obtain ⟨hbelow, hpair⟩ := List.pairwise_cons.mp hpair
    -- the strips after one end below its first row
    have hother : ∀ {a b : Nat × Nat}, a.1 + a.2 ≤ b.1 → InRect x0 (y0 + a.1) width a.2 px py →
        ¬ InRect x0 (y0 + b.1) width b.2 px py := by
      intro a b hab ha hb
      obtain ⟨-, -, hfirst, hlast⟩ := ha
      obtain ⟨-, -, hfirst', hlast'⟩ := hb
      omega
    unfold eachStrip at hok
    rcases List.mem_cons.mp hmem with rfl | hmem
    · have hrest : ∀ b ∈ l, ¬ InRect x0 (y0 + b.1) width b.2 px py := fun b hb => hother (hbelow b hb) hin
      split at hok
      · rename_i hpaint
        have hsame := eachStrip_outside paint l d hrest
        rw [hok] at hsame
        exact hsame ▸ hskipped _ hpaint
      · rename_i strip hpaint
        split at hok
        · rename_i d₁ hd₁
          have hsame := eachStrip_outside paint l d₁ hrest
          rw [hok] at hsame
          rw [hsame, sendStrip_inside hin hd₁]
          exact hdrawn _ _ hpaint
        · exact absurd (congrArg Prod.fst hok) nofun
    · have hnot : ¬ InRect x0 (y0 + row) width rows px py := fun h => hother (hbelow s hmem) h hin
      split at hok
      · exact eachStrip_inside hin hdrawn l hpair hmem hskipped hok
      · rename_i strip hpaint
        split at hok
        · rename_i d₁ hd₁
          have hsame := sendStrip_outside hnot { d with strip := strip }
          rw [hd₁] at hsame
          exact eachStrip_inside hin hdrawn l hpair hmem (fun buf h => hsame.symm ▸ hskipped buf h) hok
        · exact absurd (congrArg Prod.fst hok) nofun

end

/-! ## Drawn strips -/

/-- A row that is set pixel by pixel. -/
theorem foldl_set (start : Nat) (color : Nat → UInt16) (s : Strip) (k : Nat) : ∀ n,
    (List.range n).foldl (fun s x => s.set (start + x) (color x)) s k =
      if start ≤ k ∧ k < start + n then color (k - start) else s k
  | 0 => by
    rw [if_neg (by omega)]
    rfl
  | n + 1 => by
    rw [List.range_succ, List.foldl_append, List.foldl_cons, List.foldl_nil]
    unfold Strip.set
    by_cases hlast : k = start + n
    · rw [if_pos hlast, if_pos (by omega), hlast, Nat.add_sub_cancel_left]
    · rw [if_neg hlast]
      have ih := foldl_set start color s k n
      unfold Strip.set at ih
      rw [ih]
      by_cases hin : start ≤ k ∧ k < start + n
      · rw [if_pos hin, if_pos (by omega)]
      · rw [if_neg hin, if_neg (by omega)]

/-- Rows that are set pixel by pixel. -/
theorem foldl_rows (width : Nat) (color : Nat → Nat → UInt16) (s : Strip) {x : Nat}
    (hx : x < width) : ∀ n, ∀ dy < n,
    (List.range n).foldl
      (fun s y => (List.range width).foldl (fun s x => s.set (y * width + x) (color y x)) s) s
      (dy * width + x) = color dy x
  | 0, _, h => absurd h (Nat.not_lt_zero _)
  | n + 1, dy, h => by
    rw [List.range_succ, List.foldl_append, List.foldl_cons, List.foldl_nil, foldl_set]
    rcases Nat.lt_succ_iff_lt_or_eq.mp h with hdy | rfl
    · have hbefore : dy * width + x < n * width := by
        calc dy * width + x < dy * width + width := Nat.add_lt_add_left hx _
          _ = (dy + 1) * width := (Nat.succ_mul dy width).symm
          _ ≤ n * width := Nat.mul_le_mul_right width hdy
      rw [if_neg (by omega)]
      exact foldl_rows width color s hx n dy hdy
    · rw [if_pos ⟨Nat.le_add_right _ _, Nat.add_lt_add_left hx _⟩, Nat.add_sub_cancel_left]

/-- The rows of a frame that are drawn so far, and the source row of the last. -/
theorem frameRows_pixel (frame : Buffer) (row : Nat) (s : Strip) : ∀ n,
    ((List.range n).foldl (frameRow frame true 240 row) (s, none)).2 =
      (if n = 0 then none else some (gbPixelSourceY (row + (n - 1)) true)) ∧
      ∀ dy < n, ∀ x < 240, ((List.range n).foldl (frameRow frame true 240 row) (s, none)).1
        (dy * 240 + x) = enlargedPixel frame x (row + dy)
  | 0 => ⟨rfl, fun _ h => absurd h (Nat.not_lt_zero _)⟩
  | n + 1 => by
    obtain ⟨hsource, hrows⟩ := frameRows_pixel frame row s n
    rw [List.range_succ, List.foldl_append, List.foldl_cons, List.foldl_nil]
    generalize (List.range n).foldl (frameRow frame true 240 row) (s, none) = acc at hsource hrows ⊢
    refine ⟨rfl, fun dy hdy x hx => ?_⟩
    unfold frameRow
    dsimp only
    rw [if_pos rfl]
    by_cases hsame : acc.2 = some (gbPixelSourceY (row + n) true)
    · -- the row has the source row of the one above
      rw [if_pos hsame]
      have hpos : n ≠ 0 := by
        rintro rfl
        exact absurd (hsource.symm.trans hsame) nofun
      have heq : gbPixelSourceY (row + (n - 1)) true = gbPixelSourceY (row + n) true := by
        rw [hsource, if_neg hpos] at hsame
        exact Option.some.inj hsame
      unfold Strip.copy
      rcases Nat.lt_succ_iff_lt_or_eq.mp hdy with hdy | rfl
      · rw [if_neg (by omega)]
        exact hrows dy hdy x hx
      · have hindex : dy * 240 - 240 + (dy * 240 + x - dy * 240) = (dy - 1) * 240 + x := by omega
        rw [if_pos (by omega), hindex, hrows (dy - 1) (by omega) x hx]
        unfold enlargedPixel
        rw [heq]
    · rw [if_neg hsame]
      rcases Nat.lt_succ_iff_lt_or_eq.mp hdy with hdy | rfl
      · rw [expandRow_other frame _ n acc.1 (by omega)]
        exact hrows dy hdy x hx
      · exact expandRow_enlarged frame (row + dy) dy acc.1 hx

end FoloGameboy

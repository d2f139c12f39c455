/-
The code points of a text, and the bytes that `ui_next_codepoint` reads for them: of a text in memory
up to its terminating zero, whatever the bytes before it are.
-/
import FoloGameboy.Display.Draw

namespace FoloGameboy

/-! ## Code points -/

/-- Every code point takes bytes, and no more than there are. -/
theorem uiNextCodepoint_drop (b : UInt8) (bs : List UInt8) :
    ∃ n ≤ bs.length, (uiNextCodepoint (b :: bs)).2 = bs.drop n := by
  have hread : ∀ i, bs.getD i 0 ≠ 0 → i < bs.length := by
    intro i hi
    by_contra hge
    exact hi (by simp [List.getD, List.getElem?_eq_none (Nat.le_of_not_lt hge)])
  unfold uiNextCodepoint
  dsimp only [List.drop_succ_cons, List.drop_zero]
  split
  · next h => exact ⟨3, hread 2 h.2.2.2, rfl⟩
  split
  · next h => exact ⟨2, hread 1 h.2.2, rfl⟩
  split
  · next h => exact ⟨1, hread 0 h.2, rfl⟩
  · exact ⟨0, Nat.zero_le _, rfl⟩

theorem uiNextCodepoint_shorter (b : UInt8) (bs : List UInt8) :
    (uiNextCodepoint (b :: bs)).2.length < (b :: bs).length := by
  obtain ⟨n, -, hrest⟩ := uiNextCodepoint_drop b bs
  rw [hrest, List.length_drop, List.length_cons]
  omega

/-- The code points of a text, one after the other. -/
def codepoints : List UInt8 → List UInt32
  | [] => []
  | b :: bs => (uiNextCodepoint (b :: bs)).1 :: codepoints (uiNextCodepoint (b :: bs)).2
termination_by text => text.length
decreasing_by exact uiNextCodepoint_shorter b bs

/-- How far a code point moves the pen. -/
def penAdvance (cp : UInt32) : Nat := (if 127 < cp then 16 else 12) + 1

/-- `ui_text_width` measures all code points. -/
theorem uiWidths_eq (text : List UInt8) : ∀ fuel, text.length ≤ fuel →
    uiWidths fuel text = ((codepoints text).map penAdvance).sum := by
  induction text using codepoints.induct with
  | case1 =>
    intro fuel _
    cases fuel <;> simp [uiWidths, codepoints]
  | case2 b bs ih =>
    intro fuel hfuel
    cases fuel with
    | zero => cases hfuel
    | succ fuel =>
      have hrest := ih fuel (by have := uiNextCodepoint_shorter b bs; omega)
      have hwidth : (if 127 < (uiNextCodepoint (b :: bs)).1 then 17 else 13) =
          penAdvance (uiNextCodepoint (b :: bs)).1 := by
        unfold penAdvance
        split <;> rfl
      rw [codepoints, List.map_cons, List.sum_cons, ← hrest, ← hwidth]
      rfl

/-- The characters of `ui_text_region`, from the pen position on. -/
def uiCodepoints (font : UiFont) (stripY rows y minX maxX : Int) (color : UInt16) : Int → List UInt32 → Strip → Strip
  | _, [], s => s
  | x, cp :: cps, s =>
    if maxX ≤ x then s
    else uiCodepoints font stripY rows y minX maxX color (x + penAdvance cp) cps
      (uiGlyph font stripY rows x y minX maxX cp color s)

/-- `ui_text_region` draws the same code points, up to the right edge. -/
theorem uiCharacters_eq (font : UiFont) (stripY rows y minX maxX : Int) (color : UInt16)
    (text : List UInt8) : ∀ fuel x s,
    text.length ≤ fuel → uiCharacters font stripY rows y minX maxX color fuel x text s =
      uiCodepoints font stripY rows y minX maxX color x (codepoints text) s := by
  induction text using codepoints.induct with
  | case1 =>
    intro fuel x s _
    cases fuel <;> simp [uiCharacters, codepoints, uiCodepoints]
  | case2 b bs ih =>
    intro fuel x s hfuel
    cases fuel with
    | zero => cases hfuel
    | succ fuel =>
      have hrest := fun x s => ih fuel x s (by have := uiNextCodepoint_shorter b bs; omega)
      rw [codepoints, uiCharacters, uiCodepoints]
      by_cases hedge : maxX ≤ x
      · rw [if_pos hedge, if_pos (.inr hedge)]
      · rw [if_neg hedge, if_neg (by simp [hedge]), ← hrest]
        have hpen : x + (if 127 < (uiNextCodepoint (b :: bs)).1 then 16 else 12) + 1 =
            x + (penAdvance (uiNextCodepoint (b :: bs)).1 : Int) := by
          unfold penAdvance
          split <;> simp [Int.add_assoc]
        rw [← hpen]

/-! ## Reading from memory -/

/-- A text in memory: bytes with a zero among them, which ends it. -/
structure CText where
  bytes : List UInt8
  terminated : 0 ∈ bytes

/-- `s[0] && s[1] && …`, `n` times, where a byte is read only after the ones before; none for a read
outside of the bytes. -/
def nonzeroBytes (bytes : List UInt8) (s : Nat) : Nat → Option Bool
  | 0 => some true
  | n + 1 => do
    let b ← bytes[s]?
    if b = 0 then some false else nonzeroBytes bytes (s + 1) n

/-- `ui_next_codepoint` over memory: the code point and the cursor behind it. -/
def uiNextCodepointAt (bytes : List UInt8) (cursor : Nat) : Option (UInt32 × Nat) := do
  let cp := (← bytes[cursor]?).toUInt32
  let s := cursor + 1
  let low (i : Nat) : Option UInt32 := do
    let b ← bytes[s + i]?
    pure (b &&& 63).toUInt32
  if ← (if 0xF0 ≤ cp then nonzeroBytes bytes s 3 else some false) then
    pure (((cp &&& 7) <<< 18) ||| ((← low 0) <<< 12) ||| ((← low 1) <<< 6) ||| (← low 2), s + 3)
  else if ← (if 0xE0 ≤ cp then nonzeroBytes bytes s 2 else some false) then
    pure (((cp &&& 15) <<< 12) ||| ((← low 0) <<< 6) ||| (← low 1), s + 2)
  else if ← (if 0xC0 ≤ cp then nonzeroBytes bytes s 1 else some false) then
    pure (((cp &&& 31) <<< 6) ||| (← low 0), s + 1)
  else pure (cp, s)

section
variable (t : CText)

/-- The bytes before the first zero. -/
def CText.text : List UInt8 := cstr t.bytes

theorem cstr_split : ∀ {bytes : List UInt8}, 0 ∈ bytes → ∃ rest, bytes = cstr bytes ++ 0 :: rest
  | [], h => absurd h List.not_mem_nil
  | b :: bs, h => by
    by_cases hzero : b = 0
    · exact ⟨bs, by simp [cstr, hzero]⟩
    · obtain ⟨rest, hsplit⟩ := cstr_split ((List.mem_cons.mp h).resolve_left (Ne.symm hzero))
      refine ⟨rest, ?_⟩
      have hcstr : cstr (b :: bs) = b :: cstr bs := by simp [cstr, hzero]
      rw [hcstr, List.cons_append, ← hsplit]

/-- Up to its terminating zero a text can be read. -/
theorem CText.read {i : Nat} (hi : i ≤ t.text.length) : t.bytes[i]? = some (t.text.getD i 0) := by
  obtain ⟨rest, hsplit⟩ : ∃ rest, t.bytes = t.text ++ 0 :: rest := cstr_split t.terminated
  rw [hsplit]
  rcases Nat.lt_or_eq_of_le hi with hlt | rfl
  · rw [List.getElem?_append_left hlt, List.getElem?_eq_getElem hlt, List.getD_eq_getElem _ _ hlt]
  · simp

theorem CText.lt_of_ne_zero {i : Nat} (h : t.text.getD i 0 ≠ 0) : i < t.text.length := by
  by_contra hge
  exact h (by simp [List.getD, List.getElem?_eq_none (Nat.le_of_not_lt hge)])

/-- The condition stops at the terminating zero at the latest. -/
theorem nonzeroBytes_eq : ∀ (n : Nat) {s : Nat}, s ≤ t.text.length →
    nonzeroBytes t.bytes s n = some (decide (∀ i < n, t.text.getD (s + i) 0 ≠ 0)) ∧
      ((∀ i < n, t.text.getD (s + i) 0 ≠ 0) → s + n ≤ t.text.length)
  | 0, s, hs => by simp [nonzeroBytes, hs]
  | n + 1, s, hs => by
    unfold nonzeroBytes
    rw [t.read hs]
    by_cases hzero : t.text.getD s 0 = 0
    · have hnot : ¬ ∀ i < n + 1, t.text.getD (s + i) 0 ≠ 0 := fun h => h 0 (Nat.succ_pos n) hzero
      refine ⟨?_, fun h => (hnot h).elim⟩
      rw [decide_eq_false hnot]
      exact if_pos hzero
    · obtain ⟨ih, hle⟩ := nonzeroBytes_eq n (t.lt_of_ne_zero hzero)
      have hiff : (∀ i < n + 1, t.text.getD (s + i) 0 ≠ 0) ↔ ∀ i < n, t.text.getD (s + 1 + i) 0 ≠ 0 := by
        constructor
        · intro h i hi
          have := h (i + 1) (by omega)
          rwa [show s + (i + 1) = s + 1 + i by omega] at this
        · intro h i hi
          cases i with
          | zero => exact hzero
          | succ i =>
            rw [show s + (i + 1) = s + 1 + i by omega]
            exact h i (by omega)
      refine ⟨?_, fun h => by have := hle (hiff.mp h); omega⟩
      rw [decide_eq_decide.mpr hiff, ← ih]
      exact if_neg hzero

/-- No byte behind the terminating zero is read and the cursor does not pass it: it ends up behind the
code point, within the text. -/
theorem uiNextCodepointAt_eq {cursor : Nat} (h : cursor < t.text.length) :
    ∃ next, uiNextCodepointAt t.bytes cursor = some ((uiNextCodepoint (t.text.drop cursor)).1, next) ∧
      cursor < next ∧ next ≤ t.text.length ∧ (uiNextCodepoint (t.text.drop cursor)).2 =
        t.text.drop next := by
  have hread := t.read (Nat.le_of_lt h)
  have hdrop : ∀ i, ((t.text.drop cursor).drop 1).getD i 0 = t.text.getD (cursor + 1 + i) 0 := by
    intro i
    simp [List.getD, List.getElem?_drop]
  have hhead : (t.text.drop cursor).getD 0 0 = t.text.getD cursor 0 := by
    simp [List.getD, List.getElem?_drop]
  have hskip : ∀ n, ((t.text.drop cursor).drop 1).drop n = t.text.drop (cursor + 1 + n) := by
    intro n
    rw [List.drop_drop, List.drop_drop]
    congr 1
    omega
  -- the three conditions, over memory and over the text
  have hcond : ∀ (least : UInt32) n,
      (if least ≤ (t.text.getD cursor 0).toUInt32 then nonzeroBytes t.bytes (cursor + 1) n
        else some false) =
        some (decide (least ≤ (t.text.getD cursor 0).toUInt32 ∧ ∀ i < n,
          t.text.getD (cursor + 1 + i) 0 ≠ 0)) := by
    intro least n
    rw [(nonzeroBytes_eq t n h).1]
    by_cases hleast : least ≤ (t.text.getD cursor 0).toUInt32
    · rw [if_pos hleast]
      exact congrArg some (decide_eq_decide.mpr ⟨fun hn => ⟨hleast, hn⟩, And.right⟩)
    · rw [if_neg hleast, decide_eq_false fun hn => hleast hn.1]
  have hend : ∀ n, (∀ i < n, t.text.getD (cursor + 1 + i) 0 ≠ 0) → cursor + 1 + n ≤ t.text.length :=
    fun n => (nonzeroBytes_eq t n h).2
  have hbyte : ∀ n, (∀ i < n, t.text.getD (cursor + 1 + i) 0 ≠ 0) → ∀ i < n,
      t.bytes[cursor + 1 + i]? = some (t.text.getD (cursor + 1 + i) 0) :=
    fun n hn i hi => t.read (Nat.le_of_lt (t.lt_of_ne_zero (hn i hi)))
  have h3 : (t.text.getD (cursor + 1 + 0) 0 ≠ 0 ∧ t.text.getD (cursor + 1 + 1) 0 ≠ 0 ∧
      t.text.getD (cursor + 1 + 2) 0 ≠ 0) ↔ ∀ i < 3, t.text.getD (cursor + 1 + i) 0 ≠ 0 :=
    ⟨fun ⟨h0, h1, h2⟩ i hi => match i, hi with | 0, _ => h0 | 1, _ => h1 | 2, _ => h2,
      fun hn => ⟨hn 0 (by decide), hn 1 (by decide), hn 2 (by decide)⟩⟩
  have h2 : (t.text.getD (cursor + 1 + 0) 0 ≠ 0 ∧ t.text.getD (cursor + 1 + 1) 0 ≠ 0) ↔
      ∀ i < 2, t.text.getD (cursor + 1 + i) 0 ≠ 0 :=
    ⟨fun ⟨h0, h1⟩ i hi => match i, hi with | 0, _ => h0 | 1, _ => h1,
      fun hn => ⟨hn 0 (by decide), hn 1 (by decide)⟩⟩
  have h1 : t.text.getD (cursor + 1 + 0) 0 ≠ 0 ↔ ∀ i < 1, t.text.getD (cursor + 1 + i) 0 ≠ 0 :=
    ⟨fun h0 i hi => match i, hi with | 0, _ => h0, fun hn => hn 0 (by decide)⟩
  unfold uiNextCodepointAt uiNextCodepoint
  simp only [hread, hhead, hdrop, hskip, hcond, h3, Option.bind_eq_bind, Option.bind_some,
    decide_eq_true_eq]
  simp only [h2]
  simp only [h1]
  by_cases hfour : 240 ≤ (t.text.getD cursor 0).toUInt32 ∧ ∀ i < 3, t.text.getD (cursor + 1 + i) 0 ≠ 0
  · have hb := hbyte 3 hfour.2
    simp only [if_pos hfour, hb 0 (by omega), hb 1 (by omega), hb 2 (by omega), Option.bind_some,
      Option.pure_def]
    exact ⟨_, rfl, by omega, hend 3 hfour.2, rfl⟩
  by_cases hthree : 224 ≤ (t.text.getD cursor 0).toUInt32 ∧ ∀ i < 2, t.text.getD (cursor + 1 + i) 0 ≠ 0
  · have hb := hbyte 2 hthree.2
    simp only [if_neg hfour, if_pos hthree, hb 0 (by omega), hb 1 (by omega), Option.bind_some,
      Option.pure_def]
    exact ⟨_, rfl, by omega, hend 2 hthree.2, rfl⟩
  by_cases htwo : 192 ≤ (t.text.getD cursor 0).toUInt32 ∧ ∀ i < 1, t.text.getD (cursor + 1 + i) 0 ≠ 0
  · have hb := hbyte 1 htwo.2
    simp only [if_neg hfour, if_neg hthree, if_pos htwo, hb 0 (by omega), Option.bind_some, Option.pure_def]
    exact ⟨_, rfl, by omega, hend 1 htwo.2, rfl⟩
  · simp only [if_neg hfour, if_neg hthree, if_neg htwo, Option.pure_def]
    exact ⟨_, rfl, by omega, h, by rw [List.drop_drop]⟩

/-- `ui_text_width` over memory: none for a read outside of the bytes, or when `fuel` rounds do not
suffice. -/
def uiTextWidthAt (bytes : List UInt8) : (fuel : Nat) → (cursor : Nat) → Option Nat
  | 0, _ => none
  | fuel + 1, cursor => do
    let b ← bytes[cursor]?
    if b = 0 then some 0
    else
      let (cp, next) ← uiNextCodepointAt bytes cursor
      let rest ← uiTextWidthAt bytes fuel next
      some ((if 127 < cp then 17 else 13) + rest)

theorem codepoints_drop {cursor : Nat} (h : cursor < t.text.length) : codepoints (t.text.drop cursor) =
    (uiNextCodepoint (t.text.drop cursor)).1 :: codepoints (uiNextCodepoint (t.text.drop cursor)).2 := by
  cases htext : t.text.drop cursor with
  | nil => exact absurd (List.drop_eq_nil_iff.mp htext) (by omega)
  | cons b bs => rw [codepoints]

theorem CText.read_text {cursor : Nat} (h : cursor < t.text.length) : t.text.getD cursor 0 ≠ 0 := by
  rw [List.getD_eq_getElem _ _ h]
  have hall : t.text.all (· ≠ 0) = true := List.all_takeWhile
  simpa using List.all_eq_true.mp hall _ (List.getElem_mem h)

/-- The width of a text is that of its code points. -/
theorem uiTextWidthAt_eq : ∀ (fuel : Nat) {cursor : Nat}, cursor ≤ t.text.length →
    t.text.length - cursor < fuel →
    uiTextWidthAt t.bytes fuel cursor = some ((codepoints (t.text.drop cursor)).map penAdvance).sum
  | 0, _, _, hfuel => absurd hfuel (Nat.not_lt_zero _)
  | fuel + 1, cursor, hcursor, hfuel => by
    unfold uiTextWidthAt
    rw [t.read hcursor]
    rcases Nat.lt_or_eq_of_le hcursor with hlt | rfl
    · obtain ⟨next, hnext, hlater, hwithin, hrest⟩ := uiNextCodepointAt_eq t hlt
      have ih := uiTextWidthAt_eq fuel hwithin (by omega)
      rw [codepoints_drop t hlt, hrest]
      simp only [Option.bind_eq_bind, Option.bind_some, if_neg (t.read_text hlt), hnext, ih,
        List.map_cons, List.sum_cons]
      unfold penAdvance
      split <;> rfl
    · simp [codepoints]

end

end FoloGameboy

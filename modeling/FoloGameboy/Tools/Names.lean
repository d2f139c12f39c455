/-
The two sets of name rules agree: a name `encode_name` accepts is one `gb_name_valid` accepts.
-/
import FoloGameboy.Storage.Invariant
import FoloGameboy.Tools.Pack

namespace FoloGameboy

/-! ## Bytes of a character -/

theorem continuation_bits : ∀ x < 64, UInt8.ofNat (x + 0x80) &&& 0xC0 = 0x80 := by decide

/-- A continuation byte is taken. -/
theorem tailBytes_continuation {remaining codepoint : Nat} {s : List UInt8} (x : Nat) :
    tailBytes (remaining + 1) codepoint (UInt8.ofNat (x % 0x40 + 0x80) :: s) =
      tailBytes remaining (codepoint * 64 + x % 64) s := by
  have hlt : x % 64 < 64 := Nat.mod_lt _ (by decide)
  have hbits : ¬ (UInt8.ofNat (x % 0x40 + 0x80) &&& 0xC0 ≠ 0x80) := not_not.mpr (continuation_bits _ hlt)
  have hlow : (UInt8.ofNat (x % 0x40 + 0x80)).toNat &&& 0x3F = x % 64 := by
    rw [UInt8.toNat_ofNat', show (0x3F : Nat) = 2 ^ 6 - 1 from rfl, Nat.and_two_pow_sub_one_eq_mod]
    omega
  rw [tailBytes, if_neg hbits, hlow, ← Nat.shiftLeft_add_eq_or_of_lt hlt, Nat.shiftLeft_eq]

theorem leadByte_two {x : Nat} (hlow : 2 ≤ x) (hhigh : x < 32) :
    leadByte (UInt8.ofNat (x + 0xC0)) = some (x, 1) := by
  have h : ∀ x < 32, 2 ≤ x → leadByte (UInt8.ofNat (x + 0xC0)) = some (x, 1) := by decide
  exact h x hhigh hlow

theorem leadByte_three {x : Nat} (h : x < 16) : leadByte (UInt8.ofNat (x + 0xE0)) = some (x, 2) := by
  have h' : ∀ x < 16, leadByte (UInt8.ofNat (x + 0xE0)) = some (x, 2) := by decide
  exact h' x h

/-- The code points that are left. -/
structure PlainChar (n : Nat) : Prop where
  printable : 0x20 ≤ n
  control : n < 0x7F ∨ 0xA0 ≤ n
  slash : n ≠ 0x2F
  backslash : n ≠ 0x5C
  bmp : n ≤ 0xFFFF
  surrogate : ¬ (0xD800 ≤ n ∧ n ≤ 0xDFFF)
  spaces : ¬ (0x2000 ≤ n ∧ n ≤ 0x200F)
  separators : n ≠ 0x2028 ∧ n ≠ 0x2029 ∧ n ≠ 0xFEFF

theorem plainChar_of {c : Char} (h : refusedChar c = false) : PlainChar c.toNat := by
  unfold refusedChar at h
  simp only [Bool.or_eq_false_iff, Bool.and_eq_false_iff, decide_eq_false_iff_not, Nat.not_lt,
    Nat.not_le] at h
  obtain ⟨⟨⟨⟨⟨⟨⟨⟨⟨h₁, h₂⟩, h₃⟩, h₄⟩, h₅⟩, h₆⟩, h₇⟩, h₈⟩, h₉⟩, h₁₀⟩ := h
  exact ⟨h₁, by omega, h₃, h₄, h₅, by omega, by omega, h₈, h₉, h₁₀⟩

theorem PlainChar.allowed {n remaining : Nat} (h : PlainChar n)
    (hremaining : (remaining = 1 ∧ 0x80 ≤ n) ∨ (remaining = 2 ∧ 0x800 ≤ n)) :
    codepointAllowed remaining n = true := by
  obtain ⟨_, _, _, _, _, _, _, _, _, _⟩ := h
  unfold codepointAllowed
  rw [decide_eq_true_iff]
  omega

/-- `gb_name_valid` passes over a character that `encode_name` accepts. -/
theorem nameChars_char {c : Char} (h : refusedChar c = false) (fuel : Nat) (rest : List UInt8) :
    nameChars (fuel + 1) (String.utf8EncodeChar c ++ rest) = nameChars fuel rest := by
  have hp := plainChar_of h
  have hbmp := hp.bmp
  change c.val.toNat ≤ 0xFFFF at hbmp
  unfold String.utf8EncodeChar
  dsimp only
  split
  · -- one byte
    rename_i hone
    have hbyte : (UInt8.ofNat c.val.toNat).toNat = c.toNat := by
      rw [UInt8.toNat_ofNat', Nat.mod_eq_of_lt (by omega)]
      rfl
    have hone' : c.toNat ≤ 0x7F := hone
    have hsmall : UInt8.ofNat c.val.toNat < 0x80 := by
      rw [UInt8.lt_iff_toNat_lt, hbyte]
      show c.toNat < 128
      omega
    have hgood : ¬ (UInt8.ofNat c.val.toNat < 0x20 ∨ UInt8.ofNat c.val.toNat = 0x7F ∨
        UInt8.ofNat c.val.toNat = 0x2F ∨
        UInt8.ofNat c.val.toNat = 0x5C) := by
      rw [UInt8.lt_iff_toNat_lt, ← UInt8.toNat_inj, ← UInt8.toNat_inj, ← UInt8.toNat_inj, hbyte]
      show ¬ (c.toNat < 32 ∨ c.toNat = 127 ∨ c.toNat = 47 ∨ c.toNat = 92)
      have h₁ := hp.printable
      have h₂ := hp.control
      have h₃ := hp.slash
      have h₄ := hp.backslash
      omega
    show nameChars (fuel + 1) (UInt8.ofNat c.val.toNat :: rest) = _
    rw [nameChars, if_pos hsmall, if_neg hgood]
  · rename_i hone
    -- the lead byte of a longer character is not an ASCII one
    have hlead : ∀ {x : Nat}, 0xC0 ≤ x → x < 256 → ¬ UInt8.ofNat x < 0x80 := by
      intro x hlow hhigh
      rw [UInt8.lt_iff_toNat_lt, UInt8.toNat_ofNat', Nat.mod_eq_of_lt hhigh]
      show ¬ x < 128
      omega
    split
    · -- two bytes
      rename_i htwo
      have hfirst : c.val.toNat / 64 % 0x20 = c.val.toNat / 64 := Nat.mod_eq_of_lt (by omega)
      have hvalue : c.val.toNat / 64 * 64 + c.val.toNat % 64 = c.toNat := Nat.div_add_mod' _ _
      show nameChars (fuel + 1) (UInt8.ofNat (c.val.toNat / 64 % 0x20 + 0xC0) ::
        UInt8.ofNat (c.val.toNat % 0x40 + 0x80) :: rest) = _
      rw [nameChars, if_neg (hlead (by omega) (by omega)), hfirst, leadByte_two (by omega) (by omega)]
      dsimp only
      rw [tailBytes_continuation, hvalue, tailBytes]
      dsimp only
      rw [hp.allowed (.inl ⟨rfl, Nat.not_le.mp hone⟩), Bool.true_and]
    · -- three bytes
      rename_i htwo
      have hfirst : c.val.toNat / 4096 % 0x10 = c.val.toNat / 4096 := Nat.mod_eq_of_lt (by omega)
      have hvalue : (c.val.toNat / 4096 * 64 + c.val.toNat / 64 % 64) * 64 + c.val.toNat % 64 =
          c.toNat := by
        show _ = c.val.toNat
        omega
      show nameChars (fuel + 1) (UInt8.ofNat (c.val.toNat / 4096 % 0x10 + 0xE0) ::
        UInt8.ofNat (c.val.toNat / 64 % 0x40 + 0x80) ::
        UInt8.ofNat (c.val.toNat % 0x40 + 0x80) :: rest) = _
      rw [nameChars, if_neg (hlead (by omega) (by omega)), hfirst, leadByte_three (by omega)]
      dsimp only
      rw [tailBytes_continuation, tailBytes_continuation, hvalue, tailBytes]
      dsimp only
      rw [hp.allowed (.inr ⟨rfl, Nat.not_le.mp htwo⟩), Bool.true_and]

/-! ## Names -/

theorem utf8Bytes_eq (name : String) : utf8Bytes name = name.toList.flatMap String.utf8EncodeChar := by
  obtain ⟨l, rfl⟩ : ∃ l, name = String.ofList l := ⟨name.toList, String.ofList_toList.symm⟩
  rw [String.toList_ofList]
  exact List.toList_data_toByteArray

/-- A run of accepted characters is passed over; each takes at least one byte. -/
theorem nameChars_chars : ∀ (l : List Char) (fuel : Nat), (∀ c ∈ l, refusedChar c = false) →
    l.length ≤ fuel → nameChars fuel (l.flatMap String.utf8EncodeChar) = true
  | [], fuel, _, _ => by
    cases fuel with
    | zero => rfl
    | succ fuel => rfl
  | c :: l, 0, _, hfuel => absurd hfuel (Nat.not_succ_le_zero _)
  | c :: l, fuel + 1, h, hfuel => by
    rw [List.flatMap_cons, nameChars_char (h c List.mem_cons_self)]
    exact nameChars_chars l fuel (fun c' hc' => h c' (List.mem_cons_of_mem _ hc'))
      (Nat.le_of_succ_le_succ hfuel)

theorem length_le_utf8 (l : List Char) : l.length ≤ (l.flatMap String.utf8EncodeChar).length := by
  induction l with
  | nil => exact Nat.zero_le _
  | cons c l ih =>
    have hpos : 0 < (String.utf8EncodeChar c).length := List.length_pos_iff.mpr String.utf8EncodeChar_ne_nil
    rw [List.flatMap_cons, List.length_append, List.length_cons]
    omega

theorem ofNat_ne_zero {x : Nat} (hpos : 0 < x) (hlt : x < 256) : UInt8.ofNat x ≠ 0 := by
  intro h
  have hnat := congrArg UInt8.toNat h
  rw [UInt8.toNat_ofNat', Nat.mod_eq_of_lt hlt] at hnat
  exact absurd hnat (Nat.ne_of_gt hpos)

/-- No byte of a character but NUL is zero. -/
theorem utf8EncodeChar_ne_zero {c : Char} (hc : 0 < c.toNat) : ∀ b ∈ String.utf8EncodeChar c, b ≠ 0 := by
  change 0 < c.val.toNat at hc
  unfold String.utf8EncodeChar
  dsimp only
  intro b hb
  split at hb
  · obtain rfl := List.mem_singleton.mp hb
    exact ofNat_ne_zero hc (by omega)
  split at hb
  · simp only [List.mem_cons, List.not_mem_nil, or_false] at hb
    rcases hb with rfl | rfl
    · exact ofNat_ne_zero (by omega) (by omega)
    · exact ofNat_ne_zero (by omega) (by omega)
  split at hb
  · simp only [List.mem_cons, List.not_mem_nil, or_false] at hb
    rcases hb with rfl | rfl | rfl
    · exact ofNat_ne_zero (by omega) (by omega)
    · exact ofNat_ne_zero (by omega) (by omega)
    · exact ofNat_ne_zero (by omega) (by omega)
  · simp only [List.mem_cons, List.not_mem_nil, or_false] at hb
    rcases hb with rfl | rfl | rfl | rfl
    · exact ofNat_ne_zero (by omega) (by omega)
    · exact ofNat_ne_zero (by omega) (by omega)
    · exact ofNat_ne_zero (by omega) (by omega)
    · exact ofNat_ne_zero (by omega) (by omega)

/-- What an encoded name is. -/
structure EncodedName (name : String) (encoded : List UInt8) : Prop where
  bytes : encoded = utf8Bytes name
  cstr_eq : cstr encoded = encoded
  short : encoded.length < 32
  valid : gbNameValid encoded = true

theorem cstr_of_ne_zero : ∀ {m : List UInt8}, (∀ b ∈ m, b ≠ 0) → cstr m = m
  | [], _ => rfl
  | b :: m, h => by
    have hb : b ≠ 0 := h b List.mem_cons_self
    show List.takeWhile _ (b :: m) = b :: m
    rw [List.takeWhile_cons_of_pos (by simpa using hb)]
    exact congrArg (b :: ·) (cstr_of_ne_zero fun b' hb' => h b' (List.mem_cons_of_mem _ hb'))

theorem encodeName_ok {name : String} {encoded : List UInt8} (h : encodeName name = .ok encoded) :
    EncodedName name encoded := by
  unfold encodeName at h
  dsimp only at h
  split at h
  · cases h
  rename_i hgood
  obtain rfl := Except.ok.inj h
  simp only [not_or, Nat.not_lt, Bool.not_eq_true] at hgood
  obtain ⟨hne, hlen, hchars⟩ := hgood
  have hplain : ∀ c ∈ name.toList, refusedChar c = false := fun c hc => by
    rw [List.any_eq_false] at hchars
    exact Bool.not_eq_true _ ▸ hchars c hc
  have hzero : ∀ b ∈ utf8Bytes name, b ≠ 0 := by
    intro b hb
    rw [utf8Bytes_eq] at hb
    obtain ⟨c, hc, hbc⟩ := List.mem_flatMap.mp hb
    exact utf8EncodeChar_ne_zero
      (Nat.lt_of_lt_of_le (by decide) (plainChar_of (hplain c hc)).printable) b hbc
  have hcstr := cstr_of_ne_zero hzero
  refine ⟨rfl, hcstr, by omega, ?_⟩
  unfold gbNameValid
  dsimp only
  rw [List.take_of_length_le (by omega), hcstr, if_neg (by
    have hpos := List.length_pos_iff.mpr hne
    omega)]
  rw [utf8Bytes_eq]
  exact nameChars_chars _ _ hplain (length_le_utf8 _)

/-- The packed field is the one the partition's functions fill. -/
theorem EncodedName.field {name : String} {encoded : List UInt8} (h : EncodedName name encoded) :
    nameField encoded = padName encoded := by
  unfold nameField padName
  rw [h.cstr_eq]
  congr 1
  funext i
  by_cases hi : i.val < encoded.length
  · rw [List.getD_append _ _ _ _ hi]
  · rw [List.getD_append_right _ _ _ _ (Nat.not_lt.mp hi), List.getD_eq_default _ _ (Nat.not_lt.mp hi)]
    exact List.getD_replicate _ (by have := i.isLt; omega)

end FoloGameboy

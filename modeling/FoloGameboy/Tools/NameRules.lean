/-
The name rules: the hand-written decoder of `gb_name_valid` accepts exactly the UTF-8 encodings of 1 to
31 bytes without the refused code points, and `encode_name` accepts the same names.
-/
import FoloGameboy.Tools.Names
import Mathlib.Data.List.TakeWhile
namespace FoloGameboy

/-! ## Decoding -/

/-- The two top bits that mark a continuation byte, and the six it carries. -/
theorem continuation_of_bits {b : UInt8} (h : b &&& 0xC0 = 0x80) : ∃ y < 64, b.toNat = 0x80 + y ∧
    b.toNat &&& 0x3F = y := by
  have hall : ∀ n < 256, UInt8.ofNat n &&& 0xC0 = 0x80 → 128 ≤ n ∧ n < 192 := by decide +kernel
  have hb := hall b.toNat b.toNat_lt (by rw [UInt8.ofNat_toNat]; exact h)
  refine ⟨b.toNat - 0x80, by omega, by omega, ?_⟩
  rw [show (0x3F : Nat) = 2 ^ 6 - 1 from rfl, Nat.and_two_pow_sub_one_eq_mod]
  omega

/-- A continuation byte was there. -/
theorem tailBytes_succ {remaining codepoint value : Nat} {s rest : List UInt8}
    (h : tailBytes (remaining + 1) codepoint s = some (value, rest)) :
    ∃ b y t, s = b :: t ∧ y < 64 ∧ b.toNat = 0x80 + y ∧ tailBytes remaining (codepoint * 64 + y) t =
      some (value, rest) := by
  cases s with
  | nil => cases h
  | cons b t =>
    rw [tailBytes] at h
    split at h
    · cases h
    · rename_i hbits
      obtain ⟨y, hy, hb, hlow⟩ := continuation_of_bits (not_not.mp hbits)
      rw [hlow, ← Nat.shiftLeft_add_eq_or_of_lt (show y < 2 ^ 6 from hy), Nat.shiftLeft_eq] at h
      exact ⟨b, y, t, rfl, hy, hb, h⟩

/-- What the lead byte of a longer character says. -/
theorem leadByte_cases {first : UInt8} {codepoint remaining : Nat}
    (h : leadByte first = some (codepoint, remaining)) :
    (remaining = 1 ∧ first.toNat = 0xC0 + codepoint ∧ 2 ≤ codepoint ∧ codepoint < 32) ∨
      (remaining = 2 ∧ first.toNat = 0xE0 + codepoint ∧ codepoint < 16) ∨ remaining = 3 := by
  have hmask : ∀ (k n : Nat), n &&& (2 ^ k - 1) = n % 2 ^ k := fun k n => Nat.and_two_pow_sub_one_eq_mod n k
  unfold leadByte at h
  split at h
  · rename_i hin
    rw [UInt8.le_iff_toNat_le, UInt8.le_iff_toNat_le] at hin
    change 194 ≤ _ ∧ _ ≤ 223 at hin
    obtain ⟨rfl, rfl⟩ := Prod.mk.inj (Option.some.inj h)
    rw [show (0x1F : Nat) = 2 ^ 5 - 1 from rfl, hmask]
    exact .inl (by omega)
  split at h
  · rename_i hin
    rw [UInt8.le_iff_toNat_le, UInt8.le_iff_toNat_le] at hin
    change 224 ≤ _ ∧ _ ≤ 239 at hin
    obtain ⟨rfl, rfl⟩ := Prod.mk.inj (Option.some.inj h)
    rw [show (0x0F : Nat) = 2 ^ 4 - 1 from rfl, hmask]
    exact .inr (.inl (by omega))
  split at h
  · obtain ⟨-, rfl⟩ := Prod.mk.inj (Option.some.inj h)
    exact .inr (.inr rfl)
  · cases h

theorem PlainChar.valid {n : Nat} (h : PlainChar n) : n.isValidChar := by
  have h₁ := h.bmp
  have h₂ := h.surrogate
  unfold Nat.isValidChar
  omega

theorem PlainChar.not_refused {n : Nat} (h : PlainChar n) :
    refusedChar (Char.ofNatAux n h.valid) = false := by
  have hvalue : (Char.ofNatAux n h.valid).toNat = n := rfl
  obtain ⟨h₁, h₂, h₃, h₄, h₅, h₆, h₇, h₈⟩ := h
  unfold refusedChar
  rw [hvalue]
  simp only [Bool.or_eq_false_iff, Bool.and_eq_false_iff, decide_eq_false_iff_not]
  omega

theorem plainChar_of_allowed {n remaining : Nat} (h : codepointAllowed remaining n = true) :
    PlainChar n := by
  unfold codepointAllowed at h
  rw [decide_eq_true_iff] at h
  exact ⟨by omega, by omega, by omega, by omega, by omega, by omega, by omega, by omega⟩

theorem utf8_one {n : Nat} (h : n.isValidChar) (hone : n ≤ 0x7F) :
    String.utf8EncodeChar (Char.ofNatAux n h) = [UInt8.ofNat n] := by
  have hvalue : (Char.ofNatAux n h).val.toNat = n := rfl
  unfold String.utf8EncodeChar
  dsimp only
  rw [hvalue, if_pos hone]

theorem utf8_two {x y : Nat} (h : (x * 64 + y).isValidChar) (hlow : 2 ≤ x) (hx : x < 32) (hy : y < 64) :
    String.utf8EncodeChar (Char.ofNatAux (x * 64 + y) h) =
      [UInt8.ofNat (0xC0 + x), UInt8.ofNat (0x80 + y)] := by
  have hvalue : (Char.ofNatAux (x * 64 + y) h).val.toNat = x * 64 + y := rfl
  have h₁ : (x * 64 + y) / 64 % 0x20 + 0xC0 = 0xC0 + x := by omega
  have h₂ : (x * 64 + y) % 0x40 + 0x80 = 0x80 + y := by omega
  unfold String.utf8EncodeChar
  dsimp only
  rw [hvalue, if_neg (by omega), if_pos (by omega)]
  show [UInt8.ofNat ((x * 64 + y) / 64 % 0x20 + 0xC0), UInt8.ofNat ((x * 64 + y) % 0x40 + 0x80)] = _
  rw [h₁, h₂]

theorem utf8_three {x y z : Nat} (h : ((x * 64 + y) * 64 + z).isValidChar)
    (hlow : 0x800 ≤ (x * 64 + y) * 64 + z) (hx : x < 16) (hy : y < 64) (hz : z < 64) :
    String.utf8EncodeChar (Char.ofNatAux ((x * 64 + y) * 64 + z) h) =
      [UInt8.ofNat (0xE0 + x), UInt8.ofNat (0x80 + y), UInt8.ofNat (0x80 + z)] := by
  have hvalue : (Char.ofNatAux ((x * 64 + y) * 64 + z) h).val.toNat = (x * 64 + y) * 64 + z := rfl
  have h₁ : ((x * 64 + y) * 64 + z) / 4096 % 0x10 + 0xE0 = 0xE0 + x := by omega
  have h₂ : ((x * 64 + y) * 64 + z) / 64 % 0x40 + 0x80 = 0x80 + y := by omega
  have h₃ : ((x * 64 + y) * 64 + z) % 0x40 + 0x80 = 0x80 + z := by omega
  unfold String.utf8EncodeChar
  dsimp only
  rw [hvalue, if_neg (by omega), if_neg (by omega), if_pos (by omega)]
  show [UInt8.ofNat (((x * 64 + y) * 64 + z) / 4096 % 0x10 + 0xE0),
    UInt8.ofNat (((x * 64 + y) * 64 + z) / 64 % 0x40 + 0x80),
    UInt8.ofNat (((x * 64 + y) * 64 + z) % 0x40 + 0x80)] = _
  rw [h₁, h₂, h₃]

theorem byte_eq {b : UInt8} {n : Nat} (h : b.toNat = n) : b = UInt8.ofNat n := by
  rw [← h, UInt8.ofNat_toNat]

/-- What `gb_name_valid` passes over is an encoded character that `encode_name` accepts. -/
theorem nameChars_decode_char {fuel : Nat} {first : UInt8} {s : List UInt8}
    (h : nameChars (fuel + 1) (first :: s) = true) :
    ∃ c rest, first :: s = String.utf8EncodeChar c ++ rest ∧ refusedChar c = false ∧
      nameChars fuel rest = true := by
  rw [nameChars] at h
  split at h
  · -- one byte
    rename_i hsmall
    split at h
    · cases h
    rename_i hgood
    rw [UInt8.lt_iff_toNat_lt, ← UInt8.toNat_inj, ← UInt8.toNat_inj, ← UInt8.toNat_inj] at hgood
    change ¬ (first.toNat < 32 ∨ first.toNat = 127 ∨ first.toNat = 47 ∨ first.toNat = 92) at hgood
    have hlt : first.toNat < 128 := UInt8.lt_iff_toNat_lt.mp hsmall
    have hp : PlainChar first.toNat :=
      ⟨by omega, by omega, by omega, by omega, by omega, by omega, by omega, by omega⟩
    refine ⟨Char.ofNatAux first.toNat hp.valid, s, ?_, hp.not_refused, h⟩
    rw [utf8_one _ (by omega), UInt8.ofNat_toNat]
    rfl
  · split at h
    · cases h
    rename_i codepoint remaining hlead
    split at h
    · cases h
    rename_i value rest htail
    rw [Bool.and_eq_true] at h
    obtain ⟨hallowed, hrest⟩ := h
    have hp := plainChar_of_allowed hallowed
    rcases leadByte_cases hlead with ⟨rfl, hfirst, hlow, hhigh⟩ | ⟨rfl, hfirst, hhigh⟩ | rfl
    · -- two bytes
      obtain ⟨b, y, t, rfl, hy, hb, htail⟩ := tailBytes_succ htail
      obtain ⟨rfl, rfl⟩ := Prod.mk.inj (Option.some.inj htail)
      refine ⟨_, t, ?_, hp.not_refused, hrest⟩
      rw [utf8_two _ hlow hhigh hy, ← byte_eq hfirst, ← byte_eq hb]
      rfl
    · -- three bytes
      obtain ⟨b, y, t, rfl, hy, hb, htail⟩ := tailBytes_succ htail
      obtain ⟨b', z, t', rfl, hz, hb', htail⟩ := tailBytes_succ htail
      obtain ⟨rfl, rfl⟩ := Prod.mk.inj (Option.some.inj htail)
      have hlow : 0x800 ≤ (codepoint * 64 + y) * 64 + z := by
        unfold codepointAllowed at hallowed
        rw [decide_eq_true_iff] at hallowed
        omega
      refine ⟨_, t', ?_, hp.not_refused, hrest⟩
      rw [utf8_three _ hlow hhigh hy hz, ← byte_eq hfirst, ← byte_eq hb, ← byte_eq hb']
      rfl
    · -- four bytes carry no code point up to U+FFFF
      unfold codepointAllowed at hallowed
      rw [decide_eq_true_iff] at hallowed
      omega

theorem nameChars_decode : ∀ {fuel : Nat} {s : List UInt8}, nameChars fuel s = true →
    ∃ l : List Char, s = l.flatMap String.utf8EncodeChar ∧ ∀ c ∈ l, refusedChar c = false
  | _, [], _ => ⟨[], rfl, by simp⟩
  | 0, _ :: _, h => by cases h
  | fuel + 1, first :: s, h => by
    obtain ⟨c, rest, hs, hc, hrest⟩ := nameChars_decode_char h
    obtain ⟨l, rfl, hl⟩ := nameChars_decode hrest
    refine ⟨c :: l, ?_, ?_⟩
    · rw [hs, List.flatMap_cons]
    · intro c' hc'
      rcases List.mem_cons.mp hc' with rfl | hc'
      · exact hc
      · exact hl c' hc'

/-! ## The rules -/

/-- A buffer that starts with a name the rules allow: the encoding of allowed characters, 1 to 31
bytes, and a NUL. -/
def NameAllowed (m : List UInt8) : Prop :=
  ∃ (chars : List Char) (rest : List UInt8), m = chars.flatMap String.utf8EncodeChar ++ 0 :: rest ∧
    1 ≤ (chars.flatMap String.utf8EncodeChar).length ∧ (chars.flatMap String.utf8EncodeChar).length ≤ 31 ∧
      ∀ c ∈ chars, PlainChar c.toNat

/-- A buffer that `gb_name_valid` may read: a C string, or 32 bytes of anything. -/
def Readable (m : List UInt8) : Prop := 0 ∈ m ∨ 32 ≤ m.length

theorem PlainChar.refused_false {c : Char} (h : PlainChar c.toNat) : refusedChar c = false := h.not_refused

theorem encoded_ne_zero {l : List Char} (h : ∀ c ∈ l, 0 < c.toNat) :
    ∀ b ∈ l.flatMap String.utf8EncodeChar, b ≠ 0 := by
  intro b hb
  obtain ⟨c, hc, hbc⟩ := List.mem_flatMap.mp hb
  exact utf8EncodeChar_ne_zero (h c hc) b hbc

/-- A short C string is read whole. -/
theorem cstr_short {name rest : List UInt8} (h : ∀ b ∈ name, b ≠ 0) (hlen : name.length ≤ 31) :
    cstr ((name ++ 0 :: rest).take 32) = name := by
  obtain ⟨k, hk⟩ : ∃ k, 32 - name.length = k + 1 := ⟨31 - name.length, by omega⟩
  rw [List.take_append, List.take_of_length_le (by omega), hk, List.take_succ_cons]
  exact cstr_append_zero h _

/-- A C string shorter than the buffer that may be read ends with a NUL in it. -/
theorem exists_terminator {m : List UInt8} (h : Readable m) (hlen : (cstr (m.take 32)).length < 32) :
    ∃ rest, m = cstr (m.take 32) ++ 0 :: rest := by
  have hsplit : cstr (m.take 32) ++ (m.take 32).dropWhile (· ≠ 0) = m.take 32 :=
    List.takeWhile_append_dropWhile
  cases hdrop : (m.take 32).dropWhile (· ≠ 0) with
  | nil =>
    have hall := List.dropWhile_eq_nil_iff.mp hdrop
    rw [hdrop, List.append_nil] at hsplit
    rw [hsplit, List.length_take] at hlen
    have htake : m.take 32 = m := List.take_of_length_le (by omega)
    rcases h with h | h
    · rw [htake] at hall
      exact absurd (hall 0 h) (by simp)
    · omega
  | cons b rest =>
    have hb := List.head?_dropWhile_not (· ≠ 0) (m.take 32)
    rw [hdrop] at hb hsplit
    have hzero : b = 0 := by simpa using hb
    refine ⟨rest ++ m.drop 32, ?_⟩
    rw [← List.cons_append, ← List.append_assoc, ← hzero, hsplit, List.take_append_drop]

theorem gbNameValid_iff {m : List UInt8} (h : Readable m) : gbNameValid m = true ↔ NameAllowed m := by
  constructor
  · intro hvalid
    unfold gbNameValid at hvalid
    dsimp only at hvalid
    split at hvalid
    · cases hvalid
    rename_i hlen
    obtain ⟨rest, hm⟩ := exists_terminator h (by omega)
    obtain ⟨chars, hchars, hplain⟩ := nameChars_decode hvalid
    rw [hchars] at hm hlen
    exact ⟨chars, rest, hm, by omega, by omega, fun c hc => plainChar_of (hplain c hc)⟩
  · rintro ⟨chars, rest, rfl, hpos, hlen, hplain⟩
    have hzero : ∀ b ∈ chars.flatMap String.utf8EncodeChar, b ≠ 0 :=
      encoded_ne_zero fun c hc => Nat.lt_of_lt_of_le (by decide) (hplain c hc).printable
    unfold gbNameValid
    dsimp only
    rw [cstr_short hzero hlen, if_neg (by omega)]
    exact nameChars_chars _ _ (fun c hc => (hplain c hc).refused_false) (length_le_utf8 _)

theorem utf8Bytes_inj {s t : String} (h : utf8Bytes s = utf8Bytes t) : s = t := by
  unfold utf8Bytes at h
  exact String.toByteArray_inj.mp (ByteArray.ext (Array.toList_inj.mp h))

theorem encodeName_isOk {s : String} : (∃ encoded, encodeName s = .ok encoded) ↔
    utf8Bytes s ≠ [] ∧ (utf8Bytes s).length ≤ 31 ∧ ∀ c ∈ s.toList, refusedChar c = false := by
  unfold encodeName
  dsimp only
  split
  · rename_i hbad
    simp only [reduceCtorEq, exists_false, false_iff]
    rintro ⟨hne, hlen, hchars⟩
    rcases hbad with hbad | hbad | hbad
    · exact hne hbad
    · omega
    · obtain ⟨c, hc, hrefused⟩ := List.any_eq_true.mp hbad
      rw [hchars c hc] at hrefused
      cases hrefused
  · rename_i hgood
    simp only [not_or, Nat.not_lt, List.any_eq_true, not_exists, not_and, Bool.not_eq_true] at hgood
    exact iff_of_true ⟨_, rfl⟩ hgood

/-- The rules are those of the definition, and the same on the device and in `pack_roms.py`. -/
theorem name_rules : (∀ m, Readable m → (gbNameValid m = true ↔ NameAllowed m)) ∧
    ∀ s : String, (∃ encoded, encodeName s = .ok encoded) ↔
      '\x00' ∉ s.toList ∧ gbNameValid (utf8Bytes s ++ [0]) = true := by
  refine ⟨fun m h => gbNameValid_iff h, fun s => ?_⟩
  rw [encodeName_isOk, gbNameValid_iff (.inl (by simp))]
  constructor
  · rintro ⟨hne, hlen, hchars⟩
    refine ⟨fun hnul => ?_, s.toList, [], ?_, ?_, ?_, fun c hc => plainChar_of (hchars c hc)⟩
    · have := hchars _ hnul
      revert this
      decide
    · rw [utf8Bytes_eq]
    · rw [← utf8Bytes_eq]
      exact List.length_pos_iff.mpr hne
    · rw [← utf8Bytes_eq]
      exact hlen
  · rintro ⟨hnul, chars, rest, hbytes, hpos, hlen, hplain⟩
    have hzero : ∀ b ∈ utf8Bytes s, b ≠ 0 := by
      rw [utf8Bytes_eq]
      refine encoded_ne_zero fun c hc => Nat.pos_of_ne_zero fun hc0 => hnul ?_
      have : c = '\x00' := Char.ext (UInt32.toNat_inj.mp hc0)
      rwa [this] at hc
    have hencoded : ∀ b ∈ chars.flatMap String.utf8EncodeChar, b ≠ 0 :=
      encoded_ne_zero fun c hc => Nat.lt_of_lt_of_le (by decide) (hplain c hc).printable
    -- both end at the same NUL
    have hsame : utf8Bytes s = chars.flatMap String.utf8EncodeChar := by
      have h := congrArg cstr hbytes
      rwa [cstr_append_zero hzero, cstr_append_zero hencoded] at h
    have hchars : s.toList = chars := by
      have h : s = String.ofList chars := utf8Bytes_inj (by rw [hsame, utf8Bytes_eq, String.toList_ofList])
      rw [h, String.toList_ofList]
    rw [hsame, hchars]
    exact ⟨List.length_pos_iff.mp hpos, hlen, fun c hc => (hplain c hc).refused_false⟩

theorem name_rules_pokemon : gbNameValid ("Pokémon".toUTF8.data.toList ++ [0]) = true ∧
    NameAllowed ("Pokémon".toUTF8.data.toList ++ [0]) := by
  have hread : Readable ("Pokémon".toUTF8.data.toList ++ [0]) := .inl (by simp)
  have hvalid : gbNameValid ("Pokémon".toUTF8.data.toList ++ [0]) = true := by decide +kernel
  exact ⟨hvalid, (name_rules.1 _ hread).mp hvalid⟩

/-- A name with a NUL in it is refused on the PC, and cut short on the device. -/
theorem encodeName_nul :
    ¬ ∀ s : String, (∃ encoded, encodeName s = .ok encoded) ↔ gbNameValid (utf8Bytes s ++ [0]) = true := by
  intro h
  have hdevice : gbNameValid (utf8Bytes "a\x00b" ++ [0]) = true := by decide +kernel
  obtain ⟨encoded, hencoded⟩ := (h "a\x00b").mpr hdevice
  have hnul := (encodeName_isOk.mp ⟨encoded, hencoded⟩).2.2 '\x00' (by decide +kernel)
  exact absurd hnul (by decide)

end FoloGameboy

/-
`gb_name_url_decode` at its memory: every load of the encoded string and every store into the output
is checked. It computes what the decoder of a list of bytes computes, and undoes every form encoding
of a name that is valid.
-/
import FoloGameboy.Tools.NameRules
import FoloGameboy.Web.Outcomes

namespace FoloGameboy

/-! ## The decoder at its memory -/

/-- The two digits after a percent sign at `i`. The outer option is a fault, the inner one `return
false`. -/
def escapeAt (encoded : List UInt8) (i : Nat) : Option (Option UInt8) :=
  match encoded[i + 1]? with
  | none => none
  | some first =>
    match hexValue first with
    | none => some none
    | some high =>
      if first = 0 then some none
      else
        match encoded[i + 2]? with
        | none => none
        | some second =>
          if second = 0 then some none
          else some ((hexValue second).map fun low => (high <<< 4) ||| low)

/-- The value of the character at `i`, and how many more it takes. -/
def valueAt (encoded : List UInt8) (i : Nat) (value : UInt8) : Option (Option (UInt8 × Nat)) :=
  if value = 0x25 then (escapeAt encoded i).map (·.map (·, 2))
  else some (some (if value = 0x2B then 0x20 else value, 0))

/-- The loop of `gb_name_url_decode` from the index `i` on, with `used` bytes written. -/
def urlDecodeAt (encoded : List UInt8) (outputSize i used : Nat) (output : Buffer) : Option (Bool × Buffer) :=
  match _hi : encoded[i]? with
  | none => none
  | some value =>
    if value = 0 then (output.put used 0).map fun output => (gbNameValid (output.slice 0 output.size), output)
    else
      match valueAt encoded i value with
      | none => none
      | some none => some (false, output)
      | some (some (value, more)) =>
        if value = 0 ∨ outputSize ≤ used + 1 then some (false, output)
        else
          match output.put used value with
          | none => none
          | some output => urlDecodeAt encoded outputSize (i + more + 1) (used + 1) output
termination_by encoded.length - i
decreasing_by
  have hlt : i < encoded.length := (List.getElem?_eq_some_iff.1 _hi).1
  omega

def gbNameUrlDecodeInto (encoded : List UInt8) (outputSize : Nat) (output : Buffer) : Option (Bool × Buffer) :=
  if outputSize < 2 then some (false, output) else urlDecodeAt encoded outputSize 0 0 output

/-! ## It computes the decoder -/

theorem gbNameValid_terminated {name : List UInt8} (h : ∀ b ∈ name, b ≠ 0) (rest : List UInt8) :
    gbNameValid (name ++ 0 :: rest) = gbNameValid name := by
  unfold gbNameValid
  have hstr : cstr ((name ++ 0 :: rest).take 32) = cstr (name.take 32) := by
    have hname : cstr (name.take 32) = name.take 32 :=
      cstr_of_ne_zero fun b hb => h b (List.mem_of_mem_take hb)
    rw [hname]
    rcases Nat.lt_or_ge name.length 32 with hlen | hlen
    · rw [cstr_short h (Nat.le_of_lt_succ hlen), List.take_of_length_le (Nat.le_of_lt hlen)]
    · rw [List.take_append_of_le_length hlen]
      exact hname
  rw [hstr]

/-- The output holds what was written so far, and is as it was from `outputSize` on. -/
structure Written (before : Buffer) (outputSize : Nat) (written : List UInt8) (output : Buffer) : Prop where
  size : output.size = before.size
  fits : written.length < outputSize
  room : outputSize ≤ output.size
  bytes : output.slice 0 written.length = written
  nonzero : ∀ b ∈ written, b ≠ 0
  rest : ∀ j, outputSize ≤ j → output.get j = before.get j

theorem Written.put {before output : Buffer} {outputSize : Nat} {written : List UInt8}
    (h : Written before outputSize written output)
    (v : UInt8) : output.put written.length v = some (output.set written.length v) :=
  if_pos (h.fits.trans_le h.room)

theorem slice_concat {b : Buffer} {n : Nat} (h : n < b.size) (v : UInt8) :
    (b.set n v).slice 0 (n + 1) = b.slice 0 n ++ [v] := by
  rw [Buffer.slice_append]
  congr 1
  · exact Buffer.slice_congr fun i hi => Buffer.get_set_ne b (by omega) v
  · show [(b.set n v).get (0 + n + 0)] = [v]
    rw [Nat.add_zero, Nat.zero_add, Buffer.get_set_self h]

theorem Written.push {before output : Buffer} {outputSize : Nat} {written : List UInt8}
    (h : Written before outputSize written output)
    {v : UInt8} (hv : v ≠ 0) (hfits : written.length + 1 < outputSize) :
    Written before outputSize (written ++ [v]) (output.set written.length v) := by
  refine ⟨by rw [Buffer.size_set, h.size], by rwa [List.length_append],
    by rw [Buffer.size_set]; exact h.room, ?_, ?_, ?_⟩
  · rw [List.length_append]
    show (output.set written.length v).slice 0 (written.length + 1) = _
    rw [slice_concat (h.fits.trans_le h.room), h.bytes]
  · intro b hb
    rcases List.mem_append.1 hb with hb | hb
    · exact h.nonzero b hb
    · rw [List.mem_singleton.1 hb]
      exact hv
  · intro j hj
    have hne : j ≠ written.length := by
      have hlt := h.fits
      omega
    rw [Buffer.get_set_ne _ hne]
    exact h.rest j hj

/-- What a character stands for, and the characters after it. -/
def nextValue (c : UInt8) (rest : List UInt8) : Option (UInt8 × List UInt8) :=
  if c = 0x25 then
    match rest with
    | first :: second :: rest =>
      match hexValue first, hexValue second with
      | some high, some low => some ((high <<< 4) ||| low, rest)
      | _, _ => none
    | _ => none
  else some (if c = 0x2B then 0x20 else c, rest)

theorem urlDecodeFrom_cons (outputSize : Nat) (c : UInt8) (rest written : List UInt8) :
    urlDecodeFrom outputSize (c :: rest) written = (nextValue c rest).bind fun next =>
      if next.1 = 0 ∨ outputSize ≤ written.length + 1 then none else urlDecodeFrom outputSize next.2
        (written ++ [next.1]) := by
  have hstore : ∀ (value : UInt8) (rest : List UInt8),
      (if value = 0 ∨ outputSize ≤ written.length + 1 then none else some (written ++ [value])).bind
        (urlDecodeFrom outputSize rest) =
        if value = 0 ∨ outputSize ≤ written.length + 1 then none
          else urlDecodeFrom outputSize rest (written ++ [value]) := by
    intro value rest
    split <;> rfl
  unfold nextValue
  by_cases hc : c = 0x25
  · match rest with
    | [] =>
      rw [if_pos hc, urlDecodeFrom, if_pos hc]
      · rfl
      · exact fun _ _ _ h => nomatch h
    | [_] =>
      rw [if_pos hc, urlDecodeFrom, if_pos hc]
      · rfl
      · exact fun _ _ _ h => nomatch h
    | first :: second :: rest =>
      rw [if_pos hc, urlDecodeFrom]
      dsimp only
      rw [if_pos hc]
      cases hexValue first with
      | none => rfl
      | some high =>
        cases hexValue second with
        | none => rfl
        | some low => exact hstore _ _
  · rw [if_neg hc, Option.bind_some, ← hstore]
    match rest with
    | [] =>
      rw [urlDecodeFrom, if_neg hc]
      exact fun _ _ _ h => nomatch h
    | [_] =>
      rw [urlDecodeFrom, if_neg hc]
      exact fun _ _ _ h => nomatch h
    | _ :: _ :: _ =>
      rw [urlDecodeFrom]
      dsimp only
      rw [if_neg hc]

/-- The loads behind a character are those of the string and its NUL. -/
theorem valueAt_next (before : List UInt8) (c : UInt8) {rest : List UInt8} (h : ∀ b ∈ rest, b ≠ 0) :
    (nextValue c rest = none ∧ valueAt (before ++ (c :: rest ++ [0])) before.length c = some none) ∨
      ∃ taken after value, rest = taken ++ after ∧ nextValue c rest = some (value, after) ∧
        valueAt (before ++ (c :: rest ++ [0])) before.length c = some (some (value, taken.length)) := by
  -- the load behind the character reads the rest of the string, or its NUL
  have hload : ∀ j, (before ++ (c :: rest ++ [0]))[before.length + 1 + j]? = (rest ++ [0])[j]? := by
    intro j
    rw [List.getElem?_append_right (by omega)]
    have hsub : before.length + 1 + j - before.length = j + 1 := by omega
    rw [hsub]
    rfl
  unfold valueAt nextValue
  split
  · match rest, h with
    -- the NUL is the first digit, and is no digit
    | [], _ =>
      refine .inl ⟨rfl, ?_⟩
      have h0 := hload 0
      unfold escapeAt
      rw [Nat.add_zero] at h0
      rw [h0]
      rfl
    -- the NUL is the second digit
    | [first], h =>
      have h0 := hload 0
      have h1 := hload 1
      rw [Nat.add_zero] at h0
      refine .inl ⟨rfl, ?_⟩
      unfold escapeAt
      rw [h0]
      show Option.map _ (match hexValue first with | none => _ | some high => _) = _
      cases hexValue first with
      | none => rfl
      | some high =>
        dsimp only
        rw [if_neg (h first List.mem_cons_self), h1]
        rfl
    | first :: second :: after, h =>
      have h0 := hload 0
      have h1 := hload 1
      rw [Nat.add_zero] at h0
      have hescape : escapeAt (before ++ (c :: first :: second :: after ++ [0])) before.length =
          some (match hexValue first, hexValue second with
            | some high, some low => some ((high <<< 4) ||| low)
            | _, _ => none) := by
        unfold escapeAt
        rw [h0]
        show (match hexValue first with | none => _ | some high => _) = _
        cases hexValue first with
        | none => rfl
        | some high =>
          dsimp only
          rw [if_neg (h first List.mem_cons_self), h1]
          show (if second = 0 then _ else _) = _
          rw [if_neg (h second (List.mem_cons_of_mem _ List.mem_cons_self))]
          cases hexValue second <;> rfl
      rw [hescape]
      dsimp only
      cases hexValue first with
      | none => exact .inl ⟨rfl, rfl⟩
      | some high =>
        cases hexValue second with
        | none => exact .inl ⟨rfl, rfl⟩
        | some low => exact .inr ⟨[first, second], after, _, rfl, rfl, rfl⟩
  · exact .inr ⟨[], rest, _, rfl, rfl, rfl⟩

/-- What the decoder at its memory does, by the result of the decoder of bytes. -/
structure Decodes (before : Buffer) (outputSize : Nat) (result : Option (List UInt8))
    (ok : Bool) (output : Buffer) : Prop where
  size : output.size = before.size
  rest : ∀ j, outputSize ≤ j → output.get j = before.get j
  refused : result = none → ok = false
  decoded : ∀ name, result = some name → ok = gbNameValid name ∧ ok = gbNameValid (output.slice 0 output.size) ∧
    (∀ b ∈ name, b ≠ 0) ∧ ∃ tail, output.slice 0 outputSize = name ++ 0 :: tail

theorem urlDecodeAt_end {encoded : List UInt8} {i : Nat} (h : encoded[i]? = some 0)
    (outputSize used : Nat) (output : Buffer) :
    urlDecodeAt encoded outputSize i used output =
      (output.put used 0).map fun output => (gbNameValid (output.slice 0 output.size), output) := by
  rw [urlDecodeAt]
  split
  · rename_i hnone
    rw [h] at hnone
    cases hnone
  · rename_i value hsome
    rw [h] at hsome
    cases hsome
    exact if_pos rfl

theorem urlDecodeAt_value {encoded : List UInt8} {i : Nat} {c : UInt8} (h : encoded[i]? = some c)
    (hc : c ≠ 0)
    (outputSize used : Nat) (output : Buffer) : urlDecodeAt encoded outputSize i used output =
      match valueAt encoded i c with
      | none => none
      | some none => some (false, output)
      | some (some (value, more)) =>
        if value = 0 ∨ outputSize ≤ used + 1 then some (false, output)
        else
          match output.put used value with
          | none => none
          | some output => urlDecodeAt encoded outputSize (i + more + 1) (used + 1) output := by
  rw [urlDecodeAt]
  split
  · rename_i hnone
    rw [h] at hnone
    cases hnone
  · rename_i value hsome
    rw [h] at hsome
    cases hsome
    exact if_neg hc

theorem Written.refused {before output : Buffer} {outputSize : Nat} {written : List UInt8}
    (h : Written before outputSize written output) :
    Decodes before outputSize none false output := ⟨h.size, h.rest, fun _ => rfl, fun _ h => (nomatch h)⟩

/-- The string ends: the NUL is stored after what was written. -/
theorem Written.finish {before output : Buffer} {outputSize : Nat} {written : List UInt8}
    (h : Written before outputSize written output) :
    Decodes before outputSize (some written)
      (gbNameValid ((output.set written.length 0).slice 0 (output.set written.length 0).size))
        (output.set written.length 0) := by
  have hsplit : ∀ n, written.length < n → (output.set written.length 0).slice 0 n =
      written ++ 0 :: (output.set written.length 0).slice (0 + (written.length + 1))
        (n - (written.length + 1)) := by
    intro n hn
    have hsum : n = written.length + 1 + (n - (written.length + 1)) := by omega
    rw [hsum, Buffer.slice_append, slice_concat (h.fits.trans_le h.room), h.bytes,
      List.append_assoc, ← hsum]
    rfl
  refine ⟨by rw [Buffer.size_set, h.size], fun j hj => ?_, (nomatch ·), fun name hname => ?_⟩
  · have hne : j ≠ written.length := by
      have hlt := h.fits
      omega
    rw [Buffer.get_set_ne _ hne]
    exact h.rest j hj
  · cases hname
    refine ⟨?_, rfl, h.nonzero, _, hsplit outputSize h.fits⟩
    rw [hsplit _ (by rw [Buffer.size_set]; exact h.fits.trans_le h.room)]
    exact gbNameValid_terminated h.nonzero _

theorem urlDecodeAt_decodes {before : Buffer} {outputSize : Nat} (n : Nat) :
    ∀ (rest : List UInt8), rest.length ≤ n → (∀ b ∈ rest, b ≠ 0) →
    ∀ (front written : List UInt8) (output : Buffer), Written before outputSize written output →
      ∃ ok output', urlDecodeAt (front ++ (rest ++ [0])) outputSize front.length written.length
        output = some (ok, output') ∧
        Decodes before outputSize (urlDecodeFrom outputSize rest written) ok output' := by
  induction n with
  | zero =>
    intro rest hlen _ front written output hw
    rw [List.length_eq_zero_iff.1 (Nat.le_zero.1 hlen)]
    have hload : (front ++ ([] ++ [0]))[front.length]? = some (0 : UInt8) := by simp
    refine ⟨_, _, ?_, hw.finish⟩
    rw [urlDecodeAt_end hload, hw.put]
    rfl
  | succ n ih =>
    intro rest hlen hrest front written output hw
    match rest, hlen, hrest with
    | [], hlen, hrest => exact ih [] (Nat.zero_le n) hrest front written output hw
    | c :: rest, hlen, hrest =>
      have hload : (front ++ (c :: rest ++ [0]))[front.length]? = some c := by simp
      have hc : c ≠ 0 := hrest c List.mem_cons_self
      have hrest' : ∀ b ∈ rest, b ≠ 0 := fun b hb => hrest b (List.mem_cons_of_mem c hb)
      rw [urlDecodeAt_value hload hc, urlDecodeFrom_cons]
      obtain ⟨hnext, hvalue⟩ | ⟨taken, after, value, hsplit, hnext, hvalue⟩ :=
        valueAt_next front c hrest' <;> rw [hnext, hvalue]
      · exact ⟨false, output, rfl, hw.refused⟩
      rw [Option.bind_some]
      dsimp only
      split
      · exact ⟨false, output, rfl, hw.refused⟩
      rename_i hstore
      rw [not_or, Nat.not_le] at hstore
      rw [hw.put]
      dsimp only
      have hlen' : after.length ≤ n := by
        rw [hsplit, List.length_cons, List.length_append] at hlen
        omega
      obtain ⟨ok, output', hrun, hdec⟩ := ih after hlen'
        (fun b hb => hrest' b (hsplit ▸ List.mem_append_right taken hb))
        (front ++ c :: taken) (written ++ [value]) (output.set written.length value)
          (hw.push hstore.1 hstore.2)
      refine ⟨ok, output', ?_, hdec⟩
      have hencoded : front ++ c :: taken ++ (after ++ [0]) = front ++ (c :: rest ++ [0]) := by
        rw [hsplit]
        simp
      have hindex : (front ++ c :: taken).length = front.length + taken.length + 1 := by
        rw [List.length_append, List.length_cons, Nat.add_assoc]
      have hused : (written ++ [value]).length = written.length + 1 := List.length_append
      rwa [hencoded, hindex, hused] at hrun

/-- Every load of the decoder is of the string and every store within the output, and it computes
`gbNameUrlDecode`. -/
theorem gbNameUrlDecodeInto_decodes {encoded : List UInt8} (h : ∀ b ∈ encoded, b ≠ 0)
    {outputSize : Nat} {output : Buffer}
    (hroom : outputSize ≤ output.size) :
    ∃ ok output', gbNameUrlDecodeInto (encoded ++ [0]) outputSize output = some (ok, output') ∧
      output'.size = output.size ∧ (∀ j, outputSize ≤ j → output'.get j = output.get j) ∧
      (ok = true → gbNameValid (output'.slice 0 output'.size) = true) ∧
      ∀ name, gbNameUrlDecode encoded outputSize = some name → ok = true ∧ ∃ tail,
        output'.slice 0 outputSize = name ++ 0 :: tail := by
  unfold gbNameUrlDecodeInto gbNameUrlDecode
  split
  · exact ⟨false, output, rfl, rfl, fun _ _ => rfl, (nomatch ·), fun _ h => (nomatch h)⟩
  rename_i hsize
  have hw : Written output outputSize [] output :=
    ⟨rfl, Nat.lt_of_lt_of_le Nat.two_pos (Nat.le_of_not_lt hsize), hroom, rfl,
      fun _ hb => (nomatch hb), fun _ _ => rfl⟩
  obtain ⟨ok, output', hrun, hsize', hrest, hrefused, hdecoded⟩ :=
    urlDecodeAt_decodes encoded.length encoded (Nat.le_refl _) h [] [] output hw
  rw [cstr_of_ne_zero h]
  refine ⟨ok, output', hrun, hsize', hrest, fun hok => ?_, fun name hname => ?_⟩
  · cases hresult : urlDecodeFrom outputSize encoded [] with
    | none => exact absurd (hok.symm.trans (hrefused hresult)) (by decide)
    | some name => exact (hdecoded name hresult).2.1.symm.trans hok
  · obtain ⟨name', hresult, hvalid⟩ := Option.bind_eq_some_iff.1 hname
    split at hvalid
    · cases hvalid
      rename_i hvalid
      obtain ⟨hok, -, -, htail⟩ := hdecoded name hresult
      exact ⟨hok.trans hvalid, htail⟩
    · cases hvalid

/-! ## Form encodings -/

/-- A byte of a name is sent as itself, as a percent sign and two digits in either case, or, if it
is a space, as a plus sign. -/
inductive FormEncodes : List UInt8 → List UInt8 → Prop where
  | nil : FormEncodes [] []
  | literal {c : UInt8} {name encoded : List UInt8} (hc : c ≠ 0x25 ∧ c ≠ 0x26 ∧ c ≠ 0x2B)
      (h : FormEncodes name encoded) :
      FormEncodes (c :: name) (c :: encoded)
  | escape {c high low : UInt8} {name encoded : List UInt8} (hhigh : hexValue high = some (c >>> 4))
      (hlow : hexValue low = some (c &&& 0x0F))
      (h : FormEncodes name encoded) : FormEncodes (c :: name) (0x25 :: high :: low :: encoded)
  | plus {name encoded : List UInt8} (h : FormEncodes name encoded) : FormEncodes (0x20 :: name) (0x2B :: encoded)

theorem nibbles (c : UInt8) : (c >>> 4) <<< 4 ||| (c &&& (0x0F : UInt8)) = c :=
  forall_byte (P := fun c => (c >>> 4) <<< 4 ||| (c &&& (0x0F : UInt8)) = c) (by decide +kernel) c

theorem FormEncodes.length_le {name encoded : List UInt8} (h : FormEncodes name encoded) :
    encoded.length ≤ 3 * name.length := by
  induction h with
  | nil => exact Nat.le_refl _
  | literal _ _ ih | escape _ _ _ ih | plus _ ih =>
    simp only [List.length_cons]
    omega

theorem hexValue_some {b v : UInt8} (h : hexValue b = some v) : b ≠ 0 ∧ b ≠ 0x26 := by
  constructor <;> rintro rfl <;> cases h

/-- An encoding has no NUL and no separator of fields. -/
theorem FormEncodes.bytes {name encoded : List UInt8} (h : FormEncodes name encoded)
    (hname : ∀ b ∈ name, b ≠ 0) :
    ∀ b ∈ encoded, b ≠ 0 ∧ b ≠ 0x26 := by
  induction h with
  | nil => exact fun b hb => (nomatch hb)
  | literal hc _ ih =>
    have ih := ih fun b hb => hname b (List.mem_cons_of_mem _ hb)
    exact List.forall_mem_cons.2 ⟨⟨hname _ List.mem_cons_self, hc.2.1⟩, ih⟩
  | escape hhigh hlow _ ih =>
    have ih := ih fun b hb => hname b (List.mem_cons_of_mem _ hb)
    exact List.forall_mem_cons.2 ⟨by decide,
      List.forall_mem_cons.2 ⟨hexValue_some hhigh, List.forall_mem_cons.2 ⟨hexValue_some hlow, ih⟩⟩⟩
  | plus _ ih =>
    have ih := ih fun b hb => hname b (List.mem_cons_of_mem _ hb)
    exact List.forall_mem_cons.2 ⟨by decide, ih⟩

theorem FormEncodes.decode {outputSize : Nat} {name encoded : List UInt8} (h : FormEncodes name encoded) :
    ∀ written : List UInt8, (∀ b ∈ name, b ≠ 0) → written.length + name.length < outputSize →
      urlDecodeFrom outputSize encoded written = some (written ++ name) := by
  have hstep : ∀ {c : UInt8} {name written : List UInt8}, (∀ b ∈ c :: name, b ≠ 0) →
      written.length + (c :: name).length < outputSize →
      ¬ (c = 0 ∨ outputSize ≤ written.length + 1) ∧ (∀ b ∈ name, b ≠ 0) ∧
        (written ++ [c]).length + name.length < outputSize := by
    intro c name written hname hfits
    rw [List.length_cons] at hfits
    refine ⟨not_or.2 ⟨hname c List.mem_cons_self, by omega⟩,
      fun b hb => hname b (List.mem_cons_of_mem _ hb), ?_⟩
    rw [List.length_append, List.length_singleton]
    omega
  induction h with
  | nil =>
    intro written _ _
    rw [urlDecodeFrom, List.append_nil]
  | @literal c name encoded hc _ ih =>
    intro written hname hfits
    obtain ⟨hstore, hname', hfits'⟩ := hstep hname hfits
    have hnext : nextValue c encoded = some (c, encoded) := by
      unfold nextValue
      rw [if_neg hc.1, if_neg hc.2.2]
    rw [urlDecodeFrom_cons, hnext, Option.bind_some, if_neg hstore, ih _ hname' hfits', List.append_assoc]
    rfl
  | @escape c high low name encoded hhigh hlow _ ih =>
    intro written hname hfits
    obtain ⟨hstore, hname', hfits'⟩ := hstep hname hfits
    have hnext : nextValue 0x25 (high :: low :: encoded) = some (c, encoded) := by
      rw [nextValue, if_pos rfl, hhigh, hlow]
      dsimp only
      rw [nibbles]
    rw [urlDecodeFrom_cons, hnext, Option.bind_some, if_neg hstore, ih _ hname' hfits', List.append_assoc]
    rfl
  | @plus name encoded _ ih =>
    intro written hname hfits
    obtain ⟨hstore, hname', hfits'⟩ := hstep hname hfits
    have hnext : nextValue 0x2B encoded = some (0x20, encoded) := rfl
    rw [urlDecodeFrom_cons, hnext, Option.bind_some, if_neg hstore, ih _ hname' hfits', List.append_assoc]
    rfl

/-- A game name: some bytes before a NUL that `gb_name_valid` accepts. -/
structure GameName (name : List UInt8) : Prop where
  nonzero : ∀ b ∈ name, b ≠ 0
  valid : gbNameValid (name ++ [0]) = true

theorem GameName.length {name : List UInt8} (h : GameName name) :
    1 ≤ name.length ∧ name.length ≤ 31 ∧ gbNameValid name = true := by
  have hvalid : gbNameValid name = true := (gbNameValid_terminated h.nonzero []).symm.trans h.valid
  have hlen := (gbNameValid_length hvalid).1
  rw [cstr_of_ne_zero h.nonzero] at hlen
  refine ⟨?_, Nat.le_of_lt_succ hlen, hvalid⟩
  cases name with
  | nil => exact absurd hvalid (by decide)
  | cons b name => exact Nat.succ_pos _

theorem FormEncodes.gbNameUrlDecode {outputSize : Nat} {name encoded : List UInt8}
    (h : FormEncodes name encoded) (hname : GameName name)
    (hfits : name.length < outputSize) : gbNameUrlDecode encoded outputSize = some name := by
  obtain ⟨hpos, -, hvalid⟩ := hname.length
  have hdecode := h.decode [] hname.nonzero (by simpa using hfits)
  rw [FoloGameboy.gbNameUrlDecode, if_neg (by omega),
    cstr_of_ne_zero fun b hb => (h.bytes hname.nonzero b hb).1, hdecode]
  exact if_pos hvalid

/-! ## Queries -/

/-- What the handlers use of the web server: the query of a request, and the value of a key in it,
each if it fits a buffer. -/
structure Httpd where
  urlQueryStr : (query : List UInt8) → (size : Nat) → Option (List UInt8)
  queryKeyValue : (query key : List UInt8) → (size : Nat) → Option (List UInt8)

def nameKey : List UInt8 := "name".toUTF8.toList

def tokenKey : List UInt8 := "token".toUTF8.toList

def GB_STORAGE_TOKEN_BYTES : Nat := 65

/-- `key=value` -/
def field (key value : List UInt8) : List UInt8 := key ++ 0x3D :: value

/-- A query is copied if it fits with its NUL, and so is the raw value of the first field of a key;
fields are separated by `&`. -/
structure Httpd.Documented (H : Httpd) : Prop where
  query : ∀ q size, q.length < size → H.urlQueryStr q size = some q
  only : ∀ key value size, 0x3D ∉ key → 0x26 ∉ value → value.length < size →
    H.queryKeyValue (field key value) key size = some value
  first : ∀ key value rest size, 0x3D ∉ key → 0x26 ∉ value → value.length < size →
    H.queryKeyValue (field key value ++ 0x26 :: rest) key size = some value
  other : ∀ key other value rest size, 0x3D ∉ other → 0x26 ∉ value → other ≠ key →
    H.queryKeyValue (field other value ++ 0x26 :: rest) key size = H.queryKeyValue rest key size

/-- What `upload_handler` reads of a query. -/
def Httpd.uploadRequest (H : Httpd) (query : List UInt8) (req : WebRequest) : WebRequest :=
  { req with name := (H.urlQueryStr query 128).bind (H.queryKeyValue · nameKey 96) }

/-- What `rename_handler` reads of a query. -/
def Httpd.renameRequest (H : Httpd) (query : List UInt8) (req : WebRequest) : WebRequest :=
  { req with
    token := (H.urlQueryStr query 192).bind (H.queryKeyValue · tokenKey GB_STORAGE_TOKEN_BYTES)
    name := (H.urlQueryStr query 192).bind (H.queryKeyValue · nameKey 96) }

/-- Decoding undoes every form encoding of a name, stays within its buffers whatever it is given,
and the buffers of the handlers hold every encoding. -/
theorem urlDecode_roundTrip :
    (∀ name encoded outputSize output, GameName name → FormEncodes name encoded →
      name.length < outputSize → outputSize ≤ output.size →
      ∃ output' tail, gbNameUrlDecodeInto (encoded ++ [0]) outputSize output = some (true, output') ∧
        output'.slice 0 outputSize = name ++ 0 :: tail) ∧
    (∀ encoded outputSize output, (∀ b ∈ encoded, b ≠ 0) → outputSize ≤ output.size →
      ∃ ok output', gbNameUrlDecodeInto (encoded ++ [0]) outputSize output = some (ok, output') ∧
        output'.size = output.size ∧
        (∀ j, outputSize ≤ j → output'.get j = output.get j) ∧
          (ok = true → gbNameValid (output'.slice 0 output'.size) = true)) ∧
    ∀ (H : Httpd) name encoded token req, H.Documented → GameName name → FormEncodes name encoded →
      token.length = GB_STORAGE_TOKEN_BYTES - 1 → 0x26 ∉ token →
        (H.uploadRequest (field nameKey encoded) req).newName = some name ∧
        (H.renameRequest (field tokenKey token ++ 0x26 :: field nameKey encoded) req).newName = some name ∧
        (H.renameRequest (field tokenKey token ++ 0x26 :: field nameKey encoded) req).token = some token := by
  refine ⟨fun name encoded outputSize output hname he hfits hroom => ?_,
    fun encoded outputSize output h hroom => ?_,
    fun H name encoded token req hH hname he htoken hamp => ?_⟩
  · obtain ⟨ok, output', hrun, -, -, -, hdecoded⟩ :=
      gbNameUrlDecodeInto_decodes (fun b hb => (he.bytes hname.nonzero b hb).1) hroom
    obtain ⟨rfl, tail, htail⟩ := hdecoded name (he.gbNameUrlDecode hname hfits)
    exact ⟨output', tail, hrun, htail⟩
  · obtain ⟨ok, output', hrun, hsize, hrest, hvalid, -⟩ := gbNameUrlDecodeInto_decodes h hroom
    exact ⟨ok, output', hrun, hsize, hrest, hvalid⟩
  · have hlen := he.length_le
    have hlen' := hname.length.2.1
    have hname32 : name.length < 32 := Nat.lt_succ_of_le hlen'
    have hencoded : 0x26 ∉ encoded := fun hmem => (he.bytes hname.nonzero _ hmem).2 rfl
    have hnameKey : 0x3D ∉ nameKey ∧ nameKey.length = 4 := by decide +kernel
    have htokenKey : 0x3D ∉ tokenKey ∧ tokenKey.length = 5 ∧ tokenKey ≠ nameKey := by decide +kernel
    have hfield : ∀ key value : List UInt8, (field key value).length = key.length + value.length +
        1 := fun key value => by
      rw [field, List.length_append, List.length_cons, Nat.add_assoc]
    have hupload : (field nameKey encoded).length < 128 := by
      rw [hfield, hnameKey.2]
      omega
    have hrename : (field tokenKey token ++ 0x26 :: field nameKey encoded).length < 192 := by
      rw [List.length_append, List.length_cons, hfield, hfield, hnameKey.2, htokenKey.2.1, htoken,
        GB_STORAGE_TOKEN_BYTES]
      omega
    have hdecode := he.gbNameUrlDecode hname hname32
    refine ⟨?_, ?_, ?_⟩
    · rw [WebRequest.newName, Httpd.uploadRequest, hH.query _ _ hupload]
      dsimp only
      rw [Option.bind_some, hH.only _ _ _ hnameKey.1 hencoded (by omega)]
      exact hdecode
    · rw [WebRequest.newName, Httpd.renameRequest, hH.query _ _ hrename]
      dsimp only
      rw [Option.bind_some, hH.other _ _ _ _ _ htokenKey.1 hamp htokenKey.2.2,
        hH.only _ _ _ hnameKey.1 hencoded (by omega)]
      exact hdecode
    · rw [Httpd.renameRequest, hH.query _ _ hrename]
      dsimp only
      rw [Option.bind_some]
      exact hH.first _ _ _ _ htokenKey.1 hamp (by rw [htoken]; decide)

/-- The value of the first field of a key. -/
def valueOf (key query : List UInt8) : Option (List UInt8) :=
  if query = [] then none
  else
    let rest := (query.dropWhile (· ≠ 0x3D)).drop 1
    if query.takeWhile (· ≠ 0x3D) = key then some (rest.takeWhile (· ≠ 0x26))
    else valueOf key ((rest.dropWhile (· ≠ 0x26)).drop 1)
termination_by query.length
decreasing_by
  rename_i hne _
  have hpos := List.length_pos_iff.2 hne
  have h₁ := (List.dropWhile_sublist (l := query) (· ≠ 0x3D)).length_le
  have h₂ := (List.dropWhile_sublist (l := (query.dropWhile (· ≠ 0x3D)).drop 1) (· ≠ 0x26)).length_le
  simp only [List.length_drop] at *
  omega

def fieldsHttpd : Httpd where
  urlQueryStr query size := if query.length < size then some query else none
  queryKeyValue query key size := (valueOf key query).filter fun value => decide (value.length < size)

theorem span_of_not_mem {sep : UInt8} {l : List UInt8} (h : sep ∉ l) (rest : List UInt8) :
    (l ++ sep :: rest).takeWhile (· ≠ sep) = l ∧ (l ++ sep :: rest).dropWhile (· ≠ sep) = sep :: rest ∧
      l.takeWhile (· ≠ sep) = l ∧ l.dropWhile (· ≠ sep) = [] := by
  induction l with
  | nil => simp
  | cons b l ih =>
    have hb : b ≠ sep := fun heq => h (heq ▸ List.mem_cons_self)
    have ih := ih fun hmem => h (List.mem_cons_of_mem b hmem)
    simpa [hb] using ih

/-- The fields of a query one after another. -/
theorem valueOf_field (key other : List UInt8) {value : List UInt8} (ho : 0x3D ∉ other)
    (hv : 0x26 ∉ value) :
    valueOf key (field other value) = (if other = key then some value else none) ∧
      ∀ rest, valueOf key (field other value ++ 0x26 :: rest) = if other = key then some value
        else valueOf key rest := by
  have hne : ∀ rest, other ++ 0x3D :: rest ≠ [] :=
    fun rest => List.append_ne_nil_of_right_ne_nil _ (List.cons_ne_nil _ _)
  unfold field
  constructor
  · rw [valueOf, if_neg (hne _)]
    dsimp only
    rw [(span_of_not_mem ho value).1, (span_of_not_mem ho value).2.1, List.drop_one, List.tail_cons,
      (span_of_not_mem hv []).2.2.1, (span_of_not_mem hv []).2.2.2]
    have hnone : valueOf key ([].drop 1) = none := by
      rw [valueOf]
      rfl
    rw [hnone]
  · intro rest
    rw [valueOf, List.append_assoc, List.cons_append, if_neg (hne _)]
    dsimp only
    rw [(span_of_not_mem ho _).1, (span_of_not_mem ho _).2.1, List.drop_one, List.tail_cons,
      (span_of_not_mem hv rest).1, (span_of_not_mem hv rest).2.1]
    rfl

theorem fieldsHttpd_documented : fieldsHttpd.Documented where
  query _ _ h := if_pos h
  only key value size hk hv hlen := by
    show (valueOf key (field key value)).filter _ = _
    rw [(valueOf_field key key hk hv).1, if_pos rfl]
    exact if_pos (decide_eq_true hlen)
  first key value rest size hk hv hlen := by
    show (valueOf key (field key value ++ 0x26 :: rest)).filter _ = _
    rw [(valueOf_field key key hk hv).2, if_pos rfl]
    exact if_pos (decide_eq_true hlen)
  other key other value rest size ho hv hne := by
    show (valueOf key (field other value ++ 0x26 :: rest)).filter _ = _
    rw [(valueOf_field key other ho hv).2, if_neg hne]
    rfl

/-- "A b" sent as "%41+b". -/
theorem urlDecode_roundTrip_space :
    (∃ output' tail, gbNameUrlDecodeInto ([0x25, 0x34, 0x31, 0x2B, 0x62] ++ [0]) 32 (.fill 32 0)
      = some (true, output') ∧
      output'.slice 0 32 = [0x41, 0x20, 0x62] ++ 0 :: tail) ∧
    (∃ ok output', gbNameUrlDecodeInto ([0x25, 0x34] ++ [0]) 32 (.fill 32 0) = some (ok, output') ∧ output'.size = 32 ∧
      (∀ j, 32 ≤ j → output'.get j = (Buffer.fill 32 0).get j) ∧
        (ok = true → gbNameValid (output'.slice 0 output'.size) = true)) ∧
    (fieldsHttpd.uploadRequest (field nameKey [0x25, 0x34, 0x31, 0x2B, 0x62]) {}).newName
      = some [0x41, 0x20, 0x62] := by
  have hname : GameName [0x41, 0x20, 0x62] := ⟨by decide +kernel, by decide +kernel⟩
  have he : FormEncodes [0x41, 0x20, 0x62] [0x25, 0x34, 0x31, 0x2B, 0x62] :=
    .escape (by decide) (by decide) (.plus (.literal (by decide) .nil))
  refine ⟨urlDecode_roundTrip.1 _ _ 32 _ hname he (by decide) (Nat.le_refl _),
    urlDecode_roundTrip.2.1 _ 32 _ (by decide +kernel) (Nat.le_refl _), ?_⟩
  exact (urlDecode_roundTrip.2.2 fieldsHttpd _ _ (List.replicate 64 0x61) {} fieldsHttpd_documented
    hname he (by decide) (by decide)).1

end FoloGameboy

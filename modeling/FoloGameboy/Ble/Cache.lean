/-
What one packet does to the cache: entries that have expired are cleared, the packet is merged into
the entry of its peer, and a new peer takes the first free slot or, if there is none, the slot seen
longest ago.
-/
import FoloGameboy.Ble.Advertisement

namespace FoloGameboy

section

variable (address : Vector UInt8 6) (addressType : UInt8) (nowMs : UInt32)

/-- The entry of a peer. -/
def IsPeer (e : AdvEntry) : Prop := e.used = true ∧ e.addressType = addressType ∧ e.address = address

/-- The milliseconds since the last packet of an entry, as the code computes them. -/
def advAge (e : AdvEntry) : UInt32 := nowMs - e.lastSeenMs

/-- What the loop has found among the slots it has gone through. -/
structure Scanned (slots : List AdvEntry) (s : AdvScan) : Prop where
  entry : ∀ i, s.entry = some i → ∃ e, slots[i]? = some e ∧ IsPeer address addressType e
  noEntry : s.entry = none → ∀ e ∈ slots, ¬ IsPeer address addressType e
  spare : ∀ i, s.spare = some i → (∃ e, slots[i]? = some e ∧ e.used = false) ∧
    ∀ j < i, ∀ e, slots[j]? = some e → e.used = true
  noSpare : s.spare = none → ∀ e ∈ slots, e.used = true
  oldest : ∀ i old, s.oldest = some (i, old) → slots[i]? = some old ∧ old.used = true ∧
    ∀ e ∈ slots, e.used = true → advAge nowMs e ≤ advAge nowMs old
  noOldest : s.oldest = none → ∀ e ∈ slots, e.used = false

theorem scanned_nil : Scanned address addressType nowMs [] {} :=
  ⟨fun _ h => (nomatch h), fun _ _ h => (nomatch h), fun _ h => (nomatch h),
    fun _ _ h => (nomatch h), fun _ _ h => (nomatch h),
    fun _ _ h => (nomatch h)⟩

/-- The body of the loop at the slot `i`. -/
def scanItem (i : Nat) (item : AdvEntry) (s : AdvScan) : AdvScan :=
  if ¬ item.used then { s with spare := some (s.spare.getD i) }
  else
    { s with
      entry := if item.addressType = addressType ∧ item.address = address then some i else s.entry
      oldest :=
        match s.oldest with
        | none => some (i, item)
        | some (j, old) => if nowMs - old.lastSeenMs < nowMs - item.lastSeenMs then some (i, item) else some (j, old) }

theorem advScan_cons (i : Nat) (item : AdvEntry) (items : List AdvEntry) (s : AdvScan) :
    (advScan address addressType nowMs i (item :: items) s).2 =
      (advScan address addressType nowMs (i + 1) items
        (scanItem address addressType nowMs i (advExpire nowMs item) s)).2 := rfl

variable {address addressType nowMs}

theorem getElem?_concat_of_some {α : Type} {l : List α} {i : Nat} {a b : α} (h : l[i]? = some a) :
    (l ++ [b])[i]? = some a := by
  rw [List.getElem?_append_left (List.getElem?_eq_some_iff.1 h).1, h]

/-- Every slot of the list with one more is a slot of the list or the last one. -/
theorem getElem?_concat_cases {α : Type} {l : List α} {i : Nat} {a b : α} (h : (l ++ [b])[i]? = some a) :
    l[i]? = some a ∨ (i = l.length ∧ a = b) := by
  rcases Nat.lt_or_ge i l.length with hlt | hge
  · rw [List.getElem?_append_left hlt] at h
    exact .inl h
  · rw [List.getElem?_append_right hge] at h
    obtain ⟨hi, hb⟩ := List.getElem?_eq_some_iff.1 h
    have hzero : i = l.length := by
      simp only [List.length_singleton] at hi
      omega
    subst hzero
    exact .inr ⟨rfl, by simpa using hb.symm⟩

theorem Scanned.unused {slots : List AdvEntry} {s : AdvScan}
    (h : Scanned address addressType nowMs slots s) {item : AdvEntry}
    (hused : item.used = false) :
    Scanned address addressType nowMs (slots ++ [item]) { s with
      spare := some (s.spare.getD slots.length) } := by
  obtain ⟨hentry, hnoEntry, hspare, hnoSpare, holdest, hnoOldest⟩ := h
  refine ⟨fun i hi => ?_, fun hnone e he => ?_, fun i hi => ?_, (nomatch ·), fun i old hold => ?_,
    fun hnone e he => ?_⟩
  · obtain ⟨e, he, hpeer⟩ := hentry i hi
    exact ⟨e, getElem?_concat_of_some he, hpeer⟩
  · rcases List.mem_append.1 he with he | he
    · exact hnoEntry hnone e he
    · rw [List.mem_singleton.1 he]
      exact fun hpeer => Bool.false_ne_true (hused.symm.trans hpeer.1)
  -- the first free slot stays the first, and this is it when there was none
  · cases hs : s.spare with
    | none =>
      obtain rfl : slots.length = i := by simpa [hs] using hi
      refine ⟨⟨item, List.getElem?_concat_length, hused⟩, fun j hj e he => ?_⟩
      rcases getElem?_concat_cases he with he | ⟨rfl, -⟩
      · exact hnoSpare hs e (List.mem_of_getElem? he)
      · exact absurd hj (Nat.lt_irrefl _)
    | some k =>
      obtain rfl : k = i := by simpa [hs] using hi
      obtain ⟨⟨e, he, hfree⟩, hfirst⟩ := hspare k hs
      refine ⟨⟨e, getElem?_concat_of_some he, hfree⟩, fun j hj e' he' => ?_⟩
      rcases getElem?_concat_cases he' with he' | ⟨rfl, -⟩
      · exact hfirst j hj e' he'
      · exact absurd (List.getElem?_eq_some_iff.1 he).1 (Nat.lt_asymm hj)
  · obtain ⟨hslot, hold', hall⟩ := holdest i old hold
    refine ⟨getElem?_concat_of_some hslot, hold', fun e he hu => ?_⟩
    rcases List.mem_append.1 he with he | he
    · exact hall e he hu
    · rw [List.mem_singleton.1 he] at hu
      exact absurd (hused.symm.trans hu) Bool.false_ne_true
  · rcases List.mem_append.1 he with he | he
    · exact hnoOldest hnone e he
    · rw [List.mem_singleton.1 he]
      exact hused

theorem Scanned.used {slots : List AdvEntry} {s : AdvScan}
    (h : Scanned address addressType nowMs slots s) {item : AdvEntry}
    (hused : item.used = true) : Scanned address addressType nowMs (slots ++ [item])
      { s with
        entry := if item.addressType = addressType ∧ item.address = address then some slots.length
          else s.entry
        oldest :=
          match s.oldest with
          | none => some (slots.length, item)
          | some (j, old) =>
            if nowMs - old.lastSeenMs < nowMs - item.lastSeenMs then some (slots.length, item)
              else some (j, old) } := by
  obtain ⟨hentry, hnoEntry, hspare, hnoSpare, holdest, hnoOldest⟩ := h
  refine ⟨fun i hi => ?_, fun hnone e he => ?_, fun i hi => ?_, fun hnone e he => ?_,
    fun i old hold => ?_, fun hnone => ?_⟩
  -- a later slot with the same key replaces the one found
  · dsimp only at hi
    split at hi
    · rename_i hkey
      obtain rfl : slots.length = i := Option.some.inj hi
      exact ⟨item, List.getElem?_concat_length, hused, hkey⟩
    · obtain ⟨e, he, hpeer⟩ := hentry i hi
      exact ⟨e, getElem?_concat_of_some he, hpeer⟩
  · dsimp only at hnone
    split at hnone
    · cases hnone
    · rename_i hkey
      rcases List.mem_append.1 he with he | he
      · exact hnoEntry hnone e he
      · rw [List.mem_singleton.1 he]
        exact fun hpeer => hkey hpeer.2
  · obtain ⟨⟨e, he, hfree⟩, hfirst⟩ := hspare i hi
    refine ⟨⟨e, getElem?_concat_of_some he, hfree⟩, fun j hj e' he' => ?_⟩
    rcases getElem?_concat_cases he' with he' | ⟨-, rfl⟩
    · exact hfirst j hj e' he'
    · exact hused
  · rcases List.mem_append.1 he with he | he
    · exact hnoSpare hnone e he
    · rw [List.mem_singleton.1 he]
      exact hused
  · -- the oldest so far, or the last slot if it is older
    have hnew : ∀ {i old}, (∀ e ∈ slots, e.used = true → advAge nowMs e ≤ advAge nowMs item) →
        some (slots.length, item) = some (i, old) →
        (slots ++ [item])[i]? = some old ∧ old.used = true ∧ ∀ e ∈ slots ++ [item], e.used = true →
          advAge nowMs e ≤ advAge nowMs old := by
      intro i old hall heq
      obtain ⟨rfl, rfl⟩ := Prod.mk.inj (Option.some.inj heq)
      refine ⟨List.getElem?_concat_length, hused, fun e he hu => ?_⟩
      rcases List.mem_append.1 he with he | he
      · exact hall e he hu
      · rw [List.mem_singleton.1 he]
        exact UInt32.le_refl _
    cases hs : s.oldest with
    | none =>
      rw [hs] at hold
      exact hnew (fun e he hu => absurd ((hnoOldest hs e he).symm.trans hu) Bool.false_ne_true) hold
    | some found =>
      obtain ⟨j, old'⟩ := found
      obtain ⟨hslot, hold', hall⟩ := holdest j old' hs
      rw [hs] at hold
      dsimp only at hold
      split at hold
      · rename_i hlt
        exact hnew (fun e he hu => UInt32.le_trans (hall e he hu) (UInt32.le_of_lt hlt)) hold
      · rename_i hge
        obtain ⟨rfl, rfl⟩ := Prod.mk.inj (Option.some.inj hold)
        refine ⟨getElem?_concat_of_some hslot, hold', fun e he hu => ?_⟩
        rcases List.mem_append.1 he with he | he
        · exact hall e he hu
        · rw [List.mem_singleton.1 he]
          exact UInt32.not_lt.1 hge
  · dsimp only at hnone
    split at hnone
    · cases hnone
    · split at hnone <;> cases hnone

theorem Scanned.item {slots : List AdvEntry} {s : AdvScan}
    (h : Scanned address addressType nowMs slots s) (item : AdvEntry) :
    Scanned address addressType nowMs (slots ++ [item])
      (scanItem address addressType nowMs slots.length item s) := by
  unfold scanItem
  cases hused : item.used with
  | false => exact h.unused hused
  | true => exact h.used hused

theorem advScan_scanned (items : List AdvEntry) : ∀ {slots : List AdvEntry} {s : AdvScan},
    Scanned address addressType nowMs slots s →
    Scanned address addressType nowMs (slots ++ items.map (advExpire nowMs))
      (advScan address addressType nowMs slots.length items s).2 := by
  induction items with
  | nil =>
    intro slots s h
    rwa [List.map_nil, List.append_nil]
  | cons item items ih =>
    intro slots s h
    have hnext := ih (h.item (advExpire nowMs item))
    rw [List.length_append, List.append_assoc] at hnext
    rw [advScan_cons]
    exact hnext

/-- The name of a packet replaces that of the entry. -/
def Renames (p : AdvFields) (e : AdvEntry) : Prop :=
  p.fields.name.get ⟨0, advNameSize_pos⟩ ≠ 0 ∧ (p.fields.completeName = true ∨ e.completeName = false)

instance (p : AdvFields) (e : AdvEntry) : Decidable (Renames p e) := inferInstanceAs (Decidable (_ ∧ _))

/-- What a packet changes of an entry. -/
theorem advMerge_fields (p : AdvFields) (nowMs : UInt32) (e : AdvEntry) : let merged := advMerge p nowMs e
    merged.used = e.used ∧ merged.address = e.address ∧ merged.addressType = e.addressType ∧
      merged.lastSeenMs = nowMs ∧
      merged.hidService = (e.hidService || p.fields.hidService) ∧
        merged.iineService = (e.iineService || p.fields.iineService) ∧
      merged.appearance = (if p.hasAppearance then p.fields.appearance else e.appearance) ∧
      merged.name = (if Renames p e then p.fields.name else e.name) ∧
      merged.completeName = (if Renames p e then p.fields.completeName else e.completeName) := by
  obtain ⟨fields, hasAppearance⟩ := p
  unfold advMerge Renames
  cases hasAppearance
  · dsimp only
    simp only [Bool.false_eq_true, if_false]
    split
    · rename_i hname
      exact ⟨rfl, rfl, rfl, rfl, rfl, rfl, rfl, (if_pos hname).symm, (if_pos hname).symm⟩
    · rename_i hname
      exact ⟨rfl, rfl, rfl, rfl, rfl, rfl, rfl, (if_neg hname).symm, (if_neg hname).symm⟩
  · dsimp only
    simp only [if_true]
    split
    · rename_i hname
      exact ⟨rfl, rfl, rfl, rfl, rfl, rfl, rfl, (if_pos hname).symm, (if_pos hname).symm⟩
    · rename_i hname
      exact ⟨rfl, rfl, rfl, rfl, rfl, rfl, rfl, (if_neg hname).symm, (if_neg hname).symm⟩

/-- The slot a packet goes to, among the slots that have not expired, and the entry it is merged into. -/
inductive Chosen (address : Vector UInt8 6) (addressType : UInt8) (nowMs : UInt32) (live : List AdvEntry) :
    Nat → AdvEntry → Prop where
  | peer {i : Nat} {e : AdvEntry} (he : live[i]? = some e) (hpeer : IsPeer address addressType e) :
      Chosen address addressType nowMs live i e
  | free {i : Nat} {e : AdvEntry} (hnew : ∀ e ∈ live, ¬ IsPeer address addressType e)
      (he : live[i]? = some e) (hfree : e.used = false)
      (hfirst : ∀ j < i, ∀ e, live[j]? = some e → e.used = true) :
      Chosen address addressType nowMs live i { used := true, address := address, addressType := addressType }
  | oldest {i : Nat} {e : AdvEntry} (hnew : ∀ e ∈ live, ¬ IsPeer address addressType e)
      (hfull : ∀ e ∈ live, e.used = true)
      (he : live[i]? = some e) (hold : ∀ e' ∈ live, advAge nowMs e' ≤ advAge nowMs e) :
      Chosen address addressType nowMs live i { used := true, address := address, addressType := addressType }

theorem Scanned.chosen {live : List AdvEntry} {s : AdvScan}
    (h : Scanned address addressType nowMs live s) (hne : live ≠ []) :
    ∃ i before, advSlot address addressType s live = some (i, before) ∧
      Chosen address addressType nowMs live i before := by
  unfold advSlot
  cases hentry : s.entry with
  | some i =>
    obtain ⟨e, he, hpeer⟩ := h.entry i hentry
    refine ⟨i, e, ?_, .peer he hpeer⟩
    show live[i]?.map (i, ·) = _
    rw [he]
    rfl
  | none =>
    have hnew := h.noEntry hentry
    cases hspare : s.spare with
    | some i =>
      obtain ⟨⟨e, he, hfree⟩, hfirst⟩ := h.spare i hspare
      exact ⟨i, _, rfl, .free hnew he hfree hfirst⟩
    | none =>
      have hfull := h.noSpare hspare
      cases hold : s.oldest with
      | some found =>
        obtain ⟨i, old⟩ := found
        obtain ⟨he, -, hall⟩ := h.oldest i old hold
        exact ⟨i, _, rfl, .oldest hnew hfull he fun e he => hall e he (hfull e he)⟩
      | none =>
        obtain ⟨e, he⟩ := List.exists_mem_of_ne_nil live hne
        exact absurd ((h.noOldest hold e he).symm.trans (hfull e he)) Bool.false_ne_true

/-- What a packet does to the cache. -/
theorem advUpdate_chosen (p : AdvFields) (address : Vector UInt8 6) (addressType : UInt8)
    (nowMs : UInt32) (cache : AdvCache) :
    ∃ i before, Chosen address addressType nowMs (cache.entries.map (advExpire nowMs)) i before ∧
      (advUpdate p address addressType nowMs cache).1 = some i ∧
      (advUpdate p address addressType nowMs cache).2.entries =
        (cache.entries.map (advExpire nowMs)).set i (advMerge p nowMs before) := by
  have hscan := advScan_scanned cache.entries (scanned_nil address addressType nowMs)
  have hne : cache.entries.map (advExpire nowMs) ≠ [] := by
    intro h
    have hlen := cache.size
    rw [List.map_eq_nil_iff.1 h] at hlen
    cases hlen
  obtain ⟨i, before, hslot, hchosen⟩ := hscan.chosen hne
  refine ⟨i, before, hchosen, ?_⟩
  have hslot' : advSlot address addressType (advScan address addressType nowMs 0 cache.entries {}).2
      (advScan address addressType nowMs 0 cache.entries {}).1 = some (i, before) := by
    rw [advScan_entries]
    exact hslot
  unfold advUpdate
  dsimp only
  split
  · rename_i hnone
    rw [hslot'] at hnone
    cases hnone
  · rename_i j entry hsome
    rw [hslot'] at hsome
    obtain ⟨rfl, rfl⟩ := Prod.mk.inj (Option.some.inj hsome)
    exact ⟨rfl, by dsimp only; rw [advScan_entries]⟩

end

end FoloGameboy

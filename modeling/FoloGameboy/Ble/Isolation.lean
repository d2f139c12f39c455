/-
The cache over a history of packets of any devices. An entry is what its peer has sent since the
entry was created, and the packets of the others change it only by its age, or when a new device
needs its slot. The age of an entry is computed in 32 bits; it is right while the packets do not
stay away for a turn of the clock.
-/
import FoloGameboy.Ble.Grammar
import Mathlib.Data.List.Chain

namespace FoloGameboy

/-! ## Histories -/

/-- A packet of a device, and the milliseconds at which it came. -/
structure AdvPacket where
  address : Vector UInt8 6
  addressType : UInt8
  data : List UInt8
  time : Nat
deriving DecidableEq

abbrev AdvKey : Type := Vector UInt8 6 × UInt8

namespace AdvPacket

def key (q : AdvPacket) : AdvKey := (q.address, q.addressType)

def Accepted (q : AdvPacket) : Prop := ∃ fs, Grammatical q.data fs

/-- The fields of a packet that is accepted. -/
def fields (q : AdvPacket) : AdvFields :=
  match advFields q.data 0 {} with
  | some (some p) => p
  | _ => {}

/-- What a packet adds to an entry. -/
def merge (q : AdvPacket) (e : AdvEntry) : AdvEntry := advMerge q.fields (UInt32.ofNat q.time) e

def observe (q : AdvPacket) (cache : AdvCache) : AdvCache :=
  match uniBtLeAdvObserve cache q.address q.addressType q.data (UInt32.ofNat q.time) with
  | some r => r.2
  | none => cache

end AdvPacket

def AdvEntry.key (e : AdvEntry) : AdvKey := (e.address, e.addressType)

def advRun (hs : List AdvPacket) : AdvCache := hs.foldl (fun cache q => q.observe cache) uniBtLeAdvReset

def packetsOf (k : AdvKey) (hs : List AdvPacket) : List AdvPacket := hs.filter (·.key == k)

/-- When a device was seen last. -/
def lastTime (k : AdvKey) (hs : List AdvPacket) : Nat := ((packetsOf k hs).getLast?.map (·.time)).getD 0

/-- The entry that some packets of a device make. -/
def entryOf (k : AdvKey) (qs : List AdvPacket) : AdvEntry :=
  qs.foldl (fun e q => q.merge e) { used := true, address := k.1, addressType := k.2 }

/-- A packet comes after another, and less than a turn of the 32-bit clock after anything the other
has left in the cache. -/
def Soon (a b : AdvPacket) : Prop := a.time ≤ b.time ∧ b.time ≤ a.time + (2 ^ 32 - 5000)

/-- The entry `e` of the slot `i` was created by the packet `p` of its device, and is what the
device has sent since. -/
structure EntrySince (hs : List AdvPacket) (i : Nat) (e : AdvEntry)
    (old : List AdvPacket) (p : AdvPacket) (new : List AdvPacket) : Prop where
  split : hs = old ++ p :: new
  key : p.key = e.key
  created : ∀ e' ∈ (advRun old).entries, e'.used = true → e'.key = e.key → lastTime e.key old + 5000 ≤ p.time
  held : ∀ before after, new = before ++ after → ∃ e', (advRun (old ++ p :: before)).entries[i]? = some e' ∧
    e'.used = true ∧ e'.key = e.key
  timely : (packetsOf e.key (p :: new)).IsChain fun a b => b.time < a.time + 5000
  merged : e = entryOf e.key (packetsOf e.key (p :: new))

/-- What holds of the cache after every history. -/
structure AdvInv (hs : List AdvPacket) : Prop where
  unique : ∀ (i j : Nat) (e e' : AdvEntry), (advRun hs).entries[i]? = some e →
    (advRun hs).entries[j]? = some e' → e.used = true → e'.used = true →
    e.key = e'.key → i = j
  since : ∀ (i : Nat) (e : AdvEntry), (advRun hs).entries[i]? = some e →
    e.used = true → ∃ old p new, EntrySince hs i e old p new
  recent : ∀ e ∈ (advRun hs).entries, e.used = true → e.lastSeenMs = UInt32.ofNat (lastTime e.key hs) ∧
    ∃ q, hs.getLast? = some q ∧ lastTime e.key hs ≤ q.time ∧ q.time < lastTime e.key hs + 5000

/-! ## One packet -/

theorem advRun_concat (hs : List AdvPacket) (q : AdvPacket) :
    advRun (hs ++ [q]) = q.observe (advRun hs) := by
  rw [advRun, List.foldl_append]
  rfl

theorem packetsOf_concat (k : AdvKey) (hs : List AdvPacket) (q : AdvPacket) :
    packetsOf k (hs ++ [q]) = if q.key = k then packetsOf k hs ++ [q] else packetsOf k hs := by
  rw [packetsOf, packetsOf, List.filter_append]
  split
  · rename_i h
    rw [List.filter_cons_of_pos (by rw [h]; exact beq_self_eq_true k), List.filter_nil]
  · rename_i h
    rw [List.filter_cons_of_neg (by rwa [beq_iff_eq]), List.filter_nil, List.append_nil]

theorem lastTime_concat (k : AdvKey) (hs : List AdvPacket) (q : AdvPacket) :
    lastTime k (hs ++ [q]) = if q.key = k then q.time else lastTime k hs := by
  rw [lastTime, packetsOf_concat]
  split
  · rw [List.getLast?_concat]
    rfl
  · rfl

theorem AdvPacket.Accepted.fields {q : AdvPacket} (h : q.Accepted) :
    advFields q.data 0 {} = some (some q.fields) := by
  obtain ⟨fs, -, hrun⟩ | ⟨hbad, -⟩ :=
    advFields_parsed q.data q.data.length q.data 0 {} (Nat.le_refl _) (LoadAt.Window.all q.data)
      (Nat.zero_add _)
  · rw [AdvPacket.fields, hrun]
  · exact absurd h hbad

/-- The clock shows the time since another, for less than a turn. -/
theorem ofNat_sub_ofNat {s t : Nat} (h : s ≤ t) (hturn : t < s + 2 ^ 32) :
    (UInt32.ofNat t - UInt32.ofNat s).toNat = t - s := by
  rw [UInt32.toNat_sub, UInt32.toNat_ofNat', UInt32.toNat_ofNat']
  omega

theorem isPeer_iff {address : Vector UInt8 6} {addressType : UInt8} {e : AdvEntry} :
    IsPeer address addressType e ↔ e.used = true ∧ e.key = (address, addressType) := by
  unfold IsPeer AdvEntry.key
  rw [Prod.mk.injEq, and_comm (a := e.addressType = addressType)]

/-- A packet comes soon after a history. -/
def SoonAfter (hs : List AdvPacket) (q : AdvPacket) : Prop := ∀ a, hs.getLast? = some a → Soon a q

variable {hs : List AdvPacket} {q : AdvPacket}

/-- The age that is computed is the real one. -/
theorem AdvInv.age (h : AdvInv hs) (hsoon : SoonAfter hs q) {e : AdvEntry}
    (he : e ∈ (advRun hs).entries) (hused : e.used = true) :
    lastTime e.key hs ≤ q.time ∧ (advAge (UInt32.ofNat q.time) e).toNat = q.time - lastTime e.key hs := by
  obtain ⟨hseen, a, ha, hle, hlt⟩ := h.recent e he hused
  obtain ⟨hlater, hturn⟩ := hsoon a ha
  rw [advAge, hseen]
  exact ⟨hle.trans hlater, ofNat_sub_ofNat (by omega) (by omega)⟩

/-- An entry expires by its real age. -/
theorem AdvInv.expire (h : AdvInv hs) (hsoon : SoonAfter hs q) {e : AdvEntry}
    (he : e ∈ (advRun hs).entries) :
    advExpire (UInt32.ofNat q.time) e = if e.used = true ∧ lastTime e.key hs + 5000 ≤ q.time then {}
      else e := by
  unfold advExpire
  by_cases hused : e.used = true
  · obtain ⟨hle, hage⟩ := h.age hsoon he hused
    have hiff : UNI_BT_LE_ADV_TTL_MS ≤ UInt32.ofNat q.time - e.lastSeenMs ↔
        lastTime e.key hs + 5000 ≤ q.time := by
      show UNI_BT_LE_ADV_TTL_MS ≤ advAge (UInt32.ofNat q.time) e ↔ _
      rw [UInt32.le_iff_toNat_le, hage]
      show 5000 ≤ _ ↔ _
      omega
    exact if_congr (and_congr_right fun _ => hiff) rfl rfl
  · rw [if_neg fun hc => hused hc.1, if_neg fun hc => hused hc.1]

/-- A slot that has not expired holds the entry it held. -/
theorem AdvInv.live (h : AdvInv hs) (hsoon : SoonAfter hs q) {i : Nat} {e : AdvEntry}
    (he : ((advRun hs).entries.map (advExpire (UInt32.ofNat q.time)))[i]? = some e)
    (hused : e.used = true) :
    (advRun hs).entries[i]? = some e ∧ q.time < lastTime e.key hs + 5000 := by
  rw [List.getElem?_map] at he
  obtain ⟨e', he', rfl⟩ := Option.map_eq_some_iff.1 he
  rw [h.expire hsoon (List.mem_of_getElem? he')] at hused ⊢
  split at hused
  · cases hused
  · rename_i hno
    rw [if_neg hno]
    exact ⟨he', Nat.lt_of_not_le fun hle => hno ⟨hused, hle⟩⟩

/-- The slot a packet goes to, by the real times. -/
inductive Placed (hs : List AdvPacket) (q : AdvPacket) : Nat → AdvEntry → Prop where
  | peer {i : Nat} {e : AdvEntry} (he : (advRun hs).entries[i]? = some e) (hused : e.used = true) (hkey : e.key = q.key)
      (hlive : q.time < lastTime e.key hs + 5000) : Placed hs q i e
  | free {i : Nat} {e : AdvEntry} (hnew : ∀ e ∈ (advRun hs).entries, e.used = true →
      e.key = q.key → lastTime e.key hs + 5000 ≤ q.time)
      (he : (advRun hs).entries[i]? = some e) (hfree : e.used = true → lastTime e.key hs + 5000 ≤ q.time)
      (hfirst : ∀ j < i, ∀ e, (advRun hs).entries[j]? = some e → e.used = true ∧ q.time < lastTime e.key hs + 5000) :
      Placed hs q i { used := true, address := q.address, addressType := q.addressType }
  | oldest {i : Nat} {e : AdvEntry} (hnew : ∀ e ∈ (advRun hs).entries, e.key ≠ q.key)
      (hfull : ∀ e ∈ (advRun hs).entries, e.used = true ∧ q.time < lastTime e.key hs + 5000)
      (he : (advRun hs).entries[i]? = some e)
      (hold : ∀ e' ∈ (advRun hs).entries, lastTime e.key hs ≤ lastTime e'.key hs) :
      Placed hs q i { used := true, address := q.address, addressType := q.addressType }

/-- What is left of an entry that is not its packet's: nothing if it has expired. -/
def kept (hs : List AdvPacket) (q : AdvPacket) (e : AdvEntry) : AdvEntry :=
  if e.used = true ∧ lastTime e.key hs + 5000 ≤ q.time then {} else e

/-- A used entry is either live or expired. -/
theorem AdvInv.map_used (h : AdvInv hs) (hsoon : SoonAfter hs q) {i : Nat} {e : AdvEntry}
    (he : (advRun hs).entries[i]? = some e) :
    ((advRun hs).entries.map (advExpire (UInt32.ofNat q.time)))[i]? = some (kept hs q e) := by
  rw [List.getElem?_map, he, Option.map_some, h.expire hsoon (List.mem_of_getElem? he)]
  rfl

theorem kept_used {e : AdvEntry} : (kept hs q e).used = true ↔ e.used = true ∧
    q.time < lastTime e.key hs + 5000 := by
  unfold kept
  split
  · rename_i hc
    exact ⟨(nomatch ·), fun hl => absurd hc.2 (Nat.not_le_of_lt hl.2)⟩
  · rename_i hc
    exact ⟨fun hu => ⟨hu, Nat.lt_of_not_le fun hle => hc ⟨hu, hle⟩⟩, And.left⟩

theorem AdvInv.placed (h : AdvInv hs) (hsoon : SoonAfter hs q) {i : Nat} {before : AdvEntry}
    (hchosen : Chosen q.address q.addressType (UInt32.ofNat q.time)
      ((advRun hs).entries.map (advExpire (UInt32.ofNat q.time))) i before) :
    Placed hs q i before := by
  -- dropping the expired entries by the clock drops those the real times call old
  have hmem : ∀ {e : AdvEntry}, e ∈ (advRun hs).entries →
      kept hs q e ∈ (advRun hs).entries.map (advExpire (UInt32.ofNat q.time)) := by
    intro e he
    obtain ⟨j, hj⟩ := List.mem_iff_getElem?.1 he
    exact List.mem_of_getElem? (h.map_used hsoon hj)
  have hkept : ∀ {e : AdvEntry}, e.used = true → q.time < lastTime e.key hs + 5000 → kept hs q e = e :=
    fun _ hlt => if_neg fun hc => Nat.not_lt_of_le hc.2 hlt
  cases hchosen with
  | peer he hpeer =>
    obtain ⟨hused, hkey⟩ := isPeer_iff.1 hpeer
    obtain ⟨he', hlive⟩ := h.live hsoon he hused
    exact .peer he' hused hkey hlive
  | free hnew he hfree hfirst =>
    obtain ⟨e, he', heq⟩ : ∃ e, (advRun hs).entries[i]? = some e ∧ (kept hs q e).used = false := by
      have hmap := he
      rw [List.getElem?_map] at hmap
      obtain ⟨e, he', -⟩ := Option.map_eq_some_iff.1 hmap
      rw [h.map_used hsoon he'] at he
      exact ⟨e, he', (Option.some.inj he) ▸ hfree⟩
    refine .free (e := e) (fun e he hused hkey => ?_) he' (fun hused => ?_) fun j hj e he => ?_
    · by_contra hlt
      have hlive : q.time < lastTime e.key hs + 5000 := Nat.lt_of_not_le hlt
      exact hnew e (hkept hused hlive ▸ hmem he) (isPeer_iff.2 ⟨hused, hkey⟩)
    · by_contra hlt
      exact Bool.false_ne_true (heq.symm.trans (kept_used.2 ⟨hused, Nat.lt_of_not_le hlt⟩))
    · exact kept_used.1 (hfirst j hj _ (h.map_used hsoon he))
  | oldest hnew hfull he hold =>
    have hall : ∀ e ∈ (advRun hs).entries, e.used = true ∧ q.time < lastTime e.key hs + 5000 :=
      fun e he => kept_used.1 (hfull _ (hmem he))
    -- in a full cache nothing has expired
    have hage : ∀ {e : AdvEntry}, e ∈ (advRun hs).entries →
      e ∈ (advRun hs).entries.map (advExpire (UInt32.ofNat q.time)) :=
      fun {e} he => hkept (hall e he).1 (hall e he).2 ▸ hmem he
    obtain ⟨he', -⟩ := h.live hsoon he (hfull _ (List.mem_of_getElem? he))
    refine .oldest (fun e he hkey => hnew e (hage he) (isPeer_iff.2 ⟨(hall e he).1, hkey⟩)) hall he'
      fun e' hmem' => ?_
    have hle := UInt32.le_iff_toNat_le.1 (hold e' (hage hmem'))
    obtain ⟨hle₁, hage₁⟩ := h.age hsoon hmem' (hall e' hmem').1
    obtain ⟨hle₂, hage₂⟩ := h.age hsoon (List.mem_of_getElem? he') (hall _ (List.mem_of_getElem? he')).1
    rw [hage₁, hage₂] at hle
    omega

/-- What a packet does to the cache, by the real times. -/
theorem AdvInv.observe (h : AdvInv hs) (hsoon : SoonAfter hs q) (hacc : q.Accepted) :
    ∃ i before, Placed hs q i before ∧
    (advRun (hs ++ [q])).entries = ((advRun hs).entries.map (kept hs q)).set i (q.merge before) := by
  obtain ⟨i, before, hchosen, -, hentries⟩ :=
    advUpdate_chosen q.fields q.address q.addressType (UInt32.ofNat q.time) (advRun hs)
  refine ⟨i, before, h.placed hsoon hchosen, ?_⟩
  have hmap : (advRun hs).entries.map (advExpire (UInt32.ofNat q.time)) =
    (advRun hs).entries.map (kept hs q) :=
    List.map_congr_left fun e he => h.expire hsoon he
  rw [advRun_concat, AdvPacket.observe, uniBtLeAdvObserve, hacc.fields]
  dsimp only
  rw [hentries, hmap]
  rfl

theorem AdvPacket.merge_key (q : AdvPacket) (e : AdvEntry) :
    (q.merge e).used = e.used ∧ (q.merge e).key = e.key ∧
    (q.merge e).lastSeenMs = UInt32.ofNat q.time := by
  obtain ⟨hused, haddress, htype, hseen, -⟩ := advMerge_fields q.fields (UInt32.ofNat q.time) e
  exact ⟨hused, Prod.ext haddress htype, hseen⟩

theorem Placed.key {i : Nat} {before : AdvEntry} (h : Placed hs q i before) :
    before.used = true ∧ before.key = q.key := by
  cases h with
  | peer _ hused hkey _ => exact ⟨hused, hkey⟩
  | free => exact ⟨rfl, rfl⟩
  | oldest => exact ⟨rfl, rfl⟩

theorem Placed.slot {i : Nat} {before : AdvEntry} (h : Placed hs q i before) :
    i < (advRun hs).entries.length := by
  cases h with
  | peer he _ _ _ => exact (List.getElem?_eq_some_iff.1 he).1
  | free _ he _ _ => exact (List.getElem?_eq_some_iff.1 he).1
  | oldest _ _ he _ => exact (List.getElem?_eq_some_iff.1 he).1

/-- The other slots keep an entry that has not expired, and it is not of the packet's device. -/
theorem AdvInv.other (h : AdvInv hs) {i : Nat} {before : AdvEntry} (hplaced : Placed hs q i before)
    {j : Nat} (hj : j ≠ i) {e : AdvEntry}
    (he : (((advRun hs).entries.map (kept hs q)).set i (q.merge before))[j]? = some e)
    (hused : e.used = true) :
    (advRun hs).entries[j]? = some e ∧ q.time < lastTime e.key hs + 5000 ∧ e.key ≠ q.key := by
  rw [List.getElem?_set_ne hj.symm, List.getElem?_map] at he
  obtain ⟨e', he', rfl⟩ := Option.map_eq_some_iff.1 he
  obtain ⟨hused', hlive⟩ := kept_used.1 hused
  have hsame : kept hs q e' = e' := if_neg fun hc => Nat.not_lt_of_le hc.2 hlive
  rw [hsame]
  refine ⟨he', hlive, fun hkey => ?_⟩
  cases hplaced with
  | peer hi husedi hkeyi _ => exact hj (h.unique j i _ _ he' hi hused' husedi (hkey.trans hkeyi.symm))
  | free hnew _ _ _ => exact Nat.not_lt_of_le (hnew e' (List.mem_of_getElem? he') hused' hkey) hlive
  | oldest hnew _ _ _ => exact hnew e' (List.mem_of_getElem? he') hkey

/-! ## Histories keep the invariant -/

theorem packetsOf_cons (p : AdvPacket) (new : List AdvPacket) :
    packetsOf p.key (p :: new) = p :: packetsOf p.key new :=
  List.filter_cons_of_pos (beq_self_eq_true p.key)

/-- The last packet of a device is among those since its entry was created. -/
theorem EntrySince.last {i : Nat} {e : AdvEntry} {old new : List AdvPacket} {p : AdvPacket}
    (h : EntrySince hs i e old p new) :
    ∃ a, (packetsOf e.key (p :: new)).getLast? = some a ∧ lastTime e.key hs = a.time := by
  have hne : packetsOf e.key (p :: new) ≠ [] := by
    rw [← h.key, packetsOf_cons]
    exact List.cons_ne_nil _ _
  have hlast := List.getLast?_eq_some_getLast hne
  refine ⟨_, hlast, ?_⟩
  rw [lastTime, h.split, packetsOf, List.filter_append]
  show ((packetsOf e.key old ++ packetsOf e.key (p :: new)).getLast?.map (·.time)).getD 0 = _
  rw [List.getLast?_append, hlast]
  rfl

theorem EntrySince.extend {i : Nat} {e : AdvEntry} {old new : List AdvPacket} {p : AdvPacket}
    (h : EntrySince hs i e old p new)
    {e' : AdvEntry} (hslot : (advRun (hs ++ [q])).entries[i]? = some e') (hused : e'.used = true)
    (hkey : e'.key = e.key)
    (hcase : (q.key = e.key ∧ q.time < lastTime e.key hs + 5000 ∧ e' = q.merge e) ∨
      (q.key ≠ e.key ∧ e' = e)) :
    EntrySince (hs ++ [q]) i e' old p (new ++ [q]) := by
  have hpackets := packetsOf_concat e.key (p :: new) q
  rw [List.cons_append] at hpackets
  refine ⟨by rw [h.split, List.append_assoc, List.cons_append], h.key.trans hkey.symm,
    by rw [hkey]; exact h.created, ?_, ?_, ?_⟩
  · intro before after hsplit
    rw [hkey]
    rcases List.eq_nil_or_concat after with rfl | ⟨after, b, rfl⟩
    · rw [List.append_nil] at hsplit
      have hwhole : old ++ p :: before = hs ++ [q] := by
        rw [← hsplit, h.split, List.append_assoc, List.cons_append]
      rw [hwhole]
      exact ⟨e', hslot, hused, hkey⟩
    · rw [List.concat_eq_append, ← List.append_assoc] at hsplit
      exact h.held before after (List.append_inj_left' hsplit rfl)
  · rw [hkey, hpackets]
    rcases hcase with ⟨hq, hlt, -⟩ | ⟨hq, -⟩
    · rw [if_pos hq]
      refine h.timely.append (List.isChain_singleton q) fun a ha b hb => ?_
      obtain ⟨a', ha', htime⟩ := h.last
      obtain rfl : a' = a := Option.some.inj (ha'.symm.trans ha)
      obtain rfl : q = b := Option.some.inj hb
      rwa [htime] at hlt
    · rw [if_neg hq]
      exact h.timely
  · rw [hkey, hpackets]
    rcases hcase with ⟨hq, -, rfl⟩ | ⟨hq, rfl⟩
    · rw [if_pos hq, entryOf, List.foldl_append]
      exact congrArg q.merge h.merged
    · rw [if_neg hq]
      exact h.merged

theorem reset_unused {e : AdvEntry} (he : e ∈ uniBtLeAdvReset.entries) : e.used = false := by
  rw [List.eq_of_mem_replicate he]

theorem advInv_nil : AdvInv [] where
  unique _ _ _ _ he _ hused _ _ :=
    absurd ((reset_unused (List.mem_of_getElem? he)).symm.trans hused) Bool.false_ne_true
  since _ _ he hused :=
    absurd ((reset_unused (List.mem_of_getElem? he)).symm.trans hused) Bool.false_ne_true
  recent _ he hused := absurd ((reset_unused he).symm.trans hused) Bool.false_ne_true

/-- The entry of the packet's device after the packet. -/
theorem AdvInv.since_placed (h : AdvInv hs) {i : Nat} {before : AdvEntry} (hplaced : Placed hs q i before)
    (hslot : (advRun (hs ++ [q])).entries[i]? = some (q.merge before)) :
    ∃ old p new, EntrySince (hs ++ [q]) i (q.merge before) old p new := by
  obtain ⟨hused, hkey, -⟩ := q.merge_key before
  obtain ⟨hbused, hbkey⟩ := hplaced.key
  have hcreate : (∀ e ∈ (advRun hs).entries, e.used = true → e.key = q.key →
      lastTime e.key hs + 5000 ≤ q.time) →
      q.merge before = entryOf q.key [q] → ∃ old p new,
        EntrySince (hs ++ [q]) i (q.merge before) old p new := by
    intro hnew hfresh
    have hmkey := hkey.trans hbkey
    refine ⟨hs, q, [], rfl, hmkey.symm, fun e he hu hk => ?_, fun before' after hsplit => ?_, ?_, ?_⟩
    · rw [hmkey] at hk ⊢
      exact hk ▸ hnew e he hu hk
    · obtain ⟨rfl, -⟩ := List.nil_eq_append_iff.1 hsplit
      exact ⟨_, hslot, hused.trans hbused, rfl⟩
    · rw [hmkey, packetsOf_cons]
      exact List.isChain_singleton q
    · rw [hmkey, packetsOf_cons]
      exact hfresh
  cases hplaced with
  | peer he hu hk hlive =>
    obtain ⟨old, p, new, hsince⟩ := h.since i before he hu
    exact ⟨old, p, new ++ [q], hsince.extend hslot (hused.trans hu) hkey (.inl ⟨hk.symm, hlive, rfl⟩)⟩
  | free hnew he hfree hfirst => exact hcreate hnew rfl
  | oldest hnew hfull he hold => exact hcreate (fun e he _ hk => absurd hk (hnew e he)) rfl

theorem AdvInv.step (h : AdvInv hs) (hsoon : SoonAfter hs q) (hacc : q.Accepted) : AdvInv (hs ++ [q]) := by
  obtain ⟨i, before, hplaced, hentries⟩ := h.observe hsoon hacc
  obtain ⟨hused, hkey, hseen⟩ := q.merge_key before
  obtain ⟨hbused, hbkey⟩ := hplaced.key
  have hslot : (advRun (hs ++ [q])).entries[i]? = some (q.merge before) := by
    rw [hentries, List.getElem?_set_self (by rw [List.length_map]; exact hplaced.slot)]
  -- a used slot is the packet's or an old one of another device
  have hcases : ∀ {j e}, (advRun (hs ++ [q])).entries[j]? = some e → e.used = true →
      (j = i ∧ e = q.merge before) ∨
      (j ≠ i ∧ (advRun hs).entries[j]? = some e ∧ q.time < lastTime e.key hs + 5000 ∧ e.key ≠ q.key) := by
    intro j e he hu
    by_cases hj : j = i
    · subst hj
      exact .inl ⟨rfl, Option.some.inj (he.symm.trans hslot)⟩
    · rw [hentries] at he
      exact .inr ⟨hj, h.other hplaced hj he hu⟩
  refine ⟨fun j k e e' he he' hu hu' hsame => ?_, fun j e he hu => ?_, fun e he hu => ?_⟩
  · rcases hcases he hu with ⟨rfl, rfl⟩ | ⟨hj, hold, -, hne⟩
    · rcases hcases he' hu' with ⟨rfl, -⟩ | ⟨-, -, -, hne'⟩
      · rfl
      · exact absurd (hsame.symm.trans (hkey.trans hbkey)) hne'
    · rcases hcases he' hu' with ⟨rfl, rfl⟩ | ⟨-, hold', -, -⟩
      · exact absurd (hsame.trans (hkey.trans hbkey)) hne
      · exact h.unique j k e e' hold hold' hu hu' hsame
  · rcases hcases he hu with ⟨rfl, rfl⟩ | ⟨-, hold, -, hne⟩
    · exact h.since_placed hplaced hslot
    · obtain ⟨old, p, new, hsince⟩ := h.since j e hold hu
      exact ⟨old, p, new ++ [q], hsince.extend he hu rfl (.inr ⟨hne.symm, rfl⟩)⟩
  · obtain ⟨j, hj⟩ := List.mem_iff_getElem?.1 he
    have hlast : (hs ++ [q]).getLast? = some q := List.getLast?_concat ..
    rcases hcases hj hu with ⟨rfl, rfl⟩ | ⟨-, hold, hlive, hne⟩
    · rw [lastTime_concat, if_pos (hbkey.symm.trans hkey.symm), hseen]
      exact ⟨rfl, q, hlast, Nat.le_refl _, Nat.lt_add_of_pos_right (by decide)⟩
    · rw [lastTime_concat, if_neg hne.symm]
      obtain ⟨hle, -⟩ := h.age hsoon (List.mem_of_getElem? hold) hu
      exact ⟨(h.recent e (List.mem_of_getElem? hold) hu).1, q, hlast, hle, hlive⟩

theorem advInv_run (hs : List AdvPacket) : (∀ q ∈ hs, q.Accepted) → hs.IsChain Soon → AdvInv hs := by
  induction hs using List.reverseRecOn with
  | nil => exact fun _ _ => advInv_nil
  | append_singleton hs q ih =>
    intro hacc hchain
    obtain ⟨hchain', -, hlast⟩ := List.isChain_append.1 hchain
    have h := ih (fun a ha => hacc a (List.mem_append_left _ ha)) hchain'
    exact h.step (fun a ha => hlast a ha q rfl) (hacc q (List.mem_append_right _ List.mem_cons_self))

/-! ## What an entry says -/

/-- A packet has a name, or a complete one. -/
def AdvPacket.named (q : AdvPacket) : Bool := q.fields.fields.name.get ⟨0, advNameSize_pos⟩ != 0

def AdvPacket.fullyNamed (q : AdvPacket) : Bool := q.named && q.fields.fields.completeName

theorem entryOf_concat (k : AdvKey) (qs : List AdvPacket) (q : AdvPacket) :
    entryOf k (qs ++ [q]) = q.merge (entryOf k qs) := by
  rw [entryOf, List.foldl_append]
  rfl

/-- The merge of some packets: any service, the last appearance, the last complete name or else the
last one. -/
theorem entryOf_says (k : AdvKey) (qs : List AdvPacket) : let e := entryOf k qs
    e.hidService = qs.any (·.fields.fields.hidService) ∧
      e.iineService = qs.any (·.fields.fields.iineService) ∧
      e.appearance =
        ((qs.filter (·.fields.hasAppearance)).getLast?.map (·.fields.fields.appearance)).getD 0 ∧
      e.completeName = qs.any AdvPacket.fullyNamed ∧
      e.name = (((qs.filter AdvPacket.fullyNamed).getLast? <|>
        (qs.filter AdvPacket.named).getLast?).map (·.fields.fields.name)).getD
        (.replicate UNI_BT_LE_ADV_NAME_SIZE 0) := by
  -- on the packets, the newest last
  induction qs using List.reverseRecOn with
  | nil => exact ⟨rfl, rfl, rfl, rfl, rfl⟩
  | append_singleton qs q ih =>
    obtain ⟨h₁, h₂, h₃, h₄, h₅⟩ := ih
    intro e
    obtain ⟨-, -, -, -, hhid, hiine, happ, hname, hcomplete⟩ :=
      advMerge_fields q.fields (UInt32.ofNat q.time) (entryOf k qs)
    have he : e = advMerge q.fields (UInt32.ofNat q.time) (entryOf k qs) := entryOf_concat k qs q
    -- a complete name always replaces, any other one only while there is none
    have hrenames : Renames q.fields (entryOf k qs) ↔
        (q.fullyNamed = true ∨ (q.named = true ∧ qs.any AdvPacket.fullyNamed = false)) := by
      rw [← h₄, Renames, AdvPacket.fullyNamed, AdvPacket.named, Bool.and_eq_true, bne_iff_ne]
      tauto
    rw [he]
    refine ⟨?_, ?_, ?_, ?_, ?_⟩
    · rw [hhid, h₁, List.any_append, List.any_cons, List.any_nil, Bool.or_false]
    · rw [hiine, h₂, List.any_append, List.any_cons, List.any_nil, Bool.or_false]
    · rw [happ, h₃, getLast?_filter_concat]
      split <;> rfl
    · rw [hcomplete, List.any_append, List.any_cons, List.any_nil, Bool.or_false, h₄]
      split
      · rename_i hr
        rcases hrenames.1 hr with hfull | ⟨hnamed, hnone⟩
        · rw [hfull, Bool.or_true]
          exact (Bool.and_eq_true_iff.1 hfull).2
        · rw [hnone, Bool.false_or, AdvPacket.fullyNamed, hnamed, Bool.true_and]
      · rename_i hr
        have hfull : q.fullyNamed = false := Bool.eq_false_iff.2 fun h => hr (hrenames.2 (.inl h))
        rw [hfull, Bool.or_false]
    · rw [hname, h₅, getLast?_filter_concat, getLast?_filter_concat]
      have hnone : qs.any AdvPacket.fullyNamed = false ↔ qs.filter AdvPacket.fullyNamed = [] := by
        rw [List.filter_eq_nil_iff, List.any_eq_false]
      cases hfull : q.fullyNamed with
      | true =>
        rw [if_pos (hrenames.2 (.inl hfull))]
        rfl
      | false =>
        cases hnamed : q.named with
        | false =>
          rw [if_neg fun hr => by simp [hfull, hnamed] at hrenames; exact hrenames hr]
          rfl
        | true =>
          cases hany : qs.any AdvPacket.fullyNamed with
          | false =>
            rw [if_pos (hrenames.2 (.inr ⟨hnamed, hany⟩)), hnone.1 hany]
            rfl
          | true =>
            have hne : qs.filter AdvPacket.fullyNamed ≠ [] :=
              fun h => Bool.false_ne_true ((hnone.2 h).symm.trans hany)
            rw [if_neg fun hr => by simp [hfull, hany] at hrenames; exact hrenames hr,
              List.getLast?_eq_some_getLast hne]
            rfl

/-! ## Isolation -/

/-- Whatever the devices send, and in whatever order, while no packet stays away for a turn of the
clock less the five seconds: no two entries are of one device, an entry is what its device has sent
since it was created, a new device takes the first free slot or the one seen longest ago, and the
other entries go only by their age or for a new device. -/
theorem advRun_isolated (hs : List AdvPacket) (hacc : ∀ q ∈ hs, q.Accepted) (hsoon : hs.IsChain Soon) :
    (∀ (i j : Nat) (e e' : AdvEntry), (advRun hs).entries[i]? = some e →
      (advRun hs).entries[j]? = some e' → e.used = true → e'.used = true →
      e.key = e'.key → i = j) ∧
    (∀ (i : Nat) (e : AdvEntry), (advRun hs).entries[i]? = some e →
      e.used = true → ∃ old p new, EntrySince hs i e old p new) ∧
    (∀ k qs, let e := entryOf k qs
      e.hidService = qs.any (·.fields.fields.hidService) ∧ e.iineService = qs.any (·.fields.fields.iineService) ∧
        e.appearance = ((qs.filter (·.fields.hasAppearance)).getLast?.map (·.fields.fields.appearance)).getD 0 ∧
        e.completeName = qs.any AdvPacket.fullyNamed ∧
        e.name = (((qs.filter AdvPacket.fullyNamed).getLast? <|> (qs.filter AdvPacket.named).getLast?).map
          (·.fields.fields.name)).getD
          (.replicate UNI_BT_LE_ADV_NAME_SIZE 0)) ∧
    ∀ q : AdvPacket, q.Accepted → SoonAfter hs q → ∃ i before, Placed hs q i before ∧
      (advRun (hs ++ [q])).entries[i]? = some (q.merge before) ∧
      (before.completeName = true → (q.merge before).completeName = true ∧
        (q.fields.fields.completeName = true ∨ (q.merge before).name = before.name)) ∧
      ∀ (j : Nat) (e : AdvEntry), (advRun hs).entries[j]? = some e → e.used = true → e.key ≠ q.key →
        (advRun (hs ++ [q])).entries[j]? = some e ∨ lastTime e.key hs + 5000 ≤ q.time ∨
          (j = i ∧ ∀ e' ∈ (advRun hs).entries, e'.used = true ∧ e'.key ≠ q.key ∧ q.time < lastTime e'.key hs + 5000 ∧
            lastTime e.key hs ≤ lastTime e'.key hs) := by
  have h := advInv_run hs hacc hsoon
  refine ⟨h.unique, h.since, entryOf_says, fun q hq hlast => ?_⟩
  obtain ⟨i, before, hplaced, hentries⟩ := h.observe hlast hq
  refine ⟨i, before, hplaced, ?_, fun hcomplete => ?_, fun j e he hused hkey => ?_⟩
  · rw [hentries, List.getElem?_set_self (by rw [List.length_map]; exact hplaced.slot)]
  · obtain ⟨-, -, -, -, -, -, -, hname, hcomplete'⟩ := advMerge_fields q.fields (UInt32.ofNat q.time) before
    by_cases hr : Renames q.fields before
    · have hfull : q.fields.fields.completeName = true :=
        hr.2.resolve_right fun hno => Bool.false_ne_true (hno.symm.trans hcomplete)
      exact ⟨hcomplete'.trans ((if_pos hr).trans hfull), .inl hfull⟩
    · exact ⟨hcomplete'.trans ((if_neg hr).trans hcomplete), .inr (hname.trans (if_neg hr))⟩
  -- an entry that is gone has expired, or its slot was given to the new device
  · by_cases hlive : q.time < lastTime e.key hs + 5000
    · by_cases hj : j = i
      · subst hj
        cases hplaced with
        | peer he' _ hk _ =>
          obtain rfl := Option.some.inj (he.symm.trans he')
          exact absurd hk hkey
        | free _ he' hfree _ =>
          obtain rfl := Option.some.inj (he.symm.trans he')
          exact .inr (.inl (hfree hused))
        | oldest hnew hfull he' hold =>
          obtain rfl := Option.some.inj (he.symm.trans he')
          exact .inr (.inr ⟨rfl,
            fun e' hmem => ⟨(hfull e' hmem).1, hnew e' hmem, (hfull e' hmem).2, hold e' hmem⟩⟩)
      · left
        rw [hentries, List.getElem?_set_ne (Ne.symm hj), List.getElem?_map, he, Option.map_some, kept,
          if_neg fun hc => Nat.not_lt_of_le hc.2 hlive]
    · exact .inr (.inl (Nat.le_of_not_lt hlive))

def padPackets : List AdvPacket := [⟨.replicate 6 1, 0, [3, 0x19, 0xc4, 0x03], 0⟩, ⟨.replicate 6 2, 0, [], 4999⟩]

theorem padPackets_accepted : ∀ q ∈ padPackets, q.Accepted := by
  intro q hq
  simp only [padPackets, List.mem_cons, List.not_mem_nil, or_false] at hq
  rcases hq with rfl | rfl
  · refine ⟨[(0x19, [0xc4, 0x03])], @AdStructure.field 3 0x19 [0xc4, 0x03] _ _ rfl .done, ?_⟩
    intro f hf
    rw [List.mem_singleton.1 hf]
    constructor <;> simp
  · exact ⟨[], .done, fun _ h => (nomatch h)⟩

theorem advRun_isolated_pad : ∃ e old p new, (advRun padPackets).entries[0]? = some e ∧ e.appearance = 0x03c4 ∧
    EntrySince padPackets 0 e old p new := by
  have hsoon : padPackets.IsChain Soon := List.isChain_pair.2 ⟨by decide, by decide⟩
  have hslot : (advRun padPackets).entries[0]?.map (fun e => (e.used, e.appearance)) =
      some (true, 0x03c4) := by decide +kernel
  obtain ⟨e, he, hpair⟩ := Option.map_eq_some_iff.1 hslot
  obtain ⟨hused, happ⟩ := Prod.mk.inj hpair
  obtain ⟨old, p, new, hsince⟩ := (advRun_isolated padPackets padPackets_accepted hsoon).2.1 0 e he hused
  exact ⟨e, old, p, new, he, happ, hsince⟩

/-- The first device again, almost a turn of the clock later: its age wraps to less than five seconds. -/
def turnPacket : AdvPacket := ⟨.replicate 6 1, 0, [], 4999 + (2 ^ 32 - 1)⟩

theorem advRun_turn : ¬ ∀ (hs : List AdvPacket) (q : AdvPacket), (∀ a ∈ hs ++ [q], a.Accepted) →
    (hs ++ [q]).IsChain (fun a b => a.time ≤ b.time ∧ b.time < a.time + 2 ^ 32) →
      ∀ e ∈ (advRun hs).entries, e.used = true → e.key = q.key → lastTime e.key hs + 5000 ≤ q.time →
        ∀ e' ∈ (advRun (hs ++ [q])).entries, e'.used = true → e'.key = q.key → e' = entryOf q.key [q] := by
  intro h
  have hacc : ∀ a ∈ padPackets ++ [turnPacket], a.Accepted := by
    intro a ha
    rcases List.mem_append.1 ha with ha | ha
    · exact padPackets_accepted a ha
    · rw [List.mem_singleton.1 ha]
      exact ⟨[], .done, fun _ h => (nomatch h)⟩
  have hgaps : (padPackets ++ [turnPacket]).IsChain fun a b => a.time ≤ b.time ∧
      b.time < a.time + 2 ^ 32 := by
    refine List.isChain_cons_cons.2 ⟨by decide,
      List.isChain_cons_cons.2 ⟨by decide, List.isChain_singleton _⟩⟩
  exact absurd (h padPackets turnPacket hacc hgaps) (by decide +kernel)

end FoloGameboy

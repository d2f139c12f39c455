/-
A controller is driven only once its identity is known: every entry of the history of any run is
admitted by the entries before it. The invariant says of each step of a link what the history of its
connection must hold by then.
-/
import FoloGameboy.Iine.Link
import FoloGameboy.Lib.History

namespace FoloGameboy

open History

variable {n : Nat}

/-! ## What a history says of a connection -/

/-- The bytes last given to the client to write. -/
def lastWrite (connection : Nat) : List IineEvent → Option (List UInt8)
  | [] => none
  | .wrote c bytes :: history => if c = connection then some bytes else lastWrite connection history
  | _ :: history => lastWrite connection history

/-- The bytes of the wire buffer that the client has not returned yet. -/
def borrowed (connection : Nat) : List IineEvent → Option (List UInt8)
  | [] => none
  | .wrote c bytes :: history => if c = connection then some bytes else borrowed connection history
  | .completed c :: history => if c = connection then none else borrowed connection history
  | .ended c :: history => if c = connection then none else borrowed connection history
  | _ :: history => borrowed connection history

/-- The last request asks for the identity, with this serial number. -/
def IdentityRequest (connection : Nat) (serial : UInt8) (history : List IineEvent) : Prop :=
  ∃ bytes, lastWrite connection history = some bytes ∧ iinePacketParse bytes
    = some { opcode := 0x91, serial := serial, payload := [] }

/-- The packet came on the connection, in reply to the request for the identity. -/
def IdentityReply (connection : Nat) (packet : IinePacket) : List IineEvent → Prop :=
  Occurred fun e earlier => ∃ value, e = .notified connection value ∧
    iinePacketParse value = some packet ∧ packet.opcode = 0x19 ∧
    IdentityRequest connection packet.serial earlier

def Identified (packet : IinePacket) : Prop := packet.payload.length = 8 ∧ packet.payload.take 4 = identityPrefix

def VerifiedFirmware (packet : IinePacket) : Prop := packet.payload.getD 4 0 = 0x27 ∧ packet.payload.getD 5 0 = 2

/-- The user confirmed at the step that waits for it, after the reply and before the deadline set then. -/
def UserConfirmed (connection : Nat) (packet : IinePacket) : List IineEvent → Prop :=
  Occurred fun e earlier => ∃ now since, e = .confirmed connection .confirm now (since + 60000) ∧
    due now (since + 60000) = false ∧
    .waiting connection since ∈ earlier ∧ IdentityReply connection packet earlier

/-- The controller may be driven. -/
def Approved (connection : Nat) (history : List IineEvent) : Prop :=
  ∃ packet, IdentityReply connection packet history ∧ Identified packet ∧
    (VerifiedFirmware packet ∨ UserConfirmed connection packet history)

theorem Approved.later {c : Nat} {history : List IineEvent} (h : Approved c history)
    (e : IineEvent) : Approved c (e :: history) := by
  obtain ⟨p, hr, hi, hv⟩ := h
  exact ⟨p, hr.later e, hi, hv.imp_right fun hu => hu.later e⟩

/-- What an entry requires of the entries before it. -/
def EventOk : IineEvent → List IineEvent → Prop
  | .ready c, earlier => Approved c earlier
  | .published c _, earlier => Approved c earlier
  | .applied c, earlier => Approved c earlier
  | .wrote _ bytes, _ => ∃ p, iinePacketParse bytes = some p ∧ iineRequestAllowed p.opcode (some p.payload)
  | .requested c, earlier => inFlight c earlier = false
  | .built c, earlier => inFlight c earlier = false
  | _, _ => True

/-! ## Links -/

/-- The operation of a link that is with the client. -/
structure Wired (l : IineLink) (history : List IineEvent) : Prop where
  busy : inFlight l.connection history → l.busy
  wire : ∀ bytes, borrowed l.connection history = some bytes → l.busy ∧ l.wire.take bytes.length = bytes

/-- What is known of the controller of a link at its step. -/
structure Known (l : IineLink) (history : List IineEvent) : Prop where
  request : l.step = .info → l.attempts ≠ 0 → IdentityRequest l.connection l.serial history
  reply : l.step = .info → l.replied → IdentityReply l.connection l.reply history
  confirm : l.step = .confirm → ∃ p since, IdentityReply l.connection p history ∧ Identified p ∧
    .waiting l.connection since ∈ history ∧ l.deadline = since + 60000
  approved : IineStep.caps.toNat ≤ l.step.toNat → Approved l.connection history
  driven : l.ready ∨ l.input ≠ neutralInput → Approved l.connection history

structure LinkOk (l : IineLink) (history : List IineEvent) : Prop where
  wired : Wired l history
  known : Known l history

/-- An entry that does not use the client for a connection. -/
def QuietOn (connection : Nat) : IineEvent → Prop
  | .requested c => c ≠ connection
  | .wrote c _ => c ≠ connection
  | _ => True

theorem inFlight_quiet {c : Nat} {e : IineEvent} (hq : QuietOn c e) {history : List IineEvent}
    (h : inFlight c (e :: history)) :
    inFlight c history := by
  cases e with
  | requested c' =>
    rw [inFlight, Bool.or_eq_true, beq_iff_eq] at h
    exact h.resolve_left hq
  | completed c' =>
    rw [inFlight, Bool.and_eq_true] at h
    exact h.2
  | ended c' =>
    rw [inFlight, Bool.and_eq_true] at h
    exact h.2
  | _ => exact h

theorem lastWrite_quiet {c : Nat} {e : IineEvent} (hq : QuietOn c e) (history : List IineEvent) :
    lastWrite c (e :: history) = lastWrite c history := by
  cases e with
  | wrote c' bytes => exact if_neg hq
  | _ => rfl

theorem borrowed_quiet {c : Nat} {e : IineEvent} (hq : QuietOn c e) {history : List IineEvent}
    {bytes : List UInt8}
    (h : borrowed c (e :: history) = some bytes) : borrowed c history = some bytes := by
  cases e with
  | wrote c' bytes' =>
    rw [borrowed, if_neg hq] at h
    exact h
  | completed c' =>
    rw [borrowed] at h
    split at h
    · exact absurd h nofun
    · exact h
  | ended c' =>
    rw [borrowed] at h
    split at h
    · exact absurd h nofun
    · exact h
  | _ => exact h

theorem Wired.later {l : IineLink} {history : List IineEvent} (h : Wired l history) {e : IineEvent}
    (hq : QuietOn l.connection e) :
    Wired l (e :: history) :=
  ⟨fun hf => h.busy (inFlight_quiet hq hf), fun bytes hb => h.wire bytes (borrowed_quiet hq hb)⟩

theorem Known.later {l : IineLink} {history : List IineEvent} (h : Known l history) {e : IineEvent}
    (hq : lastWrite l.connection (e :: history) = lastWrite l.connection history) :
    Known l (e :: history) where
  request hs ha := by
    obtain ⟨bytes, hw, hp⟩ := h.request hs ha
    exact ⟨bytes, hq.trans hw, hp⟩
  reply hs hr := (h.reply hs hr).later e
  confirm hs := by
    obtain ⟨p, since, hr, hi, hw, hd⟩ := h.confirm hs
    exact ⟨p, since, hr.later e, hi, List.mem_cons_of_mem e hw, hd⟩
  approved hs := (h.approved hs).later e
  driven hd := (h.driven hd).later e

theorem LinkOk.later {l : IineLink} {history : List IineEvent} (h : LinkOk l history)
    {e : IineEvent} (hq : QuietOn l.connection e) :
    LinkOk l (e :: history) := ⟨h.wired.later hq, h.known.later (lastWrite_quiet hq history)⟩

/-! ## The invariant -/

@[simp] theorem setLink_self (s : Iine n) (i : Fin n) (l : IineLink) :
    (s.setLink i l).links i = l := Function.update_self ..

theorem setLink_ne (s : Iine n) {i j : Fin n} (l : IineLink) (h : j ≠ i) :
    (s.setLink i l).links j = s.links j := Function.update_of_ne h ..

/-- The state, up to the links that are not trusted while they change. -/
structure IineSound (trusted : Fin n → Prop) (s : Iine n) : Prop where
  history : Admitted EventOk s.history
  links : ∀ i, trusted i → (s.links i).device.isSome → LinkOk (s.links i) s.history
  numbered : ∀ i, (s.links i).device.isSome → (s.links i).connection < s.connections
  distinct : ∀ i j, (s.links i).device.isSome → (s.links j).device.isSome →
    (s.links i).connection = (s.links j).connection → i = j
  unused : ∀ c, s.connections ≤ c → inFlight c s.history = false ∧ borrowed c s.history = none

abbrev IineOk (s : Iine n) : Prop := IineSound (fun _ => True) s

theorem IineSound.congr {trusted : Fin n → Prop} {s s' : Iine n} (h : IineSound trusted s)
    (hl : s'.links = s.links)
    (hh : s'.history = s.history) (hc : s'.connections = s.connections) : IineSound trusted s' := by
  obtain ⟨h1, h2, h3, h4, h5⟩ := h
  constructor <;> simp only [hl, hh, hc] <;> assumption

theorem IineOk.suspend {s : Iine n} (h : IineOk s) (i : Fin n) : IineSound (· ≠ i) s :=
  ⟨h.history, fun j _ => h.links j trivial, h.numbered, h.distinct, h.unused⟩

theorem IineSound.trust {i : Fin n} {s : Iine n} (h : IineSound (· ≠ i) s)
    (hl : (s.links i).device.isSome → LinkOk (s.links i) s.history) :
    IineOk s where
  history := h.history
  links j _ hj := by
    by_cases hji : j = i
    · subst hji
      exact hl hj
    · exact h.links j hji hj
  numbered := h.numbered
  distinct := h.distinct
  unused := h.unused

theorem IineSound.record {trusted : Fin n → Prop} {s : Iine n} (h : IineSound trusted s)
    {e : IineEvent} (he : EventOk e s.history)
    (hq : ∀ j, trusted j → (s.links j).device.isSome → QuietOn (s.links j).connection e)
    (hu : ∀ c, s.connections ≤ c → QuietOn c e) :
    IineSound trusted (s.record e) where
  history := ⟨he, h.history⟩
  links j ht hj := (h.links j ht hj).later (hq j ht hj)
  numbered := h.numbered
  distinct := h.distinct
  unused c hc := by
    obtain ⟨hf, hb⟩ := h.unused c hc
    constructor
    · exact Bool.eq_false_iff.2 fun ht => Bool.eq_false_iff.1 hf (inFlight_quiet (hu c hc) ht)
    · refine Option.eq_none_iff_forall_ne_some.2 fun bytes hs => ?_
      exact absurd (hb.symm.trans (borrowed_quiet (hu c hc) hs)) nofun

/-- An entry that concerns no operation of the client. -/
theorem IineSound.note {trusted : Fin n → Prop} {s : Iine n} (h : IineSound trusted s)
    {e : IineEvent} (he : EventOk e s.history)
    (hq : ∀ c, QuietOn c e) : IineSound trusted (s.record e) :=
  h.record he (fun _ _ _ => hq _) fun _ _ => hq _

/-- An entry about the link that is not trusted. -/
theorem IineSound.use {i : Fin n} {s : Iine n} (h : IineSound (· ≠ i) s)
    (hi : (s.links i).device.isSome) {e : IineEvent}
    (he : EventOk e s.history) (hq : ∀ c, (s.links i).connection ≠ c → QuietOn c e) :
    IineSound (· ≠ i) (s.record e) :=
  h.record he (fun j hj hd => hq _ fun heq => hj (h.distinct j i hd hi heq.symm))
    fun c hc => hq c (Nat.ne_of_lt (Nat.lt_of_lt_of_le (h.numbered i hi) hc))

theorem IineSound.setLink {i : Fin n} {s : Iine n} (h : IineSound (· ≠ i) s) {l : IineLink}
    (hl : l.device.isSome → (s.links i).device.isSome ∧ l.connection = (s.links i).connection) :
    IineSound (· ≠ i) (s.setLink i l) := by
  have hold : ∀ j, ((s.setLink i l).links j).device.isSome →
      (s.links j).device.isSome ∧ ((s.setLink i l).links j).connection = (s.links j).connection := by
    intro j hj
    by_cases hji : j = i
    · subst hji
      rw [setLink_self] at hj ⊢
      exact hl hj
    · rw [setLink_ne s l hji] at hj ⊢
      exact ⟨hj, rfl⟩
  refine ⟨h.history, fun j hji hj => ?_, fun j hj => ?_, fun j k hj hk heq => ?_, h.unused⟩
  · rw [setLink_ne s l hji] at hj ⊢
    exact h.links j hji hj
  · rw [(hold j hj).2]
    exact h.numbered j (hold j hj).1
  · rw [(hold j hj).2, (hold k hk).2] at heq
    exact h.distinct j k (hold j hj).1 (hold k hk).1 heq

/-- A link is put back, in order. -/
theorem IineSound.put {i : Fin n} {s : Iine n} (h : IineSound (· ≠ i) s) {l : IineLink}
    (hl : l.device.isSome → (s.links i).device.isSome ∧ l.connection = (s.links i).connection)
    (hok : l.device.isSome → LinkOk l s.history) : IineOk (s.setLink i l) := by
  refine (h.setLink hl).trust ?_
  rw [setLink_self]
  exact hok

end FoloGameboy

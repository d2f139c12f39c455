/-
Every event keeps the links sound, so that whatever the order of events, timers, confirmations and
resets, no controller that is not approved is ready, publishes input or changes its input state.
-/
import FoloGameboy.Iine.Verified

namespace FoloGameboy

open History

variable {n : Nat}

/-! ## Resets -/

theorem IineSound.clear {trusted : Fin n → Prop} {s : Iine n} (h : IineSound trusted s) (i : Fin n)
    {l : IineLink} (hl : l.device = none) :
    IineSound trusted (s.setLink i l) := by
  have hold : ∀ j, ((s.setLink i l).links j).device.isSome → (s.setLink i l).links j = s.links j := by
    intro j hj
    by_cases hji : j = i
    · subst hji
      rw [setLink_self, hl] at hj
      exact absurd hj nofun
    · exact setLink_ne s l hji
  refine ⟨h.history, fun j ht hj => ?_, fun j hj => ?_, fun j k hj hk heq => ?_, h.unused⟩
  · have hd := hj
    rw [hold j hj] at hd ⊢
    exact h.links j ht hd
  · have hd := hj
    rw [hold j hj] at hd ⊢
    exact h.numbered j hd
  · have hdj := hj
    have hdk := hk
    rw [hold j hj] at hdj heq
    rw [hold k hk] at hdk heq
    exact h.distinct j k hdj hdk heq

@[simp] theorem askUser_links (d : Nat) (p : Bool) (f : UInt16) (s : Iine n) :
    (askUser d p f s).links = s.links := by
  unfold askUser
  split <;> rfl

theorem IineSound.askUser {trusted : Fin n → Prop} {s : Iine n} (h : IineSound trusted s) (d : Nat)
    (p : Bool) (f : UInt16) :
    IineSound trusted (askUser d p f s) := by
  unfold FoloGameboy.askUser
  split
  · exact h.note trivial fun _ => trivial
  · exact h

theorem IineSound.resetStep {trusted : Fin n → Prop} {s : Iine n} (h : IineSound trusted s)
    (d : Nat) (i : Fin n) :
    IineSound trusted (resetLink d s i) := by
  unfold resetLink
  split
  · have hended :
      IineSound trusted
      ((FoloGameboy.askUser d false 0 s).record (.ended (s.links i).connection)) :=
      (h.askUser d false 0).note trivial fun _ => trivial
    exact hended.clear i rfl
  · exact h

theorem resetLink_links (d : Nat) (s : Iine n) (i j : Fin n) :
    (resetLink d s i).links j = if j = i ∧ (s.links i).device = some d then {} else s.links j := by
  unfold resetLink
  by_cases hd : (s.links i).device = some d
  · rw [if_pos hd]
    by_cases hji : j = i
    · subst hji
      rw [setLink_self, if_pos ⟨rfl, hd⟩]
    · rw [setLink_ne _ _ hji, if_neg fun h => hji h.1]
      exact congrFun (askUser_links d false 0 s) j
  · rw [if_neg hd, if_neg fun h => hd h.2]

/-- A link after some were reset: it is one that was not to be reset, or it has no device. -/
theorem foldl_resetLink_links (d : Nat) (j : Fin n) : ∀ (is : List (Fin n)) (s : Iine n),
    ((is.foldl (resetLink d) s).links j = s.links j ∧ (j ∈ is → (s.links j).device ≠ some d)) ∨
      ((is.foldl (resetLink d) s).links j).device = none
  | [], s => .inl ⟨rfl, fun h => absurd h (List.not_mem_nil)⟩
  | i :: is, s => by
    rw [List.foldl_cons]
    have hstep := resetLink_links d s i j
    by_cases hji : j = i ∧ (s.links i).device = some d
    · right
      rw [if_pos hji] at hstep
      rcases foldl_resetLink_links d j is (resetLink d s i) with ⟨heq, -⟩ | hn
      · rw [heq, hstep]
      · exact hn
    · rw [if_neg hji] at hstep
      rcases foldl_resetLink_links d j is (resetLink d s i) with ⟨heq, hd⟩ | hn
      · refine .inl ⟨heq.trans hstep, fun hm => ?_⟩
        rcases List.mem_cons.1 hm with rfl | hm
        · exact fun h => hji ⟨rfl, h⟩
        · rw [← hstep]
          exact hd hm
      · exact .inr hn

/-- A reset ends the links that were not trusted. -/
theorem IineSound.reset {trusted : Fin n → Prop} {s : Iine n} (h : IineSound trusted s) {d : Nat}
    (ht : ∀ i, ¬ trusted i → (s.links i).device.isSome → (s.links i).device = some d) :
    IineOk (uniBtLeIineReset d s) := by
  have hfold : ∀ (is : List (Fin n)) (s : Iine n), IineSound trusted s →
      IineSound trusted (is.foldl (resetLink d) s) := by
    intro is
    induction is with
    | nil => exact fun s h => h
    | cons i is ih => exact fun s h => ih (resetLink d s i) (h.resetStep d i)
  have hend := hfold (List.finRange n) s h
  refine ⟨hend.history, fun i _ hi => ?_, hend.numbered, hend.distinct, hend.unused⟩
  by_cases hti : trusted i
  · exact hend.links i hti hi
  · exfalso
    rcases foldl_resetLink_links d i (List.finRange n) s with ⟨heq, hd⟩ | hn
    · unfold uniBtLeIineReset at hi
      rw [heq] at hi
      exact hd (List.mem_finRange i) (ht i hti hi)
    · unfold uniBtLeIineReset at hi
      rw [hn] at hi
      exact absurd hi nofun

theorem IineOk.reset {s : Iine n} (h : IineOk s) (d : Nat) : IineOk (uniBtLeIineReset d s) :=
  IineSound.reset h fun _ ht => absurd trivial ht

/-- A link that fails needs no trust. -/
theorem IineSound.fail {i : Fin n} {s : Iine n} (h : IineSound (· ≠ i) s) : IineOk (fail i s) := by
  unfold FoloGameboy.fail
  cases hd : (s.links i).device with
  | none => exact h.trust fun hi => absurd (hd ▸ hi) nofun
  | some d =>
    refine h.reset fun j hj _ => ?_
    rw [not_not] at hj
    rw [hj, hd]

theorem IineOk.fail {s : Iine n} (h : IineOk s) (i : Fin n) : IineOk (fail i s) := (h.suspend i).fail

/-! ## Operations of the client -/

/-- Outside the wait for the user, the deadline is only that of an operation. -/
theorem Known.started {l : IineLink} {history : List IineEvent} (h : Known l history)
    (hs : l.step ≠ .confirm) (busy : Bool)
    (deadline : UInt32) : Known { l with busy := busy, deadline := deadline } history :=
  ⟨h.request, h.reply, fun hc => absurd hc hs, h.approved, h.driven⟩

theorem IineSound.checkStart {i : Fin n} {s : Iine n} (h : IineSound (· ≠ i) s)
    (hi : (s.links i).device.isSome)
    (hidle : inFlight (s.links i).connection s.history = false) (hk : Known (s.links i) s.history)
    (hs : (s.links i).step ≠ .confirm)
    (hw : ∀ bytes, borrowed (s.links i).connection s.history = some bytes →
      (s.links i).wire.take bytes.length = bytes) (status : UInt8) :
    IineOk (checkStart i status s).2 := by
  unfold FoloGameboy.checkStart
  split
  · exact h.fail
  · have hrequested : IineSound (· ≠ i) (s.record (.requested (s.links i).connection)) :=
      h.use hi hidle fun _ hc => hc
    have htime : IineSound (· ≠ i) (getTimeMs (s.record (.requested (s.links i).connection))).2 :=
      hrequested.congr rfl rfl rfl
    refine htime.put (fun _ => ⟨hi, rfl⟩) fun _ => ⟨⟨fun _ => rfl, fun bytes hb => ⟨rfl, hw bytes hb⟩⟩, ?_⟩
    exact (hk.later rfl).started hs true _

theorem IineSound.startQuery {i : Fin n} {s : Iine n} (h : IineSound (· ≠ i) s)
    (hi : (s.links i).device.isSome)
    (hidle : inFlight (s.links i).connection s.history = false)
    (hb : borrowed (s.links i).connection s.history = none)
    (hk : Known (s.links i) s.history) (hs : (s.links i).step ≠ .confirm) : IineOk (startQuery i s).2 := by
  have hstatus : IineSound (· ≠ i) (gattStatus s).2 := h.congr rfl rfl rfl
  exact hstatus.checkStart hi hidle hk hs (fun bytes hs => absurd (hb.symm.trans hs) nofun) _

theorem iineRequestAllowed_payload {opcode : UInt8} {payload : Option (List UInt8)}
    (h : iineRequestAllowed opcode payload) :
    (payload.getD []).length ≤ IINE_PAYLOAD_MAX ∧ iineRequestAllowed opcode (some (payload.getD [])) := by
  unfold iineRequestAllowed at h
  by_cases hop : opcode = 0x90 ∨ opcode = 0x91
  · rw [if_pos hop, List.isEmpty_iff] at h
    rw [h]
    refine ⟨Nat.zero_le _, ?_⟩
    unfold iineRequestAllowed
    rw [if_pos hop]
    rfl
  · rw [if_neg hop] at h
    cases payload with
    | none => exact absurd h nofun
    | some payload =>
      refine ⟨?_, by unfold iineRequestAllowed; rw [if_neg hop]; exact h⟩
      have hcases : payload = [0, 1] ∨ payload = [2, 0xdf, 0xab] ∨ payload = [5, 0xdf, 0xab, 0, 6, 5] := by
        dsimp only at h
        split_ifs at h with hb hm
        · exact .inl (eq_of_beq h)
        · exact .inr (.inl (eq_of_beq h))
        · rw [Bool.and_eq_true] at h
          exact .inr (.inr (eq_of_beq h.2))
      rcases hcases with rfl | rfl | rfl <;> decide

/-- What is sent is what was asked for. -/
theorem buildRequest_spec {opcode : UInt8} {payload : Option (List UInt8)}
    (h : iineRequestAllowed opcode payload) (l : IineLink)
    (now : UInt32) : let built := buildRequest l now opcode payload
    iinePacketParse built.2 =
      some { opcode := opcode, serial := built.1.serial, payload := payload.getD [] } ∧
      built.1.wire.take built.2.length = built.2 ∧ built.2 ≠ [] := by
  intro built
  have hlen := (iineRequestAllowed_payload h).1
  have hparse :
    iinePacketParse built.2 =
    some { opcode := opcode, serial := built.1.serial, payload := payload.getD [] } :=
    iinePacketParse_build opcode _ _ hlen (Nat.add_le_add_right hlen 5)
  refine ⟨hparse, List.take_left, fun hnil => ?_⟩
  rw [hnil] at hparse
  exact absurd hparse nofun

/-- The state in which a request that was built is given to the client. -/
def requestState (i : Fin n) (built : IineLink × List UInt8) (s : Iine n) : Iine n :=
  (((getTimeMs s).2.record (.built built.1.connection)).setLink i built.1).record
    (.wrote built.1.connection (built.1.wire.take built.2.length))

theorem sendRequest_eq {i : Fin n} {s : Iine n} (hb : (s.links i).busy = false) {opcode : UInt8}
    {payload : Option (List UInt8)}
    (ha : iineRequestAllowed opcode payload) : sendRequest i opcode payload s =
      let asked := gattStatus (requestState i (buildRequest (s.links i) (getTimeMs s).1 opcode payload) s)
      checkStart i asked.1 asked.2 := by
  have hne := (buildRequest_spec ha (s.links i) (getTimeMs s).1).2.2
  unfold sendRequest
  rw [if_neg (by rw [hb, ha]; decide)]
  exact if_neg hne

/-- What is known once a request was sent, also when the attempts of the link already count it. -/
theorem Known.sent {l : IineLink} {history : List IineEvent}
    (hk : Known { l with attempts := 0 } history) {opcode : UInt8}
    {payload : Option (List UInt8)} (ha : iineRequestAllowed opcode payload)
    (hinfo : l.step = .info → opcode = 0x91 ∧ payload = none)
    (now : UInt32) : let built := buildRequest l now opcode payload
    Known built.1 (.wrote l.connection (built.1.wire.take built.2.length) :: .built l.connection ::
      history) := by
  intro built
  obtain ⟨hparse, htake, -⟩ := buildRequest_spec ha l now
  constructor
  · intro hs _
    obtain ⟨rfl, rfl⟩ := hinfo hs
    exact ⟨built.2, (if_pos rfl).trans (congrArg some htake), hparse⟩
  · exact fun _ hr => absurd hr nofun
  · intro hs
    obtain ⟨p, since, hr, hi, hw, hd⟩ := hk.confirm hs
    exact ⟨p, since, (hr.later _).later _, hi, List.mem_cons_of_mem _ (List.mem_cons_of_mem _ hw), hd⟩
  · exact fun hs => ((hk.approved hs).later _).later _
  · exact fun hd => ((hk.driven hd).later _).later _

/-- A request from a link with no operation under way. -/
theorem IineSound.sendRequest {i : Fin n} {s : Iine n} (h : IineSound (· ≠ i) s)
    (hi : (s.links i).device.isSome)
    (hwired : Wired (s.links i) s.history) (hk : Known { s.links i with attempts := 0 } s.history)
    (hs : (s.links i).step ≠ .confirm)
    (hb : (s.links i).busy = false) {opcode : UInt8} {payload : Option (List UInt8)}
    (ha : iineRequestAllowed opcode payload)
    (hinfo : (s.links i).step = .info → opcode = 0x91 ∧ payload = none) :
    IineOk (sendRequest i opcode payload s).2 := by
  -- an idle link has nothing in flight
  have hidle : inFlight (s.links i).connection s.history = false := by
    refine Bool.eq_false_iff.2 fun hf => ?_
    exact absurd (hb.symm.trans (hwired.busy hf)) nofun
  obtain ⟨hparse, htake, -⟩ := buildRequest_spec ha (s.links i) (getTimeMs s).1
  have hknown := hk.sent ha hinfo (getTimeMs s).1
  rw [sendRequest_eq hb ha]
  have hconn : (buildRequest (s.links i) (getTimeMs s).1 opcode payload).1.connection =
      (s.links i).connection := rfl
  have hstep : (buildRequest (s.links i) (getTimeMs s).1 opcode payload).1.step = (s.links i).step := rfl
  have hdevice : (buildRequest (s.links i) (getTimeMs s).1 opcode payload).1.device =
      (s.links i).device := rfl
  generalize buildRequest (s.links i) (getTimeMs s).1 opcode payload = built at *
  -- the packet is built while nothing is borrowed, then it is written
  have htime : IineSound (· ≠ i) (getTimeMs s).2 := h.congr rfl rfl rfl
  have hbuilt : IineSound (· ≠ i) ((getTimeMs s).2.record (.built built.1.connection)) :=
    htime.note (by rw [hconn]; exact hidle) fun _ => trivial
  have hset := hbuilt.setLink (l := built.1) fun _ => ⟨hi, hconn⟩
  have hself := setLink_self ((getTimeMs s).2.record (.built built.1.connection)) i built.1
  have hactive : built.1.device.isSome := hdevice ▸ hi
  have hwrote : IineSound (· ≠ i) (requestState i built s) := by
    refine hset.use (by rw [hself]; exact hactive) ?_ fun c hc => by rw [hself] at hc; exact hc
    rw [htake]
    exact ⟨_, hparse, (iineRequestAllowed_payload ha).2⟩
  have hlink : (requestState i built s).links i = built.1 := hself
  have hstatus : IineSound (· ≠ i) (gattStatus (requestState i built s)).2 := hwrote.congr rfl rfl rfl
  have hhistory : (requestState i built s).history =
      .wrote (s.links i).connection (built.1.wire.take built.2.length) ::
        .built (s.links i).connection :: s.history := by
    rw [← hconn]
    rfl
  refine hstatus.checkStart ?_ ?_ ?_ ?_ ?_ _
  · show ((requestState i built s).links i).device.isSome
    rw [hlink]
    exact hactive
  · show inFlight ((requestState i built s).links i).connection (requestState i built s).history = false
    rw [hlink, hhistory, hconn]
    exact hidle
  · show Known ((requestState i built s).links i) (requestState i built s).history
    rw [hlink, hhistory]
    exact hknown
  · show ((requestState i built s).links i).step ≠ .confirm
    rw [hlink, hstep]
    exact hs
  · show ∀ bytes,
      borrowed ((requestState i built s).links i).connection (requestState i built s).history =
      some bytes → ((requestState i built s).links i).wire.take bytes.length = bytes
    rw [hlink, hhistory, hconn, htake]
    intro bytes hbytes
    rw [borrowed, if_pos rfl] at hbytes
    rw [← Option.some.inj hbytes]
    exact htake

theorem checkStart_step {i : Fin n} {s : Iine n} {status : UInt8} (h : (checkStart i status s).1 = true) :
    ((checkStart i status s).2.links i).step = (s.links i).step := by
  unfold checkStart at h ⊢
  split
  · rename_i hs
    rw [if_pos hs] at h
    exact absurd h nofun
  · simp only [getTimeMs, setLink_self, Iine.record]

/-- A request that was sent leaves the step of its link. -/
theorem sendRequest_step {i : Fin n} {s : Iine n} (hb : (s.links i).busy = false) {opcode : UInt8}
    {payload : Option (List UInt8)}
    (ha : iineRequestAllowed opcode payload) (h : (sendRequest i opcode payload s).1 = true) :
    ((sendRequest i opcode payload s).2.links i).step = (s.links i).step := by
  rw [sendRequest_eq hb ha] at h ⊢
  refine (checkStart_step h).trans ?_
  have hself := congrArg IineLink.step
    (setLink_self ((getTimeMs s).2.record (.built (s.links i).connection)) i
    (buildRequest (s.links i) (getTimeMs s).1 opcode payload).1)
  exact hself

/-! ## Steps -/

/-- Beyond the identity, all that is known is that the controller is approved. -/
theorem Known.ofApproved {l : IineLink} {history : List IineEvent}
    (h : Approved l.connection history) (hi : l.step ≠ .info)
    (hc : l.step ≠ .confirm) : Known l history :=
  ⟨fun hs => absurd hs hi, fun hs => absurd hs hi, fun hs => absurd hs hc, fun _ => h, fun _ => h⟩

theorem IineSound.advance {i : Fin n} {s : Iine n} (h : IineSound (· ≠ i) s) (step : IineStep) :
    IineSound (· ≠ i) (advance i step s) := by
  have htime : IineSound (· ≠ i) (getTimeMs s).2 := h.congr rfl rfl rfl
  exact htime.setLink fun hd => ⟨hd, rfl⟩

theorem advance_self (i : Fin n) (step : IineStep) (s : Iine n) : (advance i step s).links i =
    { s.links i with step := step, attempts := 0, replied := false, deadline := (getTimeMs s).1 } :=
  setLink_self ..

/-- A link whose controller is approved goes on. -/
theorem IineSound.proceed {i : Fin n} {s : Iine n} (h : IineSound (· ≠ i) s)
    (hw : Wired (s.links i) s.history)
    (hp : Approved (s.links i).connection s.history) {step : IineStep} (hi : step ≠ .info)
    (hc : step ≠ .confirm) :
    IineOk (FoloGameboy.advance i step s) := by
  refine (h.advance step).trust fun _ => ?_
  rw [advance_self]
  exact ⟨⟨hw.busy, hw.wire⟩, Known.ofApproved hp hi hc⟩

theorem IineOk.checkIdentity {i : Fin n} {s : Iine n} (h : IineOk s)
    (hi : (s.links i).device.isSome) (hs : (s.links i).step = .info)
    (hr : (s.links i).replied = true) (now : UInt32) : IineOk (checkIdentity i now s) := by
  have hok := h.links i trivial hi
  have hreply := hok.known.reply hs hr
  have hset : ∀ firmware, IineSound (· ≠ i) (s.setLink i { s.links i with firmware := firmware }) :=
    fun firmware =>
    (h.suspend i).setLink fun _ => ⟨hi, rfl⟩
  unfold FoloGameboy.checkIdentity
  dsimp only
  split
  · exact h.fail i
  · rename_i hid
    rw [not_or, not_not, not_not] at hid
    split
    · rename_i hfirmware
      refine (hset _).proceed ?_ ?_ nofun nofun
      · rw [setLink_self]
        exact ⟨hok.wired.busy, hok.wired.wire⟩
      · rw [setLink_self]
        exact ⟨_, hreply, hid, .inl hfirmware⟩
    · split
      · -- the deadline of the wait is set with its entry
        have hadvance := (hset (replyFirmware (s.links i).reply.payload)).advance .confirm
        have hwaiting := hadvance.note (e := .waiting (s.links i).connection now) trivial fun _ => trivial
        have hself :=
          advance_self i .confirm
            (s.setLink i { s.links i with firmware := replyFirmware (s.links i).reply.payload })
        rw [setLink_self] at hself
        have hput := hwaiting.put (l := { ((advance i .confirm (s.setLink i { s.links i with
          firmware := replyFirmware (s.links i).reply.payload })).links i) with deadline := now + 60000 })
          (fun hd => ⟨hd, rfl⟩) (by
            rw [hself]
            refine fun _ => ⟨⟨hok.wired.busy, hok.wired.wire⟩, nofun, nofun, fun _ => ?_, nofun,
              fun hd => (hok.known.driven hd).later _⟩
            exact ⟨_, now, hreply.later _, hid, List.mem_cons_self, rfl⟩)
        split
        · exact hput
        · exact hput.askUser _ _ _
      · exact h.fail i

/-- Known of a link, whatever its attempts, where no request for the identity is under way. -/
theorem Known.recount {l : IineLink} {history : List IineEvent} (h : Known l history) :
    Known { l with attempts := 0 } history :=
  ⟨fun _ ha => absurd rfl ha, h.reply, h.confirm, h.approved, h.driven⟩

theorem IineOk.tickRequest {i : Fin n} {s : Iine n} (h : IineOk s) (hi : (s.links i).device.isSome)
    (hb : (s.links i).busy = false)
    (hs : (s.links i).step = .info ∨ (s.links i).step = .caps) (now : UInt32) :
    IineOk (tickRequest i now s) := by
  have hok := h.links i trivial hi
  -- the link goes on with or without an answer to the capabilities
  have hproceed : (s.links i).step ≠ .info → IineOk (advance i .mode s) := by
    intro hne
    have hcaps := hs.resolve_left hne
    exact (h.suspend i).proceed hok.wired (hok.known.approved (by rw [hcaps])) nofun nofun
  unfold FoloGameboy.tickRequest
  dsimp only
  split
  · rename_i hr
    split
    · rename_i hinfo
      exact h.checkIdentity hi hinfo hr now
    · rename_i hne
      exact hproceed hne
  split
  · split
    · split
      · exact h.fail i
      · rename_i hne
        exact hproceed hne
    · -- one more attempt, which the request then makes good
      have hset := (h.suspend i).setLink
        (l := { s.links i with attempts := (s.links i).attempts + 1 }) fun _ => ⟨hi, rfl⟩
      have hself := setLink_self s i { s.links i with attempts := (s.links i).attempts + 1 }
      have hsend : ∀ {opcode payload}, iineRequestAllowed opcode payload →
          ((s.links i).step = .info → opcode = 0x91 ∧ payload = none) →
          IineOk (sendRequest i opcode payload
            (s.setLink i { s.links i with attempts := (s.links i).attempts + 1 })).2 := by
        intro opcode payload ha hinfo
        refine hset.sendRequest ?_ ?_ ?_ ?_ ?_ ha ?_
        · rw [hself]
          exact hi
        · rw [hself]
          exact ⟨hok.wired.busy, hok.wired.wire⟩
        · rw [hself]
          exact hok.known.recount
        · rw [hself]
          rcases hs with hs | hs <;> exact fun hc => absurd (hs.symm.trans hc) nofun
        · rw [hself]
          exact hb
        · rw [hself]
          exact hinfo
      split
      · exact hsend rfl fun _ => ⟨rfl, rfl⟩
      · rename_i hne
        exact hsend rfl fun hc => absurd hc hne
  · exact h

theorem IineOk.put {i : Fin n} {s : Iine n} (h : IineOk s) {l : IineLink}
    (hl : l.device.isSome → (s.links i).device.isSome ∧ l.connection = (s.links i).connection)
    (hok : l.device.isSome → LinkOk (s.links i) s.history → LinkOk l s.history) : IineOk (s.setLink i l) :=
  (h.suspend i).put hl fun hd => hok hd (h.links i trivial (hl hd).1)

/-- A link that stays approved, with the same operation under way. -/
theorem IineOk.move {i : Fin n} {s : Iine n} (h : IineOk s) {l : IineLink}
    (hd : l.device = (s.links i).device)
    (hc : l.connection = (s.links i).connection) (hb : l.busy = (s.links i).busy)
    (hw : l.wire = (s.links i).wire)
    (hi : l.step ≠ .info) (hn : l.step ≠ .confirm)
    (hp : (s.links i).device.isSome → Approved (s.links i).connection s.history) :
    IineOk (s.setLink i l) := by
  refine h.put (fun hs => ⟨hd ▸ hs, hc⟩) fun hs hok => ⟨⟨?_, ?_⟩,
    Known.ofApproved (hc ▸ hp (hd ▸ hs)) hi hn⟩
  · rw [hc, hb]
    exact hok.wired.busy
  · rw [hc, hb, hw]
    exact hok.wired.wire

theorem IineOk.publishInput {i : Fin n} {s : Iine n} (h : IineOk s)
    (hp : Approved (s.links i).connection s.history) :
    IineOk (publishInput i s) := IineSound.note h hp fun _ => trivial

theorem IineOk.tickReady {i : Fin n} {s : Iine n} (h : IineOk s) (hi : (s.links i).device.isSome)
    (hs : (s.links i).step = .test)
    (now : UInt32) : IineOk (tickReady i now s) := by
  have hp : Approved (s.links i).connection s.history :=
    (h.links i trivial hi).known.approved (by rw [hs]; decide)
  have hrunning : IineOk (s.setLink i { s.links i with step := .running }) :=
    h.move rfl rfl rfl rfl nofun nofun fun _ => hp
  have hself := setLink_self s i { s.links i with step := .running }
  unfold FoloGameboy.tickReady
  generalize hs₁ : s.setLink i { s.links i with step := .running } = s₁ at hrunning hself
  have hp₁ : Approved (s₁.links i).connection s₁.history := by
    rw [hself, ← hs₁]
    exact hp
  have hready : IineOk (s₁.record (.ready (s₁.links i).connection)) :=
    IineSound.note hrunning hp₁ fun _ => trivial
  have hnext : IineOk { s₁.record (.ready (s₁.links i).connection) with
      readies := s₁.readies + 1 } := IineSound.congr hready rfl rfl rfl
  have hp₂ := hp₁.later (.ready (s₁.links i).connection)
  dsimp only
  split
  · exact hnext
  · split
    · exact hnext
    · exact hnext.reset _
  · have hstep : (s₁.links i).step = .running := congrArg IineLink.step hself
    have hput : IineOk
        (({ s₁.record (.ready (s₁.links i).connection) with readies := s₁.readies + 1 } :
        Iine n).setLink i
        { s₁.links i with ready := true, nextKeepalive := now + 1000 }) :=
      hnext.move rfl rfl rfl rfl (by rw [hstep]; nofun) (by rw [hstep]; nofun) fun _ => hp₂
    refine hput.publishInput ?_
    rw [setLink_self]
    exact hp₂

/-- The test request, and the mode request before it. -/
theorem IineOk.request {i : Fin n} {s : Iine n} (h : IineOk s) (hi : (s.links i).device.isSome)
    (hb : (s.links i).busy = false)
    (hs : IineStep.caps.toNat < (s.links i).step.toNat) {opcode : UInt8} {payload : Option (List UInt8)}
    (ha : iineRequestAllowed opcode payload) : IineOk (sendRequest i opcode payload s).2 := by
  have hok := h.links i trivial hi
  refine (h.suspend i).sendRequest hi hok.wired hok.known.recount ?_ hb ha ?_
  · exact fun hc => absurd (hc ▸ hs) (by decide)
  · exact fun hc => absurd (hc ▸ hs) (by decide)

theorem IineOk.tickLink {i : Fin n} {s : Iine n} (h : IineOk s) (hi : (s.links i).device.isSome)
    (now : UInt32) :
    IineOk (tickLink i now s) := by
  unfold FoloGameboy.tickLink
  dsimp only
  split
  · split
    · exact h.fail i
    · exact h
  -- with no operation in flight the step decides
  rename_i hb
  rw [Bool.not_eq_true] at hb
  cases hs : (s.links i).step with
  | info => exact h.tickRequest hi hb (.inl hs) now
  | caps => exact h.tickRequest hi hb (.inr hs) now
  | confirm =>
    dsimp only
    split
    · exact h.fail i
    · exact h
  | mode =>
    have hsent := @IineOk.request _ i _ h hi hb (by rw [hs]; decide) 0x1d (some modePayload) (by decide)
    dsimp only
    split
    · rename_i ht
      have hstep := sendRequest_step hb (by decide) ht
      refine hsent.move rfl rfl rfl rfl nofun nofun fun hd => (hsent.links i trivial hd).known.approved ?_
      rw [hstep, hs]
      decide
    · exact hsent
  | delay =>
    have hsent := @IineOk.request _ i _ h hi hb (by rw [hs]; decide) 0x1d (some testPayload) (by decide)
    dsimp only
    split
    · split
      · rename_i ht
        have hstep := sendRequest_step hb (by decide) ht
        refine hsent.move rfl rfl rfl rfl nofun nofun fun hd => (hsent.links i trivial hd).known.approved ?_
        rw [hstep, hs]
        decide
      · exact hsent
    · exact h
  | test => exact h.tickReady hi hs now
  | running =>
    have hsent := @IineOk.request _ i _ h hi hb (by rw [hs]; decide) 0x1d (some testPayload) (by decide)
    dsimp only
    split
    · refine hsent.put (fun hd => ⟨hd, rfl⟩) fun _ hok => ⟨⟨hok.wired.busy, hok.wired.wire⟩, ?_⟩
      exact ⟨hok.known.request, hok.known.reply, hok.known.confirm, hok.known.approved, hok.known.driven⟩
    · exact h
  | service => exact h
  | characteristics => exact h
  | subscribe => exact h

theorem IineOk.iineTick {s : Iine n} (h : IineOk s) (i : Fin n) : IineOk (iineTick i s) := by
  unfold FoloGameboy.iineTick
  split
  · exact h
  · rename_i hi
    rw [Bool.not_eq_true, Option.isNone_eq_false_iff] at hi
    have htime : IineOk (getTimeMs s).2 := IineSound.congr h rfl rfl rfl
    exact htime.tickLink hi _

/-! ## Events of the client -/

/-- No operation of the connection is with the client. -/
def Idle (connection : Nat) (history : List IineEvent) : Prop :=
  inFlight connection history = false ∧ borrowed connection history = none

theorem Wired.ofIdle {l : IineLink} {history : List IineEvent} (h : Idle l.connection history) :
    Wired l history :=
  ⟨fun hf => absurd (h.1.symm.trans hf) nofun, fun _ hb => absurd (h.2.symm.trans hb) nofun⟩

/-- Before the identity is asked for, only the input is to be known of. -/
theorem Known.early {l : IineLink} {history : List IineEvent}
    (hd : l.ready ∨ l.input ≠ neutralInput → Approved l.connection history)
    (hs : l.step.toNat < IineStep.info.toNat ∨ l.step = .info ∧ l.attempts = 0 ∧
      l.replied = false) : Known l history := by
  rcases hs with hs | ⟨hs, ha, hr⟩
  · refine ⟨fun h => ?_, fun h => ?_, fun h => ?_,
      fun h => absurd (Nat.lt_of_le_of_lt h hs) (by decide), hd⟩ <;>
      exact absurd (h ▸ hs) (by decide)
  · refine ⟨fun _ h => absurd ha h, fun _ h => absurd (hr.symm.trans h) nofun,
      fun h => absurd (hs.symm.trans h) nofun, fun h => ?_, hd⟩
    exact absurd (hs ▸ h) (by decide)

/-- A link of which only the attributes found change. -/
theorem LinkOk.attributes {l : IineLink} {history : List IineEvent} (h : LinkOk l history)
    (service : GattService)
    (write notify : GattCharacteristic) :
    LinkOk { l with service := service, write := write, notify := notify } history :=
  ⟨⟨h.wired.busy, h.wired.wire⟩, h.known.request, h.known.reply, h.known.confirm, h.known.approved,
    h.known.driven⟩

theorem IineOk.serviceResult {i : Fin n} {s : Iine n} (h : IineOk s) (packet : List UInt8) :
    IineOk (serviceResult i packet s) := by
  unfold FoloGameboy.serviceResult
  dsimp only
  split
  · exact h
  split
  · exact h.fail i
  · exact h.put (fun hd => ⟨hd, rfl⟩) fun _ hok => hok.attributes _ _ _

theorem IineOk.characteristicResult {i : Fin n} {s : Iine n} (h : IineOk s) (packet : List UInt8) :
    IineOk (characteristicResult i packet s) := by
  unfold FoloGameboy.characteristicResult
  extract_lets l chr isWrite isNotify s'
  have hs' : IineOk s' := by
    show IineOk (if isWrite then _ else s)
    split
    · exact h.put (fun hd => ⟨hd, rfl⟩) fun _ hok => hok.attributes _ _ _
    · exact h
  split
  · exact h
  split
  · exact h.fail i
  split
  · exact hs'.fail i
  split
  · exact hs'.put (fun hd => ⟨hd, rfl⟩) fun _ hok => hok.attributes _ _ _
  · exact hs'

theorem IineOk.queryComplete {i : Fin n} {s : Iine n} (h : IineOk s) (hi : (s.links i).device.isSome)
    (hidle : Idle (s.links i).connection s.history) (packet : List UInt8) :
    IineOk (queryComplete i packet s) := by
  have hok := h.links i trivial hi
  have hfree : IineOk (s.setLink i { s.links i with busy := false }) := by
    refine h.put (fun hd => ⟨hd, rfl⟩) fun _ hok => ⟨Wired.ofIdle hidle, ?_⟩
    exact ⟨hok.known.request, hok.known.reply, hok.known.confirm, hok.known.approved, hok.known.driven⟩
  have hself := setLink_self s i { s.links i with busy := false }
  unfold FoloGameboy.queryComplete
  split
  · exact h
  generalize hs₁ : s.setLink i { s.links i with busy := false } = s₁ at hfree hself
  have hdevice : (s₁.links i).device.isSome := by
    rw [hself]
    exact hi
  have hidle₁ : Idle (s₁.links i).connection s₁.history := by
    rw [hself, ← hs₁]
    exact hidle
  have hdriven := (hfree.links i trivial hdevice).known.driven
  -- the next operation of the discovery starts with nothing under way
  have hquery : ∀ (l : IineLink), l.connection = (s₁.links i).connection →
      l.device = (s₁.links i).device → l.ready = (s₁.links i).ready →
      l.input = (s₁.links i).input → l.step.toNat < IineStep.info.toNat →
        IineOk (startQuery i (s₁.setLink i l)).2 := by
    intro l hc hd hr hin hlt
    have hset := (hfree.suspend i).setLink (l := l) fun _ => ⟨hdevice, hc⟩
    have hl := setLink_self s₁ i l
    refine hset.startQuery ?_ ?_ ?_ ?_ ?_
    · rw [hl, hd]
      exact hdevice
    · rw [hl, hc]
      exact hidle₁.1
    · rw [hl, hc]
      exact hidle₁.2
    · rw [hl]
      refine Known.early ?_ (.inl hlt)
      rw [hc, hr, hin]
      exact hdriven
    · rw [hl]
      exact fun hc => absurd (hc ▸ hlt) (by decide)
  dsimp only
  split
  · exact hfree.fail i
  split
  · split
    · exact hfree.fail i
    · exact hquery _ rfl rfl rfl rfl (show IineStep.characteristics.toNat < IineStep.info.toNat by decide)
  · split
    · exact hfree.fail i
    · exact hquery _ rfl rfl rfl rfl (show IineStep.subscribe.toNat < IineStep.info.toNat by decide)
  · refine ((hfree.suspend i).advance .info).trust fun _ => ?_
    rw [advance_self]
    exact ⟨Wired.ofIdle hidle₁, Known.early hdriven (.inr ⟨rfl, rfl, rfl⟩)⟩
  · exact hfree

/-- A notification: a reply to the identity request is told from another by its serial number. -/
theorem IineOk.receivePacket {i : Fin n} {s : Iine n} (h : IineOk s)
    (hi : (s.links i).device.isSome) {value : List UInt8}
    {decoded : IinePacket} (hd : iinePacketParse value = some decoded) :
    IineOk (receivePacket i decoded (s.record (.notified (s.links i).connection value))) := by
  have hok := h.links i trivial hi
  have hnoted : IineOk (s.record (.notified (s.links i).connection value)) :=
    IineSound.note h trivial fun _ => trivial
  unfold FoloGameboy.receivePacket
  dsimp only
  split
  · rename_i hreply
    obtain ⟨hs, ha, -, hop, hserial⟩ := hreply
    refine hnoted.put (fun hd => ⟨hd, rfl⟩) fun _ hok' => ⟨⟨hok'.wired.busy, hok'.wired.wire⟩, ?_⟩
    refine ⟨hok'.known.request, fun hinfo _ => .inl ⟨value, rfl, hd, hop, ?_⟩, hok'.known.confirm,
      hok'.known.approved, hok'.known.driven⟩
    rw [hserial]
    exact hok.known.request hinfo ha
  split
  · rename_i hmode
    have hp : Approved (s.links i).connection s.history :=
      hok.known.approved (Nat.le_trans (by decide) hmode.1)
    have hne : (s.links i).step ≠ .info ∧ (s.links i).step ≠ .confirm := by
      constructor <;> exact fun hs => absurd (hs ▸ hmode.1 : IineStep.mode.toNat ≤ _) (by decide)
    split
    · exact hnoted
    · rename_i input _
      have happlied :
        IineOk ((s.record (.notified (s.links i).connection value)).record
        (.applied (s.links i).connection)) :=
        IineSound.note hnoted (hp.later _) fun _ => trivial
      have hput := happlied.move (i := i) (l := { s.links i with input := input })
        rfl rfl rfl rfl hne.1 hne.2 fun _ => (hp.later _).later _
      split
      · refine hput.publishInput ?_
        rw [setLink_self]
        exact (hp.later _).later _
      · exact hput
  · exact hnoted

theorem IineOk.notification {i : Fin n} {s : Iine n} (h : IineOk s) (hi : (s.links i).device.isSome)
    (packet : List UInt8) :
    IineOk (notification i packet s) := by
  unfold FoloGameboy.notification
  dsimp only
  split
  · exact h
  split
  · exact h
  split
  · exact IineSound.note h trivial fun _ => trivial
  · rename_i decoded hd
    exact h.receivePacket hi hd

theorem forHandle_some {s : Iine n} {handle : UInt16} {i : Fin n}
    (h : forHandle s handle = some i) : (s.links i).device.isSome := by
  have hp := List.find?_some h
  rw [Bool.and_eq_true] at hp
  exact hp.1

theorem IineOk.packetHandler {s : Iine n} (h : IineOk s) {type : UInt8} {packet : List UInt8}
    (hidle : ∀ i, type = HCI_EVENT_PACKET → 4 ≤ packet.length →
      packet.getD 0 0 = GATT_EVENT_QUERY_COMPLETE →
      forHandle s (littleEndianRead16 packet 2) = some i → Idle (s.links i).connection s.history) :
    IineOk (packetHandler type packet s) := by
  unfold FoloGameboy.packetHandler
  split
  · exact h
  rename_i hvalid
  rw [not_or, not_or, not_not, Nat.not_lt] at hvalid
  split
  · exact h
  rename_i i hi
  have hdevice := forHandle_some hi
  dsimp only
  split
  · exact h.serviceResult packet
  split
  · exact h.characteristicResult packet
  split
  · rename_i hcomplete
    exact h.queryComplete hdevice (hidle i hvalid.1 hvalid.2.1 hcomplete hi) packet
  split
  · exact h.notification hdevice packet
  · exact h

theorem idle_completed (connection : Nat) (history : List IineEvent) :
    Idle connection (.completed connection :: history) := by
  constructor
  · rw [inFlight, bne_self_eq_false, Bool.false_and]
  · rw [borrowed, if_pos rfl]

theorem IineOk.deliverPacket {s : Iine n} (h : IineOk s) (type : UInt8) (packet : List UInt8) :
    IineOk (deliverPacket type packet s) := by
  unfold FoloGameboy.deliverPacket
  cases hc : completion type packet s with
  | none =>
    refine h.packetHandler fun i ht hl hq hi => ?_
    unfold completion at hc
    rw [if_pos ⟨ht, hl, hq⟩, hi] at hc
    exact absurd hc nofun
  | some connection =>
    dsimp only
    split
    · have hnoted : IineOk (s.record (.completed connection)) := IineSound.note h trivial fun _ => trivial
      refine hnoted.packetHandler fun i ht hl hq hi => ?_
      have hi' : forHandle s (littleEndianRead16 packet 2) = some i := hi
      unfold completion at hc
      rw [if_pos ⟨ht, hl, hq⟩, hi'] at hc
      have hconnection : (s.links i).connection = connection := Option.some.inj hc
      show Idle (s.links i).connection (.completed connection :: s.history)
      rw [hconnection]
      exact idle_completed connection s.history
    · exact h

/-! ## The user and new links -/

theorem Approved.askUser {c : Nat} {s : Iine n} (h : Approved c s.history) (d : Nat) (p : Bool)
    (f : UInt16) :
    Approved c (askUser d p f s).history := by
  unfold FoloGameboy.askUser
  split
  · exact h.later _
  · exact h

theorem IineOk.uniBtLeIineConfirm {s : Iine n} (h : IineOk s) (d : Nat) :
    IineOk (uniBtLeIineConfirm d s) := by
  unfold FoloGameboy.uniBtLeIineConfirm
  split
  · exact h
  rename_i i hi
  dsimp only
  split
  · exact h
  rename_i hvalid
  rw [not_or, not_not, not_not] at hvalid
  have hdevice := forHandle_some hi
  obtain ⟨p, since, hr, hid, hw, hdl⟩ := (h.links i trivial hdevice).known.confirm hvalid.2
  have htime : IineOk (getTimeMs s).2 := IineSound.congr h rfl rfl rfl
  have hnoted :
    IineOk ((getTimeMs s).2.record (.confirmed (s.links i).connection (s.links i).step
    (getTimeMs s).1 (s.links i).deadline)) :=
    IineSound.note htime trivial fun _ => trivial
  split
  · exact hnoted.fail i
  · rename_i hdue
    rw [Bool.not_eq_true] at hdue
    -- this confirmation is the one that approves the controller
    have hp : Approved (s.links i).connection
        (.confirmed (s.links i).connection (s.links i).step (getTimeMs s).1 (s.links i).deadline ::
          s.history) :=
      ⟨p, hr.later _, hid, .inr (.inl ⟨_, since, by rw [hvalid.2, hdl], by rw [← hdl]; exact hdue, hw, hr⟩)⟩
    have hasked : IineOk (FoloGameboy.askUser d false 0
        ((getTimeMs s).2.record (.confirmed (s.links i).connection (s.links i).step (getTimeMs s).1
          (s.links i).deadline))) :=
      IineSound.askUser hnoted d false 0
    have hlinks : ∀ j, ((FoloGameboy.askUser d false 0
        ((getTimeMs s).2.record (.confirmed (s.links i).connection (s.links i).step (getTimeMs s).1
          (s.links i).deadline))).links j) =
        s.links j := congrFun (askUser_links ..)
    refine (hasked.suspend i).proceed (hasked.links i trivial (by rw [hlinks]; exact hdevice)).wired
      ?_ nofun nofun
    rw [hlinks]
    exact Approved.askUser (s := (getTimeMs s).2.record _) hp d false 0

/-- A new link, on a connection of its own. -/
theorem IineOk.uniBtLeIineStart {s : Iine n} (h : IineOk s) (d : Nat) : IineOk (uniBtLeIineStart d s) := by
  unfold FoloGameboy.uniBtLeIineStart
  dsimp only
  split
  · exact h
  split
  · exact h
  rename_i i _
  generalize hl :
    ({ connection := s.connections, device := some d, handle := (s.devices d).handle, input := neutralInput } :
      IineLink) = l
  have hc : l.connection = s.connections := by rw [← hl]
  have hd : l.device.isSome := by rw [← hl]; rfl
  have hold : ∀ j, j ≠ i →
      (((({ s with connections := s.connections + 1 } :
      Iine n).record (.started s.connections)).setLink i l).links j) =
      s.links j := fun j hj => setLink_ne _ l hj
  -- the connection has a number no link had before
  have hnew : (((({ s with connections := s.connections + 1 } :
    Iine n).record (.started s.connections)).setLink i l).links i) = l :=
    setLink_self ..
  have hstarted :
      IineSound (· ≠ i)
      ((({ s with connections := s.connections + 1 } :
      Iine n).record (.started s.connections)).setLink i l) := by
    refine ⟨⟨trivial, h.history⟩, fun j hj hs => ?_, fun j hs => ?_, fun j k hsj hsk heq => ?_,
      fun c hle => ?_⟩
    · rw [hold j hj] at hs ⊢
      exact (h.links j trivial hs).later trivial
    · show _ < s.connections + 1
      by_cases hj : j = i
      · rw [hj, hnew, hc]
        exact Nat.lt_succ_self _
      · rw [hold j hj] at hs ⊢
        exact Nat.lt_succ_of_lt (h.numbered j hs)
    -- the new link shares its number with no other
    · by_cases hj : j = i <;> by_cases hk : k = i
      · rw [hj, hk]
      · rw [hj, hnew, hold k hk, hc] at heq
        rw [hold k hk] at hsk
        exact absurd heq (Nat.ne_of_gt (h.numbered k hsk))
      · rw [hk, hnew, hold j hj, hc] at heq
        rw [hold j hj] at hsj
        exact absurd heq (Nat.ne_of_lt (h.numbered j hsj))
      · rw [hold j hj] at hsj heq
        rw [hold k hk] at hsk heq
        exact h.distinct j k hsj hsk heq
    · exact h.unused c (Nat.le_of_succ_le hle)
  refine hstarted.startQuery ?_ ?_ ?_ ?_ ?_
  · rw [hnew]
    exact hd
  · rw [hnew, hc]
    exact (h.unused s.connections (Nat.le_refl _)).1
  · rw [hnew, hc]
    exact (h.unused s.connections (Nat.le_refl _)).2
  · rw [hnew, ← hl]
    exact Known.early (fun hd => absurd hd (by simp))
      (.inl (show IineStep.service.toNat < IineStep.info.toNat by decide))
  · rw [hnew, ← hl]
    nofun

/-! ## Runs -/

theorem IineOk.step {s : Iine n} (h : IineOk s) (input : IineInput n) : IineOk (input.step s) := by
  cases input with
  | packet type packet => exact h.deliverPacket type packet
  | tick i => exact h.iineTick i
  | confirm d => exact h.uniBtLeIineConfirm d
  | reset d => exact h.reset d
  | start d => exact h.uniBtLeIineStart d
  | device d state => exact IineSound.congr h rfl rfl rfl
  | setCallback set => exact IineSound.congr h rfl rfl rfl

theorem IineOk.run {s : Iine n} (h : IineOk s) (inputs : List (IineInput n)) :
    IineOk (iineRun inputs s) := by
  unfold iineRun
  induction inputs generalizing s with
  | nil => exact h
  | cons input inputs ih => exact ih (h.step input)

theorem iineOk_initial (env : IineEnv) (devices : Nat → IineDevice) :
    IineOk ({ env := env, devices := devices } : Iine n) :=
  ⟨trivial, fun _ _ h => absurd h nofun, fun _ h => absurd h nofun, fun _ _ h => absurd h nofun,
    fun _ _ => ⟨rfl, rfl⟩⟩

/-- Whatever happens in whatever order, on any number of links: every entry of the history is
admitted by the entries before it, and of every link in use the flag and the input state that follow
an approval do follow one, an operation that is with the client is the only one, and the wire buffer
still holds what was lent of it. -/
theorem iineRun_driven (env : IineEnv) (devices : Nat → IineDevice) (inputs : List (IineInput n)) :
    let s := iineRun inputs ({ env := env, devices := devices } : Iine n)
    (∀ later e earlier, s.history = later ++ e :: earlier → EventOk e earlier) ∧
      ∀ i, (s.links i).device.isSome →
        ((s.links i).ready ∨ (s.links i).input ≠ neutralInput → Approved (s.links i).connection s.history) ∧
        (inFlight (s.links i).connection s.history → (s.links i).busy) ∧
        ∀ bytes, borrowed (s.links i).connection s.history = some bytes →
          (s.links i).wire.take bytes.length = bytes := by
  intro s
  have h : IineOk s := (iineOk_initial env devices).run inputs
  refine ⟨fun later e earlier hs => h.history.entry hs, fun i hi => ?_⟩
  have hok := h.links i trivial hi
  exact ⟨hok.known.driven, hok.wired.busy, fun bytes hb => (hok.wired.wire bytes hb).2⟩

/-- The events of a controller with the verified firmware, up to its first report. -/
def sampleSession : List (IineInput 1) :=
  let event := fun (type : UInt8) (body : List UInt8) =>
    IineInput.packet HCI_EVENT_PACKET ([type, UInt8.ofNat (body.length + 2), 7, 0] ++ body)
  let complete := event GATT_EVENT_QUERY_COMPLETE [0, 0, 0, 0, 0]
  let characteristic := fun (value properties : UInt8) (uuid : List UInt8) =>
    event GATT_EVENT_CHARACTERISTIC_QUERY_RESULT ([0, 0, 0, 0, 0, 0, value, 0, 0, 0, properties, 0] ++ uuid.reverse)
  let reply := fun (opcode serial : UInt8) (payload : List UInt8) =>
    let value := iinePacketBuild IINE_PACKET_MAX opcode serial 0x43 payload
    event GATT_EVENT_NOTIFICATION ([0, 0, 0, 0, 5, 0, UInt8.ofNat value.length, 0] ++ value)
  [.start 0, event GATT_EVENT_SERVICE_QUERY_RESULT ([0, 0, 0, 0, 1, 0, 9, 0] ++ .replicate 16 0), complete,
    characteristic 3 8 writeUuid, characteristic 5 16 notifyUuid, complete, complete, .tick 0,
    reply 0x19 1 [7, 0x10, 2, 0x20, 0x27, 2, 9, 0x51], complete, .tick 0, .tick 0, complete,
    reply 0x19 130 [], .tick 0, .tick 0, complete, .tick 0, complete, .tick 0, reply 0x1f 0 [2, 1, 1]]

def sampleStart : Iine 1 :=
  { env := { clock := fun k => UInt32.ofNat (4294967000 + 200 * k), status := fun _ => 0, ready := fun _ => .accepted }
    devices := fun _ => { handle := 7, bleIine := true } }

/-- That session gets to its report, over a clock that wraps. -/
example :
    ((iineRun sampleSession sampleStart).history.filterMap fun | .published c gp => some (c, gp.buttons) | _ => none) =
    [(0, 1), (0, 0)] := by decide +kernel

end FoloGameboy

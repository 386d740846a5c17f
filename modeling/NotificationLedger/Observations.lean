import NotificationLedger.Interleaving
import NotificationLedger.Receipts

/-!
# Observation ids

The table of consumed ids is the memory of every observation that was applied: a receipt call, a
lifecycle call, or the answer of a provider. Nothing else writes to it and nothing removes a row, so
a consumed id leads back to the one observation of the history that consumed it.
-/

namespace NotificationLedger

open Outcome

/-! ## One observation

What applying an envelope does to the table of ids: it adds its own row, or finds it there. No
handler touches the table otherwise. -/

namespace Events

variable {X : Externals} {L L' : Ledger} {event : ObservationEnvelope}

/-- What an observation does to the consumed ids once its own is claimed: nothing. -/
theorem Observation.consumedEvents_observe {o : Observation}
    (h : o.observe X L event = .ok L') : L'.consumedEvents = L.consumedEvents := by
  cases o with
  | dispatch payload =>
    obtain ⟨-, d, a, -, -, hcase⟩ := observeDispatch_eq_ok.mp h
    rcases hcase with ⟨-, -, -, rfl⟩ | ⟨-, -, -, -, hevidence⟩
    · rfl
    · exact (Ledger.insertEvidence_frame hevidence).2.2
  | receipt payload =>
    obtain ⟨-, ⟨_, -, -, rfl⟩ | ⟨d, a, -, L₁, hins, rfl⟩⟩ := observeReceipt_eq_ok.mp h
    · rfl
    · obtain ⟨-, R, -, rfl⟩ := Ledger.insertReceipt_eq_some.mp hins
      rfl
  | lifecycle payload =>
    obtain ⟨-, -, L₁, hins, hL'⟩ := observeLifecycle_eq_ok.mp h
    obtain ⟨-, T, -, rfl⟩ := Ledger.insertSourceLifecycleEvent_eq_some.mp hins
    rw [hL']

/-- **An applied observation** is a replay that changes nothing, or consumes its id. -/
theorem of_apply (h : apply X L event = .ok L') :
    ∃ o, observationOf X event = .ok o ∧
      ((∃ c, L.consumedEvents.get? event.id = some c ∧ c.eventDigest = eventDigest X event ∧
          L' = L) ∨
        (L.consumedEvents.get? event.id = none ∧
          L.consumedEvents.insert? (consumedRow X event o.observedAt) =
            some L'.consumedEvents)) := by
  obtain ⟨o, ho, hrecord⟩ := apply_eq_ok.mp h
  refine ⟨o, ho, ?_⟩
  obtain ⟨-, hreplayed | ⟨hfresh, L₁, hconsume, hobserve⟩⟩ := recordOnce_eq_ok.mp hrecord
  · exact Or.inl hreplayed
  · obtain ⟨-, T, hT, rfl⟩ := Ledger.insertConsumedEvent_eq_some.mp hconsume
    refine Or.inr ⟨hfresh, ?_⟩
    rw [Observation.consumedEvents_observe hobserve]
    exact hT

theorem storable_of_apply (h : apply X L event = .ok L') : storable event.id = true := by
  obtain ⟨o, -, hrecord⟩ := apply_eq_ok.mp h
  exact (Storable.cons_iff.mp (recordOnce_eq_ok.mp hrecord).1).1

/-- After an observation was applied its id is consumed by its content. -/
theorem consumed_of_apply (h : apply X L event = .ok L') :
    ∃ c, L'.consumedEvents.get? event.id = some c ∧ c.eventDigest = eventDigest X event := by
  obtain ⟨o, -, ⟨c, hc, hdigest, rfl⟩ | ⟨-, hins⟩⟩ := of_apply h
  · exact ⟨c, hc, hdigest⟩
  · refine ⟨consumedRow X event o.observedAt, ?_, rfl⟩
    rw [Table.get?_insert? hins]
    exact if_pos rfl

/-- An admitted event name is one of five. -/
theorem storable_identity {o : Observation} (hadmitted : observationOf X event = .ok o)
    (hstorable : storable event.id = true) : Storable [event.id, event.eventName] := by
  refine Storable.cons_iff.mpr ⟨hstorable, Storable.cons_iff.mpr ⟨?_, by simp [Storable]⟩⟩
  have hnames : ∀ name ∈ [emailDispatchObservedEvent, emailReceiptObservedEvent,
      organizationInvitationAcceptedEvent, organizationInvitationExpiredEvent,
      organizationInvitationRevokedEvent], storable name = true := by decide
  refine hnames _ ?_
  obtain ⟨-, hcarries⟩ := observationOf_eq_ok.mp hadmitted
  cases o with
  | dispatch payload => simp [hcarries.1]
  | receipt payload => simp [hcarries.1]
  | lifecycle payload =>
    have hname := of_decide_eq_true hcarries.1
    simp only [List.mem_cons, List.not_mem_nil, or_false] at hname ⊢
    tauto

/-- **An observation under a free id** is applied exactly when its id can be bound and its handler
succeeds. -/
theorem apply_eq_ok_of_fresh {o : Observation} (hadmitted : observationOf X event = .ok o)
    (hfresh : L.consumedEvents.get? event.id = none) :
    apply X L event = .ok L' ↔ storable event.id = true ∧
      ∃ T, L.consumedEvents.insert? (consumedRow X event o.observedAt) = some T ∧
        o.observe X { L with consumedEvents := T } event = .ok L' := by
  constructor
  · intro h
    refine ⟨storable_of_apply h, ?_⟩
    obtain ⟨o', ho', hrecord⟩ := apply_eq_ok.mp h
    cases hadmitted.symm.trans ho'
    obtain ⟨-, ⟨c, hc, -⟩ | ⟨-, L₁, hins, hobserve⟩⟩ := recordOnce_eq_ok.mp hrecord
    · rw [hfresh] at hc
      cases hc
    · obtain ⟨-, T, hT, rfl⟩ := Ledger.insertConsumedEvent_eq_some.mp hins
      exact ⟨T, hT, hobserve⟩
  · rintro ⟨hstorable, T, hT, hobserve⟩
    have htexts := storable_identity hadmitted hstorable
    obtain ⟨T', hT', hins⟩ := exists_insertConsumedEvent (X := X) (t := o.observedAt) htexts hfresh
    rw [hT, Option.some_inj] at hT'
    subst hT'
    exact apply_eq_ok.mpr ⟨o, hadmitted, recordOnce_eq_ok.mpr ⟨htexts, Or.inr
      ⟨hfresh, _, hins, hobserve⟩⟩⟩

/-- **Replay.** An admitted observation whose id was consumed by its own content is accepted and
changes nothing; consumed by any other content, it is a conflict. -/
theorem apply_of_consumed {o : Observation} {c : ConsumedEvent}
    (hadmitted : observationOf X event = .ok o) (hc : L.consumedEvents.get? event.id = some c)
    (hstorable : storable event.id = true) :
    apply X L event = if c.eventDigest = eventDigest X event then .ok L
      else .error replayedWithDifferentContent := by
  have htexts := storable_identity hadmitted hstorable
  rw [apply_eq, hadmitted, ok_bind, recordOnce, claimEvent, bindTexts, ensure_of htexts, ok_bind,
    hc]
  simp only
  split
  · next hdigest =>
    rw [ensure_of hdigest]
    rfl
  · next hdigest =>
    rw [ensure_of_not hdigest]
    rfl

end Events

/-! ## The consumed ids of a transaction

The transactions that are no observations leave the table alone. -/

section Transactions

variable {X : Externals} {protector : SnapshotProtector} {L L' : Ledger} {t : Transaction}

/-- A transaction other than an observation leaves the consumed ids and the evidence alone. -/
theorem frame_of_run (h : t.run X protector L = .ok L')
    (hother : ∀ event, t ≠ .observe event) :
    L'.consumedEvents = L.consumedEvents ∧ L'.receipts = L.receipts ∧
      L'.sourceLifecycleEvents = L.sourceLifecycleEvents := by
  cases t with
  | create intent nonces now =>
    obtain ⟨receipt, h⟩ := fst_map_eq_ok.mp h
    obtain ⟨⟨-, hreceipts, -, hconsumed, hlifecycle⟩, -⟩ := Public.frame_of_persistIntent h
    exact ⟨hconsumed, hreceipts, hlifecycle⟩
  | claim locked now =>
    rcases of_claimOneDue h with rfl | ⟨row, work, hd, hclaimable, -, h⟩
    · exact ⟨rfl, rfl, rfl⟩
    · obtain ⟨-, -, -, -, L₁, hins, rfl⟩ := (Runtime.claimRow_eq_ok hd hclaimable).mp h
      obtain ⟨-, T, -, rfl⟩ := Ledger.insertAttempt_eq_some.mp hins
      exact ⟨rfl, rfl, rfl⟩
  | observe event => exact absurd rfl (hother event)
  | retry deliveryId expectedRevision idempotencyKey requestedBy now =>
    obtain ⟨result, h⟩ := fst_map_eq_ok.mp h
    rcases Repository.of_requestManualRetry h with rfl | h
    · exact ⟨rfl, rfl, rfl⟩
    · obtain ⟨d, -, -, -, -, ⟨L₁, hins, hL'⟩, -⟩ := Repository.scheduleManualRetry_eq_ok.mp h
      obtain ⟨-, T, -, rfl⟩ := Ledger.insertRetryRequest_eq_some.mp hins
      rw [hL']
      exact ⟨rfl, rfl, rfl⟩

/-- A lifecycle event is stored under a consumed id. -/
theorem lifecycle_consumed (h : (transactions X protector).Reachable L) :
    ∀ r ∈ L.sourceLifecycleEvents.rows, (L.consumedEvents.get? r.eventId).isSome := by
  refine reachable_of_statement
    (I := fun L ↦ ∀ r ∈ L.sourceLifecycleEvents.rows, (L.consumedEvents.get? r.eventId).isSome)
    (fun r hr ↦ nomatch hr) ?_ h
  intro L L' ih hstatement r hr
  by_cases hold : r ∈ L.sourceLifecycleEvents.rows
  · obtain ⟨c, hc⟩ := Option.isSome_iff_exists.mp (ih r hold)
    exact Option.isSome_of_eq_some (hstatement.extends.consumed hc)
  · cases hstatement with
    | sourceLifecycleEvent hins =>
      obtain ⟨⟨-, hsome⟩, T, hT, rfl⟩ := Ledger.insertSourceLifecycleEvent_eq_some.mp hins
      rw [((Table.mem_insert? hT).mp hr).resolve_left hold]
      exact hsome
    | templateRelease hins =>
      obtain ⟨-, T, -, rfl⟩ := Ledger.insertTemplateRelease_eq_some.mp hins
      exact absurd hr hold
    | renderSnapshot hins =>
      obtain ⟨-, T, -, rfl⟩ := Ledger.insertRenderSnapshot_eq_some.mp hins
      exact absurd hr hold
    | intent hins =>
      obtain ⟨-, T, -, rfl⟩ := Ledger.insertIntent_eq_some.mp hins
      exact absurd hr hold
    | delivery hins =>
      obtain ⟨-, T, -, rfl⟩ := Ledger.insertDelivery_eq_some.mp hins
      exact absurd hr hold
    | attempt hins =>
      obtain ⟨-, T, -, rfl⟩ := Ledger.insertAttempt_eq_some.mp hins
      exact absurd hr hold
    | receipt hins =>
      obtain ⟨-, T, -, rfl⟩ := Ledger.insertReceipt_eq_some.mp hins
      exact absurd hr hold
    | retryRequest hins =>
      obtain ⟨-, T, -, rfl⟩ := Ledger.insertRetryRequest_eq_some.mp hins
      exact absurd hr hold
    | consumedEvent hins =>
      obtain ⟨-, T, -, rfl⟩ := Ledger.insertConsumedEvent_eq_some.mp hins
      exact absurd hr hold
    | update hframe =>
      rw [hframe] at hr
      exact absurd hr hold

end Transactions

/-! ## The observation of a command

Three kinds of commands apply an envelope; the envelope is a function of the command, and for an
answer of the call as well. -/

namespace System

variable {S : Setting} {s s' : System} {command : Command} {reply : Reply}
  {event : ObservationEnvelope}

/-- The envelope a command has the applier record. -/
def observation? (S : Setting) (s : System) : Command → Option ObservationEnvelope
  | .observeReceipt caller request => (Plugin.receiptEnvelope S caller request).toOption
  | .observeInvitationLifecycle caller request =>
    (Plugin.lifecycleEnvelope S caller request).toOption
  | .advance call (.answered result) =>
    match s.calls[call]? with
    | some (.dispatch now (.awaiting work)) =>
      some (Plugin.dispatchEnvelope S work.claim (Plugin.observedOf S work.claim now result))
    | _ => none
  | _ => none

theorem observation?_observeReceipt {caller : Option String} {request : ObserveReceiptRequest} :
    s.observation? S (.observeReceipt caller request) = some event ↔
      Plugin.receiptEnvelope S caller request = .ok event := toOption_eq_some

theorem observation?_observeInvitationLifecycle {caller : Option String}
    {request : ObserveInvitationLifecycleRequest} :
    s.observation? S (.observeInvitationLifecycle caller request) = some event ↔
      Plugin.lifecycleEnvelope S caller request = .ok event := toOption_eq_some

/-- A transaction that a command issues as an observation is the command's observation. -/
theorem observation?_of_issues (h : Issues S s command reply (.observe event)) :
    s.observation? S command = some event := by
  cases h with
  | answer hc =>
    rw [observation?, hc]
  | receipt henvelope => exact observation?_observeReceipt.mpr henvelope
  | lifecycle henvelope => exact observation?_observeInvitationLifecycle.mpr henvelope

/-- **A command with an observation** applies it, or leaves the ledger as it was. -/
theorem of_observation? (hstep : (system S).Step s (command, reply) s')
    (hevent : s.observation? S command = some event) :
    Events.apply S.externals s.ledger event = .ok s'.ledger ∨
      (s'.ledger = s.ledger ∧ ∃ e, Events.apply S.externals s.ledger event = .error e) := by
  cases stepped_of_exec hstep with
  | createRefused | createStarted | dispatchRefused | dispatchStarted | retryRefused
  | retryScheduled | abandoned => cases hevent
  | receiptRefused h =>
    have henvelope := observation?_observeReceipt.mp hevent
    cases happly : Events.apply S.externals s.ledger event with
    | error e => exact Or.inr ⟨rfl, e, rfl⟩
    | ok L =>
      rw [Plugin.observeReceipt_eq_ok.mpr ⟨event, henvelope, happly⟩] at h
      cases h
  | receiptRecorded henvelope h =>
    cases henvelope.symm.trans (observation?_observeReceipt.mp hevent)
    exact Or.inl h
  | lifecycleRefused h =>
    have henvelope := observation?_observeInvitationLifecycle.mp hevent
    rw [Plugin.observeInvitationLifecycle, henvelope, ok_bind] at h
    cases happly : Events.apply S.externals s.ledger event with
    | error e => exact Or.inr ⟨rfl, e, rfl⟩
    | ok L =>
      rw [happly] at h
      cases h
  | lifecycleRecorded henvelope h =>
    cases henvelope.symm.trans (observation?_observeInvitationLifecycle.mp hevent)
    exact Or.inl h
  | advanced hc h =>
    cases h with
    | lost h =>
      rw [observation?, hc, Option.some_inj] at hevent
      subst hevent
      exact Or.inr ⟨rfl, _, h⟩
    | recorded h =>
      rw [observation?, hc, Option.some_inj] at hevent
      subst hevent
      exact Or.inl h
    | _ => cases hevent

end System

end NotificationLedger

import NotificationLedger.Resolution
import NotificationLedger.Receipts

/-!
# Cancelled invitations

A lifecycle observation finalizes the deliveries of its invitation that wait for an attempt, and
leaves every other delivery alone. Among those only one whose attempt is in flight can become due
again, by a temporary failure; the observation is not consulted then.

## After the observation

A cancelled delivery is final, and no step claims a final one. A delivery that matches the
observation and was not cancelled is accepted, final or in flight; the last of these is the
exception, and it needs the answer of its provider to become due again.
The run lemma keeps this disjunction along the steps, with the answer as a label of the run.
-/

namespace NotificationLedger

open Outcome

/-! ## What a lifecycle call does

The payload a lifecycle call builds carries the caller as its source and the invitation it was
given; so its effect is that of the handler with these two. -/

namespace Plugin

open Events

variable {S : Setting} {caller : Option String} {envelope : ObservationEnvelope}

/-- **A lifecycle call is admitted** as the observation it reports, under its caller's name. -/
theorem observationOf_lifecycleEnvelope {request : ObserveInvitationLifecycleRequest}
    (h : lifecycleEnvelope S caller request = .ok envelope) :
    ∃ source t, authorizedCaller caller S.config.transactionalCallers = some source ∧
      parseTime S request.observedAt = some t ∧ envelope.id = request.observationId ∧
      envelope.sourceModule = source ∧
      observationOf S.externals envelope = .ok (.lifecycle {
        invitationId := request.invitationId
        organizationId := request.organizationId
        observedAt := t }) := by
  obtain ⟨source, t, hcaller, -, htime, rfl⟩ := lifecycleEnvelope_eq_ok.mp h
  obtain ⟨-, hblank, hlength, -⟩ := of_validInstance (of_authorizedCaller S.config.valid.1 hcaller)
  refine ⟨source, t, hcaller, htime, rfl, rfl, observationOf_eq_ok.mpr ⟨⟨rfl, hblank, hlength⟩, ?_⟩⟩
  exact ⟨isLifecycleEvent_lifecycleEventName _, OrganizationInvitationLifecycle.decode_encode _ _⟩

end Plugin

/-! ## Deliveries that are never claimed again

Two properties of a single delivery that its course keeps: being accepted or final, and being that
or in flight. The second is left by a temporary failure only. -/

/-- The delivery was handed to the provider for the last time. -/
def Delivery.Settled (d : Delivery) : Prop := d.status = .accepted ∨ d.status.isFinal = true

theorem Delivery.Settled.not_isClaimable {d : Delivery} (h : d.Settled) :
    d.status.isClaimable = false := by
  rcases h with hs | hfinal
  · rw [hs]
    rfl
  · cases hs : d.status <;> rw [hs] at hfinal <;> first | rfl | cases hfinal

/-- No event takes a delivery back. -/
theorem Course.Step.settled {X : Externals} {c c' : Course} {e : Course.Event}
    (hstep : Course.Step X c e c') (h : c.delivery.Settled) : c'.delivery.Settled := by
  have hclaimable := h.not_isClaimable
  cases hstep with
  | claim hclaim | cancel hclaim =>
    rw [hclaim] at hclaimable
    cases hclaimable
  | resolve hattempting =>
    rcases h with hs | hfinal
    · cases hattempting.symm.trans hs
    · rw [hattempting] at hfinal
      cases hfinal
  | absorb => exact h
  | @settle d as payload a hopen =>
    refine Or.inr ?_
    rw [Delivery.afterReceipt_status]
    split <;> rfl
  | reschedule hscheduled =>
    rw [hscheduled] at hclaimable
    cases hclaimable

/-- The delivery waits for the provider, or for nothing that could make it due. -/
def Delivery.Idle (d : Delivery) : Prop := d.status = .attempting ∨ d.Settled

theorem Delivery.Idle.not_isClaimable {d : Delivery} (h : d.Idle) :
    d.status.isClaimable = false := by
  rcases h with hs | hsettled
  · rw [hs]
    rfl
  · exact hsettled.not_isClaimable

/-- Only a temporary failure makes an idle delivery due. -/
theorem Course.Step.idle {X : Externals} {c c' : Course} {e : Course.Event}
    (hstep : Course.Step X c e c') (h : c.delivery.Idle) :
    c'.delivery.Idle ∨ ∃ payload, e = .dispatchObserved payload ∧
      payload.outcome = .temporaryFailure ∧ ∃ a ∈ c.attempts, a.id = payload.attemptId := by
  rcases h with hs | hsettled
  · cases hstep with
    | claim hclaimable | cancel hclaimable =>
      rw [hs] at hclaimable
      cases hclaimable
    | @resolve d as payload a hattempting hrev ha hid =>
      by_cases houtcome : payload.outcome = .temporaryFailure
      · exact Or.inr ⟨payload, rfl, houtcome, a, ha, hid⟩
      · refine Or.inl (Or.inr ?_)
        unfold Delivery.Settled
        rw [Delivery.afterDispatch_status]
        generalize payload.outcome = outcome at houtcome
        cases outcome with
        | accepted => exact Or.inl rfl
        | temporaryFailure => exact absurd rfl houtcome
        | permanentFailure | deliveryUnknown => exact Or.inr rfl
    | absorb => exact Or.inl (Or.inl hs)
    | settle hopen =>
      refine Or.inl (Or.inr (Or.inr ?_))
      rw [Delivery.afterReceipt_status]
      split <;> rfl
    | reschedule hscheduled => cases hs.symm.trans hscheduled
  · exact Or.inl (Or.inr (hstep.settled hsettled))

/-! ## Runs

The properties are carried over to the ledger, where the event that leaves the second one becomes an
answer to a dispatch call about this delivery. -/

section Runs

variable {S : Setting} {s s' : System} {deliveryId : String}

/-- The ledger holds a delivery under this id, and it satisfies `P`. -/
def Ledger.HoldsDelivery (L : Ledger) (deliveryId : String) (P : Delivery → Prop) : Prop :=
  ∃ d, L.deliveries.get? deliveryId = some d ∧ P d

/-- The label reports a temporary failure of an attempt of this delivery. -/
def ReportsFailure (S : Setting) (deliveryId : String) (l : Command × Reply) : Prop :=
  ∃ i result claim now reply,
    l = (.advance i (.answered result), .dispatched claim reply) ∧ claim.deliveryId = deliveryId ∧
      (Plugin.observedOf S claim now result).outcome = .temporaryFailure

theorem Ledger.HoldsDelivery.settled (h : s.ledger.HoldsDelivery deliveryId Delivery.Settled)
    (hreach : (system S).Reachable s) {l : Command × Reply} (hstep : (system S).Step s l s') :
    s'.ledger.HoldsDelivery deliveryId Delivery.Settled := by
  obtain ⟨d, hd, hsettled⟩ := h
  have hcourse : s.ledger.course deliveryId = some ⟨d, s.ledger.attemptsOf deliveryId⟩ :=
    Ledger.course_eq_some.mpr ⟨hd, rfl⟩
  rcases course_of_step deliveryId hreach hstep with hsame | ⟨_, _, -, -, hmachine⟩
  · exact ⟨d, (Ledger.course_eq_some.mp (hsame.trans hcourse)).1, hsettled⟩
  · rw [hcourse] at hmachine
    generalize hafter : s'.ledger.course deliveryId = after at hmachine
    cases hmachine with
    | step hmove => exact ⟨_, (Ledger.course_eq_some.mp hafter).1, hmove.settled hsettled⟩

/-- An idle delivery stays idle over a step, or the step reports a temporary failure of it. -/
theorem Ledger.HoldsDelivery.idle (h : s.ledger.HoldsDelivery deliveryId Delivery.Idle)
    (hreach : (system S).Reachable s) {l : Command × Reply} (hstep : (system S).Step s l s') :
    s'.ledger.HoldsDelivery deliveryId Delivery.Idle ∨ ReportsFailure S deliveryId l := by
  obtain ⟨d, hd, hidle⟩ := h
  have hcourse : s.ledger.course deliveryId = some ⟨d, s.ledger.attemptsOf deliveryId⟩ :=
    Ledger.course_eq_some.mpr ⟨hd, rfl⟩
  rcases course_of_step deliveryId hreach hstep with hsame | ⟨t, e, hissues, hshows, hmachine⟩
  · exact Or.inl ⟨d, (Ledger.course_eq_some.mp (hsame.trans hcourse)).1, hidle⟩
  rw [hcourse] at hmachine
  generalize hafter : s'.ledger.course deliveryId = after at hmachine
  cases hmachine with
  | step hmove =>
    rcases hmove.idle hidle with hidle' | ⟨payload, rfl, houtcome, a, ha, hid⟩
    · exact Or.inl ⟨_, (Ledger.course_eq_some.mp hafter).1, hidle'⟩
    refine Or.inr ?_
    obtain ⟨command, reply⟩ := l
    cases hshows with
    | dispatch hfresh hpayload =>
      cases hissues with
      | receipt henvelope =>
        obtain ⟨_, _, -, h⟩ := Plugin.receipt_of_receiptEnvelope henvelope hpayload
        cases h
      | lifecycle henvelope =>
        obtain ⟨_, h⟩ := Plugin.lifecycle_of_lifecycleEnvelope henvelope hpayload
        cases h
      | @answer i now work result hc =>
        cases Plugin.dispatch_of_dispatchEnvelope hpayload
        refine ⟨i, result, work.claim, now, _, rfl, ?_, houtcome⟩
        -- the attempt of the claim belongs to the delivery of the claim
        obtain ⟨b, a', hrows, -, -⟩ := rows_of_work hreach (List.mem_of_getElem? hc) rfl
        obtain ⟨hb, ha', hab⟩ := Ledger.deliveryWithAttempt_eq_some.mp hrows
        obtain ⟨hamem, hadelivery⟩ := Ledger.mem_attemptsOf.mp ha
        have hattempt := (Plugin.observedOf_claim S work.claim now result).2.1
        have haa' : a = a' := Table.eq_of_key hamem (Table.get?_eq_some.mp ha').1
          (hid.trans (hattempt.trans (Table.get?_eq_some.mp ha').2.symm))
        rw [← (Table.get?_eq_some.mp hb).2, ← hadelivery, haa', hab]
        rfl

/-- A worker claims a delivery that waits for an attempt. -/
theorem claimable_of_claimed (hreach : (system S).Reachable s) {command : Command}
    {work : DispatchWork} (hstep : (system S).Step s (command, .claimed work) s') :
    ∃ d, s.ledger.deliveries.get? work.claim.deliveryId = some d ∧
      d.status.isClaimable = true := by
  cases System.stepped_of_exec hstep with
  | advanced hc hadvance =>
    cases hadvance with
    | @claimed now row L' work h =>
      obtain ⟨hget, hdue, -⟩ := System.holds_of_reachable hreach _ _ (List.mem_of_getElem? hc)
      have hclaimable := (Runtime.isDue_iff.mp hdue).1
      obtain ⟨-, -, -, hclaim, -⟩ := (Runtime.claimRow_eq_ok hget hclaimable).mp h
      rw [hclaim]
      exact ⟨row.delivery, hget, hclaimable⟩

/-- A settled delivery is never claimed again. -/
theorem not_claimed_of_settled {s₁ s₂ s₃ : System} {deliveryId : String}
    {ms : List (Command × Reply)} {command : Command} {work : DispatchWork}
    (hreach : (system S).Reachable s₁)
    (hsettled : s₁.ledger.HoldsDelivery deliveryId Delivery.Settled)
    (hrun : (system S).Run s₁ ms s₂) (hclaim : (system S).Step s₂ (command, .claimed work) s₃) :
    work.claim.deliveryId ≠ deliveryId := by
  intro hid
  obtain ⟨hreach₂, b, hb, hbsettled⟩ := hrun.preserves
    (I := fun t ↦ t.ledger.HoldsDelivery deliveryId Delivery.Settled)
    (fun _ _ _ ht hi hnext ↦ hi.settled ht hnext) hreach hsettled
  obtain ⟨b', hb', hclaimable⟩ := claimable_of_claimed hreach₂ hclaim
  rw [hid] at hb'
  cases hb.symm.trans hb'
  rw [hbsettled.not_isClaimable] at hclaimable
  cases hclaimable

end Runs

/-! ## The main result -/

/-- The delivery belongs to this invitation and was requested by the time of the observation. -/
structure Concerns (L : Ledger) (d : Delivery) (source invitationId : String)
    (observedAt : DateTime) : Prop where
  stored : d ∈ L.deliveries.rows
  intent : ∃ i, L.intents.get? d.intentId = some i ∧ i.sourceModule = source ∧
    i.sourceEntityType = "organization_invitation" ∧ i.sourceEntityId = invitationId ∧
    i.requestedAt ≤ observedAt.stored

/-- The step records a lifecycle observation under an id that was not used before. -/
structure RecordsLifecycle (S : Setting) (s : System) (l : Command × Reply) (source : String)
    (request : ObserveInvitationLifecycleRequest) (observedAt : DateTime) : Prop where
  label : ∃ caller, l = (.observeInvitationLifecycle caller request, .lifecycle (.ok ())) ∧
    authorizedCaller caller S.config.transactionalCallers = some source
  time : Plugin.parseTime S request.observedAt = some observedAt
  fresh : s.ledger.consumedEvents.get? request.observationId = none

section Main

variable {S : Setting} {s s' s₁ s₂ s₃ : System} {source : String} {l : Command × Reply}
  {request : ObserveInvitationLifecycleRequest} {observedAt : DateTime} {d : Delivery}

/-- The join behind a lifecycle statement, as a proposition. -/
theorem cancellable_iff {L : Ledger} {invitationId : String}
    (hd : d ∈ L.deliveries.rows) :
    Events.cancellable L invitationId source observedAt d = true ↔
      Concerns L d source invitationId observedAt ∧
        (d.status = .queued ∨ d.status = .retryScheduled) := by
  have hclaimable : d.status.isClaimable = true ↔
      d.status = .queued ∨ d.status = .retryScheduled := by
    cases d.status <;> decide
  rw [Events.cancellable, Bool.and_eq_true, hclaimable, and_comm]
  refine and_congr_left fun _ ↦ ?_
  rw [Option.any_eq_true]
  simp only [Bool.and_eq_true, decide_eq_true_eq, and_assoc]
  exact ⟨fun h ↦ ⟨hd, h⟩, fun h ↦ h.intent⟩

theorem Events.keeps_cancelled (event : ObservationEnvelope) : Keyed.Keeps (cancelled event) :=
  Delivery.keeps_finalized _ _ _

/-- What recording a lifecycle observation does to the tables of the deliveries. -/
structure CancelledBy (source invitationId : String) (observedAt : DateTime)
    (event : ObservationEnvelope) (L L' : Ledger) : Prop where
  deliveries : L'.deliveries =
    L.deliveries.update (Events.cancellable L invitationId source observedAt)
      (Events.cancelled event) (Events.keeps_cancelled event)
  intents : L'.intents = L.intents
  attempts : L'.attempts = L.attempts
  receipts : L'.receipts = L.receipts
  retryRequests : L'.retryRequests = L.retryRequests

/-- **What a lifecycle call does**: recorded, it cancels the deliveries it concerns; refused, or
answered as a replay, it changes nothing. -/
theorem effect_of_lifecycle {caller : Option String} {reply : Reply}
    (hcaller : authorizedCaller caller S.config.transactionalCallers = some source)
    (hstep : (system S).Step s (.observeInvitationLifecycle caller request, reply) s') :
    (∃ observedAt event, RecordsLifecycle S s (.observeInvitationLifecycle caller request, reply)
        source request observedAt ∧
      CancelledBy source request.invitationId observedAt event s.ledger s'.ledger) ∨
    (∀ observedAt, ¬RecordsLifecycle S s (.observeInvitationLifecycle caller request, reply) source
        request observedAt) ∧ s'.ledger = s.ledger := by
  cases System.stepped_of_exec hstep with
  | lifecycleRefused =>
    refine Or.inr ⟨fun observedAt hrecords ↦ ?_, rfl⟩
    obtain ⟨_, hlabel, -⟩ := hrecords.label
    cases hlabel
  | @lifecycleRecorded _ _ envelope L henvelope happly hlocks =>
    obtain ⟨source', t, hcaller', htime, hid, hsource, hadmitted⟩ :=
      Plugin.observationOf_lifecycleEnvelope henvelope
    cases hcaller.symm.trans hcaller'
    obtain ⟨o, ho, hrecord⟩ := Events.apply_eq_ok.mp happly
    cases hadmitted.symm.trans ho
    rw [Events.recordOnce_eq_ok, hid] at hrecord
    obtain ⟨-, ⟨c, hc, -, rfl⟩ | ⟨hfresh, L₁, hins, hobserve⟩⟩ := hrecord
    · refine Or.inr ⟨fun observedAt hrecords ↦ ?_, rfl⟩
      cases hc.symm.trans hrecords.fresh
    refine Or.inl ⟨t, envelope, ⟨⟨caller, rfl, hcaller⟩, htime, hfresh⟩, ?_⟩
    obtain ⟨-, T, -, rfl⟩ := Ledger.insertConsumedEvent_eq_some.mp hins
    obtain ⟨-, -, L₂, hins', rfl⟩ := Events.observeLifecycle_eq_ok.mp hobserve
    obtain ⟨-, U, -, rfl⟩ := Ledger.insertSourceLifecycleEvent_eq_some.mp hins'
    rw [← hsource]
    exact ⟨rfl, rfl, rfl, rfl, rfl⟩

/-- **After a lifecycle observation** the delivery is settled, unless its attempt is in flight; then
nothing has happened to it. -/
theorem holds_of_lifecycle (hrecords : RecordsLifecycle S s l source request observedAt)
    (hstep : (system S).Step s l s₁)
    (hconcerns : Concerns s.ledger d source request.invitationId observedAt) :
    s₁.ledger.HoldsDelivery d.id fun b ↦
      if d.status = .attempting then b.Idle else b.Settled := by
  obtain ⟨caller, rfl, hcaller⟩ := hrecords.label
  have hget : s.ledger.deliveries.get? d.id = some d := Table.get?_of_mem hconcerns.stored
  rcases effect_of_lifecycle hcaller hstep with ⟨t, event, hrecorded, hcancels⟩ | ⟨hnone, -⟩
  · cases hrecords.time.symm.trans hrecorded.time
    have hiff : Events.cancellable s.ledger request.invitationId source observedAt d = true ↔
        Concerns s.ledger d source request.invitationId observedAt ∧
          (d.status = .queued ∨ d.status = .retryScheduled) := cancellable_iff hconcerns.stored
    unfold Ledger.HoldsDelivery
    rw [hcancels.deliveries]
    by_cases hwaits : d.status = .queued ∨ d.status = .retryScheduled
    · -- the delivery waits for an attempt, so it is cancelled
      refine ⟨_, Table.get?_update_self (Events.keeps_cancelled event) hget
        (hiff.mpr ⟨hconcerns, hwaits⟩), ?_⟩
      split
      · exact Or.inr (Or.inr rfl)
      · exact Or.inr rfl
    · refine ⟨d, (Table.get?_update_of_not (Events.keeps_cancelled event) ?_).trans hget, ?_⟩
      · intro b hb
        cases hget.symm.trans hb
        exact Bool.eq_false_iff.mpr fun hc ↦ hwaits (hiff.mp hc).2
      · split
        · next hs => exact Or.inl hs
        · next hs =>
          unfold Delivery.Settled
          revert hs hwaits
          cases d.status <;> decide
  · exact absurd hrecords (hnone observedAt)

/-- **A cancelled invitation is not emailed again**, apart from a delivery whose attempt was in
flight when the observation was recorded and was then closed by a temporary failure. -/
theorem claimed_after_lifecycle {ms : List (Command × Reply)} {command : Command}
    {work : DispatchWork} (hreach : (system S).Reachable s)
    (hrecords : RecordsLifecycle S s l source request observedAt)
    (hstep : (system S).Step s l s₁)
    (hconcerns : Concerns s.ledger d source request.invitationId observedAt)
    (hrun : (system S).Run s₁ ms s₂) (hclaim : (system S).Step s₂ (command, .claimed work) s₃)
    (hid : work.claim.deliveryId = d.id) :
    d.status = .attempting ∧ ∃ m ∈ ms, ReportsFailure S d.id m := by
  have hreach₁ : (system S).Reachable s₁ := hreach.step hstep
  have hholds := holds_of_lifecycle hrecords hstep hconcerns
  by_cases hs : d.status = .attempting
  · refine ⟨hs, ?_⟩
    simp only [if_pos hs] at hholds
    by_contra hnone
    -- without a temporary failure the delivery is idle to the end
    have hidle : s₂.ledger.HoldsDelivery d.id Delivery.Idle := by
      clear hclaim
      induction hrun with
      | nil => exact hholds
      | @snoc ls m t u hrun hlast ih =>
        have hpre : ¬∃ m ∈ ls, ReportsFailure S d.id m :=
          fun ⟨m, hm, h⟩ ↦ hnone ⟨m, List.mem_append_left _ hm, h⟩
        rcases (ih hpre).idle (hreach₁.run hrun) hlast with hidle | hfailure
        · exact hidle
        · exact absurd ⟨m, by simp, hfailure⟩ hnone
    obtain ⟨b, hb, hclaimable⟩ := claimable_of_claimed (hreach₁.run hrun) hclaim
    obtain ⟨b', hb', hb'idle⟩ := hidle
    rw [hid] at hb
    cases hb.symm.trans hb'
    rw [hb'idle.not_isClaimable] at hclaimable
    cases hclaimable
  · simp only [if_neg hs] at hholds
    exact absurd hid (not_claimed_of_settled hreach₁ hholds hrun hclaim)

end Main

/-! ## The attempt in flight

The exception is real: the run records the revocation, the refusal and the claim of a second
attempt, in this order. -/

namespace Deployment

/-- The refusal of the attempt in flight, and the selection of its delivery an hour later. -/
def refusalAfterRevocation : List Command :=
  [.advance 1 (.answered refusal), .dispatchDue (some "jobs") oneHourLater, .advance 2 .proceed]

def isLifecycleRecorded : Reply → Bool
  | .lifecycle (.ok ()) => true
  | _ => false

def claimedWork? : Reply → Option DispatchWork
  | .claimed work => some work
  | _ => none

theorem eq_of_isLifecycleRecorded {reply : Reply} (h : isLifecycleRecorded reply = true) :
    reply = .lifecycle (.ok ()) := by
  unfold isLifecycleRecorded at h
  split at h
  · rfl
  · cases h

theorem eq_of_claimedWork? {reply : Reply} {work : DispatchWork}
    (h : claimedWork? reply = some work) : reply = .claimed work := by
  unfold claimedWork? at h
  split at h
  · cases h
    rfl
  · cases h

theorem exists_claim_after_revocation :
    ∃ s₁ ms s₂ work s₃,
      (system setting).Step awaiting (observeRevoked "o1", .lifecycle (.ok ())) s₁ ∧
      (system setting).Run s₁ ms s₂ ∧
      (system setting).Step s₂ (.advance 2 .proceed, .claimed work) s₃ ∧
      work.claim.deliveryId = delivery.id := by
  have hall : ((awaiting.exec setting (observeRevoked "o1")).any fun p : System × Reply ↦
      isLifecycleRecorded p.2 && (p.1.execAll setting refusalAfterRevocation).any
        fun q : System × List Reply ↦ (q.1.exec setting (.advance 2 .proceed)).any
          fun r : System × Reply ↦ (claimedWork? r.2).any
            fun work : DispatchWork ↦ decide (work.claim.deliveryId = delivery.id)) = true := by
    decide +kernel
  obtain ⟨⟨s₁, reply₁⟩, hfirst, hrest⟩ := (Option.any_eq_true _ _).mp hall
  rw [Bool.and_eq_true] at hrest
  obtain ⟨hrecorded, hrest⟩ := hrest
  obtain ⟨⟨s₂, replies⟩, hbetween, hrest⟩ := (Option.any_eq_true _ _).mp hrest
  obtain ⟨⟨s₃, reply₃⟩, hlast, hrest⟩ := (Option.any_eq_true _ _).mp hrest
  obtain ⟨work, hwork, hid⟩ := (Option.any_eq_true _ _).mp hrest
  refine ⟨s₁, _, s₂, work, s₃, ?_, run_of_execAll hbetween, ?_, of_decide_eq_true hid⟩
  · rw [← eq_of_isLifecycleRecorded hrecorded]
    exact hfirst
  · rw [← eq_of_claimedWork? hwork]
    exact hlast

theorem recordsLifecycle_revoked :
    ∃ request, request.invitationId = "i1" ∧
      RecordsLifecycle setting awaiting (observeRevoked "o1", .lifecycle (.ok ())) "org" request
        midnight :=
  ⟨_, rfl, ⟨_, rfl, by decide⟩, by decide, by decide⟩

theorem concerns_delivery : Concerns awaiting.ledger delivery "org" "i1" midnight :=
  ⟨List.mem_cons_self, intent, by decide, rfl, rfl, rfl, by decide⟩

end Deployment

/-- The invitation is revoked while its first attempt is in flight; the provider refuses that
attempt, and a worker claims the second. -/
theorem claimed_after_revocation :
    ∃ s l source request observedAt d s₁ ms s₂ command work s₃,
      (system Deployment.setting).Reachable s ∧
      RecordsLifecycle Deployment.setting s l source request observedAt ∧
      (system Deployment.setting).Step s l s₁ ∧
      Concerns s.ledger d source request.invitationId observedAt ∧
      (system Deployment.setting).Run s₁ ms s₂ ∧
      (system Deployment.setting).Step s₂ (command, .claimed work) s₃ ∧
      work.claim.deliveryId = d.id := by
  obtain ⟨s₁, ms, s₂, work, s₃, hfirst, hrun, hlast, hid⟩ :=
    Deployment.exists_claim_after_revocation
  obtain ⟨request, hinvitation, hrecords⟩ := Deployment.recordsLifecycle_revoked
  refine ⟨_, _, _, request, _, Deployment.delivery, s₁, ms, s₂, _, work, s₃,
    Deployment.reachable_awaiting, hrecords, hfirst, ?_, hrun, hlast, hid⟩
  rw [hinvitation]
  exact Deployment.concerns_delivery

/-- In that run the provider has refused the attempt after the revocation. -/
theorem claimed_after_lifecycle_revoked :
    ∃ s₁ ms s₂, (system Deployment.setting).Step Deployment.awaiting
        (Deployment.observeRevoked "o1", .lifecycle (.ok ())) s₁ ∧
      (system Deployment.setting).Run s₁ ms s₂ ∧
      ∃ m ∈ ms, ReportsFailure Deployment.setting Deployment.delivery.id m := by
  obtain ⟨s₁, ms, s₂, work, s₃, hfirst, hrun, hlast, hid⟩ :=
    Deployment.exists_claim_after_revocation
  obtain ⟨request, hinvitation, hrecords⟩ := Deployment.recordsLifecycle_revoked
  refine ⟨s₁, ms, s₂, hfirst, hrun, ?_⟩
  exact (claimed_after_lifecycle Deployment.reachable_awaiting hrecords hfirst
    (by rw [hinvitation]; exact Deployment.concerns_delivery) hrun hlast hid).2

end NotificationLedger

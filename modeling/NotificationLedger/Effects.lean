import NotificationLedger.Events

/-!
# What a recorded observation does

Exact characterisations of the handlers: when one succeeds, and the ledger it commits. The committed
ledger is described by three whole-ledger updates, `resolve`, `absorb` and `settle`, whose guards
mention a key only; the compare-and-set guards of the statements have been discharged. Later modules
reason from these equivalences and never unfold a handler.

## Three updates

A dispatch observation closes the attempt in flight (`resolve`), or fills what a receipt has left
open (`absorb`); a receipt rewrites the status of its attempt and finalizes the delivery (`settle`).
Each maps the rows of these tables, `absorb` those of the attempts only, and everything else a
handler inserts is a row with a key that was free. A later argument about a delivery looks at the
map, and one about evidence at the rows.
-/

namespace NotificationLedger

open Outcome

/-! ## The effect on a row

Which transformation applies is decided by the outcome, the kind and the status, and each keeps the
identifying columns. -/

def DispatchOutcome.attemptStatus : DispatchOutcome → AttemptStatus
  | .accepted => .accepted
  | .temporaryFailure => .temporaryFailure
  | .permanentFailure => .permanentFailure
  | .deliveryUnknown => .deliveryUnknown

def ReceiptKind.attemptStatus : ReceiptKind → AttemptStatus
  | .delivered => .accepted
  | .bounced | .rejected => .permanentFailure

/-- When the attempt after the current one may start. -/
def Delivery.nextAttempt (observedAt : DateTime) (d : Delivery) : Option DateTime :=
  { RetryPolicy.default with maxAttempts := d.maxAttempts : RetryPolicy }.nextAt d.attemptCount
    observedAt

/-- The delivery after the observation it was waiting for. -/
def Delivery.afterDispatch (payload : EmailDispatchObserved) (d : Delivery) : Delivery :=
  match payload.outcome with
  | .accepted => d.accepted payload.observedAt
  | .temporaryFailure =>
    match d.nextAttempt payload.observedAt with
    | some nextAt => d.retryScheduled (Events.retryAt payload nextAt) payload.observedAt
    | none => d.finalized .failed "retry_exhausted" payload.observedAt
  | .permanentFailure => d.finalized .failed "permanent_failure" payload.observedAt
  | .deliveryUnknown => d.finalized .deliveryUnknown "ambiguous_external_effect" payload.observedAt

/-- The delivery after a fresh receipt. -/
def Delivery.afterReceipt (payload : EmailReceiptObserved) (d : Delivery) : Delivery :=
  match payload.kind with
  | .delivered => d.delivered payload.observedAt
  | kind => d.finalized .failed kind.asStr payload.observedAt

/-- The attempt after the observation it was waiting for. -/
def Attempt.afterDispatch (payload : EmailDispatchObserved) : Attempt → Attempt :=
  Attempt.resolved payload payload.outcome.attemptStatus (payload.failure.map fun f ↦ f.code)

/-- The attempt after a fresh receipt. -/
def Attempt.afterReceipt (payload : EmailReceiptObserved) : Attempt → Attempt :=
  Attempt.receipted payload.kind.attemptStatus payload.observedAt

theorem Delivery.afterDispatch_identity (payload : EmailDispatchObserved) (d : Delivery) :
    (d.afterDispatch payload).identity = d.identity := by
  unfold Delivery.afterDispatch
  split
  · rfl
  · split <;> rfl
  · rfl
  · rfl

theorem Delivery.afterReceipt_identity (payload : EmailReceiptObserved) (d : Delivery) :
    (d.afterReceipt payload).identity = d.identity := by
  unfold Delivery.afterReceipt
  split <;> rfl

private theorem keeps_of_identity {f : Delivery → Delivery}
    (h : ∀ d, (f d).identity = d.identity) : Keyed.Keeps f := by
  intro d
  have hid : (f d).id = d.id := congrArg (fun i ↦ i.1) (h d)
  have hintent : (f d).intentId = d.intentId := congrArg (fun i ↦ i.2.1) (h d)
  refine ⟨hid, fun b ↦ ?_⟩
  change (f d).id = b.id ∨ (f d).intentId = b.intentId ↔ d.id = b.id ∨ d.intentId = b.intentId
  rw [hid, hintent]

theorem Delivery.keeps_afterDispatch (payload : EmailDispatchObserved) :
    Keyed.Keeps (Delivery.afterDispatch payload) :=
  keeps_of_identity (Delivery.afterDispatch_identity payload)

theorem Delivery.keeps_afterReceipt (payload : EmailReceiptObserved) :
    Keyed.Keeps (Delivery.afterReceipt payload) :=
  keeps_of_identity (Delivery.afterReceipt_identity payload)

/-! ## The effect on the ledger

The three updates, and the rows a handler inserts beside them. The join of a delivery with its
attempt is followed through each update, as later statements read it again. -/

namespace Ledger

variable (L : Ledger)

def resolve (payload : EmailDispatchObserved) : Ledger :=
  { L with
    attempts := L.attempts.update (fun a ↦ decide (a.id = payload.attemptId))
      (Attempt.afterDispatch payload) (Attempt.keeps_resolved payload _ _)
    deliveries := L.deliveries.update (fun d ↦ decide (d.id = payload.deliveryId))
      (Delivery.afterDispatch payload) (Delivery.keeps_afterDispatch payload) }

def absorb (payload : EmailDispatchObserved) : Ledger :=
  { L with
    attempts := L.attempts.update (fun a ↦ decide (a.id = payload.attemptId))
      (Attempt.absorbed payload) (Attempt.keeps_absorbed payload) }

def settle (payload : EmailReceiptObserved) : Ledger :=
  { L with
    attempts := L.attempts.update (fun a ↦ decide (a.id = payload.attemptId))
      (Attempt.afterReceipt payload) (Attempt.keeps_receipted _ _)
    deliveries := L.deliveries.update (fun d ↦ decide (d.id = payload.deliveryId))
      (Delivery.afterReceipt payload) (Delivery.keeps_afterReceipt payload) }

variable {L} {d : Delivery} {a : Attempt}

/-- The rows a dispatch observation resolved. -/
theorem deliveryWithAttempt_resolve (payload : EmailDispatchObserved)
    (h : L.deliveryWithAttempt payload.deliveryId payload.attemptId = some (d, a)) :
    (L.resolve payload).deliveryWithAttempt payload.deliveryId payload.attemptId =
      some (d.afterDispatch payload, a.afterDispatch payload) := by
  obtain ⟨hd, ha, had⟩ := deliveryWithAttempt_eq_some.mp h
  have hdid : d.id = payload.deliveryId := (Table.get?_eq_some.mp hd).2
  have haid : a.id = payload.attemptId := (Table.get?_eq_some.mp ha).2
  refine deliveryWithAttempt_eq_some.mpr ⟨?_, ?_, ?_⟩
  · exact Table.get?_update_self (Delivery.keeps_afterDispatch payload) hd (decide_eq_true hdid)
  · exact Table.get?_update_self (Attempt.keeps_resolved payload _ _) ha (decide_eq_true haid)
  · exact had.trans (congrArg Prod.fst (Delivery.afterDispatch_identity payload d)).symm

/-- The rows after an absorbed observation. -/
theorem deliveryWithAttempt_absorb (payload : EmailDispatchObserved)
    (h : L.deliveryWithAttempt payload.deliveryId payload.attemptId = some (d, a)) :
    (L.absorb payload).deliveryWithAttempt payload.deliveryId payload.attemptId =
      some (d, a.absorbed payload) := by
  obtain ⟨hd, ha, had⟩ := deliveryWithAttempt_eq_some.mp h
  have haid : a.id = payload.attemptId := (Table.get?_eq_some.mp ha).2
  refine deliveryWithAttempt_eq_some.mpr ⟨hd, ?_, had⟩
  exact Table.get?_update_self (Attempt.keeps_absorbed payload) ha (decide_eq_true haid)

/-- The rows a receipt settled. -/
theorem deliveryWithAttempt_settle (payload : EmailReceiptObserved)
    (h : L.deliveryWithAttempt payload.deliveryId payload.attemptId = some (d, a)) :
    (L.settle payload).deliveryWithAttempt payload.deliveryId payload.attemptId =
      some (d.afterReceipt payload, a.afterReceipt payload) := by
  obtain ⟨hd, ha, had⟩ := deliveryWithAttempt_eq_some.mp h
  have hdid : d.id = payload.deliveryId := (Table.get?_eq_some.mp hd).2
  have haid : a.id = payload.attemptId := (Table.get?_eq_some.mp ha).2
  refine deliveryWithAttempt_eq_some.mpr ⟨?_, ?_, ?_⟩
  · exact Table.get?_update_self (Delivery.keeps_afterReceipt payload) hd (decide_eq_true hdid)
  · exact Table.get?_update_self (Attempt.keeps_receipted _ _) ha (decide_eq_true haid)
  · exact had.trans (congrArg Prod.fst (Delivery.afterReceipt_identity payload d)).symm

end Ledger

namespace Events

variable (X : Externals)

/-- The automatic retry decision a temporary failure leaves. -/
def retryDecisionRow (event : ObservationEnvelope) (payload : EmailDispatchObserved)
    (d : Delivery) : RetryRequest :=
  match d.nextAttempt payload.observedAt with
  | some nextAt =>
    retryRow X payload.deliveryId d.revision event .automatic .scheduled
      (some "temporary_failure") (some (retryAt payload nextAt)) payload.observedAt
  | none =>
    retryRow X payload.deliveryId d.revision event .automatic .rejected (some "retry_exhausted")
      none payload.observedAt

/-- The receipt an accepted observation leaves. -/
def acceptedRow (payload : EmailDispatchObserved) (receipt : RemoteReceiptSummary) : Receipt :=
  receiptRow X payload.deliveryId payload.attemptId .accepted receipt.source receipt.remoteId
    receipt.digest payload.observedAt payload.observedAt

/-- The evidence row of an outcome, inserted last. -/
def insertEvidence (event : ObservationEnvelope) (payload : EmailDispatchObserved) (d : Delivery)
    (L : Ledger) : Option Ledger :=
  match payload.outcome, payload.remoteReceipt with
  | .accepted, some receipt => L.insertReceipt (acceptedRow X payload receipt)
  | .temporaryFailure, _ => L.insertRetryRequest (retryDecisionRow X event payload d)
  | _, _ => some L

/-- The row a receipt observation inserts. -/
def observedRow (event : ObservationEnvelope) (payload : EmailReceiptObserved) : Receipt :=
  receiptRow X payload.deliveryId payload.attemptId payload.kind.evidence payload.source
    payload.remoteId payload.digest payload.observedAt event.occurredAt

/-- The text parameters of the statement that resolves an attempt. -/
def resolveTexts (payload : EmailDispatchObserved) : List String :=
  updateTexts payload (payload.failure.map fun f ↦ f.code)

/-! ## Compare-and-set guards

A statement that demands the revision it has read changes exactly the row it has read, since the id
is a key. So its count is one, and the guard can be dropped from the update. -/

section Guards

variable {L : Ledger} {deliveryId : String} {d : Delivery} {statuses : List DeliveryStatus}

/-- On the stored rows a compare-and-set against the current row tests the key only. -/
theorem openAt_eq (hd : L.deliveries.get? deliveryId = some d)
    (hrev : d.revision < maxSafeWireInteger) (hstatus : d.status ∈ statuses) {b : Delivery}
    (hb : b ∈ L.deliveries.rows) :
    openAt deliveryId d.revision statuses b = decide (b.id = deliveryId) := by
  obtain ⟨hmem, hid⟩ := Table.get?_eq_some.mp hd
  by_cases hbid : b.id = deliveryId
  · have hbd : b = d := Table.eq_of_key hb hmem (hbid.trans hid.symm)
    subst hbd
    simp [openAt, hbid, hrev, hstatus]
  · simp [openAt, hbid]

theorem affected_openAt (hd : L.deliveries.get? deliveryId = some d)
    (hrev : d.revision < maxSafeWireInteger) (hstatus : d.status ∈ statuses) :
    L.deliveries.affected (openAt deliveryId d.revision statuses) = 1 := by
  have hkey : ∀ b : Delivery, openAt deliveryId d.revision statuses b = true →
      Keyed.key b = deliveryId := by
    intro b hb
    simp only [openAt, Bool.and_eq_true, decide_eq_true_eq] at hb
    exact hb.1.1.1
  refine (Table.affected_eq_one_iff hkey).mpr ⟨d, hd, ?_⟩
  rw [openAt_eq hd hrev hstatus (Table.get?_eq_some.mp hd).1, decide_eq_true_eq]
  exact (Table.get?_eq_some.mp hd).2

end Guards

/-! ## Dispatch observations

`Waiting` is the state a handler finds when it can record. Each equivalence runs through the
statements in the order of the source, and its right side names every check that is left. -/

section Dispatch

variable {X} {L L' : Ledger} {event : ObservationEnvelope} {payload : EmailDispatchObserved}
  {d : Delivery}

/-- What a dispatch observation finds when its delivery is waiting for it. -/
structure Waiting (L : Ledger) (payload : EmailDispatchObserved) (d : Delivery) (a : Attempt) :
    Prop where
  delivery : L.deliveries.get? payload.deliveryId = some d
  attempt : L.attempts.get? payload.attemptId = some a
  attemptOf : a.deliveryId = d.id
  attempting : d.status = .attempting
  dispatching : a.status = .dispatching
  revision : d.revision < maxSafeWireInteger

private theorem resolved_attempts {a : Attempt} (w : Waiting L payload d a) :
    L.attempts.update
        (fun b ↦ decide (b.id = payload.attemptId) && decide (b.status = .dispatching))
        (Attempt.resolved payload payload.outcome.attemptStatus
          (payload.failure.map fun f ↦ f.code)) (Attempt.keeps_resolved payload _ _) =
      (L.resolve payload).attempts := by
  refine Table.update_congr _ (Attempt.keeps_resolved payload _ _) fun b hb ↦ ?_
  by_cases hid : b.id = payload.attemptId
  · obtain ⟨ha, haid⟩ := Table.get?_eq_some.mp w.attempt
    have hba : b = a := Table.eq_of_key hb ha (hid.trans haid.symm)
    subst hba
    simp [hid, w.dispatching]
  · simp [hid]

private theorem resolved_deliveries {a : Attempt} (w : Waiting L payload d a)
    {statuses : List DeliveryStatus} (hstatus : .attempting ∈ statuses) {f : Delivery → Delivery}
    (hf : Keyed.Keeps f) (hfd : f d = d.afterDispatch payload) :
    L.deliveries.update (openAt payload.deliveryId d.revision statuses) f hf =
      (L.resolve payload).deliveries := by
  refine Table.update_congr _ (Delivery.keeps_afterDispatch payload) fun b hb ↦ ?_
  rw [openAt_eq w.delivery w.revision (w.attempting ▸ hstatus) hb]
  by_cases hid : b.id = payload.deliveryId
  · obtain ⟨hd, hdid⟩ := Table.get?_eq_some.mp w.delivery
    have hbd : b = d := Table.eq_of_key hb hd (hid.trans hdid.symm)
    subst hbd
    simp [hid, hfd]
  · simp [hid]

/-- Both updates of a branch together are `resolve`. -/
private theorem eq_resolve {a : Attempt} (w : Waiting L payload d a) {status : AttemptStatus}
    (hs : payload.outcome.attemptStatus = status) {statuses : List DeliveryStatus}
    (hstatus : .attempting ∈ statuses) {f : Delivery → Delivery} (hf : Keyed.Keeps f)
    (hfd : f d = d.afterDispatch payload) :
    ({ L with
      attempts := L.attempts.update
        (fun b ↦ decide (b.id = payload.attemptId) && decide (b.status = .dispatching))
        (Attempt.resolved payload status (payload.failure.map fun f ↦ f.code))
        (Attempt.keeps_resolved payload _ _)
      deliveries := L.deliveries.update (openAt payload.deliveryId d.revision statuses) f hf } :
        Ledger) = L.resolve payload := by
  subst hs
  rw [resolved_attempts w, resolved_deliveries w hstatus hf hfd]
  rfl

private theorem updateAttempt_bind_eq_ok {status : AttemptStatus} {code : Option String}
    {f : Ledger → NotificationResult Ledger} :
    (updateAttempt L payload status code >>= f) = .ok L' ↔
      Storable (updateTexts payload code) ∧
        f { L with
          attempts := L.attempts.update
            (fun a ↦ decide (a.id = payload.attemptId) && decide (a.status = .dispatching))
            (Attempt.resolved payload status code)
            (Attempt.keeps_resolved payload status code) } = .ok L' := by
  rw [updateAttempt, bindTexts, bind_assoc, ensure_bind_eq_ok, pure_bind]

theorem finalizeDelivery_eq {deliveryId reason : String} {status : DeliveryStatus} {t : DateTime}
    (hd : L.deliveries.get? deliveryId = some d) (hrev : d.revision < maxSafeWireInteger)
    (hstatus : d.status ∈ [.attempting, .accepted]) :
    finalizeDelivery L deliveryId d.revision status reason t =
      .ok { L with
        deliveries := L.deliveries.update
          (openAt deliveryId d.revision [.attempting, .accepted])
          (Delivery.finalized status reason t) (Delivery.keeps_finalized status reason t) } := by
  rw [finalizeDelivery, ensure_of (affected_openAt hd hrev hstatus)]
  rfl

variable {a : Attempt}

private theorem observeAccepted_eq_ok (w : Waiting L payload d a)
    (houtcome : payload.outcome = .accepted) :
    observeAccepted X L payload d = .ok L' ↔
      Storable (resolveTexts payload) ∧
        insertEvidence X event payload d (L.resolve payload) = some L' := by
  have hs : payload.outcome.attemptStatus = .accepted := by rw [houtcome]; rfl
  have heq := eq_resolve w hs (List.mem_singleton_self _)
    (Delivery.keeps_accepted payload.observedAt) (by rw [Delivery.afterDispatch, houtcome])
  rw [observeAccepted, updateAttempt_bind_eq_ok]
  refine and_congr_right fun _ ↦ ?_
  simp only [requireRevisionUpdate]
  rw [ensure_of (affected_openAt w.delivery w.revision (by simp [w.attempting])), ok_bind,
    insertEvidence, houtcome]
  simp only [heq]
  cases payload.remoteReceipt with
  | none => rw [pure_eq_ok, Option.some_inj]
  | some receipt => exact require_eq_ok

private theorem observeTerminal_eq_ok (w : Waiting L payload d a) {status : AttemptStatus}
    {final : DeliveryStatus} {reason : String} (hs : payload.outcome.attemptStatus = status)
    (hd : d.afterDispatch payload = d.finalized final reason payload.observedAt)
    (hevidence : ∀ L, insertEvidence X event payload d L = some L) :
    observeTerminal L payload d status final reason = .ok L' ↔
      Storable (resolveTexts payload) ∧
        insertEvidence X event payload d (L.resolve payload) = some L' := by
  have hwaiting : DeliveryStatus.attempting ∈ [.attempting, .accepted] := List.mem_cons_self
  have heq := eq_resolve w hs hwaiting (Delivery.keeps_finalized final reason payload.observedAt)
    hd.symm
  rw [observeTerminal, updateAttempt_bind_eq_ok]
  refine and_congr_right fun _ ↦ ?_
  rw [finalizeDelivery_eq ?_ w.revision (w.attempting ▸ hwaiting), hevidence]
  · simp only [heq, Except.ok.injEq, Option.some_inj]
  · exact w.delivery

private theorem observeTemporaryFailure_eq_ok (w : Waiting L payload d a)
    (houtcome : payload.outcome = .temporaryFailure) :
    observeTemporaryFailure X L event payload d = .ok L' ↔
      Storable (resolveTexts payload) ∧
        insertEvidence X event payload d (L.resolve payload) = some L' := by
  rw [observeTemporaryFailure, updateAttempt_bind_eq_ok]
  refine and_congr_right fun _ ↦ ?_
  have hs : payload.outcome.attemptStatus = .temporaryFailure := by rw [houtcome]; rfl
  have hnext : { RetryPolicy.default with maxAttempts := d.maxAttempts : RetryPolicy }.nextAt
      d.attemptCount payload.observedAt = d.nextAttempt payload.observedAt := rfl
  simp only [hnext, insertEvidence, houtcome, retryDecisionRow]
  cases hcase : d.nextAttempt payload.observedAt with
  | some nextAt =>
    have heq := eq_resolve w hs (List.mem_singleton_self _)
      (Delivery.keeps_retryScheduled (retryAt payload nextAt) payload.observedAt)
      (by rw [Delivery.afterDispatch, houtcome]; simp only [hcase])
    simp only
    rw [requireRevisionUpdate,
      ensure_of (affected_openAt w.delivery w.revision (by simp [w.attempting])), ok_bind]
    simp only [heq]
    exact require_eq_ok
  | none =>
    have hwaiting : DeliveryStatus.attempting ∈ [.attempting, .accepted] := List.mem_cons_self
    have heq := eq_resolve w hs hwaiting
      (Delivery.keeps_finalized .failed "retry_exhausted" payload.observedAt)
      (by rw [Delivery.afterDispatch, houtcome]; simp only [hcase])
    simp only
    rw [finalizeDelivery_eq ?_ w.revision (w.attempting ▸ hwaiting), ok_bind]
    · simp only [heq]
      exact require_eq_ok
    · exact w.delivery

/-- **The outcome match.** When the delivery is waiting, recording succeeds exactly when the texts
can be bound and the evidence row can be inserted. -/
theorem observeOutcome_eq_ok (w : Waiting L payload d a) :
    observeOutcome X L event payload d = .ok L' ↔
      Storable (resolveTexts payload) ∧
        insertEvidence X event payload d (L.resolve payload) = some L' := by
  unfold observeOutcome
  cases houtcome : payload.outcome with
  | accepted => exact observeAccepted_eq_ok w houtcome
  | temporaryFailure => exact observeTemporaryFailure_eq_ok w houtcome
  | permanentFailure =>
    refine observeTerminal_eq_ok w (by rw [houtcome]; rfl)
      (by rw [Delivery.afterDispatch, houtcome]) ?_
    intro L
    rw [insertEvidence, houtcome]
  | deliveryUnknown =>
    refine observeTerminal_eq_ok w (by rw [houtcome]; rfl)
      (by rw [Delivery.afterDispatch, houtcome]) ?_
    intro L
    rw [insertEvidence, houtcome]

theorem absorbLateDispatchObservation_eq_ok (ha : L.attempts.get? payload.attemptId = some a)
    (hrun : a.functionRunId = payload.functionRunId) :
    absorbLateDispatchObservation L payload = .ok L' ↔
      Storable (absorbTexts payload) ∧ L' = L.absorb payload := by
  have heq : L.attempts.update
      (fun b ↦ decide (b.id = payload.attemptId) &&
        decide (b.functionRunId = payload.functionRunId))
      (Attempt.absorbed payload) (Attempt.keeps_absorbed payload) =
        (L.absorb payload).attempts := by
    refine Table.update_congr _ (Attempt.keeps_absorbed payload) fun b hb ↦ ?_
    by_cases hid : b.id = payload.attemptId
    · obtain ⟨hmem, haid⟩ := Table.get?_eq_some.mp ha
      have hba : b = a := Table.eq_of_key hb hmem (hid.trans haid.symm)
      subst hba
      simp [hid, hrun]
    · simp [hid]
  rw [absorbLateDispatchObservation, bindTexts, ensure_bind_eq_ok, pure_eq_ok, heq,
    eq_comm (b := L')]
  rfl

/-- **Dispatch observations.** A recorded observation either is absorbed by a delivery that a
receipt finalized first, or resolves the delivery that was waiting for it. -/
theorem observeDispatch_eq_ok :
    observeDispatch X L event payload = .ok L' ↔
      Storable [payload.deliveryId, payload.attemptId] ∧
        ∃ d a, L.deliveryWithAttempt payload.deliveryId payload.attemptId = some (d, a) ∧
          a.functionRunId = payload.functionRunId ∧
          ((d.status ≠ .attempting ∧
              lateObservationIsCompatible d.status (hasReceipt L a.id) payload.outcome = true ∧
              Storable (absorbTexts payload) ∧ L' = L.absorb payload) ∨
            (d.status = .attempting ∧ a.status = .dispatching ∧
              d.revision < maxSafeWireInteger ∧ Storable (resolveTexts payload) ∧
              insertEvidence X event payload d (L.resolve payload) = some L')) := by
  rw [observeDispatch, bindTexts, ensure_bind_eq_ok]
  refine and_congr_right fun _ ↦ ?_
  rw [bind_eq_ok]
  simp only [require_eq_ok, Prod.exists, ensure_bind_eq_ok]
  refine exists_congr fun d ↦ exists_congr fun a ↦ and_congr_right fun hjoin ↦
    and_congr_right fun hrun ↦ ?_
  obtain ⟨hd, ha, had⟩ := Ledger.deliveryWithAttempt_eq_some.mp hjoin
  by_cases hwait : d.status = .attempting
  · rw [if_neg (not_not_intro hwait), ensure_bind_eq_ok, ensure_bind_eq_ok]
    constructor
    · rintro ⟨hdispatching, hrev, h⟩
      have w : Waiting L payload d a := ⟨hd, ha, had, hwait, hdispatching, hrev⟩
      exact Or.inr ⟨hwait, hdispatching, hrev, (observeOutcome_eq_ok w).mp h⟩
    · rintro (⟨hne, -⟩ | ⟨-, hdispatching, hrev, h⟩)
      · exact absurd hwait hne
      · have w : Waiting L payload d a := ⟨hd, ha, had, hwait, hdispatching, hrev⟩
        exact ⟨hdispatching, hrev, (observeOutcome_eq_ok w).mpr h⟩
  · rw [if_pos hwait]
    simp only [hwait, false_and, or_false, ne_eq, not_false_eq_true, true_and]
    split
    · next hlate =>
      rw [absorbLateDispatchObservation_eq_ok ha hrun]
      exact ⟨fun h ↦ ⟨hlate, h⟩, fun h ↦ h.2⟩
    · next hlate =>
      constructor
      · intro h
        cases h
      · rintro ⟨h, -⟩
        exact absurd h hlate

end Dispatch

/-! ## Receipts

A receipt is stored under its identity once, and a delivery is settled by one only while it is in
flight or accepted. The guards of the two updates repeat this status and the revision that was read.
-/

section Receipts

variable {X} {L L' : Ledger} {event : ObservationEnvelope} {payload : EmailReceiptObserved}
  {d : Delivery}

/-- The status updates of a fresh receipt always succeed once its checks have passed. -/
theorem settleReceipt_eq (hd : L.deliveries.get? payload.deliveryId = some d)
    (hstatus : d.status = .attempting ∨ d.status = .accepted)
    (hrev : d.revision < maxSafeWireInteger) :
    settleReceipt L payload d = .ok (L.settle payload) := by
  have hmem : d.status ∈ [DeliveryStatus.attempting, .accepted] := by simpa using hstatus
  have hrows : ∀ {f : Delivery → Delivery} (hf : Keyed.Keeps f),
      f d = d.afterReceipt payload →
      L.deliveries.update (openAt payload.deliveryId d.revision [.attempting, .accepted]) f hf =
        (L.settle payload).deliveries := by
    intro f hf hfd
    refine Table.update_congr _ (Delivery.keeps_afterReceipt payload) fun b hb ↦ ?_
    rw [openAt_eq hd hrev hmem hb]
    by_cases hid : b.id = payload.deliveryId
    · obtain ⟨hdmem, hdid⟩ := Table.get?_eq_some.mp hd
      have hbd : b = d := Table.eq_of_key hb hdmem (hid.trans hdid.symm)
      subst hbd
      simp [hid, hfd]
    · simp [hid]
  unfold settleReceipt
  cases hkind : payload.kind with
  | delivered =>
    simp only [requireRevisionUpdate]
    rw [ensure_of (affected_openAt hd hrev hmem), ok_bind,
      hrows _ (by rw [Delivery.afterReceipt, hkind])]
    simp only [Ledger.settle, Attempt.afterReceipt, hkind, ReceiptKind.attemptStatus]
    rfl
  | bounced | rejected =>
    simp only
    rw [finalizeDelivery_eq ?_ hrev hmem]
    · rw [hrows _ (by rw [Delivery.afterReceipt, hkind])]
      simp only [Ledger.settle, Attempt.afterReceipt, hkind, ReceiptKind.attemptStatus]
    · exact hd

/-- A receipt not known under its identity finds its delivery open. -/
structure Settles (L : Ledger) (payload : EmailReceiptObserved) (d : Delivery) (a : Attempt) :
    Prop where
  unknown : findReceipt L payload.source payload.remoteId payload.kind.evidence = none
  texts : Storable [payload.deliveryId, payload.attemptId]
  rows : L.deliveryWithAttempt payload.deliveryId payload.attemptId = some (d, a)
  run : a.functionRunId = payload.functionRunId
  opened : d.status = .attempting ∨ d.status = .accepted
  revision : d.revision < maxSafeWireInteger

/-- **Receipts.** A recorded receipt either was known under its identity, or is inserted and settles
its delivery. -/
theorem observeReceipt_eq_ok :
    observeReceipt X L event payload = .ok L' ↔
      Storable [payload.source, payload.remoteId] ∧
        ((∃ r, findReceipt L payload.source payload.remoteId payload.kind.evidence = some r ∧
            r.digest = payload.digest ∧ L' = L) ∨
          ∃ d a, Settles L payload d a ∧
            ∃ L₁, L.insertReceipt (observedRow X event payload) = some L₁ ∧
              L' = L₁.settle payload) := by
  rw [observeReceipt, bindTexts, ensure_bind_eq_ok]
  refine and_congr_right fun _ ↦ ?_
  cases hfind : findReceipt L payload.source payload.remoteId payload.kind.evidence with
  | some r =>
    simp only [ensure_bind_eq_ok, pure_eq_ok, Option.some_inj, exists_eq_left', eq_comm (a := L)]
    refine (or_iff_left ?_).symm
    rintro ⟨d, a, hsettles, -⟩
    exact Option.some_ne_none r (hfind.symm.trans hsettles.unknown)
  | none =>
    simp only [bindTexts, ensure_bind_eq_ok, reduceCtorEq, false_and, exists_false, false_or]
    rw [bind_eq_ok]
    simp only [require_eq_ok, Prod.exists, ensure_bind_eq_ok]
    simp only [bind_eq_ok, insertReceipt, require_eq_ok]
    have hcommit : ∀ {d : Delivery} {a : Attempt}, Settles L payload d a → ∀ L₁,
        L.insertReceipt (observedRow X event payload) = some L₁ →
          settleReceipt L₁ payload d = .ok (L₁.settle payload) := by
      intro d a hsettles L₁ hins
      obtain ⟨hd, -, -⟩ := Ledger.deliveryWithAttempt_eq_some.mp hsettles.rows
      obtain ⟨-, T, -, rfl⟩ := Ledger.insertReceipt_eq_some.mp hins
      exact settleReceipt_eq hd hsettles.opened hsettles.revision
    constructor
    · rintro ⟨htexts, d, a, hrows, hrun, hopen, hrev, L₁, hins, hsettle⟩
      have hsettles : Settles L payload d a := ⟨hfind, htexts, hrows, hrun, hopen, hrev⟩
      rw [hcommit hsettles L₁ hins, Except.ok.injEq] at hsettle
      exact ⟨d, a, hsettles, L₁, hins, hsettle.symm⟩
    · rintro ⟨d, a, hsettles, L₁, hins, rfl⟩
      refine ⟨hsettles.texts, d, a, hsettles.rows, hsettles.run, hsettles.opened,
        hsettles.revision, L₁, hins, hcommit hsettles L₁ hins⟩

end Receipts

/-! ## Invitation lifecycle observations

The rows are selected before they are updated, and the bound on revisions is checked for all of them
first: one exhausted delivery refuses the whole observation. -/

section Lifecycle

variable {L L' : Ledger} {event : ObservationEnvelope} {payload : OrganizationInvitationLifecycle}

/-- The row a lifecycle observation inserts. -/
def lifecycleRow (event : ObservationEnvelope) (payload : OrganizationInvitationLifecycle) :
    SourceLifecycleEvent where
  eventId := event.id
  sourceModule := event.sourceModule
  sourceEntityType := "organization_invitation"
  sourceEntityId := payload.invitationId
  lifecycle := lifecycleOf event.eventName
  observedAt := payload.observedAt.stored
  recordedAt := event.occurredAt.stored

/-- The cancelled delivery. -/
def cancelled (event : ObservationEnvelope) : Delivery → Delivery :=
  Delivery.finalized .failed ("source_invitation_" ++ (lifecycleOf event.eventName).asStr)
    event.occurredAt

/-- The deliveries one lifecycle observation cancels. -/
def cancels (L : Ledger) (event : ObservationEnvelope) (payload : OrganizationInvitationLifecycle)
    (d : Delivery) : Bool :=
  cancellable L payload.invitationId event.sourceModule payload.observedAt d

/-- **Lifecycle observations.** -/
theorem observeLifecycle_eq_ok :
    observeLifecycle L event payload = .ok L' ↔
      Storable [payload.invitationId, event.sourceModule] ∧
        (∀ d ∈ L.deliveries.rows, cancels L event payload d = true →
          d.revision < maxSafeWireInteger) ∧
        ∃ L₁, L.insertSourceLifecycleEvent (lifecycleRow event payload) = some L₁ ∧
          L' = { L₁ with
            deliveries := L.deliveries.update (cancels L event payload) (cancelled event)
              (Delivery.keeps_finalized _ _ _) } := by
  simp only [observeLifecycle, bindTexts]
  rw [ensure_bind_eq_ok]
  refine and_congr_right fun _ ↦ ?_
  rw [ensure_bind_eq_ok]
  refine and_congr_right fun hrev ↦ ?_
  rw [bind_eq_ok]
  refine exists_congr fun L₁ ↦ ?_
  rw [require_eq_ok]
  refine and_congr_right fun hins ↦ ?_
  obtain ⟨-, T, -, rfl⟩ := Ledger.insertSourceLifecycleEvent_eq_some.mp hins
  have hrows : L.deliveries.update
      (fun d ↦ cancellable L payload.invitationId event.sourceModule payload.observedAt d &&
        decide (d.revision < maxSafeWireInteger)) (cancelled event)
        (Delivery.keeps_finalized _ _ _) =
      L.deliveries.update (cancels L event payload) (cancelled event)
        (Delivery.keeps_finalized _ _ _) := by
    refine Table.update_congr _ _ fun b hb ↦ ?_
    by_cases hc : cancellable L payload.invitationId event.sourceModule payload.observedAt b = true
    · have hlt : b.revision < maxSafeWireInteger := hrev b hb hc
      simp [cancels, hc, hlt]
    · simp [cancels, hc]
  rw [pure_eq_ok, eq_comm, ← hrows]
  rfl

end Lifecycle

/-! ## The whole application

The claim of the id and the handler together. `Fresh` is what the claim needs, so a first
application is described without mentioning the statement that makes it. -/

section Apply

variable {X} {L L' : Ledger} {event : ObservationEnvelope}

/-- Claiming either inserts the id or finds it consumed by the same content. -/
theorem recordOnce_eq_ok {t : DateTime} {record : Ledger → NotificationResult Ledger} :
    recordOnce X L event t record = .ok L' ↔
      Storable [event.id, event.eventName] ∧
        ((∃ c, L.consumedEvents.get? event.id = some c ∧
            c.eventDigest = eventDigest X event ∧ L' = L) ∨
          (L.consumedEvents.get? event.id = none ∧
            ∃ L₁, L.insertConsumedEvent (consumedRow X event t) = some L₁ ∧
              record L₁ = .ok L')) := by
  rw [recordOnce, claimEvent, bindTexts, bind_assoc, ensure_bind_eq_ok]
  refine and_congr_right fun _ ↦ ?_
  cases hget : L.consumedEvents.get? event.id with
  | some c =>
    simp only [bind_assoc, ensure_bind_eq_ok, pure_bind, if_true, pure_eq_ok, Option.some_inj,
      exists_eq_left', reduceCtorEq, false_and, or_false, eq_comm (a := L)]
  | none =>
    simp only [bind_assoc, pure_bind, Bool.false_eq_true, if_false, reduceCtorEq, false_and,
      exists_false, false_or, true_and]
    rw [bind_eq_ok]
    simp only [require_eq_ok]

/-- An id that was not consumed can be consumed. -/
theorem exists_insertConsumedEvent {t : DateTime} (htexts : Storable [event.id, event.eventName])
    (hfresh : L.consumedEvents.get? event.id = none) :
    ∃ T, L.consumedEvents.insert? (consumedRow X event t) = some T ∧
      L.insertConsumedEvent (consumedRow X event t) = some { L with consumedEvents := T } := by
  have hunique : ∀ c ∈ L.consumedEvents.rows, ¬Keyed.Clash c (consumedRow X event t) :=
    Table.get?_eq_none.mp hfresh
  obtain ⟨T, hT⟩ := Table.exists_insert? hunique
  have hdigest : isDigest (eventDigest X event) = true := isDigest_digestText X _
  have hconforms : (consumedRow X event t).Conforms := by
    refine ⟨?_, hdigest⟩
    obtain ⟨hid, hname⟩ := Storable.cons_iff.mp htexts
    refine Storable.cons_iff.mpr ⟨hid, Storable.cons_iff.mpr ⟨(Storable.cons_iff.mp hname).1, ?_⟩⟩
    exact Storable.cons_iff.mpr ⟨storable_of_isDigest hdigest, by simp [Storable]⟩
  exact ⟨T, hT, Ledger.insertConsumedEvent_eq_some.mpr ⟨hconforms, T, hT, rfl⟩⟩

/-- A receipt whose recording settles delivery `d` by its attempt `a`. -/
structure Fresh (X : Externals) (L : Ledger) (event : ObservationEnvelope)
    (payload : EmailReceiptObserved) (d : Delivery) (a : Attempt) : Prop where
  admitted : observationOf X event = .ok (.receipt payload)
  unconsumed : L.consumedEvents.get? event.id = none
  texts : Storable [event.id, payload.source, payload.remoteId]
  settles : Settles L payload d a
  identity : ∀ r ∈ L.receipts.rows, r.id ≠ (observedRow X event payload).id

/-- **Application.** -/
theorem apply_eq_ok :
    apply X L event = .ok L' ↔
      ∃ observation, observationOf X event = .ok observation ∧
        recordOnce X L event observation.observedAt
          (fun L ↦ observation.observe X L event) = .ok L' := by
  rw [apply_eq, bind_eq_ok]

end Apply

end Events

end NotificationLedger

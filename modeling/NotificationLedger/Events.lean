import NotificationLedger.Ledger

/-!
# The observation applier

`apply` admits an observation envelope and records it in one transaction. A function here takes the
ledger the transaction sees and returns the ledger it would commit; an error is a rollback, so the
caller keeps the ledger it had.

Every handler has the same outline: the envelope is validated without touching storage
(`observationOf`), its id is claimed (`claimEvent`), and unless the id was already consumed the
observation is recorded (`Observation.observe`). `apply_eq` states this outline once for all three.

## Transactions as functions

A statement that finds no row to change, or breaks a constraint, ends the transaction, so each
handler is a chain of fallible steps, the statements in the order of the source. The claim of the id
is written before anything else and is undone with the rest: a refused observation has consumed
nothing, and a repeated one stops at its own row before the handler is reached.

The updates keep their guards, also those the tests in front of them imply. That a guard holds where
the source relies on it is proved where the effect of a handler is characterised.
-/

namespace NotificationLedger

open Outcome

/-! ## Row transformations

What each `UPDATE` of this file does to one row. -/

namespace Attempt

variable (payload : EmailDispatchObserved)

/-- The `UPDATE` of `update_attempt`. -/
def resolved (status : AttemptStatus) (failureCode : Option String) (a : Attempt) : Attempt :=
  { a with
    status := status
    provider := some (bounded payload.provider 160)
    remoteReceiptId := payload.remoteReceipt.map fun r ↦ bounded r.remoteId 320
    remoteReceiptSource := payload.remoteReceipt.map fun r ↦ bounded r.source 160
    remoteReceiptDigest := payload.remoteReceipt.map fun r ↦ r.digest
    failureCode := failureCode.map fun code ↦ bounded code 160
    failureClassification := payload.failure.map fun f ↦ bounded f.classification 160
    completedAt := some payload.observedAt.stored }

/-- The `UPDATE` of `absorb_late_dispatch_observation`: fills what is still null. -/
def absorbed (a : Attempt) : Attempt :=
  { a with
    provider := a.provider.or (some (bounded payload.provider 160))
    remoteReceiptId :=
      a.remoteReceiptId.or (payload.remoteReceipt.map fun r ↦ bounded r.remoteId 320)
    remoteReceiptSource :=
      a.remoteReceiptSource.or (payload.remoteReceipt.map fun r ↦ bounded r.source 160)
    remoteReceiptDigest := a.remoteReceiptDigest.or (payload.remoteReceipt.map fun r ↦ r.digest)
    failureCode := a.failureCode.or (payload.failure.map fun f ↦ bounded f.code 160)
    failureClassification :=
      a.failureClassification.or (payload.failure.map fun f ↦ bounded f.classification 160)
    completedAt := a.completedAt.or (some payload.observedAt.stored) }

/-- The `UPDATE` a receipt issues on its attempt. -/
def receipted (status : AttemptStatus) (observedAt : DateTime) (a : Attempt) : Attempt :=
  { a with
    status := status
    completedAt := a.completedAt.or (some observedAt.stored) }

theorem keeps_resolved (status : AttemptStatus) (failureCode : Option String) :
    Keyed.Keeps (resolved payload status failureCode) := fun _ ↦ ⟨rfl, fun _ ↦ Iff.rfl⟩

theorem keeps_absorbed : Keyed.Keeps (absorbed payload) := fun _ ↦ ⟨rfl, fun _ ↦ Iff.rfl⟩

theorem keeps_receipted (status : AttemptStatus) (observedAt : DateTime) :
    Keyed.Keeps (receipted status observedAt) := fun _ ↦ ⟨rfl, fun _ ↦ Iff.rfl⟩

end Attempt

namespace Delivery

/-- An accepted dispatch observation. -/
def accepted (observedAt : DateTime) (d : Delivery) : Delivery :=
  { d with
    status := .accepted
    revision := d.revision + 1
    acceptedAt := some observedAt.stored
    updatedAt := observedAt.stored }

/-- A temporary failure with attempts left. -/
def retryScheduled (nextAt observedAt : DateTime) (d : Delivery) : Delivery :=
  { d with
    status := .retryScheduled
    revision := d.revision + 1
    nextAttemptAt := some nextAt.stored
    updatedAt := observedAt.stored }

/-- The `UPDATE` of `finalize_delivery`, and of a lifecycle cancellation. -/
def finalized (status : DeliveryStatus) (reason : String) (now : DateTime) (d : Delivery) :
    Delivery :=
  { d with
    status := status
    revision := d.revision + 1
    nextAttemptAt := none
    finalAt := some now.stored
    finalReason := some reason
    updatedAt := now.stored }

/-- An authoritative delivery receipt. -/
def delivered (observedAt : DateTime) (d : Delivery) : Delivery :=
  { d with
    status := .delivered
    revision := d.revision + 1
    acceptedAt := d.acceptedAt.or (some observedAt.stored)
    deliveredAt := some observedAt.stored
    finalAt := some observedAt.stored
    finalReason := some "authoritative_delivery_receipt"
    updatedAt := observedAt.stored }

theorem keeps_accepted (t : DateTime) : Keyed.Keeps (accepted t) := fun _ ↦ ⟨rfl, fun _ ↦ Iff.rfl⟩

theorem keeps_retryScheduled (next t : DateTime) : Keyed.Keeps (retryScheduled next t) :=
  fun _ ↦ ⟨rfl, fun _ ↦ Iff.rfl⟩

theorem keeps_finalized (status : DeliveryStatus) (reason : String) (t : DateTime) :
    Keyed.Keeps (finalized status reason t) := fun _ ↦ ⟨rfl, fun _ ↦ Iff.rfl⟩

theorem keeps_delivered (t : DateTime) : Keyed.Keeps (delivered t) :=
  fun _ ↦ ⟨rfl, fun _ ↦ Iff.rfl⟩

end Delivery

/-- Private idempotency envelope for observations admitted through a typed Capability. -/
structure ObservationEnvelope where
  id : String
  eventName : String
  eventVersion : ℤ
  sourceModule : String
  aggregateId : String
  occurredAt : DateTime
  payload : Json

namespace Events

variable (X : Externals)

/-! ## Errors and parameters -/

def mapSqlError : NotificationError :=
  ⟨.internal, "Notification Event storage operation failed"⟩

def revisionExhausted : NotificationError :=
  ⟨.conflict, "Notification delivery revision exhausted the portable wire range"⟩

/-- Binding the text parameters of a statement. -/
def bindTexts (texts : List String) : NotificationResult Unit :=
  ensure (Storable texts) mapSqlError

def requireRevisionUpdate (rowsAffected : ℕ) : NotificationResult Unit :=
  ensure (rowsAffected = 1) revisionExhausted

/-! ## Validation -/

def validateEventContract (expectedEventName : String) (event : ObservationEnvelope) :
    NotificationResult Unit :=
  ensure
    (event.eventName = expectedEventName ∧ event.eventVersion = 1 ∧
      isBlank event.sourceModule = false ∧ event.sourceModule.length ≤ 160)
    ⟨.validation, "Notification received an undeclared Event contract"⟩

def validateEventSource (event : ObservationEnvelope) (expectedSourceModule : String) :
    NotificationResult Unit :=
  ensure (event.sourceModule = expectedSourceModule)
    ⟨.validation, "Notification Event source does not match its authorized producer"⟩

def decodePayload {α : Type} (decode : Json → Option α) (event : ObservationEnvelope) :
    NotificationResult α :=
  require (decode event.payload) ⟨.validation, "Notification Event payload is invalid"⟩

def validateDigest (value : String) : NotificationResult Unit :=
  ensure (isDigest value = true) ⟨.validation, "Email evidence digest is invalid"⟩

def validFailure (failure : SanitizedFailure) (classification : String) : Bool :=
  !isBlank failure.code && decide (failure.code.length ≤ 160) &&
    !isBlank failure.classification && decide (failure.classification.length ≤ 160) &&
    decide (failure.classification = classification)

/-- One step of the loop over the bounded id fields. -/
def validateDispatchField (field value : String) (limit : ℕ) : NotificationResult Unit :=
  ensure (isBlank value = false ∧ value.length ≤ limit)
    ⟨.validation, "Email dispatch observation " ++ field ++ " is invalid"⟩

def validateRemoteReceipt (receipt : RemoteReceiptSummary) : NotificationResult Unit := do
  validateDigest receipt.digest
  ensure
    (isBlank receipt.remoteId = false ∧ receipt.remoteId.length ≤ 320 ∧
      isBlank receipt.source = false ∧ receipt.source.length ≤ 160)
    ⟨.validation, "Email remote receipt metadata is invalid"⟩

/-- The cross-field contract of an outcome. -/
def validShape (payload : EmailDispatchObserved) : Bool :=
  match payload.outcome with
  | .accepted => payload.failure.isNone
  | .temporaryFailure =>
    payload.remoteReceipt.isNone && payload.failure.any fun failure ↦
      validFailure failure "temporary_failure" &&
        failure.retryAfterMs.all fun delay ↦ decide (delay.toNat ≤ 86400000)
  | .permanentFailure =>
    payload.remoteReceipt.isNone && payload.failure.any fun failure ↦
      validFailure failure "permanent_failure" && failure.retryAfterMs.isNone
  | .deliveryUnknown =>
    payload.remoteReceipt.isNone && payload.failure.any fun failure ↦
      validFailure failure "delivery_unknown" && failure.retryAfterMs.isNone

def validateDispatchObservation (payload : EmailDispatchObserved) : NotificationResult Unit := do
  validateDispatchField "provider" payload.provider 160
  validateDispatchField "deliveryId" payload.deliveryId 160
  validateDispatchField "attemptId" payload.attemptId 160
  validateDispatchField "functionRunId" payload.functionRunId 160
  match payload.remoteReceipt with
  | some receipt => validateRemoteReceipt receipt
  | none => pure ()
  ensure (validShape payload = true)
    ⟨.validation, "Email dispatch outcome metadata is inconsistent"⟩

def validateReceipt (payload : EmailReceiptObserved) : NotificationResult Unit := do
  validateDigest payload.digest
  ensure
    (payload.remoteId ≠ "" ∧ payload.remoteId.length ≤ 320 ∧ payload.source ≠ "" ∧
      payload.source.length ≤ 160)
    ⟨.validation, "Email receipt identity is invalid"⟩

/-! ## Claiming the observation id -/

/-- What `event_digest` hashes; the time of occurrence is not part of it. -/
def digestInput (event : ObservationEnvelope) : Json :=
  .obj
    [("id", .str event.id), ("name", .str event.eventName), ("version", .num event.eventVersion),
      ("source", .str event.sourceModule), ("aggregateId", .str event.aggregateId),
      ("payload", event.payload)]

def eventDigest (event : ObservationEnvelope) : String :=
  digestText X (X.jsonToVec (digestInput event))

def replayedWithDifferentContent : NotificationError :=
  ⟨.conflict, "Notification Event id was replayed with different content"⟩

/-- The row `claim_event` inserts. -/
def consumedRow (event : ObservationEnvelope) (consumedAt : DateTime) : ConsumedEvent where
  eventId := event.id
  eventName := event.eventName
  eventDigest := eventDigest X event
  consumedAt := consumedAt.stored

/-- Inserts the id, or reports that the same observation already consumed it. -/
def claimEvent (L : Ledger) (event : ObservationEnvelope) (consumedAt : DateTime) :
    NotificationResult (Ledger × Bool) := do
  bindTexts [event.id, event.eventName]
  match L.consumedEvents.get? event.id with
  | none =>
    let L ← require (L.insertConsumedEvent (consumedRow X event consumedAt)) mapSqlError
    pure (L, false)
  -- `on conflict (event_id) do nothing` returned no id, so the stored digest is compared
  | some existing => do
    ensure (existing.eventDigest = eventDigest X event) replayedWithDifferentContent
    pure (L, true)

/-! ## Statements shared by the handlers -/

/-- The text parameters of `update_attempt`. -/
def updateTexts (payload : EmailDispatchObserved) (failureCode : Option String) : List String :=
  payload.attemptId :: bounded payload.provider 160 ::
    (payload.remoteReceipt.toList.flatMap fun r ↦
      [bounded r.remoteId 320, bounded r.source 160, r.digest]) ++
    (failureCode.toList.map fun code ↦ bounded code 160) ++
    (payload.failure.toList.map fun f ↦ bounded f.classification 160)

def updateAttempt (L : Ledger) (payload : EmailDispatchObserved) (status : AttemptStatus)
    (failureCode : Option String) : NotificationResult Ledger := do
  bindTexts (updateTexts payload failureCode)
  pure { L with
    attempts := L.attempts.update
      (fun a ↦ decide (a.id = payload.attemptId) && decide (a.status = .dispatching))
      (Attempt.resolved payload status failureCode)
      (Attempt.keeps_resolved payload status failureCode) }

/-- The text parameters of `absorb_late_dispatch_observation`. -/
def absorbTexts (payload : EmailDispatchObserved) : List String :=
  payload.attemptId :: payload.functionRunId :: bounded payload.provider 160 ::
    (payload.remoteReceipt.toList.flatMap fun r ↦
      [bounded r.remoteId 320, bounded r.source 160, r.digest]) ++
    (payload.failure.toList.flatMap fun f ↦ [bounded f.code 160, bounded f.classification 160])

/-- A receipt can finalize the delivery before the causally earlier dispatch observation arrives:
the final state is preserved and only missing attempt metadata is filled. -/
def absorbLateDispatchObservation (L : Ledger) (payload : EmailDispatchObserved) :
    NotificationResult Ledger := do
  bindTexts (absorbTexts payload)
  pure { L with
    attempts := L.attempts.update
      (fun a ↦ decide (a.id = payload.attemptId) &&
        decide (a.functionRunId = payload.functionRunId))
      (Attempt.absorbed payload) (Attempt.keeps_absorbed payload) }

/-- The row `insert_receipt` inserts. -/
def receiptRow (deliveryId attemptId : String) (kind : EvidenceKind)
    (source remoteId digest : String) (observedAt recordedAt : DateTime) : Receipt where
  id := stableId X "ntf_rcp" (source ++ ":" ++ remoteId ++ ":" ++ kind.asStr)
  deliveryId := deliveryId
  attemptId := attemptId
  kind := kind
  source := bounded source 160
  remoteId := bounded remoteId 320
  digest := digest
  observedAt := observedAt.stored
  recordedAt := recordedAt.stored

def insertReceipt (L : Ledger) (deliveryId attemptId : String) (kind : EvidenceKind)
    (source remoteId digest : String) (observedAt recordedAt : DateTime) :
    NotificationResult Ledger :=
  require
    (L.insertReceipt
      (receiptRow X deliveryId attemptId kind source remoteId digest observedAt recordedAt))
    mapSqlError

/-- The row `insert_retry_decision` inserts. The automatic decision of an observation is keyed by
the observation's id. -/
def retryRow (deliveryId : String) (revision : ℕ) (event : ObservationEnvelope) (kind : RetryKind)
    (decision : RetryDecision) (reason : Option String) (scheduledAt : Option DateTime)
    (createdAt : DateTime) : RetryRequest where
  id := stableId X "ntf_rty" event.id
  deliveryId := deliveryId
  kind := kind
  requestedBy := none
  sourceRevision := revision
  idempotencyKey := event.id
  decision := decision
  reason := reason
  scheduledAt := scheduledAt.map DateTime.stored
  createdAt := createdAt.stored

def insertRetryDecision (L : Ledger) (deliveryId : String) (revision : ℕ)
    (event : ObservationEnvelope) (kind : RetryKind) (decision : RetryDecision)
    (reason : Option String) (scheduledAt : Option DateTime) (createdAt : DateTime) :
    NotificationResult Ledger :=
  require
    (L.insertRetryRequest
      (retryRow X deliveryId revision event kind decision reason scheduledAt createdAt))
    mapSqlError

/-- The rows a compare-and-set on an open delivery matches. -/
def openAt (deliveryId : String) (revision : ℕ) (statuses : List DeliveryStatus) (d : Delivery) :
    Bool :=
  decide (d.id = deliveryId) && decide (d.revision = revision) &&
    decide (d.revision < maxSafeWireInteger) && decide (d.status ∈ statuses)

def finalizeDelivery (L : Ledger) (deliveryId : String) (revision : ℕ) (status : DeliveryStatus)
    (reason : String) (now : DateTime) : NotificationResult Ledger := do
  let open? := openAt deliveryId revision [.attempting, .accepted]
  ensure (L.deliveries.affected open? = 1)
    ⟨.conflict, "Notification delivery changed before finalization"⟩
  pure { L with
    deliveries := L.deliveries.update open? (Delivery.finalized status reason now)
      (Delivery.keeps_finalized status reason now) }

/-! ## Dispatch observations -/

def lateObservationIsCompatible (deliveryStatus : DeliveryStatus) (hasReceipt : Bool)
    (outcome : DispatchOutcome) : Bool :=
  hasReceipt &&
    ((decide (deliveryStatus = .delivered) && decide (outcome = .accepted)) ||
      (decide (deliveryStatus = .failed) && decide (outcome = .permanentFailure)))

/-- The attempt has evidence of any kind. -/
def hasReceipt (L : Ledger) (attemptId : String) : Bool :=
  L.receipts.rows.any fun r ↦ decide (r.attemptId = attemptId)

/-- The time of the next attempt: the policy's delay, or the provider's own when it is later. -/
def retryAt (payload : EmailDispatchObserved) (nextAt : DateTime) : DateTime :=
  match payload.failure.bind fun failure ↦ failure.retryAfterMs with
  | some retryAfterMs =>
    let boundedMs : ℤ := min retryAfterMs.toNat 86400000
    max nextAt (payload.observedAt.addMilliseconds boundedMs)
  | none => nextAt

/-- The accepted branch. -/
def observeAccepted (L : Ledger) (payload : EmailDispatchObserved) (delivery : Delivery) :
    NotificationResult Ledger := do
  let L ← updateAttempt L payload .accepted (payload.failure.map fun f ↦ f.code)
  let open? := openAt payload.deliveryId delivery.revision [.attempting]
  requireRevisionUpdate (L.deliveries.affected open?)
  let L := { L with
    deliveries := L.deliveries.update open? (Delivery.accepted payload.observedAt)
      (Delivery.keeps_accepted payload.observedAt) }
  match payload.remoteReceipt with
  | some receipt =>
    insertReceipt X L payload.deliveryId payload.attemptId .accepted receipt.source
      receipt.remoteId receipt.digest payload.observedAt payload.observedAt
  | none => pure L

/-- The temporary-failure branch: the next attempt is scheduled, or the budget is exhausted. -/
def observeTemporaryFailure (L : Ledger) (event : ObservationEnvelope)
    (payload : EmailDispatchObserved) (delivery : Delivery) : NotificationResult Ledger := do
  let L ← updateAttempt L payload .temporaryFailure (payload.failure.map fun f ↦ f.code)
  let policy := { RetryPolicy.default with maxAttempts := delivery.maxAttempts }
  match policy.nextAt delivery.attemptCount payload.observedAt with
  | some nextAt => do
    let nextAt := retryAt payload nextAt
    let open? := openAt payload.deliveryId delivery.revision [.attempting]
    requireRevisionUpdate (L.deliveries.affected open?)
    let L := { L with
      deliveries := L.deliveries.update open? (Delivery.retryScheduled nextAt payload.observedAt)
        (Delivery.keeps_retryScheduled nextAt payload.observedAt) }
    insertRetryDecision X L payload.deliveryId delivery.revision event .automatic .scheduled
      (some "temporary_failure") (some nextAt) payload.observedAt
  | none => do
    let L ← finalizeDelivery L payload.deliveryId delivery.revision .failed "retry_exhausted"
      payload.observedAt
    insertRetryDecision X L payload.deliveryId delivery.revision event .automatic .rejected
      (some "retry_exhausted") none payload.observedAt

/-- The two terminal branches. -/
def observeTerminal (L : Ledger) (payload : EmailDispatchObserved) (delivery : Delivery)
    (attemptStatus : AttemptStatus) (status : DeliveryStatus) (reason : String) :
    NotificationResult Ledger := do
  let L ← updateAttempt L payload attemptStatus (payload.failure.map fun f ↦ f.code)
  finalizeDelivery L payload.deliveryId delivery.revision status reason payload.observedAt

/-- The `match` on the outcome of an observation the delivery is waiting for. -/
def observeOutcome (L : Ledger) (event : ObservationEnvelope) (payload : EmailDispatchObserved)
    (delivery : Delivery) : NotificationResult Ledger :=
  match payload.outcome with
  | .accepted => observeAccepted X L payload delivery
  | .temporaryFailure => observeTemporaryFailure X L event payload delivery
  | .permanentFailure =>
    observeTerminal L payload delivery .permanentFailure .failed "permanent_failure"
  | .deliveryUnknown =>
    observeTerminal L payload delivery .deliveryUnknown .deliveryUnknown
      "ambiguous_external_effect"

/-- `apply_dispatch_observation` after its id was claimed. -/
def observeDispatch (L : Ledger) (event : ObservationEnvelope) (payload : EmailDispatchObserved) :
    NotificationResult Ledger := do
  bindTexts [payload.deliveryId, payload.attemptId]
  let (delivery, attempt) ← require (L.deliveryWithAttempt payload.deliveryId payload.attemptId)
    ⟨.notFound, "Email dispatch observation does not match a Notification attempt"⟩
  ensure (attempt.functionRunId = payload.functionRunId)
    ⟨.conflict, "Email dispatch observation function run does not match"⟩
  if delivery.status ≠ .attempting then
    if lateObservationIsCompatible delivery.status (hasReceipt L attempt.id) payload.outcome then
      absorbLateDispatchObservation L payload
    else
      .error ⟨.conflict, "Notification delivery is not waiting for a dispatch observation"⟩
  else do
    ensure (attempt.status = .dispatching)
      ⟨.conflict, "Notification attempt already has a business observation"⟩
    ensure (delivery.revision < maxSafeWireInteger) revisionExhausted
    observeOutcome X L event payload delivery

/-! ## Receipts -/

/-- The status updates a fresh receipt makes. -/
def settleReceipt (L : Ledger) (payload : EmailReceiptObserved) (delivery : Delivery) :
    NotificationResult Ledger :=
  match payload.kind with
  | .delivered => do
    let L := { L with
      attempts := L.attempts.update (fun a ↦ decide (a.id = payload.attemptId))
        (Attempt.receipted .accepted payload.observedAt)
        (Attempt.keeps_receipted .accepted payload.observedAt) }
    let open? := openAt payload.deliveryId delivery.revision [.attempting, .accepted]
    requireRevisionUpdate (L.deliveries.affected open?)
    pure { L with
      deliveries := L.deliveries.update open? (Delivery.delivered payload.observedAt)
        (Delivery.keeps_delivered payload.observedAt) }
  | kind => do
    let L := { L with
      attempts := L.attempts.update (fun a ↦ decide (a.id = payload.attemptId))
        (Attempt.receipted .permanentFailure payload.observedAt)
        (Attempt.keeps_receipted .permanentFailure payload.observedAt) }
    finalizeDelivery L payload.deliveryId delivery.revision .failed kind.asStr payload.observedAt

/-- The stored receipt with the identity `(source, remote_id, kind)`. -/
def findReceipt (L : Ledger) (source remoteId : String) (kind : EvidenceKind) : Option Receipt :=
  L.receipts.rows.find? fun r ↦
    decide (r.source = source) && decide (r.remoteId = remoteId) && decide (r.kind = kind)

/-- `apply_receipt` after its id was claimed. -/
def observeReceipt (L : Ledger) (event : ObservationEnvelope) (payload : EmailReceiptObserved) :
    NotificationResult Ledger := do
  bindTexts [payload.source, payload.remoteId]
  match findReceipt L payload.source payload.remoteId payload.kind.evidence with
  -- only the digest of the stored receipt is compared
  | some existing => do
    ensure (existing.digest = payload.digest)
      ⟨.conflict, "Email receipt identity was replayed with a different digest"⟩
    pure L
  | none => do
    bindTexts [payload.deliveryId, payload.attemptId]
    let (delivery, attempt) ← require (L.deliveryWithAttempt payload.deliveryId payload.attemptId)
      ⟨.notFound, "Email receipt does not match a Notification attempt"⟩
    ensure (attempt.functionRunId = payload.functionRunId)
      ⟨.conflict, "Email receipt function run does not match"⟩
    ensure (delivery.status = .attempting ∨ delivery.status = .accepted)
      ⟨.conflict, "Email receipt would regress a terminal Notification delivery"⟩
    ensure (delivery.revision < maxSafeWireInteger) revisionExhausted
    let L ← insertReceipt X L payload.deliveryId payload.attemptId payload.kind.evidence
      payload.source payload.remoteId payload.digest payload.observedAt event.occurredAt
    settleReceipt L payload delivery

/-! ## Invitation lifecycle observations -/

/-- The event name decides the lifecycle; anything but the first two counts as revoked. -/
def lifecycleOf (eventName : String) : Lifecycle :=
  if eventName = organizationInvitationAcceptedEvent then .accepted
  else if eventName = organizationInvitationExpiredEvent then .expired
  else .revoked

/-- The join of `deliveries` with `intents` that both lifecycle statements select by. -/
def cancellable (L : Ledger) (invitationId sourceModule : String) (observedAt : DateTime)
    (d : Delivery) : Bool :=
  d.status.isClaimable && (L.intents.get? d.intentId).any fun intent ↦
    decide (intent.sourceModule = sourceModule) &&
      decide (intent.sourceEntityType = "organization_invitation") &&
      decide (intent.sourceEntityId = invitationId) &&
      decide (intent.requestedAt ≤ observedAt.stored)

/-- `apply_invitation_lifecycle` after its id was claimed. -/
def observeLifecycle (L : Ledger) (event : ObservationEnvelope)
    (payload : OrganizationInvitationLifecycle) : NotificationResult Ledger := do
  let lifecycle := lifecycleOf event.eventName
  let cancel? := cancellable L payload.invitationId event.sourceModule payload.observedAt
  bindTexts [payload.invitationId, event.sourceModule]
  ensure (∀ d ∈ L.deliveries.rows, cancel? d = true → d.revision < maxSafeWireInteger)
    revisionExhausted
  let L ← require
    (L.insertSourceLifecycleEvent
      { eventId := event.id
        sourceModule := event.sourceModule
        sourceEntityType := "organization_invitation"
        sourceEntityId := payload.invitationId
        lifecycle := lifecycle
        observedAt := payload.observedAt.stored
        recordedAt := event.occurredAt.stored })
    mapSqlError
  let reason := "source_invitation_" ++ lifecycle.asStr
  pure { L with
    deliveries := L.deliveries.update
      (fun d ↦ cancel? d && decide (d.revision < maxSafeWireInteger))
      (Delivery.finalized .failed reason event.occurredAt)
      (Delivery.keeps_finalized .failed reason event.occurredAt) }

/-! ## Handlers -/

/-- The outline of a handler: claim the id, then record unless it was already consumed. -/
def recordOnce (L : Ledger) (event : ObservationEnvelope) (consumedAt : DateTime)
    (record : Ledger → NotificationResult Ledger) : NotificationResult Ledger := do
  let (L, replayed) ← claimEvent X L event consumedAt
  if replayed then pure L else record L

def applyDispatchObservation (L : Ledger) (event : ObservationEnvelope)
    (payload : EmailDispatchObserved) : NotificationResult Ledger :=
  recordOnce X L event payload.observedAt fun L ↦ observeDispatch X L event payload

def applyReceipt (L : Ledger) (event : ObservationEnvelope) (payload : EmailReceiptObserved) :
    NotificationResult Ledger :=
  recordOnce X L event payload.observedAt fun L ↦ observeReceipt X L event payload

def applyInvitationLifecycle (L : Ledger) (event : ObservationEnvelope)
    (payload : OrganizationInvitationLifecycle) : NotificationResult Ledger :=
  recordOnce X L event payload.observedAt fun L ↦ observeLifecycle L event payload

def isLifecycleEvent (eventName : String) : Bool :=
  decide (eventName ∈ [organizationInvitationAcceptedEvent, organizationInvitationExpiredEvent,
    organizationInvitationRevokedEvent])

def applyFor (L : Ledger) (expectedEventName : String) (event : ObservationEnvelope) :
    NotificationResult Ledger := do
  validateEventContract expectedEventName event
  if expectedEventName = emailDispatchObservedEvent then do
    let payload ← decodePayload (EmailDispatchObserved.decode X) event
    validateEventSource event payload.provider
    validateDispatchObservation payload
    applyDispatchObservation X L event payload
  else if expectedEventName = emailReceiptObservedEvent then do
    let payload ← decodePayload (EmailReceiptObserved.decode X) event
    validateEventSource event payload.source
    validateReceipt payload
    applyReceipt X L event payload
  else if isLifecycleEvent expectedEventName then do
    let payload ← decodePayload (OrganizationInvitationLifecycle.decode X) event
    applyInvitationLifecycle X L event payload
  else .error ⟨.validation, "Notification Event handler is misconfigured"⟩

def apply (L : Ledger) (event : ObservationEnvelope) : NotificationResult Ledger :=
  applyFor X L event.eventName event

/-! ## The outline -/

/-- The decoded payload of an admitted envelope. -/
inductive Observation
  | dispatch (payload : EmailDispatchObserved)
  | receipt (payload : EmailReceiptObserved)
  | lifecycle (payload : OrganizationInvitationLifecycle)

def Observation.observedAt : Observation → DateTime
  | .dispatch payload => payload.observedAt
  | .receipt payload => payload.observedAt
  | .lifecycle payload => payload.observedAt

/-- Recording an observation whose id was just claimed. -/
def Observation.observe (L : Ledger) (event : ObservationEnvelope) :
    Observation → NotificationResult Ledger
  | .dispatch payload => observeDispatch X L event payload
  | .receipt payload => observeReceipt X L event payload
  | .lifecycle payload => observeLifecycle L event payload

/-- The part of `apply` that never reads the ledger. -/
def observationOf (event : ObservationEnvelope) : NotificationResult Observation := do
  validateEventContract event.eventName event
  if event.eventName = emailDispatchObservedEvent then do
    let payload ← decodePayload (EmailDispatchObserved.decode X) event
    validateEventSource event payload.provider
    validateDispatchObservation payload
    pure (.dispatch payload)
  else if event.eventName = emailReceiptObservedEvent then do
    let payload ← decodePayload (EmailReceiptObserved.decode X) event
    validateEventSource event payload.source
    validateReceipt payload
    pure (.receipt payload)
  else if isLifecycleEvent event.eventName then do
    let payload ← decodePayload (OrganizationInvitationLifecycle.decode X) event
    pure (.lifecycle payload)
  else .error ⟨.validation, "Notification Event handler is misconfigured"⟩

/-! ## Row locks

A transaction selects rows `for update` before the tests that can still refuse it. These are the ids
of the deliveries it selects: where another transaction has locked one of them it waits, also when
it would then be refused. A transaction that is refused before its `select`, or has nothing left to
record, selects none. -/

/-- The join of a delivery with its attempt, for a dispatch observation or a receipt. -/
def rowLocks (L : Ledger) (deliveryId attemptId : String) : List String :=
  if Storable [deliveryId, attemptId] ∧ (L.deliveryWithAttempt deliveryId attemptId).isSome then
    [deliveryId]
  else []

def Observation.locks (L : Ledger) (event : ObservationEnvelope) : Observation → List String
  | .dispatch payload => rowLocks L payload.deliveryId payload.attemptId
  | .receipt payload =>
    -- a receipt that is stored already is compared without its delivery
    if Storable [payload.source, payload.remoteId] ∧
        (findReceipt L payload.source payload.remoteId payload.kind.evidence).isNone then
      rowLocks L payload.deliveryId payload.attemptId
    else []
  | .lifecycle payload =>
    if Storable [payload.invitationId, event.sourceModule] then
      (L.deliveries.rows.filter
        (cancellable L payload.invitationId event.sourceModule payload.observedAt)).map Delivery.id
    else []

/-- The rows `apply` selects `for update`. -/
def applyLocks (L : Ledger) (event : ObservationEnvelope) : List String :=
  match observationOf X event with
  | .error _ => []
  | .ok observation =>
    match claimEvent X L event observation.observedAt with
    | .ok (L, false) => observation.locks L event
    | _ => []

/-- **The outline of every observation**: admit, claim the id, record. -/
theorem apply_eq (L : Ledger) (event : ObservationEnvelope) :
    apply X L event = (do
      let observation ← observationOf X event
      recordOnce X L event observation.observedAt fun L ↦ observation.observe X L event) := by
  unfold apply applyFor observationOf
  simp only [bind_assoc]
  congr 1
  funext _
  split
  · simp only [bind_assoc, pure_bind]
    rfl
  · split
    · simp only [bind_assoc, pure_bind]
      rfl
    · split
      · simp only [bind_assoc, pure_bind]
        rfl
      · rfl

end Events

end NotificationLedger

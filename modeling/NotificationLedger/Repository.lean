import NotificationLedger.Events

/-!
# Manual retry

A manual retry is a "retry now" decision for a delivery that is already scheduled for a retry;
everything else fails closed. Its replay lookup reads any retry row with the caller's key,
whichever operation wrote it.
-/

namespace NotificationLedger

open Outcome

/-- The `UPDATE` of `request_manual_retry`. -/
def Delivery.rescheduled (newRevision : ℕ) (now : DateTime) (d : Delivery) : Delivery :=
  { d with
    nextAttemptAt := some now.stored
    revision := newRevision
    updatedAt := now.stored }

theorem Delivery.keeps_rescheduled (newRevision : ℕ) (now : DateTime) :
    Keyed.Keeps (Delivery.rescheduled newRevision now) := fun _ ↦ ⟨rfl, fun _ ↦ Iff.rfl⟩

structure RetryResult where
  deliveryId : String
  revision : ℕ
  status : DeliveryStatus
  scheduledAt : Timestamp
  idempotentReplay : Bool
  deriving DecidableEq, Repr

namespace Repository

variable (X : Externals)

def mapSqlError : NotificationError :=
  ⟨.internal, "Notification Business API storage operation failed"⟩

/-- The stored decision under a key, joined with its delivery. -/
def findRetry (L : Ledger) (deliveryId idempotencyKey : String) :
    Option (RetryRequest × Delivery) := do
  let retry ← L.retryRequests.rows.find? fun r ↦
    decide (r.deliveryId = deliveryId) && decide (r.idempotencyKey = idempotencyKey)
  let delivery ← L.deliveries.get? retry.deliveryId
  return (retry, delivery)

/-- The row a manual retry inserts. -/
def manualRetryRow (deliveryId : String) (expectedRevision : ℕ)
    (idempotencyKey requestedBy : String) (now : DateTime) : RetryRequest where
  id := stableId X "ntf_rty" ("manual:" ++ deliveryId ++ ":" ++ idempotencyKey)
  deliveryId := deliveryId
  kind := .manual
  requestedBy := some requestedBy
  sourceRevision := expectedRevision
  idempotencyKey := idempotencyKey
  decision := .scheduled
  reason := some "operator_retry_now"
  scheduledAt := some now.stored
  createdAt := now.stored

/-- The retry of a key that has no stored decision. -/
def scheduleManualRetry (L : Ledger) (deliveryId : String) (expectedRevision : ℕ)
    (idempotencyKey requestedBy : String) (now : DateTime) :
    NotificationResult (Ledger × RetryResult) := do
  let delivery ← require (L.deliveries.get? deliveryId)
    ⟨.notFound, "Notification delivery was not found"⟩
  ensure (delivery.revision = expectedRevision)
    ⟨.conflict, "Notification delivery revision is stale"⟩
  ensure (delivery.revision < maxSafeWireInteger)
    ⟨.conflict, "Notification delivery revision exhausted the portable wire range"⟩
  ensure (delivery.status = .retryScheduled ∧ delivery.attemptCount < delivery.maxAttempts)
    ⟨.conflict, "Notification delivery is not eligible for retry"⟩
  let L ← require
    (L.insertRetryRequest
      (manualRetryRow X deliveryId expectedRevision idempotencyKey requestedBy now))
    mapSqlError
  let newRevision := expectedRevision + 1
  let open? := Events.openAt deliveryId expectedRevision [.retryScheduled]
  ensure (L.deliveries.affected open? = 1)
    ⟨.conflict, "Notification delivery changed while retry was scheduled"⟩
  pure
    ({ L with
        deliveries := L.deliveries.update open? (Delivery.rescheduled newRevision now)
          (Delivery.keeps_rescheduled newRevision now) },
      { deliveryId
        revision := newRevision
        status := .retryScheduled
        scheduledAt := now.stored
        idempotentReplay := false })

def requestManualRetry (L : Ledger) (deliveryId : String) (expectedRevision : ℕ)
    (idempotencyKey requestedBy : String) (now : DateTime) :
    NotificationResult (Ledger × RetryResult) := do
  ensure (Storable [deliveryId, idempotencyKey]) mapSqlError
  match findRetry L deliveryId idempotencyKey with
  | some (retry, delivery) => do
    let scheduledAt ← require retry.scheduledAt
      ⟨.conflict, "Existing manual retry request was rejected"⟩
    pure
      (L,
        { deliveryId
          revision := delivery.revision
          status := delivery.status
          scheduledAt
          idempotentReplay := true })
  | none => scheduleManualRetry X L deliveryId expectedRevision idempotencyKey requestedBy now

/-- The delivery `request_manual_retry` selects `for update`, unless it answers a replay. -/
def retryLocks (L : Ledger) (deliveryId idempotencyKey : String) : List String :=
  if Storable [deliveryId, idempotencyKey] ∧ (findRetry L deliveryId idempotencyKey).isNone ∧
      (L.deliveries.get? deliveryId).isSome then
    [deliveryId]
  else []

end Repository

end NotificationLedger

import NotificationLedger.Events
import NotificationLedger.Snapshot

/-!
# Claiming due work

`claim_one_due` is one transaction: it selects the first due delivery whose row no other transaction
has locked, then appends the attempt and moves the delivery to `attempting` by a compare-and-set on
its revision. The two halves are separate here, `selectDue` and `claimRow`, since other transactions
may commit between them; the row lock is what they must respect.
-/

namespace NotificationLedger

open Outcome

structure DispatchClaim where
  deliveryId : String
  attemptId : String
  runId : String
  deriving DecidableEq, Repr

structure DispatchRequestRecipient where
  address : String
  deriving DecidableEq, Repr

structure DispatchRequestMessage where
  templateId : String
  templateVersion : String
  locale : String
  subject : String
  text : String
  html : String
  contentDigest : String
  deriving DecidableEq, Repr

structure DispatchRequest where
  deliveryId : String
  attemptId : String
  runId : String
  idempotencyKey : String
  recipient : DispatchRequestRecipient
  message : DispatchRequestMessage
  correlationId : String
  deriving DecidableEq, Repr

structure DispatchWork where
  claim : DispatchClaim
  request : DispatchRequest
  deriving DecidableEq, Repr

/-- The `UPDATE` of `claim_one_due`. -/
def Delivery.claimed (sequence : ℕ) (now : DateTime) (d : Delivery) : Delivery :=
  { d with
    status := .attempting
    revision := d.revision + 1
    attemptCount := sequence
    nextAttemptAt := none
    updatedAt := now.stored }

theorem Delivery.keeps_claimed (sequence : ℕ) (now : DateTime) :
    Keyed.Keeps (Delivery.claimed sequence now) := fun _ ↦ ⟨rfl, fun _ ↦ Iff.rfl⟩

namespace Runtime

variable (X : Externals)

def mapSqlError : NotificationError := ⟨.internal, "Notification dispatch storage failed"⟩

/-! ## Selecting -/

/-- The columns the selection returns, as the joined rows they come from. -/
structure DueRow where
  delivery : Delivery
  intent : Intent
  snapshot : RenderSnapshot
  template : TemplateRelease
  deriving DecidableEq

/-- The joins of the selection. -/
def join (L : Ledger) (d : Delivery) : Option DueRow := do
  let intent ← L.intents.get? d.intentId
  let snapshot ← L.renderSnapshots.get? intent.snapshotId
  let template ← L.templateReleases.get? snapshot.templateReleaseId
  return { delivery := d, intent, snapshot, template }

/-- The `where` clause of the selection. -/
def isDue (now : DateTime) (d : Delivery) : Bool :=
  d.status.isClaimable && (d.nextAttemptAt.any fun t ↦ decide (t ≤ now.stored)) &&
    decide (d.attemptCount < d.maxAttempts)

/-- The `order by` of the selection: `next_attempt_at`, then `id`. -/
def precedes (a b : DueRow) : Bool :=
  match a.delivery.nextAttemptAt, b.delivery.nextAttemptAt with
  | some s, some t =>
    decide (s < t) || (decide (s = t) && decide (a.delivery.id.toList < b.delivery.id.toList))
  | _, _ => false

/-- The earlier of a row and the best one so far. -/
def earlier (best : Option DueRow) (row : DueRow) : Option DueRow :=
  match best with
  | none => some row
  | some b => if precedes row b then some row else some b

/-- `… for update of deliveries skip locked limit 1`. -/
def selectDue (L : Ledger) (locked : String → Bool) (now : DateTime) : Option DueRow :=
  ((L.deliveries.rows.filter fun d ↦ isDue now d && !locked d.id).filterMap (join L)).foldl earlier
    none

/-! ## Claiming -/

def attemptIdOf (deliveryId : String) (sequence : ℕ) : String :=
  stableId X "ntf_att" (deliveryId ++ ":" ++ toString sequence)

def runIdOf (attemptId : String) : String := stableId X "ntf_run" attemptId

def dispatchRecordIdOf (attemptId : String) : String := stableId X "dispatch" attemptId

/-- The row the claim appends. -/
def attemptRow (deliveryId : String) (sequence : ℕ) (now : DateTime) : Attempt where
  id := attemptIdOf X deliveryId sequence
  deliveryId := deliveryId
  sequence := sequence
  functionRunId := runIdOf X (attemptIdOf X deliveryId sequence)
  dispatchEventId := dispatchRecordIdOf X (attemptIdOf X deliveryId sequence)
  status := .dispatching
  provider := none
  remoteReceiptId := none
  remoteReceiptSource := none
  remoteReceiptDigest := none
  failureCode := none
  failureClassification := none
  startedAt := now.stored
  completedAt := none

variable (protector : SnapshotProtector)

/-- The sensitive request, built from the revealed envelopes. -/
def requestOf (row : DueRow) (claim : DispatchClaim) : NotificationResult DispatchRequest := do
  let reveal (ciphertext keyReference : String) := protector.reveal { ciphertext, keyReference }
  let address ← reveal row.intent.recipientCiphertext row.intent.recipientKeyRef
  let subject ← reveal row.snapshot.subjectCiphertext row.snapshot.protectionKeyRef
  let text ← reveal row.snapshot.textCiphertext row.snapshot.protectionKeyRef
  let html ← reveal row.snapshot.htmlCiphertext row.snapshot.protectionKeyRef
  return {
    deliveryId := claim.deliveryId
    attemptId := claim.attemptId
    runId := claim.runId
    idempotencyKey := claim.attemptId
    recipient := { address }
    message := {
      templateId := row.template.templateId
      templateVersion := row.template.version
      locale := row.intent.locale
      subject, text, html
      contentDigest := row.snapshot.contentDigest }
    correlationId := row.intent.correlationId }

/-- `claim_one_due` after its selection. -/
def claimRow (L : Ledger) (row : DueRow) (now : DateTime) :
    NotificationResult (Ledger × DispatchWork) := do
  let delivery := row.delivery
  ensure (delivery.revision < maxSafeWireInteger)
    ⟨.conflict, "Notification delivery revision exhausted the portable wire range"⟩
  let sequence := delivery.attemptCount + 1
  ensure (sequence ≤ delivery.maxAttempts)
    ⟨.conflict, "Notification delivery exhausted before dispatch"⟩
  let attemptId := attemptIdOf X delivery.id sequence
  let claim := { deliveryId := delivery.id, attemptId, runId := runIdOf X attemptId }
  let request ← requestOf protector row claim
  let L ← require (L.insertAttempt (attemptRow X delivery.id sequence now)) mapSqlError
  let open? := Events.openAt delivery.id delivery.revision [.queued, .retryScheduled]
  ensure (L.deliveries.affected open? = 1)
    ⟨.conflict, "Notification delivery changed while it was being claimed"⟩
  pure
    ({ L with
        deliveries := L.deliveries.update open? (Delivery.claimed sequence now)
          (Delivery.keeps_claimed sequence now) },
      { claim, request })

def claimOneDue (L : Ledger) (locked : String → Bool) (now : DateTime) :
    NotificationResult (Option (Ledger × DispatchWork)) :=
  match selectDue L locked now with
  | none => pure none
  | some row => some <$> claimRow X protector L row now

end Runtime

end NotificationLedger

import NotificationLedger.Plugin

/-!
# Reading the ledger back

What the administrative operations and the last lines of `dispatch_due` read from the ledger, and
the checks their answers pass on the way out. A statement reads the ledger of its moment, so an
operation with several statements takes one ledger for each. The status and kind columns hold
enumerations here, so the branches for texts outside them do not occur.

## Bounds on the way out

A statement asks for one row more than it may answer, and the row too many tells that there is
another page, or fails the query where there are no pages. The projections check texts, counts and
times against the contract; a row that fails one of these fails the whole answer, which is why other
modules ask what the rows of a reachable ledger can look like.
-/

namespace NotificationLedger

open Outcome

/-- The text of the status column. -/
def DeliveryStatus.asStr : DeliveryStatus → String
  | .queued => "queued"
  | .attempting => "attempting"
  | .accepted => "accepted"
  | .retryScheduled => "retry_scheduled"
  | .delivered => "delivered"
  | .failed => "failed"
  | .deliveryUnknown => "delivery_unknown"

/-- A stored time as a query returns it. -/
def Timestamp.read (t : Timestamp) : DateTime := t * 1000

/-! ## Records

What the statements return, before any check. A list reads one row more than its limit. -/

structure DeliverySummary where
  id : String
  recipientMask : String
  templateId : String
  templateVersion : String
  locale : String
  status : DeliveryStatus
  revision : ℕ
  attemptCount : ℕ
  maxAttempts : ℕ
  redactedPreview : String
  contentDigest : String
  correlationId : String
  nextAttemptAt : Option DateTime
  finalReason : Option String
  createdAt : DateTime
  updatedAt : DateTime
  deriving DecidableEq

/-- The columns of `attempts` that `get_delivery` selects. -/
structure AttemptRecord where
  id : String
  sequence : ℕ
  functionRunId : String
  status : AttemptStatus
  provider : Option String
  remoteReceiptId : Option String
  failureCode : Option String
  failureClassification : Option String
  startedAt : DateTime
  completedAt : Option DateTime
  deriving DecidableEq

structure ReceiptRecord where
  id : String
  attemptId : String
  kind : EvidenceKind
  source : String
  remoteId : String
  digest : String
  observedAt : DateTime
  deriving DecidableEq

structure RetryRecord where
  id : String
  kind : RetryKind
  requestedBy : Option String
  sourceRevision : ℕ
  decision : RetryDecision
  reason : Option String
  scheduledAt : Option DateTime
  createdAt : DateTime
  deriving DecidableEq

structure DeliveryDetail where
  delivery : DeliverySummary
  attempts : List AttemptRecord
  receipts : List ReceiptRecord
  retryRequests : List RetryRecord
  deriving DecidableEq

namespace Repository

def adminAttemptLimit : ℕ := 10
def adminReceiptLimit : ℕ := 1000
def adminRetryRequestLimit : ℕ := 1000

def adminEvidenceOverflow : NotificationError :=
  ⟨.evidenceOverflow, "Notification delivery evidence exceeds the bounded Admin projection"⟩

/-- `summary_from_row` of the joined row. -/
def summaryFromRow (row : Runtime.DueRow) : DeliverySummary where
  id := row.delivery.id
  recipientMask := row.intent.recipientMask
  templateId := row.template.templateId
  templateVersion := row.template.version
  locale := row.intent.locale
  status := row.delivery.status
  revision := row.delivery.revision
  attemptCount := row.delivery.attemptCount
  maxAttempts := row.delivery.maxAttempts
  redactedPreview := row.snapshot.redactedPreview
  contentDigest := row.snapshot.contentDigest
  correlationId := row.intent.correlationId
  nextAttemptAt := row.delivery.nextAttemptAt.map Timestamp.read
  finalReason := row.delivery.finalReason
  createdAt := Timestamp.read row.delivery.createdAt
  updatedAt := Timestamp.read row.delivery.updatedAt

def attemptRecord (a : Attempt) : AttemptRecord where
  id := a.id
  sequence := a.sequence
  functionRunId := a.functionRunId
  status := a.status
  provider := a.provider
  remoteReceiptId := a.remoteReceiptId
  failureCode := a.failureCode
  failureClassification := a.failureClassification
  startedAt := Timestamp.read a.startedAt
  completedAt := a.completedAt.map Timestamp.read

def receiptRecord (r : Receipt) : ReceiptRecord where
  id := r.id
  attemptId := r.attemptId
  kind := r.kind
  source := r.source
  remoteId := r.remoteId
  digest := r.digest
  observedAt := Timestamp.read r.observedAt

def retryRecord (r : RetryRequest) : RetryRecord where
  id := r.id
  kind := r.kind
  requestedBy := r.requestedBy
  sourceRevision := r.sourceRevision
  decision := r.decision
  reason := r.reason
  scheduledAt := r.scheduledAt.map Timestamp.read
  createdAt := Timestamp.read r.createdAt

/-- The `where` clause of the list. -/
def listed (cursor : Option String) (status : Option DeliveryStatus) (d : Delivery) : Bool :=
  status.all (fun s ↦ decide (d.status = s)) &&
    cursor.all fun c ↦ decide (d.id.toList < c.toList)

/-- `order by deliveries.id desc`. -/
def listOrder (a b : DeliverySummary) : Bool := decide (¬a.id.toList < b.id.toList)

def listDeliveries (L : Ledger) (limit : ℕ) (cursor : Option String)
    (status : Option DeliveryStatus) : NotificationResult (List DeliverySummary) := do
  ensure (Storable cursor.toList) mapSqlError
  let rows := (L.deliveries.rows.filter (listed cursor status)).filterMap (Runtime.join L)
  pure (((rows.map summaryFromRow).mergeSort listOrder).take limit)

/-- The rows of a delivery, unless there are more than the projection may show. -/
def evidenceOf {α β : Type} (limit : ℕ) (rows : List α) (order : α → α → Bool) (record : α → β) :
    NotificationResult (List β) := do
  let selected := (rows.mergeSort order).take (limit + 1)
  ensure (selected.length ≤ limit) adminEvidenceOverflow
  pure (selected.map record)

/-- `order by` a time, then the id. -/
def timeOrder (t u : Timestamp) (a b : String) : Bool :=
  decide (t < u) || (decide (t = u) && decide (¬b.toList < a.toList))

/-- The rows of a table that belong to a delivery. -/
def rowsOf {α : Type} (deliveryId : α → String) (rows : List α) (id : String) : List α :=
  rows.filter fun r ↦ decide (deliveryId r = id)

/-- The four statements of `get_delivery`, each on the ledger of its moment. -/
def getDelivery (L₁ L₂ L₃ L₄ : Ledger) (deliveryId : String) :
    NotificationResult (Option DeliveryDetail) := do
  ensure (Storable [deliveryId]) mapSqlError
  match (L₁.deliveries.get? deliveryId).bind (Runtime.join L₁) with
  | none => pure none
  | some row => do
    let attempts ← evidenceOf adminAttemptLimit
      (rowsOf Attempt.deliveryId L₂.attempts.rows deliveryId)
      (fun a b ↦ decide (a.sequence ≤ b.sequence)) attemptRecord
    let receipts ← evidenceOf adminReceiptLimit
      (rowsOf Receipt.deliveryId L₃.receipts.rows deliveryId)
      (fun a b ↦ timeOrder a.observedAt b.observedAt a.id b.id) receiptRecord
    let retryRequests ← evidenceOf adminRetryRequestLimit
      (rowsOf RetryRequest.deliveryId L₄.retryRequests.rows deliveryId)
      (fun a b ↦ timeOrder a.createdAt b.createdAt a.id b.id) retryRecord
    pure (some { delivery := summaryFromRow row, attempts, receipts, retryRequests })

end Repository

namespace Plugin

open Repository

variable (S : Setting)

/-! ## Times

A stored time is formatted if its year in UTC has four digits. -/

/-- The year lies in `0..=9999`; the bounds are the days from 2000-01-01 to the ends of that
range. -/
def inYearRange (t : DateTime) : Bool :=
  decide (-730485 * 86400000000000 ≤ t ∧ t < 2921940 * 86400000000000)

def formatTime (t : DateTime) : Except RuntimeFailure String := do
  ensure (inYearRange t = true)
    (.pluginFailure
      "stored Notification timestamp is outside the RFC 3339 four-digit year range")
  let formatted := S.externals.toRfc3339Millis t
  ensure (validTime S formatted = true)
    (.pluginFailure "stored Notification timestamp violates its bounded Capability Contract")
  pure formatted

/-- `map(format_time).transpose()`. -/
def formatOptional (t : Option DateTime) : Except RuntimeFailure (Option String) :=
  match t with
  | none => pure none
  | some t => some <$> formatTime S t

/-- `format_time` accepts the time. -/
def Formattable (t : DateTime) : Prop :=
  inYearRange t = true ∧ validTime S (S.externals.toRfc3339Millis t) = true

section Times

variable {S}

theorem formatTime_eq_ok {t : DateTime} {text : String} :
    formatTime S t = .ok text ↔ Formattable S t ∧ text = S.externals.toRfc3339Millis t := by
  rw [formatTime, ensure_bind_eq_ok]
  simp only [ensure_bind_eq_ok, pure_eq_ok]
  rw [Formattable, and_assoc, eq_comm (a := text)]

theorem exists_formatTime {t : DateTime} :
    (∃ text, formatTime S t = .ok text) ↔ Formattable S t := by
  constructor
  · rintro ⟨text, h⟩
    exact (formatTime_eq_ok.mp h).1
  · exact fun h ↦ ⟨_, formatTime_eq_ok.mpr ⟨h, rfl⟩⟩

theorem exists_formatOptional {t : Option DateTime} :
    (∃ text, formatOptional S t = .ok text) ↔ ∀ u ∈ t, Formattable S u := by
  cases t with
  | none =>
    constructor
    · rintro - u hu
      cases hu
    · exact fun _ ↦ ⟨none, rfl⟩
  | some t =>
    constructor
    · rintro ⟨text, h⟩ u hu
      cases hu
      obtain ⟨formatted, hformat, -⟩ := bind_eq_ok.mp ((map_eq_pure_bind _ _).symm.trans h)
      exact exists_formatTime.mp ⟨formatted, hformat⟩
    · intro h
      obtain ⟨formatted, hformat⟩ := exists_formatTime.mpr (h t rfl)
      exact ⟨some formatted, by rw [formatOptional, hformat]; rfl⟩

end Times

/-! ## Projections

Each record has its own list of checks. They are repeated on the values just read, with the bounds
of the contract, and any failure is the same error. -/

def invalidAdminProjection : RuntimeFailure :=
  .pluginFailure
    "stored Notification Admin projection violates its bounded Capability Contract"

structure AdminDelivery where
  attemptCount : ℕ
  contentDigest : String
  correlationId : String
  createdAt : String
  finalReason : Option String
  id : String
  locale : String
  maxAttempts : ℕ
  nextAttemptAt : Option String
  recipientMask : String
  redactedPreview : String
  retryNowEligible : Bool
  revision : ℕ
  status : DeliveryStatus
  templateId : String
  templateVersion : String
  updatedAt : String
  deriving DecidableEq

/-- The bounds `admin_delivery` checks. -/
def validSummary (value : DeliverySummary) : Bool :=
  requiredBounded value.id 1 160 && requiredBounded value.recipientMask 3 320 &&
    requiredBounded value.templateId 1 160 && requiredBounded value.templateVersion 1 80 &&
    requiredBounded value.locale 2 32 &&
    decide (1 ≤ value.revision ∧ value.revision ≤ maxSafeWireInteger) &&
    decide (value.attemptCount ≤ 10) &&
    decide (1 ≤ value.maxAttempts ∧ value.maxAttempts ≤ 10) &&
    decide (value.attemptCount ≤ value.maxAttempts) &&
    decide (value.redactedPreview.length ≤ 160) && isDigest value.contentDigest &&
    requiredBounded value.correlationId 1 240 && optionalBounded value.finalReason 160

def adminDelivery (value : DeliverySummary) : Except RuntimeFailure AdminDelivery := do
  ensure (validSummary value = true) invalidAdminProjection
  let createdAt ← formatTime S value.createdAt
  let nextAttemptAt ← formatOptional S value.nextAttemptAt
  let updatedAt ← formatTime S value.updatedAt
  return {
    attemptCount := value.attemptCount
    contentDigest := value.contentDigest
    correlationId := value.correlationId
    createdAt
    finalReason := value.finalReason
    id := value.id
    locale := value.locale
    maxAttempts := value.maxAttempts
    nextAttemptAt
    recipientMask := value.recipientMask
    redactedPreview := value.redactedPreview
    retryNowEligible := decide (value.status = .retryScheduled) &&
      decide (value.attemptCount < value.maxAttempts)
    revision := value.revision
    status := value.status
    templateId := value.templateId
    templateVersion := value.templateVersion
    updatedAt }

structure AdminAttempt where
  completedAt : Option String
  failureClassification : Option String
  failureCode : Option String
  id : String
  provider : Option String
  remoteReceiptId : Option String
  runId : String
  sequence : ℕ
  startedAt : String
  status : AttemptStatus
  deriving DecidableEq

/-- The bounds `admin_attempt` checks. -/
def validAttempt (value : AttemptRecord) : Bool :=
  requiredBounded value.id 1 160 && decide (1 ≤ value.sequence ∧ value.sequence ≤ 10) &&
    requiredBounded value.functionRunId 1 160 && optionalBounded value.provider 160 &&
    optionalBounded value.remoteReceiptId 320 && optionalBounded value.failureCode 160 &&
    optionalBounded value.failureClassification 160

def adminAttempt (value : AttemptRecord) : Except RuntimeFailure AdminAttempt := do
  ensure (validAttempt value = true) invalidAdminProjection
  let completedAt ← formatOptional S value.completedAt
  let startedAt ← formatTime S value.startedAt
  return {
    completedAt
    failureClassification := value.failureClassification
    failureCode := value.failureCode
    id := value.id
    provider := value.provider
    remoteReceiptId := value.remoteReceiptId
    runId := value.functionRunId
    sequence := value.sequence
    startedAt
    status := value.status }

structure AdminReceipt where
  attemptId : String
  digest : String
  id : String
  kind : EvidenceKind
  observedAt : String
  remoteId : String
  source : String
  deriving DecidableEq

/-- The bounds `admin_receipt` checks. -/
def validReceipt (value : ReceiptRecord) : Bool :=
  requiredBounded value.id 1 160 && requiredBounded value.attemptId 1 160 &&
    requiredBounded value.source 1 160 && requiredBounded value.remoteId 1 320 &&
    isDigest value.digest

def adminReceipt (value : ReceiptRecord) : Except RuntimeFailure AdminReceipt := do
  ensure (validReceipt value = true) invalidAdminProjection
  let observedAt ← formatTime S value.observedAt
  return {
    attemptId := value.attemptId
    digest := value.digest
    id := value.id
    kind := value.kind
    observedAt
    remoteId := value.remoteId
    source := value.source }

structure AdminRetryRecord where
  createdAt : String
  decision : RetryDecision
  id : String
  kind : RetryKind
  reason : Option String
  requestedBy : Option String
  scheduledAt : Option String
  sourceRevision : ℕ
  deriving DecidableEq

/-- The bounds `admin_retry_record` checks. -/
def validRetryRecord (value : RetryRecord) : Bool :=
  requiredBounded value.id 1 160 && optionalBounded value.requestedBy 240 &&
    decide (1 ≤ value.sourceRevision ∧ value.sourceRevision ≤ maxSafeWireInteger) &&
    optionalBounded value.reason 160

def adminRetryRecord (value : RetryRecord) : Except RuntimeFailure AdminRetryRecord := do
  ensure (validRetryRecord value = true) invalidAdminProjection
  let createdAt ← formatTime S value.createdAt
  let scheduledAt ← formatOptional S value.scheduledAt
  return {
    createdAt
    decision := value.decision
    id := value.id
    kind := value.kind
    reason := value.reason
    requestedBy := value.requestedBy
    scheduledAt
    sourceRevision := value.sourceRevision }

structure GetDeliveryResponse where
  attempts : List AdminAttempt
  delivery : AdminDelivery
  openInStoryCorrelationId : String
  receipts : List AdminReceipt
  retryRequests : List AdminRetryRecord
  deriving DecidableEq

def adminDetail (value : DeliveryDetail) : Except RuntimeFailure GetDeliveryResponse := do
  ensure
    (value.attempts.length ≤ adminAttemptLimit ∧ value.receipts.length ≤ adminReceiptLimit ∧
      value.retryRequests.length ≤ adminRetryRequestLimit)
    invalidAdminProjection
  let attempts ← value.attempts.mapM (adminAttempt S)
  let delivery ← adminDelivery S value.delivery
  let receipts ← value.receipts.mapM (adminReceipt S)
  let retryRequests ← value.retryRequests.mapM (adminRetryRecord S)
  return {
    attempts
    delivery
    openInStoryCorrelationId := value.delivery.correlationId
    receipts
    retryRequests }

/-! ## The administrative operations -/

inductive ListDeliveriesError
  | invalidFilter
  | unauthorized
  deriving DecidableEq, Repr

structure ListDeliveriesRequest where
  limit : Option ℤ
  cursor : Option String
  status : Option DeliveryStatus
  deriving DecidableEq

structure ListDeliveriesResponse where
  nextCursor : Option String
  records : List AdminDelivery
  deriving DecidableEq

def validListRequest (request : ListDeliveriesRequest) : Bool :=
  request.limit.all (fun limit ↦ decide (1 ≤ limit ∧ limit ≤ 200)) &&
    request.cursor.all fun cursor ↦ requiredBounded cursor 1 160

def listDeliveries (L : Ledger) (caller : Option String) (request : ListDeliveriesRequest) :
    Except (PluginError ListDeliveriesError) ListDeliveriesResponse := do
  let _ ← require (authorizedCaller caller S.config.adminCallers) (.domain .unauthorized)
  ensure (validListRequest request = true) (.domain .invalidFilter)
  let limit := (request.limit.getD 100).toNat
  let rows ← (Repository.listDeliveries L (limit + 1) request.cursor request.status).mapError
    fun e ↦ .runtime (runtime e)
  let hasMore := decide (limit < rows.length)
  let records ← ((rows.take limit).mapM (adminDelivery S)).mapError .runtime
  return {
    nextCursor := if hasMore then records.getLast?.map AdminDelivery.id else none
    records }

inductive GetDeliveryError
  | deliveryNotFound
  | evidenceOverflow
  | invalidRequest
  | unauthorized
  deriving DecidableEq, Repr

def mapGetError (error : NotificationError) : PluginError GetDeliveryError :=
  match error.code with
  | .evidenceOverflow => .domain .evidenceOverflow
  | .validation | .notFound | .conflict | .internal => .runtime (runtime error)

def getDelivery (L₁ L₂ L₃ L₄ : Ledger) (caller : Option String) (deliveryId : String) :
    Except (PluginError GetDeliveryError) GetDeliveryResponse := do
  let _ ← require (authorizedCaller caller S.config.adminCallers) (.domain .unauthorized)
  ensure (requiredBounded deliveryId 1 160 = true) (.domain .invalidRequest)
  let detail ← (Repository.getDelivery L₁ L₂ L₃ L₄ deliveryId).mapError mapGetError
  let detail ← require detail (.domain .deliveryNotFound)
  (adminDetail S detail).mapError .runtime

structure RetryDeliveryResponse where
  deliveryId : String
  idempotentReplay : Bool
  revision : ℕ
  scheduledAt : String
  deriving DecidableEq

/-- The time a retry result carries: the call's own, or the stored one of a replay. -/
def scheduledTime (now : DateTime) (value : RetryResult) : DateTime :=
  if value.idempotentReplay then Timestamp.read value.scheduledAt else now

/-- `admin_retry`: the answer of `retry_delivery`, whose only status is `retry_scheduled`. -/
def adminRetry (now : DateTime) (value : RetryResult) :
    Except RuntimeFailure RetryDeliveryResponse := do
  ensure
    (requiredBounded value.deliveryId 1 160 = true ∧
      (1 ≤ value.revision ∧ value.revision ≤ maxSafeWireInteger) ∧
      value.status = .retryScheduled)
    invalidAdminProjection
  let scheduledAt ← formatTime S (scheduledTime now value)
  return {
    deliveryId := value.deliveryId
    idempotentReplay := value.idempotentReplay
    revision := value.revision
    scheduledAt }

/-! ## The answer of `dispatch_due`

Four statuses have a name in the answer; a delivery with another one fails the call. -/

inductive DispatchDueStatus
  | accepted
  | retryScheduled
  | failed
  | deliveryUnknown
  deriving DecidableEq, Repr

def deliveryStatus (status : DeliveryStatus) : Except RuntimeFailure DispatchDueStatus :=
  match status with
  | .accepted => pure .accepted
  | .retryScheduled => pure .retryScheduled
  | .failed => pure .failed
  | .deliveryUnknown => pure .deliveryUnknown
  | other => .error (.pluginFailure
      ("stored delivery status `" ++ other.asStr ++ "` is invalid after dispatch"))

structure DispatchDueResponse where
  attemptId : String
  deliveryId : String
  nextAttemptAt : Option String
  observedAt : String
  runId : String
  status : DispatchDueStatus
  deriving DecidableEq

/-- What `dispatch_due` does after `apply_dispatch` has recorded the observation. -/
def dispatchDueResponse (claim : DispatchClaim) (observed : EmailDispatchObserved)
    (L₁ L₂ L₃ L₄ : Ledger) : Except RuntimeFailure DispatchDueResponse := do
  let detail ← (Repository.getDelivery L₁ L₂ L₃ L₄ claim.deliveryId).mapError runtime
  let detail ← require detail (.pluginFailure "claimed delivery disappeared")
  let nextAttemptAt ← formatOptional S detail.delivery.nextAttemptAt
  let observedAt ← formatTime S observed.observedAt
  let status ← deliveryStatus detail.delivery.status
  return {
    attemptId := claim.attemptId
    deliveryId := claim.deliveryId
    nextAttemptAt
    observedAt
    runId := claim.runId
    status }

end Plugin

end NotificationLedger

import NotificationLedger.Public
import NotificationLedger.Repository
import NotificationLedger.Runtime

/-!
# The plugin boundary

The operations the plugin provides: who may call them, what a request must look like, and which
intent or observation envelope it becomes. Everything here is decided without reading the ledger;
the module on the composed system puts these decisions between the transactions.

## Setting

A `Setting` holds what does not change while the plugin runs: the configuration, with the proof that
it was accepted, the protector, and the functions of the environment, among them the clock's formats
and the hash. Bounds, error texts and field names are the source's own; a failed check answers with
the error of its operation and nothing is read.
-/

namespace NotificationLedger

open Outcome Public

/-! ## Failures -/

/-- A failure of the runtime around the plugin, or of the plugin itself. -/
inductive RuntimeFailure
  | pluginFailure (detail : String)
  | protocolViolation (capability : String)
  | invalidResolvedPlan (detail : String)
  | foreign (detail : String)
  deriving DecidableEq, Repr

inductive PluginError (ε : Type)
  | domain (error : ε)
  | runtime (failure : RuntimeFailure)
  deriving DecidableEq, Repr

inductive DispatchDueError
  | dispatchRejected
  | noDeliveryDue
  | unauthorized
  deriving DecidableEq, Repr

/-- The domain errors of both create operations. -/
inductive CreateError
  | idempotencyConflict
  | invalidIntent
  | unauthorized
  deriving DecidableEq, Repr

inductive ObserveInvitationLifecycleError
  | invalidObservation
  | observationConflict
  | unauthorized
  deriving DecidableEq, Repr

inductive ObserveReceiptError
  | deliveryNotFound
  | invalidReceipt
  | receiptConflict
  | unauthorized
  deriving DecidableEq, Repr

inductive RetryDeliveryError
  | deliveryNotFound
  | idempotencyConflict
  | invalidRequest
  | retryNotAllowed
  | staleRevision
  | unauthorized
  deriving DecidableEq, Repr

/-! ## Configuration -/

def isInstanceChar (c : Char) : Bool := c.isAlphanum || c ∈ ['.', '_', '-', '/']

/-- `valid_instance`. The admitted characters are ASCII, so the byte length is a character count. -/
def validInstance (value : String) : Bool :=
  decide (value ≠ "") && decide (value.length ≤ 160) && value.toList.all isInstanceChar

/-- What `validate` asks of each authority role. -/
def ValidCallers (callers : List String) : Prop :=
  callers ≠ [] ∧ callers.length ≤ 64 ∧ (∀ c ∈ callers, validInstance c = true) ∧ callers.Nodup
  deriving Decidable

/-- The authority roles of a validated configuration. -/
structure NotificationConfig where
  transactionalCallers : List String
  dispatchCallers : List String
  receiptCallers : List String
  adminCallers : List String
  valid : ValidCallers transactionalCallers ∧ ValidCallers dispatchCallers ∧
    ValidCallers receiptCallers ∧ ValidCallers adminCallers

/-- The prepared plugin and what it depends on. -/
structure Setting where
  externals : Externals
  protector : SnapshotProtector
  config : NotificationConfig
  emailProviderInstance : String

/-- A caller instance that the role allows. -/
def authorizedCaller (caller : Option String) (allowed : List String) : Option String :=
  caller.filter fun c ↦ decide (c ∈ allowed)

/-! ## Requests -/

inductive RecipientLocale
  | en
  | enUS
  deriving DecidableEq, Repr

def RecipientLocale.asStr : RecipientLocale → String
  | .en => "en"
  | .enUS => "en-US"

structure RequestRecipient where
  address : String
  displayName : Option String
  locale : RecipientLocale

structure CreateOrganizationInvitationRequestTemplate where
  organizationId : String
  organizationName : String
  invitationId : String
  invitationUrl : String
  inviterDisplayName : Option String
  roleName : Option String
  expiresAt : String

structure CreateOrganizationInvitationRequest where
  entityType : String
  entityId : String
  recipient : RequestRecipient
  template : CreateOrganizationInvitationRequestTemplate
  idempotencyKey : String
  correlationId : String
  causationId : Option String
  requestedBy : Option String

structure CreateAccessRequestNotificationRequest where
  requestId : String
  organizationId : String
  event : AccessRequestNotificationEvent
  recipient : RequestRecipient
  role : AccessRequestRoleV1
  scope : AccessRequestScopeV1
  expiresAt : Option String
  idempotencyKey : String
  correlationId : String
  causationId : Option String
  requestedBy : Option String

inductive CreateRequest
  | organizationInvitation (request : CreateOrganizationInvitationRequest)
  | accessRequestNotification (request : CreateAccessRequestNotificationRequest)

structure ObserveInvitationLifecycleRequest where
  observationId : String
  organizationId : String
  invitationId : String
  lifecycle : Lifecycle
  observedAt : String

structure ObserveReceiptRequest where
  observationId : String
  deliveryId : String
  attemptId : String
  runId : String
  kind : ReceiptKind
  observedAt : String
  remoteId : String
  digest : String

structure RetryDeliveryRequest where
  deliveryId : String
  revision : ℤ
  idempotencyKey : String

namespace Plugin

variable (S : Setting)

/-! ## Errors of the operations -/

def runtime (error : NotificationError) : RuntimeFailure := .pluginFailure error.message

/-- `map_create_error` and `map_access_request_create_error`. -/
def mapCreateError (error : NotificationError) : PluginError CreateError :=
  match error.code with
  | .validation => .domain .invalidIntent
  | .conflict => .domain .idempotencyConflict
  | .notFound | .evidenceOverflow | .internal => .runtime (runtime error)

def mapLifecycleError (error : NotificationError) :
    PluginError ObserveInvitationLifecycleError :=
  match error.code with
  | .validation => .domain .invalidObservation
  | .conflict => .domain .observationConflict
  | .notFound | .evidenceOverflow | .internal => .runtime (runtime error)

def mapReceiptError (error : NotificationError) : PluginError ObserveReceiptError :=
  match error.code with
  | .validation => .domain .invalidReceipt
  | .notFound => .domain .deliveryNotFound
  | .conflict => .domain .receiptConflict
  | .evidenceOverflow | .internal => .runtime (runtime error)

/-- `message.contains(part)`. -/
def containsText (message part : String) : Bool :=
  message.toList.tails.any fun rest ↦ part.toList.isPrefixOf rest

def mapRetryError (error : NotificationError) : PluginError RetryDeliveryError :=
  match error.code with
  | .notFound => .domain .deliveryNotFound
  | .conflict =>
    if containsText error.message "revision is stale" then .domain .staleRevision
    else if containsText error.message "not eligible" then .domain .retryNotAllowed
    else .domain .idempotencyConflict
  | .validation | .evidenceOverflow | .internal => .runtime (runtime error)

/-! ## Request validation -/

def parseTime (value : String) : Option DateTime := S.externals.parseFromRfc3339 value

def validTime (value : String) : Bool :=
  requiredBounded value 1 64 && (parseTime S value).isSome

def validCreateRequest (request : CreateOrganizationInvitationRequest) (now : DateTime) : Bool :=
  requiredBounded request.entityType 1 160 &&
    decide (request.entityType = "organization_invitation") &&
    requiredBounded request.entityId 1 240 &&
    requiredBounded request.recipient.address 3 320 &&
    decide ('@' ∈ request.recipient.address.toList) &&
    optionalBounded request.recipient.displayName 240 &&
    requiredBounded request.template.organizationId 1 240 &&
    requiredBounded request.template.organizationName 1 240 &&
    requiredBounded request.template.invitationId 1 240 &&
    decide (request.entityId = request.template.invitationId) &&
    requiredBounded request.template.invitationUrl 1 4096 &&
    ("https://".toList.isPrefixOf request.template.invitationUrl.toList ||
      "http://localhost".toList.isPrefixOf request.template.invitationUrl.toList) &&
    optionalBounded request.template.inviterDisplayName 240 &&
    optionalBounded request.template.roleName 160 &&
    validTime S request.template.expiresAt &&
    (parseTime S request.template.expiresAt).any (fun expiresAt ↦ decide (now < expiresAt)) &&
    requiredBounded request.idempotencyKey 1 240 &&
    requiredBounded request.correlationId 1 240 &&
    optionalBounded request.causationId 240 &&
    optionalBounded request.requestedBy 240

def validAccessRequestNotificationRequest (request : CreateAccessRequestNotificationRequest)
    (now : DateTime) : Bool :=
  let expectedIdempotencyKey :=
    "access-request:" ++ request.requestId ++ ":" ++ request.event.asStr
  let expiry := request.expiresAt.bind (parseTime S)
  let future := expiry.any fun value ↦ decide (now < value)
  let expiryValid :=
    match request.event with
    | .expiring => future
    | .denied => request.expiresAt.isNone
    | _ => request.expiresAt.isNone || future
  requiredBounded request.requestId 1 160 &&
    requiredBounded request.organizationId 1 240 &&
    requiredBounded request.recipient.address 3 320 &&
    decide ('@' ∈ request.recipient.address.toList) &&
    optionalBounded request.recipient.displayName 240 &&
    requiredBounded request.role.roleId 1 160 &&
    optionalBounded request.role.displayName 160 &&
    requiredBounded request.scope.kind 1 160 &&
    requiredBounded request.scope.id 1 240 &&
    optionalBounded request.scope.displayName 240 &&
    request.expiresAt.all (validTime S) &&
    expiryValid &&
    decide (request.idempotencyKey = expectedIdempotencyKey) &&
    requiredBounded request.correlationId 1 240 &&
    optionalBounded request.causationId 240 &&
    optionalBounded request.requestedBy 240

def validLifecycleRequest (request : ObserveInvitationLifecycleRequest) : Bool :=
  requiredBounded request.observationId 1 240 && requiredBounded request.organizationId 1 240 &&
    requiredBounded request.invitationId 1 240 && validTime S request.observedAt

def validReceiptRequest (request : ObserveReceiptRequest) : Bool :=
  requiredBounded request.observationId 1 240 && requiredBounded request.deliveryId 1 160 &&
    requiredBounded request.attemptId 1 160 && requiredBounded request.runId 1 160 &&
    validTime S request.observedAt && requiredBounded request.remoteId 1 320 &&
    isDigest request.digest

def validRetryRequest (request : RetryDeliveryRequest) : Bool :=
  requiredBounded request.deliveryId 1 160 &&
    decide (1 ≤ request.revision ∧ request.revision ≤ maxSafeWireInteger) &&
    requiredBounded request.idempotencyKey 1 240

/-! ## Creating intents -/

def toRecipient (recipient : RequestRecipient) : EmailRecipient where
  address := recipient.address
  displayName := recipient.displayName
  locale := recipient.locale.asStr

/-- The intent `create_organization_invitation` builds before it reads the ledger. -/
def invitationIntent (caller : Option String) (request : CreateOrganizationInvitationRequest)
    (now : DateTime) : Except (PluginError CreateError) CreateTransactionalEmailIntent := do
  let caller ← require (authorizedCaller caller S.config.transactionalCallers)
    (.domain .unauthorized)
  ensure (validCreateRequest S request now = true) (.domain .invalidIntent)
  let expiresAt ← require (parseTime S request.template.expiresAt) (.domain .invalidIntent)
  return {
    source := {
      moduleId := caller
      entityType := request.entityType
      entityId := request.entityId }
    recipient := toRecipient request.recipient
    template := {
      organizationId := request.template.organizationId
      organizationName := request.template.organizationName
      invitationId := request.template.invitationId
      invitationUrl := request.template.invitationUrl
      inviterDisplayName := request.template.inviterDisplayName
      roleName := request.template.roleName
      expiresAt }
    idempotencyKey := request.idempotencyKey
    correlationId := request.correlationId
    causationId := request.causationId
    requestedBy := request.requestedBy }

/-- `expires_at.map(parse_time).transpose()`. -/
def parseExpiry (expiresAt : Option String) :
    Except (PluginError CreateError) (Option DateTime) :=
  match expiresAt with
  | none => pure none
  | some value => some <$> require (parseTime S value) (.domain .invalidIntent)

/-- The intent `create_access_request_notification` builds before it reads the ledger. -/
def accessRequestIntent (caller : Option String)
    (request : CreateAccessRequestNotificationRequest) (now : DateTime) :
    Except (PluginError CreateError) CreateAccessRequestNotificationIntent := do
  let caller ← require (authorizedCaller caller S.config.transactionalCallers)
    (.domain .unauthorized)
  ensure (validAccessRequestNotificationRequest S request now = true) (.domain .invalidIntent)
  let expiresAt ← parseExpiry S request.expiresAt
  return {
    source := {
      moduleId := caller
      entityType := "access_request"
      entityId := request.requestId }
    recipient := toRecipient request.recipient
    template := {
      requestId := request.requestId
      organizationId := request.organizationId
      event := request.event
      role := request.role
      scope := request.scope
      expiresAt }
    idempotencyKey := request.idempotencyKey
    correlationId := request.correlationId
    causationId := request.causationId
    requestedBy := request.requestedBy }

def intentRequestOf (caller : Option String) (request : CreateRequest) (now : DateTime) :
    Except (PluginError CreateError) IntentRequest :=
  match request with
  | .organizationInvitation request => .invitation <$> invitationIntent S caller request now
  | .accessRequestNotification request =>
    .accessRequest <$> accessRequestIntent S caller request now

/-! ## Observation envelopes -/

def lifecycleEventName : Lifecycle → String
  | .accepted => organizationInvitationAcceptedEvent
  | .expired => organizationInvitationExpiredEvent
  | .revoked => organizationInvitationRevokedEvent

/-- The envelope of `observe_invitation_lifecycle`. -/
def lifecycleEnvelope (caller : Option String) (request : ObserveInvitationLifecycleRequest) :
    Except (PluginError ObserveInvitationLifecycleError) ObservationEnvelope := do
  let caller ← require (authorizedCaller caller S.config.transactionalCallers)
    (.domain .unauthorized)
  ensure (validLifecycleRequest S request = true) (.domain .invalidObservation)
  let observedAt ← require (parseTime S request.observedAt) (.domain .invalidObservation)
  let payload : OrganizationInvitationLifecycle := {
    invitationId := request.invitationId
    organizationId := request.organizationId
    observedAt }
  return {
    id := request.observationId
    eventName := lifecycleEventName request.lifecycle
    eventVersion := 1
    sourceModule := caller
    aggregateId := request.invitationId
    occurredAt := observedAt
    payload := payload.encode S.externals }

def receiptObservation (caller : String) (request : ObserveReceiptRequest)
    (observedAt : DateTime) : EmailReceiptObserved where
  deliveryId := request.deliveryId
  attemptId := request.attemptId
  functionRunId := request.runId
  kind := request.kind
  source := caller
  observedAt := observedAt
  remoteId := request.remoteId
  digest := request.digest

/-- The envelope of `observe_receipt`. -/
def receiptEnvelope (caller : Option String) (request : ObserveReceiptRequest) :
    Except (PluginError ObserveReceiptError) ObservationEnvelope := do
  let caller ← require (authorizedCaller caller S.config.receiptCallers) (.domain .unauthorized)
  ensure (validReceiptRequest S request = true) (.domain .invalidReceipt)
  let observedAt ← require (parseTime S request.observedAt) (.domain .invalidReceipt)
  return {
    id := request.observationId
    eventName := emailReceiptObservedEvent
    eventVersion := 1
    sourceModule := caller
    aggregateId := request.deliveryId
    occurredAt := observedAt
    payload := (receiptObservation caller request observedAt).encode S.externals }

/-- `observe_invitation_lifecycle`: the ledger after a success. -/
def observeInvitationLifecycle (L : Ledger) (caller : Option String)
    (request : ObserveInvitationLifecycleRequest) :
    Except (PluginError ObserveInvitationLifecycleError) Ledger := do
  let envelope ← lifecycleEnvelope S caller request
  (Events.apply S.externals L envelope).mapError mapLifecycleError

/-- `observe_receipt`: the ledger after a success, which answers `recorded = true`. -/
def observeReceipt (L : Ledger) (caller : Option String) (request : ObserveReceiptRequest) :
    Except (PluginError ObserveReceiptError) Ledger := do
  let envelope ← receiptEnvelope S caller request
  (Events.apply S.externals L envelope).mapError mapReceiptError

/-- `retry_delivery` up to the projection of its result. -/
def retryDelivery (L : Ledger) (caller : Option String) (request : RetryDeliveryRequest)
    (now : DateTime) : Except (PluginError RetryDeliveryError) (Ledger × RetryResult) := do
  let caller ← require (authorizedCaller caller S.config.adminCallers) (.domain .unauthorized)
  ensure (validRetryRequest request = true) (.domain .invalidRequest)
  ensure (request.revision ≠ maxSafeWireInteger) (.domain .retryNotAllowed)
  (Repository.requestManualRetry S.externals L request.deliveryId request.revision.toNat
    request.idempotencyKey caller now).mapError mapRetryError

/-! ## Row locks

The deliveries an operation of one transaction selects `for update`; none where the request does not
reach the ledger. -/

def envelopeLocks {ε : Type} (L : Ledger) (envelope : Except ε ObservationEnvelope) : List String :=
  match envelope with
  | .ok envelope => Events.applyLocks S.externals L envelope
  | .error _ => []

def retryDeliveryLocks (L : Ledger) (caller : Option String) (request : RetryDeliveryRequest) :
    List String :=
  if (authorizedCaller caller S.config.adminCallers).isSome ∧ validRetryRequest request = true ∧
      request.revision ≠ maxSafeWireInteger then
    Repository.retryLocks L request.deliveryId request.idempotencyKey
  else []

/-! ## Provider results -/

structure DispatchResponseFailure where
  code : String
  classification : String
  retryAfterMs : Option ℤ
  deriving DecidableEq

structure DispatchResponse where
  outcome : DispatchOutcome
  provider : String
  observedAt : String
  remoteReceipt : Option RemoteReceiptSummary
  failure : Option DispatchResponseFailure
  deriving DecidableEq

/-- Everything the email provider's `dispatch` can return. -/
inductive DispatchResult
  | response (response : DispatchResponse)
  | invalidDispatch
  | unsupportedMessage
  | unknownDomainError
  | runtimeFailure (failure : RuntimeFailure)
  deriving DecidableEq

def emailProtocolViolation : RuntimeFailure := .protocolViolation "lenso.email-dispatch@1"

def validDispatchFailure (failure : DispatchResponseFailure) (classification : String) : Bool :=
  requiredBounded failure.code 1 160 && requiredBounded failure.classification 1 160 &&
    decide (failure.classification = classification)

def validRemoteReceipt (provider : String) (receipt : RemoteReceiptSummary) : Bool :=
  requiredBounded receipt.remoteId 1 320 && decide (receipt.source = provider) &&
    isDigest receipt.digest

/-- The cross-field contract of a response. -/
def validOutcome (response : DispatchResponse) : Bool :=
  match response.outcome with
  | .accepted => response.failure.isNone
  | .temporaryFailure =>
    response.remoteReceipt.isNone && response.failure.any fun failure ↦
      validDispatchFailure failure "temporary_failure" &&
        failure.retryAfterMs.all fun delay ↦ decide (0 ≤ delay ∧ delay ≤ 86400000)
  | .permanentFailure =>
    response.remoteReceipt.isNone && response.failure.any fun failure ↦
      validDispatchFailure failure "permanent_failure" && failure.retryAfterMs.isNone
  | .deliveryUnknown =>
    response.remoteReceipt.isNone && response.failure.any fun failure ↦
      validDispatchFailure failure "delivery_unknown" && failure.retryAfterMs.isNone

def validDispatchResponse (response : DispatchResponse) : Bool :=
  decide (response.provider = S.emailProviderInstance) && validTime S response.observedAt &&
    response.remoteReceipt.all (validRemoteReceipt S.emailProviderInstance) &&
    validOutcome response

/-- `u64::try_from` of an optional delay. -/
def retryDelay (delay : Option ℤ) : Except RuntimeFailure (Option UInt64) :=
  match delay with
  | none => pure none
  | some n => do
    ensure (0 ≤ n ∧ n < 2 ^ 64) emailProtocolViolation
    pure (some (UInt64.ofNat n.toNat))

def sanitizedFailure (failure : Option DispatchResponseFailure) :
    Except RuntimeFailure (Option SanitizedFailure) :=
  match failure with
  | none => pure none
  | some failure => do
    let retryAfterMs ← retryDelay failure.retryAfterMs
    pure <| some {
      code := failure.code
      classification := failure.classification
      retryAfterMs }

def dispatchObservation (claim : DispatchClaim) (response : DispatchResponse) :
    Except RuntimeFailure EmailDispatchObserved := do
  ensure (validDispatchResponse S response = true) emailProtocolViolation
  let observedAt ← require (parseTime S response.observedAt) emailProtocolViolation
  let failure ← sanitizedFailure response.failure
  return {
    deliveryId := claim.deliveryId
    attemptId := claim.attemptId
    functionRunId := claim.runId
    outcome := response.outcome
    provider := S.emailProviderInstance
    observedAt
    remoteReceipt := response.remoteReceipt.map fun receipt ↦
      { receipt with source := S.emailProviderInstance }
    failure }

/-- The observation of an answer that is no valid response. -/
def failedDispatch (claim : DispatchClaim) (outcome : DispatchOutcome) (code : String)
    (observedAt : DateTime) : EmailDispatchObserved where
  deliveryId := claim.deliveryId
  attemptId := claim.attemptId
  functionRunId := claim.runId
  outcome := outcome
  provider := S.emailProviderInstance
  observedAt := observedAt
  remoteReceipt := none
  failure := some { code, classification := outcome.asStr, retryAfterMs := none }

def permanentRejection (claim : DispatchClaim) (code : String) (observedAt : DateTime) :
    EmailDispatchObserved := failedDispatch S claim .permanentFailure code observedAt

def unknownDispatch (claim : DispatchClaim) (observedAt : DateTime) (code : String) :
    EmailDispatchObserved := failedDispatch S claim .deliveryUnknown code observedAt

/-- The observation each of the provider's results is recorded as. -/
def observedOf (claim : DispatchClaim) (now : DateTime) (result : DispatchResult) :
    EmailDispatchObserved :=
  match result with
  | .invalidDispatch => permanentRejection S claim "email_invalid_dispatch" now
  | .unsupportedMessage => permanentRejection S claim "email_unsupported_message" now
  | .unknownDomainError => unknownDispatch S claim now "email_dispatch_unknown_domain_error"
  | .runtimeFailure _ => unknownDispatch S claim now "email_dispatch_runtime_failure"
  | .response response =>
    match dispatchObservation S claim response with
    | .ok observed => observed
    | .error _ => unknownDispatch S claim now "email_dispatch_protocol_failure"

/-- The id under which a dispatch observation is recorded. -/
def dispatchObservationId (attemptId : String) : String := "dispatch-observation:" ++ attemptId

/-- The envelope of `apply_dispatch`. -/
def dispatchEnvelope (claim : DispatchClaim) (observed : EmailDispatchObserved) :
    ObservationEnvelope where
  id := dispatchObservationId claim.attemptId
  eventName := emailDispatchObservedEvent
  eventVersion := 1
  sourceModule := observed.provider
  aggregateId := claim.deliveryId
  occurredAt := observed.observedAt
  payload := observed.encode S.externals

/-- The answer of `dispatch_due` once its observation is recorded, up to the read-back of the
delivery. -/
def dispatchReply (claim : DispatchClaim) (result : DispatchResult) :
    Except (PluginError DispatchDueError) EmailDispatchObserved :=
  match result with
  | .invalidDispatch | .unsupportedMessage => .error (.domain .dispatchRejected)
  | .unknownDomainError => .error (.runtime emailProtocolViolation)
  | .runtimeFailure failure => .error (.runtime failure)
  | .response response => (dispatchObservation S claim response).mapError .runtime

def applyDispatch (L : Ledger) (claim : DispatchClaim) (observed : EmailDispatchObserved) :
    NotificationResult Ledger :=
  Events.apply S.externals L (dispatchEnvelope S claim observed)

end Plugin

end NotificationLedger

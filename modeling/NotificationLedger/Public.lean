import NotificationLedger.Ledger
import NotificationLedger.Snapshot

/-!
# Intent storage

Creating an intent checks its idempotency key twice: once before rendering, by a plain read, and
once inside the write transaction after taking the advisory lock on `(module, key)`. Both checks are
`findIdempotentIntent`; what follows the second one is `writeIntent`.

The two request types share validation outline, key space and storage; `IntentRequest` is their sum.

## What is hashed

The digest of a request is taken of its JSON form, so two requests have one digest if they have one
form, and different requests have different forms (`encode_injective`). The ids of an intent, its
snapshot and its delivery are hashes of the pair and the digest; rows are never looked up by
content.
-/

namespace NotificationLedger

open Outcome

/-! ## Requests -/

structure IntentSource where
  moduleId : String
  entityType : String
  entityId : String
  deriving DecidableEq

structure EmailRecipient where
  address : String
  displayName : Option String
  locale : String
  deriving DecidableEq

structure OrganizationInvitationTemplateV1 where
  organizationId : String
  organizationName : String
  invitationId : String
  invitationUrl : String
  inviterDisplayName : Option String
  roleName : Option String
  expiresAt : DateTime
  deriving DecidableEq

structure CreateTransactionalEmailIntent where
  source : IntentSource
  recipient : EmailRecipient
  template : OrganizationInvitationTemplateV1
  idempotencyKey : String
  correlationId : String
  causationId : Option String
  requestedBy : Option String
  deriving DecidableEq

inductive AccessRequestNotificationEvent
  | submitted
  | approved
  | denied
  | expiring
  deriving DecidableEq, Repr

def AccessRequestNotificationEvent.asStr : AccessRequestNotificationEvent → String
  | .submitted => "submitted"
  | .approved => "approved"
  | .denied => "denied"
  | .expiring => "expiring"

structure AccessRequestRoleV1 where
  roleId : String
  displayName : Option String
  deriving DecidableEq

structure AccessRequestScopeV1 where
  kind : String
  id : String
  displayName : Option String
  deriving DecidableEq

structure AccessRequestNotificationTemplateV1 where
  requestId : String
  organizationId : String
  event : AccessRequestNotificationEvent
  role : AccessRequestRoleV1
  scope : AccessRequestScopeV1
  expiresAt : Option DateTime
  deriving DecidableEq

structure CreateAccessRequestNotificationIntent where
  source : IntentSource
  recipient : EmailRecipient
  template : AccessRequestNotificationTemplateV1
  idempotencyKey : String
  correlationId : String
  causationId : Option String
  requestedBy : Option String
  deriving DecidableEq

structure TransactionalIntentReceipt where
  intentId : String
  deliveryId : String
  status : DeliveryStatus
  idempotentReplay : Bool
  deriving DecidableEq, Repr

structure RenderedTemplate where
  templateId : String
  templateVersion : String
  requestedLocale : String
  resolvedLocale : String
  fallbackUsed : Bool
  rendererIdentity : String
  templateDigest : String
  contentDigest : String
  subject : String
  text : String
  html : String
  deriving DecidableEq

namespace Public

variable (X : Externals)

def mapSqlError : NotificationError := ⟨.internal, "Notification storage operation failed"⟩

/-! ## Serialized requests

`request_digest` hashes the serialized request, whose fields stand in declaration order. -/

private def encodeText (text : Option String) : Json := Json.ofOption .str text

private def encodeSource (source : IntentSource) : Json :=
  .obj
    [("module_id", .str source.moduleId), ("entity_type", .str source.entityType),
      ("entity_id", .str source.entityId)]

private def encodeRecipient (recipient : EmailRecipient) : Json :=
  .obj
    [("address", .str recipient.address), ("display_name", encodeText recipient.displayName),
      ("locale", .str recipient.locale)]

private def encodeInvitationTemplate (template : OrganizationInvitationTemplateV1) : Json :=
  .obj
    [("organization_id", .str template.organizationId),
      ("organization_name", .str template.organizationName),
      ("invitation_id", .str template.invitationId),
      ("invitation_url", .str template.invitationUrl),
      ("inviter_display_name", encodeText template.inviterDisplayName),
      ("role_name", encodeText template.roleName),
      ("expires_at", .str (X.serializeTime template.expiresAt))]

private def encodeAccessTemplate (template : AccessRequestNotificationTemplateV1) : Json :=
  .obj
    [("request_id", .str template.requestId), ("organization_id", .str template.organizationId),
      ("event", .str template.event.asStr),
      ("role", .obj [("role_id", .str template.role.roleId),
        ("display_name", encodeText template.role.displayName)]),
      ("scope", .obj [("kind", .str template.scope.kind), ("id", .str template.scope.id),
        ("display_name", encodeText template.scope.displayName)]),
      ("expires_at", Json.ofOption (fun t ↦ .str (X.serializeTime t)) template.expiresAt)]

private def encodeRequest (source : IntentSource) (recipient : EmailRecipient) (template : Json)
    (idempotencyKey correlationId : String) (causationId requestedBy : Option String) : Json :=
  .obj
    [("source", encodeSource source), ("recipient", encodeRecipient recipient),
      ("template", template), ("idempotency_key", .str idempotencyKey),
      ("correlation_id", .str correlationId), ("causation_id", encodeText causationId),
      ("requested_by", encodeText requestedBy)]

def encodeInvitation (request : CreateTransactionalEmailIntent) : Json :=
  encodeRequest request.source request.recipient (encodeInvitationTemplate X request.template)
    request.idempotencyKey request.correlationId request.causationId request.requestedBy

def encodeAccessRequest (request : CreateAccessRequestNotificationIntent) : Json :=
  encodeRequest request.source request.recipient (encodeAccessTemplate X request.template)
    request.idempotencyKey request.correlationId request.causationId request.requestedBy

/-! ## Validation

Every bound in the order of the source, so that the first error is the one that is reported. -/

def validateBounded (field value : String) (minimum maximum : ℕ) : NotificationResult Unit :=
  ensure (isBlank value = false ∧ minimum ≤ value.length ∧ value.length ≤ maximum)
    ⟨.validation, field ++ " must contain between " ++ toString minimum ++ " and " ++
      toString maximum ++ " characters"⟩

def validateAtMost (field : String) (value : Option String) (maximum : ℕ) :
    NotificationResult Unit :=
  ensure (optionalBounded value maximum = true)
    ⟨.validation, field ++ " must contain at most " ++ toString maximum ++ " characters"⟩

private def invalid (message : String) : NotificationError := ⟨.validation, message⟩

def validateInvitationRequest (request : CreateTransactionalEmailIntent) (now : DateTime) :
    NotificationResult Unit := do
  validateBounded "source.module_id" request.source.moduleId 1 160
  validateBounded "source.entity_type" request.source.entityType 1 160
  validateBounded "source.entity_id" request.source.entityId 1 240
  validateBounded "recipient.address" request.recipient.address 3 320
  validateBounded "recipient.locale" request.recipient.locale 2 32
  validateBounded "idempotency_key" request.idempotencyKey 1 240
  validateBounded "correlation_id" request.correlationId 1 240
  validateBounded "template.organization_id" request.template.organizationId 1 240
  validateBounded "template.organization_name" request.template.organizationName 1 240
  validateBounded "template.invitation_id" request.template.invitationId 1 240
  validateBounded "template.invitation_url" request.template.invitationUrl 1 4096
  validateAtMost "recipient.display_name" request.recipient.displayName 240
  validateAtMost "template.inviter_display_name" request.template.inviterDisplayName 240
  validateAtMost "template.role_name" request.template.roleName 160
  validateAtMost "causation_id" request.causationId 240
  validateAtMost "requested_by" request.requestedBy 240
  ensure ('@' ∈ request.recipient.address.toList)
    (invalid "recipient.address must be an email address")
  ensure (request.recipient.locale = "en" ∨ request.recipient.locale = "en-US")
    (invalid "organization-invitation@v1 supports locale en or en-US")
  ensure
    ("https://".toList.isPrefixOf request.template.invitationUrl.toList = true ∨
      "http://localhost".toList.isPrefixOf request.template.invitationUrl.toList = true)
    (invalid "template.invitation_url must use HTTPS")
  ensure (now < request.template.expiresAt)
    (invalid "template.expires_at must be in the future")
  ensure
    (request.source.entityType = "organization_invitation" ∧
      request.source.entityId = request.template.invitationId)
    (invalid "Notification source must identify the rendered organization invitation")

/-- The expiry rules of the four events. -/
def validateExpiry (event : AccessRequestNotificationEvent) (expiresAt : Option DateTime)
    (now : DateTime) : NotificationResult Unit :=
  match event, expiresAt with
  | .expiring, some t =>
    ensure (now < t) (invalid "expiring access-request notifications require a future expiry")
  | .expiring, none =>
    .error (invalid "expiring access-request notifications require a future expiry")
  | .denied, some _ =>
    .error (invalid "denied access-request notifications cannot claim an expiry")
  | _, some t =>
    ensure (now < t) (invalid "access-request notification expiry must be in the future")
  | _, none => pure ()

def validateAccessRequest (request : CreateAccessRequestNotificationIntent) (now : DateTime) :
    NotificationResult Unit := do
  validateBounded "source.module_id" request.source.moduleId 1 160
  validateBounded "source.entity_type" request.source.entityType 1 160
  validateBounded "source.entity_id" request.source.entityId 1 240
  validateBounded "recipient.address" request.recipient.address 3 320
  validateBounded "recipient.locale" request.recipient.locale 2 32
  validateBounded "template.request_id" request.template.requestId 1 160
  validateBounded "template.organization_id" request.template.organizationId 1 240
  validateBounded "template.role.role_id" request.template.role.roleId 1 160
  validateBounded "template.scope.kind" request.template.scope.kind 1 160
  validateBounded "template.scope.id" request.template.scope.id 1 240
  validateBounded "idempotency_key" request.idempotencyKey 1 240
  validateBounded "correlation_id" request.correlationId 1 240
  validateAtMost "recipient.display_name" request.recipient.displayName 240
  validateAtMost "template.role.display_name" request.template.role.displayName 160
  validateAtMost "template.scope.display_name" request.template.scope.displayName 240
  validateAtMost "causation_id" request.causationId 240
  validateAtMost "requested_by" request.requestedBy 240
  ensure ('@' ∈ request.recipient.address.toList)
    (invalid "recipient.address must be an email address")
  ensure (request.recipient.locale = "en" ∨ request.recipient.locale = "en-US")
    (invalid "access-request@v1 supports locale en or en-US")
  ensure
    (request.source.entityType = "access_request" ∧
      request.source.entityId = request.template.requestId)
    (invalid "Notification source must identify the rendered access request")
  ensure
    (request.idempotencyKey =
      "access-request:" ++ request.template.requestId ++ ":" ++ request.template.event.asStr)
    (invalid "access-request notification idempotency must be request-and-event stable")
  validateExpiry request.template.event request.template.expiresAt now

def validateRenderedTemplate (rendered : RenderedTemplate)
    (expectedTemplateId expectedVersion expectedRequestedLocale : String) :
    NotificationResult Unit :=
  let metadataValid :=
    rendered.templateId = expectedTemplateId ∧ rendered.templateVersion = expectedVersion ∧
      rendered.requestedLocale = expectedRequestedLocale ∧
      rendered.fallbackUsed = decide (rendered.requestedLocale ≠ rendered.resolvedLocale) ∧
      requiredBounded rendered.resolvedLocale 2 32 = true ∧
      requiredBounded rendered.rendererIdentity 1 160 = true ∧
      isDigest rendered.templateDigest = true ∧ isDigest rendered.contentDigest = true
  let contentValid :=
    requiredBounded rendered.subject 1 998 = true ∧ '\r' ∉ rendered.subject.toList ∧
      '\n' ∉ rendered.subject.toList ∧ requiredBounded rendered.text 1 131072 = true ∧
      requiredBounded rendered.html 1 262144 = true ∧
      Snapshot.contentDigest X rendered.subject rendered.text rendered.html =
        rendered.contentDigest
  ensure (metadataValid ∧ contentValid)
    ⟨.internal, "Notification Template Provider returned an invalid render projection"⟩

def accessRequestTemplateId : AccessRequestNotificationEvent → String
  | .submitted => "access-request-submitted"
  | .approved => "access-request-approved"
  | .denied => "access-request-denied"
  | .expiring => "access-request-expiring"

/-! ## The two request types together

The two operations differ in the request, its checks, its digest and its template. From here on they
are one, over the sum of the two. -/

inductive IntentRequest
  | invitation (request : CreateTransactionalEmailIntent)
  | accessRequest (request : CreateAccessRequestNotificationIntent)
  deriving DecidableEq

namespace IntentRequest

def source : IntentRequest → IntentSource
  | invitation request => request.source
  | accessRequest request => request.source

def recipient : IntentRequest → EmailRecipient
  | invitation request => request.recipient
  | accessRequest request => request.recipient

def idempotencyKey : IntentRequest → String
  | invitation request => request.idempotencyKey
  | accessRequest request => request.idempotencyKey

def correlationId : IntentRequest → String
  | invitation request => request.correlationId
  | accessRequest request => request.correlationId

def causationId : IntentRequest → Option String
  | invitation request => request.causationId
  | accessRequest request => request.causationId

def requestedBy : IntentRequest → Option String
  | invitation request => request.requestedBy
  | accessRequest request => request.requestedBy

def purpose : IntentRequest → Purpose
  | invitation _ => .organizationInvitation
  | accessRequest _ => .accessRequest

def templateId : IntentRequest → String
  | invitation _ => "organization-invitation"
  | accessRequest request => accessRequestTemplateId request.template.event

def encode : IntentRequest → Json
  | invitation request => encodeInvitation X request
  | accessRequest request => encodeAccessRequest X request

def digest (request : IntentRequest) : String := Snapshot.requestDigest X (request.encode X)

def validate (now : DateTime) : IntentRequest → NotificationResult Unit
  | invitation request => validateInvitationRequest request now
  | accessRequest request => validateAccessRequest request now

end IntentRequest

/-- Both template families are rendered at this version. -/
def templateVersion : String := "v1"

structure IntentPersistence where
  source : IntentSource
  recipient : EmailRecipient
  idempotencyKey : String
  correlationId : String
  causationId : Option String
  requestedBy : Option String
  purpose : Purpose
  templateId : String
  templateVersion : String
  templateLocale : String
  rendererIdentity : String
  templateDigest : String
  contentDigest : String
  requestDigest : String
  rendered : RenderedTemplate
  deriving DecidableEq

/-! ## The idempotency check

The intent is looked up by the pair, and its digest is compared afterwards; a match is answered from
the stored rows. -/

def projectIdempotentIntent (existing : Option (Intent × Delivery)) (digest : String) :
    NotificationResult (Option TransactionalIntentReceipt) :=
  match existing with
  | none => pure none
  | some (intent, delivery) => do
    ensure (intent.requestDigest = digest)
      ⟨.conflict, "Notification idempotency key was used with different input"⟩
    pure <| some {
      intentId := intent.id
      deliveryId := delivery.id
      status := delivery.status
      idempotentReplay := true }

/-- The stored intent of a key, joined with its delivery. -/
def storedIntent (L : Ledger) (sourceModule idempotencyKey : String) :
    Option (Intent × Delivery) := do
  let intent ← L.intents.rows.find? fun i ↦
    decide (i.sourceModule = sourceModule) && decide (i.idempotencyKey = idempotencyKey)
  let delivery ← L.deliveries.rows.find? fun d ↦ decide (d.intentId = intent.id)
  return (intent, delivery)

/-- `find_idempotent_intent` and `find_idempotent_intent_in_pool`. -/
def findIdempotentIntent (L : Ledger) (sourceModule idempotencyKey digest : String) :
    NotificationResult (Option TransactionalIntentReceipt) := do
  ensure (Storable [sourceModule, idempotencyKey]) mapSqlError
  projectIdempotentIntent (storedIntent L sourceModule idempotencyKey) digest

/-- The replay read of either request type, before anything is rendered. -/
def findReplay (L : Ledger) (request : IntentRequest) (now : DateTime) :
    NotificationResult (Option TransactionalIntentReceipt) := do
  request.validate now
  findIdempotentIntent L request.source.moduleId request.idempotencyKey (request.digest X)

def findTransactionalEmailIntentReplay (L : Ledger) (request : CreateTransactionalEmailIntent)
    (now : DateTime) : NotificationResult (Option TransactionalIntentReceipt) :=
  findReplay X L (.invitation request) now

def findAccessRequestNotificationReplay (L : Ledger)
    (request : CreateAccessRequestNotificationIntent) (now : DateTime) :
    NotificationResult (Option TransactionalIntentReceipt) :=
  findReplay X L (.accessRequest request) now

/-! ## Writing

The transaction behind the lock: release, envelopes, snapshot, intent and delivery, in this order.
-/

/-- The nonces of the four encryptions of one write. -/
structure Nonces where
  subject : Nonce
  text : Nonce
  html : Nonce
  recipient : Nonce

def templateReleaseIdOf (intent : IntentPersistence) : String :=
  stableId X "ntf_tpl"
    (intent.templateId ++ ":" ++ intent.templateVersion ++ ":" ++ intent.templateLocale)

def snapshotIdOf (requestDigest : String) : String := stableId X "ntf_snp" requestDigest

def intentIdOf (moduleId idempotencyKey requestDigest : String) : String :=
  stableId X "ntf_int" (moduleId ++ ":" ++ idempotencyKey ++ ":" ++ requestDigest)

def deliveryIdOf (intentId : String) : String := stableId X "ntf_dlv" intentId

/-- Inserts the release unless its `(template_id, version, locale)` exists, and compares the stored
digest. -/
def ensureTemplateRelease (L : Ledger) (intent : IntentPersistence) (now : DateTime) :
    NotificationResult Ledger := do
  let release : TemplateRelease := {
    id := templateReleaseIdOf X intent
    templateId := intent.templateId
    version := intent.templateVersion
    locale := intent.templateLocale
    rendererIdentity := intent.rendererIdentity
    templateDigest := intent.templateDigest
    createdAt := now.stored }
  ensure release.Conforms mapSqlError
  match L.templateReleases.rows.find? fun r ↦
    decide (r.templateId = intent.templateId) && decide (r.version = intent.templateVersion) &&
      decide (r.locale = intent.templateLocale) with
  | some stored => do
    ensure (stored.templateDigest = intent.templateDigest)
      ⟨.internal, "Notification template release is immutable"⟩
    pure L
  | none => require (L.insertTemplateRelease release) mapSqlError

/-- The row holding the protected content of a render. -/
def snapshotRow (intent : IntentPersistence) (subject text html : ProtectedValue)
    (messageDigest : String) (now : DateTime) : RenderSnapshot where
  id := snapshotIdOf X intent.requestDigest
  templateReleaseId := templateReleaseIdOf X intent
  subjectCiphertext := subject.ciphertext
  textCiphertext := text.ciphertext
  htmlCiphertext := html.ciphertext
  protectionKeyRef := subject.keyReference
  contentDigest := messageDigest
  redactedPreview := Snapshot.redactPreview intent.rendered.text
  createdAt := now.stored

/-- The row of a new intent. -/
def intentRow (intent : IntentPersistence) (recipient : ProtectedValue) (now : DateTime) :
    Intent where
  id := intentIdOf X intent.source.moduleId intent.idempotencyKey intent.requestDigest
  purpose := intent.purpose
  sourceModule := intent.source.moduleId
  sourceEntityType := intent.source.entityType
  sourceEntityId := intent.source.entityId
  recipientCiphertext := recipient.ciphertext
  recipientKeyRef := recipient.keyReference
  recipientMask := Snapshot.maskEmail intent.recipient.address
  locale := intent.recipient.locale
  snapshotId := snapshotIdOf X intent.requestDigest
  idempotencyKey := intent.idempotencyKey
  requestDigest := intent.requestDigest
  requestedBy := intent.requestedBy
  correlationId := intent.correlationId
  causationId := intent.causationId
  requestedAt := now.stored

/-- The row a new intent queues. -/
def deliveryRow (intentId : String) (now : DateTime) : Delivery where
  id := deliveryIdOf X intentId
  intentId := intentId
  status := .queued
  revision := 1
  attemptCount := 0
  maxAttempts := 4
  nextAttemptAt := some now.stored
  acceptedAt := none
  deliveredAt := none
  finalAt := none
  finalReason := none
  createdAt := now.stored
  updatedAt := now.stored

variable (protector : SnapshotProtector)

/-- `persist_intent` after its idempotency check. -/
def writeIntent (L : Ledger) (intent : IntentPersistence) (nonces : Nonces) (now : DateTime) :
    NotificationResult (Ledger × TransactionalIntentReceipt) := do
  let messageDigest :=
    Snapshot.contentDigest X intent.rendered.subject intent.rendered.text intent.rendered.html
  ensure (messageDigest = intent.contentDigest)
    ⟨.internal, "Notification Template content digest does not match rendered content"⟩
  let L ← ensureTemplateRelease X L intent now
  let subject ← protector.protect nonces.subject intent.rendered.subject
  let text ← protector.protect nonces.text intent.rendered.text
  let html ← protector.protect nonces.html intent.rendered.html
  ensure (subject.keyReference = text.keyReference ∧ text.keyReference = html.keyReference)
    ⟨.internal, "Notification snapshot protection key changed during rendering"⟩
  let recipient ← protector.protect nonces.recipient intent.recipient.address
  let intentId := intentIdOf X intent.source.moduleId intent.idempotencyKey intent.requestDigest
  let L ← require
    (L.insertRenderSnapshot (snapshotRow X intent subject text html messageDigest now)) mapSqlError
  let L ← require (L.insertIntent (intentRow X intent recipient now)) mapSqlError
  let L ← require (L.insertDelivery (deliveryRow X intentId now)) mapSqlError
  pure
    (L,
      { intentId
        deliveryId := deliveryIdOf X intentId
        status := .queued
        idempotentReplay := false })

/-- The text whose hash the advisory lock is taken on. -/
def lockText (moduleId idempotencyKey : String) : String :=
  "notification:" ++ moduleId ++ ":" ++ idempotencyKey

/-- The check made while the advisory lock is held, against a fresh statement snapshot. -/
def recheckIntent (L : Ledger) (intent : IntentPersistence) :
    NotificationResult (Option TransactionalIntentReceipt) := do
  ensure (Storable [lockText intent.source.moduleId intent.idempotencyKey]) mapSqlError
  findIdempotentIntent L intent.source.moduleId intent.idempotencyKey intent.requestDigest

def persistIntent (L : Ledger) (intent : IntentPersistence) (nonces : Nonces) (now : DateTime) :
    NotificationResult (Ledger × TransactionalIntentReceipt) := do
  match ← recheckIntent L intent with
  | some existing => pure (L, existing)
  | none => writeIntent X protector L intent nonces now

/-- What both `…_in_tx` functions do before `persist_intent`. -/
def prepareIntent (request : IntentRequest) (rendered : RenderedTemplate) (now : DateTime) :
    NotificationResult IntentPersistence := do
  request.validate now
  validateRenderedTemplate X rendered request.templateId templateVersion request.recipient.locale
  pure {
    source := request.source
    recipient := request.recipient
    idempotencyKey := request.idempotencyKey
    correlationId := request.correlationId
    causationId := request.causationId
    requestedBy := request.requestedBy
    purpose := request.purpose
    templateId := rendered.templateId
    templateVersion := rendered.templateVersion
    templateLocale := rendered.resolvedLocale
    rendererIdentity := rendered.rendererIdentity
    templateDigest := rendered.templateDigest
    contentDigest := rendered.contentDigest
    requestDigest := request.digest X
    rendered }

def createInTx (L : Ledger) (request : IntentRequest) (rendered : RenderedTemplate)
    (nonces : Nonces) (now : DateTime) :
    NotificationResult (Ledger × TransactionalIntentReceipt) := do
  let intent ← prepareIntent X request rendered now
  persistIntent X protector L intent nonces now

def createTransactionalEmailIntentInTx (L : Ledger) (request : CreateTransactionalEmailIntent)
    (rendered : RenderedTemplate) (nonces : Nonces) (now : DateTime) :
    NotificationResult (Ledger × TransactionalIntentReceipt) :=
  createInTx X protector L (.invitation request) rendered nonces now

def createAccessRequestNotificationInTx (L : Ledger)
    (request : CreateAccessRequestNotificationIntent) (rendered : RenderedTemplate)
    (nonces : Nonces) (now : DateTime) :
    NotificationResult (Ledger × TransactionalIntentReceipt) :=
  createInTx X protector L (.accessRequest request) rendered nonces now

/-! ## Distinct requests are encoded differently

Each field has its own key or place, an absent one is written as null, and times are read back by
assumption. -/

private theorem encodeText_injective : Function.Injective encodeText := by
  intro a b h
  cases a <;> cases b <;> simp_all [encodeText, Json.ofOption]

private theorem serializeTime_injective : Function.Injective X.serializeTime := by
  intro s t h
  have hs := X.deserialize_serialize s
  rw [h, X.deserialize_serialize t, Option.some_inj] at hs
  exact hs.symm

private theorem encodeSource_injective : Function.Injective encodeSource := by
  rintro ⟨⟩ ⟨⟩ h
  simp_all [encodeSource]

private theorem encodeRecipient_injective : Function.Injective encodeRecipient := by
  rintro ⟨_, a, _⟩ ⟨_, b, _⟩ h
  simp only [encodeRecipient, Json.obj.injEq, List.cons.injEq, Prod.mk.injEq, Json.str.injEq,
    true_and, and_true] at h
  simp [h.1, encodeText_injective h.2.1, h.2.2]

private theorem encodeInvitationTemplate_injective :
    Function.Injective (encodeInvitationTemplate X) := by
  rintro ⟨⟩ ⟨⟩ h
  simp only [encodeInvitationTemplate, Json.obj.injEq, List.cons.injEq, Prod.mk.injEq,
    Json.str.injEq, true_and, and_true] at h
  obtain ⟨h₁, h₂, h₃, h₄, h₅, h₆, h₇⟩ := h
  simp [h₁, h₂, h₃, h₄, encodeText_injective h₅, encodeText_injective h₆,
    serializeTime_injective X h₇]

private theorem asStr_injective : Function.Injective AccessRequestNotificationEvent.asStr := by
  intro a b h
  cases a <;> cases b <;> first | rfl | exact absurd h (by decide)

private theorem encodeExpiry_injective :
    Function.Injective (Json.ofOption fun t ↦ Json.str (X.serializeTime t)) := by
  intro a b h
  cases a <;> cases b <;> simp_all [Json.ofOption, (serializeTime_injective X).eq_iff]

private theorem encodeAccessTemplate_injective :
    Function.Injective (encodeAccessTemplate X) := by
  rintro ⟨_, _, _, ⟨⟩, ⟨⟩, _⟩ ⟨_, _, _, ⟨⟩, ⟨⟩, _⟩ h
  simp only [encodeAccessTemplate, Json.obj.injEq, List.cons.injEq, Prod.mk.injEq, Json.str.injEq,
    true_and, and_true] at h
  obtain ⟨h₁, h₂, h₃, ⟨h₄, h₅⟩, ⟨h₆, h₇, h₈⟩, h₉⟩ := h
  simp [h₁, h₂, asStr_injective h₃, h₄, encodeText_injective h₅, h₆, h₇, encodeText_injective h₈,
    encodeExpiry_injective X h₉]

private theorem encodeTemplate_ne (a : OrganizationInvitationTemplateV1)
    (b : AccessRequestNotificationTemplateV1) :
    encodeInvitationTemplate X a ≠ encodeAccessTemplate X b := by
  simp [encodeInvitationTemplate, encodeAccessTemplate]

private theorem encodeRequest_injective {s s' : IntentSource} {r r' : EmailRecipient}
    {t t' : Json} {k k' c c' : String} {u u' b b' : Option String}
    (h : encodeRequest s r t k c u b = encodeRequest s' r' t' k' c' u' b') :
    s = s' ∧ r = r' ∧ t = t' ∧ k = k' ∧ c = c' ∧ u = u' ∧ b = b' := by
  simp only [encodeRequest, Json.obj.injEq, List.cons.injEq, Prod.mk.injEq, Json.str.injEq,
    true_and, and_true] at h
  obtain ⟨h₁, h₂, h₃, h₄, h₅, h₆, h₇⟩ := h
  exact ⟨encodeSource_injective h₁, encodeRecipient_injective h₂, h₃, h₄, h₅,
    encodeText_injective h₆, encodeText_injective h₇⟩

/-- Two requests with one serialized form are the same request, also across the two types. -/
theorem IntentRequest.encode_injective : Function.Injective (IntentRequest.encode X) := by
  intro a b h
  cases a with
  | invitation a =>
    cases b with
    | invitation b =>
      obtain ⟨h₁, h₂, h₃, h₄, h₅, h₆, h₇⟩ := encodeRequest_injective h
      have htemplate := encodeInvitationTemplate_injective X h₃
      cases a
      cases b
      simp_all
    | accessRequest b =>
      exact absurd (encodeRequest_injective h).2.2.1 (encodeTemplate_ne X _ _)
  | accessRequest a =>
    cases b with
    | invitation b =>
      exact absurd (encodeRequest_injective h).2.2.1.symm (encodeTemplate_ne X _ _)
    | accessRequest b =>
      obtain ⟨h₁, h₂, h₃, h₄, h₅, h₆, h₇⟩ := encodeRequest_injective h
      have htemplate := encodeAccessTemplate_injective X h₃
      cases a
      cases b
      simp_all

end Public

end NotificationLedger

import NotificationLedger.Domain

/-!
# Observation payloads and their wire form

The records the plugin wraps into observation envelopes, with the derived serde encoders and
decoders. An encoded object lists its keys in declaration order, in which `serde_json` keeps them. A
decoder sorts the entries of an object into one slot for each field (`Json.slots`), refuses unknown
and repeated fields on all of these records, and reads an array by position; a field is then read
from its slot alone, so that each record has one equation.

Encoding followed by decoding is the identity on all three payloads (`decode_encode`), so what the
applier validates is what the plugin built.
-/

namespace NotificationLedger

def emailDispatchObservedEvent : String := "lenso.email.dispatch-observed.v1"
def emailReceiptObservedEvent : String := "lenso.email.receipt-observed.v1"
def organizationInvitationAcceptedEvent : String := "lenso.organization.invitation-accepted.v1"
def organizationInvitationExpiredEvent : String := "lenso.organization.invitation-expired.v1"
def organizationInvitationRevokedEvent : String := "lenso.organization.invitation-revoked.v1"

inductive DispatchOutcome
  | accepted
  | temporaryFailure
  | permanentFailure
  | deliveryUnknown
  deriving DecidableEq, Repr

structure RemoteReceiptSummary where
  remoteId : String
  source : String
  digest : String
  deriving DecidableEq, Repr

structure SanitizedFailure where
  code : String
  classification : String
  retryAfterMs : Option UInt64
  deriving DecidableEq, Repr

structure EmailDispatchObserved where
  deliveryId : String
  attemptId : String
  functionRunId : String
  outcome : DispatchOutcome
  provider : String
  observedAt : DateTime
  remoteReceipt : Option RemoteReceiptSummary
  failure : Option SanitizedFailure
  deriving DecidableEq

inductive ReceiptKind
  | delivered
  | bounced
  | rejected
  deriving DecidableEq, Repr

structure EmailReceiptObserved where
  deliveryId : String
  attemptId : String
  functionRunId : String
  kind : ReceiptKind
  source : String
  observedAt : DateTime
  remoteId : String
  digest : String
  deriving DecidableEq

structure OrganizationInvitationLifecycle where
  invitationId : String
  organizationId : String
  observedAt : DateTime
  deriving DecidableEq

/-! ## Encoding -/

/-- The wire name of an outcome; a failure carries it as its classification. -/
def DispatchOutcome.asStr : DispatchOutcome → String
  | .accepted => "accepted"
  | .temporaryFailure => "temporary_failure"
  | .permanentFailure => "permanent_failure"
  | .deliveryUnknown => "delivery_unknown"

def DispatchOutcome.ofStr (s : String) : Option DispatchOutcome :=
  if s = "accepted" then some .accepted
  else if s = "temporary_failure" then some .temporaryFailure
  else if s = "permanent_failure" then some .permanentFailure
  else if s = "delivery_unknown" then some .deliveryUnknown
  else none

def ReceiptKind.asStr : ReceiptKind → String
  | .delivered => "delivered"
  | .bounced => "bounced"
  | .rejected => "rejected"

def ReceiptKind.ofStr (s : String) : Option ReceiptKind :=
  if s = "delivered" then some .delivered
  else if s = "bounced" then some .bounced
  else if s = "rejected" then some .rejected
  else none

theorem DispatchOutcome.ofStr_asStr (o : DispatchOutcome) : ofStr o.asStr = some o := by
  cases o <;> decide

theorem ReceiptKind.ofStr_asStr (k : ReceiptKind) : ofStr k.asStr = some k := by
  cases k <;> decide

variable (X : Externals)

def RemoteReceiptSummary.encode (r : RemoteReceiptSummary) : Json :=
  .obj [("remoteId", .str r.remoteId), ("source", .str r.source), ("digest", .str r.digest)]

def SanitizedFailure.encode (f : SanitizedFailure) : Json :=
  .obj
    [("code", .str f.code), ("classification", .str f.classification),
      ("retryAfterMs", Json.ofOption (fun n ↦ .num n.toNat) f.retryAfterMs)]

def EmailDispatchObserved.encode (p : EmailDispatchObserved) : Json :=
  .obj
    [("deliveryId", .str p.deliveryId), ("attemptId", .str p.attemptId),
      ("functionRunId", .str p.functionRunId), ("outcome", .str p.outcome.asStr),
      ("provider", .str p.provider), ("observedAt", .str (X.serializeTime p.observedAt)),
      ("remoteReceipt", Json.ofOption RemoteReceiptSummary.encode p.remoteReceipt),
      ("failure", Json.ofOption SanitizedFailure.encode p.failure)]

def EmailReceiptObserved.encode (p : EmailReceiptObserved) : Json :=
  .obj
    [("deliveryId", .str p.deliveryId), ("attemptId", .str p.attemptId),
      ("functionRunId", .str p.functionRunId), ("kind", .str p.kind.asStr),
      ("source", .str p.source), ("observedAt", .str (X.serializeTime p.observedAt)),
      ("remoteId", .str p.remoteId), ("digest", .str p.digest)]

def OrganizationInvitationLifecycle.encode (p : OrganizationInvitationLifecycle) : Json :=
  .obj
    [("invitationId", .str p.invitationId), ("organizationId", .str p.organizationId),
      ("observedAt", .str (X.serializeTime p.observedAt))]

/-! ## Decoding

Slots are listed in declaration order, which is also the order of the array form. -/

def asTime (v : Json) : Option DateTime := v.asString.bind X.deserializeTime

def RemoteReceiptSummary.decode (v : Json) : Option RemoteReceiptSummary := do
  match ← Json.slots [["remoteId"], ["source"], ["digest"]] true v with
  | [remoteId, source, digest] =>
    return {
      remoteId := ← Json.required Json.asString remoteId
      source := ← Json.required Json.asString source
      digest := ← Json.required Json.asString digest }
  | _ => none

def SanitizedFailure.decode (v : Json) : Option SanitizedFailure := do
  match ← Json.slots [["code"], ["classification"], ["retryAfterMs"]] true v with
  | [code, classification, retryAfterMs] =>
    return {
      code := ← Json.required Json.asString code
      classification := ← Json.required Json.asString classification
      retryAfterMs := ← Json.optional Json.asU64 retryAfterMs }
  | _ => none

def EmailDispatchObserved.decode (v : Json) : Option EmailDispatchObserved := do
  match ← Json.slots
    [["deliveryId"], ["attemptId"], ["functionRunId"], ["outcome"], ["provider"], ["observedAt"],
      ["remoteReceipt"], ["failure"]] true v with
  | [deliveryId, attemptId, functionRunId, outcome, provider, observedAt, remoteReceipt, failure] =>
    return {
      deliveryId := ← Json.required Json.asString deliveryId
      attemptId := ← Json.required Json.asString attemptId
      functionRunId := ← Json.required Json.asString functionRunId
      outcome := ← Json.required (Json.asVariant DispatchOutcome.ofStr) outcome
      provider := ← Json.required Json.asString provider
      observedAt := ← Json.required (asTime X) observedAt
      remoteReceipt := ← Json.optional RemoteReceiptSummary.decode remoteReceipt
      failure := ← Json.optional SanitizedFailure.decode failure }
  | _ => none

def EmailReceiptObserved.decode (v : Json) : Option EmailReceiptObserved := do
  match ← Json.slots
    [["deliveryId"], ["attemptId"], ["functionRunId"], ["kind"], ["source"], ["observedAt"],
      ["remoteId"], ["digest"]] true v with
  | [deliveryId, attemptId, functionRunId, kind, source, observedAt, remoteId, digest] =>
    return {
      deliveryId := ← Json.required Json.asString deliveryId
      attemptId := ← Json.required Json.asString attemptId
      functionRunId := ← Json.required Json.asString functionRunId
      kind := ← Json.required (Json.asVariant ReceiptKind.ofStr) kind
      source := ← Json.required Json.asString source
      observedAt := ← Json.required (asTime X) observedAt
      remoteId := ← Json.required Json.asString remoteId
      digest := ← Json.required Json.asString digest }
  | _ => none

/-- The lifecycle record knows the time under three more names. -/
def OrganizationInvitationLifecycle.decode (v : Json) :
    Option OrganizationInvitationLifecycle := do
  match ← Json.slots
    [["invitationId"], ["organizationId"], ["observedAt", "acceptedAt", "expiredAt", "revokedAt"]]
    true v with
  | [invitationId, organizationId, observedAt] =>
    return {
      invitationId := ← Json.required Json.asString invitationId
      organizationId := ← Json.required Json.asString organizationId
      observedAt := ← Json.required (asTime X) observedAt }
  | _ => none

/-! ## Round trips -/

theorem asTime_serializeTime (t : DateTime) :
    asTime X (.str (X.serializeTime t)) = some t := by
  rw [asTime, Json.asString_str, Option.bind_some, X.deserialize_serialize]

theorem RemoteReceiptSummary.decode_encode (r : RemoteReceiptSummary) :
    decode r.encode = some r := by
  simp [decode, encode, Json.slots, Json.slot]

theorem SanitizedFailure.decode_encode (f : SanitizedFailure) : decode f.encode = some f := by
  have hretry : Json.optional Json.asU64
      (some (Json.ofOption (fun n ↦ .num (n : UInt64).toNat) f.retryAfterMs)) =
        some f.retryAfterMs :=
    Json.optional_ofOption (fun _ ↦ by simp) fun n _ ↦ Json.asU64_num n
  simp [decode, encode, Json.slots, Json.slot, hretry]

theorem EmailDispatchObserved.decode_encode (p : EmailDispatchObserved) :
    decode X (p.encode X) = some p := by
  have hreceipt : Json.optional RemoteReceiptSummary.decode
      (some (Json.ofOption RemoteReceiptSummary.encode p.remoteReceipt)) =
        some p.remoteReceipt :=
    Json.optional_ofOption (fun _ ↦ by simp [RemoteReceiptSummary.encode])
      fun r _ ↦ r.decode_encode
  have hfailure : Json.optional SanitizedFailure.decode
      (some (Json.ofOption SanitizedFailure.encode p.failure)) = some p.failure :=
    Json.optional_ofOption (fun _ ↦ by simp [SanitizedFailure.encode]) fun f _ ↦ f.decode_encode
  simp [decode, encode, Json.slots, Json.slot, hreceipt, hfailure, asTime_serializeTime,
    DispatchOutcome.ofStr_asStr]

theorem EmailReceiptObserved.decode_encode (p : EmailReceiptObserved) :
    decode X (p.encode X) = some p := by
  simp [decode, encode, Json.slots, Json.slot, asTime_serializeTime, ReceiptKind.ofStr_asStr]

theorem OrganizationInvitationLifecycle.decode_encode (p : OrganizationInvitationLifecycle) :
    decode X (p.encode X) = some p := by
  simp [decode, encode, Json.slots, Json.slot, asTime_serializeTime]

end NotificationLedger

import NotificationLedger.Authority
import NotificationLedger.Retries

/-!
# The tools of the agent

A second plugin offers the operations of an administrator to an agent, as tools that take a text and
answer with one. It keeps no state of its own: a call of a tool reads its arguments, calls one
operation for the same caller, and tells the outcome. From the request
and the answer one can say how the operation went, up to the contents of an error that a newer
contract added.

## Errors of newer contracts

The adapter and the provider are deployed apart, so the client of the capability has to read errors
that its contract does not name. It keeps their code, payload and remaining members
(`UnknownDomainError`), and the adapter answers all of them with one code. The three tools share one
body (`AgentTools.call`); what differs is the operation, its decoder and the table of error codes.
-/

namespace NotificationLedger

/-! ## The requests as JSON

Derived decoders, as the arguments of a tool are read by them. -/

/-- A signed 64-bit number. -/
def Json.asI64 : Json → Option ℤ
  | .num n => if -2 ^ 63 ≤ n ∧ n < 2 ^ 63 then some n else none
  | _ => none

def DeliveryStatus.ofStr (s : String) : Option DeliveryStatus :=
  if s = "queued" then some .queued
  else if s = "attempting" then some .attempting
  else if s = "accepted" then some .accepted
  else if s = "retry_scheduled" then some .retryScheduled
  else if s = "delivered" then some .delivered
  else if s = "failed" then some .failed
  else if s = "delivery_unknown" then some .deliveryUnknown
  else none

def Plugin.ListDeliveriesRequest.decode (v : Json) : Option ListDeliveriesRequest := do
  match ← Json.slots [["cursor"], ["limit"], ["status"]] false v with
  | [cursor, limit, status] =>
    return {
      cursor := ← Json.optional Json.asString cursor
      limit := ← Json.optional Json.asI64 limit
      status := ← Json.optional (Json.asVariant DeliveryStatus.ofStr) status }
  | _ => none

structure GetDeliveryRequest where
  deliveryId : String

def GetDeliveryRequest.decode (v : Json) : Option GetDeliveryRequest := do
  match ← Json.slots [["delivery_id"]] false v with
  | [deliveryId] => return { deliveryId := ← Json.required Json.asString deliveryId }
  | _ => none

def RetryDeliveryRequest.decode (v : Json) : Option RetryDeliveryRequest := do
  match ← Json.slots [["delivery_id"], ["idempotency_key"], ["revision"]] false v with
  | [deliveryId, idempotencyKey, revision] =>
    return {
      deliveryId := ← Json.required Json.asString deliveryId
      idempotencyKey := ← Json.required Json.asString idempotencyKey
      revision := ← Json.required Json.asI64 revision }
  | _ => none

/-! ## The responses as JSON

Derived encoders. They are injective, which is what makes an answer tell its response. -/

def AttemptStatus.asStr : AttemptStatus → String
  | .dispatching => "dispatching"
  | .accepted => "accepted"
  | .temporaryFailure => "temporary_failure"
  | .permanentFailure => "permanent_failure"
  | .deliveryUnknown => "delivery_unknown"

def RetryKind.asStr : RetryKind → String
  | .automatic => "automatic"
  | .manual => "manual"

def RetryDecision.asStr : RetryDecision → String
  | .scheduled => "scheduled"
  | .rejected => "rejected"

namespace Plugin

def AdminDelivery.encode (d : AdminDelivery) : Json :=
  .obj [("attempt_count", .num d.attemptCount), ("content_digest", .str d.contentDigest),
    ("correlation_id", .str d.correlationId), ("created_at", .str d.createdAt),
    ("final_reason", Json.ofOption .str d.finalReason), ("id", .str d.id),
    ("locale", .str d.locale), ("max_attempts", .num d.maxAttempts),
    ("next_attempt_at", Json.ofOption .str d.nextAttemptAt),
    ("recipient_mask", .str d.recipientMask), ("redacted_preview", .str d.redactedPreview),
    ("retry_now_eligible", .bool d.retryNowEligible), ("revision", .num d.revision),
    ("status", .str d.status.asStr), ("template_id", .str d.templateId),
    ("template_version", .str d.templateVersion), ("updated_at", .str d.updatedAt)]

def AdminAttempt.encode (a : AdminAttempt) : Json :=
  .obj [("completed_at", Json.ofOption .str a.completedAt),
    ("failure_classification", Json.ofOption .str a.failureClassification),
    ("failure_code", Json.ofOption .str a.failureCode), ("id", .str a.id),
    ("provider", Json.ofOption .str a.provider),
    ("remote_receipt_id", Json.ofOption .str a.remoteReceiptId), ("run_id", .str a.runId),
    ("sequence", .num a.sequence), ("started_at", .str a.startedAt),
    ("status", .str a.status.asStr)]

def AdminReceipt.encode (r : AdminReceipt) : Json :=
  .obj [("attempt_id", .str r.attemptId), ("digest", .str r.digest), ("id", .str r.id),
    ("kind", .str r.kind.asStr), ("observed_at", .str r.observedAt),
    ("remote_id", .str r.remoteId), ("source", .str r.source)]

def AdminRetryRecord.encode (q : AdminRetryRecord) : Json :=
  .obj [("created_at", .str q.createdAt), ("decision", .str q.decision.asStr), ("id", .str q.id),
    ("kind", .str q.kind.asStr), ("reason", Json.ofOption .str q.reason),
    ("requested_by", Json.ofOption .str q.requestedBy),
    ("scheduled_at", Json.ofOption .str q.scheduledAt), ("source_revision", .num q.sourceRevision)]

def ListDeliveriesResponse.encode (r : ListDeliveriesResponse) : Json :=
  .obj [("next_cursor", Json.ofOption .str r.nextCursor),
    ("records", .arr (r.records.map AdminDelivery.encode))]

def GetDeliveryResponse.encode (r : GetDeliveryResponse) : Json :=
  .obj [("attempts", .arr (r.attempts.map AdminAttempt.encode)), ("delivery", r.delivery.encode),
    ("open_in_story_correlation_id", .str r.openInStoryCorrelationId),
    ("receipts", .arr (r.receipts.map AdminReceipt.encode)),
    ("retry_requests", .arr (r.retryRequests.map AdminRetryRecord.encode))]

def RetryDeliveryResponse.encode (r : RetryDeliveryResponse) : Json :=
  .obj [("delivery_id", .str r.deliveryId), ("idempotent_replay", .bool r.idempotentReplay),
    ("revision", .num r.revision), ("scheduled_at", .str r.scheduledAt),
    ("status", .str "retry_scheduled")]

end Plugin

section Injective

variable {α : Type} {write : α → Json}

theorem Json.ofOption_inj (hnull : ∀ a, write a ≠ .null) (hwrite : Function.Injective write)
    {o o' : Option α} : Json.ofOption write o = Json.ofOption write o' ↔ o = o' := by
  constructor
  · intro h
    cases o with
    | none =>
      cases o' with
      | none => rfl
      | some b => exact absurd h.symm (hnull b)
    | some a =>
      cases o' with
      | none => exact absurd h (hnull a)
      | some b => rw [hwrite h]
  · rintro rfl
    rfl

@[simp] theorem Json.ofOption_str_inj {o o' : Option String} :
    Json.ofOption .str o = Json.ofOption .str o' ↔ o = o' :=
  Json.ofOption_inj (fun _ h ↦ by cases h) fun _ _ ↦ Json.str.inj

@[simp] theorem DeliveryStatus.asStr_inj {a b : DeliveryStatus} : a.asStr = b.asStr ↔ a = b := by
  cases a <;> cases b <;> decide

@[simp] theorem AttemptStatus.asStr_inj {a b : AttemptStatus} : a.asStr = b.asStr ↔ a = b := by
  cases a <;> cases b <;> decide

@[simp] theorem EvidenceKind.asStr_inj {a b : EvidenceKind} : a.asStr = b.asStr ↔ a = b := by
  cases a <;> cases b <;> decide

@[simp] theorem RetryKind.asStr_inj {a b : RetryKind} : a.asStr = b.asStr ↔ a = b := by
  cases a <;> cases b <;> decide

@[simp] theorem RetryDecision.asStr_inj {a b : RetryDecision} : a.asStr = b.asStr ↔ a = b := by
  cases a <;> cases b <;> decide

end Injective

namespace Plugin

theorem AdminDelivery.encode_injective : Function.Injective AdminDelivery.encode := by
  intro d d' h
  cases d
  cases d'
  simpa [AdminDelivery.encode, Int.ofNat_inj] using h

theorem AdminAttempt.encode_injective : Function.Injective AdminAttempt.encode := by
  intro a a' h
  cases a
  cases a'
  simpa [AdminAttempt.encode, Int.ofNat_inj] using h

theorem AdminReceipt.encode_injective : Function.Injective AdminReceipt.encode := by
  intro r r' h
  cases r
  cases r'
  simpa [AdminReceipt.encode] using h

theorem AdminRetryRecord.encode_injective : Function.Injective AdminRetryRecord.encode := by
  intro q q' h
  cases q
  cases q'
  simpa [AdminRetryRecord.encode, Int.ofNat_inj] using h

theorem ListDeliveriesResponse.encode_injective :
    Function.Injective ListDeliveriesResponse.encode := by
  intro r r' h
  cases r
  cases r'
  simpa [ListDeliveriesResponse.encode, AdminDelivery.encode_injective.list_map.eq_iff] using h

theorem GetDeliveryResponse.encode_injective : Function.Injective GetDeliveryResponse.encode := by
  intro r r' h
  cases r
  cases r'
  simpa [GetDeliveryResponse.encode, AdminAttempt.encode_injective.list_map.eq_iff,
    AdminDelivery.encode_injective.eq_iff, AdminReceipt.encode_injective.list_map.eq_iff,
    AdminRetryRecord.encode_injective.list_map.eq_iff] using h

theorem RetryDeliveryResponse.encode_injective :
    Function.Injective RetryDeliveryResponse.encode := by
  intro r r' h
  cases r
  cases r'
  simpa [RetryDeliveryResponse.encode, Int.ofNat_inj] using h

end Plugin

/-! ## The tools -/

def listDeliveriesTool : String := "notification_admin_list_deliveries"
def getDeliveryTool : String := "notification_admin_get_delivery"
def retryDeliveryTool : String := "notification_admin_retry_delivery"

inductive ToolExecutionClass
  | parallelSafe
  | exclusive
  deriving DecidableEq, Repr

structure ToolDefinition where
  name : String
  description : String
  execution : ToolExecutionClass

def toolDefinitions : List ToolDefinition :=
  [{ name := listDeliveriesTool
     description := "List bounded redacted Notification delivery records, optionally filtered " ++
       "by exact status."
     execution := .parallelSafe },
    { name := getDeliveryTool
      description := "Get one redacted Notification delivery with its bounded attempts, " ++
        "receipts, retry decisions, and revision."
      execution := .parallelSafe },
    { name := retryDeliveryTool
      description := "Request one revision-checked, idempotent manual retry when the " ++
        "Notification provider still considers the delivery eligible."
      execution := .exclusive }]

structure ExecuteRequest where
  name : String
  argumentsJson : String

structure ExecuteResponse where
  content : String
  metadataJson : String
  deriving DecidableEq

structure ExecutionFailedPayload where
  reasonCode : String
  message : String
  detailsJson : String
  deriving DecidableEq

inductive ExecuteError
  | notFound
  | invalidArguments
  | permissionDenied
  | executionFailed (payload : ExecutionFailedPayload)
  deriving DecidableEq

/-- The answer of a tool. -/
abbrev ToolAnswer : Type := Except (PluginError ExecuteError) ExecuteResponse

/-- A domain error the client's contract does not name, with all it came with. -/
structure UnknownDomainError where
  code : String
  payload : Option Json
  extra : List (String × Json)

/-- A domain error as a client sees it: `unknown` is one of a newer contract. -/
inductive DomainError (ε : Type)
  | known (error : ε)
  | unknown (error : UnknownDomainError)

def PluginError.known {ε : Type} : PluginError ε → PluginError (DomainError ε)
  | .domain e => .domain (.known e)
  | .runtime failure => .runtime failure

/-- What an operation answers its client. -/
abbrev Told (ε α : Type) : Type := Except (PluginError (DomainError ε)) α

namespace AgentTools

/-- The text of a small object with one entry. -/
def entryText (key value : String) : String :=
  String.ofList (Json.print (fun _ ↦ []) (.obj [(key, .str value)]))

def rejected (reasonCode : String) : ExecuteError :=
  .executionFailed
    { reasonCode
      message := "Notification administration rejected the requested operation."
      detailsJson := entryText "domain_error" reasonCode }

def mapListDeliveriesError : DomainError Plugin.ListDeliveriesError → ExecuteError
  | .known .invalidFilter => .invalidArguments
  | .known .unauthorized => .permissionDenied
  | .unknown _ => rejected "unknown_domain_error"

def mapGetDeliveryError : DomainError Plugin.GetDeliveryError → ExecuteError
  | .known .deliveryNotFound => .notFound
  | .known .evidenceOverflow => rejected "evidence_overflow"
  | .known .invalidRequest => .invalidArguments
  | .known .unauthorized => .permissionDenied
  | .unknown _ => rejected "unknown_domain_error"

def mapRetryDeliveryError : DomainError RetryDeliveryError → ExecuteError
  | .known .deliveryNotFound => .notFound
  | .known .invalidRequest => .invalidArguments
  | .known .unauthorized => .permissionDenied
  | .known .idempotencyConflict => rejected "idempotency_conflict"
  | .known .retryNotAllowed => rejected "retry_not_allowed"
  | .known .staleRevision => rejected "stale_revision"
  | .unknown _ => rejected "unknown_domain_error"

/-! ## A call of a tool -/

/-- The bound admin capability, on a state of type `σ`. A call that does not return is `none`. -/
structure AdminClient (σ : Type) where
  listDeliveries : Plugin.ListDeliveriesRequest → σ →
    Option (σ × Told Plugin.ListDeliveriesError Plugin.ListDeliveriesResponse)
  getDelivery : GetDeliveryRequest → σ →
    Option (σ × Told Plugin.GetDeliveryError Plugin.GetDeliveryResponse)
  retryDelivery : RetryDeliveryRequest → σ →
    Option (σ × Told RetryDeliveryError Plugin.RetryDeliveryResponse)

section Execute

-- `serde_json::from_str` and `serde_json::to_string_pretty`
variable (fromStr : String → Option Json) (toStringPretty : Json → String) {σ : Type}

def success (tool : String) (response : Json) : ExecuteResponse where
  content := toStringPretty response
  metadataJson := entryText "tool" tool

/-- The answer that tells an outcome. -/
def tell {ε α : Type} (tool : String) (encode : α → Json)
    (mapError : DomainError ε → ExecuteError) : Told ε α → ToolAnswer
  | .ok response => .ok (success toStringPretty tool (encode response))
  | .error (.domain e) => .error (.domain (mapError e))
  | .error (.runtime failure) => .error (.runtime failure)

/-- The branch of one tool: its arguments are read, and its operation is called. -/
def call {ρ ε α : Type} (tool : String) (decode : Json → Option ρ)
    (operation : ρ → σ → Option (σ × Told ε α)) (encode : α → Json)
    (mapError : DomainError ε → ExecuteError) (request : ExecuteRequest) (s : σ) :
    Option (σ × ToolAnswer) :=
  match (fromStr request.argumentsJson).bind decode with
  | none => some (s, .error (.domain .invalidArguments))
  | some arguments =>
    (operation arguments s).map fun p ↦ (p.1, tell toStringPretty tool encode mapError p.2)

def execute (admin : AdminClient σ) (request : ExecuteRequest) (s : σ) :
    Option (σ × ToolAnswer) :=
  if request.name = listDeliveriesTool then
    call fromStr toStringPretty listDeliveriesTool Plugin.ListDeliveriesRequest.decode
      admin.listDeliveries Plugin.ListDeliveriesResponse.encode mapListDeliveriesError request s
  else if request.name = getDeliveryTool then
    call fromStr toStringPretty getDeliveryTool GetDeliveryRequest.decode
      admin.getDelivery Plugin.GetDeliveryResponse.encode mapGetDeliveryError request s
  else if request.name = retryDeliveryTool then
    call fromStr toStringPretty retryDeliveryTool RetryDeliveryRequest.decode
      admin.retryDelivery Plugin.RetryDeliveryResponse.encode mapRetryDeliveryError request s
  else some (s, .error (.domain .notFound))

variable {fromStr toStringPretty}

/-- The three tools, and everything else. -/
theorem tool_cases (name : String) :
    name = listDeliveriesTool ∨ name = getDeliveryTool ∨ name = retryDeliveryTool ∨
      name ≠ listDeliveriesTool ∧ name ≠ getDeliveryTool ∧ name ≠ retryDeliveryTool := by
  by_cases hlist : name = listDeliveriesTool
  · exact Or.inl hlist
  by_cases hget : name = getDeliveryTool
  · exact Or.inr (Or.inl hget)
  by_cases hretry : name = retryDeliveryTool
  · exact Or.inr (Or.inr (Or.inl hretry))
  · exact Or.inr (Or.inr (Or.inr ⟨hlist, hget, hretry⟩))

variable {admin : AdminClient σ} {request : ExecuteRequest} {s : σ}

theorem execute_list (h : request.name = listDeliveriesTool) :
    execute fromStr toStringPretty admin request s =
      call fromStr toStringPretty listDeliveriesTool Plugin.ListDeliveriesRequest.decode
        admin.listDeliveries Plugin.ListDeliveriesResponse.encode mapListDeliveriesError
        request s := if_pos h

theorem execute_get (h : request.name = getDeliveryTool) :
    execute fromStr toStringPretty admin request s =
      call fromStr toStringPretty getDeliveryTool GetDeliveryRequest.decode
        admin.getDelivery Plugin.GetDeliveryResponse.encode mapGetDeliveryError request s := by
  rw [execute, h, if_neg (by decide), if_pos rfl]

theorem execute_retry (h : request.name = retryDeliveryTool) :
    execute fromStr toStringPretty admin request s =
      call fromStr toStringPretty retryDeliveryTool RetryDeliveryRequest.decode
        admin.retryDelivery Plugin.RetryDeliveryResponse.encode mapRetryDeliveryError
        request s := by
  rw [execute, h, if_neg (by decide), if_neg (by decide), if_pos rfl]

theorem execute_unknown (h : request.name ≠ listDeliveriesTool ∧
    request.name ≠ getDeliveryTool ∧ request.name ≠ retryDeliveryTool) :
    execute fromStr toStringPretty admin request s = some (s, .error (.domain .notFound)) := by
  rw [execute, if_neg h.1, if_neg h.2.1, if_neg h.2.2]

end Execute

/-! ## The operations behind the tools

The adapter calls the operation of the administrator in one step. The statements of `get_delivery`
read ledgers of their own, so a call names them. -/

/-- The ledgers that the later statements of `get_delivery` see. -/
structure Reads where
  attempts : Ledger
  receipts : Ledger
  retryRequests : Ledger

/-- A call of a tool. The context of the call is forwarded, so the operation sees its caller. -/
structure ToolCall where
  caller : Option String
  now : DateTime
  reads : Reads
  request : ExecuteRequest

/-- What the client of `retry_delivery` is told. -/
def toldRetry (S : Setting) (now : DateTime) :
    Except (PluginError RetryDeliveryError) RetryResult →
      Told RetryDeliveryError Plugin.RetryDeliveryResponse
  | .ok result => (Plugin.adminRetry S now result).mapError .runtime
  | .error e => .error e.known

/-- The operations of the Notification plugin as the tools call them. A retry waits where the
operation itself would. -/
def ToolCall.admin (S : Setting) (call : ToolCall) : AdminClient System where
  listDeliveries request s :=
    some (s, (Plugin.listDeliveries S s.ledger call.caller request).mapError PluginError.known)
  getDelivery request s :=
    some (s, (Plugin.getDelivery S s.ledger call.reads.attempts call.reads.receipts
      call.reads.retryRequests call.caller request.deliveryId).mapError PluginError.known)
  retryDelivery request s :=
    if s.Unlocked (Plugin.retryDeliveryLocks S s.ledger call.caller request) then
      match Plugin.retryDelivery S s.ledger call.caller request call.now with
      | .error e => some (s, toldRetry S call.now (.error e))
      | .ok (L, result) =>
        (s.commit s.calls L).map fun s' ↦ (s', toldRetry S call.now (.ok result))
    else none

end AgentTools

namespace Deployment

open AgentTools

/-! ## An agent retries -/

/-- The arguments of a retry that waits since the first attempt was refused. -/
def retryArguments : Json :=
  .obj [("delivery_id", .str delivery.id), ("idempotency_key", .str "k2"), ("revision", .num 3)]

def retryRequest : RetryDeliveryRequest where
  deliveryId := delivery.id
  revision := 3
  idempotencyKey := "k2"

def argumentsText : String := String.ofList (retryArguments.print fun _ ↦ [])

/-- `to_string_pretty` on an object of numbers and texts. -/
def toStringPretty : Json → String
  | .obj fields =>
    String.ofList ('\x7b' :: '\n' :: (List.intercalate [',', '\n'] (fields.map fun f ↦
      ' ' :: ' ' :: Json.quote f.1 ++ ':' :: ' ' :: f.2.print fun _ ↦ [])) ++ ['\n', '\x7d'])
  | v => String.ofList (v.print fun _ ↦ [])

/-- The response of the retry. -/
def retryResponse : Plugin.RetryDeliveryResponse where
  deliveryId := delivery.id
  idempotentReplay := false
  revision := 4
  scheduledAt := setting.externals.toRfc3339Millis oneHourLater

/-- The arguments of a list without a filter. -/
def listText : String := String.ofList (Json.print (fun _ ↦ []) (.obj []))

/-- `from_str` on the three texts. -/
def fromStr (text : String) : Option Json :=
  if text = argumentsText then some retryArguments
  else if text = listText then some (.obj [])
  else if text = toStringPretty retryResponse.encode then some retryResponse.encode
  else none

def agentRetry : ToolCall where
  caller := some "admin"
  now := oneHourLater
  reads := { attempts := Ledger.empty, receipts := Ledger.empty, retryRequests := Ledger.empty }
  request := { name := retryDeliveryTool, argumentsJson := argumentsText }

/-- The answer to the retry. -/
def retryAnswer : ToolAnswer :=
  .ok (success toStringPretty retryDeliveryTool retryResponse.encode)

/-- The delivery is retried, and the agent is told so. -/
def retriesFor (s : System) : Bool :=
  ((agentRetry.admin setting).retryDelivery retryRequest s).any fun p ↦
    decide (p.2.toOption = some retryResponse) && decide (p.1 ≠ s)

theorem exists_history_retries :
    ∃ ls s t, (system setting).History ls s ∧ t ≠ s ∧
      (agentRetry.admin setting).retryDelivery retryRequest s = some (t, .ok retryResponse) := by
  obtain ⟨ls, hls, -⟩ := exists_history_awaiting
  obtain ⟨ms, s, hms, -, hP⟩ := exists_history_of_execAll [.advance 1 (.answered refusal)]
    retriesFor hls (by decide +kernel)
  obtain ⟨⟨t, outcome⟩, hp, htold⟩ := (Option.any_eq_true _ _).mp hP
  rw [Bool.and_eq_true, decide_eq_true_eq, decide_eq_true_eq] at htold
  cases outcome with
  | error e => cases htold.1
  | ok response =>
    cases htold.1
    exact ⟨_, s, t, hms, htold.2, hp⟩

theorem fromStr_arguments : (fromStr argumentsText).bind RetryDeliveryRequest.decode =
    some retryRequest := by
  rw [fromStr, if_pos rfl]
  rfl

theorem fromStr_response :
    fromStr (toStringPretty retryResponse.encode) = some retryResponse.encode := by
  rw [fromStr, if_neg (by decide +kernel), if_neg (by decide +kernel), if_pos rfl]

end Deployment

namespace AgentTools

/-! ## What an answer tells

An answer is a text and a code. The text of a response is read back to it, and the codes of the
named errors differ; what is lost is what stands in an error without a name. -/

/-- What a call of a tool came to. -/
inductive Called
  | unknownTool
  | unread
  | listed (outcome : Told Plugin.ListDeliveriesError Plugin.ListDeliveriesResponse)
  | got (outcome : Told Plugin.GetDeliveryError Plugin.GetDeliveryResponse)
  | retried (outcome : Told RetryDeliveryError Plugin.RetryDeliveryResponse)

section Called

variable (fromStr : String → Option Json) (toStringPretty : Json → String) {σ : Type}

def calls {ρ ε α : Type} (decode : Json → Option ρ)
    (operation : ρ → σ → Option (σ × Told ε α)) (called : Told ε α → Called)
    (request : ExecuteRequest) (s : σ) : Option (σ × Called) :=
  match (fromStr request.argumentsJson).bind decode with
  | none => some (s, .unread)
  | some arguments => (operation arguments s).map fun p ↦ (p.1, called p.2)

/-- The call of an operation that a call of a tool makes. -/
def called (admin : AdminClient σ) (request : ExecuteRequest) (s : σ) : Option (σ × Called) :=
  if request.name = listDeliveriesTool then
    calls fromStr Plugin.ListDeliveriesRequest.decode admin.listDeliveries .listed request s
  else if request.name = getDeliveryTool then
    calls fromStr GetDeliveryRequest.decode admin.getDelivery .got request s
  else if request.name = retryDeliveryTool then
    calls fromStr RetryDeliveryRequest.decode admin.retryDelivery .retried request s
  else some (s, .unknownTool)

def Called.answer : Called → ToolAnswer
  | .unknownTool => .error (.domain .notFound)
  | .unread => .error (.domain .invalidArguments)
  | .listed outcome =>
    tell toStringPretty listDeliveriesTool Plugin.ListDeliveriesResponse.encode
      mapListDeliveriesError outcome
  | .got outcome =>
    tell toStringPretty getDeliveryTool Plugin.GetDeliveryResponse.encode mapGetDeliveryError
      outcome
  | .retried outcome =>
    tell toStringPretty retryDeliveryTool Plugin.RetryDeliveryResponse.encode
      mapRetryDeliveryError outcome

variable {fromStr toStringPretty}

theorem call_eq_map {ρ ε α : Type} {tool : String} {decode : Json → Option ρ}
    {operation : ρ → σ → Option (σ × Told ε α)} {encode : α → Json}
    {mapError : DomainError ε → ExecuteError} {wrap : Told ε α → Called}
    (h : ∀ outcome, (wrap outcome).answer toStringPretty =
      tell toStringPretty tool encode mapError outcome) (request : ExecuteRequest) (s : σ) :
    call fromStr toStringPretty tool decode operation encode mapError request s =
      (calls fromStr decode operation wrap request s).map
        fun p ↦ (p.1, p.2.answer toStringPretty) := by
  unfold call calls
  split
  · rfl
  · rw [Option.map_map]
    exact Option.map_congr fun p _ ↦ congrArg (Prod.mk p.1) (h p.2).symm

section Branches

variable {admin : AdminClient σ} {request : ExecuteRequest} {s : σ}

theorem called_list (h : request.name = listDeliveriesTool) :
    called fromStr admin request s =
      calls fromStr Plugin.ListDeliveriesRequest.decode admin.listDeliveries .listed
        request s := if_pos h

theorem called_get (h : request.name = getDeliveryTool) :
    called fromStr admin request s =
      calls fromStr GetDeliveryRequest.decode admin.getDelivery .got request s := by
  rw [called, h, if_neg (by decide), if_pos rfl]

theorem called_retry (h : request.name = retryDeliveryTool) :
    called fromStr admin request s =
      calls fromStr RetryDeliveryRequest.decode admin.retryDelivery .retried request s := by
  rw [called, h, if_neg (by decide), if_neg (by decide), if_pos rfl]

theorem called_unknown (h : request.name ≠ listDeliveriesTool ∧
    request.name ≠ getDeliveryTool ∧ request.name ≠ retryDeliveryTool) :
    called fromStr admin request s = some (s, .unknownTool) := by
  rw [called, if_neg h.1, if_neg h.2.1, if_neg h.2.2]

end Branches

/-- A tool answers what its operation came to. -/
theorem execute_eq_map (admin : AdminClient σ) (request : ExecuteRequest) (s : σ) :
    execute fromStr toStringPretty admin request s =
      (called fromStr admin request s).map fun p ↦ (p.1, p.2.answer toStringPretty) := by
  rcases tool_cases request.name with hname | hname | hname | hname
  · rw [execute_list hname, called_list hname]
    exact call_eq_map (fun _ ↦ rfl) request s
  · rw [execute_get hname, called_get hname]
    exact call_eq_map (fun _ ↦ rfl) request s
  · rw [execute_retry hname, called_retry hname]
    exact call_eq_map (fun _ ↦ rfl) request s
  · rw [execute_unknown hname, called_unknown hname]
    rfl

/-! ### Outcomes that are told alike

An unknown error is forwarded as one, without what it came with. -/

/-- The errors are the same, or both unknown. -/
inductive DomainError.Alike {ε : Type} : DomainError ε → DomainError ε → Prop
  | known (e : ε) : Alike (.known e) (.known e)
  | unknown (e e' : UnknownDomainError) : Alike (.unknown e) (.unknown e')

/-- The outcomes are the same, up to the contents of an unknown error. -/
inductive Told.Alike {ε α : Type} : Told ε α → Told ε α → Prop
  | ok (a : α) : Alike (.ok a) (.ok a)
  | domain {e e' : DomainError ε} (h : DomainError.Alike e e') :
      Alike (.error (.domain e)) (.error (.domain e'))
  | runtime (failure : RuntimeFailure) :
      Alike (.error (.runtime failure)) (.error (.runtime failure))

/-- The calls came to the same, up to the contents of an unknown error. -/
inductive Called.Alike : Called → Called → Prop
  | unknownTool : Alike .unknownTool .unknownTool
  | unread : Alike .unread .unread
  | listed {o o' : Told Plugin.ListDeliveriesError Plugin.ListDeliveriesResponse}
      (h : Told.Alike o o') : Alike (.listed o) (.listed o')
  | got {o o' : Told Plugin.GetDeliveryError Plugin.GetDeliveryResponse} (h : Told.Alike o o') :
      Alike (.got o) (.got o')
  | retried {o o' : Told RetryDeliveryError Plugin.RetryDeliveryResponse} (h : Told.Alike o o') :
      Alike (.retried o) (.retried o')

/-- An error code tells two errors apart unless both are unknown. -/
def TellsApart {ε : Type} (mapError : DomainError ε → ExecuteError) : Prop :=
  ∀ e e', mapError e = mapError e' ↔ DomainError.Alike e e'

theorem rejected_injective : Function.Injective rejected := by
  intro a b h
  rw [rejected, rejected, ExecuteError.executionFailed.injEq,
    ExecutionFailedPayload.mk.injEq] at h
  exact h.1

/-- It is enough that known errors are mapped one to one, none of them as an unknown one is. -/
theorem tellsApart_of_known {ε : Type} {mapError : DomainError ε → ExecuteError}
    (hunknown : ∀ e, mapError (.unknown e) = rejected "unknown_domain_error")
    (hne : ∀ e, mapError (.known e) ≠ rejected "unknown_domain_error")
    (hknown : ∀ e e', mapError (.known e) = mapError (.known e') → e = e') :
    TellsApart mapError := by
  rintro (e | e) (e' | e')
  · constructor
    · intro h
      rw [hknown e e' h]
      exact .known e'
    · rintro ⟨⟩
      rfl
  · rw [hunknown]
    exact iff_of_false (hne e) fun h ↦ by cases h
  · rw [hunknown]
    exact iff_of_false (fun h ↦ hne e' h.symm) fun h ↦ by cases h
  · rw [hunknown, hunknown]
    exact iff_of_true rfl (.unknown e e')

theorem tellsApart_listDeliveries : TellsApart mapListDeliveriesError := by
  refine tellsApart_of_known (fun _ ↦ rfl) (fun e h ↦ ?_) fun e e' h ↦ ?_
  · cases e <;> cases h
  · cases e <;> cases e' <;> first | rfl | cases h

theorem tellsApart_getDelivery : TellsApart mapGetDeliveryError := by
  refine tellsApart_of_known (fun _ ↦ rfl) (fun e h ↦ ?_) fun e e' h ↦ ?_
  · cases e <;> first | cases h | exact absurd (rejected_injective h) (by decide)
  · cases e <;> cases e' <;> first | rfl | cases h

theorem tellsApart_retryDelivery : TellsApart mapRetryDeliveryError := by
  refine tellsApart_of_known (fun _ ↦ rfl) (fun e h ↦ ?_) fun e e' h ↦ ?_
  · cases e <;> first | cases h | exact absurd (rejected_injective h) (by decide)
  · cases e <;> cases e' <;>
      first | rfl | cases h | exact absurd (rejected_injective h) (by decide)

/-- A response is told by the text that reads back as it, an error by its code. -/
theorem tell_eq_iff {ε α : Type} {tool : String} {encode : α → Json}
    {mapError : DomainError ε → ExecuteError} {o o' : Told ε α}
    (hencode : Function.Injective encode) (hmap : TellsApart mapError)
    (hread : ∀ a, o = .ok a → fromStr (toStringPretty (encode a)) = some (encode a))
    (hread' : ∀ a, o' = .ok a → fromStr (toStringPretty (encode a)) = some (encode a)) :
    tell toStringPretty tool encode mapError o = tell toStringPretty tool encode mapError o' ↔
      Told.Alike o o' := by
  constructor
  · intro h
    rcases o with (e | f) | a <;> rcases o' with (e' | f') | a'
    · rw [tell, tell, Except.error.injEq, PluginError.domain.injEq] at h
      exact .domain ((hmap e e').mp h)
    · cases h
    · cases h
    · cases h
    · cases h
      exact .runtime f
    · cases h
    · cases h
    · cases h
    · rw [tell, tell, Except.ok.injEq, success, success, ExecuteResponse.mk.injEq] at h
      have hsame : some (encode a) = some (encode a') := by
        rw [← hread a rfl, ← hread' a' rfl, h.1]
      rw [hencode (Option.some_inj.mp hsame)]
      exact .ok a'
  · rintro (_ | h | _)
    · rfl
    · rw [tell, tell, (hmap _ _).mpr h]
    · rfl

/-- The response of a call that succeeded. -/
def Called.response? : Called → Option Json
  | .listed (.ok response) => some response.encode
  | .got (.ok response) => some response.encode
  | .retried (.ok response) => some response.encode
  | _ => none

/-- If the call succeeds, `from_str` reads what `to_string_pretty` has written. -/
def ReadBack (fromStr : String → Option Json) (toStringPretty : Json → String)
    (o : Option (σ × Called)) : Prop :=
  ∀ p, o = some p → ∀ v, p.2.response? = some v → fromStr (toStringPretty v) = some v

/-- The outcomes that two calls of one operation with the same arguments came to. -/
theorem answer_eq_iff_of_calls {ρ ε α : Type} {tool : String} {decode : Json → Option ρ}
    {operation operation' : ρ → σ → Option (σ × Told ε α)} {encode : α → Json}
    {mapError : DomainError ε → ExecuteError} {wrap : Told ε α → Called}
    (hencode : Function.Injective encode) (hmap : TellsApart mapError)
    (hwrap : ∀ o, (wrap o).answer toStringPretty = tell toStringPretty tool encode mapError o)
    (hresponse : ∀ a, (wrap (.ok a)).response? = some (encode a))
    (halike : ∀ o o', Called.Alike (wrap o) (wrap o') ↔ Told.Alike o o')
    {request : ExecuteRequest} {s s' t t' : σ} {c c' : Called}
    (hread : ReadBack fromStr toStringPretty (calls fromStr decode operation wrap request s))
    (hread' : ReadBack fromStr toStringPretty (calls fromStr decode operation' wrap request s'))
    (h : calls fromStr decode operation wrap request s = some (t, c))
    (h' : calls fromStr decode operation' wrap request s' = some (t', c')) :
    c.answer toStringPretty = c'.answer toStringPretty ↔ c.Alike c' := by
  have htold := hread _ h
  have htold' := hread' _ h'
  unfold calls at h h'
  cases harguments : (fromStr request.argumentsJson).bind decode with
  | none =>
    rw [harguments] at h h'
    cases h
    cases h'
    exact iff_of_true rfl .unread
  | some arguments =>
    rw [harguments] at h h'
    obtain ⟨⟨u, o⟩, -, hu⟩ := Option.map_eq_some_iff.mp h
    obtain ⟨⟨u', o'⟩, -, hu'⟩ := Option.map_eq_some_iff.mp h'
    cases hu
    cases hu'
    have hback : ∀ a, o = .ok a → fromStr (toStringPretty (encode a)) = some (encode a) := by
      rintro a rfl
      exact htold _ (hresponse a)
    have hback' : ∀ a, o' = .ok a → fromStr (toStringPretty (encode a)) = some (encode a) := by
      rintro a rfl
      exact htold' _ (hresponse a)
    rw [hwrap, hwrap, halike]
    exact tell_eq_iff hencode hmap hback hback'

/-- **The answer of a tool tells the outcome.** Two calls with the same request have the same answer
exactly when they came to the same, up to the contents of an error that the contract of the adapter
does not name. -/
theorem answer_eq_iff {admin admin' : AdminClient σ} {request : ExecuteRequest} {s s' t t' : σ}
    {answer answer' : ToolAnswer}
    (hread : ReadBack fromStr toStringPretty (called fromStr admin request s))
    (hread' : ReadBack fromStr toStringPretty (called fromStr admin' request s'))
    (h : execute fromStr toStringPretty admin request s = some (t, answer))
    (h' : execute fromStr toStringPretty admin' request s' = some (t', answer')) :
    answer = answer' ↔
      ∃ c c', called fromStr admin request s = some (t, c) ∧
        called fromStr admin' request s' = some (t', c') ∧ c.Alike c' := by
  rw [execute_eq_map] at h h'
  obtain ⟨⟨u, c⟩, hc, hu⟩ := Option.map_eq_some_iff.mp h
  obtain ⟨⟨u', c'⟩, hc', hu'⟩ := Option.map_eq_some_iff.mp h'
  obtain ⟨rfl, rfl⟩ := Prod.mk.inj hu
  obtain ⟨rfl, rfl⟩ := Prod.mk.inj hu'
  have halike : c.answer toStringPretty = c'.answer toStringPretty ↔ c.Alike c' := by
    rcases tool_cases request.name with hname | hname | hname | hname
    · rw [called_list hname] at hread hread' hc hc'
      refine answer_eq_iff_of_calls Plugin.ListDeliveriesResponse.encode_injective
        tellsApart_listDeliveries (fun _ ↦ rfl) (fun _ ↦ rfl) (fun o o' ↦ ?_) hread hread' hc hc'
      exact ⟨fun h ↦ by cases h; assumption, .listed⟩
    · rw [called_get hname] at hread hread' hc hc'
      refine answer_eq_iff_of_calls Plugin.GetDeliveryResponse.encode_injective
        tellsApart_getDelivery (fun _ ↦ rfl) (fun _ ↦ rfl) (fun o o' ↦ ?_) hread hread' hc hc'
      exact ⟨fun h ↦ by cases h; assumption, .got⟩
    · rw [called_retry hname] at hread hread' hc hc'
      refine answer_eq_iff_of_calls Plugin.RetryDeliveryResponse.encode_injective
        tellsApart_retryDelivery (fun _ ↦ rfl) (fun _ ↦ rfl) (fun o o' ↦ ?_) hread hread' hc hc'
      exact ⟨fun h ↦ by cases h; assumption, .retried⟩
    · rw [called_unknown hname] at hc hc'
      cases hc
      cases hc'
      exact iff_of_true rfl .unknownTool
  refine halike.trans ⟨fun h ↦ ⟨c, c', hc, hc', h⟩, ?_⟩
  rintro ⟨d, d', hd, hd', h⟩
  cases hc.symm.trans hd
  cases hc'.symm.trans hd'
  exact h

end Called

/-- A call of the retry tool is a call of the operation. -/
theorem called_agentRetry {s t : System}
    {outcome : Told RetryDeliveryError Plugin.RetryDeliveryResponse}
    (h : (Deployment.agentRetry.admin Deployment.setting).retryDelivery Deployment.retryRequest s =
      some (t, outcome)) :
    called Deployment.fromStr (Deployment.agentRetry.admin Deployment.setting)
      Deployment.agentRetry.request s = some (t, .retried outcome) := by
  have harguments : (Deployment.fromStr Deployment.agentRetry.request.argumentsJson).bind
      RetryDeliveryRequest.decode = some Deployment.retryRequest := Deployment.fromStr_arguments
  have hname : Deployment.agentRetry.request.name = retryDeliveryTool := rfl
  rw [called_retry hname, calls, harguments]
  exact Option.map_eq_some_iff.mpr ⟨_, h, rfl⟩

/-- A provider of a newer contract, which refuses every operation with a code of its own. -/
def newer (code : String) : AdminClient System where
  listDeliveries _ s := some (s, .error (.domain (.unknown ⟨code, none, []⟩)))
  getDelivery _ s := some (s, .error (.domain (.unknown ⟨code, none, []⟩)))
  retryDelivery _ s := some (s, .error (.domain (.unknown ⟨code, none, []⟩)))

theorem called_newer (code : String) (s : System) :
    called Deployment.fromStr (newer code) Deployment.agentRetry.request s =
      some (s, .retried (.error (.domain (.unknown ⟨code, none, []⟩)))) := by
  have harguments : (Deployment.fromStr Deployment.agentRetry.request.argumentsJson).bind
      RetryDeliveryRequest.decode = some Deployment.retryRequest := Deployment.fromStr_arguments
  have hname : Deployment.agentRetry.request.name = retryDeliveryTool := rfl
  rw [called_retry hname, calls, harguments]
  rfl

/-- A retry that goes through is told apart from one a newer provider refuses; the codes of two
such providers are not. -/
theorem answer_eq_iff_agentRetry :
    (∃ s t c c', called Deployment.fromStr (Deployment.agentRetry.admin Deployment.setting)
        Deployment.agentRetry.request s = some (t, c) ∧ t ≠ s ∧
      called Deployment.fromStr (newer "paused") Deployment.agentRetry.request s = some (s, c') ∧
      c.answer Deployment.toStringPretty ≠ c'.answer Deployment.toStringPretty) ∧
    ∃ c c', called Deployment.fromStr (newer "paused") Deployment.agentRetry.request
        Deployment.awaiting = some (Deployment.awaiting, c) ∧
      called Deployment.fromStr (newer "closed") Deployment.agentRetry.request
        Deployment.awaiting = some (Deployment.awaiting, c') ∧ c.Alike c' := by
  have hexec : ∀ {admin : AdminClient System} {s t : System} {c : Called},
      called Deployment.fromStr admin Deployment.agentRetry.request s = some (t, c) →
      execute Deployment.fromStr Deployment.toStringPretty admin Deployment.agentRetry.request s =
        some (t, c.answer Deployment.toStringPretty) := by
    intro admin s t c h
    rw [execute_eq_map, h]
    rfl
  have hreadNewer : ∀ (code : String) (s : System),
      ReadBack Deployment.fromStr Deployment.toStringPretty
        (called Deployment.fromStr (newer code) Deployment.agentRetry.request s) := by
    intro code s p hp v hv
    cases (called_newer code s).symm.trans hp
    cases hv
  constructor
  · obtain ⟨ls, s, t, -, hne, hretry⟩ := Deployment.exists_history_retries
    have hcalled := called_agentRetry hretry
    have hread : ReadBack Deployment.fromStr Deployment.toStringPretty
        (called Deployment.fromStr (Deployment.agentRetry.admin Deployment.setting)
          Deployment.agentRetry.request s) := by
      intro p hp v hv
      cases hcalled.symm.trans hp
      cases hv
      exact Deployment.fromStr_response
    refine ⟨s, t, _, _, hcalled, hne, called_newer "paused" s, fun hsame ↦ ?_⟩
    obtain ⟨c, c', hc, hc', halike⟩ := (answer_eq_iff hread (hreadNewer "paused" s)
      (hexec hcalled) (hexec (called_newer "paused" s))).mp hsame
    cases hcalled.symm.trans hc
    cases (called_newer "paused" s).symm.trans hc'
    cases halike with
    | retried h => cases h
  · exact (answer_eq_iff (hreadNewer "paused" _) (hreadNewer "closed" _)
      (hexec (called_newer "paused" _)) (hexec (called_newer "closed" _))).mp rfl

end AgentTools

end NotificationLedger

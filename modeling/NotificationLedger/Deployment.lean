import NotificationLedger.Interleaving
import NotificationLedger.Foundation.Sha256

/-!
# A deployment

One concrete environment in which the model runs: SHA-256, the compact JSON printer, the protector
of the repository's tests, and a clock that stops at a few instants. Times outside that clock have a
unary form, which only has to be read back.

`awaiting` is a reachable state of it: one invitation was created and claimed, and its worker waits
for the provider. The runs that show a boundary of a result start there.
-/

namespace NotificationLedger

namespace Deployment

/-! ## Times -/

/-- The instants of the clock. -/
def midnight : DateTime := 820540800000000000
def oneHourLater : DateTime := 820544400000000000
def twoHoursLater : DateTime := 820548000000000000
def nextDay : DateTime := 820627200000000000

/-- The last hour of the year 9999 west of Greenwich. -/
def yearTenThousand : DateTime := 252455619599000000000

def clock : List (DateTime × String) :=
  [(midnight, "2026-01-01T00:00:00Z"), (oneHourLater, "2026-01-01T01:00:00Z"),
    (twoHoursLater, "2026-01-01T02:00:00Z"), (nextDay, "2026-01-02T00:00:00Z")]

/-- The serde forms of the instants. -/
def instants : List (DateTime × String) := clock ++ [(yearTenThousand, "+10000-01-01T00:59:59Z")]

/-- The form with milliseconds. -/
def withMillis (text : String) : String := String.ofList (text.toList.dropLast ++ ".000Z".toList)

/-- What `parse_from_rfc3339` accepts here. -/
def spellings : List (DateTime × String) :=
  clock ++ clock.map (fun p ↦ (p.1, withMillis p.2)) ++
    [(yearTenThousand, "9999-12-31T23:59:59-01:00"), (0, "2000-01-01T00:00:00.000Z")]

def parseFromRfc3339 (text : String) : Option DateTime :=
  (spellings.find? fun p ↦ decide (p.2 = text)).map Prod.fst

/-- A time off the clock is written as the origin of time. -/
def toRfc3339Millis (t : DateTime) : String :=
  match clock.find? fun p ↦ decide (p.1 = Int.tdiv t 1000000 * 1000000) with
  | some p => withMillis p.2
  | none => "2000-01-01T00:00:00.000Z"

/-- A sign and as many strokes as the time has nanoseconds. -/
def unary (t : DateTime) : String :=
  String.ofList ((if t < 0 then '-' else '+') :: List.replicate t.natAbs '1')

def ofUnary (text : String) : Option DateTime :=
  match text.toList with
  | '+' :: strokes => some strokes.length
  | '-' :: strokes => some (-strokes.length)
  | _ => none

def parseInstant (text : String) : Option DateTime :=
  (instants.find? fun p ↦ decide (p.2 = text)).map Prod.fst

def serializeTime (t : DateTime) : String :=
  match instants.find? fun p ↦ decide (p.1 = t) with
  | some p => p.2
  | none => unary t

def deserializeTime (text : String) : Option DateTime := (parseInstant text).or (ofUnary text)

theorem ofUnary_unary (t : DateTime) : ofUnary (unary t) = some t := by
  rw [ofUnary, unary, String.toList_ofList]
  by_cases hneg : t < 0
  · rw [if_pos hneg]
    simp only [List.length_replicate, Option.some_inj]
    rw [Int.ofNat_natAbs_of_nonpos (le_of_lt hneg), Int.neg_neg]
  · rw [if_neg hneg]
    simp only [List.length_replicate, Option.some_inj]
    exact Int.natAbs_of_nonneg (not_lt.mp hneg)

/-- No instant is written in strokes. -/
theorem parseInstant_unary (t : DateTime) : parseInstant (unary t) = none := by
  rw [parseInstant, Option.map_eq_none_iff, List.find?_eq_none]
  intro p hp
  rw [decide_eq_true_eq]
  intro htext
  have hzero : ∀ p ∈ instants, '0' ∈ p.2.toList.tail := by decide
  have hstroke := hzero p hp
  rw [htext, unary, String.toList_ofList, List.tail_cons, List.mem_replicate] at hstroke
  exact absurd hstroke.2 (by decide)

theorem deserializeTime_serializeTime (t : DateTime) :
    deserializeTime (serializeTime t) = some t := by
  rw [deserializeTime, serializeTime]
  cases hfind : instants.find? fun p ↦ decide (p.1 = t) with
  | some p =>
    have hread : ∀ p ∈ instants, parseInstant p.2 = some p.1 := by decide
    have htime : p.1 = t := by simpa using List.find?_some hfind
    simp only [hread p (List.mem_of_find?_eq_some hfind), htime, Option.some_or]
  | none => simp only [parseInstant_unary, ofUnary_unary, Option.none_or]

/-! ## Externals -/

/-- No floating-point number is ever serialized here. -/
def externals : Externals where
  sha256 message := ⟨Sha256.digest message, Sha256.length_digest message⟩
  jsonToVec value := (Json.print (fun _ ↦ "0.0".toList) value).flatMap String.utf8EncodeChar
  parseFromRfc3339 := parseFromRfc3339
  toRfc3339Millis := toRfc3339Millis
  serializeTime := serializeTime
  deserializeTime := deserializeTime
  deserialize_serialize := deserializeTime_serializeTime

/-! ## The protector of the tests -/

def base64Alphabet : List Char :=
  "ABCDEFGHIJKLMNOPQRSTUVWXYZabcdefghijklmnopqrstuvwxyz0123456789+/".toList

def base64Digit (n : ℕ) : Char := base64Alphabet.getD (n % 64) '='

/-- `STANDARD.encode`. -/
def base64Encode : List UInt8 → List Char
  | a :: b :: c :: rest =>
    let n := (a.toNat * 256 + b.toNat) * 256 + c.toNat
    base64Digit (n / 262144) :: base64Digit (n / 4096) :: base64Digit (n / 64) ::
      base64Digit n :: base64Encode rest
  | [a, b] =>
    let n := (a.toNat * 256 + b.toNat) * 4
    [base64Digit (n / 4096), base64Digit (n / 64), base64Digit n, '=']
  | [a] =>
    let n := a.toNat * 16
    [base64Digit (n / 64), base64Digit n, '=', '=']
  | [] => []

/-- `STANDARD.decode` of padded text. -/
def base64Decode : List Char → Option (List UInt8)
  | a :: b :: '=' :: '=' :: [] => do
    let n := (← base64Alphabet.idxOf? a) * 64 + (← base64Alphabet.idxOf? b)
    return [UInt8.ofNat (n / 16)]
  | a :: b :: c :: '=' :: [] => do
    let n := ((← base64Alphabet.idxOf? a) * 64 + (← base64Alphabet.idxOf? b)) * 64 +
      (← base64Alphabet.idxOf? c)
    return [UInt8.ofNat (n / 1024), UInt8.ofNat (n / 4 % 256)]
  | a :: b :: c :: d :: rest => do
    let n := (((← base64Alphabet.idxOf? a) * 64 + (← base64Alphabet.idxOf? b)) * 64 +
      (← base64Alphabet.idxOf? c)) * 64 + (← base64Alphabet.idxOf? d)
    return UInt8.ofNat (n / 65536) :: UInt8.ofNat (n / 256 % 256) :: UInt8.ofNat (n % 256) ::
      (← base64Decode rest)
  | [] => some []
  | _ => none

def invalidSnapshot : NotificationError := ⟨.validation, "invalid protected snapshot"⟩

/-- `TestSnapshotProtector`, on texts of ASCII characters. -/
def testSnapshotProtector : SnapshotProtector where
  protect _ plaintext :=
    .ok {
      ciphertext := String.ofList (base64Encode (utf8 plaintext))
      keyReference := "test-only:base64" }
  reveal protected' :=
    match base64Decode protected'.ciphertext.toList with
    | some bytes =>
      if bytes.all fun b ↦ decide (b < 128) then
        .ok (String.ofList (bytes.map fun b ↦ Char.ofNat b.toNat))
      else .error invalidSnapshot
    | none => .error invalidSnapshot

/-! ## The setting -/

def config : NotificationConfig where
  transactionalCallers := ["org", "team"]
  dispatchCallers := ["jobs"]
  receiptCallers := ["mail"]
  adminCallers := ["admin"]
  valid := by decide

def setting : Setting where
  externals := externals
  protector := testSnapshotProtector
  config := config
  emailProviderInstance := "email"

def request : CreateOrganizationInvitationRequest where
  entityType := "organization_invitation"
  entityId := "i1"
  recipient := { address := "al@b.co", displayName := none, locale := .en }
  template := {
    organizationId := "o1"
    organizationName := "Org"
    invitationId := "i1"
    invitationUrl := "https://b.co/i1"
    inviterDisplayName := none
    roleName := none
    expiresAt := "2026-01-02T00:00:00Z" }
  idempotencyKey := "k1"
  correlationId := "c1"
  causationId := none
  requestedBy := none

def rendered : RenderedTemplate where
  templateId := "organization-invitation"
  templateVersion := "v1"
  requestedLocale := "en"
  resolvedLocale := "en"
  fallbackUsed := false
  rendererIdentity := "r"
  templateDigest := "sha256:69dc71183ed36ba1ce721c73e0c51a07276c7756ef1a406c5a3cab204a757e34"
  contentDigest := "sha256:5d06338b85e4a598908dd3911e551719b49835bb56ea875040bd35bf1eca828f"
  subject := "Hi"
  text := "Hi"
  html := "Hi"

def nonces : Public.Nonces := ⟨[], [], [], []⟩

/-! ## The state it reaches -/

def templateRelease : TemplateRelease where
  id := "ntf_tpl_e518e60d81539dfacf790e72b990f51d"
  templateId := "organization-invitation"
  version := "v1"
  locale := "en"
  rendererIdentity := "r"
  templateDigest := "sha256:69dc71183ed36ba1ce721c73e0c51a07276c7756ef1a406c5a3cab204a757e34"
  createdAt := 820540800000000

def renderSnapshot : RenderSnapshot where
  id := "ntf_snp_08bfc4e5bb3a1e4868ae1fce154cd89f"
  templateReleaseId := "ntf_tpl_e518e60d81539dfacf790e72b990f51d"
  subjectCiphertext := "SGk="
  textCiphertext := "SGk="
  htmlCiphertext := "SGk="
  protectionKeyRef := "test-only:base64"
  contentDigest := "sha256:5d06338b85e4a598908dd3911e551719b49835bb56ea875040bd35bf1eca828f"
  redactedPreview := "Hi"
  createdAt := 820540800000000

def intent : Intent where
  id := "ntf_int_78913a6ec226d918e5941bcd21bd1026"
  purpose := .organizationInvitation
  sourceModule := "org"
  sourceEntityType := "organization_invitation"
  sourceEntityId := "i1"
  recipientCiphertext := "YWxAYi5jbw=="
  recipientKeyRef := "test-only:base64"
  recipientMask := "a***@b.co"
  locale := "en"
  snapshotId := "ntf_snp_08bfc4e5bb3a1e4868ae1fce154cd89f"
  idempotencyKey := "k1"
  requestDigest := "sha256:a275fafc927d67a18291c27d4818666a95a013f3bc158a9d30147e3f795e10f5"
  requestedBy := none
  correlationId := "c1"
  causationId := none
  requestedAt := 820540800000000

def delivery : Delivery where
  id := "ntf_dlv_0d13e6549ae914089990dc0f20f5bd5d"
  intentId := "ntf_int_78913a6ec226d918e5941bcd21bd1026"
  status := .attempting
  revision := 2
  attemptCount := 1
  maxAttempts := 4
  nextAttemptAt := none
  acceptedAt := none
  deliveredAt := none
  finalAt := none
  finalReason := none
  createdAt := 820540800000000
  updatedAt := 820540800000000

def attempt : Attempt where
  id := "ntf_att_d7c76d47ad23b82b7d02799d3da41447"
  deliveryId := "ntf_dlv_0d13e6549ae914089990dc0f20f5bd5d"
  sequence := 1
  functionRunId := "ntf_run_464f3a5074718b4d4fbec346e27d4dc4"
  dispatchEventId := "dispatch_464f3a5074718b4d4fbec346e27d4dc4"
  status := .dispatching
  provider := none
  remoteReceiptId := none
  remoteReceiptSource := none
  remoteReceiptDigest := none
  failureCode := none
  failureClassification := none
  startedAt := 820540800000000
  completedAt := none

def work : DispatchWork where
  claim := {
    deliveryId := delivery.id
    attemptId := attempt.id
    runId := attempt.functionRunId }
  request := {
    deliveryId := delivery.id
    attemptId := attempt.id
    runId := attempt.functionRunId
    idempotencyKey := attempt.id
    recipient := { address := "al@b.co" }
    message := {
      templateId := templateRelease.templateId
      templateVersion := templateRelease.version
      locale := intent.locale
      subject := "Hi"
      text := "Hi"
      html := "Hi"
      contentDigest := renderSnapshot.contentDigest }
    correlationId := intent.correlationId }

/-- A table with one row. -/
def single {α κ : Type} [Keyed α κ] (r : α) : Table α where
  rows := [r]
  distinct := List.pairwise_singleton _ r

/-- The stored form of the request. -/
def intentRequest : Public.IntentRequest :=
  .invitation {
    source := { moduleId := "org", entityType := "organization_invitation", entityId := "i1" }
    recipient := { address := "al@b.co", displayName := none, locale := "en" }
    template := {
      organizationId := "o1"
      organizationName := "Org"
      invitationId := "i1"
      invitationUrl := "https://b.co/i1"
      inviterDisplayName := none
      roleName := none
      expiresAt := nextDay }
    idempotencyKey := "k1"
    correlationId := "c1"
    causationId := none
    requestedBy := none }

def persistence : Public.IntentPersistence where
  source := intentRequest.source
  recipient := intentRequest.recipient
  idempotencyKey := "k1"
  correlationId := "c1"
  causationId := none
  requestedBy := none
  purpose := .organizationInvitation
  templateId := rendered.templateId
  templateVersion := rendered.templateVersion
  templateLocale := rendered.resolvedLocale
  rendererIdentity := rendered.rendererIdentity
  templateDigest := rendered.templateDigest
  contentDigest := rendered.contentDigest
  requestDigest := intent.requestDigest
  rendered := rendered

/-- The invitation is rendered. -/
def prepared : System where
  ledger := Ledger.empty
  calls := [.create intentRequest midnight (.prepared persistence)]

/-- The invitation is created. -/
def queued : System where
  ledger := { Ledger.empty with
    templateReleases := single templateRelease
    renderSnapshots := single renderSnapshot
    intents := single intent
    deliveries := single
      { delivery with
        status := .queued
        revision := 1
        attemptCount := 0
        nextAttemptAt := some 820540800000000 } }
  calls := [.returned]

/-- The worker of the claimed delivery waits for the provider. -/
def awaiting : System where
  ledger := { queued.ledger with
    deliveries := single delivery
    attempts := single attempt }
  calls := [.returned, .dispatch midnight (.awaiting work)]

/-! ## The runs that reach it

Each starts from a state written out, so that no digest is computed twice. -/

def creation : List Command :=
  [.create (some "org") (.organizationInvitation request) midnight, .advance 0 .proceed,
    .advance 0 (.rendered (.ok rendered))]

def storing : List Command :=
  [.advance 0 .proceed, .advance 0 .proceed, .advance 0 (.nonces nonces)]

def handOver : List Command :=
  [.dispatchDue (some "jobs") midnight, .advance 1 .proceed, .advance 1 .proceed,
    .advance 1 .proceed]

/-- The three runs, evaluated together. -/
theorem runs_to_awaiting :
    (System.empty.execAll setting creation).map Prod.fst = some prepared ∧
      (prepared.execAll setting storing).map Prod.fst = some queued ∧
      (queued.execAll setting handOver).map Prod.fst = some awaiting := by decide +kernel

theorem creation_runs : (System.empty.execAll setting creation).map Prod.fst = some prepared :=
  runs_to_awaiting.1

theorem storing_runs : (prepared.execAll setting storing).map Prod.fst = some queued :=
  runs_to_awaiting.2.1

theorem handOver_runs : (queued.execAll setting handOver).map Prod.fst = some awaiting :=
  runs_to_awaiting.2.2

/-! ## What others do

Commands of the other parties, with the ids that `awaiting` has given out. -/

/-- The organization revokes the invitation. -/
def revoked (observationId : String) : ObservationEnvelope where
  id := observationId
  eventName := organizationInvitationRevokedEvent
  eventVersion := 1
  sourceModule := "org"
  aggregateId := "i1"
  occurredAt := midnight
  payload := OrganizationInvitationLifecycle.encode externals {
    invitationId := "i1"
    organizationId := "o1"
    observedAt := midnight }

/-- The provider refuses the attempt for the moment. -/
def refusal : Plugin.DispatchResult :=
  .response {
    outcome := .temporaryFailure
    provider := "email"
    observedAt := "2026-01-01T00:00:00Z"
    remoteReceipt := none
    failure := some {
      code := "busy"
      classification := "temporary_failure"
      retryAfterMs := none } }

/-- The provider accepts the message and names no receipt. -/
def acceptance : Plugin.DispatchResult :=
  .response {
    outcome := .accepted
    provider := "email"
    observedAt := "2026-01-01T00:00:00Z"
    remoteReceipt := none
    failure := none }

/-- A revocation observed under some id. -/
def observeRevoked (observationId : String) : Command :=
  .observeInvitationLifecycle (some "org") {
    observationId
    organizationId := "o1"
    invitationId := "i1"
    lifecycle := .revoked
    observedAt := "2026-01-01T00:00:00Z" }

/-- A revocation observed under the id of the first attempt's dispatch observation. -/
def observeUnderDispatchId : Command :=
  observeRevoked "dispatch-observation:ntf_att_d7c76d47ad23b82b7d02799d3da41447"

/-- The mail service reports that the first attempt was delivered. -/
def observeDelivered : Command :=
  .observeReceipt (some "mail") {
    observationId := "r1"
    deliveryId := delivery.id
    attemptId := attempt.id
    runId := attempt.functionRunId
    kind := .delivered
    observedAt := "2026-01-01T01:00:00Z"
    remoteId := "m1"
    digest := rendered.templateDigest }

/-- A create call from its start to its answer, the `n`-th call to start. -/
def createBy (n : ℕ) (caller : String) (request : CreateOrganizationInvitationRequest) :
    List Command :=
  [.create (some caller) (.organizationInvitation request) midnight, .advance n .proceed,
    .advance n (.rendered (.ok rendered)), .advance n .proceed, .advance n .proceed,
    .advance n (.nonces nonces)]

/-- The same invitation is repeated. -/
def repeatCreate (n : ℕ) : List Command := (createBy n "org" request).take 2

/-- Another module invites to the same thing under the same key. -/
def createByTeam (n : ℕ) : List Command := createBy n "team" request

/-! ## A second attempt -/

def secondAttempt : Attempt where
  id := "ntf_att_5cfb223c81d8856ebfbc09f66d3a0fc7"
  deliveryId := delivery.id
  sequence := 2
  functionRunId := "ntf_run_8359b1b544ea61e0531d87dcf0a3c46b"
  dispatchEventId := "dispatch_8359b1b544ea61e0531d87dcf0a3c46b"
  status := .dispatching
  provider := none
  remoteReceiptId := none
  remoteReceiptSource := none
  remoteReceiptDigest := none
  failureCode := none
  failureClassification := none
  startedAt := 820544400000000
  completedAt := none

def secondWork : DispatchWork where
  claim := {
    deliveryId := delivery.id
    attemptId := secondAttempt.id
    runId := secondAttempt.functionRunId }
  request := { work.request with
    attemptId := secondAttempt.id
    runId := secondAttempt.functionRunId
    idempotencyKey := secondAttempt.id }

def refusedAttempt : Attempt :=
  { attempt with
    status := .temporaryFailure
    provider := some "email"
    failureCode := some "busy"
    failureClassification := some "temporary_failure"
    completedAt := some 820540800000000 }

/-- The first attempt was refused, and an hour later a worker has claimed the second. -/
def retrying : System where
  ledger := { queued.ledger with
    deliveries := single
      { delivery with
        revision := 4
        attemptCount := 2
        updatedAt := 820544400000000 }
    attempts := { rows := [refusedAttempt, secondAttempt], distinct := by decide +kernel }
    retryRequests := single {
      id := "ntf_rty_da873b5eb4b5d85b47d1f26142822458"
      deliveryId := delivery.id
      kind := .automatic
      requestedBy := none
      sourceRevision := 2
      idempotencyKey := "dispatch-observation:ntf_att_d7c76d47ad23b82b7d02799d3da41447"
      decision := .scheduled
      reason := some "temporary_failure"
      scheduledAt := some 820540860000000
      createdAt := 820540800000000 }
    consumedEvents := single {
      eventId := "dispatch-observation:ntf_att_d7c76d47ad23b82b7d02799d3da41447"
      eventName := emailDispatchObservedEvent
      eventDigest := "sha256:b4157f498deaf591d1f744150de0e5dd00c68aa25193cc8988295675cb799375"
      consumedAt := 820540800000000 } }
  calls := [.returned, .returned, .dispatch oneHourLater (.claimed secondWork)]

def retry : List Command :=
  [.advance 1 (.answered refusal), .dispatchDue (some "jobs") oneHourLater, .advance 2 .proceed,
    .advance 2 .proceed]

theorem retry_runs : (awaiting.execAll setting retry).map Prod.fst = some retrying := by
  decide +kernel

/-! ## Reachability

The states above as ends of histories, with the commands that lead there. -/

theorem reachable_prepared : (system setting).Reachable prepared :=
  reachable_of_execAll ⟨[], Lts.History.nil rfl⟩ creation_runs

theorem reachable_queued : (system setting).Reachable queued :=
  reachable_of_execAll reachable_prepared storing_runs

theorem reachable_awaiting : (system setting).Reachable awaiting :=
  reachable_of_execAll reachable_queued handOver_runs

theorem reachable_retrying : (system setting).Reachable retrying :=
  reachable_of_execAll reachable_awaiting retry_runs

/-- Everything that leads to `awaiting`, and on to `retrying`. -/
def toAwaiting : List Command := creation ++ storing ++ handOver
def toRetrying : List Command := toAwaiting ++ retry

theorem exists_history_queued :
    ∃ ls, (system setting).History ls queued := by
  obtain ⟨ls₁, h₁, -⟩ := exists_run_of_execAll creation_runs
  obtain ⟨ls₂, h₂, -⟩ := exists_run_of_execAll storing_runs
  exact ⟨_, _, rfl, h₁.append h₂⟩

theorem exists_history_awaiting :
    ∃ ls, (system setting).History ls awaiting ∧ ∀ l ∈ ls, l.1 ∈ toAwaiting := by
  obtain ⟨ls₁, h₁, hc₁⟩ := exists_run_of_execAll creation_runs
  obtain ⟨ls₂, h₂, hc₂⟩ := exists_run_of_execAll storing_runs
  obtain ⟨ls₃, h₃, hc₃⟩ := exists_run_of_execAll handOver_runs
  refine ⟨_, ⟨_, rfl, (h₁.append h₂).append h₃⟩, fun l hl ↦ ?_⟩
  simp only [List.mem_append] at hl
  simp only [toAwaiting, List.mem_append]
  exact hl.imp (Or.imp (hc₁ l) (hc₂ l)) (hc₃ l)

theorem exists_history_retrying :
    ∃ ls, (system setting).History ls retrying ∧ ∀ l ∈ ls, l.1 ∈ toRetrying := by
  obtain ⟨ls, h, hc⟩ := exists_history_awaiting
  obtain ⟨ms, h', hc'⟩ := exists_run_of_execAll retry_runs
  refine ⟨_, h.append h', fun l hl ↦ ?_⟩
  rw [List.mem_append] at hl
  rw [toRetrying, List.mem_append]
  exact hl.imp (hc l) (hc' l)

/-- The ledger after some commands, where they are enabled. -/
theorem exists_ledger (cs : List Command) (P : Ledger → Bool)
    (h : ((awaiting.execAll setting cs).any fun p ↦ P p.1.ledger) = true) :
    ∃ L, (transactions setting.externals setting.protector).Reachable L ∧ P L = true := by
  obtain ⟨s, hs, hP⟩ := exists_of_execAll cs (fun s ↦ P s.ledger) reachable_awaiting h
  exact ⟨s.ledger, reachable_ledger hs, hP⟩

end Deployment

end NotificationLedger

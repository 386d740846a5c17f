import NotificationLedger.Receipts
import NotificationLedger.Requests
import NotificationLedger.Resolution

/-!
# The two sides of the boundary

A request is validated twice: by the plugin, on the strings of the wire, and by storage, on the
intent the plugin builds from them. `CreateRequest.intent` is that construction without the first
check in front of it. The two validators were written apart; they accept the same requests.
-/

namespace NotificationLedger

open Outcome Public

/-! ## The intents the plugin builds

The intent is a function of the request and the caller, apart from the expiry, which has to parse.
What the plugin hands to storage is this intent or nothing. -/

/-- The intent of an invitation whose expiry has been parsed. -/
def CreateOrganizationInvitationRequest.intent (request : CreateOrganizationInvitationRequest)
    (source : String) (expiresAt : DateTime) : CreateTransactionalEmailIntent where
  source := {
    moduleId := source
    entityType := request.entityType
    entityId := request.entityId }
  recipient := Plugin.toRecipient request.recipient
  template := {
    organizationId := request.template.organizationId
    organizationName := request.template.organizationName
    invitationId := request.template.invitationId
    invitationUrl := request.template.invitationUrl
    inviterDisplayName := request.template.inviterDisplayName
    roleName := request.template.roleName
    expiresAt }
  idempotencyKey := request.idempotencyKey
  correlationId := request.correlationId
  causationId := request.causationId
  requestedBy := request.requestedBy

/-- The intent of an access request whose expiry has been parsed. -/
def CreateAccessRequestNotificationRequest.intent
    (request : CreateAccessRequestNotificationRequest) (source : String)
    (expiresAt : Option DateTime) : CreateAccessRequestNotificationIntent where
  source := {
    moduleId := source
    entityType := "access_request"
    entityId := request.requestId }
  recipient := Plugin.toRecipient request.recipient
  template := {
    requestId := request.requestId
    organizationId := request.organizationId
    event := request.event
    role := request.role
    scope := request.scope
    expiresAt }
  idempotencyKey := request.idempotencyKey
  correlationId := request.correlationId
  causationId := request.causationId
  requestedBy := request.requestedBy

namespace CreateRequest

variable (S : Setting)

/-- The expiry a request names, as it stands on the wire. -/
def expiresAt? : CreateRequest → Option String
  | organizationInvitation request => some request.template.expiresAt
  | accessRequestNotification request => request.expiresAt

/-- The plugin's validators. -/
def valid (now : DateTime) : CreateRequest → Bool
  | organizationInvitation request => Plugin.validCreateRequest S request now
  | accessRequestNotification request =>
    Plugin.validAccessRequestNotificationRequest S request now

/-- The intent the plugin builds for a caller it has admitted, where the expiry parses. -/
def intent (source : String) : CreateRequest → Option IntentRequest
  | organizationInvitation request =>
    (Plugin.parseTime S request.template.expiresAt).map fun t ↦
      .invitation (request.intent source t)
  | accessRequestNotification request =>
    match request.expiresAt with
    | none => some (.accessRequest (request.intent source none))
    | some value =>
      (Plugin.parseTime S value).map fun t ↦ .accessRequest (request.intent source (some t))

end CreateRequest

namespace Plugin

variable {S : Setting} {caller : Option String} {source : String} {now : DateTime}

theorem invitationIntent_eq_ok {request : CreateOrganizationInvitationRequest}
    {intent : CreateTransactionalEmailIntent} :
    invitationIntent S caller request now = .ok intent ↔
      ∃ source t, authorizedCaller caller S.config.transactionalCallers = some source ∧
        validCreateRequest S request now = true ∧
        parseTime S request.template.expiresAt = some t ∧ intent = request.intent source t := by
  simp only [invitationIntent]
  rw [bind_eq_ok]
  refine exists_congr fun source ↦ ?_
  rw [require_eq_ok, ensure_bind_eq_ok, bind_eq_ok]
  simp only [require_eq_ok, pure_eq_ok]
  constructor
  · rintro ⟨hcaller, hvalid, t, ht, rfl⟩
    exact ⟨t, hcaller, hvalid, ht, rfl⟩
  · rintro ⟨t, hcaller, hvalid, ht, rfl⟩
    exact ⟨hcaller, hvalid, t, ht, rfl⟩

theorem accessRequestIntent_eq_ok {request : CreateAccessRequestNotificationRequest}
    {intent : CreateAccessRequestNotificationIntent} :
    accessRequestIntent S caller request now = .ok intent ↔
      ∃ source expiresAt, authorizedCaller caller S.config.transactionalCallers = some source ∧
        validAccessRequestNotificationRequest S request now = true ∧
        parseExpiry S request.expiresAt = .ok expiresAt ∧
        intent = request.intent source expiresAt := by
  simp only [accessRequestIntent]
  rw [bind_eq_ok]
  refine exists_congr fun source ↦ ?_
  rw [require_eq_ok, ensure_bind_eq_ok, bind_eq_ok]
  simp only [pure_eq_ok]
  constructor
  · rintro ⟨hcaller, hvalid, t, ht, rfl⟩
    exact ⟨t, hcaller, hvalid, ht, rfl⟩
  · rintro ⟨t, hcaller, hvalid, ht, rfl⟩
    exact ⟨hcaller, hvalid, t, ht, rfl⟩

/-- **What a create operation goes on with**: the built intent of an admitted request. -/
theorem intentRequestOf_eq_ok {raw : CreateRequest} {request : IntentRequest} :
    intentRequestOf S caller raw now = .ok request ↔
      ∃ source, authorizedCaller caller S.config.transactionalCallers = some source ∧
        raw.valid S now = true ∧ raw.intent S source = some request := by
  cases raw with
  | organizationInvitation raw =>
    rw [intentRequestOf, map_eq_pure_bind, bind_eq_ok]
    simp only [pure_eq_ok, invitationIntent_eq_ok, CreateRequest.valid, CreateRequest.intent,
      Option.map_eq_some_iff]
    constructor
    · rintro ⟨intent, ⟨source, t, hcaller, hvalid, ht, rfl⟩, rfl⟩
      exact ⟨source, hcaller, hvalid, t, ht, rfl⟩
    · rintro ⟨source, hcaller, hvalid, t, ht, rfl⟩
      exact ⟨_, ⟨source, t, hcaller, hvalid, ht, rfl⟩, rfl⟩
  | accessRequestNotification raw =>
    rw [intentRequestOf, map_eq_pure_bind, bind_eq_ok]
    simp only [pure_eq_ok, accessRequestIntent_eq_ok, CreateRequest.valid, CreateRequest.intent]
    constructor
    · rintro ⟨intent, ⟨source, expiresAt, hcaller, hvalid, hparse, rfl⟩, rfl⟩
      refine ⟨source, hcaller, hvalid, ?_⟩
      rcases parseExpiry_eq_ok.mp hparse with ⟨hnone, rfl⟩ | ⟨value, t, hvalue, ht, rfl⟩
      · rw [hnone]
      · rw [hvalue]
        simp only [ht, Option.map_some]
    · rintro ⟨source, hcaller, hvalid, hintent⟩
      cases hexpires : raw.expiresAt with
      | none =>
        rw [hexpires] at hintent
        cases hintent
        exact ⟨_, ⟨source, none, hcaller, hvalid, rfl, rfl⟩, rfl⟩
      | some value =>
        rw [hexpires] at hintent
        obtain ⟨t, ht, rfl⟩ := Option.map_eq_some_iff.mp hintent
        refine ⟨_, ⟨source, some t, hcaller, hvalid, ?_, rfl⟩, rfl⟩
        exact parseExpiry_eq_ok.mpr (Or.inr ⟨value, t, rfl, ht, rfl⟩)

/-! ## The validators agree

The two lists of checks are compared field by field. The plugin's time of expiry is parsed and
compared with the same clock, so the two comparisons are one. -/

/-- Both validators of an invitation ask the same of it. -/
theorem validCreateRequest_iff {request : CreateOrganizationInvitationRequest} {t : DateTime}
    (hcaller : authorizedCaller caller S.config.transactionalCallers = some source)
    (htime : validTime S request.template.expiresAt = true)
    (ht : parseTime S request.template.expiresAt = some t) :
    validCreateRequest S request now = true ↔
      validateInvitationRequest (request.intent source t) now = .ok () := by
  constructor
  · exact fun hvalid ↦ validate_of_invitationIntent
      (invitationIntent_eq_ok.mpr ⟨source, t, hcaller, hvalid, ht, rfl⟩)
  intro hvalidate
  obtain ⟨-, htype, hentity, haddress, -, hkey, hcorrelation, horganization, horganizationName,
    hinvitation, hurl, hname, hinviter, hrole, hcausation, hrequestedBy, hat, -, hscheme, hfuture,
    htypeName, hsame⟩ := validateInvitationRequest_eq_ok.mp hvalidate
  simp only [validCreateRequest, ht, Option.any_some, Bool.and_eq_true, decide_eq_true_eq,
    Bool.or_eq_true]
  exact ⟨⟨⟨⟨⟨⟨⟨⟨⟨⟨⟨⟨⟨⟨⟨⟨⟨⟨⟨htype, htypeName⟩, hentity⟩, haddress⟩, hat⟩, hname⟩, horganization⟩,
    horganizationName⟩, hinvitation⟩, hsame⟩, hurl⟩, hscheme⟩, hinviter⟩, hrole⟩, htime⟩, hfuture⟩,
    hkey⟩, hcorrelation⟩, hcausation⟩, hrequestedBy⟩

/-- Both validators of an access request ask the same of it. -/
theorem validAccessRequestNotificationRequest_iff
    {request : CreateAccessRequestNotificationRequest} {expiresAt : Option DateTime}
    (hcaller : authorizedCaller caller S.config.transactionalCallers = some source)
    (htime : ∀ value ∈ request.expiresAt, validTime S value = true)
    (hparse : parseExpiry S request.expiresAt = .ok expiresAt) :
    validAccessRequestNotificationRequest S request now = true ↔
      validateAccessRequest (request.intent source expiresAt) now = .ok () := by
  constructor
  · exact fun hvalid ↦ validate_of_accessRequestIntent
      (accessRequestIntent_eq_ok.mpr ⟨source, expiresAt, hcaller, hvalid, hparse, rfl⟩)
  intro hvalidate
  obtain ⟨-, -, -, haddress, -, hid, horganization, hrole, hscope, hscopeId, -, hcorrelation,
    hname, hroleName, hscopeName, hcausation, hrequestedBy, hat, -, -, hkey, hexpiring, hdenied,
    hfuture⟩ := validateAccessRequest_eq_ok.mp hvalidate
  have hall : request.expiresAt.all (validTime S) = true := by
    rw [Option.all_eq_true]
    exact htime
  simp only [validAccessRequestNotificationRequest, Bool.and_eq_true, decide_eq_true_eq]
  refine ⟨⟨⟨⟨⟨⟨⟨⟨⟨⟨⟨⟨⟨⟨⟨hid, horganization⟩, haddress⟩, hat⟩, hname⟩, hrole⟩, hroleName⟩,
    hscope⟩, hscopeId⟩, hscopeName⟩, hall⟩, ?_⟩, hkey⟩, hcorrelation⟩, hcausation⟩,
    hrequestedBy⟩
  simp only [CreateAccessRequestNotificationRequest.intent] at hexpiring hdenied hfuture
  rcases parseExpiry_eq_ok.mp hparse with ⟨hnone, rfl⟩ | ⟨value, t, hvalue, ht, rfl⟩
  · rw [hnone]
    cases hevent : request.event <;> simp_all
  · rw [hvalue, Option.bind_some, ht]
    cases hevent : request.event <;> simp_all

/-- **The two validators agree**: storage accepts the intent the plugin builds from a request
exactly when the plugin accepts the request, and that is when a create operation goes on. -/
theorem validators_agree (raw : CreateRequest) (now : DateTime)
    (hcaller : authorizedCaller caller S.config.transactionalCallers = some source)
    (hexpiry : ∀ text ∈ raw.expiresAt?, validTime S text = true) :
    ∃ request, raw.intent S source = some request ∧
      (raw.valid S now = true ↔ request.validate now = .ok ()) ∧
      (intentRequestOf S caller raw now = .ok request ↔ request.validate now = .ok ()) := by
  obtain ⟨request, hintent, hagree⟩ : ∃ request, raw.intent S source = some request ∧
      (raw.valid S now = true ↔ request.validate now = .ok ()) := by
    cases raw with
    | organizationInvitation raw =>
      have htime := hexpiry _ rfl
      have hparses := htime
      rw [validTime, Bool.and_eq_true] at hparses
      obtain ⟨t, ht⟩ := Option.isSome_iff_exists.mp hparses.2
      refine ⟨.invitation (raw.intent source t), ?_, validCreateRequest_iff hcaller htime ht⟩
      rw [CreateRequest.intent, ht, Option.map_some]
    | accessRequestNotification raw =>
      obtain ⟨expiresAt, hparse⟩ : ∃ expiresAt, parseExpiry S raw.expiresAt = .ok expiresAt := by
        cases hexpires : raw.expiresAt with
        | none => exact ⟨none, rfl⟩
        | some value =>
          have htime := hexpiry value hexpires
          rw [validTime, Bool.and_eq_true] at htime
          obtain ⟨t, ht⟩ := Option.isSome_iff_exists.mp htime.2
          exact ⟨some t, parseExpiry_eq_ok.mpr (Or.inr ⟨value, t, rfl, ht, rfl⟩)⟩
      refine ⟨.accessRequest (raw.intent source expiresAt), ?_,
        validAccessRequestNotificationRequest_iff hcaller hexpiry hparse⟩
      rcases parseExpiry_eq_ok.mp hparse with ⟨hnone, rfl⟩ | ⟨value, t, hvalue, ht, rfl⟩
      · rw [CreateRequest.intent, hnone]
      · rw [CreateRequest.intent, hvalue]
        simp only [ht, Option.map_some]
  refine ⟨request, hintent, hagree, ?_⟩
  rw [intentRequestOf_eq_ok, ← hagree]
  constructor
  · rintro ⟨-, -, hvalid, -⟩
    exact hvalid
  · exact fun hvalid ↦ ⟨source, hcaller, hvalid, hintent⟩

/-- The request is accepted while its expiry lies ahead, and by neither at the expiry. -/
theorem validators_agree_request :
    ∃ request, (CreateRequest.organizationInvitation Deployment.request).intent Deployment.setting
        "org" = some request ∧
      request.validate Deployment.midnight = .ok () ∧
      intentRequestOf Deployment.setting (some "org")
        (.organizationInvitation Deployment.request) Deployment.midnight = .ok request ∧
      request.validate Deployment.nextDay ≠ .ok () := by
  have hcaller : authorizedCaller (some "org") Deployment.setting.config.transactionalCallers =
      some "org" := by decide
  obtain ⟨request, hintent, haccepts, hgoesOn⟩ := validators_agree
    (.organizationInvitation Deployment.request) Deployment.midnight hcaller (by decide)
  obtain ⟨request', hintent', hrejects, -⟩ := validators_agree
    (.organizationInvitation Deployment.request) Deployment.nextDay hcaller (by decide)
  cases hintent.symm.trans hintent'
  have hvalid := haccepts.mp (by decide)
  exact ⟨request, hintent, hvalid, hgoesOn.mpr hvalid,
    fun h ↦ absurd (hrejects.mpr h) (by decide)⟩

end Plugin

/-! ## Observations -/

namespace Events

/-- The applier's checks of a dispatch envelope, one by one. -/
structure PassesDispatch (X : Externals) (event : ObservationEnvelope)
    (observed : EmailDispatchObserved) : Prop where
  contract : validateEventContract emailDispatchObservedEvent event = .ok ()
  payload : decodePayload (EmailDispatchObserved.decode X) event = .ok observed
  source : validateEventSource event observed.provider = .ok ()
  observation : validateDispatchObservation observed = .ok ()

/-- The applier's checks of a receipt envelope, one by one. -/
structure PassesReceipt (X : Externals) (event : ObservationEnvelope)
    (observed : EmailReceiptObserved) : Prop where
  contract : validateEventContract emailReceiptObservedEvent event = .ok ()
  payload : decodePayload (EmailReceiptObserved.decode X) event = .ok observed
  source : validateEventSource event observed.source = .ok ()
  observation : validateReceipt observed = .ok ()

theorem PassesDispatch.of_observationOf {X : Externals} {event : ObservationEnvelope}
    {observed : EmailDispatchObserved} (h : observationOf X event = .ok (.dispatch observed)) :
    PassesDispatch X event observed := by
  obtain ⟨hcontract, hname, hdecode, hsource, hvalid⟩ := observationOf_eq_ok.mp h
  exact ⟨ensure_eq_ok.mpr ⟨hname, hcontract⟩, require_eq_ok.mpr hdecode, ensure_eq_ok.mpr hsource,
    hvalid⟩

theorem PassesReceipt.of_observationOf {X : Externals} {event : ObservationEnvelope}
    {observed : EmailReceiptObserved} (h : observationOf X event = .ok (.receipt observed)) :
    PassesReceipt X event observed := by
  obtain ⟨hcontract, hname, hdecode, hsource, hvalid⟩ := observationOf_eq_ok.mp h
  exact ⟨ensure_eq_ok.mpr ⟨hname, hcontract⟩, require_eq_ok.mpr hdecode, ensure_eq_ok.mpr hsource,
    hvalid⟩

end Events

namespace Plugin

open Events

/-- The observations `dispatch_due` can have recorded: an accepted response, or a rejection or an
unknown fate under a code of its own. -/
inductive Built (S : Setting) (claim : DispatchClaim) : EmailDispatchObserved → Prop
  | response {response : DispatchResponse} {observed : EmailDispatchObserved}
      (h : dispatchObservation S claim response = .ok observed) : Built S claim observed
  | rejected (code : String) (observedAt : DateTime) (h : requiredBounded code 1 160 = true) :
      Built S claim (permanentRejection S claim code observedAt)
  | unknown (code : String) (observedAt : DateTime) (h : requiredBounded code 1 160 = true) :
      Built S claim (unknownDispatch S claim observedAt code)

variable {S : Setting} {claim : DispatchClaim}

/-- The shape of an observation that is no accepted response. -/
theorem validShape_failedDispatch {outcome : DispatchOutcome} {code : String} {t : DateTime}
    (houtcome : outcome = .permanentFailure ∨ outcome = .deliveryUnknown)
    (hcode : requiredBounded code 1 160 = true) :
    validShape (failedDispatch S claim outcome code t) = true := by
  have hblank := not_isBlank_of_requiredBounded hcode
  have hlength := length_le_of_requiredBounded hcode
  have hpermanent : isBlank "permanent_failure" = false := by decide
  have hunknown : isBlank "delivery_unknown" = false := by decide
  rcases houtcome with rfl | rfl
  · simp [validShape, failedDispatch, validFailure, DispatchOutcome.asStr, hblank, hlength,
      hpermanent]
    decide
  · simp [validShape, failedDispatch, validFailure, DispatchOutcome.asStr, hblank, hlength,
      hunknown]
    decide

/-- **A built observation is admitted.** -/
theorem Built.admitted {observed : EmailDispatchObserved} (h : Built S claim observed)
    (hprovider : ValidProvider S)
    (hclaim : ∀ id ∈ [claim.deliveryId, claim.attemptId, claim.runId], Computed id) :
    observationOf S.externals (dispatchEnvelope S claim observed) = .ok (.dispatch observed) := by
  have hbounds : ∀ id ∈ [claim.deliveryId, claim.attemptId, claim.runId],
      isBlank id = false ∧ id.length ≤ 160 :=
    fun id hid ↦ ⟨(hclaim id hid).1, (hclaim id hid).2.1⟩
  -- an observation without a receipt passes under every code of the right length
  have hfailed : ∀ outcome code t, outcome = .permanentFailure ∨ outcome = .deliveryUnknown →
      requiredBounded code 1 160 = true → observationOf S.externals
        (dispatchEnvelope S claim (failedDispatch S claim outcome code t)) =
          .ok (.dispatch (failedDispatch S claim outcome code t)) := by
    intro outcome code t houtcome hcode
    refine observationOf_eq_ok.mpr ⟨⟨rfl, hprovider⟩, rfl,
      EmailDispatchObserved.decode_encode _ _, rfl, validateDispatchObservation_eq_ok.mpr
        ⟨?_, fun receipt hreceipt ↦ ?_, validShape_failedDispatch houtcome hcode⟩⟩
    · intro value hvalue
      rcases List.mem_cons.mp hvalue with rfl | hvalue
      · exact hprovider
      · exact hbounds value hvalue
    · cases hreceipt
  cases h with
  | @response response _ h =>
    have hadmitted := observationOf_dispatchEnvelope 0 (.response response) hprovider hbounds
    rwa [observedOf, h] at hadmitted
  | rejected code t hcode => exact hfailed _ _ _ (Or.inl rfl) hcode
  | unknown code t hcode => exact hfailed _ _ _ (Or.inr rfl) hcode

/-- **What the plugin accepts, the applier accepts**: the envelope of a built observation or of a
receipt call passes every check and is read back as what was put in, and a response that was not
accepted is recorded neither as accepted nor as a temporary failure. -/
theorem observations_accepted (hprovider : validInstance S.emailProviderInstance = true) :
    (∀ s, (system S).Reachable s → ∀ c ∈ s.calls, ∀ work, c.work? = some work →
      ∀ observed, Built S work.claim observed →
        PassesDispatch S.externals (dispatchEnvelope S work.claim observed) observed) ∧
    (∀ caller source request, authorizedCaller caller S.config.receiptCallers = some source →
      validReceiptRequest S request = true →
        ∃ envelope t, receiptEnvelope S caller request = .ok envelope ∧
          parseTime S request.observedAt = some t ∧
          PassesReceipt S.externals envelope (receiptObservation source request t)) ∧
    ∀ claim now response, (∀ observed, dispatchObservation S claim response ≠ .ok observed) →
      ∀ observed, observationOf S.externals (dispatchEnvelope S claim
          (observedOf S claim now (.response response))) = .ok (.dispatch observed) →
        observed.outcome ≠ .temporaryFailure ∧ observed.outcome ≠ .accepted := by
  obtain ⟨-, hblank, hlength, -⟩ := of_validInstance hprovider
  refine ⟨?_, ?_, ?_⟩
  · intro s hreach c hc work hwork observed hbuilt
    obtain ⟨d, a, -, -, hcomputed⟩ := rows_of_work hreach hc hwork
    exact .of_observationOf (hbuilt.admitted ⟨hblank, hlength⟩ hcomputed)
  · intro caller source request hcaller hvalid
    have htime := hvalid
    simp only [validReceiptRequest, validTime, Bool.and_eq_true] at htime
    obtain ⟨t, ht⟩ := Option.isSome_iff_exists.mp htime.1.1.2.2
    have henvelope := receiptEnvelope_eq_ok.mpr ⟨source, t, hcaller, hvalid, ht, rfl⟩
    refine ⟨_, t, henvelope, ht, ?_⟩
    obtain ⟨source', t', -, -, -, hadmitted⟩ := observationOf_receiptEnvelope henvelope
    have hpasses := PassesReceipt.of_observationOf hadmitted
    have hsame := require_eq_ok.mp hpasses.payload
    rw [EmailReceiptObserved.decode_encode, Option.some_inj] at hsame
    rwa [← hsame] at hpasses
  · -- what is not accepted is observed as unknown
    intro claim now response hrefused observed hobserved
    cases dispatch_of_dispatchEnvelope hobserved
    cases h : dispatchObservation S claim response with
    | ok observed => exact absurd h (hrefused observed)
    | error e =>
      rw [observedOf, h]
      exact ⟨DispatchOutcome.noConfusion, DispatchOutcome.noConfusion⟩

theorem observations_accepted_email :
    (∀ s, (system Deployment.setting).Reachable s → ∀ c ∈ s.calls, ∀ work, c.work? = some work →
      ∀ observed, Built Deployment.setting work.claim observed →
        PassesDispatch Deployment.externals
          (dispatchEnvelope Deployment.setting work.claim observed) observed) ∧
    (∀ caller source request, authorizedCaller caller ["mail"] = some source →
      validReceiptRequest Deployment.setting request = true →
        ∃ envelope t, receiptEnvelope Deployment.setting caller request = .ok envelope ∧
          parseTime Deployment.setting request.observedAt = some t ∧
          PassesReceipt Deployment.externals envelope (receiptObservation source request t)) ∧
    ∀ claim now response,
      (∀ observed, dispatchObservation Deployment.setting claim response ≠ .ok observed) →
      ∀ observed, observationOf Deployment.externals (dispatchEnvelope Deployment.setting claim
          (observedOf Deployment.setting claim now (.response response))) =
            .ok (.dispatch observed) →
        observed.outcome ≠ .temporaryFailure ∧ observed.outcome ≠ .accepted :=
  observations_accepted (by decide)

end Plugin

end NotificationLedger

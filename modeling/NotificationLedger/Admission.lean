import NotificationLedger.Events
import NotificationLedger.Plugin

/-!
# Admission

Which envelopes the applier admits, and that it admits what the plugin builds. An envelope is
admitted exactly when it meets its contract and carries a valid payload (`observationOf_eq_ok`). The
plugin encodes the payload it has validated, so the applier decodes the same payload again: a
receipt or lifecycle call is recorded as just that, and the observation of a provider's result is
always admitted, whatever the result was.

## Encoding and validating

Both sides validate: the plugin what it is given, the applier what it decodes. The checks are not
the same list, so a round trip of the encoder is not enough; for each payload the plugin's checks
are shown to imply the applier's, also for the observations that are built from a response the
plugin has refused.
-/

namespace NotificationLedger

open Outcome

namespace Events

variable {X : Externals} {event : ObservationEnvelope}

/-! ## Admitted envelopes

An envelope is admitted if its header meets the contract of its event and its payload decodes to a
valid one. Nothing here reads the ledger, so what is admitted is a property of the envelope. -/

/-- What is asked of every envelope. -/
def Contract (event : ObservationEnvelope) : Prop :=
  event.eventVersion = 1 ∧ isBlank event.sourceModule = false ∧ event.sourceModule.length ≤ 160

/-- The envelope carries this observation. -/
def Carries (X : Externals) (event : ObservationEnvelope) : Observation → Prop
  | .dispatch payload =>
    event.eventName = emailDispatchObservedEvent ∧
      EmailDispatchObserved.decode X event.payload = some payload ∧
      event.sourceModule = payload.provider ∧ validateDispatchObservation payload = .ok ()
  | .receipt payload =>
    event.eventName = emailReceiptObservedEvent ∧
      EmailReceiptObserved.decode X event.payload = some payload ∧
      event.sourceModule = payload.source ∧ validateReceipt payload = .ok ()
  | .lifecycle payload =>
    isLifecycleEvent event.eventName = true ∧
      OrganizationInvitationLifecycle.decode X event.payload = some payload

/-! Every envelope carries one kind of observation only: the event names differ. -/

theorem emailReceiptObservedEvent_ne :
    emailReceiptObservedEvent ≠ emailDispatchObservedEvent := by
  decide

theorem not_isLifecycleEvent_dispatch :
    isLifecycleEvent emailDispatchObservedEvent = false := by
  decide

theorem not_isLifecycleEvent_receipt : isLifecycleEvent emailReceiptObservedEvent = false := by
  decide

/-- **Admission.** -/
theorem observationOf_eq_ok {o : Observation} :
    observationOf X event = .ok o ↔ Contract event ∧ Carries X event o := by
  rw [observationOf, validateEventContract, ensure_bind_eq_ok]
  simp only [true_and]
  refine and_congr_right fun _ ↦ ?_
  by_cases hdispatch : event.eventName = emailDispatchObservedEvent
  · have hreceipt : event.eventName ≠ emailReceiptObservedEvent := by
      rw [hdispatch]
      exact emailReceiptObservedEvent_ne.symm
    have hlifecycle : isLifecycleEvent event.eventName = false := by
      rw [hdispatch]
      exact not_isLifecycleEvent_dispatch
    rw [if_pos hdispatch]
    simp only [bind_eq_ok, decodePayload, require_eq_ok, validateEventSource, ensure_eq_ok,
      pure_eq_ok]
    cases o <;> simp [Carries, hdispatch] <;> grind
  · rw [if_neg hdispatch]
    by_cases hreceipt : event.eventName = emailReceiptObservedEvent
    · have hlifecycle : isLifecycleEvent event.eventName = false := by
        rw [hreceipt]
        exact not_isLifecycleEvent_receipt
      rw [if_pos hreceipt]
      simp only [bind_eq_ok, decodePayload, require_eq_ok, validateEventSource, ensure_eq_ok,
        pure_eq_ok]
      cases o <;> simp [Carries, hreceipt] <;> grind
    · rw [if_neg hreceipt]
      by_cases hlifecycle : isLifecycleEvent event.eventName = true
      · rw [if_pos hlifecycle]
        simp only [bind_eq_ok, decodePayload, require_eq_ok, pure_eq_ok]
        cases o <;> simp [Carries, hdispatch, hreceipt, hlifecycle]
      · rw [if_neg hlifecycle]
        cases o <;> simp [Carries, hdispatch, hreceipt, hlifecycle]

/-- The checks of a dispatch observation, read together. -/
theorem validateDispatchObservation_eq_ok {payload : EmailDispatchObserved} {u : Unit} :
    validateDispatchObservation payload = .ok u ↔
      (∀ value ∈ [payload.provider, payload.deliveryId, payload.attemptId, payload.functionRunId],
        isBlank value = false ∧ value.length ≤ 160) ∧
      (∀ receipt ∈ payload.remoteReceipt, isDigest receipt.digest = true ∧
        isBlank receipt.remoteId = false ∧ receipt.remoteId.length ≤ 320 ∧
        isBlank receipt.source = false ∧ receipt.source.length ≤ 160) ∧
      validShape payload = true := by
  rw [validateDispatchObservation]
  simp only [validateDispatchField]
  rw [ensure_bind_eq_ok, ensure_bind_eq_ok, ensure_bind_eq_ok, ensure_bind_eq_ok]
  cases payload.remoteReceipt with
  | none => simp [ensure_eq_ok, and_assoc]
  | some receipt =>
    simp [validateRemoteReceipt, validateDigest, bind_eq_ok, ensure_eq_ok, and_assoc]

end Events

/-! ## The envelopes of receipt and lifecycle calls

The plugin has checked the fields already; what is shown is that its checks are at least those of
the applier, and that the names and the version it writes are the ones the applier expects. -/

namespace Plugin

open Events

variable {S : Setting} {caller : Option String} {envelope : ObservationEnvelope}

/-- What a receipt call is wrapped into. -/
theorem receiptEnvelope_eq_ok {request : ObserveReceiptRequest} :
    receiptEnvelope S caller request = .ok envelope ↔
      ∃ source observedAt, authorizedCaller caller S.config.receiptCallers = some source ∧
        validReceiptRequest S request = true ∧ parseTime S request.observedAt = some observedAt ∧
        envelope = {
          id := request.observationId
          eventName := emailReceiptObservedEvent
          eventVersion := 1
          sourceModule := source
          aggregateId := request.deliveryId
          occurredAt := observedAt
          payload := (receiptObservation source request observedAt).encode S.externals } := by
  simp only [receiptEnvelope]
  rw [bind_eq_ok]
  refine exists_congr fun source ↦ ?_
  rw [require_eq_ok, ensure_bind_eq_ok, bind_eq_ok]
  simp only [require_eq_ok, pure_eq_ok]
  constructor
  · rintro ⟨hcaller, hvalid, t, ht, rfl⟩
    exact ⟨t, hcaller, hvalid, ht, rfl⟩
  · rintro ⟨t, hcaller, hvalid, ht, rfl⟩
    exact ⟨hcaller, hvalid, t, ht, rfl⟩

/-- What a lifecycle call is wrapped into. -/
theorem lifecycleEnvelope_eq_ok {request : ObserveInvitationLifecycleRequest} :
    lifecycleEnvelope S caller request = .ok envelope ↔
      ∃ source observedAt, authorizedCaller caller S.config.transactionalCallers = some source ∧
        validLifecycleRequest S request = true ∧
        parseTime S request.observedAt = some observedAt ∧
        envelope = {
          id := request.observationId
          eventName := lifecycleEventName request.lifecycle
          eventVersion := 1
          sourceModule := source
          aggregateId := request.invitationId
          occurredAt := observedAt
          payload := OrganizationInvitationLifecycle.encode S.externals {
            invitationId := request.invitationId
            organizationId := request.organizationId
            observedAt } } := by
  simp only [lifecycleEnvelope]
  rw [bind_eq_ok]
  refine exists_congr fun source ↦ ?_
  rw [require_eq_ok, ensure_bind_eq_ok, bind_eq_ok]
  simp only [require_eq_ok, pure_eq_ok]
  constructor
  · rintro ⟨hcaller, hvalid, t, ht, rfl⟩
    exact ⟨t, hcaller, hvalid, ht, rfl⟩
  · rintro ⟨t, hcaller, hvalid, ht, rfl⟩
    exact ⟨hcaller, hvalid, t, ht, rfl⟩

theorem isLifecycleEvent_lifecycleEventName (lifecycle : Lifecycle) :
    isLifecycleEvent (lifecycleEventName lifecycle) = true := by
  cases lifecycle <;> decide

theorem lifecycleEventName_ne (lifecycle : Lifecycle) :
    lifecycleEventName lifecycle ≠ emailDispatchObservedEvent ∧
      lifecycleEventName lifecycle ≠ emailReceiptObservedEvent := by
  have hname := isLifecycleEvent_lifecycleEventName lifecycle
  constructor
  · intro h
    rw [h, not_isLifecycleEvent_dispatch] at hname
    cases hname
  · intro h
    rw [h, not_isLifecycleEvent_receipt] at hname
    cases hname

/-- A receipt call is recorded as the receipt it reports, under its caller's name. -/
theorem receipt_of_receiptEnvelope {request : ObserveReceiptRequest} {o : Observation}
    (h : receiptEnvelope S caller request = .ok envelope)
    (ho : observationOf S.externals envelope = .ok o) :
    ∃ source observedAt, authorizedCaller caller S.config.receiptCallers = some source ∧
      o = .receipt (receiptObservation source request observedAt) := by
  obtain ⟨source, t, hcaller, -, -, rfl⟩ := receiptEnvelope_eq_ok.mp h
  obtain ⟨-, hcarries⟩ := observationOf_eq_ok.mp ho
  refine ⟨source, t, hcaller, ?_⟩
  cases o with
  | dispatch payload => exact absurd hcarries.1 emailReceiptObservedEvent_ne
  | receipt payload =>
    obtain ⟨-, hdecode, -⟩ := hcarries
    rw [EmailReceiptObserved.decode_encode, Option.some_inj] at hdecode
    rw [hdecode]
  | lifecycle payload =>
    have hname : isLifecycleEvent emailReceiptObservedEvent = true := hcarries.1
    rw [not_isLifecycleEvent_receipt] at hname
    cases hname

/-- A lifecycle call is recorded as a lifecycle observation. -/
theorem lifecycle_of_lifecycleEnvelope {request : ObserveInvitationLifecycleRequest}
    {o : Observation} (h : lifecycleEnvelope S caller request = .ok envelope)
    (ho : observationOf S.externals envelope = .ok o) : ∃ payload, o = .lifecycle payload := by
  obtain ⟨source, t, -, -, -, rfl⟩ := lifecycleEnvelope_eq_ok.mp h
  obtain ⟨-, hcarries⟩ := observationOf_eq_ok.mp ho
  cases o with
  | dispatch payload => exact absurd hcarries.1 (lifecycleEventName_ne request.lifecycle).1
  | receipt payload => exact absurd hcarries.1 (lifecycleEventName_ne request.lifecycle).2
  | lifecycle payload => exact ⟨payload, rfl⟩

/-! ## The observation of a provider's result

Every result leads to an observation: a valid response to its own, a response that fails a check to
`delivery_unknown`, and a refusal or a failure to a fixed one. The shape the applier asks for is
proved for each of these. -/

variable {claim : DispatchClaim} {now : DateTime} {result : DispatchResult}

/-- What the envelope of a dispatch observation carries. -/
theorem dispatch_of_dispatchEnvelope {observed : EmailDispatchObserved} {o : Observation}
    (ho : observationOf S.externals (dispatchEnvelope S claim observed) = .ok o) :
    o = .dispatch observed := by
  obtain ⟨-, hcarries⟩ := observationOf_eq_ok.mp ho
  cases o with
  | dispatch payload =>
    obtain ⟨-, hdecode, -⟩ := hcarries
    rw [dispatchEnvelope, EmailDispatchObserved.decode_encode, Option.some_inj] at hdecode
    rw [hdecode]
  | receipt payload => exact absurd hcarries.1.symm emailReceiptObservedEvent_ne
  | lifecycle payload =>
    have hname : isLifecycleEvent emailDispatchObservedEvent = true := hcarries.1
    rw [not_isLifecycleEvent_dispatch] at hname
    cases hname

/-- The observation of a valid response, field by field. -/
def responseObserved (S : Setting) (claim : DispatchClaim) (response : DispatchResponse)
    (t : DateTime) (failure : Option SanitizedFailure) : EmailDispatchObserved where
  deliveryId := claim.deliveryId
  attemptId := claim.attemptId
  functionRunId := claim.runId
  outcome := response.outcome
  provider := S.emailProviderInstance
  observedAt := t
  remoteReceipt := response.remoteReceipt.map fun receipt ↦
    { receipt with source := S.emailProviderInstance }
  failure := failure

theorem dispatchObservation_eq_ok {response : DispatchResponse}
    {observed : EmailDispatchObserved} :
    dispatchObservation S claim response = .ok observed ↔
      validDispatchResponse S response = true ∧
        ∃ t failure, parseTime S response.observedAt = some t ∧
          sanitizedFailure response.failure = .ok failure ∧
          observed = responseObserved S claim response t failure := by
  simp only [dispatchObservation]
  rw [ensure_bind_eq_ok]
  refine and_congr_right fun _ ↦ ?_
  rw [bind_eq_ok]
  refine exists_congr fun t ↦ ?_
  rw [require_eq_ok, bind_eq_ok, ← exists_and_left]
  refine exists_congr fun failure ↦ ?_
  rw [pure_eq_ok, eq_comm (b := observed)]
  rfl

/-- The observation names the claim and the provider, whatever the provider answered. -/
theorem observedOf_claim (S : Setting) (claim : DispatchClaim) (now : DateTime)
    (result : DispatchResult) :
    (observedOf S claim now result).deliveryId = claim.deliveryId ∧
      (observedOf S claim now result).attemptId = claim.attemptId ∧
      (observedOf S claim now result).functionRunId = claim.runId ∧
      (observedOf S claim now result).provider = S.emailProviderInstance := by
  cases result with
  | response response =>
    simp only [observedOf]
    split
    · next observed h =>
      obtain ⟨-, t, failure, -, -, rfl⟩ := dispatchObservation_eq_ok.mp h
      exact ⟨rfl, rfl, rfl, rfl⟩
    · exact ⟨rfl, rfl, rfl, rfl⟩
  | invalidDispatch | unsupportedMessage | unknownDomainError | runtimeFailure =>
    exact ⟨rfl, rfl, rfl, rfl⟩

/-- Only a valid response is recorded as accepted or as a temporary failure. -/
theorem valid_of_observedOf
    (h : (observedOf S claim now result).outcome = .accepted ∨
      (observedOf S claim now result).outcome = .temporaryFailure) :
    ∃ response, result = .response response ∧ validDispatchResponse S response = true ∧
      response.outcome = (observedOf S claim now result).outcome ∧
      dispatchObservation S claim response = .ok (observedOf S claim now result) := by
  cases result with
  | response response =>
    simp only [observedOf] at h ⊢
    cases hobserved : dispatchObservation S claim response with
    | ok observed =>
      obtain ⟨hvalid, t, failure, -, -, rfl⟩ := dispatchObservation_eq_ok.mp hobserved
      exact ⟨response, rfl, hvalid, rfl, hobserved⟩
    | error e =>
      rw [hobserved] at h
      rcases h with h | h <;> cases h
  | invalidDispatch | unsupportedMessage | unknownDomainError | runtimeFailure =>
    rcases h with h | h <;> cases h

/-- The delay of a valid failure survives its conversion. -/
theorem retryDelay_of_bounded {delay : Option ℤ}
    (h : (delay.all fun n ↦ decide (0 ≤ n ∧ n ≤ 86400000)) = true) :
    ∃ converted, retryDelay delay = .ok converted ∧
      (converted.all fun n ↦ decide (n.toNat ≤ 86400000)) = true := by
  cases delay with
  | none => exact ⟨none, rfl, rfl⟩
  | some n =>
    simp only [Option.all_some, decide_eq_true_eq] at h
    obtain ⟨hlow, hhigh⟩ := h
    have hrange : 0 ≤ n ∧ n < 2 ^ 64 := by omega
    refine ⟨some (UInt64.ofNat n.toNat), ?_, ?_⟩
    · rw [retryDelay, ensure_of hrange]
      rfl
    · simp only [Option.all_some, decide_eq_true_eq, UInt64.toNat_ofNat']
      omega

/-- A valid response is always converted. -/
theorem exists_dispatchObservation {response : DispatchResponse}
    (h : validDispatchResponse S response = true) :
    ∃ t failure, parseTime S response.observedAt = some t ∧
      sanitizedFailure response.failure = .ok failure := by
  simp only [validDispatchResponse, validTime, Bool.and_eq_true] at h
  obtain ⟨⟨⟨-, -, htime⟩, -⟩, hshape⟩ := h
  obtain ⟨t, ht⟩ := Option.isSome_iff_exists.mp htime
  refine ⟨t, ?_⟩
  unfold validOutcome at hshape
  cases hfailure : response.failure with
  | none => exact ⟨none, ht, rfl⟩
  | some f =>
    have hdelay : ∃ converted, retryDelay f.retryAfterMs = .ok converted := by
      cases houtcome : response.outcome with
      | accepted => simp [houtcome, hfailure] at hshape
      | temporaryFailure =>
        simp only [houtcome, hfailure, Option.any_some, Bool.and_eq_true] at hshape
        obtain ⟨converted, hconverted, -⟩ := retryDelay_of_bounded hshape.2.2
        exact ⟨converted, hconverted⟩
      | permanentFailure | deliveryUnknown =>
        simp only [houtcome, hfailure, Option.any_some, Bool.and_eq_true,
          Option.isNone_iff_eq_none] at hshape
        exact ⟨none, by rw [hshape.2.2]; rfl⟩
    obtain ⟨converted, hconverted⟩ := hdelay
    refine ⟨some ⟨f.code, f.classification, converted⟩, ht, ?_⟩
    rw [sanitizedFailure, hconverted]
    rfl

/-- The fixed codes of a failed dispatch can be stored. -/
theorem storable_of_fixedCode : ∀ code ∈ ["email_invalid_dispatch", "email_unsupported_message",
    "email_dispatch_unknown_domain_error", "email_dispatch_runtime_failure",
    "email_dispatch_protocol_failure"], storable code = true := by
  decide

/-- **What a result is recorded as**: a valid response as it is, anything else as a rejection or as
an unknown fate under a fixed code. -/
theorem observedOf_cases (S : Setting) (claim : DispatchClaim) (now : DateTime)
    (result : DispatchResult) :
    (∃ response t failure, result = .response response ∧
      validDispatchResponse S response = true ∧ sanitizedFailure response.failure = .ok failure ∧
      observedOf S claim now result = responseObserved S claim response t failure) ∨
    ((∀ response, result = .response response → validDispatchResponse S response = false) ∧
      ∃ outcome code, (outcome = .permanentFailure ∨ outcome = .deliveryUnknown) ∧
        storable code = true ∧
        observedOf S claim now result = failedDispatch S claim outcome code now) := by
  cases result with
  | response response =>
    by_cases hvalid : validDispatchResponse S response = true
    · obtain ⟨t, failure, ht, hfailure⟩ := exists_dispatchObservation hvalid
      refine Or.inl ⟨response, t, failure, rfl, hvalid, hfailure, ?_⟩
      have hobserved : dispatchObservation S claim response =
          .ok (responseObserved S claim response t failure) :=
        dispatchObservation_eq_ok.mpr ⟨hvalid, t, failure, ht, hfailure, rfl⟩
      rw [observedOf, hobserved]
    · refine Or.inr ⟨?_, .deliveryUnknown, "email_dispatch_protocol_failure", Or.inr rfl,
        storable_of_fixedCode _ (by simp), ?_⟩
      · rintro _ ⟨⟩
        exact Bool.eq_false_iff.mpr hvalid
      · rw [observedOf, dispatchObservation, ensure_of_not hvalid]
        rfl
  | invalidDispatch =>
    exact Or.inr ⟨fun _ h ↦ (nomatch h), _, _, Or.inl rfl,
      storable_of_fixedCode _ (by simp), rfl⟩
  | unsupportedMessage =>
    exact Or.inr ⟨fun _ h ↦ (nomatch h), _, _, Or.inl rfl,
      storable_of_fixedCode _ (by simp), rfl⟩
  | unknownDomainError =>
    exact Or.inr ⟨fun _ h ↦ (nomatch h), _, _, Or.inr rfl,
      storable_of_fixedCode _ (by simp), rfl⟩
  | runtimeFailure =>
    exact Or.inr ⟨fun _ h ↦ (nomatch h), _, _, Or.inr rfl,
      storable_of_fixedCode _ (by simp), rfl⟩

/-- The cross-field contract of a valid failure, before and after its conversion. -/
private theorem validFailure_of_response {failure : DispatchResponseFailure}
    {converted : Option UInt64} {classification : String}
    (h : validDispatchFailure failure classification = true) :
    validFailure ⟨failure.code, failure.classification, converted⟩ classification = true := by
  simp only [validDispatchFailure, requiredBounded, Bool.and_eq_true, Bool.not_eq_true',
    decide_eq_true_eq] at h
  simp only [validFailure, Bool.and_eq_true, Bool.not_eq_true', decide_eq_true_eq]
  exact ⟨⟨⟨⟨h.1.1.1, h.1.1.2.2⟩, h.1.2.1⟩, h.1.2.2.2⟩, h.2⟩

/-- **A valid response is a valid observation.** -/
theorem validShape_of_response {response : DispatchResponse} {observed : EmailDispatchObserved}
    (h : dispatchObservation S claim response = .ok observed) : validShape observed = true := by
  obtain ⟨hvalid, t, failure, -, hfailure, rfl⟩ := dispatchObservation_eq_ok.mp h
  simp only [validDispatchResponse, Bool.and_eq_true] at hvalid
  have hshape := hvalid.2
  unfold validOutcome at hshape
  simp only [validShape, responseObserved]
  cases houtcome : response.outcome with
  | accepted =>
    rw [houtcome] at hshape
    simp only [Option.isNone_iff_eq_none] at hshape ⊢
    rw [hshape] at hfailure
    cases hfailure
    rfl
  | temporaryFailure =>
    rw [houtcome] at hshape
    simp only [Bool.and_eq_true, Option.isNone_iff_eq_none] at hshape ⊢
    obtain ⟨hreceipt, hany⟩ := hshape
    obtain ⟨f, hf, hany⟩ := (Option.any_eq_true _ _).mp hany
    rw [Bool.and_eq_true] at hany
    obtain ⟨converted, hdelay, hbound⟩ := retryDelay_of_bounded hany.2
    rw [hf, sanitizedFailure, hdelay] at hfailure
    cases hfailure
    rw [hreceipt, Option.map_none, Option.any_some, Bool.and_eq_true]
    exact ⟨rfl, validFailure_of_response hany.1, hbound⟩
  | permanentFailure | deliveryUnknown =>
    rw [houtcome] at hshape
    simp only [Bool.and_eq_true, Option.isNone_iff_eq_none] at hshape ⊢
    obtain ⟨hreceipt, hany⟩ := hshape
    obtain ⟨f, hf, hany⟩ := (Option.any_eq_true _ _).mp hany
    rw [Bool.and_eq_true, Option.isNone_iff_eq_none] at hany
    rw [hf, sanitizedFailure, hany.2] at hfailure
    cases hfailure
    rw [hreceipt, Option.map_none, Option.any_some, Bool.and_eq_true]
    exact ⟨rfl, validFailure_of_response hany.1, rfl⟩

theorem validShape_observedOf : validShape (observedOf S claim now result) = true := by
  cases result with
  | response response =>
    simp only [observedOf]
    split
    · next h => exact validShape_of_response h
    · rfl
  | invalidDispatch | unsupportedMessage | unknownDomainError | runtimeFailure => rfl

/-- The failure of a valid observation carries the outcome's name. -/
theorem failure_of_validShape {payload : EmailDispatchObserved} {f : SanitizedFailure}
    (h : validShape payload = true) (hf : f ∈ payload.failure) :
    f.code.length ≤ 160 ∧ f.classification = payload.outcome.asStr := by
  rw [Option.mem_def] at hf
  unfold validShape at h
  cases houtcome : payload.outcome with
  | accepted => simp [houtcome, hf] at h
  | temporaryFailure | permanentFailure | deliveryUnknown =>
    simp only [houtcome, hf, Option.any_some, validFailure, Bool.and_eq_true,
      decide_eq_true_eq] at h
    exact ⟨h.2.1.1.1.1.2, h.2.1.2⟩

/-- The remote receipt of an observation passed its checks. -/
theorem remoteReceipt_observedOf {receipt : RemoteReceiptSummary}
    (h : receipt ∈ (observedOf S claim now result).remoteReceipt) :
    isDigest receipt.digest = true ∧ requiredBounded receipt.remoteId 1 320 = true ∧
      receipt.source = S.emailProviderInstance := by
  cases result with
  | response response =>
    simp only [observedOf] at h
    split at h
    · next observed hobserved =>
      obtain ⟨hvalid, t, failure, -, -, rfl⟩ := dispatchObservation_eq_ok.mp hobserved
      obtain ⟨r, hr, rfl⟩ := Option.map_eq_some_iff.mp h
      simp only [validDispatchResponse, hr, Option.all_some, validRemoteReceipt,
        Bool.and_eq_true, decide_eq_true_eq] at hvalid
      exact ⟨hvalid.1.2.2, hvalid.1.2.1.1, rfl⟩
    · cases h
  | invalidDispatch | unsupportedMessage | unknownDomainError | runtimeFailure => cases h

/-- **Every result of the provider is admitted**, as an observation of the claimed attempt. -/
theorem observationOf_dispatchEnvelope (now : DateTime) (result : DispatchResult)
    (hprovider : isBlank S.emailProviderInstance = false ∧
      S.emailProviderInstance.length ≤ 160)
    (hclaim : ∀ id ∈ [claim.deliveryId, claim.attemptId, claim.runId],
      isBlank id = false ∧ id.length ≤ 160) :
    observationOf S.externals (dispatchEnvelope S claim (observedOf S claim now result)) =
      .ok (.dispatch (observedOf S claim now result)) := by
  obtain ⟨hdelivery, hattempt, hrun, hsource⟩ := observedOf_claim S claim now result
  refine observationOf_eq_ok.mpr ⟨⟨rfl, ?_⟩, rfl, EmailDispatchObserved.decode_encode _ _, rfl, ?_⟩
  · rw [dispatchEnvelope, hsource]
    exact hprovider
  · refine validateDispatchObservation_eq_ok.mpr ⟨?_, ?_, validShape_observedOf⟩
    · rw [hdelivery, hattempt, hrun, hsource]
      intro value hvalue
      rcases List.mem_cons.mp hvalue with rfl | hvalue
      · exact hprovider
      · exact hclaim value hvalue
    · intro receipt hreceipt
      obtain ⟨hdigest, hremote, hsource⟩ := remoteReceipt_observedOf hreceipt
      rw [hsource]
      exact ⟨hdigest, not_isBlank_of_requiredBounded hremote,
        length_le_of_requiredBounded hremote, hprovider⟩

end Plugin

end NotificationLedger

import NotificationLedger.Admission
import NotificationLedger.Workers
import NotificationLedger.Deployment

/-!
# When a claimed attempt is resolved

The answer of the provider is recorded under the id `dispatch-observation:<attempt>`, and everything
that can make the recording fail leaves the attempt in flight: no other operation resolves it.
`resolves_iff` says exactly when an answer resolves its attempt. Part of the condition lies with
others: any authorized caller may have used the id for an observation of its own, the provider may
repeat the remote id of an earlier receipt, and an operator may have used the id as the key of a
manual retry.

## The parts of the condition

Recording an answer claims its id, resolves or absorbs on the attempt, inserts a receipt when the
provider names one, and stores a decision when the attempt is to be repeated. The condition has one
clause for each of these statements, in terms of the ledger before the step, and the proof goes
through the statements in turn. That the envelope itself is admitted is no clause: it always is.
-/

namespace NotificationLedger

open Outcome Events Plugin

/-! ## The condition -/

/-- Neither the claimed attempt nor its delivery waits for the provider any more. -/
def Resolved (L : Ledger) (claim : DispatchClaim) : Prop :=
  ∃ d a, L.deliveryWithAttempt claim.deliveryId claim.attemptId = some (d, a) ∧
    d.status ≠ .attempting ∧ a.status ≠ .dispatching

/-- Both wait, and the revision leaves room for one more update. -/
def InFlight (L : Ledger) (claim : DispatchClaim) : Prop :=
  ∃ d a, L.deliveryWithAttempt claim.deliveryId claim.attemptId = some (d, a) ∧
    d.status = .attempting ∧ a.status = .dispatching ∧ d.revision < maxSafeWireInteger

/-- The texts of a valid response that are stored hold no NUL, nor does the provider's instance. -/
def StorableResult (S : Setting) (result : DispatchResult) : Prop :=
  storable S.emailProviderInstance = true ∧
    ∀ response, result = .response response → validDispatchResponse S response = true →
      (∀ receipt ∈ response.remoteReceipt, storable receipt.remoteId = true) ∧
        ∀ failure ∈ response.failure, storable failure.code = true

/-- No stored evidence has the identity of the evidence a valid response leaves. -/
def Unclashed (S : Setting) (L : Ledger) (claim : DispatchClaim) (result : DispatchResult) : Prop :=
  ∀ response, result = .response response → validDispatchResponse S response = true →
    (response.outcome = .accepted → ∀ receipt ∈ response.remoteReceipt,
      ∀ r ∈ L.receipts.rows,
        r.id ≠ stableId S.externals "ntf_rcp"
          (S.emailProviderInstance ++ ":" ++ receipt.remoteId ++ ":" ++
            EvidenceKind.accepted.asStr) ∧
        ¬(r.source = S.emailProviderInstance ∧ r.remoteId = receipt.remoteId ∧
          r.kind = .accepted)) ∧
    (response.outcome = .temporaryFailure → ∀ q ∈ L.retryRequests.rows,
      q.id ≠ stableId S.externals "ntf_rty" (dispatchObservationId claim.attemptId) ∧
      ¬(q.deliveryId = claim.deliveryId ∧
        q.idempotencyKey = dispatchObservationId claim.attemptId))

/-- The answer can be recorded. -/
structure Recordable (S : Setting) (L : Ledger) (claim : DispatchClaim)
    (result : DispatchResult) : Prop where
  inFlight : InFlight L claim
  unconsumed : L.consumedEvents.get? (dispatchObservationId claim.attemptId) = none
  storable : StorableResult S result
  unclashed : Unclashed S L claim result

/-! ## The ids of a claim -/

/-- An id the plugin computed itself. -/
def Computed (id : String) : Prop :=
  isBlank id = false ∧ id.length ≤ 160 ∧ storable id = true

theorem computed_stableId (X : Externals) {pfx : String} (input : String)
    (hlength : pfx.length ≤ 127) (hstorable : storable pfx = true) :
    Computed (stableId X pfx input) := by
  refine ⟨isBlank_stableId X pfx input, ?_, storable_stableId X hstorable⟩
  rw [length_stableId]
  omega

theorem storable_dispatchObservationId {attemptId : String} (h : Computed attemptId) :
    storable (dispatchObservationId attemptId) = true := by
  have hlabel : storable "dispatch-observation:" = true := by simp [storable]
  unfold dispatchObservationId
  rw [storable_append, Bool.and_eq_true]
  exact ⟨hlabel, h.2.2⟩

section Claim

variable {S : Setting} {s : System} {work : DispatchWork}

/-- The ids of a delivery and its attempt. -/
theorem computed_of_rows {X : Externals} {protector : SnapshotProtector} {L : Ledger}
    (h : (transactions X protector).Reachable L) {deliveryId attemptId : String} {d : Delivery}
    {a : Attempt} (hrows : L.deliveryWithAttempt deliveryId attemptId = some (d, a)) :
    ∀ id ∈ [deliveryId, attemptId, a.functionRunId], Computed id := by
  obtain ⟨hd, ha, had⟩ := Ledger.deliveryWithAttempt_eq_some.mp hrows
  obtain ⟨hdmem, rfl⟩ := Table.get?_eq_some.mp hd
  obtain ⟨hamem, rfl⟩ := Table.get?_eq_some.mp ha
  obtain ⟨-, hname, hrunName, -⟩ := (sound_course h (Ledger.course_of_mem hdmem)).named a
    (Ledger.mem_attemptsOf.mpr ⟨hamem, had⟩)
  have hdelivery : Computed d.id := by
    rw [((linked_of_reachable h).deliveries d hdmem).1]
    exact computed_stableId _ _ (by decide) (by decide)
  have hattempt : Computed a.id := by
    rw [hname]
    exact computed_stableId _ _ (by decide) (by decide)
  have hrun : Computed a.functionRunId := by
    rw [hrunName]
    exact computed_stableId _ _ (by decide) (by decide)
  intro id hid
  simp only [List.mem_cons, List.not_mem_nil, or_false] at hid
  rcases hid with rfl | rfl | rfl
  · exact hdelivery
  · exact hattempt
  · exact hrun

/-- The rows behind a worker's claim. -/
theorem rows_of_work (hreach : (system S).Reachable s) {c : Call} (hc : c ∈ s.calls)
    (hwork : c.work? = some work) :
    ∃ d a, s.ledger.deliveryWithAttempt work.claim.deliveryId work.claim.attemptId =
        some (d, a) ∧ a.functionRunId = work.claim.runId ∧
      ∀ id ∈ [work.claim.deliveryId, work.claim.attemptId, work.claim.runId], Computed id := by
  have hledger := reachable_ledger hreach
  obtain ⟨a, ha, hid, hdelivery, hrun⟩ := (backed_of_reachable hreach c hc work hwork).attempt
  obtain ⟨d, hd, hdid⟩ := (linked_of_reachable hledger).attempts a ha
  have hrows : s.ledger.deliveryWithAttempt work.claim.deliveryId work.claim.attemptId =
      some (d, a) := Ledger.deliveryWithAttempt_eq_some.mpr
    ⟨Table.get?_eq_some.mpr ⟨hd, hdid.trans hdelivery⟩, Table.get?_eq_some.mpr ⟨ha, hid⟩, hdid.symm⟩
  have hcomputed := computed_of_rows hledger hrows
  rw [hrun] at hcomputed
  exact ⟨d, a, hrows, hrun, hcomputed⟩

end Claim

/-! ## Texts -/

section Texts

variable {S : Setting} {claim : DispatchClaim} {now : DateTime} {result : DispatchResult}

/-- The texts of a resolved attempt, within the bounds that admission has checked. -/
theorem storable_resolveTexts {payload : EmailDispatchObserved}
    (hattempt : storable payload.attemptId = true) (hprovider : payload.provider.length ≤ 160)
    (hreceipt : ∀ r ∈ payload.remoteReceipt, r.remoteId.length ≤ 320 ∧
      r.source = payload.provider ∧ isDigest r.digest = true)
    (hfailure : ∀ f ∈ payload.failure, f.code.length ≤ 160 ∧ storable f.classification = true) :
    Storable (resolveTexts payload) ↔ storable payload.provider = true ∧
      (∀ r ∈ payload.remoteReceipt, storable r.remoteId = true) ∧
      ∀ f ∈ payload.failure, storable f.code = true := by
  rw [resolveTexts, updateTexts, Storable.append_iff, Storable.append_iff, Storable.cons_iff,
    Storable.cons_iff, bounded_eq_self hprovider]
  cases hr : payload.remoteReceipt with
  | none =>
    cases hf : payload.failure with
    | none => simp [Storable, hattempt]
    | some f =>
      obtain ⟨hlength, hclass⟩ := hfailure f hf
      simp [Storable, hattempt, bounded_eq_self hlength, storable_bounded hclass]
  | some r =>
    obtain ⟨hremote, hsource, hdigest⟩ := hreceipt r hr
    cases hf : payload.failure with
    | none =>
      simp [Storable, hattempt, bounded_eq_self hremote, hsource, bounded_eq_self hprovider,
        storable_of_isDigest hdigest]
      tauto
    | some f =>
      obtain ⟨hlength, hclass⟩ := hfailure f hf
      simp [Storable, hattempt, bounded_eq_self hremote, hsource, bounded_eq_self hprovider,
        storable_of_isDigest hdigest, bounded_eq_self hlength, storable_bounded hclass]
      tauto

theorem storable_asStr (outcome : DispatchOutcome) : storable outcome.asStr = true := by
  cases outcome <;> decide

/-- Recording binds exactly the texts of the result and the provider's instance. -/
theorem storable_observedOf (hprovider : S.emailProviderInstance.length ≤ 160)
    (hclaim : storable claim.attemptId = true) :
    Storable (resolveTexts (observedOf S claim now result)) ↔ StorableResult S result := by
  obtain ⟨-, hattempt, -, hinstance⟩ := observedOf_claim S claim now result
  rw [storable_resolveTexts (hattempt ▸ hclaim) (hinstance ▸ hprovider), hinstance, StorableResult]
  · refine and_congr_right fun _ ↦ ?_
    rcases observedOf_cases S claim now result with
      ⟨response, t, failure, rfl, hvalid, hfailure, hobserved⟩ |
        ⟨hinvalid, outcome, code, -, hcode, hobserved⟩
    · rw [hobserved]
      simp only [responseObserved, DispatchResult.response.injEq, forall_eq', hvalid,
        forall_true_left]
      refine and_congr ?_ ?_
      · cases response.remoteReceipt <;> simp
      · cases hf : response.failure with
        | none =>
          rw [hf] at hfailure
          cases hfailure
          simp
        | some f =>
          rw [hf, sanitizedFailure] at hfailure
          obtain ⟨delay, -, hpure⟩ := bind_eq_ok.mp hfailure
          rw [pure_eq_ok] at hpure
          simp [← hpure]
    · rw [hobserved]
      constructor
      · intro _ response hresult hvalid
        rw [hinvalid response hresult] at hvalid
        cases hvalid
      · intro _
        constructor
        · intro r hr
          cases hr
        · intro f hf
          cases hf
          exact hcode
  · intro r hr
    obtain ⟨hdigest, hremote, hsource⟩ := remoteReceipt_observedOf hr
    exact ⟨length_le_of_requiredBounded hremote, hsource.trans hinstance.symm, hdigest⟩
  · intro f hf
    obtain ⟨hlength, hclass⟩ := failure_of_validShape validShape_observedOf hf
    exact ⟨hlength, hclass ▸ storable_asStr _⟩

end Texts

/-! ## Evidence -/

section Evidence

variable {S : Setting} {claim : DispatchClaim} {result : DispatchResult} {L : Ledger}

/-- What identifies an automatic decision does not depend on the decision. -/
theorem retryDecisionRow_identity (X : Externals) (event : ObservationEnvelope)
    (payload : EmailDispatchObserved) (d : Delivery) :
    (retryDecisionRow X event payload d).id = stableId X "ntf_rty" event.id ∧
      (retryDecisionRow X event payload d).deliveryId = payload.deliveryId ∧
      (retryDecisionRow X event payload d).idempotencyKey = event.id ∧
      (retryDecisionRow X event payload d).requestedBy = none ∧
      Storable (retryDecisionRow X event payload d).reason.toList := by
  unfold retryDecisionRow
  split
  · exact ⟨rfl, rfl, rfl, rfl, by simp only [retryRow]; decide⟩
  · exact ⟨rfl, rfl, rfl, rfl, by simp only [retryRow]; decide⟩

/-- The evidence row of a result can be inserted unless its identity is taken. -/
theorem exists_insertEvidence (now : DateTime) (event : ObservationEnvelope) (d : Delivery)
    (hprovider : S.emailProviderInstance.length ≤ 160)
    (hclaim : Computed claim.deliveryId ∧ Computed claim.attemptId)
    (hdelivery : (L.deliveries.get? claim.deliveryId).isSome)
    (hattempt : (L.attempts.get? claim.attemptId).isSome)
    (hevent : event.id = dispatchObservationId claim.attemptId)
    (hstorable : StorableResult S result) :
    (∃ L', insertEvidence S.externals event (observedOf S claim now result) d L = some L') ↔
      Unclashed S L claim result := by
  rcases observedOf_cases S claim now result with
    ⟨response, t, failure, rfl, hvalid, -, hobserved⟩ |
      ⟨hinvalid, outcome, code, houtcome, -, hobserved⟩
  · have hbounds : ∀ r ∈ (observedOf S claim now (.response response)).remoteReceipt, _ :=
      fun r hr ↦ remoteReceipt_observedOf hr
    obtain ⟨hinstance, htexts⟩ := hstorable
    rw [hobserved] at hbounds ⊢
    simp only [Unclashed, DispatchResult.response.injEq, forall_eq', hvalid, forall_true_left]
    cases houtcome : response.outcome with
    | accepted =>
      cases hr : response.remoteReceipt with
      | none => simp [insertEvidence, responseObserved, houtcome, hr]
      | some r =>
        obtain ⟨hdigest, hremote, -⟩ := hbounds _ (by rw [responseObserved, hr]; rfl)
        have hlength : r.remoteId.length ≤ 320 := length_le_of_requiredBounded hremote
        have hsource : bounded S.emailProviderInstance 160 = S.emailProviderInstance :=
          bounded_eq_self hprovider
        have hremoteId : bounded r.remoteId 320 = r.remoteId := bounded_eq_self hlength
        have hinsert := Ledger.exists_insertReceipt (L := L)
          (q := acceptedRow S.externals (responseObserved S claim response t failure)
            { r with source := S.emailProviderInstance }) ?_ hdelivery hattempt
        · simp only [insertEvidence, responseObserved, houtcome, hr, Option.map_some]
          refine hinsert.trans ?_
          simp [acceptedRow, receiptRow, hsource, hremoteId]
        · refine ⟨?_, hdigest⟩
          simp only [acceptedRow, receiptRow, responseObserved, hsource, hremoteId]
          have hid : storable (stableId S.externals "ntf_rcp" (S.emailProviderInstance ++ ":" ++
              r.remoteId ++ ":" ++ EvidenceKind.accepted.asStr)) = true :=
            storable_stableId _ (by decide)
          simp only [Storable.cons_iff, hid, hclaim.1.2.2, hclaim.2.2.2, hinstance,
            (htexts response rfl hvalid).1 r (by rw [hr]; rfl), storable_of_isDigest hdigest,
            true_and]
          simp [Storable]
    | temporaryFailure =>
      obtain ⟨hid, hrowDelivery, hkey, hrequestedBy, hreason⟩ :=
        retryDecisionRow_identity S.externals event (responseObserved S claim response t failure) d
      have hinsert := Ledger.exists_insertRetryRequest (L := L)
        (q := retryDecisionRow S.externals event (responseObserved S claim response t failure) d)
        ?_ (by rw [hrowDelivery]; exact hdelivery)
      · rw [hid, hrowDelivery, hkey, hevent] at hinsert
        simp only [insertEvidence, responseObserved, houtcome] at hinsert ⊢
        simpa using hinsert
      · refine ⟨?_, ?_⟩
        · rw [hid, hrowDelivery, hkey, hevent]
          have hstable : storable (stableId S.externals "ntf_rty"
              (dispatchObservationId claim.attemptId)) = true := storable_stableId _ (by decide)
          have hobservation : storable (dispatchObservationId claim.attemptId) = true :=
            storable_dispatchObservationId hclaim.2
          simp only [Storable.cons_iff, hstable, responseObserved, hclaim.1.2.2, hobservation,
            true_and]
          simp [Storable]
        · rw [hrequestedBy]
          exact hreason
    | permanentFailure | deliveryUnknown => simp [insertEvidence, responseObserved, houtcome]
  · have hnone : ∀ response, result = .response response →
        validDispatchResponse S response = true → False := by
      intro response hresult hvalid
      rw [hinvalid response hresult] at hvalid
      cases hvalid
    rw [hobserved]
    constructor
    · exact fun _ response hresult hvalid ↦ (hnone response hresult hvalid).elim
    · intro _
      refine ⟨L, ?_⟩
      rcases houtcome with rfl | rfl <;> simp [insertEvidence, failedDispatch]

end Evidence

/-! ## Recording an answer -/

section Recording

variable {S : Setting} {claim : DispatchClaim} {now : DateTime} {result : DispatchResult}
  {L L' : Ledger} {d : Delivery} {a : Attempt}

/-- What an answer finds in the ledger. -/
structure Claimed (L : Ledger) (claim : DispatchClaim) (d : Delivery) (a : Attempt) : Prop where
  rows : L.deliveryWithAttempt claim.deliveryId claim.attemptId = some (d, a)
  run : a.functionRunId = claim.runId
  ids : ∀ id ∈ [claim.deliveryId, claim.attemptId, claim.runId], Computed id

/-- The instance key of the email provider passes the envelope's contract. -/
def ValidProvider (S : Setting) : Prop :=
  isBlank S.emailProviderInstance = false ∧ S.emailProviderInstance.length ≤ 160

/-- **Recording an answer**: it is replayed, absorbed, or resolves the attempt. -/
theorem applyDispatch_eq_ok (hprovider : ValidProvider S) (hclaimed : Claimed L claim d a) :
    applyDispatch S L claim (observedOf S claim now result) = .ok L' ↔
      (∃ c, L.consumedEvents.get? (dispatchObservationId claim.attemptId) = some c ∧
        c.eventDigest = eventDigest S.externals
          (dispatchEnvelope S claim (observedOf S claim now result)) ∧ L' = L) ∨
      (L.consumedEvents.get? (dispatchObservationId claim.attemptId) = none ∧
        ∃ T, L.consumedEvents.insert? (consumedRow S.externals
            (dispatchEnvelope S claim (observedOf S claim now result))
            (observedOf S claim now result).observedAt) = some T ∧
          ((d.status ≠ .attempting ∧
              lateObservationIsCompatible d.status (hasReceipt L a.id)
                (observedOf S claim now result).outcome = true ∧
              Storable (absorbTexts (observedOf S claim now result)) ∧
              L' = { L with consumedEvents := T }.absorb (observedOf S claim now result)) ∨
            (d.status = .attempting ∧ a.status = .dispatching ∧
              d.revision < maxSafeWireInteger ∧ StorableResult S result ∧
              insertEvidence S.externals
                (dispatchEnvelope S claim (observedOf S claim now result))
                (observedOf S claim now result) d
                ({ L with consumedEvents := T }.resolve (observedOf S claim now result)) =
                  some L'))) := by
  obtain ⟨hrows, hrun, hids⟩ := hclaimed
  obtain ⟨hdelivery, hattempt, hfunction, -⟩ := observedOf_claim S claim now result
  have hadmitted := observationOf_dispatchEnvelope now result hprovider
    fun id hid ↦ ⟨(hids id hid).1, (hids id hid).2.1⟩
  have hattemptId : Computed claim.attemptId := hids _ (by simp)
  have htexts : Storable [(dispatchEnvelope S claim (observedOf S claim now result)).id,
      (dispatchEnvelope S claim (observedOf S claim now result)).eventName] := by
    have hname : storable emailDispatchObservedEvent = true := by
      simp [storable, emailDispatchObservedEvent]
    exact Storable.cons_iff.mpr ⟨storable_dispatchObservationId hattemptId,
      Storable.cons_iff.mpr ⟨hname, by simp [Storable]⟩⟩
  have hbound : Storable [claim.deliveryId, claim.attemptId] :=
    Storable.cons_iff.mpr ⟨(hids _ (by simp)).2.2,
      Storable.cons_iff.mpr ⟨hattemptId.2.2, by simp [Storable]⟩⟩
  rw [applyDispatch, apply_eq_ok]
  simp only [hadmitted, Except.ok.injEq, exists_eq_left', Observation.observe,
    Observation.observedAt]
  rw [recordOnce_eq_ok]
  simp only [htexts, true_and]
  refine or_congr Iff.rfl (and_congr_right fun hfresh ↦ ?_)
  constructor
  · rintro ⟨L₁, hins, hobserve⟩
    obtain ⟨-, T, hT, rfl⟩ := Ledger.insertConsumedEvent_eq_some.mp hins
    refine ⟨T, hT, ?_⟩
    obtain ⟨-, d', a', hrows', -, hcase⟩ := observeDispatch_eq_ok.mp hobserve
    rw [hdelivery, hattempt] at hrows'
    have hsame : some (d', a') = some (d, a) := hrows'.symm.trans hrows
    cases hsame
    rw [storable_observedOf hprovider.2 hattemptId.2.2] at hcase
    exact hcase
  · rintro ⟨T, hT, hcase⟩
    obtain ⟨T', hT', hins⟩ := exists_insertConsumedEvent (X := S.externals)
      (t := (observedOf S claim now result).observedAt) htexts hfresh
    rw [hT, Option.some_inj] at hT'
    subst hT'
    refine ⟨_, hins, observeDispatch_eq_ok.mpr ⟨?_, d, a, ?_, ?_, ?_⟩⟩
    · rw [hdelivery, hattempt]
      exact hbound
    · rw [hdelivery, hattempt]
      exact hrows
    · rw [hfunction]
      exact hrun
    · rw [storable_observedOf hprovider.2 hattemptId.2.2]
      exact hcase

/-- The rows of the claim after its answer was recorded. -/
theorem deliveryWithAttempt_insertEvidence {event : ObservationEnvelope}
    {payload : EmailDispatchObserved} {b : Delivery}
    (h : insertEvidence S.externals event payload b L = some L') (deliveryId attemptId : String) :
    L'.deliveryWithAttempt deliveryId attemptId = L.deliveryWithAttempt deliveryId attemptId := by
  obtain ⟨hd, ha, -⟩ := Ledger.insertEvidence_frame h
  rw [Ledger.deliveryWithAttempt, Ledger.deliveryWithAttempt, hd, ha]

theorem resolved_iff (h : L.deliveryWithAttempt claim.deliveryId claim.attemptId = some (d, a)) :
    Resolved L claim ↔ d.status ≠ .attempting ∧ a.status ≠ .dispatching := by
  simp [Resolved, h]

/-- The rows of the claim after its observation resolved them. -/
private theorem rows_resolve (now : DateTime) (result : DispatchResult)
    (h : L.deliveryWithAttempt claim.deliveryId claim.attemptId = some (d, a)) :
    (L.resolve (observedOf S claim now result)).deliveryWithAttempt claim.deliveryId
        claim.attemptId =
      some (d.afterDispatch (observedOf S claim now result),
        a.afterDispatch (observedOf S claim now result)) := by
  obtain ⟨hdelivery, hattempt, -⟩ := observedOf_claim S claim now result
  have hafter := Ledger.deliveryWithAttempt_resolve (L := L) (observedOf S claim now result)
    (d := d) (a := a) (by rw [hdelivery, hattempt]; exact h)
  rwa [hdelivery, hattempt] at hafter

/-- The rows of the claim after its observation was absorbed. -/
private theorem rows_absorb (now : DateTime) (result : DispatchResult)
    (h : L.deliveryWithAttempt claim.deliveryId claim.attemptId = some (d, a)) :
    (L.absorb (observedOf S claim now result)).deliveryWithAttempt claim.deliveryId
        claim.attemptId =
      some (d, a.absorbed (observedOf S claim now result)) := by
  obtain ⟨hdelivery, hattempt, -⟩ := observedOf_claim S claim now result
  have hafter := Ledger.deliveryWithAttempt_absorb (L := L) (observedOf S claim now result)
    (d := d) (a := a) (by rw [hdelivery, hattempt]; exact h)
  rwa [hdelivery, hattempt] at hafter

/-- Once the rows are resolved, the evidence is all that can stand in the way. -/
private theorem insertEvidence_iff (now : DateTime) (T : Table ConsumedEvent)
    (hprovider : ValidProvider S) (hclaimed : Claimed L claim d a)
    (hstorable : StorableResult S result) :
    (∃ L', insertEvidence S.externals (dispatchEnvelope S claim (observedOf S claim now result))
      (observedOf S claim now result) d
      ({ L with consumedEvents := T }.resolve (observedOf S claim now result)) = some L') ↔
      Unclashed S L claim result := by
  have hrows : ({ L with consumedEvents := T } : Ledger).deliveryWithAttempt claim.deliveryId
      claim.attemptId = some (d, a) := hclaimed.rows
  obtain ⟨hd, ha, -⟩ :=
    Ledger.deliveryWithAttempt_eq_some.mp (rows_resolve (S := S) now result hrows)
  exact exists_insertEvidence now _ d hprovider.2
    ⟨hclaimed.ids _ (by simp), hclaimed.ids _ (by simp)⟩ (Option.isSome_of_eq_some hd)
    (Option.isSome_of_eq_some ha) rfl hstorable

/-- Recording either resolves an attempt that was in flight, or leaves what it finds. -/
theorem resolved_of_applyDispatch (hprovider : ValidProvider S) (hclaimed : Claimed L claim d a)
    (h : applyDispatch S L claim (observedOf S claim now result) = .ok L') :
    Resolved L' claim ↔ Resolved L claim ∨ Recordable S L claim result := by
  have hrows := hclaimed.rows
  have hnotRecordable : (d.status = .attempting ∧
      L.consumedEvents.get? (dispatchObservationId claim.attemptId) = none → False) →
      ¬Recordable S L claim result := by
    rintro hne ⟨⟨d', a', hrows', hs, -⟩, hfresh, -, -⟩
    cases hrows.symm.trans hrows'
    exact hne ⟨hs, hfresh⟩
  rcases (applyDispatch_eq_ok hprovider hclaimed).mp h with ⟨c, hc, -, rfl⟩ |
    ⟨hfresh, T, hT, ⟨hs, -, -, rfl⟩ | ⟨hs, hdispatching, hrev, hstorable, hevidence⟩⟩
  · -- the id was consumed, so nothing changed
    refine (or_iff_left (hnotRecordable fun hnot ↦ ?_)).symm
    rw [hnot.2] at hc
    cases hc
  · -- the observation was absorbed, which changes no status
    have hafter := rows_absorb (S := S) (L := { L with consumedEvents := T }) now result hrows
    rw [resolved_iff hafter, resolved_iff hrows]
    exact (or_iff_left (hnotRecordable fun hnot ↦ hs hnot.1)).symm
  · -- the attempt was in flight and is resolved
    have hafter := rows_resolve (S := S) (L := { L with consumedEvents := T }) now result hrows
    rw [← deliveryWithAttempt_insertEvidence hevidence] at hafter
    rw [resolved_iff hafter]
    have hclosed : (a.afterDispatch (observedOf S claim now result)).status ≠ .dispatching := by
      change (observedOf S claim now result).outcome.attemptStatus ≠ .dispatching
      cases (observedOf S claim now result).outcome <;> simp [DispatchOutcome.attemptStatus]
    have hunclashed := (insertEvidence_iff now T hprovider hclaimed hstorable).mp ⟨L', hevidence⟩
    exact iff_of_true ⟨(Delivery.afterDispatch_ne _ d).2, hclosed⟩
      (Or.inr ⟨⟨d, a, hrows, hs, hdispatching, hrev⟩, hfresh, hstorable, hunclashed⟩)

/-- A recordable answer is recorded. -/
theorem exists_applyDispatch (now : DateTime) (hprovider : ValidProvider S)
    (hclaimed : Claimed L claim d a) (h : Recordable S L claim result) :
    ∃ L', applyDispatch S L claim (observedOf S claim now result) = .ok L' := by
  obtain ⟨⟨d', a', hrows', hs, hdispatching, hrev⟩, hfresh, hstorable, hunclashed⟩ := h
  cases hclaimed.rows.symm.trans hrows'
  obtain ⟨T, hT⟩ := Table.exists_insert? (T := L.consumedEvents)
    (r := consumedRow S.externals (dispatchEnvelope S claim (observedOf S claim now result))
      (observedOf S claim now result).observedAt) (Table.get?_eq_none.mp hfresh)
  obtain ⟨L', hL'⟩ := (insertEvidence_iff now T hprovider hclaimed hstorable).mpr hunclashed
  exact ⟨L', (applyDispatch_eq_ok hprovider hclaimed).mpr (Or.inr ⟨hfresh, T, hT,
    Or.inr ⟨hs, hdispatching, hrev, hstorable, hL'⟩⟩)⟩

end Recording

/-! ## The answer of a worker -/

section Answer

variable {S : Setting} {s : System} {i : ℕ} {now : DateTime} {work : DispatchWork}

/-- Only a call that has selected a row holds a row lock. -/
theorem of_rowLock {c : Call} {id : String} (h : c.rowLock? = some id) :
    ∃ now row, c = .dispatch now (.selected row) ∧ row.delivery.id = id := by
  unfold Call.rowLock? at h
  split at h
  · next now row => exact ⟨now, row, rfl, Option.some_inj.mp h⟩
  · cases h

theorem commit_eq {calls : List Call} {L : Ledger}
    (h : ∀ id ∈ calls.filterMap Call.rowLock?,
      L.deliveries.get? id = s.ledger.deliveries.get? id) :
    s.commit calls L = some { ledger := L, calls } := if_pos h

/-- No row that an answer changes is locked by another worker. -/
private theorem unlocked_of_applyDispatch {L' : Ledger} {result : DispatchResult} {d : Delivery}
    {a : Attempt} (hholds : s.Holds) (hprovider : ValidProvider S)
    (hclaimed : Claimed s.ledger work.claim d a)
    (h : applyDispatch S s.ledger work.claim (observedOf S work.claim now result) = .ok L') :
    ∀ id ∈ (s.calls.set i .returned).filterMap Call.rowLock?,
      L'.deliveries.get? id = s.ledger.deliveries.get? id := by
  intro id hid
  obtain ⟨c, hc, hlock⟩ := List.mem_filterMap.mp hid
  rcases (applyDispatch_eq_ok hprovider hclaimed).mp h with ⟨_, -, -, rfl⟩ |
    ⟨-, T, -, ⟨-, -, -, rfl⟩ | ⟨hs, -, -, -, hevidence⟩⟩
  · rfl
  · rfl
  · rw [(Ledger.insertEvidence_frame hevidence).1]
    refine Table.get?_update_of_not (Delivery.keeps_afterDispatch _) fun b hb ↦ ?_
    obtain ⟨now', row, rfl, rfl⟩ := of_rowLock hlock
    have hmem : Call.dispatch now' (.selected row) ∈ s.calls :=
      (List.mem_or_eq_of_mem_set hc).resolve_right nofun
    obtain ⟨hrow, hdue, -⟩ := hholds now' row hmem
    -- a locked row is claimable, the delivery of the claim is not
    refine decide_eq_false fun hbid ↦ ?_
    have hbrow : b = row.delivery := Option.some_inj.mp (hb.symm.trans hrow)
    obtain ⟨hd, -, -⟩ := Ledger.deliveryWithAttempt_eq_some.mp hclaimed.rows
    rw [(observedOf_claim S work.claim now result).1] at hbid
    obtain ⟨hdmem, hdid⟩ := Table.get?_eq_some.mp hd
    have hbd : b = d := Table.eq_of_key (Table.get?_eq_some.mp hb).1 hdmem (hbid.trans hdid.symm)
    have hclaimable := (Runtime.isDue_iff.mp hdue).1
    rw [← hbrow, hbd, hs] at hclaimable
    cases hclaimable

/-- What the answer of a worker does: it is lost or recorded, and never waits. -/
theorem exec_answer (hreach : (system S).Reachable s) (hprovider : ValidProvider S)
    (hc : s.calls[i]? = some (.dispatch now (.awaiting work))) (result : DispatchResult) :
    ∃ s' reply, (system S).Step s (.advance i (.answered result), .dispatched work.claim reply) s' ∧
      ((s'.ledger = s.ledger ∧ ∃ e, applyDispatch S s.ledger work.claim
          (observedOf S work.claim now result) = .error e) ∨
        applyDispatch S s.ledger work.claim (observedOf S work.claim now result) =
          .ok s'.ledger) := by
  obtain ⟨d, a, hrows, hrun, hids⟩ := rows_of_work hreach (List.mem_of_getElem? hc) rfl
  cases happly : applyDispatch S s.ledger work.claim (observedOf S work.claim now result) with
  | error e =>
    refine ⟨{ s with calls := s.calls.set i .returned }, .error (.runtime (runtime e)), ?_,
      Or.inl ⟨rfl, e, rfl⟩⟩
    change s.exec S (.advance i (.answered result)) = some (_, _)
    have hcommit : s.commit (s.calls.set i .returned) s.ledger = _ := commit_eq fun _ _ ↦ rfl
    simp only [System.exec, hc, Call.step, Call.stepDispatch, happly, bind, Option.bind_some,
      hcommit, pure]
  | ok L' =>
    refine ⟨{ ledger := L', calls := s.calls.set i .returned }, dispatchReply S work.claim result,
      ?_, Or.inr rfl⟩
    change s.exec S (.advance i (.answered result)) = some (_, _)
    have hcommit : s.commit (s.calls.set i .returned) L' = _ :=
      commit_eq (unlocked_of_applyDispatch (System.holds_of_reachable hreach) hprovider
        ⟨hrows, hrun, hids⟩ happly)
    simp only [System.exec, hc, Call.step, Call.stepDispatch, happly, bind, Option.bind_some,
      hcommit, pure]

end Answer

/-- **When an answer resolves its attempt.** Whatever the provider answers, the call returns; it
leaves the attempt and its delivery resolved exactly when they were so before, or the answer can be
recorded. -/
theorem resolves_iff {S : Setting} {s : System} {i : ℕ} {now : DateTime} {work : DispatchWork}
    (hreach : (system S).Reachable s) (hprovider : ValidProvider S)
    (hc : s.calls[i]? = some (.dispatch now (.awaiting work))) (result : DispatchResult) :
    ∃ s' reply, (system S).Step s (.advance i (.answered result), .dispatched work.claim reply) s' ∧
      (Resolved s'.ledger work.claim ↔
        Resolved s.ledger work.claim ∨ Recordable S s.ledger work.claim result) := by
  obtain ⟨s', reply, hstep, hcase⟩ := exec_answer hreach hprovider hc result
  refine ⟨s', reply, hstep, ?_⟩
  obtain ⟨d, a, hrows, hrun, hids⟩ := rows_of_work hreach (List.mem_of_getElem? hc) rfl
  rcases hcase with ⟨hsame, e, herror⟩ | hok
  · rw [hsame]
    refine (or_iff_left fun hrecordable ↦ ?_).symm
    obtain ⟨L', hok⟩ := exists_applyDispatch now hprovider ⟨hrows, hrun, hids⟩ hrecordable
    rw [hok] at herror
    cases herror
  · exact resolved_of_applyDispatch hprovider ⟨hrows, hrun, hids⟩ hok

/-- The answer to the first attempt, with nothing in its way. -/
theorem resolves_awaiting :
    ∃ s' reply, (system Deployment.setting).Step Deployment.awaiting
        (.advance 1 (.answered Deployment.acceptance),
          .dispatched Deployment.work.claim reply) s' ∧
      Resolved s'.ledger Deployment.work.claim := by
  obtain ⟨s', reply, hstep, hiff⟩ := resolves_iff (S := Deployment.setting) (i := 1)
    Deployment.reachable_awaiting ⟨by decide, by decide⟩ rfl Deployment.acceptance
  refine ⟨s', reply, hstep, hiff.mpr (Or.inr ⟨?_, ?_, ?_, ?_⟩)⟩
  · exact ⟨Deployment.delivery, Deployment.attempt, by decide, rfl, rfl, by decide⟩
  · rfl
  · refine ⟨by decide, ?_⟩
    rintro response ⟨⟩ -
    exact ⟨fun r hr ↦ (nomatch hr), fun f hf ↦ (nomatch hf)⟩
  · rintro response ⟨⟩ -
    exact ⟨fun _ r hr ↦ (nomatch hr), fun h ↦ (nomatch h)⟩

/-- The organization has used the id of the dispatch observation for a lifecycle observation of its
own. The provider then accepts the message, and the attempt stays in flight. -/
theorem unresolved_after_lifecycle :
    ∃ s s' reply, (system Deployment.setting).Reachable s ∧ ValidProvider Deployment.setting ∧
      s.calls[1]? = some (.dispatch Deployment.midnight (.awaiting Deployment.work)) ∧
      s.ledger.deliveries.get? Deployment.work.claim.deliveryId = some Deployment.delivery ∧
      (system Deployment.setting).Step s
        (.advance 1 (.answered Deployment.acceptance), reply) s' ∧
      ¬Resolved s'.ledger Deployment.work.claim := by
  obtain ⟨s, hreach, hs⟩ := exists_of_execAll [Deployment.observeUnderDispatchId]
    (fun s : System ↦
      decide (s.calls[1]? = some (Call.dispatch Deployment.midnight
        (DispatchPhase.awaiting Deployment.work))) &&
      (decide (s.ledger.deliveries.get? Deployment.work.claim.deliveryId =
          some Deployment.delivery) &&
        (s.exec Deployment.setting (.advance 1 (.answered Deployment.acceptance))).any
          fun p : System × Reply ↦ (p.1.ledger.deliveryWithAttempt Deployment.work.claim.deliveryId
            Deployment.work.claim.attemptId).any fun rows : Delivery × Attempt ↦
              decide (rows.2.status = .dispatching)))
    Deployment.reachable_awaiting (by decide +kernel)
  rw [Bool.and_eq_true, Bool.and_eq_true, decide_eq_true_eq, decide_eq_true_eq] at hs
  obtain ⟨hcall, hdelivery, hstep⟩ := hs
  obtain ⟨⟨s', reply⟩, hexec, hrows⟩ := (Option.any_eq_true _ _).mp hstep
  obtain ⟨⟨d, a⟩, hrows, hdispatching⟩ := (Option.any_eq_true _ _).mp hrows
  refine ⟨s, s', reply, hreach, ⟨by decide, by decide⟩, hcall, hdelivery, hexec, ?_⟩
  rw [resolved_iff hrows]
  exact fun h ↦ h.2 (of_decide_eq_true hdispatching)

end NotificationLedger

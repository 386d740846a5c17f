import NotificationLedger.Deployment
import NotificationLedger.Projection

/-!
# Manual retries

A manual retry stores its decision under the delivery and the caller's key. Automatic decisions are
stored in the same table, under the id of the observation they follow. A later call with a known key
answers with the stored time and the delivery's present status, and changes nothing; it looks at
neither the kind, nor the revision, nor the caller of the stored decision, and the answer has room
for one status only.

## Replays

A decision is looked up by the delivery and the key alone. A call that finds one is answered from
it, so the questions are where a stored decision can come from, and what the delivery has been
through since. The first is settled by following the table through a history, the second by the
revision of the delivery, which every change of it moves.
-/

namespace NotificationLedger

open Outcome

/-! ## The stored decision -/

namespace Repository

variable {X : Externals} {L L' : Ledger} {deliveryId idempotencyKey requestedBy : String}
  {expectedRevision : ℕ} {now : DateTime} {result : RetryResult} {r : RetryRequest} {d : Delivery}

/-- A key has one stored decision at most. -/
theorem findRetry_eq_some :
    findRetry L deliveryId idempotencyKey = some (r, d) ↔
      r ∈ L.retryRequests.rows ∧ r.deliveryId = deliveryId ∧ r.idempotencyKey = idempotencyKey ∧
        L.deliveries.get? deliveryId = some d := by
  simp only [findRetry, bind, Option.bind_eq_some_iff, pure, Option.some_inj, Prod.mk.injEq]
  constructor
  · rintro ⟨r', hfind, d', hd, rfl, rfl⟩
    have hkey := List.find?_some hfind
    rw [Bool.and_eq_true, decide_eq_true_eq, decide_eq_true_eq] at hkey
    exact ⟨List.mem_of_find?_eq_some hfind, hkey.1, hkey.2, hkey.1 ▸ hd⟩
  · rintro ⟨hr, rfl, rfl, hd⟩
    refine ⟨r, ?_, d, hd, rfl, rfl⟩
    cases hfind : L.retryRequests.rows.find? fun q ↦ decide (q.deliveryId = r.deliveryId) &&
        decide (q.idempotencyKey = r.idempotencyKey) with
    | none =>
      have hnone := List.find?_eq_none.mp hfind r hr
      simp at hnone
    | some q =>
      have hkey := List.find?_some hfind
      rw [Bool.and_eq_true, decide_eq_true_eq, decide_eq_true_eq] at hkey
      rw [Table.eq_of_clash (List.mem_of_find?_eq_some hfind) hr (Or.inr hkey)]

/-- The answer of a replay. -/
def replayResult (d : Delivery) (scheduledAt : Timestamp) : RetryResult where
  deliveryId := d.id
  revision := d.revision
  status := d.status
  scheduledAt := scheduledAt
  idempotentReplay := true

/-- **A known key is replayed**, and an unknown one is scheduled. -/
theorem requestManualRetry_eq_ok :
    requestManualRetry X L deliveryId expectedRevision idempotencyKey requestedBy now =
        .ok (L', result) ↔
      Storable [deliveryId, idempotencyKey] ∧
        ((∃ r d t, findRetry L deliveryId idempotencyKey = some (r, d) ∧
            r.scheduledAt = some t ∧ L' = L ∧ result = replayResult d t) ∨
          (findRetry L deliveryId idempotencyKey = none ∧
            scheduleManualRetry X L deliveryId expectedRevision idempotencyKey requestedBy now =
              .ok (L', result))) := by
  rw [requestManualRetry, ensure_bind_eq_ok]
  refine and_congr_right fun _ ↦ ?_
  cases hfind : findRetry L deliveryId idempotencyKey with
  | none => simp
  | some stored =>
    obtain ⟨r, d⟩ := stored
    obtain ⟨-, -, -, hd⟩ := findRetry_eq_some.mp hfind
    have hid : d.id = deliveryId := (Table.get?_eq_some.mp hd).2
    simp only
    rw [bind_eq_ok]
    constructor
    · rintro ⟨t, ht, h⟩
      rw [pure_eq_ok, Prod.mk.injEq] at h
      refine Or.inl ⟨r, d, t, rfl, require_eq_ok.mp ht, h.1.symm, ?_⟩
      rw [← h.2, replayResult, hid]
    · rintro (⟨r', d', t, hrd, ht, rfl, rfl⟩ | ⟨hnone, -⟩)
      · cases hrd
        refine ⟨t, require_eq_ok.mpr ht, ?_⟩
        rw [replayResult, hid]
        rfl
      · cases hnone

end Repository

namespace Plugin

variable {S : Setting} {L L' : Ledger} {caller : Option String} {request : RetryDeliveryRequest}
  {now : DateTime} {result : RetryResult}

theorem retryDelivery_eq_ok :
    retryDelivery S L caller request now = .ok (L', result) ↔
      ∃ requestedBy, authorizedCaller caller S.config.adminCallers = some requestedBy ∧
        validRetryRequest request = true ∧ request.revision ≠ maxSafeWireInteger ∧
        Repository.requestManualRetry S.externals L request.deliveryId request.revision.toNat
          request.idempotencyKey requestedBy now = .ok (L', result) := by
  rw [retryDelivery, bind_eq_ok]
  refine exists_congr fun requestedBy ↦ ?_
  rw [require_eq_ok, ensure_bind_eq_ok, ensure_bind_eq_ok, mapError_eq_ok]

theorem of_validRetryRequest (h : validRetryRequest request = true) :
    requiredBounded request.deliveryId 1 160 = true ∧ 1 ≤ request.revision := by
  simp only [validRetryRequest, Bool.and_eq_true, decide_eq_true_eq] at h
  exact ⟨h.1.1, h.1.2.1⟩

theorem adminRetry_eq_ok {response : RetryDeliveryResponse} :
    adminRetry S now result = .ok response ↔
      (requiredBounded result.deliveryId 1 160 = true ∧
        (1 ≤ result.revision ∧ result.revision ≤ maxSafeWireInteger) ∧
        result.status = .retryScheduled) ∧
        ∃ text, formatTime S (scheduledTime now result) = .ok text ∧
          response = {
            deliveryId := result.deliveryId
            idempotentReplay := result.idempotentReplay
            revision := result.revision
            scheduledAt := text } := by
  rw [adminRetry, ensure_bind_eq_ok]
  refine and_congr_right fun _ ↦ ?_
  rw [bind_eq_ok]
  refine exists_congr fun text ↦ and_congr_right fun _ ↦ ?_
  rw [pure_eq_ok, eq_comm]

private theorem truncated_bounds (t : ℤ) (a b : ℕ) (hb : 0 < b)
    (h : -a * 1000 ≤ t ∧ t < b * 1000) :
    -a * 1000 ≤ Int.tdiv t 1000 * 1000 ∧ Int.tdiv t 1000 * 1000 < b * 1000 := by
  -- a parameter is truncated towards the origin
  by_cases hpos : 0 ≤ t
  · rw [Int.tdiv_eq_ediv_of_nonneg hpos]
    omega
  · have hquot : Int.tdiv t 1000 = -(-t / 1000) := by
      rw [← Int.tdiv_eq_ediv_of_nonneg (by omega), Int.neg_tdiv, Int.neg_neg]
    rw [hquot]
    omega

/-- Storing a time keeps it within the four-digit years. -/
theorem inYearRange_read {t : DateTime} (h : inYearRange t = true) :
    inYearRange (Timestamp.read t.stored) = true := by
  rw [inYearRange, decide_eq_true_eq] at h ⊢
  exact truncated_bounds t 63113904000000000 252455616000000000 (by decide) h

end Plugin

/-! ## A retry call as a step -/

section Steps

variable {S : Setting} {s s' : System} {caller : Option String} {request : RetryDeliveryRequest}
  {now : DateTime} {result : RetryResult}

theorem retryDelivery_of_step
    (h : (system S).Step s (.retryDelivery caller request now, .retry (.ok result)) s') :
    Plugin.retryDelivery S s.ledger caller request now = .ok (s'.ledger, result) := by
  change s.once _ (Plugin.retryDelivery S s.ledger caller request now) .retry = _ at h
  unfold System.once at h
  split at h
  swap
  · cases h
  split at h
  · cases h
  · next L a hok =>
    obtain ⟨t, hcommit, heq⟩ := Option.map_eq_some_iff.mp h
    cases heq
    unfold System.commit at hcommit
    split at hcommit
    · cases hcommit
      exact hok
    · cases hcommit

/-- A replay selects no row for update. -/
theorem retryDeliveryLocks_of_stored {L : Ledger} {stored : RetryRequest × Delivery}
    (h : Repository.findRetry L request.deliveryId request.idempotencyKey = some stored) :
    Plugin.retryDeliveryLocks S L caller request = [] := by
  have hnone : Repository.retryLocks L request.deliveryId request.idempotencyKey = [] := by
    rw [Repository.retryLocks, h]
    exact if_neg fun hlocks ↦ absurd hlocks.2.1 Bool.false_ne_true
  rw [Plugin.retryDeliveryLocks, hnone, ite_self]

/-- A replay never waits for a lock. -/
theorem step_of_replay {stored : RetryRequest × Delivery}
    (hstored : Repository.findRetry s.ledger request.deliveryId request.idempotencyKey =
      some stored)
    (h : Plugin.retryDelivery S s.ledger caller request now = .ok (s.ledger, result)) :
    (system S).Step s (.retryDelivery caller request now, .retry (.ok result)) s := by
  have hfree : s.Unlocked ((Command.retryDelivery caller request now).locks S s.ledger) := by
    rw [Command.locks, retryDeliveryLocks_of_stored hstored]
    exact fun _ _ ↦ List.not_mem_nil
  change s.once _ (Plugin.retryDelivery S s.ledger caller request now) .retry = _
  rw [h, System.once, if_pos hfree, System.commit, if_pos fun _ _ ↦ rfl]
  rfl

end Steps

/-! ## Rows and calls -/

/-- The command is a manual retry. -/
def Command.isRetryDelivery : Command → Bool
  | .retryDelivery _ _ _ => true
  | _ => false

/-- The call scheduled a retry, and stored this decision. -/
def ScheduledBy (S : Setting) (r : RetryRequest) (l : Command × Reply) : Prop :=
  ∃ caller request now result, l = (.retryDelivery caller request now, .retry (.ok result)) ∧
    result.idempotentReplay = false ∧ request.deliveryId = r.deliveryId ∧
    request.idempotencyKey = r.idempotencyKey ∧ 1 ≤ request.revision ∧
    request.revision.toNat = r.sourceRevision ∧
    authorizedCaller caller S.config.adminCallers = r.requestedBy

section Transactions

variable {X : Externals} {protector : SnapshotProtector} {L L' : Ledger} {r : RetryRequest}

/-- The transaction a stored decision belongs to. -/
inductive Decides (X : Externals) (L L' : Ledger) : Transaction → RetryRequest → Prop
  | automatic {event : ObservationEnvelope} {payload : EmailDispatchObserved} {d : Delivery}
      {a : Attempt} (hadmitted : Events.observationOf X event = .ok (.dispatch payload))
      (houtcome : payload.outcome = .temporaryFailure)
      (hrows : L.deliveryWithAttempt payload.deliveryId payload.attemptId = some (d, a)) :
      Decides X L L' (.observe event) (Events.retryDecisionRow X event payload d)
  | manual {deliveryId key requestedBy : String} {revision : ℕ} {now : DateTime}
      {result : RetryResult}
      (hschedule : Repository.scheduleManualRetry X L deliveryId revision key requestedBy now =
        .ok (L', result)) :
      Decides X L L' (.retry deliveryId revision key requestedBy now)
        (Repository.manualRetryRow X deliveryId revision key requestedBy now)

/-- **A decision that a transaction adds** follows an observation, or is a manual retry. -/
theorem decides_of_run {t : Transaction} (h : t.run X protector L = .ok L')
    (hr : r ∈ L'.retryRequests.rows) (hnew : r ∉ L.retryRequests.rows) : Decides X L L' t r := by
  cases t with
  | create intent nonces now =>
    obtain ⟨receipt, h⟩ := fst_map_eq_ok.mp h
    obtain ⟨⟨-, -, hretries, -⟩, -⟩ := Public.frame_of_persistIntent h
    rw [hretries] at hr
    exact absurd hr hnew
  | claim locked now =>
    rcases of_claimOneDue h with rfl | ⟨row, work, hd, hclaimable, -, h⟩
    · exact absurd hr hnew
    · obtain ⟨-, -, -, -, L₁, hins, rfl⟩ := (Runtime.claimRow_eq_ok hd hclaimable).mp h
      obtain ⟨-, T, -, rfl⟩ := Ledger.insertAttempt_eq_some.mp hins
      exact absurd hr hnew
  | observe event =>
    obtain ⟨o, hadmitted, hrecord⟩ := Events.apply_eq_ok.mp h
    obtain ⟨-, ⟨_, -, -, rfl⟩ | ⟨-, L₁, hins, hobserve⟩⟩ := Events.recordOnce_eq_ok.mp hrecord
    · exact absurd hr hnew
    obtain ⟨-, T, -, rfl⟩ := Ledger.insertConsumedEvent_eq_some.mp hins
    cases o with
    | dispatch payload =>
      obtain ⟨-, d, a, hrows, -, ⟨-, -, -, rfl⟩ | ⟨-, -, -, -, hevidence⟩⟩ :=
        Events.observeDispatch_eq_ok.mp hobserve
      · exact absurd hr hnew
      unfold Events.insertEvidence at hevidence
      split at hevidence
      · obtain ⟨-, R, -, rfl⟩ := Ledger.insertReceipt_eq_some.mp hevidence
        exact absurd hr hnew
      · next houtcome =>
        obtain ⟨-, R, hR, rfl⟩ := Ledger.insertRetryRequest_eq_some.mp hevidence
        rcases (Table.mem_insert? hR).mp hr with hold | rfl
        · exact absurd hold hnew
        · exact .automatic hadmitted houtcome hrows
      · rw [Option.some_inj] at hevidence
        rw [← hevidence] at hr
        exact absurd hr hnew
    | receipt payload =>
      obtain ⟨-, ⟨_, -, -, rfl⟩ | ⟨d, a, -, L₂, hins, rfl⟩⟩ :=
        Events.observeReceipt_eq_ok.mp hobserve
      · exact absurd hr hnew
      · obtain ⟨-, R, -, rfl⟩ := Ledger.insertReceipt_eq_some.mp hins
        exact absurd hr hnew
    | lifecycle payload =>
      obtain ⟨-, -, L₂, hins, rfl⟩ := Events.observeLifecycle_eq_ok.mp hobserve
      obtain ⟨-, R, -, rfl⟩ := Ledger.insertSourceLifecycleEvent_eq_some.mp hins
      exact absurd hr hnew
  | retry deliveryId revision key requestedBy now =>
    obtain ⟨result, h⟩ := fst_map_eq_ok.mp h
    rcases Repository.of_requestManualRetry h with rfl | h
    · exact absurd hr hnew
    obtain ⟨d, -, -, -, -, ⟨L₁, hins, hL'⟩, -⟩ := Repository.scheduleManualRetry_eq_ok.mp h
    obtain ⟨-, T, hT, rfl⟩ := Ledger.insertRetryRequest_eq_some.mp hins
    rw [hL'] at hr
    rw [((Table.mem_insert? hT).mp hr).resolve_left hnew]
    exact .manual h

/-- A transaction that stores a manual decision is a retry. -/
theorem manual_of_run {t : Transaction} (h : t.run X protector L = .ok L')
    (hr : r ∈ L'.retryRequests.rows) (hnew : r ∉ L.retryRequests.rows)
    (hkind : r.kind = .manual) :
    ∃ deliveryId revision key requestedBy now result,
      t = .retry deliveryId revision key requestedBy now ∧
      Repository.scheduleManualRetry X L deliveryId revision key requestedBy now =
        .ok (L', result) ∧
      r = Repository.manualRetryRow X deliveryId revision key requestedBy now := by
  cases decides_of_run h hr hnew with
  | automatic =>
    -- the decision that follows an observation is automatic
    unfold Events.retryDecisionRow at hkind
    split at hkind <;> cases hkind
  | manual hschedule => exact ⟨_, _, _, _, _, _, rfl, hschedule, rfl⟩

end Transactions

section Histories

variable {S : Setting} {ls ms : List (Command × Reply)} {s s' s'' : System} {r : RetryRequest}
  {caller : Option String} {request : RetryDeliveryRequest} {now : DateTime}
  {result : RetryResult}

/-- What a scheduled retry has stored. -/
theorem stored_of_step (hreplay : result.idempotentReplay = false)
    (h : (system S).Step s (.retryDelivery caller request now, .retry (.ok result)) s') :
    ∃ requestedBy, authorizedCaller caller S.config.adminCallers = some requestedBy ∧
      Plugin.validRetryRequest request = true ∧
      Repository.manualRetryRow S.externals request.deliveryId request.revision.toNat
        request.idempotencyKey requestedBy now ∈ s'.ledger.retryRequests.rows ∧
      result.status = .retryScheduled := by
  obtain ⟨requestedBy, hcaller, hvalid, -, hrequest⟩ :=
    Plugin.retryDelivery_eq_ok.mp (retryDelivery_of_step h)
  obtain ⟨-, ⟨_, _, _, -, -, -, rfl⟩ | ⟨-, hschedule⟩⟩ :=
    Repository.requestManualRetry_eq_ok.mp hrequest
  · cases hreplay
  obtain ⟨d, -, -, -, -, ⟨L₁, hins, hL'⟩, rfl⟩ := Repository.scheduleManualRetry_eq_ok.mp hschedule
  obtain ⟨-, T, hT, rfl⟩ := Ledger.insertRetryRequest_eq_some.mp hins
  refine ⟨requestedBy, hcaller, hvalid, ?_, rfl⟩
  rw [hL']
  exact (Table.mem_insert? hT).mpr (Or.inr rfl)

/-- **Every manual decision has its call in the history.** -/
theorem scheduled_of_history (h : (system S).History ls s) :
    ∀ r ∈ s.ledger.retryRequests.rows, r.kind = .manual → ∃ l ∈ ls, ScheduledBy S r l := by
  refine Lts.History.invariant (S := system S)
    (I := fun ls s ↦ ∀ r ∈ s.ledger.retryRequests.rows, r.kind = .manual →
      ∃ l ∈ ls, ScheduledBy S r l) ?_ ?_ h
  · rintro s rfl r hr
    cases hr
  · rintro ls s ⟨command, reply⟩ s' hls ih hstep r hr hkind
    by_cases hold : r ∈ s.ledger.retryRequests.rows
    · obtain ⟨l, hl, hscheduled⟩ := ih r hold hkind
      exact ⟨l, List.mem_append_left _ hl, hscheduled⟩
    refine ⟨(command, reply), by simp, ?_⟩
    rcases System.ledger_of_stepped (System.holds_of_reachable ⟨ls, hls⟩)
      (System.stepped_of_exec hstep) with hsame | ⟨t, hissues, hrun⟩
    · rw [hsame] at hr
      exact absurd hr hold
    obtain ⟨_, _, _, _, _, _, rfl, hschedule, rfl⟩ := manual_of_run hrun hr hold hkind
    cases hissues with
    | @retry caller requestedBy request now result hcaller =>
      obtain ⟨_, _, hvalid, -, hrequest⟩ :=
        Plugin.retryDelivery_eq_ok.mp (retryDelivery_of_step hstep)
      have hresult : result.idempotentReplay = false := by
        obtain ⟨-, ⟨_, _, _, -, -, hsame, -⟩ | ⟨-, hscheduled⟩⟩ :=
          Repository.requestManualRetry_eq_ok.mp hrequest
        · rw [hsame] at hr
          exact absurd hr hold
        · obtain ⟨_, -, -, -, -, -, rfl⟩ := Repository.scheduleManualRetry_eq_ok.mp hscheduled
          rfl
      exact ⟨caller, request, _, result, rfl, hresult, rfl, rfl,
        (Plugin.of_validRetryRequest hvalid).2, rfl, hcaller⟩

/-- An accepted retry is still stored. -/
theorem exists_row_of_scheduled (h : (system S).History ls s)
    (hl : (.retryDelivery caller request now, .retry (.ok result)) ∈ ls)
    (hreplay : result.idempotentReplay = false) :
    ∃ requestedBy, authorizedCaller caller S.config.adminCallers = some requestedBy ∧
      Repository.manualRetryRow S.externals request.deliveryId request.revision.toNat
        request.idempotencyKey requestedBy now ∈ s.ledger.retryRequests.rows := by
  obtain ⟨ks, ms, rfl⟩ := List.append_of_mem hl
  obtain ⟨t, t', hpre, hstep, hpost⟩ := h.of_append_cons
  obtain ⟨requestedBy, hcaller, -, hrow, -⟩ := stored_of_step hreplay hstep
  have hreach : (system S).Reachable t' := ⟨_, hpre.snoc hstep⟩
  exact ⟨requestedBy, hcaller, (extends_of_systemRun hreach hpost).retryRequests.subset hrow⟩

end Histories

/-! ## Genuine replays -/

/-- An earlier call with the same delivery, key, revision and caller scheduled a retry. -/
def Genuine (ls : List (Command × Reply)) (caller : Option String)
    (request : RetryDeliveryRequest) : Prop :=
  ∃ earlier now result, (.retryDelivery caller earlier now, .retry (.ok result)) ∈ ls ∧
    result.idempotentReplay = false ∧ earlier.deliveryId = request.deliveryId ∧
    earlier.idempotencyKey = request.idempotencyKey ∧ earlier.revision = request.revision

/-- The decision is a manual one, of this revision and caller. -/
def RetryRequest.Alike (S : Setting) (r : RetryRequest) (caller : Option String)
    (request : RetryDeliveryRequest) : Prop :=
  r.kind = .manual ∧ r.sourceRevision = request.revision.toNat ∧
    r.requestedBy = authorizedCaller caller S.config.adminCallers

theorem eq_of_authorizedCaller {caller caller' : Option String} {callers : List String}
    {source : String} (h : authorizedCaller caller callers = some source)
    (h' : authorizedCaller caller' callers = some source) : caller = caller' := by
  rw [authorizedCaller, Option.filter_eq_some_iff] at h h'
  exact h.1.trans h'.1.symm

/-- The decision a replay answers from. -/
theorem exists_stored_of_replay {S : Setting} {s s' : System} {caller : Option String}
    {request : RetryDeliveryRequest} {now : DateTime} {result : RetryResult}
    (hstep : (system S).Step s (.retryDelivery caller request now, .retry (.ok result)) s')
    (hreplay : result.idempotentReplay = true) :
    ∃ r d t, Repository.findRetry s.ledger request.deliveryId request.idempotencyKey =
        some (r, d) ∧ r.scheduledAt = some t ∧ s' = s ∧
        result = Repository.replayResult d t := by
  have hcall := retryDelivery_of_step hstep
  obtain ⟨_, -, -, -, hrequest⟩ := Plugin.retryDelivery_eq_ok.mp hcall
  obtain ⟨-, ⟨r, d, t, hfind, ht, hsame, hresult⟩ | ⟨-, hschedule⟩⟩ :=
    Repository.requestManualRetry_eq_ok.mp hrequest
  · refine ⟨r, d, t, hfind, ht, ?_, hresult⟩
    rw [hsame] at hcall
    have hagain := step_of_replay hfind hcall
    exact (Prod.mk.inj (Option.some_inj.mp (hstep.symm.trans hagain))).1
  · obtain ⟨_, -, -, -, -, -, rfl⟩ := Repository.scheduleManualRetry_eq_ok.mp hschedule
    cases hreplay

/-- **A replay is genuine** exactly when the decision it answers from is a manual one of the same
revision and caller. -/
theorem genuine_iff {S : Setting} {ls : List (Command × Reply)} {s s' : System}
    {caller : Option String} {request : RetryDeliveryRequest} {now : DateTime}
    {result : RetryResult} {response : Plugin.RetryDeliveryResponse}
    (h : (system S).History ls s)
    (hstep : (system S).Step s (.retryDelivery caller request now, .retry (.ok result)) s')
    (hresponse : Plugin.adminRetry S now result = .ok response)
    (hreplay : response.idempotentReplay = true) :
    ∃ r ∈ s.ledger.retryRequests.rows, r.deliveryId = request.deliveryId ∧
      r.idempotencyKey = request.idempotencyKey ∧
      (Genuine ls caller request ↔ r.Alike S caller request) := by
  obtain ⟨requestedBy, hcaller, hvalid, -, -⟩ :=
    Plugin.retryDelivery_eq_ok.mp (retryDelivery_of_step hstep)
  have hpos : 1 ≤ request.revision := (Plugin.of_validRetryRequest hvalid).2
  obtain ⟨-, text, -, rfl⟩ := Plugin.adminRetry_eq_ok.mp hresponse
  obtain ⟨r, d, t, hfind, -, -, -⟩ := exists_stored_of_replay hstep hreplay
  obtain ⟨hr, hdelivery, hkey, -⟩ := Repository.findRetry_eq_some.mp hfind
  refine ⟨r, hr, hdelivery, hkey, ?_, ?_⟩
  · rintro ⟨earlier, time, result', hl, hscheduled, hdelivery', hkey', hrevision⟩
    obtain ⟨source, hsource, hrow⟩ := exists_row_of_scheduled h hl hscheduled
    -- the decision of that call is the one under the key
    have heq := Table.eq_of_clash hr hrow
      (Or.inr ⟨hdelivery.trans hdelivery'.symm, hkey.trans hkey'.symm⟩)
    rw [heq]
    exact ⟨rfl, congrArg Int.toNat hrevision, hsource.symm⟩
  · rintro ⟨hkind, hrevision, hsource⟩
    obtain ⟨l, hl, caller', earlier, time, result', rfl, hscheduled, hdelivery', hkey', hpos',
      hrevision', hsource'⟩ := scheduled_of_history h r hr hkind
    have hsame : caller' = caller :=
      eq_of_authorizedCaller ((hsource'.trans hsource).trans hcaller) hcaller
    refine ⟨earlier, time, result', hsame ▸ hl, hscheduled, hdelivery'.trans hdelivery,
      hkey'.trans hkey, ?_⟩
    have hnat := hrevision'.trans hrevision
    omega

/-! ## Repeating a manual retry -/

/-- The answer of a replay has room for one status only. -/
theorem retryScheduled_of_replay {S : Setting} {s s' : System} {caller : Option String}
    {request : RetryDeliveryRequest} {now : DateTime} {result : RetryResult}
    {response : Plugin.RetryDeliveryResponse}
    (hstep : (system S).Step s (.retryDelivery caller request now, .retry (.ok result)) s')
    (hresponse : Plugin.adminRetry S now result = .ok response)
    (hreplay : response.idempotentReplay = true) :
    ∃ d, s.ledger.deliveries.get? request.deliveryId = some d ∧ d.status = .retryScheduled := by
  obtain ⟨hchecks, text, -, rfl⟩ := Plugin.adminRetry_eq_ok.mp hresponse
  obtain ⟨_, d, _, hfind, -, -, rfl⟩ := exists_stored_of_replay hstep hreplay
  obtain ⟨-, -, -, hd⟩ := Repository.findRetry_eq_some.mp hfind
  exact ⟨d, hd, hchecks.2.2⟩

/-- An answered retry leaves its delivery scheduled for one. -/
theorem retryScheduled_of_step {S : Setting} {s s' : System} {caller : Option String}
    {request : RetryDeliveryRequest} {now : DateTime} {result : RetryResult}
    (hstep : (system S).Step s (.retryDelivery caller request now, .retry (.ok result)) s')
    (hreplay : result.idempotentReplay = false) :
    ∃ d, s'.ledger.deliveries.get? request.deliveryId = some d ∧ d.status = .retryScheduled := by
  obtain ⟨_, -, -, -, hrequest⟩ := Plugin.retryDelivery_eq_ok.mp (retryDelivery_of_step hstep)
  obtain ⟨-, ⟨_, _, _, -, -, -, rfl⟩ | ⟨-, hschedule⟩⟩ :=
    Repository.requestManualRetry_eq_ok.mp hrequest
  · cases hreplay
  obtain ⟨d, hd, -, -, hstatus, ⟨L₁, hins, hL'⟩, -⟩ :=
    Repository.scheduleManualRetry_eq_ok.mp hschedule
  have hid : d.id = request.deliveryId := (Table.get?_eq_some.mp hd).2
  rw [hL']
  exact ⟨_, Table.get?_update_self (Delivery.keeps_rescheduled _ _) hd (decide_eq_true hid),
    hstatus.1⟩

/-- **A manual retry can be repeated** exactly while its delivery is scheduled for a retry. The text
of a time has milliseconds, so the microseconds a column keeps do not change it. -/
theorem replayed_iff {S : Setting} {s s₁ s₂ : System} {caller : Option String}
    {request : RetryDeliveryRequest} {now now' : DateTime} {result : RetryResult}
    {response : Plugin.RetryDeliveryResponse} {ms : List (Command × Reply)}
    (hmillis : S.externals.toRfc3339Millis (Timestamp.read now.stored) =
      S.externals.toRfc3339Millis now)
    (hreach : (system S).Reachable s)
    (hstep : (system S).Step s (.retryDelivery caller request now, .retry (.ok result)) s₁)
    (hresponse : Plugin.adminRetry S now result = .ok response)
    (hrun : (system S).Run s₁ ms s₂) :
    (∃ result' response',
      (system S).Step s₂ (.retryDelivery caller request now', .retry (.ok result')) s₂ ∧
        Plugin.adminRetry S now' result' = .ok response' ∧
        response'.idempotentReplay = true ∧ response'.scheduledAt = response.scheduledAt) ↔
      ∃ d, s₂.ledger.deliveries.get? request.deliveryId = some d ∧
        d.status = .retryScheduled := by
  have hreach₁ : (system S).Reachable s₁ := hreach.step hstep
  have hreach₂ : (system S).Reachable s₂ := by
    obtain ⟨ls, hls⟩ := hreach₁
    exact ⟨_, hls.append hrun⟩
  have hext := extends_of_systemRun hreach₁ hrun
  obtain ⟨requestedBy, hcaller, hvalid, hlimit, hrequest⟩ :=
    Plugin.retryDelivery_eq_ok.mp (retryDelivery_of_step hstep)
  obtain ⟨hchecks, text, htext, rfl⟩ := Plugin.adminRetry_eq_ok.mp hresponse
  obtain ⟨hstorable, -⟩ := Repository.requestManualRetry_eq_ok.mp hrequest
  -- the first answer left a decision whose time reads as the answered text
  have hstored : ∃ r ∈ s₁.ledger.retryRequests.rows, r.deliveryId = request.deliveryId ∧
      r.idempotencyKey = request.idempotencyKey ∧ ∃ t, r.scheduledAt = some t ∧
        Plugin.formatTime S (Timestamp.read t) = .ok text := by
    by_cases hreplay : result.idempotentReplay = true
    · obtain ⟨r, d, t, hfind, ht, rfl, rfl⟩ := exists_stored_of_replay hstep hreplay
      obtain ⟨hr, hdelivery, hkey, -⟩ := Repository.findRetry_eq_some.mp hfind
      exact ⟨r, hr, hdelivery, hkey, t, ht, htext⟩
    · have hfresh := eq_false_of_ne_true hreplay
      obtain ⟨source, -, -, hrow, -⟩ := stored_of_step hfresh hstep
      refine ⟨_, hrow, rfl, rfl, now.stored, rfl, ?_⟩
      rw [Plugin.scheduledTime, hfresh, if_neg Bool.false_ne_true] at htext
      obtain ⟨⟨hrange, hvalidText⟩, rfl⟩ := Plugin.formatTime_eq_ok.mp htext
      rw [Plugin.formatTime_eq_ok, hmillis]
      exact ⟨⟨Plugin.inYearRange_read hrange, by rwa [hmillis]⟩, rfl⟩
  obtain ⟨r, hr, hdelivery, hkey, t, ht, hformat⟩ := hstored
  have hr₂ : r ∈ s₂.ledger.retryRequests.rows := hext.retryRequests.subset hr
  constructor
  · rintro ⟨result', response', hstep', hresponse', hreplay', -⟩
    exact retryScheduled_of_replay hstep' hresponse' hreplay'
  · rintro ⟨d, hd, hstatus⟩
    have hfind : Repository.findRetry s₂.ledger request.deliveryId request.idempotencyKey =
        some (r, d) := Repository.findRetry_eq_some.mpr ⟨hr₂, hdelivery, hkey, hd⟩
    have hcall : Plugin.retryDelivery S s₂.ledger caller request now' =
        .ok (s₂.ledger, Repository.replayResult d t) :=
      Plugin.retryDelivery_eq_ok.mpr ⟨requestedBy, hcaller, hvalid, hlimit,
        Repository.requestManualRetry_eq_ok.mpr
          ⟨hstorable, Or.inl ⟨r, d, t, hfind, ht, rfl, rfl⟩⟩⟩
    obtain ⟨hmem, hid⟩ := Table.get?_eq_some.mp hd
    have hsound := sound_course (reachable_ledger hreach₂) (Ledger.course_of_mem hmem)
    have hbounded : requiredBounded d.id 1 160 = true := by
      rw [show d.id = request.deliveryId from hid]
      exact (Plugin.of_validRetryRequest hvalid).1
    refine ⟨_, _, step_of_replay hfind hcall, Plugin.adminRetry_eq_ok.mpr
      ⟨⟨hbounded, hsound.revision, hstatus⟩, text, hformat, rfl⟩, rfl, rfl⟩

namespace Deployment

/-! ## Runs -/

/-- An operator retries the delivery now. -/
def retryNow (revision : ℤ) (idempotencyKey : String) : Command :=
  .retryDelivery (some "admin") { deliveryId := delivery.id, revision, idempotencyKey }
    oneHourLater

/-- The key of the automatic decision that follows the first attempt. -/
def automaticKey : String := "dispatch-observation:ntf_att_d7c76d47ad23b82b7d02799d3da41447"

def retryResult? : Reply → Option RetryResult
  | .retry (.ok result) => some result
  | _ => none

theorem eq_of_retryResult? {reply : Reply} {result : RetryResult}
    (h : retryResult? reply = some result) : reply = .retry (.ok result) := by
  unfold retryResult? at h
  split at h
  · cases h
    rfl
  · cases h

/-- The retry is answered, and the answer is or is not a replay. -/
def answersRetry (s : System) (command : Command) (replay : Bool) : Bool :=
  (s.exec setting command).any fun p : System × Reply ↦ (retryResult? p.2).any fun result ↦
    (Plugin.adminRetry setting oneHourLater result).toOption.any fun response ↦
      decide (response.idempotentReplay = replay)

theorem exists_answer {s : System} {command : Command} {replay : Bool}
    (h : answersRetry s command replay = true) :
    ∃ s' result response, (system setting).Step s (command, .retry (.ok result)) s' ∧
      Plugin.adminRetry setting oneHourLater result = .ok response ∧
      response.idempotentReplay = replay := by
  obtain ⟨⟨s', reply⟩, hexec, hreply⟩ := (Option.any_eq_true _ _).mp h
  obtain ⟨result, hresult, hanswer⟩ := (Option.any_eq_true _ _).mp hreply
  obtain ⟨response, hresponse, hreplay⟩ := (Option.any_eq_true _ _).mp hanswer
  have hreply' : reply = .retry (.ok result) := eq_of_retryResult? hresult
  rw [hreply'] at hexec
  exact ⟨s', result, response, hexec, toOption_eq_some.mp hresponse, of_decide_eq_true hreplay⟩

/-- A worker claims the delivery at the time of the retry. -/
def claimNow : List Command :=
  [.dispatchDue (some "jobs") oneHourLater, .advance 2 .proceed, .advance 2 .proceed]

/-- The first attempt was refused for the moment; the automatic decision answers a retry call under
its key, and a retry under another key is scheduled and followed by a claim. -/
theorem exists_history_refused :
    ∃ ls s, (system setting).History ls s ∧ (∀ l ∈ ls, l.1.isRetryDelivery = false) ∧
      answersRetry s (retryNow 1 automaticKey) true = true ∧
      answersRetry s (retryNow 3 "k2") false = true ∧
      ((s.execAll setting (retryNow 3 "k2" :: claimNow)).any fun p : System × List Reply ↦
        (p.1.ledger.deliveries.get? delivery.id).any fun d : Delivery ↦
          decide (d.status = .attempting)) = true := by
  obtain ⟨ls, hls, hcommands⟩ := exists_history_awaiting
  obtain ⟨ms, s, hms, hcommands', hP⟩ := exists_history_of_execAll [.advance 1 (.answered refusal)]
    (fun s : System ↦ answersRetry s (retryNow 1 automaticKey) true &&
      (answersRetry s (retryNow 3 "k2") false &&
      (s.execAll setting (retryNow 3 "k2" :: claimNow)).any fun p : System × List Reply ↦
        (p.1.ledger.deliveries.get? delivery.id).any fun d : Delivery ↦
          decide (d.status = .attempting))) hls (by decide +kernel)
  rw [Bool.and_eq_true, Bool.and_eq_true] at hP
  refine ⟨_, s, hms, fun l hl ↦ ?_, hP⟩
  rcases List.mem_append.mp hl with hl | hl
  · have hnone : ∀ c ∈ toAwaiting, c.isRetryDelivery = false := by decide
    exact hnone _ (hcommands l hl)
  · rw [List.mem_singleton.mp (hcommands' l hl)]
    rfl

end Deployment

/-- A key that only an automatic decision has used answers a retry call of another revision. -/
theorem replayed_automatic :
    ∃ ls s s' caller request now result response,
      (system Deployment.setting).History ls s ∧
      (system Deployment.setting).Step s
        (.retryDelivery caller request now, .retry (.ok result)) s' ∧
      Plugin.adminRetry Deployment.setting now result = .ok response ∧
      response.idempotentReplay = true ∧ ¬Genuine ls caller request := by
  obtain ⟨ls, s, hls, hnone, hanswer, -⟩ := Deployment.exists_history_refused
  obtain ⟨s', result, response, hstep, hresponse, hreplay⟩ := Deployment.exists_answer hanswer
  refine ⟨ls, s, s', _, _, _, result, response, hls, hstep, hresponse, hreplay, ?_⟩
  rintro ⟨earlier, now, result', hl, -⟩
  exact Bool.noConfusion (hnone _ hl)

/-- The decision behind that answer is an automatic one. -/
theorem genuine_iff_refused :
    ∃ ls s caller request, (system Deployment.setting).History ls s ∧
      ∃ r ∈ s.ledger.retryRequests.rows, r.deliveryId = request.deliveryId ∧
        r.idempotencyKey = request.idempotencyKey ∧
        (Genuine ls caller request ↔ r.Alike Deployment.setting caller request) := by
  obtain ⟨ls, s, hls, -, hanswer, -⟩ := Deployment.exists_history_refused
  obtain ⟨s', result, response, hstep, hresponse, hreplay⟩ := Deployment.exists_answer hanswer
  exact ⟨ls, s, _, _, hls, genuine_iff hls hstep hresponse hreplay⟩

/-- A retry was answered; its delivery is claimed at once, and the call cannot be repeated. -/
theorem not_replayed_after_claim :
    ∃ s s₁ s₂ ms caller request now result response, (system Deployment.setting).Reachable s ∧
      (system Deployment.setting).Step s
        (.retryDelivery caller request now, .retry (.ok result)) s₁ ∧
      Plugin.adminRetry Deployment.setting now result = .ok response ∧
      (system Deployment.setting).Run s₁ ms s₂ ∧
      ¬∃ now' result' response' s₃, (system Deployment.setting).Step s₂
          (.retryDelivery caller request now', .retry (.ok result')) s₃ ∧
        Plugin.adminRetry Deployment.setting now' result' = .ok response' ∧
        response'.idempotentReplay = true := by
  obtain ⟨ls, s, hls, -, -, hanswer, hclaim⟩ := Deployment.exists_history_refused
  obtain ⟨s₁, result, response, hstep, hresponse, -⟩ := Deployment.exists_answer hanswer
  obtain ⟨⟨s₂, replies⟩, hall, hattempting⟩ := (Option.any_eq_true _ _).mp hclaim
  obtain ⟨d, hd, hstatus⟩ := (Option.any_eq_true _ _).mp hattempting
  simp only [System.execAll, bind, Option.bind_eq_some_iff, pure, Option.some_inj,
    Prod.exists, Prod.mk.injEq] at hall
  obtain ⟨t, reply, hfirst, u, rest, hrest, rfl, -⟩ := hall
  cases hfirst.symm.trans hstep
  refine ⟨s, s₁, u, _, _, _, _, result, response, ⟨ls, hls⟩, hstep, hresponse,
    run_of_execAll hrest, ?_⟩
  rintro ⟨now', result', response', s₃, hstep', hresponse', hreplay'⟩
  obtain ⟨b, hb, hscheduled⟩ := retryScheduled_of_replay hstep' hresponse' hreplay'
  cases hd.symm.trans hb
  rw [hscheduled] at hstatus
  exact absurd hstatus (by decide)

/-- Repeated at once, the retry is answered as a replay. -/
theorem replayed_iff_refused :
    ∃ s s₁ caller request now result response, (system Deployment.setting).Reachable s ∧
      (system Deployment.setting).Step s
        (.retryDelivery caller request now, .retry (.ok result)) s₁ ∧
      Plugin.adminRetry Deployment.setting now result = .ok response ∧
      ∃ result' response', (system Deployment.setting).Step s₁
          (.retryDelivery caller request now, .retry (.ok result')) s₁ ∧
        Plugin.adminRetry Deployment.setting now result' = .ok response' ∧
        response'.idempotentReplay = true ∧ response'.scheduledAt = response.scheduledAt := by
  obtain ⟨ls, s, hls, -, -, hanswer, -⟩ := Deployment.exists_history_refused
  obtain ⟨s₁, result, response, hstep, hresponse, hreplay⟩ := Deployment.exists_answer hanswer
  have hfresh : result.idempotentReplay = false := by
    obtain ⟨-, text, -, rfl⟩ := Plugin.adminRetry_eq_ok.mp hresponse
    exact hreplay
  refine ⟨s, s₁, _, _, _, result, response, ⟨ls, hls⟩, hstep, hresponse, ?_⟩
  exact (replayed_iff (by decide) ⟨ls, hls⟩ hstep hresponse .nil).mpr
    (retryScheduled_of_step hstep hfresh)

end NotificationLedger

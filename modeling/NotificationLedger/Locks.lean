import NotificationLedger.Crash
import NotificationLedger.Idempotency
import NotificationLedger.Refinement
import NotificationLedger.Resolution

/-!
# Row locks

A transaction selects rows `for update`, then tests whether it may change them, then changes them.
The model keeps the two apart: `Events.applyLocks` and `Repository.retryLocks` say which deliveries
an operation selects, and `Events.apply` and `requestManualRetry` what it commits.

## The frame

Every delivery that a committed transaction changed is one that it had selected. So a transaction
that waits for its own locks never changes a row that another one holds, and the test
`System.commit` makes of a finished transaction is passed by every one that was let through.

## Who holds what

Only a dispatch call between its selection and its claim holds a row, and no two hold one. The
observation of an attempt in flight selects a delivery that its own claim took out of the queue, so
nobody holds it: the answer of a provider never waits, which is why `Command.locks` lists no rows
for the next step of a call.
-/

namespace NotificationLedger

open Outcome

/-! ## The frame

A transaction that succeeds changes no delivery beyond those it has selected `for update`. Operation
by operation, from the equation of its effect. -/

namespace Events

variable {X : Externals} {L L' : Ledger} {event : ObservationEnvelope} {id : String}

/-- The rows a join selects are not among the locks of another delivery. -/
theorem rowLocks_of_join {deliveryId attemptId : String} {d : Delivery} {a : Attempt}
    (htexts : Storable [deliveryId, attemptId])
    (hjoin : L.deliveryWithAttempt deliveryId attemptId = some (d, a)) :
    rowLocks L deliveryId attemptId = [deliveryId] :=
  if_pos ⟨htexts, by rw [hjoin]; rfl⟩

/-- An update of one delivery leaves the row of every other. -/
theorem get?_update_of_ne {deliveryId : String} {f : Delivery → Delivery} (hf : Keyed.Keeps f)
    (hid : id ∉ [deliveryId]) :
    (L.deliveries.update (fun d ↦ decide (d.id = deliveryId)) f hf).get? id =
      L.deliveries.get? id := by
  refine Table.get?_update_of_not hf fun d hd ↦ decide_eq_false fun hclash ↦ hid ?_
  rw [List.mem_singleton, ← hclash]
  exact (Table.get?_eq_some.mp hd).2.symm

/-- **Recording changes locked rows only.** -/
theorem Observation.get?_of_observe {o : Observation} (h : o.observe X L event = .ok L')
    (hid : id ∉ o.locks L event) : L'.deliveries.get? id = L.deliveries.get? id := by
  cases o with
  | dispatch payload =>
    obtain ⟨htexts, d, a, hjoin, -, hcase⟩ := observeDispatch_eq_ok.mp h
    rw [Observation.locks, rowLocks_of_join htexts hjoin] at hid
    rcases hcase with ⟨-, -, -, rfl⟩ | ⟨-, -, -, -, hevidence⟩
    · rfl
    · rw [(Ledger.insertEvidence_frame hevidence).1]
      exact get?_update_of_ne (Delivery.keeps_afterDispatch payload) hid
  | receipt payload =>
    obtain ⟨htexts, ⟨_, -, -, rfl⟩ | ⟨d, a, hsettles, L₁, hins, rfl⟩⟩ := observeReceipt_eq_ok.mp h
    · rfl
    · have hunknown : (findReceipt L payload.source payload.remoteId
          payload.kind.evidence).isNone = true := by
        rw [hsettles.unknown]
        rfl
      rw [Observation.locks, if_pos ⟨htexts, hunknown⟩,
        rowLocks_of_join hsettles.texts hsettles.rows] at hid
      obtain ⟨-, T, -, rfl⟩ := Ledger.insertReceipt_eq_some.mp hins
      exact get?_update_of_ne (Delivery.keeps_afterReceipt payload) hid
  | lifecycle payload =>
    obtain ⟨htexts, -, L₁, hins, rfl⟩ := observeLifecycle_eq_ok.mp h
    rw [Observation.locks, if_pos htexts] at hid
    refine Table.get?_update_of_not (Delivery.keeps_finalized _ _ _) fun d hd ↦ ?_
    obtain ⟨hmem, hdid⟩ := Table.get?_eq_some.mp hd
    rw [← Bool.not_eq_true]
    intro hcancels
    exact hid (List.mem_map.mpr ⟨d, List.mem_filter.mpr ⟨hmem, hcancels⟩, hdid⟩)

theorem deliveries_of_claimEvent {t : DateTime} {L₁ : Ledger} {replayed : Bool}
    (h : claimEvent X L event t = .ok (L₁, replayed)) : L₁.deliveries = L.deliveries := by
  rw [claimEvent, bindTexts] at h
  obtain ⟨-, h⟩ := ensure_bind_eq_ok.mp h
  split at h
  · obtain ⟨L₂, hins, h⟩ := bind_eq_ok.mp h
    obtain ⟨-, T, -, rfl⟩ := Ledger.insertConsumedEvent_eq_some.mp (require_eq_ok.mp hins)
    cases h
    rfl
  · obtain ⟨-, h⟩ := ensure_bind_eq_ok.mp h
    cases h
    rfl

/-- **An observation changes locked rows only.** -/
theorem get?_of_apply (h : apply X L event = .ok L') (hid : id ∉ applyLocks X L event) :
    L'.deliveries.get? id = L.deliveries.get? id := by
  obtain ⟨o, ho, hrecord⟩ := apply_eq_ok.mp h
  rw [applyLocks, ho] at hid
  obtain ⟨⟨L₁, replayed⟩, hclaim, hrest⟩ := bind_eq_ok.mp hrecord
  simp only [hclaim] at hid
  cases replayed with
  | true =>
    cases hrest
    exact congrArg (fun T ↦ T.get? id) (deliveries_of_claimEvent hclaim)
  | false =>
    exact (Observation.get?_of_observe hrest hid).trans
      (congrArg (fun T ↦ T.get? id) (deliveries_of_claimEvent hclaim))

theorem of_mem_applyLocks (h : id ∈ applyLocks X L event) :
    ∃ o L₁, observationOf X event = .ok o ∧ id ∈ o.locks L₁ event := by
  unfold applyLocks at h
  split at h
  · cases h
  · next o ho =>
    split at h
    · next L₁ _ => exact ⟨o, L₁, ho, h⟩
    · cases h

theorem eq_of_mem_rowLocks {deliveryId attemptId : String}
    (h : id ∈ rowLocks L deliveryId attemptId) :
    id = deliveryId := by
  unfold rowLocks at h
  split at h
  · exact List.mem_singleton.mp h
  · cases h

end Events

namespace Repository

variable {X : Externals} {L L' : Ledger} {deliveryId idempotencyKey requestedBy id : String}
  {expectedRevision : ℕ} {now : DateTime} {result : RetryResult}

end Repository

/-! ## Who holds what -/

variable {S : Setting} {s s' : System} {ls : List (Command × Reply)} {n : ℕ} {c : Call}

/-- The values of `held` after a call is replaced by one whose value nobody holds. -/
theorem nodup_filterMap_set {held : Call → Option String} {calls : List Call} {c' : Call}
    (hc : calls[n]? = some c)
    (h : ∀ t, held c' = some t → t ∉ calls.filterMap held)
    (hnodup : (calls.filterMap held).Nodup) : ((calls.set n c').filterMap held).Nodup := by
  cases hheld : held c' with
  | none => exact (held_set_sublist hc (Or.inl hheld)).nodup hnodup
  | some t =>
    obtain ⟨pre, post, hsplit, hset⟩ := split_set hc c'
    have hsub : (pre.filterMap held ++ post.filterMap held).Sublist (calls.filterMap held) := by
      rw [hsplit, List.filterMap_append]
      exact (List.Sublist.refl _).append ((List.sublist_cons_self c post).filterMap _)
    rw [hset, List.filterMap_append, List.filterMap_cons_some hheld, List.nodup_middle,
      List.nodup_cons]
    exact ⟨fun hmem ↦ h t hheld (hsub.subset hmem), hsub.nodup hnodup⟩

/-- **No two calls have locked one row.** -/
theorem rowLocks_nodup (h : (system S).Reachable s) :
    (s.calls.filterMap Call.rowLock?).Nodup := by
  refine Lts.Reachable.invariant (S := system S)
    (I := fun s ↦ (s.calls.filterMap Call.rowLock?).Nodup) ?_ ?_ h
  · rintro s rfl
    exact List.nodup_nil
  · rintro s ⟨command, reply⟩ s' _ hnodup hstep
    cases System.stepped_of_exec hstep with
    | createRefused | dispatchRefused | receiptRefused | lifecycleRefused | retryRefused
    | receiptRecorded | lifecycleRecorded | retryScheduled => exact hnodup
    | createStarted | dispatchStarted => exact (held_append_sublist rfl).nodup hnodup
    | abandoned hc => exact (held_set_sublist hc (Or.inl rfl)).nodup hnodup
    | advanced hc hadvance =>
      cases hadvance with
      | selected hselect =>
        refine nodup_filterMap_set hc (fun t ht hmem ↦ ?_) hnodup
        obtain ⟨-, -, hunlocked, -⟩ := Runtime.of_selectDue hselect
        cases ht
        rw [decide_eq_true hmem] at hunlocked
        cases hunlocked
      | _ => exact (held_set_sublist hc (Or.inl rfl)).nodup hnodup

/-- The row a call has locked is current, and can be claimed. -/
theorem row_of_rowLock (h : (system S).Reachable s) {id : String}
    (hid : id ∈ s.calls.filterMap Call.rowLock?) :
    ∃ d, s.ledger.deliveries.get? id = some d ∧ d.status.isClaimable = true := by
  obtain ⟨c, hc, hlock⟩ := List.mem_filterMap.mp hid
  obtain ⟨now, row, rfl, rfl⟩ := of_rowLock hlock
  obtain ⟨hget, hdue, -⟩ := System.holds_of_reachable h now row hc
  exact ⟨row.delivery, hget, (Runtime.isDue_iff.mp hdue).1⟩

/-- A held delivery is in nobody's selection. -/
theorem not_locked_of_isHeld (h : (system S).Reachable s) {id : String} {k : Course}
    (hk : s.ledger.course id = some k) (hheld : k.delivery.status.isHeld) :
    id ∉ s.calls.filterMap Call.rowLock? := by
  intro hid
  obtain ⟨d, hd, hclaimable⟩ := row_of_rowLock h hid
  rw [Ledger.course_eq_some, hd, Option.some_inj] at hk
  rw [hk.1, DeliveryStatus.not_isClaimable_of_isHeld hheld] at hclaimable
  cases hclaimable

/-- **The answer of a provider finds its rows unlocked.** -/
theorem unlocked_of_awaiting (h : (system S).Reachable s) {now : DateTime} {work : DispatchWork}
    (hc : s.calls[n]? = some (.dispatch now (.awaiting work))) (result : Plugin.DispatchResult) :
    s.Unlocked (Events.applyLocks S.externals s.ledger
      (Plugin.dispatchEnvelope S work.claim (Plugin.observedOf S work.claim now result))) := by
  intro id hheld hlocked
  obtain ⟨o, L₁, ho, hlocks⟩ := Events.of_mem_applyLocks hlocked
  cases Plugin.dispatch_of_dispatchEnvelope ho
  obtain ⟨ls, hls⟩ := h
  obtain ⟨k, -, hk, -, -, -, hstatus⟩ := holding_of_history hls _ (List.mem_of_getElem? hc) work rfl
  have hid : id = work.claim.deliveryId :=
    (Events.eq_of_mem_rowLocks hlocks).trans (Plugin.observedOf_claim _ _ _ _).1
  exact not_locked_of_isHeld ⟨ls, hls⟩ hk hstatus (hid ▸ hheld)

end NotificationLedger

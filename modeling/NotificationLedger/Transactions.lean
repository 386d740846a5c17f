import NotificationLedger.Effects
import NotificationLedger.Plugin
import NotificationLedger.Foundation.Run

/-!
# Transactions

What the remaining transactions do (claiming, manual retry, creating an intent), and the transition
system whose steps are the committed transactions. A transaction that fails is rolled back and is no
step. An observation step takes an arbitrary envelope, so everything proved about these runs holds
in particular for the envelopes the plugin builds.

## Levels

A result about one delivery is proved for its course, a result about the rows for transactions, and
only what depends on who called, or on the order of the steps of a call, for histories of the
composed system. `transactions` is the middle level: its labels are the committed operations, and it
forgets the calls.
-/

namespace NotificationLedger

open Outcome

/-! ## Claiming

A successful claim, backwards: the row was the first due one, unlocked and joined, and the two
statements behind it could not fail. -/

namespace Runtime

variable {X : Externals} {protector : SnapshotProtector} {L L' : Ledger} {row : DueRow}
  {now : DateTime}

/-- The claim on the next attempt of a delivery. -/
def claimOf (X : Externals) (d : Delivery) : DispatchClaim where
  deliveryId := d.id
  attemptId := attemptIdOf X d.id (d.attemptCount + 1)
  runId := runIdOf X (attemptIdOf X d.id (d.attemptCount + 1))

private theorem foldl_earlier_mem {rows : List DueRow} {best : Option DueRow} {r : DueRow}
    (h : rows.foldl earlier best = some r) : r ∈ rows ∨ best = some r := by
  induction rows generalizing best with
  | nil => exact Or.inr h
  | cons a rows ih =>
    rcases ih h with hmem | hbest
    · exact Or.inl (List.mem_cons_of_mem _ hmem)
    · unfold earlier at hbest
      split at hbest
      · rw [Option.some_inj] at hbest
        exact Or.inl (hbest ▸ List.mem_cons_self)
      · split at hbest
        · rw [Option.some_inj] at hbest
          exact Or.inl (hbest ▸ List.mem_cons_self)
        · exact Or.inr hbest

theorem join_delivery {d : Delivery} (h : join L d = some row) : row.delivery = d := by
  simp only [join, bind, Option.bind_eq_some_iff, pure, Option.some_inj] at h
  obtain ⟨_, -, _, -, _, -, rfl⟩ := h
  rfl

/-- The selected row is a stored due delivery nobody else has locked. -/
theorem of_selectDue {locked : String → Bool} (h : selectDue L locked now = some row) :
    row.delivery ∈ L.deliveries.rows ∧ isDue now row.delivery = true ∧
      locked row.delivery.id = false ∧ join L row.delivery = some row := by
  rcases foldl_earlier_mem h with hmem | hnone
  · obtain ⟨d, hd, hjoin⟩ := List.mem_filterMap.mp hmem
    obtain ⟨hrow, hdue⟩ := List.mem_filter.mp hd
    rw [Bool.and_eq_true, Bool.not_eq_true'] at hdue
    have heq := join_delivery hjoin
    subst heq
    exact ⟨hrow, hdue.1, hdue.2, hjoin⟩
  · cases hnone

private theorem foldl_earlier_isSome {rows : List DueRow} {best : Option DueRow}
    (h : best.isSome = true ∨ rows ≠ []) : (rows.foldl earlier best).isSome = true := by
  induction rows generalizing best with
  | nil => exact h.resolve_right (not_not_intro rfl)
  | cons a rows ih =>
    refine ih (Or.inl ?_)
    unfold earlier
    split
    · rfl
    · split <;> rfl

theorem isSome_selectDue {locked : String → Bool}
    (h : (L.deliveries.rows.filter fun d ↦ isDue now d && !locked d.id).filterMap (join L) ≠ []) :
    (selectDue L locked now).isSome = true := foldl_earlier_isSome (Or.inr h)

/-- A due row is selected when all the others are locked. -/
theorem selectDue_eq_some {locked : String → Bool} (hmem : row.delivery ∈ L.deliveries.rows)
    (hdue : isDue now row.delivery = true) (hjoin : join L row.delivery = some row)
    (hlocked : ∀ id, locked id = decide (id ≠ row.delivery.id)) :
    selectDue L locked now = some row := by
  have hcandidate : row ∈ (L.deliveries.rows.filter fun d ↦
      isDue now d && !locked d.id).filterMap (join L) := by
    refine List.mem_filterMap.mpr ⟨row.delivery, List.mem_filter.mpr ⟨hmem, ?_⟩, hjoin⟩
    simp [hdue, hlocked]
  have hsome : (selectDue L locked now).isSome = true :=
    isSome_selectDue (List.ne_nil_of_mem hcandidate)
  obtain ⟨r, hr⟩ := Option.isSome_iff_exists.mp hsome
  obtain ⟨hrmem, -, hrlocked, hrjoin⟩ := of_selectDue hr
  have hid : r.delivery.id = row.delivery.id := by simpa [hlocked] using hrlocked
  rw [Table.eq_of_key hrmem hmem hid, hjoin, Option.some_inj] at hrjoin
  exact hrjoin ▸ hr

theorem isDue_iff {d : Delivery} :
    isDue now d = true ↔ d.status.isClaimable = true ∧
      (∃ t ∈ d.nextAttemptAt, t ≤ now.stored) ∧ d.attemptCount < d.maxAttempts := by
  simp [isDue, and_assoc, Option.any_eq_true]

/-- **Claiming.** Against the current row a claim succeeds exactly when the budget and the revision
have room, the envelopes can be revealed and the attempt can be inserted. -/
theorem claimRow_eq_ok {work : DispatchWork}
    (hd : L.deliveries.get? row.delivery.id = some row.delivery)
    (hclaimable : row.delivery.status.isClaimable = true) :
    claimRow X protector L row now = .ok (L', work) ↔
      row.delivery.revision < maxSafeWireInteger ∧
        row.delivery.attemptCount + 1 ≤ row.delivery.maxAttempts ∧
        requestOf protector row (claimOf X row.delivery) = .ok work.request ∧
        work.claim = claimOf X row.delivery ∧
        ∃ L₁, L.insertAttempt
            (attemptRow X row.delivery.id (row.delivery.attemptCount + 1) now) = some L₁ ∧
          L' = { L₁ with
            deliveries := L.deliveries.update (fun d ↦ decide (d.id = row.delivery.id))
              (Delivery.claimed (row.delivery.attemptCount + 1) now)
              (Delivery.keeps_claimed _ _) } := by
  simp only [claimRow]
  rw [ensure_bind_eq_ok]
  refine and_congr_right fun hrev ↦ ?_
  rw [ensure_bind_eq_ok]
  refine and_congr_right fun _ ↦ ?_
  have hstatus : row.delivery.status ∈ [DeliveryStatus.queued, .retryScheduled] := by
    cases hs : row.delivery.status <;> rw [hs] at hclaimable <;> first | decide | cases hclaimable
  have hrows : L.deliveries.update
      (Events.openAt row.delivery.id row.delivery.revision [.queued, .retryScheduled])
      (Delivery.claimed (row.delivery.attemptCount + 1) now) (Delivery.keeps_claimed _ _) =
      L.deliveries.update (fun d ↦ decide (d.id = row.delivery.id))
        (Delivery.claimed (row.delivery.attemptCount + 1) now) (Delivery.keeps_claimed _ _) := by
    refine Table.update_congr _ _ fun b hb ↦ ?_
    rw [Events.openAt_eq hd hrev hstatus hb]
  have haffected := Events.affected_openAt hd hrev hstatus
  have hafter : ∀ L₁, L.insertAttempt
      (attemptRow X row.delivery.id (row.delivery.attemptCount + 1) now) = some L₁ →
      L₁.deliveries = L.deliveries := by
    intro L₁ h
    obtain ⟨-, T, -, rfl⟩ := Ledger.insertAttempt_eq_some.mp h
    rfl
  rw [bind_eq_ok]
  constructor
  · rintro ⟨request, hrequest, h⟩
    obtain ⟨L₁, hins, h⟩ := bind_eq_ok.mp h
    rw [require_eq_ok] at hins
    rw [hafter L₁ hins, ensure_of haffected, ok_bind, pure_eq_ok, Prod.mk.injEq, hrows] at h
    obtain ⟨hL', rfl⟩ := h
    exact ⟨hrequest, rfl, L₁, hins, hL'.symm⟩
  · rintro ⟨hrequest, hclaim, L₁, hins, rfl⟩
    refine ⟨work.request, hrequest, bind_eq_ok.mpr ⟨L₁, require_eq_ok.mpr hins, ?_⟩⟩
    rw [hafter L₁ hins, ensure_of haffected, ok_bind, pure_eq_ok, hrows, Prod.mk.injEq]
    refine ⟨rfl, ?_⟩
    cases work
    simp only [DispatchWork.mk.injEq, and_true]
    exact hclaim.symm

end Runtime

/-! ## Manual retry

A replay changes nothing; otherwise the decision is inserted and the row rescheduled. -/

namespace Repository

variable {X : Externals} {L L' : Ledger} {deliveryId idempotencyKey requestedBy : String}
  {expectedRevision : ℕ} {now : DateTime} {result : RetryResult}

/-- **Manual retry.** A fresh manual retry finds its delivery scheduled for a retry and only moves
the time. -/
theorem scheduleManualRetry_eq_ok :
    scheduleManualRetry X L deliveryId expectedRevision idempotencyKey requestedBy now =
        .ok (L', result) ↔
      ∃ d, L.deliveries.get? deliveryId = some d ∧ d.revision = expectedRevision ∧
        d.revision < maxSafeWireInteger ∧
        (d.status = .retryScheduled ∧ d.attemptCount < d.maxAttempts) ∧
        (∃ L₁, L.insertRetryRequest
            (manualRetryRow X deliveryId expectedRevision idempotencyKey requestedBy now) =
              some L₁ ∧
          L' = { L₁ with
            deliveries := L.deliveries.update (fun d ↦ decide (d.id = deliveryId))
              (Delivery.rescheduled (expectedRevision + 1) now)
              (Delivery.keeps_rescheduled _ _) }) ∧
        result = {
          deliveryId
          revision := expectedRevision + 1
          status := .retryScheduled
          scheduledAt := now.stored
          idempotentReplay := false } := by
  simp only [scheduleManualRetry]
  rw [bind_eq_ok]
  simp only [require_eq_ok]
  refine exists_congr fun d ↦ and_congr_right fun hd ↦ ?_
  rw [ensure_bind_eq_ok]
  refine and_congr_right fun hexpected ↦ ?_
  subst hexpected
  rw [ensure_bind_eq_ok]
  refine and_congr_right fun hrev ↦ ?_
  rw [ensure_bind_eq_ok]
  refine and_congr_right fun hstatus ↦ ?_
  have hmem : d.status ∈ [DeliveryStatus.retryScheduled] := List.mem_singleton.mpr hstatus.1
  have hrows : L.deliveries.update (Events.openAt deliveryId d.revision [.retryScheduled])
      (Delivery.rescheduled (d.revision + 1) now) (Delivery.keeps_rescheduled _ _) =
      L.deliveries.update (fun d ↦ decide (d.id = deliveryId))
        (Delivery.rescheduled (d.revision + 1) now) (Delivery.keeps_rescheduled _ _) := by
    refine Table.update_congr _ _ fun b hb ↦ ?_
    rw [Events.openAt_eq hd hrev hmem hb]
  rw [bind_eq_ok]
  constructor
  · rintro ⟨L₁, hins, h⟩
    rw [require_eq_ok] at hins
    obtain ⟨-, T, -, rfl⟩ := Ledger.insertRetryRequest_eq_some.mp hins
    obtain ⟨-, h⟩ := ensure_bind_eq_ok.mp h
    rw [pure_eq_ok, Prod.mk.injEq, hrows] at h
    exact ⟨⟨_, hins, h.1.symm⟩, h.2.symm⟩
  · rintro ⟨⟨L₁, hins, rfl⟩, rfl⟩
    refine ⟨L₁, require_eq_ok.mpr hins, ?_⟩
    obtain ⟨-, T, -, rfl⟩ := Ledger.insertRetryRequest_eq_some.mp hins
    rw [ensure_of (Events.affected_openAt hd hrev hmem), ok_bind, pure_eq_ok, hrows]

/-- A manual retry replays a stored decision or schedules a new one. -/
theorem of_requestManualRetry
    (h : requestManualRetry X L deliveryId expectedRevision idempotencyKey requestedBy now =
      .ok (L', result)) :
    L' = L ∨ scheduleManualRetry X L deliveryId expectedRevision idempotencyKey requestedBy now =
      .ok (L', result) := by
  rw [requestManualRetry] at h
  obtain ⟨-, h⟩ := ensure_bind_eq_ok.mp h
  split at h
  · obtain ⟨_, -, h⟩ := bind_eq_ok.mp h
    rw [pure_eq_ok, Prod.mk.injEq] at h
    exact Or.inl h.1.symm
  · exact Or.inr h

end Repository

/-! ## Creating an intent

A replay changes nothing; otherwise rows are added to four tables at most. The text of the lock is
storable for every validated pair. -/

namespace Public

variable {X : Externals} {protector : SnapshotProtector} {L L' : Ledger}
  {intent : IntentPersistence} {nonces : Nonces} {now : DateTime}
  {receipt : TransactionalIntentReceipt}

/-- The release of a template is found or inserted. -/
theorem of_ensureTemplateRelease (h : ensureTemplateRelease X L intent now = .ok L') :
    L' = L ∨ ∃ r, L.insertTemplateRelease r = some L' := by
  rw [ensureTemplateRelease] at h
  obtain ⟨-, h⟩ := ensure_bind_eq_ok.mp h
  split at h
  · obtain ⟨-, h⟩ := ensure_bind_eq_ok.mp h
    rw [pure_eq_ok] at h
    exact Or.inl h.symm
  · exact Or.inr ⟨_, require_eq_ok.mp h⟩

/-- **Creating.** A written intent adds one snapshot, one intent and one queued delivery. -/
theorem of_writeIntent (h : writeIntent X protector L intent nonces now = .ok (L', receipt)) :
    ∃ snapshot recipient L₁ L₂ L₃,
      ensureTemplateRelease X L intent now = .ok L₁ ∧
        (L₁.insertRenderSnapshot snapshot = some L₂ ∧
          snapshot.id = snapshotIdOf X intent.requestDigest) ∧
        L₂.insertIntent (intentRow X intent recipient now) = some L₃ ∧
        L₃.insertDelivery (deliveryRow X (intentRow X intent recipient now).id now) = some L' ∧
        receipt = {
          intentId := (intentRow X intent recipient now).id
          deliveryId := deliveryIdOf X (intentRow X intent recipient now).id
          status := .queued
          idempotentReplay := false } := by
  simp only [writeIntent] at h
  obtain ⟨-, h⟩ := ensure_bind_eq_ok.mp h
  obtain ⟨L₁, h₁, h⟩ := bind_eq_ok.mp h
  obtain ⟨subject, -, h⟩ := bind_eq_ok.mp h
  obtain ⟨text, -, h⟩ := bind_eq_ok.mp h
  obtain ⟨html, -, h⟩ := bind_eq_ok.mp h
  obtain ⟨-, h⟩ := ensure_bind_eq_ok.mp h
  obtain ⟨recipient, -, h⟩ := bind_eq_ok.mp h
  obtain ⟨L₂, h₂, h⟩ := bind_eq_ok.mp h
  obtain ⟨L₃, h₃, h⟩ := bind_eq_ok.mp h
  obtain ⟨L₄, h₄, h⟩ := bind_eq_ok.mp h
  rw [require_eq_ok] at h₂ h₃ h₄
  rw [pure_eq_ok, Prod.mk.injEq] at h
  obtain ⟨rfl, rfl⟩ := h
  exact ⟨_, recipient, L₁, L₂, L₃, h₁, ⟨h₂, rfl⟩, h₃, h₄, rfl⟩

/-- A create transaction replays the stored intent or writes a new one. -/
theorem of_persistIntent
    (h : persistIntent X protector L intent nonces now = .ok (L', receipt)) :
    (L' = L ∧ recheckIntent L intent = .ok (some receipt)) ∨
      (recheckIntent L intent = .ok none ∧
        writeIntent X protector L intent nonces now = .ok (L', receipt)) := by
  rw [persistIntent] at h
  obtain ⟨existing, hcheck, h⟩ := bind_eq_ok.mp h
  cases existing with
  | some existing =>
    rw [pure_eq_ok, Prod.mk.injEq] at h
    exact Or.inl ⟨h.1.symm, h.2 ▸ hcheck⟩
  | none => exact Or.inr ⟨hcheck, h⟩

/-- **What a create transaction leaves alone**, and the one delivery it may add. -/
theorem frame_of_persistIntent
    (h : persistIntent X protector L intent nonces now = .ok (L', receipt)) :
    (L'.attempts = L.attempts ∧ L'.receipts = L.receipts ∧
        L'.retryRequests = L.retryRequests ∧ L'.consumedEvents = L.consumedEvents ∧
        L'.sourceLifecycleEvents = L.sourceLifecycleEvents) ∧
      (L'.deliveries = L.deliveries ∨ ∃ intentId,
        L.deliveries.insert? (deliveryRow X intentId now) = some L'.deliveries) := by
  rcases of_persistIntent h with ⟨rfl, -⟩ | ⟨-, h⟩
  · exact ⟨⟨rfl, rfl, rfl, rfl, rfl⟩, Or.inl rfl⟩
  obtain ⟨_, _, L₁, L₂, L₃, h₁, ⟨h₂, -⟩, h₃, h₄, -⟩ := of_writeIntent h
  obtain ⟨-, T₂, -, rfl⟩ := Ledger.insertRenderSnapshot_eq_some.mp h₂
  obtain ⟨-, T₃, -, rfl⟩ := Ledger.insertIntent_eq_some.mp h₃
  obtain ⟨-, T₄, hT, rfl⟩ := Ledger.insertDelivery_eq_some.mp h₄
  rcases of_ensureTemplateRelease h₁ with rfl | ⟨r, hins⟩
  · exact ⟨⟨rfl, rfl, rfl, rfl, rfl⟩, Or.inr ⟨_, hT⟩⟩
  · obtain ⟨-, T₁, -, rfl⟩ := Ledger.insertTemplateRelease_eq_some.mp hins
    exact ⟨⟨rfl, rfl, rfl, rfl, rfl⟩, Or.inr ⟨_, hT⟩⟩

/-- A key no stored intent carries. -/
theorem storedIntent_eq_none {module key : String}
    (h : ∀ i ∈ L.intents.rows, ¬(i.sourceModule = module ∧ i.idempotencyKey = key)) :
    storedIntent L module key = none := by
  have hfind : (L.intents.rows.find? fun i ↦ decide (i.sourceModule = module) &&
      decide (i.idempotencyKey = key)) = none := by
    refine List.find?_eq_none.mpr fun i hi hmatch ↦ ?_
    rw [Bool.and_eq_true, decide_eq_true_eq, decide_eq_true_eq] at hmatch
    exact h i hi hmatch
  rw [storedIntent, hfind]
  rfl

theorem findIdempotentIntent_eq_none {module key digest : String}
    (hmodule : storable module = true) (hkey : storable key = true)
    (hnone : storedIntent L module key = none) :
    findIdempotentIntent L module key digest = .ok none := by
  rw [findIdempotentIntent, ensure_of (by simp [Storable, hmodule, hkey]), ok_bind, hnone]
  rfl

theorem storable_lockText {module key : String} (hmodule : storable module = true)
    (hkey : storable key = true) : storable (lockText module key) = true := by
  rw [lockText, storable_append, storable_append, storable_append, hmodule, hkey]
  decide

theorem recheckIntent_eq_none (hmodule : storable intent.source.moduleId = true)
    (hkey : storable intent.idempotencyKey = true)
    (hnone : storedIntent L intent.source.moduleId intent.idempotencyKey = none) :
    recheckIntent L intent = .ok none := by
  rw [recheckIntent, ensure_of (by simp [Storable, storable_lockText hmodule hkey]), ok_bind]
  exact findIdempotentIntent_eq_none hmodule hkey hnone

/-- Two intents never share a caller and a key, so what could be written had no stored intent. -/
theorem recheckIntent_of_writeIntent
    (h : writeIntent X protector L intent nonces now = .ok (L', receipt)) :
    recheckIntent L intent = .ok none := by
  obtain ⟨_, recipient, L₁, L₂, L₃, h₁, ⟨h₂, -⟩, h₃, -, -⟩ := of_writeIntent h
  obtain ⟨⟨hconforms, -⟩, T, hT, -⟩ := Ledger.insertIntent_eq_some.mp h₃
  have hintents : L₂.intents = L.intents := by
    obtain ⟨-, T₂, -, rfl⟩ := Ledger.insertRenderSnapshot_eq_some.mp h₂
    rcases of_ensureTemplateRelease h₁ with rfl | ⟨r, hins⟩
    · rfl
    · obtain ⟨-, T₁, -, rfl⟩ := Ledger.insertTemplateRelease_eq_some.mp hins
      rfl
  have hmodule : storable intent.source.moduleId = true := hconforms.1 _ (by simp [intentRow])
  have hkey : storable intent.idempotencyKey = true := hconforms.1 _ (by simp [intentRow])
  refine recheckIntent_eq_none hmodule hkey (storedIntent_eq_none fun i hi hmatch ↦ ?_)
  exact (Table.insert?_eq_some.mp hT).1 i (hintents ▸ hi) (Or.inr hmatch)

theorem persistIntent_of_writeIntent
    (h : writeIntent X protector L intent nonces now = .ok (L', receipt)) :
    persistIntent X protector L intent nonces now = .ok (L', receipt) := by
  rw [persistIntent, recheckIntent_of_writeIntent h, ok_bind]
  exact h

end Public

/-! ## The transition system -/

/-- A transaction of the plugin, with everything it is given. -/
inductive Transaction
  | create (intent : Public.IntentPersistence) (nonces : Public.Nonces) (now : DateTime)
  | claim (locked : String → Bool) (now : DateTime)
  | observe (event : ObservationEnvelope)
  | retry (deliveryId : String) (expectedRevision : ℕ) (idempotencyKey requestedBy : String)
      (now : DateTime)

/-- The ledger a transaction commits. -/
def Transaction.run (X : Externals) (protector : SnapshotProtector) (L : Ledger) :
    Transaction → NotificationResult Ledger
  | create intent nonces now => Prod.fst <$> Public.persistIntent X protector L intent nonces now
  | claim locked now =>
    (fun claimed ↦ claimed.elim L Prod.fst) <$> Runtime.claimOneDue X protector L locked now
  | observe event => Events.apply X L event
  | retry deliveryId expectedRevision idempotencyKey requestedBy now =>
    Prod.fst <$> Repository.requestManualRetry X L deliveryId expectedRevision idempotencyKey
      requestedBy now

/-- Runs of committed transactions from the empty ledger. -/
def transactions (X : Externals) (protector : SnapshotProtector) : Lts Ledger Transaction where
  Start L := L = Ledger.empty
  Step L t L' := t.run X protector L = .ok L'

end NotificationLedger

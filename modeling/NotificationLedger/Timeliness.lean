import NotificationLedger.Evidence
import NotificationLedger.Presentation
import NotificationLedger.Retries
import NotificationLedger.Revisions

/-!
# Times within the four-digit years

`parse_time` takes any time with an offset, `format_time` shows only those whose year in UTC lies in
`0..=9999`, and a retry is scheduled after the time the provider reported. So a time can be stored
that no projection shows again, and it fails every page that reaches its row. Here the times a
transaction stores are collected. As long as they lie within the four-digit years, every query on a
stored row is answered.

## Where times come from

A time enters the ledger from a caller's clock, from a request, from an observation, or by adding a
delay to one of these. The first section collects the times of a course, the second those of a
transaction, and the third those that the answer of a provider brings along. A run is timely if each
of these is; the condition is on the labels, so it says which input is to blame.
-/

namespace NotificationLedger

open Outcome

theorem Timestamp.inRange_or {a b : Option Timestamp} (ha : ∀ t ∈ a, Timestamp.InRange t)
    (hb : a = none → ∀ t ∈ b, Timestamp.InRange t) : ∀ t ∈ a.or b, Timestamp.InRange t := by
  cases a with
  | none => exact hb rfl
  | some t => exact ha

theorem optionalBounded_bounded (value : Option String) (limit : ℕ) :
    optionalBounded (value.map fun v ↦ bounded v limit) limit = true := by
  cases value with
  | none => rfl
  | some v =>
    rw [Option.map_some, optionalBounded, Option.all_some, bounded, decide_eq_true_eq,
      String.length_ofList]
    exact List.length_take_le limit v.toList

theorem optionalBounded_or {a b : Option String} {limit : ℕ} (ha : optionalBounded a limit = true)
    (hb : optionalBounded b limit = true) : optionalBounded (a.or b) limit = true := by
  cases a with
  | none => exact hb
  | some v => exact ha

/-! ## The times of a course

Which times an event writes into the delivery and its attempts. A row is presentable while all of
its times are. -/

namespace Course

/-- The times an event writes where the projections read them. -/
inductive Dates (c : Course) : Event → DateTime → Prop
  | claimed {now : DateTime} : Dates c (.claimed now) now
  | resolved {payload : EmailDispatchObserved} (hattempting : c.delivery.status = .attempting) :
      Dates c (.dispatchObserved payload) payload.observedAt
  | scheduled {payload : EmailDispatchObserved} {next : DateTime}
      (hattempting : c.delivery.status = .attempting)
      (houtcome : payload.outcome = .temporaryFailure)
      (hnext : c.delivery.nextAttempt payload.observedAt = some next) :
      Dates c (.dispatchObserved payload) (Events.retryAt payload next)
  /-- A late observation completes an attempt that is not yet completed. -/
  | absorbed {payload : EmailDispatchObserved} {a : Attempt} (ha : a ∈ c.attempts)
      (hid : a.id = payload.attemptId) (hincomplete : a.completedAt = none) :
      Dates c (.dispatchObserved payload) payload.observedAt
  | settled {payload : EmailReceiptObserved} : Dates c (.receiptObserved payload) payload.observedAt
  | cancelled {event : ObservationEnvelope} : Dates c (.cancelled event) event.occurredAt
  | rescheduled {now : DateTime} : Dates c (.rescheduled now) now

/-- The rows of one delivery are presentable. -/
structure Presentable (c : Course) : Prop where
  delivery : c.delivery.Presentable
  attempts : ∀ a ∈ c.attempts, a.Presentable

end Course

section Rows

variable {d : Delivery} {a : Attempt} {payload : EmailDispatchObserved}

theorem Delivery.Presentable.finalized (h : d.Presentable) {status : DeliveryStatus}
    {reason : String} {t : DateTime} (ht : Timestamp.InRange t.stored)
    (hreason : reason.length ≤ 160) : (d.finalized status reason t).Presentable where
  createdAt := h.createdAt
  nextAttemptAt := nofun
  updatedAt := ht
  finalReason := decide_eq_true hreason

theorem Delivery.Presentable.claimed (h : d.Presentable) {sequence : ℕ} {t : DateTime}
    (ht : Timestamp.InRange t.stored) : (d.claimed sequence t).Presentable where
  createdAt := h.createdAt
  nextAttemptAt := nofun
  updatedAt := ht
  finalReason := h.finalReason

theorem Delivery.Presentable.rescheduled (h : d.Presentable) {revision : ℕ} {t : DateTime}
    (ht : Timestamp.InRange t.stored) : (d.rescheduled revision t).Presentable where
  createdAt := h.createdAt
  nextAttemptAt := by
    rintro u ⟨rfl⟩
    exact ht
  updatedAt := ht
  finalReason := h.finalReason

theorem Delivery.Presentable.afterDispatch (h : d.Presentable)
    (hobserved : Timestamp.InRange payload.observedAt.stored)
    (hnext : payload.outcome = .temporaryFailure → ∀ next,
      d.nextAttempt payload.observedAt = some next →
        Timestamp.InRange (Events.retryAt payload next).stored) :
    (d.afterDispatch payload).Presentable := by
  unfold Delivery.afterDispatch
  split
  · exact ⟨h.createdAt, h.nextAttemptAt, hobserved, h.finalReason⟩
  · next houtcome =>
    split
    · next next hschedule =>
      refine ⟨h.createdAt, ?_, hobserved, h.finalReason⟩
      rintro t ⟨rfl⟩
      exact hnext houtcome next hschedule
    · exact h.finalized hobserved (by decide)
  · exact h.finalized hobserved (by decide)
  · exact h.finalized hobserved (by decide)

theorem Delivery.Presentable.afterReceipt (h : d.Presentable) {payload : EmailReceiptObserved}
    (hobserved : Timestamp.InRange payload.observedAt.stored) :
    (d.afterReceipt payload).Presentable := by
  have hreason : ∀ kind : ReceiptKind, kind.asStr.length ≤ 160 := by
    intro kind
    cases kind <;> decide
  have hauthoritative :
      optionalBounded (some "authoritative_delivery_receipt") 160 = true := by decide
  unfold Delivery.afterReceipt
  split
  · exact ⟨h.createdAt, h.nextAttemptAt, hobserved, hauthoritative⟩
  · exact h.finalized hobserved (hreason _)

theorem Delivery.Presentable.cancelled (h : d.Presentable) {event : ObservationEnvelope}
    (ht : Timestamp.InRange event.occurredAt.stored) :
    (Events.cancelled event d).Presentable := by
  refine h.finalized ht ?_
  have hreason : ∀ lifecycle : Lifecycle,
      ("source_invitation_" ++ lifecycle.asStr).length ≤ 160 := by
    intro lifecycle
    cases lifecycle <;> decide
  exact hreason _

theorem Attempt.presentable_attemptRow (X : Externals) {deliveryId : String} {sequence : ℕ}
    {t : DateTime} (ht : Timestamp.InRange t.stored) :
    (Runtime.attemptRow X deliveryId sequence t).Presentable :=
  ⟨ht, nofun, rfl, rfl, rfl, rfl⟩

theorem Attempt.Presentable.afterDispatch (h : a.Presentable)
    (hobserved : Timestamp.InRange payload.observedAt.stored) :
    (a.afterDispatch payload).Presentable where
  startedAt := h.startedAt
  completedAt := by
    rintro t ⟨rfl⟩
    exact hobserved
  provider := optionalBounded_bounded (some payload.provider) 160
  remoteReceiptId := by
    have hbounded := optionalBounded_bounded (payload.remoteReceipt.map fun r ↦ r.remoteId) 320
    rwa [Option.map_map] at hbounded
  failureCode := optionalBounded_bounded _ 160
  failureClassification := by
    have hbounded := optionalBounded_bounded (payload.failure.map fun f ↦ f.classification) 160
    rwa [Option.map_map] at hbounded

theorem Attempt.Presentable.absorbed (h : a.Presentable)
    (hobserved : a.completedAt = none → Timestamp.InRange payload.observedAt.stored) :
    (a.absorbed payload).Presentable where
  startedAt := h.startedAt
  completedAt := by
    refine Timestamp.inRange_or h.completedAt ?_
    rintro hincomplete t ⟨rfl⟩
    exact hobserved hincomplete
  provider := optionalBounded_or h.provider
    (optionalBounded_bounded (some payload.provider) 160)
  remoteReceiptId := by
    have hbounded := optionalBounded_bounded (payload.remoteReceipt.map fun r ↦ r.remoteId) 320
    rw [Option.map_map] at hbounded
    exact optionalBounded_or h.remoteReceiptId hbounded
  failureCode := by
    have hbounded := optionalBounded_bounded (payload.failure.map fun f ↦ f.code) 160
    rw [Option.map_map] at hbounded
    exact optionalBounded_or h.failureCode hbounded
  failureClassification := by
    have hbounded := optionalBounded_bounded (payload.failure.map fun f ↦ f.classification) 160
    rw [Option.map_map] at hbounded
    exact optionalBounded_or h.failureClassification hbounded

theorem Attempt.Presentable.afterReceipt (h : a.Presentable) {payload : EmailReceiptObserved}
    (hobserved : Timestamp.InRange payload.observedAt.stored) :
    (a.afterReceipt payload).Presentable where
  startedAt := h.startedAt
  completedAt := by
    refine Timestamp.inRange_or h.completedAt ?_
    rintro - t ⟨rfl⟩
    exact hobserved
  provider := h.provider
  remoteReceiptId := h.remoteReceiptId
  failureCode := h.failureCode
  failureClassification := h.failureClassification

/-- **The step lemma of a course.** -/
theorem Course.Presentable.step {X : Externals} {c c' : Course} {e : Course.Event}
    (h : c.Presentable) (hstep : Course.Step X c e c')
    (htimes : ∀ t, c.Dates e t → Timestamp.InRange t.stored) : c'.Presentable := by
  cases hstep with
  | claim =>
    have hnow := htimes _ .claimed
    refine ⟨h.delivery.claimed hnow, ?_⟩
    rw [List.forall_mem_append, List.forall_mem_singleton]
    exact ⟨h.attempts, Attempt.presentable_attemptRow X hnow⟩
  | resolve hattempting =>
    have hobserved := htimes _ (.resolved hattempting)
    refine ⟨h.delivery.afterDispatch hobserved fun houtcome next hnext ↦
      htimes _ (.scheduled hattempting houtcome hnext), ?_⟩
    exact Course.forall_rewrite h.attempts fun a _ _ ha ↦ ha.afterDispatch hobserved
  | absorb =>
    refine ⟨h.delivery, Course.forall_rewrite h.attempts fun a ha hid hpresentable ↦ ?_⟩
    exact hpresentable.absorbed fun hincomplete ↦ htimes _ (.absorbed ha hid hincomplete)
  | settle =>
    have hobserved := htimes _ .settled
    exact ⟨h.delivery.afterReceipt hobserved,
      Course.forall_rewrite h.attempts fun a _ _ ha ↦ ha.afterReceipt hobserved⟩
  | cancel => exact ⟨h.delivery.cancelled (htimes _ .cancelled), h.attempts⟩
  | reschedule => exact ⟨h.delivery.rescheduled (htimes _ .rescheduled), h.attempts⟩

end Rows

/-! ## The times of a transaction

The event of a course belongs to a transaction, and its times are among those the transaction
brings. -/

/-- The times a transaction stores where the projections read them. -/
inductive Transaction.Dates (X : Externals) (L : Ledger) : Transaction → DateTime → Prop
  | create {intent : Public.IntentPersistence} {nonces : Public.Nonces} {now : DateTime}
      (hunknown : Public.recheckIntent L intent = .ok none) :
      Dates X L (.create intent nonces now) now
  | claim {locked : String → Bool} {now : DateTime} {row : Runtime.DueRow}
      (hselect : Runtime.selectDue L locked now = some row) : Dates X L (.claim locked now) now
  | dispatch {event : ObservationEnvelope} {payload : EmailDispatchObserved} {d : Delivery}
      {a : Attempt} (hfresh : L.consumedEvents.get? event.id = none)
      (hadmitted : Events.observationOf X event = .ok (.dispatch payload))
      (hrows : L.deliveryWithAttempt payload.deliveryId payload.attemptId = some (d, a))
      (hwrites : d.status = .attempting ∨ a.completedAt = none) :
      Dates X L (.observe event) payload.observedAt
  /-- The time of the next attempt, after a temporary failure. -/
  | nextAttempt {event : ObservationEnvelope} {payload : EmailDispatchObserved} {d : Delivery}
      {a : Attempt} {next : DateTime} (hfresh : L.consumedEvents.get? event.id = none)
      (hadmitted : Events.observationOf X event = .ok (.dispatch payload))
      (hrows : L.deliveryWithAttempt payload.deliveryId payload.attemptId = some (d, a))
      (hattempting : d.status = .attempting) (houtcome : payload.outcome = .temporaryFailure)
      (hnext : d.nextAttempt payload.observedAt = some next) :
      Dates X L (.observe event) (Events.retryAt payload next)
  | receipt {event : ObservationEnvelope} {payload : EmailReceiptObserved}
      (hfresh : L.consumedEvents.get? event.id = none)
      (hadmitted : Events.observationOf X event = .ok (.receipt payload))
      (hunknown : Events.findReceipt L payload.source payload.remoteId payload.kind.evidence =
        none) : Dates X L (.observe event) payload.observedAt
  | lifecycle {event : ObservationEnvelope} {payload : OrganizationInvitationLifecycle}
      {d : Delivery} (hfresh : L.consumedEvents.get? event.id = none)
      (hadmitted : Events.observationOf X event = .ok (.lifecycle payload))
      (hd : d ∈ L.deliveries.rows) (hcancels : Events.cancels L event payload d = true) :
      Dates X L (.observe event) event.occurredAt
  | retry {deliveryId idempotencyKey requestedBy : String} {expectedRevision : ℕ} {now : DateTime}
      (hunknown : Repository.findRetry L deliveryId idempotencyKey = none) :
      Dates X L (.retry deliveryId expectedRevision idempotencyKey requestedBy now) now

section Transactions

variable {X : Externals} {protector : SnapshotProtector} {L L' : Ledger} {t : Transaction}
  {event : ObservationEnvelope} {payload : EmailDispatchObserved} {d : Delivery} {a : Attempt}
  {deliveryId : String} {c c' : Course} {e : Course.Event} {time : DateTime}

/-- An observation that changes anything has a free id. -/
theorem Events.fresh_of_apply (h : Events.apply X L event = .ok L') (hne : L' ≠ L) :
    L.consumedEvents.get? event.id = none := by
  obtain ⟨o, -, hrecord⟩ := Events.apply_eq_ok.mp h
  obtain ⟨-, ⟨_, -, -, hsame⟩ | ⟨hfresh, -⟩⟩ := Events.recordOnce_eq_ok.mp hrecord
  · exact absurd hsame hne
  · exact hfresh

/-- The rows a dispatch observation is about. Only one that the delivery waits for leaves
evidence. -/
theorem Events.rows_of_apply (h : Events.apply X L event = .ok L')
    (hfresh : L.consumedEvents.get? event.id = none)
    (hadmitted : Events.observationOf X event = .ok (.dispatch payload)) :
    ∃ d a, L.deliveryWithAttempt payload.deliveryId payload.attemptId = some (d, a) ∧
      (d.status = .attempting ∨
        L'.receipts = L.receipts ∧ L'.retryRequests = L.retryRequests) := by
  obtain ⟨-, T, -, hobserve⟩ := (Events.apply_eq_ok_of_fresh hadmitted hfresh).mp h
  obtain ⟨-, d, a, hrows, -, ⟨-, -, -, rfl⟩ | ⟨hattempting, -⟩⟩ :=
    Events.observeDispatch_eq_ok.mp hobserve
  · exact ⟨d, a, hrows, Or.inr ⟨rfl, rfl⟩⟩
  · exact ⟨d, a, hrows, Or.inl hattempting⟩

/-- A transaction that raises the revision of a delivery targets it. -/
theorem Transaction.targets_of_course (hrun : t.run X protector L = .ok L')
    (hc : L.course deliveryId = some c) (hc' : L'.course deliveryId = some c')
    (hrevision : c'.delivery.revision = c.delivery.revision + 1) : t.Targets X L c.delivery := by
  obtain rfl := Ledger.course_delivery_id hc
  refine Transaction.targets_of_changed hrun (Ledger.course_eq_some.mp hc).1 ?_
  rw [(Ledger.course_eq_some.mp hc').1, ne_eq, Option.some_inj]
  intro hsame
  rw [hsame] at hrevision
  omega

/-- The times a course shows are among those of the transaction. -/
theorem Transaction.dates_of_course (hrun : t.run X protector L = .ok L')
    (hc : L.course deliveryId = some c) (hc' : L'.course deliveryId = some c')
    (hshows : t.Shows X L e) (hstep : Course.Step X c e c') (h : c.Dates e time) :
    t.Dates X L time := by
  cases hstep with
  | claim =>
    have htargets := Transaction.targets_of_course hrun hc hc' rfl
    cases h
    cases hshows
    cases htargets with
    | claim hselect => exact .claim hselect
  | @resolve d as payload a hattempting hrev ha hid =>
    have htargets := Transaction.targets_of_course hrun hc hc'
      (Delivery.afterDispatch_counts payload d).2.2
    cases hshows with
    | dispatch hfresh hadmitted =>
      cases htargets with
      | receipt _ hadmitted' => cases hadmitted.symm.trans hadmitted'
      | lifecycle _ hadmitted' => cases hadmitted.symm.trans hadmitted'
      | dispatch _ hadmitted' hrows =>
        cases hadmitted.symm.trans hadmitted'
        cases h with
        | resolved => exact .dispatch hfresh hadmitted hrows (Or.inl hattempting)
        | scheduled _ houtcome hnext =>
          exact .nextAttempt hfresh hadmitted hrows hattempting houtcome hnext
        | absorbed => exact .dispatch hfresh hadmitted hrows (Or.inl hattempting)
  | @absorb d as payload a ha hid hlate =>
    have hsettled : d.status ≠ .attempting := by
      rcases hlate with ⟨hstatus, -⟩ | ⟨hstatus, -⟩
      · rw [hstatus]
        decide
      · rw [hstatus]
        decide
    cases hshows with
    | dispatch hfresh hadmitted =>
      cases h with
      | resolved hattempting => exact absurd hattempting hsettled
      | scheduled hattempting => exact absurd hattempting hsettled
      | @absorbed _ b hb hbid hincomplete =>
        obtain ⟨d', a', hrows, -⟩ := Events.rows_of_apply hrun hfresh hadmitted
        obtain ⟨-, ha', -⟩ := Ledger.deliveryWithAttempt_eq_some.mp hrows
        have hget : L.attempts.get? payload.attemptId = some b :=
          Table.get?_eq_some.mpr ⟨((Ledger.mem_course hc).mp hb).1, hbid⟩
        obtain rfl : b = a' := Option.some_inj.mp (hget.symm.trans ha')
        exact .dispatch hfresh hadmitted hrows (Or.inr hincomplete)
  | settle =>
    cases h
    cases hshows with
    | receipt hfresh => exact .receipt hfresh.unconsumed hfresh.admitted hfresh.settles.unknown
  | cancel =>
    have htargets := Transaction.targets_of_course hrun hc hc' rfl
    cases h
    cases hshows with
    | lifecycle hfresh hadmitted =>
      cases htargets with
      | dispatch _ hadmitted' => cases hadmitted.symm.trans hadmitted'
      | receipt _ hadmitted' => cases hadmitted.symm.trans hadmitted'
      | lifecycle _ hadmitted' hmem hcancels => exact .lifecycle hfresh hadmitted' hmem hcancels
  | reschedule =>
    have htargets := Transaction.targets_of_course hrun hc hc' rfl
    cases h
    cases hshows
    cases htargets with
    | retry hunknown => exact .retry hunknown

/-- The rows of a delivery of a presentable ledger. -/
theorem Ledger.Presentable.course (h : L.Presentable) (hc : L.course deliveryId = some c) :
    c.Presentable where
  delivery := h.deliveries _ (Table.get?_eq_some.mp (Ledger.course_eq_some.mp hc).1).1
  attempts a ha := h.attempts a ((Ledger.mem_course hc).mp ha).1

/-- **A transaction keeps the deliveries and their attempts presentable**, whose times it stores
within the four-digit years. -/
theorem Ledger.Presentable.courses (hreach : (transactions X protector).Reachable L)
    (h : L.Presentable) (hrun : t.run X protector L = .ok L')
    (htimes : ∀ time, t.Dates X L time → Timestamp.InRange time.stored) :
    (∀ d ∈ L'.deliveries.rows, d.Presentable) ∧ ∀ a ∈ L'.attempts.rows, a.Presentable := by
  by_cases hcreate : ∃ intent nonces now, t = .create intent nonces now
  · obtain ⟨intent, nonces, now, rfl⟩ := hcreate
    obtain ⟨receipt, hpersist⟩ := fst_map_eq_ok.mp hrun
    rcases Public.of_persistIntent hpersist with ⟨rfl, -⟩ | ⟨hunknown, -⟩
    · exact ⟨h.deliveries, h.attempts⟩
    have hnow := htimes now (.create hunknown)
    obtain ⟨⟨hattempts, -⟩, hdeliveries⟩ := Public.frame_of_persistIntent hpersist
    rw [hattempts]
    refine ⟨fun d hd ↦ ?_, h.attempts⟩
    rcases hdeliveries with hsame | ⟨intentId, hins⟩
    · rw [hsame] at hd
      exact h.deliveries d hd
    · rcases (Table.mem_insert? hins).mp hd with hold | rfl
      · exact h.deliveries d hold
      · refine ⟨hnow, ?_, hnow, rfl⟩
        rintro u ⟨rfl⟩
        exact hnow
  -- any other transaction moves the courses it found
  have hcourse : ∀ deliveryId c', L'.course deliveryId = some c' → c'.Presentable := by
    intro deliveryId c' hc'
    rcases course_step deliveryId (linked_of_reachable hreach) hrun with
      hsame | ⟨e, hshows, hmachine⟩
    · rw [hsame] at hc'
      exact h.course hc'
    rw [hc'] at hmachine
    cases hc : L.course deliveryId with
    | none =>
      rw [hc] at hmachine
      cases hmachine
      cases hshows
      exact absurd ⟨_, _, _, rfl⟩ hcreate
    | some c =>
      rw [hc] at hmachine
      cases hmachine with
      | step hstep =>
        exact (h.course hc).step hstep fun time htime ↦
          htimes time (Transaction.dates_of_course hrun hc hc' hshows hstep htime)
  refine ⟨fun d hd ↦ (hcourse d.id _ (Ledger.course_of_mem hd)).delivery, fun a ha ↦ ?_⟩
  obtain ⟨d, hd, hid⟩ := (linked_of_reachable (hreach.step hrun)).attempts a ha
  exact (hcourse d.id _ (Ledger.course_of_mem hd)).attempts a
    (Ledger.mem_attemptsOf.mpr ⟨ha, hid.symm⟩)

end Transactions

/-! ## The evidence of a step

Receipts and decisions carry times of their own, from the observation that stored them. -/

theorem requiredBounded_of_length {value : String} {maximum : ℕ} (hblank : isBlank value = false)
    (hlength : value.length ≤ maximum) : requiredBounded value 1 maximum = true := by
  have hpos : 1 ≤ value.length := by
    rw [Nat.one_le_iff_ne_zero, ne_eq, String.length_eq_zero_iff]
    rintro rfl
    cases hblank
  rw [requiredBounded, hblank, Bool.not_false, Bool.true_and]
  exact decide_eq_true ⟨hpos, hlength⟩

section Steps

variable {S : Setting} {s s' : System} {command : Command} {reply : Reply} {t : Transaction}
  {r : Receipt} {q : RetryRequest}

/-- A receipt that a transaction stores has a time of that transaction. -/
theorem Stores.exists_time {X : Externals} {protector : SnapshotProtector} {L L' : Ledger}
    (h : Stores X L t r) (hrun : t.run X protector L = .ok L') (hr : r ∈ L'.receipts.rows)
    (hnew : r ∉ L.receipts.rows) : ∃ time, t.Dates X L time ∧ r.observedAt = time.stored := by
  have hreceipts : L'.receipts ≠ L.receipts := fun hsame ↦ hnew (hsame ▸ hr)
  have hchanged : L' ≠ L := fun hsame ↦ hreceipts (congrArg Ledger.receipts hsame)
  cases h with
  | @accepted event payload receipt d a hadmitted _ _ hrows =>
    have hfresh := Events.fresh_of_apply hrun hchanged
    obtain ⟨d', a', hrows', hattempting | ⟨hsame, -⟩⟩ :=
      Events.rows_of_apply hrun hfresh hadmitted
    · exact ⟨_, .dispatch hfresh hadmitted hrows' (Or.inl hattempting), rfl⟩
    · exact absurd hsame hreceipts
  | observed hadmitted hsettles =>
    exact ⟨_, .receipt (Events.fresh_of_apply hrun hchanged) hadmitted hsettles.unknown, rfl⟩

/-- A receipt that a step stores is presentable, if its time lies in the four-digit years. -/
theorem Receipt.presentable_of_stores (hissues : System.Issues S s command reply t)
    (h : Stores S.externals s.ledger t r) (hobserved : Timestamp.InRange r.observedAt) :
    r.Presentable := by
  cases h with
  | @accepted event payload receipt d a hadmitted _ hreceipt _ _ =>
    obtain ⟨-, -, -, -, hvalidated⟩ := Events.observationOf_eq_ok.mp hadmitted
    obtain ⟨-, hremote, -⟩ := Events.validateDispatchObservation_eq_ok.mp hvalidated
    obtain ⟨-, hblank, hlength, hsourceBlank, hsourceLength⟩ := hremote receipt hreceipt
    refine ⟨requiredBounded_stableId _ (by decide), ?_, ?_, hobserved⟩
    · simp only [Events.acceptedRow, Events.receiptRow]
      rw [bounded_eq_self hsourceLength]
      exact requiredBounded_of_length hsourceBlank hsourceLength
    · simp only [Events.acceptedRow, Events.receiptRow]
      rw [bounded_eq_self hlength]
      exact requiredBounded_of_length hblank hlength
  | @observed event payload d a hadmitted hsettles =>
    cases hissues with
    | answer hc => cases Plugin.dispatch_of_dispatchEnvelope hadmitted
    | lifecycle henvelope =>
      obtain ⟨_, h⟩ := Plugin.lifecycle_of_lifecycleEnvelope henvelope hadmitted
      cases h
    | @receipt caller request _ henvelope =>
      obtain ⟨source, observedAt, hcaller, hpayload⟩ :=
        Plugin.receipt_of_receiptEnvelope henvelope hadmitted
      cases hpayload
      obtain ⟨-, -, -, hvalid, -⟩ := Plugin.receiptEnvelope_eq_ok.mp henvelope
      simp only [Plugin.validReceiptRequest, Bool.and_eq_true] at hvalid
      obtain ⟨⟨-, hremote⟩, -⟩ := hvalid
      obtain ⟨-, hblank, hlength, -⟩ :=
        Plugin.of_validInstance (Plugin.of_authorizedCaller S.config.valid.2.2.1 hcaller)
      refine ⟨requiredBounded_stableId _ (by decide), ?_, ?_, hobserved⟩
      · simp only [Events.observedRow, Events.receiptRow, Plugin.receiptObservation]
        rw [bounded_eq_self hlength]
        exact requiredBounded_of_length hblank hlength
      · simp only [Events.observedRow, Events.receiptRow, Plugin.receiptObservation]
        rw [bounded_eq_self (length_le_of_requiredBounded hremote)]
        exact hremote

/-- A decision that a step stores is presentable, if the step stores times within the four-digit
years. -/
theorem RetryRequest.presentable_of_decides (hreach : (system S).Reachable s)
    (hissues : System.Issues S s command reply t)
    (hrun : t.run S.externals S.protector s.ledger = .ok s'.ledger)
    (hq : q ∈ s'.ledger.retryRequests.rows) (hnew : q ∉ s.ledger.retryRequests.rows)
    (htimes : ∀ time, t.Dates S.externals s.ledger time → Timestamp.InRange time.stored) :
    q.Presentable := by
  have hledger := reachable_ledger hreach
  have hretries : s'.ledger.retryRequests ≠ s.ledger.retryRequests := fun hsame ↦ hnew (hsame ▸ hq)
  cases decides_of_run hrun hq hnew with
  | @automatic event payload d a hadmitted houtcome hrows =>
    have hfresh := Events.fresh_of_apply hrun
      fun hsame ↦ hretries (congrArg Ledger.retryRequests hsame)
    obtain ⟨d', a', hrows', hwrites⟩ := Events.rows_of_apply hrun hfresh hadmitted
    cases hrows.symm.trans hrows'
    have hattempting : d.status = .attempting := hwrites.resolve_right fun h ↦ hretries h.2
    have hobserved := htimes _ (.dispatch hfresh hadmitted hrows (Or.inl hattempting))
    obtain ⟨hd, -⟩ := Ledger.deliveryWithAttempt_eq_some.mp hrows
    have hrevision :=
      (sound_course hledger (Ledger.course_of_mem (Table.get?_eq_some.mp hd).1)).revision
    unfold Events.retryDecisionRow
    split
    · next next hnext =>
      refine ⟨requiredBounded_stableId _ (by decide), rfl, hrevision, rfl, ?_, hobserved⟩
      rintro u ⟨rfl⟩
      exact htimes _ (.nextAttempt hfresh hadmitted hrows hattempting houtcome hnext)
    · exact ⟨requiredBounded_stableId _ (by decide), rfl, hrevision, rfl, nofun, hobserved⟩
  | manual hschedule =>
    cases hissues with
    | retry hcaller =>
      obtain ⟨result, hrequest⟩ := fst_map_eq_ok.mp hrun
      obtain ⟨-, ⟨_, _, _, -, -, hsame, -⟩ | ⟨hunknown, -⟩⟩ :=
        Repository.requestManualRetry_eq_ok.mp hrequest
      · exact absurd (congrArg Ledger.retryRequests hsame) hretries
      have hnow := htimes _ (.retry hunknown)
      obtain ⟨d, hd, hsource, -⟩ := Repository.scheduleManualRetry_eq_ok.mp hschedule
      have hrevision :=
        (sound_course hledger (Ledger.course_of_mem (Table.get?_eq_some.mp hd).1)).revision
      rw [hsource] at hrevision
      obtain ⟨-, -, hlength, -⟩ :=
        Plugin.of_validInstance (Plugin.of_authorizedCaller S.config.valid.2.2.2 hcaller)
      refine ⟨requiredBounded_stableId _ (by decide), decide_eq_true (le_trans hlength (by decide)),
        hrevision, rfl, ?_, hnow⟩
      rintro u ⟨rfl⟩
      exact hnow

end Steps

/-! ## Timely runs

A step is timely if the times of its transaction are in range. In a timely run every row is
presentable, hence every query on a stored row is answered. -/

/-- Every time that the transaction of a step stores lies within the four-digit years. -/
def Timely (S : Setting) (s : System) (l : Command × Reply) : Prop :=
  ∀ t, System.Issues S s l.1 l.2 t →
    ∀ time, t.Dates S.externals s.ledger time → Timestamp.InRange time.stored

/-- The projections accept every row. -/
structure Ledger.Projectable (S : Setting) (L : Ledger) : Prop where
  deliveries : ∀ d ∈ L.deliveries.rows, ∀ row ∈ Runtime.join L d,
    ∃ record, Plugin.adminDelivery S (Repository.summaryFromRow row) = .ok record
  attempts : ∀ a ∈ L.attempts.rows,
    ∃ record, Plugin.adminAttempt S (Repository.attemptRecord a) = .ok record
  receipts : ∀ r ∈ L.receipts.rows,
    ∃ record, Plugin.adminReceipt S (Repository.receiptRecord r) = .ok record
  retryRequests : ∀ q ∈ L.retryRequests.rows,
    ∃ record, Plugin.adminRetryRecord S (Repository.retryRecord q) = .ok record

section Runs

variable {S : Setting} {s s' s₁ s₂ s₃ s₄ : System} {l : Command × Reply}
  {ls₂ ls₃ ls₄ : List (Command × Reply)} {caller : Option String}

/-- **The step lemma.** -/
theorem Ledger.Presentable.of_step (hreach : (system S).Reachable s) (h : s.ledger.Presentable)
    (hstep : (system S).Step s l s') (htimely : Timely S s l) : s'.ledger.Presentable := by
  rcases System.ledger_of_stepped (System.holds_of_reachable hreach)
    (System.stepped_of_exec hstep) with hsame | ⟨t, hissues, hrun⟩
  · rw [hsame]
    exact h
  have htimes := htimely t hissues
  obtain ⟨hdeliveries, hattempts⟩ := h.courses (reachable_ledger hreach) hrun htimes
  refine ⟨hdeliveries, hattempts, fun r hr ↦ ?_, fun q hq ↦ ?_⟩
  · by_cases hold : r ∈ s.ledger.receipts.rows
    · exact h.receipts r hold
    have hstores := stores_of_run hrun hr hold
    obtain ⟨time, hdates, hobserved⟩ := hstores.exists_time hrun hr hold
    refine Receipt.presentable_of_stores hissues hstores ?_
    rw [hobserved]
    exact htimes time hdates
  · by_cases hold : q ∈ s.ledger.retryRequests.rows
    · exact h.retryRequests q hold
    · exact RetryRequest.presentable_of_decides hreach hissues hrun hq hold htimes

theorem presentable_of_timely (h : ((system S).restrict (Timely S)).Reachable s) :
    s.ledger.Presentable := by
  refine Lts.Reachable.invariant (S := (system S).restrict (Timely S))
    (I := fun s ↦ s.ledger.Presentable) ?_ ?_ h
  · rintro s rfl
    exact ⟨fun d hd ↦ absurd hd List.not_mem_nil, fun a ha ↦ absurd ha List.not_mem_nil,
      fun r hr ↦ absurd hr List.not_mem_nil, fun q hq ↦ absurd hq List.not_mem_nil⟩
  · intro s l s' hreach hpresentable hstep
    exact hpresentable.of_step hreach.of_restrict hstep.1 hstep.2

/-- **Every row a timely run has stored is accepted.** -/
theorem projectable_of_timely (hformats : Formats S)
    (h : ((system S).restrict (Timely S)).Reachable s) : s.ledger.Projectable S := by
  have hpresentable := presentable_of_timely h
  have hreach := h.of_restrict
  exact {
    deliveries := fun d hd row hjoin ↦
      (hpresentable.deliveries d hd).exists_admin hformats hreach hd hjoin
    attempts := fun a ha ↦ (hpresentable.attempts a ha).exists_admin hformats hreach ha
    receipts := fun r hr ↦ (hpresentable.receipts r hr).exists_admin hformats hreach hr
    retryRequests := fun q hq ↦ (hpresentable.retryRequests q hq).exists_admin hformats }

/-- The detail of a delivery whose rows are read in four projectable ledgers. -/
theorem getDelivery_of_projectable {L₁ L₂ L₃ L₄ : Ledger} {row : Runtime.DueRow} {id : String}
    (h₁ : L₁.Projectable S) (h₂ : L₂.Projectable S) (h₃ : L₃.Projectable S) (h₄ : L₄.Projectable S)
    (hcaller : (authorizedCaller caller S.config.adminCallers).isSome)
    (hvalid : requiredBounded id 1 160 = true) (hid : Storable [id])
    (hget : L₁.deliveries.get? id = some row.delivery)
    (hjoin : Runtime.join L₁ row.delivery = some row) :
    (∃ response, Plugin.getDelivery S L₁ L₂ L₃ L₄ caller id = .ok response) ∨
      Plugin.getDelivery S L₁ L₂ L₃ L₄ caller id = .error (.domain .evidenceOverflow) := by
  have hrow : (L₁.deliveries.get? id).bind (Runtime.join L₁) = some row := by
    rw [hget, Option.bind_some, hjoin]
  refine Plugin.getDelivery_of_row hcaller hvalid hid hrow fun hbounded ↦ ?_
  exact Plugin.exists_adminDetail hbounded h₂.attempts
    (h₁.deliveries _ (Table.get?_eq_some.mp hget).1 row hjoin) h₃.receipts h₄.retryRequests

end Runs

/-! ## Runs without observations

Without observations the times come from the clocks of the calls alone. -/

/-- The call started within the four-digit years. -/
def Call.StartsInRange : Call → Prop
  | .create _ now _ | .dispatch now _ => Timestamp.InRange now.stored
  | .returned => True

/-- The command observes nothing, and the time it reads lies within the four-digit years. -/
def Command.StartsInRange : Command → Prop
  | .create _ _ now | .dispatchDue _ now | .retryDelivery _ _ now => Timestamp.InRange now.stored
  | command => command.observes = false

section Starts

variable {S : Setting} {s s' : System} {l : Command × Reply} {ls : List (Command × Reply)}

theorem timely_of_startsInRange (hcalls : ∀ c ∈ s.calls, c.StartsInRange)
    (h : l.1.StartsInRange) : Timely S s l := by
  obtain ⟨command, reply⟩ := l
  intro t hissues time hdates
  cases hissues with
  | write hc =>
    cases hdates
    exact hcalls _ (List.mem_of_getElem? hc)
  | claim hc =>
    cases hdates
    exact hcalls _ (List.mem_of_getElem? hc)
  | answer | receipt | lifecycle => cases h
  | retry =>
    cases hdates
    exact h

theorem Call.StartsInRange.advance {L L' : Ledger} {calls : List Call} {c c' : Call} {input : Input}
    {reply : Reply} (h : c.StartsInRange) (hadvance : Call.Advance S L calls c input L' c' reply) :
    c'.StartsInRange := by
  cases hadvance with
  | replayFailed | replayed | renderFailed | renderRefused | recheckFailed | rechecked
  | writeFailed | written | nothingDue | claimFailed | lost | recorded => trivial
  | unknown | prepared | locked | absent | selected | claimed | handedOver => exact h

theorem startsInRange_of_step (hcalls : ∀ c ∈ s.calls, c.StartsInRange) (h : l.1.StartsInRange)
    (hstep : (system S).Step s l s') : ∀ c ∈ s'.calls, c.StartsInRange := by
  obtain ⟨command, reply⟩ := l
  cases System.stepped_of_exec hstep with
  | createRefused | dispatchRefused | receiptRefused | lifecycleRefused | retryRefused
  | receiptRecorded | lifecycleRecorded | retryScheduled => exact hcalls
  | createStarted | dispatchStarted =>
    rw [List.forall_mem_append, List.forall_mem_singleton]
    exact ⟨hcalls, h⟩
  | advanced hc hadvance =>
    intro c hmem
    rcases List.mem_or_eq_of_mem_set hmem with hold | rfl
    · exact hcalls c hold
    · exact (hcalls _ (List.mem_of_getElem? hc)).advance hadvance
  | abandoned =>
    intro c hmem
    rcases List.mem_or_eq_of_mem_set hmem with hold | rfl
    · exact hcalls c hold
    · trivial

/-- A run that observes nothing and starts its calls within the four-digit years is timely. -/
theorem timely_of_run (hcalls : ∀ c ∈ s.calls, c.StartsInRange) (h : (system S).Run s ls s')
    (hcommands : ∀ l ∈ ls, l.1.StartsInRange) : ((system S).restrict (Timely S)).Run s ls s' := by
  suffices hboth : ((system S).restrict (Timely S)).Run s ls s' ∧
      ∀ c ∈ s'.calls, c.StartsInRange from hboth.1
  induction h with
  | nil => exact ⟨.nil, hcalls⟩
  | snoc _ hstep ih =>
    rw [List.forall_mem_append, List.forall_mem_singleton] at hcommands
    obtain ⟨hrun, hcalls⟩ := ih hcommands.1
    exact ⟨hrun.snoc ⟨hstep, timely_of_startsInRange hcalls hcommands.2⟩,
      startsInRange_of_step hcalls hcommands.2 hstep⟩

end Starts

/-! ## In the deployment -/

namespace Deployment

theorem formats : Formats setting := by
  have hclock : ∀ p ∈ clock, Plugin.validTime setting (withMillis p.2) = true := by decide
  intro t _
  change Plugin.validTime setting (toRfc3339Millis t) = true
  unfold toRfc3339Millis
  split
  · next p hfind => exact hclock p (List.mem_of_find?_eq_some hfind)
  · decide

/-- The mail service is west of Greenwich, at the end of the year 9999. -/
def observeYearTenThousand : Command :=
  .observeReceipt (some "mail") {
    observationId := "r1"
    deliveryId := delivery.id
    attemptId := attempt.id
    runId := attempt.functionRunId
    kind := .delivered
    observedAt := "9999-12-31T23:59:59-01:00"
    remoteId := "m1"
    digest := rendered.templateDigest }

def listAll : Plugin.ListDeliveriesRequest where
  limit := none
  cursor := none
  status := none

theorem startsInRange_toAwaiting : ∀ c ∈ toAwaiting, c.StartsInRange := by
  have hmidnight : Timestamp.InRange midnight.stored := rfl
  simp only [toAwaiting, creation, storing, handOver, List.cons_append, List.nil_append,
    List.forall_mem_cons]
  exact ⟨hmidnight, rfl, rfl, rfl, rfl, rfl, hmidnight, rfl, rfl, rfl,
    fun _ h ↦ absurd h List.not_mem_nil⟩

/-- Neither the deliveries nor the delivery there is can be shown. -/
def hides (L : Ledger) : Bool :=
  match Plugin.listDeliveries setting L (some "admin") listAll,
    Plugin.getDelivery setting L L L L (some "admin") delivery.id with
  | .error (.runtime _), .error (.runtime _) => (L.deliveries.get? delivery.id).isSome
  | _, _ => false

end Deployment

/-! ## The main result -/

section Main

variable {S : Setting} {s₁ s₂ s₃ s₄ : System} {ls₂ ls₃ ls₄ : List (Command × Reply)}
  {caller : Option String}

/-- **What was stored can be shown.** As long as the times that are stored lie within the four-digit
years, the projections accept every row, a list with any valid filter that the database can read is
answered, and so is the detail of any delivery, unless it has too many rows. The four statements
behind a detail may see the ledgers of four moments. -/
theorem answered_of_timely (hformats : Formats S)
    (h₁ : ((system S).restrict (Timely S)).Reachable s₁)
    (h₂ : ((system S).restrict (Timely S)).Run s₁ ls₂ s₂)
    (h₃ : ((system S).restrict (Timely S)).Run s₂ ls₃ s₃)
    (h₄ : ((system S).restrict (Timely S)).Run s₃ ls₄ s₄)
    (hcaller : (authorizedCaller caller S.config.adminCallers).isSome) :
    s₁.ledger.Projectable S ∧
      (∀ request, Plugin.validListRequest request = true → Storable request.cursor.toList →
        ∃ response, Plugin.listDeliveries S s₁.ledger caller request = .ok response) ∧
      ∀ d ∈ s₁.ledger.deliveries.rows,
        (∃ response, Plugin.getDelivery S s₁.ledger s₂.ledger s₃.ledger s₄.ledger caller d.id =
          .ok response) ∨
        Plugin.getDelivery S s₁.ledger s₂.ledger s₃.ledger s₄.ledger caller d.id =
          .error (.domain .evidenceOverflow) := by
  have hreach₂ := h₁.run h₂
  have hreach₃ := hreach₂.run h₃
  have hreach₄ := hreach₃.run h₄
  have hprojectable := projectable_of_timely hformats h₁
  refine ⟨hprojectable, fun request hvalid hcursor ↦ ?_, fun d hd ↦ ?_⟩
  · exact Plugin.exists_listDeliveries hcaller hvalid hcursor hprojectable.deliveries
  · have hreach := h₁.of_restrict
    obtain ⟨hid, row, -, -, hget, hjoin⟩ :=
      exists_row_of_extends hreach (Ledger.Extends.refl s₁.ledger) hd
    have hstable : requiredBounded d.id 1 160 = true := by
      rw [((linked_of_reachable (reachable_ledger hreach)).deliveries d hd).1]
      exact requiredBounded_stableId _ (by decide)
    exact getDelivery_of_projectable hprojectable (projectable_of_timely hformats hreach₂)
      (projectable_of_timely hformats hreach₃) (projectable_of_timely hformats hreach₄) hcaller
      hstable hid hget hjoin

end Main

section Examples

open Deployment

/-- One created delivery, read while it is handed over. -/
theorem answered_of_timely_queued :
    queued.ledger.Projectable setting ∧
      (∃ response,
        Plugin.listDeliveries setting queued.ledger (some "admin") listAll = .ok response) ∧
      ((∃ response, Plugin.getDelivery setting queued.ledger awaiting.ledger awaiting.ledger
          awaiting.ledger (some "admin") delivery.id = .ok response) ∨
        Plugin.getDelivery setting queued.ledger awaiting.ledger awaiting.ledger
          awaiting.ledger (some "admin") delivery.id = .error (.domain .evidenceOverflow)) := by
  obtain ⟨ls₁, h₁, hc₁⟩ := exists_run_of_execAll creation_runs
  obtain ⟨ls₂, h₂, hc₂⟩ := exists_run_of_execAll storing_runs
  obtain ⟨ls₃, h₃, hc₃⟩ := exists_run_of_execAll handOver_runs
  have hstored : ∀ l ∈ ls₁ ++ ls₂, l.1.StartsInRange := by
    intro l hl
    refine startsInRange_toAwaiting l.1 (List.mem_append_left _ ?_)
    exact List.mem_append.mpr ((List.mem_append.mp hl).imp (hc₁ l) (hc₂ l))
  have hcreated :
      ((system setting).restrict (Timely setting)).Run System.empty (ls₁ ++ ls₂) queued :=
    timely_of_run (fun _ h ↦ absurd h List.not_mem_nil) (h₁.append h₂) hstored
  have hhanded : ((system setting).restrict (Timely setting)).Run queued ls₃ awaiting := by
    refine timely_of_run ?_ h₃ fun l hl ↦
      startsInRange_toAwaiting l.1 (List.mem_append_right _ (hc₃ l hl))
    exact List.forall_mem_singleton.mpr trivial
  have hcaller : (authorizedCaller (some "admin") setting.config.adminCallers).isSome := by decide
  obtain ⟨hprojectable, hlist, hget⟩ := answered_of_timely formats
    ⟨_, System.empty, rfl, hcreated⟩ hhanded .nil .nil hcaller
  obtain ⟨d, hd, hid⟩ : ∃ d ∈ queued.ledger.deliveries.rows, d.id = delivery.id :=
    ⟨_, List.mem_singleton.mpr rfl, rfl⟩
  exact ⟨hprojectable, hlist listAll (by decide) (by decide), hid ▸ hget d hd⟩

/-- The receipt was observed in the last hour of the year 9999 west of Greenwich, where the year in
UTC has five digits. It is admitted, and from then on neither a list nor the delivery is shown. -/
theorem unanswered_yearTenThousand :
    ∃ s, (system setting).Reachable s ∧ (∃ d ∈ s.ledger.deliveries.rows, d.id = delivery.id) ∧
      Plugin.validListRequest listAll = true ∧
      (¬∃ response,
        Plugin.listDeliveries setting s.ledger (some "admin") listAll = .ok response) ∧
      ¬((∃ response, Plugin.getDelivery setting s.ledger s.ledger s.ledger s.ledger (some "admin")
          delivery.id = .ok response) ∨
        Plugin.getDelivery setting s.ledger s.ledger s.ledger s.ledger (some "admin") delivery.id =
          .error (.domain .evidenceOverflow)) := by
  obtain ⟨s, hs, hhides⟩ := exists_of_execAll [observeYearTenThousand]
    (fun s : System ↦ hides s.ledger) reachable_awaiting (by decide +kernel)
  unfold hides at hhides
  split at hhides
  · next hlist hget =>
    obtain ⟨d, hd⟩ := Option.isSome_iff_exists.mp hhides
    refine ⟨s, hs, ⟨d, Table.get?_eq_some.mp hd⟩, rfl, ?_, ?_⟩
    · rintro ⟨response, hresponse⟩
      cases hlist.symm.trans hresponse
    · rintro (⟨response, hresponse⟩ | hoverflow)
      · cases hget.symm.trans hresponse
      · cases hget.symm.trans hoverflow
  · cases hhides

end Examples

end NotificationLedger

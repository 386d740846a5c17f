import NotificationLedger.Deployment

/-!
# Which columns of a delivery are filled

Every statement that writes a delivery sets some of its columns and relies on what the last one left
in the others. `Consistent` says which columns a status fills. The schema checks `final_at` only;
the rest holds because each row transformation keeps it from the statuses it is guarded by.
-/

namespace NotificationLedger

/-! ## The invariant

The columns of a delivery by its status. `final_at` and `final_reason` go together with a final
status, `next_attempt_at` with a waiting one, and the counts leave room for the next attempt where
one may follow. -/

theorem DeliveryStatus.isClaimable_iff {s : DeliveryStatus} :
    s.isClaimable = true ↔ s = .queued ∨ s = .retryScheduled := by
  cases s <;> decide

/-- The columns of a delivery agree with its status. -/
structure Delivery.Consistent (d : Delivery) : Prop where
  nextAttemptAt : d.nextAttemptAt.isSome ↔ d.status = .queued ∨ d.status = .retryScheduled
  finalAt : d.finalAt.isSome ↔
    d.status = .delivered ∨ d.status = .failed ∨ d.status = .deliveryUnknown
  finalReason : d.finalReason.isSome ↔
    d.status = .delivered ∨ d.status = .failed ∨ d.status = .deliveryUnknown
  deliveredAt : d.deliveredAt.isSome ↔ d.status = .delivered
  acceptedAt : d.status = .accepted ∨ d.status = .delivered → d.acceptedAt.isSome
  unaccepted : d.acceptedAt.isSome →
    d.status = .accepted ∨ d.status = .delivered ∨ d.status = .failed
  queued : d.status = .queued → d.attemptCount = 0
  retryScheduled : d.status = .retryScheduled →
    1 ≤ d.attemptCount ∧ d.attemptCount < d.maxAttempts

namespace Delivery.Consistent

variable {d : Delivery} {now : DateTime}

/-- No budget filter strands a delivery that waits for an attempt. -/
theorem room (h : d.Consistent) (hpos : 0 < d.maxAttempts)
    (hs : d.status = .queued ∨ d.status = .retryScheduled) : d.attemptCount < d.maxAttempts := by
  rcases hs with hs | hs
  · rw [h.queued hs]
    exact hpos
  · exact (h.retryScheduled hs).2

/-! ## One lemma for each row transformation

Each assumes the status the statement is guarded by, and the columns that go with it. -/

theorem deliveryRow (X : Externals) (intentId : String) :
    (Public.deliveryRow X intentId now).Consistent := by
  constructor <;> simp [Public.deliveryRow]

theorem claimed {sequence : ℕ} (h : d.Consistent) (hclaimable : d.status.isClaimable = true) :
    (d.claimed sequence now).Consistent := by
  obtain ⟨-, hfinal, hreason, hdelivered, -, haccepted, -, -⟩ := h
  -- a claimable delivery has none of the columns that a later status fills
  rcases DeliveryStatus.isClaimable_iff.mp hclaimable with hs | hs <;>
    rw [hs] at hfinal hreason hdelivered haccepted <;>
    constructor <;> simp_all [Delivery.claimed]

theorem accepted (h : d.Consistent) (hs : d.status = .attempting) :
    (d.accepted now).Consistent := by
  obtain ⟨hnext, hfinal, hreason, hdelivered, -, -, -, -⟩ := h
  rw [hs] at hnext hfinal hreason hdelivered
  constructor <;> simp_all [Delivery.accepted]

theorem scheduled {next : DateTime} (h : d.Consistent) (hs : d.status = .attempting)
    (hroom : 1 ≤ d.attemptCount ∧ d.attemptCount < d.maxAttempts) :
    (d.retryScheduled next now).Consistent := by
  obtain ⟨-, hfinal, hreason, hdelivered, -, haccepted, -, -⟩ := h
  rw [hs] at hfinal hreason hdelivered haccepted
  constructor <;> simp_all [Delivery.retryScheduled]

/-- A delivery that was accepted can still fail, but its fate is not unknown any more. -/
theorem finalized {status : DeliveryStatus} {reason : String} (h : d.Consistent)
    (hopen : d.status ≠ .delivered)
    (hstatus : status = .failed ∨ status = .deliveryUnknown ∧ d.status = .attempting) :
    (d.finalized status reason now).Consistent := by
  have hdelivered := h.deliveredAt
  have haccepted := h.unaccepted
  have hnone : d.deliveredAt = none := by
    rw [← Option.not_isSome_iff_eq_none, hdelivered]
    exact hopen
  rcases hstatus with rfl | ⟨rfl, hs⟩
  · constructor <;> simp [Delivery.finalized, hnone]
  · rw [hs] at haccepted
    constructor <;> simp_all [Delivery.finalized]

theorem delivered (h : d.Consistent) (hopen : d.status = .attempting ∨ d.status = .accepted) :
    (d.delivered now).Consistent := by
  have hnext := h.nextAttemptAt
  rcases hopen with hs | hs <;> rw [hs] at hnext <;>
    constructor <;> simp_all [Delivery.delivered]

theorem rescheduled {revision : ℕ} (h : d.Consistent) (hs : d.status = .retryScheduled) :
    (d.rescheduled revision now).Consistent := by
  obtain ⟨-, hfinal, hreason, hdelivered, -, haccepted, -, hroom⟩ := h
  rw [hs] at hfinal hreason hdelivered haccepted hroom
  constructor <;> simp_all [Delivery.rescheduled]

end Delivery.Consistent

/-! ## The invariant along a course

Which transformation an event applies depends on the outcome and on the receipts before it; the
guards of the events supply the status. -/

namespace Course

variable {X : Externals} {c c' : Course} {e : Event}

/-- The observation a delivery was waiting for. -/
theorem consistent_afterDispatch {d : Delivery} (payload : EmailDispatchObserved)
    (h : d.Consistent) (hs : d.status = .attempting) (hmax : d.maxAttempts = 4)
    (hpos : 0 < d.attemptCount) : (d.afterDispatch payload).Consistent := by
  have hopen : d.status ≠ .delivered := by
    rw [hs]
    exact nofun
  unfold Delivery.afterDispatch
  cases payload.outcome with
  | accepted => exact h.accepted hs
  | temporaryFailure =>
    cases hnext : d.nextAttempt payload.observedAt with
    | some next =>
      have hroom :=
        (Delivery.nextAttempt_isSome_iff d hmax hpos).mp (Option.isSome_of_eq_some hnext)
      exact h.scheduled hs ⟨hpos, hmax ▸ hroom⟩
    | none => exact h.finalized hopen (Or.inl rfl)
  | permanentFailure => exact h.finalized hopen (Or.inl rfl)
  | deliveryUnknown => exact h.finalized hopen (Or.inr ⟨rfl, hs⟩)

theorem consistent_afterReceipt {d : Delivery} (payload : EmailReceiptObserved)
    (h : d.Consistent) (hopen : d.status = .attempting ∨ d.status = .accepted) :
    (d.afterReceipt payload).Consistent := by
  have hne : d.status ≠ .delivered := by
    rcases hopen with hs | hs <;> rw [hs] <;> exact nofun
  unfold Delivery.afterReceipt
  cases payload.kind with
  | delivered => exact h.delivered hopen
  | bounced | rejected => exact h.finalized hne (Or.inl rfl)

/-- **One step keeps the columns consistent.** -/
theorem Step.consistent (hstep : Step X c e c') (hsound : c.Sound X)
    (h : c.delivery.Consistent) : c'.delivery.Consistent := by
  cases hstep with
  | claim hclaimable => exact h.claimed hclaimable
  | resolve hattempting hrev ha =>
    have hle := hsound.sequence_le ha
    exact consistent_afterDispatch _ h hattempting hsound.maxAttempts
      (Nat.lt_of_lt_of_le hle.1 hle.2)
  | absorb => exact h
  | settle hopen => exact consistent_afterReceipt _ h hopen
  | cancel hclaimable =>
    refine h.finalized ?_ (Or.inl rfl)
    intro hs
    rw [hs] at hclaimable
    cases hclaimable
  | reschedule hscheduled => exact h.rescheduled hscheduled

theorem consistent_of_reachable {c : Course} (h : (machine X).Reachable (some c)) :
    c.delivery.Consistent := by
  refine Lts.Reachable.invariant (S := machine X)
    (I := fun o ↦ ∀ c ∈ o, c.delivery.Consistent) ?_ ?_ h c rfl
  · rintro o rfl c hc
    cases hc
  · intro o e o' hreach ih hstep c hc
    cases hstep with
    | opened =>
      cases hc
      exact Delivery.Consistent.deliveryRow X _
    | step hstep =>
      cases hc
      exact hstep.consistent (sound_of_reachable hreach) (ih _ rfl)

end Course

/-! ## The main result -/

variable {X : Externals} {protector : SnapshotProtector} {L : Ledger}

theorem consistent_of_mem (h : (transactions X protector).Reachable L) {d : Delivery}
    (hd : d ∈ L.deliveries.rows) : d.Consistent := by
  have hcourse := reachable_course h d.id
  rw [Ledger.course_of_mem hd] at hcourse
  exact Course.consistent_of_reachable hcourse

/-- **The columns of every delivery agree with its status**, and a delivery that waits for an
attempt has one left. -/
theorem delivery_consistent (h : (transactions X protector).Reachable L) {d : Delivery}
    (hd : d ∈ L.deliveries.rows) :
    d.Consistent ∧ (d.status = .queued ∨ d.status = .retryScheduled →
      d.attemptCount < d.maxAttempts) := by
  have hconsistent := consistent_of_mem h hd
  refine ⟨hconsistent, hconsistent.room ?_⟩
  have hmax := (sound_course h (Ledger.course_of_mem hd)).maxAttempts
  exact hmax ▸ Nat.succ_pos 3

/-- The first attempt of the delivery was refused and the second is in flight. -/
theorem delivery_consistent_retrying :
    ∃ d ∈ Deployment.retrying.ledger.deliveries.rows, d.Consistent ∧ d.attemptCount = 2 :=
  ⟨_, List.mem_cons_self,
    (delivery_consistent (reachable_ledger Deployment.reachable_retrying) List.mem_cons_self).1,
    rfl⟩

end NotificationLedger

import NotificationLedger.Deployment
import NotificationLedger.Columns

/-!
# The declared state machine

`can_transition` is written down for the tests of the source only; no operation calls it. Compared
with what the operations do, it lacks the two transitions of a lifecycle observation, which fails a
delivery that waits for an attempt. Every other change of a status is in the table.
-/

namespace NotificationLedger

/-- `can_transition`. -/
def canTransition : DeliveryStatus → DeliveryStatus → Bool
  | .queued, .attempting | .retryScheduled, .attempting => true
  | .attempting, .accepted | .attempting, .delivered | .attempting, .retryScheduled
  | .attempting, .failed | .attempting, .deliveryUnknown => true
  | .accepted, .delivered | .accepted, .retryScheduled | .accepted, .failed
  | .accepted, .deliveryUnknown => true
  | .failed, .retryScheduled => true
  | _, _ => false

theorem canTransition_attempting {s : DeliveryStatus} (h : s.isClaimable = true) :
    canTransition s .attempting = true := by
  rcases DeliveryStatus.isClaimable_iff.mp h with rfl | rfl <;> rfl

/-- An observation takes a waiting delivery to a status the table lists. -/
theorem canTransition_afterDispatch {d : Delivery} (payload : EmailDispatchObserved)
    (h : d.status = .attempting) :
    canTransition d.status (d.afterDispatch payload).status = true := by
  rw [h, Delivery.afterDispatch_status]
  cases payload.outcome with
  | temporaryFailure =>
    simp only
    split <;> rfl
  | accepted | permanentFailure | deliveryUnknown => rfl

/-- So does a receipt. -/
theorem canTransition_afterReceipt {d : Delivery} (payload : EmailReceiptObserved)
    (h : d.status = .attempting ∨ d.status = .accepted) :
    canTransition d.status (d.afterReceipt payload).status = true := by
  rw [Delivery.afterReceipt_status]
  rcases h with hs | hs
  · rw [hs]
    split <;> rfl
  · rw [hs]
    split <;> rfl

/-- What one event of a course does to the status of its delivery. -/
theorem Course.Step.transition {X : Externals} {c c' : Course} {e : Course.Event}
    (h : Course.Step X c e c') :
    c'.delivery.status = c.delivery.status ∨
      canTransition c.delivery.status c'.delivery.status = true ∨
      ((∃ event, e = .cancelled event) ∧ c.delivery.status.isClaimable = true ∧
        c'.delivery.status = .failed) := by
  cases h with
  | claim hclaimable => exact Or.inr (Or.inl (canTransition_attempting hclaimable))
  | resolve hattempting => exact Or.inr (Or.inl (canTransition_afterDispatch _ hattempting))
  | absorb => exact Or.inl rfl
  | settle hopen => exact Or.inr (Or.inl (canTransition_afterReceipt _ hopen))
  | cancel hclaimable => exact Or.inr (Or.inr ⟨⟨_, rfl⟩, hclaimable, rfl⟩)
  | reschedule => exact Or.inl rfl

section Transactions

variable {X : Externals} {protector : SnapshotProtector} {L L' : Ledger} {t : Transaction}

/-- A transaction that shows a cancellation records a lifecycle observation. -/
theorem Transaction.Shows.lifecycle_of_cancelled {event : ObservationEnvelope}
    (h : t.Shows X L (.cancelled event)) :
    t = .observe event ∧ ∃ payload, Events.observationOf X event = .ok (.lifecycle payload) := by
  cases h with
  | lifecycle _ hpayload => exact ⟨rfl, _, hpayload⟩

/-- **Every operation follows the declared state machine**, but for a lifecycle observation, which
fails a delivery that is queued or scheduled for a retry. -/
theorem status_follows_table (h : (transactions X protector).Reachable L)
    (hrun : t.run X protector L = .ok L') {d : Delivery} (hd : d ∈ L.deliveries.rows) :
    ∃ d' ∈ L'.deliveries.rows, d'.id = d.id ∧
      (d'.status = d.status ∨ canTransition d.status d'.status = true ∨
        ((d.status = .queued ∨ d.status = .retryScheduled) ∧ d'.status = .failed ∧
          ∃ event payload, t = .observe event ∧
            Events.observationOf X event = .ok (.lifecycle payload))) := by
  have hcourse := Ledger.course_of_mem hd
  rcases course_step d.id (linked_of_reachable h) hrun with hsame | ⟨e, hshows, hmachine⟩
  · rw [hcourse] at hsame
    obtain ⟨hget, -⟩ := Ledger.course_eq_some.mp hsame
    exact ⟨d, (Table.get?_eq_some.mp hget).1, rfl, Or.inl rfl⟩
  · rw [hcourse] at hmachine
    generalize hafter : L'.course d.id = after at hmachine
    cases hmachine with
    | @step _ c' _ hstep =>
      obtain ⟨hget, -⟩ := Ledger.course_eq_some.mp hafter
      refine ⟨c'.delivery, (Table.get?_eq_some.mp hget).1, (Table.get?_eq_some.mp hget).2, ?_⟩
      refine hstep.transition.imp_right (Or.imp_right ?_)
      rintro ⟨⟨event, rfl⟩, hclaimable, hfailed⟩
      obtain ⟨ht, payload, hpayload⟩ := hshows.lifecycle_of_cancelled
      exact ⟨DeliveryStatus.isClaimable_iff.mp hclaimable, hfailed, event, payload, ht, hpayload⟩

end Transactions

/-- The revocation of an invitation whose message is queued. -/
theorem revoked_runs :
    ∃ L', (Transaction.observe (Deployment.revoked "o1")).run Deployment.setting.externals
        Deployment.setting.protector Deployment.queued.ledger = .ok L' ∧
      ∃ d ∈ Deployment.queued.ledger.deliveries.rows, d.status = .queued ∧
        ∀ d' ∈ L'.deliveries.rows, d'.status = .failed := by
  have hok : ((Transaction.observe (Deployment.revoked "o1")).run Deployment.setting.externals
      Deployment.setting.protector Deployment.queued.ledger).toOption.map
        (fun L ↦ L.deliveries.rows.map Delivery.status) = some [.failed] := by decide +kernel
  obtain ⟨L', hL', hstatus⟩ := Option.map_eq_some_iff.mp hok
  refine ⟨L', Outcome.toOption_eq_some.mp hL', _, List.mem_cons_self, rfl, fun d' hd' ↦ ?_⟩
  have hmem := List.mem_map_of_mem (f := Delivery.status) hd'
  rwa [hstatus, List.mem_singleton] at hmem

/-- The revoked delivery has failed by a transition of the lifecycle. -/
theorem status_follows_table_revoked :
    ∃ (L : Ledger), ∃ d ∈ Deployment.queued.ledger.deliveries.rows, ∃ d' ∈ L.deliveries.rows,
      d'.id = d.id ∧ d.status = .queued ∧ d'.status = .failed := by
  obtain ⟨L, hrun, d, hd, hqueued, hfailed⟩ := revoked_runs
  obtain ⟨d', hd', hid, -⟩ := status_follows_table
    (reachable_ledger Deployment.reachable_queued) hrun hd
  exact ⟨L, d, hd, d', hd', hid, hqueued, hfailed d' hd'⟩

/-- The table alone does not describe the operations. -/
theorem not_only_canTransition :
    ¬∀ (X : Externals) (protector : SnapshotProtector) (L L' : Ledger) (t : Transaction),
      (transactions X protector).Reachable L → t.run X protector L = .ok L' →
        ∀ d ∈ L.deliveries.rows, ∃ d' ∈ L'.deliveries.rows, d'.id = d.id ∧
          (d'.status = d.status ∨ canTransition d.status d'.status = true) := by
  intro hall
  obtain ⟨L, hrun, d, hd, hqueued, hfailed⟩ := revoked_runs
  obtain ⟨d', hd', -, htable⟩ := hall _ _ _ _ _
    (reachable_ledger Deployment.reachable_queued) hrun d hd
  rw [hqueued, hfailed d' hd'] at htable
  rcases htable with h | h <;> cases h

end NotificationLedger

import NotificationLedger.Course
import NotificationLedger.Growth

/-!
# The ledger refines the courses of its deliveries

`Ledger.course` reads the course of one delivery off the ledger. Every committed transaction leaves
a given course alone or moves it by one step of the machine (`course_step`), and `Shows` says which
transactions can show which event. Invariants of a single delivery therefore carry over from the
machine to every reachable ledger.

## The simulation

A transaction is split into its statements, an update is seen from one course as a map on the row
and on the list of attempts, and the statements together are one event or none. New rows are
appended, so the order of the attempts in the table is that of the list. A delivery that does not
exist yet starts its course when its intent is written.
-/

namespace NotificationLedger

open Outcome
open Course (rewrite MachineStep)

namespace Ledger

/-- The delivery row with its attempts. -/
def course (L : Ledger) (deliveryId : String) : Option Course :=
  (L.deliveries.get? deliveryId).map fun d ↦ ⟨d, L.attemptsOf deliveryId⟩

variable {L L' : Ledger} {deliveryId : String}

theorem course_eq_some {c : Course} :
    L.course deliveryId = some c ↔
      L.deliveries.get? deliveryId = some c.delivery ∧ c.attempts = L.attemptsOf deliveryId := by
  rw [course, Option.map_eq_some_iff]
  constructor
  · rintro ⟨d, hd, rfl⟩
    exact ⟨hd, rfl⟩
  · rintro ⟨hd, has⟩
    refine ⟨c.delivery, hd, ?_⟩
    cases c
    rw [← has]

theorem course_of_mem {d : Delivery} (h : d ∈ L.deliveries.rows) :
    L.course d.id = some ⟨d, L.attemptsOf d.id⟩ :=
  course_eq_some.mpr ⟨Table.get?_of_mem h, rfl⟩

theorem course_delivery_id {c : Course} (h : L.course deliveryId = some c) :
    c.delivery.id = deliveryId := (Table.get?_eq_some.mp (course_eq_some.mp h).1).2

theorem mem_course {c : Course} (h : L.course deliveryId = some c) {a : Attempt} :
    a ∈ c.attempts ↔ a ∈ L.attempts.rows ∧ a.deliveryId = deliveryId := by
  rw [(course_eq_some.mp h).2, mem_attemptsOf]

theorem course_congr (hd : L'.deliveries = L.deliveries) (ha : L'.attempts = L.attempts) :
    L'.course deliveryId = L.course deliveryId := by
  rw [course, course, hd, attemptsOf, attemptsOf, ha]

/-! ## Updates seen from one course -/

section Updates

variable {f : Delivery → Delivery} {hf : Keyed.Keeps f} {attemptId : String}
  {g : Attempt → Attempt} {hg : Keyed.Keeps g}

theorem attemptsOf_update
    (ha : L'.attempts = L.attempts.update (fun a ↦ decide (a.id = attemptId)) g hg)
    (hkeep : ∀ a, (g a).deliveryId = a.deliveryId) (deliveryId : String) :
    L'.attemptsOf deliveryId = rewrite attemptId g (L.attemptsOf deliveryId) := by
  rw [attemptsOf, ha, Table.filter_rows_update fun a ↦ by rw [hkeep]]
  refine List.map_congr_left fun a _ ↦ ?_
  simp only [decide_eq_true_eq]

/-- The attempts of other deliveries are not rewritten. -/
theorem rewrite_attemptsOf {a : Attempt} (ha : L.attempts.get? attemptId = some a)
    (hne : a.deliveryId ≠ deliveryId) :
    rewrite attemptId g (L.attemptsOf deliveryId) = L.attemptsOf deliveryId := by
  conv_rhs => rw [← List.map_id (L.attemptsOf deliveryId)]
  refine List.map_congr_left fun b hb ↦ ?_
  obtain ⟨hmem, hdelivery⟩ := mem_attemptsOf.mp hb
  obtain ⟨hamem, haid⟩ := Table.get?_eq_some.mp ha
  refine if_neg fun hid ↦ hne ?_
  have hba : b = a := Table.eq_of_key hmem hamem (hid.trans haid.symm)
  exact hba ▸ hdelivery

theorem course_update_deliveries {p : Delivery → Bool}
    (hd : L'.deliveries = L.deliveries.update p f hf) (ha : L'.attempts = L.attempts) :
    L'.course deliveryId =
      (L.course deliveryId).map fun c ↦ ⟨if p c.delivery then f c.delivery else c.delivery,
        c.attempts⟩ := by
  rw [course, course, hd, Table.get?_update, attemptsOf, ha, Option.map_map, Option.map_map]
  rfl

/-- An update of one delivery and one of its attempts moves that course and no other. -/
theorem course_update {d : Delivery} {a : Attempt}
    (hd : L'.deliveries = L.deliveries.update (fun b ↦ decide (b.id = d.id)) f hf)
    (ha : L'.attempts = L.attempts.update (fun b ↦ decide (b.id = attemptId)) g hg)
    (hkeep : ∀ b, (g b).deliveryId = b.deliveryId)
    (hget : L.attempts.get? attemptId = some a) (had : a.deliveryId = d.id) :
    L'.course deliveryId =
      if deliveryId = d.id then
        (L.course deliveryId).map fun c ↦ ⟨f c.delivery, rewrite attemptId g c.attempts⟩
      else L.course deliveryId := by
  rw [course, course, hd, Table.get?_update, attemptsOf_update ha hkeep deliveryId]
  cases hrow : L.deliveries.get? deliveryId with
  | none => simp
  | some b =>
    have hbid : b.id = deliveryId := (Table.get?_eq_some.mp hrow).2
    split
    · next heq =>
      subst heq
      simp [hbid]
    · next hne =>
      rw [rewrite_attemptsOf hget (fun h ↦ hne (h.symm.trans had))]
      simp [hbid, hne]

end Updates

end Ledger

/-! ## The ledger operations as course steps -/

section Operations

variable {X : Externals} {protector : SnapshotProtector} {L L' : Ledger} {deliveryId : String}

open Ledger

theorem Ledger.insertEvidence_frame {event : ObservationEnvelope}
    {payload : EmailDispatchObserved} {d : Delivery}
    (h : Events.insertEvidence X event payload d L = some L') :
    L'.deliveries = L.deliveries ∧ L'.attempts = L.attempts ∧
      L'.consumedEvents = L.consumedEvents := by
  unfold Events.insertEvidence at h
  split at h
  · obtain ⟨-, T, -, rfl⟩ := insertReceipt_eq_some.mp h
    exact ⟨rfl, rfl, rfl⟩
  · obtain ⟨-, T, -, rfl⟩ := insertRetryRequest_eq_some.mp h
    exact ⟨rfl, rfl, rfl⟩
  · rw [Option.some_inj] at h
    subst h
    exact ⟨rfl, rfl, rfl⟩

/-- The delivery and attempt a join returns, as a course. -/
theorem Ledger.course_of_join {payloadDelivery attemptId : String} {d : Delivery} {a : Attempt}
    (h : L.deliveryWithAttempt payloadDelivery attemptId = some (d, a)) :
    d.id = payloadDelivery ∧ a.id = attemptId ∧ a.deliveryId = d.id ∧
      L.attempts.get? attemptId = some a ∧ L.course d.id = some ⟨d, L.attemptsOf d.id⟩ ∧
      a ∈ L.attemptsOf d.id := by
  obtain ⟨hd, ha, had⟩ := deliveryWithAttempt_eq_some.mp h
  obtain ⟨hdmem, hdid⟩ := Table.get?_eq_some.mp hd
  obtain ⟨hamem, haid⟩ := Table.get?_eq_some.mp ha
  exact ⟨hdid, haid, had, ha, course_of_mem hdmem, mem_attemptsOf.mpr ⟨hamem, had⟩⟩

theorem course_observeDispatch (deliveryId : String) {event : ObservationEnvelope}
    {payload : EmailDispatchObserved}
    (h : Events.observeDispatch X L event payload = .ok L') :
    L'.course deliveryId = L.course deliveryId ∨
      MachineStep X (L.course deliveryId) (.dispatchObserved payload) (L'.course deliveryId) := by
  obtain ⟨-, d, a, hjoin, -, hcase⟩ := Events.observeDispatch_eq_ok.mp h
  obtain ⟨hdid, haid, had, hget, hcourse, hmem⟩ := course_of_join hjoin
  rcases hcase with ⟨-, hlate, -, rfl⟩ | ⟨hattempting, hdispatching, hrev, -, hevidence⟩
  · have habsorb : (L.absorb payload).attempts = L.attempts.update
        (fun b ↦ decide (b.id = payload.attemptId)) (Attempt.absorbed payload)
        (Attempt.keeps_absorbed payload) := rfl
    have hattempts := attemptsOf_update habsorb (fun _ ↦ rfl) deliveryId
    by_cases hid : deliveryId = d.id
    · subst hid
      right
      have hafter : (L.absorb payload).course d.id =
          some ⟨d, rewrite payload.attemptId (Attempt.absorbed payload) (L.attemptsOf d.id)⟩ :=
        course_eq_some.mpr ⟨(course_eq_some.mp hcourse).1, hattempts.symm⟩
      rw [hcourse, hafter]
      simp only [Events.lateObservationIsCompatible, Bool.and_eq_true, Bool.or_eq_true,
        decide_eq_true_eq] at hlate
      exact .step (.absorb hmem haid hlate.2)
    · left
      have hsame := hattempts.trans (rewrite_attemptsOf hget fun hd ↦ hid (hd.symm.trans had))
      rw [course, course, hsame]
      rfl
  · obtain ⟨hd, ha, -⟩ := insertEvidence_frame hevidence
    have hdeliveries : (L.resolve payload).deliveries = L.deliveries.update
        (fun b ↦ decide (b.id = d.id)) (Delivery.afterDispatch payload)
        (Delivery.keeps_afterDispatch payload) := by
      rw [hdid]
      rfl
    have hattempts : (L.resolve payload).attempts = L.attempts.update
        (fun b ↦ decide (b.id = payload.attemptId)) (Attempt.afterDispatch payload)
        (Attempt.keeps_resolved payload _ _) := rfl
    rw [course_congr hd ha, course_update hdeliveries hattempts (fun _ ↦ rfl) hget had]
    split
    · next hid =>
      subst hid
      right
      rw [hcourse]
      exact .step (.resolve hattempting hrev hmem haid hdispatching)
    · exact Or.inl rfl

theorem course_observeReceipt (deliveryId : String) {event : ObservationEnvelope}
    {payload : EmailReceiptObserved} (h : Events.observeReceipt X L event payload = .ok L') :
    L'.course deliveryId = L.course deliveryId ∨
      (Storable [payload.source, payload.remoteId] ∧ (∃ d a, Events.Settles L payload d a) ∧
        (∀ r ∈ L.receipts.rows, r.id ≠ (Events.observedRow X event payload).id) ∧
        MachineStep X (L.course deliveryId) (.receiptObserved payload)
          (L'.course deliveryId)) := by
  obtain ⟨htexts, ⟨_, -, -, rfl⟩ | ⟨d, a, hsettles, L₁, hins, rfl⟩⟩ :=
    Events.observeReceipt_eq_ok.mp h
  · exact Or.inl rfl
  obtain ⟨-, T, hT, rfl⟩ := insertReceipt_eq_some.mp hins
  obtain ⟨hdid, haid, had, hget, hcourse, hmem⟩ := course_of_join hsettles.rows
  have hdeliveries : (({ L with receipts := T } : Ledger).settle payload).deliveries =
      L.deliveries.update (fun b ↦ decide (b.id = d.id)) (Delivery.afterReceipt payload)
        (Delivery.keeps_afterReceipt payload) := by
    rw [hdid]
    rfl
  have hattempts : (({ L with receipts := T } : Ledger).settle payload).attempts =
      L.attempts.update (fun b ↦ decide (b.id = payload.attemptId)) (Attempt.afterReceipt payload)
        (Attempt.keeps_receipted _ _) := rfl
  rw [course_update hdeliveries hattempts (fun _ ↦ rfl) hget had]
  split
  · next hid =>
    subst hid
    right
    rw [hcourse]
    refine ⟨htexts, ⟨d, a, hsettles⟩, fun r hr hid ↦ ?_, ?_⟩
    · exact (Table.insert?_eq_some.mp hT).1 r hr (Or.inl hid)
    · exact .step (.settle hsettles.opened hsettles.revision hmem haid hdid)
  · exact Or.inl rfl

theorem course_observeLifecycle (deliveryId : String) {event : ObservationEnvelope}
    {payload : OrganizationInvitationLifecycle}
    (h : Events.observeLifecycle L event payload = .ok L') :
    L'.course deliveryId = L.course deliveryId ∨
      MachineStep X (L.course deliveryId) (.cancelled event) (L'.course deliveryId) := by
  obtain ⟨-, hrev, L₁, hins, hL'⟩ := Events.observeLifecycle_eq_ok.mp h
  obtain ⟨-, T, -, rfl⟩ := insertSourceLifecycleEvent_eq_some.mp hins
  have hdeliveries : L'.deliveries = L.deliveries.update (Events.cancels L event payload)
      (Events.cancelled event) (Delivery.keeps_finalized _ _ _) := by rw [hL']
  have hattempts : L'.attempts = L.attempts := by rw [hL']
  rw [course_update_deliveries hdeliveries hattempts]
  cases hcourse : L.course deliveryId with
  | none => exact Or.inl rfl
  | some c =>
    obtain ⟨hget, -⟩ := course_eq_some.mp hcourse
    simp only [Option.map_some]
    split
    · next hcancel =>
      right
      have hclaimable : c.delivery.status.isClaimable = true := by
        simp only [Events.cancels, Events.cancellable, Bool.and_eq_true] at hcancel
        exact hcancel.1
      exact .step (.cancel hclaimable (hrev _ (Table.get?_eq_some.mp hget).1 hcancel))
    · exact Or.inl rfl

theorem course_claim (deliveryId : String) {row : Runtime.DueRow} {now : DateTime}
    {work : DispatchWork}
    (hd : L.deliveries.get? row.delivery.id = some row.delivery)
    (hclaimable : row.delivery.status.isClaimable = true)
    (h : Runtime.claimRow X protector L row now = .ok (L', work)) :
    L'.course deliveryId = L.course deliveryId ∨
      MachineStep X (L.course deliveryId) (.claimed now) (L'.course deliveryId) := by
  obtain ⟨hrev, hbudget, -, -, L₁, hins, rfl⟩ := (Runtime.claimRow_eq_ok hd hclaimable).mp h
  obtain ⟨-, T, hT, rfl⟩ := insertAttempt_eq_some.mp hins
  obtain ⟨hfresh, hrows⟩ := Table.insert?_eq_some.mp hT
  have hattempts : ({ L with
      attempts := T
      deliveries := L.deliveries.update (fun d ↦ decide (d.id = row.delivery.id))
        (Delivery.claimed (row.delivery.attemptCount + 1) now)
        (Delivery.keeps_claimed _ _) } : Ledger).attemptsOf deliveryId =
      if deliveryId = row.delivery.id then
        L.attemptsOf deliveryId ++
          [Runtime.attemptRow X row.delivery.id (row.delivery.attemptCount + 1) now]
      else L.attemptsOf deliveryId := by
    rw [attemptsOf, hrows, List.filter_append, ← attemptsOf]
    split
    · next hid => simp [Runtime.attemptRow, hid]
    · next hid => simp [Runtime.attemptRow, Ne.symm hid]
  rw [course, hattempts, Table.get?_update]
  cases hget : L.deliveries.get? deliveryId with
  | none =>
    left
    rw [course, hget]
    rfl
  | some d =>
    have hdid : d.id = deliveryId := (Table.get?_eq_some.mp hget).2
    by_cases hid : deliveryId = row.delivery.id
    · right
      subst hid
      rw [hd, Option.some_inj] at hget
      subst hget
      rw [course, hd]
      simp only [decide_true, Option.map_some, if_true]
      refine .step (.claim hclaimable hrev hbudget fun a ha hclash ↦ ?_)
      exact hfresh a (mem_attemptsOf.mp ha).1 (Or.inl hclash)
    · left
      rw [course, hget]
      simp [hid, hdid]

theorem course_retry (deliveryId : String) {payloadDelivery idempotencyKey requestedBy : String}
    {expectedRevision : ℕ} {now : DateTime} {result : RetryResult}
    (h : Repository.requestManualRetry X L payloadDelivery expectedRevision idempotencyKey
      requestedBy now = .ok (L', result)) :
    L'.course deliveryId = L.course deliveryId ∨
      MachineStep X (L.course deliveryId) (.rescheduled now) (L'.course deliveryId) := by
  rcases Repository.of_requestManualRetry h with rfl | h
  · exact Or.inl rfl
  obtain ⟨d, hd, rfl, hrev, hstatus, ⟨L₁, hins, hL'⟩, -⟩ :=
    Repository.scheduleManualRetry_eq_ok.mp h
  obtain ⟨-, T, -, rfl⟩ := insertRetryRequest_eq_some.mp hins
  have hdeliveries : L'.deliveries = L.deliveries.update (fun b ↦ decide (b.id = payloadDelivery))
      (Delivery.rescheduled (d.revision + 1) now) (Delivery.keeps_rescheduled _ _) := by rw [hL']
  have hattempts : L'.attempts = L.attempts := by rw [hL']
  rw [course_update_deliveries hdeliveries hattempts]
  cases hcourse : L.course deliveryId with
  | none => exact Or.inl rfl
  | some c =>
    obtain ⟨hget, -⟩ := course_eq_some.mp hcourse
    simp only [Option.map_some, decide_eq_true_eq]
    split
    · next hid =>
      right
      rw [course_delivery_id hcourse] at hid
      subst hid
      rw [hget, Option.some_inj] at hd
      subst hd
      exact .step (.reschedule hstatus.1 hrev)
    · exact Or.inl rfl

theorem course_create (deliveryId : String) {intent : Public.IntentPersistence}
    {nonces : Public.Nonces} {now : DateTime} {receipt : TransactionalIntentReceipt}
    (hlinked : Linked X L)
    (h : Public.persistIntent X protector L intent nonces now = .ok (L', receipt)) :
    L'.course deliveryId = L.course deliveryId ∨
      MachineStep X (L.course deliveryId) .opened (L'.course deliveryId) := by
  obtain ⟨⟨hattempts, -⟩, hsame | ⟨intentId, hins⟩⟩ := Public.frame_of_persistIntent h
  · exact Or.inl (course_congr hsame hattempts)
  have hof : L'.attemptsOf deliveryId = L.attemptsOf deliveryId := by
    rw [attemptsOf, hattempts, attemptsOf]
  rw [course, course, hof, Table.get?_insert? hins]
  split
  · next hid =>
    right
    have hfresh : L.deliveries.get? deliveryId = none := by
      refine Table.get?_eq_none.mpr fun d hd hkey ↦ ?_
      exact (Table.insert?_eq_some.mp hins).1 d hd (Or.inl (hkey.trans hid.symm))
    rw [hfresh, hlinked.attemptsOf_eq_nil hfresh]
    exact .opened
  · exact Or.inl rfl

end Operations

/-! ## The simulation -/

section Simulation

variable {X : Externals} {protector : SnapshotProtector} {L L' : Ledger} {deliveryId : String}

/-- The course events a transaction can show in the ledger it starts from. -/
inductive Transaction.Shows (X : Externals) (L : Ledger) : Transaction → Course.Event → Prop
  | create {intent : Public.IntentPersistence} {nonces : Public.Nonces} {now : DateTime} :
      Shows X L (.create intent nonces now) .opened
  | claim {locked : String → Bool} {now : DateTime} : Shows X L (.claim locked now) (.claimed now)
  | dispatch {event : ObservationEnvelope} {payload : EmailDispatchObserved}
      (hfresh : L.consumedEvents.get? event.id = none)
      (hpayload : Events.observationOf X event = .ok (.dispatch payload)) :
      Shows X L (.observe event) (.dispatchObserved payload)
  | receipt {event : ObservationEnvelope} {payload : EmailReceiptObserved} {d : Delivery}
      {a : Attempt} (hfresh : Events.Fresh X L event payload d a) :
      Shows X L (.observe event) (.receiptObserved payload)
  | lifecycle {event : ObservationEnvelope} {payload : OrganizationInvitationLifecycle}
      (hfresh : L.consumedEvents.get? event.id = none)
      (hpayload : Events.observationOf X event = .ok (.lifecycle payload)) :
      Shows X L (.observe event) (.cancelled event)
  | retry {deliveryId idempotencyKey requestedBy : String} {expectedRevision : ℕ}
      {now : DateTime} :
      Shows X L (.retry deliveryId expectedRevision idempotencyKey requestedBy now)
        (.rescheduled now)

theorem course_observe (deliveryId : String) {event : ObservationEnvelope}
    (h : Events.apply X L event = .ok L') :
    L'.course deliveryId = L.course deliveryId ∨
      ∃ e, Transaction.Shows X L (.observe event) e ∧
        MachineStep X (L.course deliveryId) e (L'.course deliveryId) := by
  obtain ⟨observation, hpayload, hrecord⟩ := Events.apply_eq_ok.mp h
  obtain ⟨hbound, ⟨_, -, -, rfl⟩ | ⟨hfresh, L₁, hins, hrun⟩⟩ :=
    Events.recordOnce_eq_ok.mp hrecord
  · exact Or.inl rfl
  obtain ⟨-, T, -, rfl⟩ := Ledger.insertConsumedEvent_eq_some.mp hins
  have hcourse : ({ L with consumedEvents := T } : Ledger).course deliveryId =
      L.course deliveryId := rfl
  cases observation with
  | dispatch payload =>
    have hstep := course_observeDispatch deliveryId hrun
    rw [hcourse] at hstep
    exact hstep.imp_right fun hstep ↦ ⟨_, .dispatch hfresh hpayload, hstep⟩
  | receipt payload =>
    have hstep := course_observeReceipt deliveryId hrun
    rw [hcourse] at hstep
    refine hstep.imp_right ?_
    rintro ⟨htexts, ⟨d, a, hsettles⟩, hidentity, hmachine⟩
    have hsettles' : Events.Settles L payload d a :=
      ⟨hsettles.unknown, hsettles.texts, hsettles.rows, hsettles.run, hsettles.opened,
        hsettles.revision⟩
    have hbound' : Storable [event.id, payload.source, payload.remoteId] :=
      Storable.cons_iff.mpr ⟨(Storable.cons_iff.mp hbound).1, htexts⟩
    exact ⟨_, .receipt ⟨hpayload, hfresh, hbound', hsettles', hidentity⟩, hmachine⟩
  | lifecycle payload =>
    have hstep := course_observeLifecycle (X := X) deliveryId hrun
    rw [hcourse] at hstep
    exact hstep.imp_right fun hstep ↦ ⟨_, .lifecycle hfresh hpayload, hstep⟩

/-- **The step lemma.** A committed transaction leaves a course alone or shows one event of it. -/
theorem course_step (deliveryId : String) {t : Transaction} (hlinked : Linked X L)
    (h : t.run X protector L = .ok L') :
    L'.course deliveryId = L.course deliveryId ∨
      ∃ e, t.Shows X L e ∧ MachineStep X (L.course deliveryId) e (L'.course deliveryId) := by
  cases t with
  | create intent nonces now =>
    obtain ⟨receipt, h⟩ := fst_map_eq_ok.mp h
    exact (course_create deliveryId hlinked h).imp_right fun hstep ↦ ⟨_, .create, hstep⟩
  | claim locked now =>
    rcases of_claimOneDue h with rfl | ⟨row, work, hd, hclaimable, -, h⟩
    · exact Or.inl rfl
    · exact (course_claim deliveryId hd hclaimable h).imp_right fun hstep ↦ ⟨_, .claim, hstep⟩
  | observe event => exact course_observe deliveryId h
  | retry payloadDelivery expectedRevision idempotencyKey requestedBy now =>
    obtain ⟨result, h⟩ := fst_map_eq_ok.mp h
    exact (course_retry deliveryId h).imp_right fun hstep ↦ ⟨_, .retry, hstep⟩

/-- **Refinement.** The machine of one delivery simulates the ledger. -/
theorem course_simulation (deliveryId : String) :
    Lts.Simulation (transactions X protector) (Course.machine X)
      fun L c ↦ L.course deliveryId = c where
  start := by
    rintro L rfl
    exact ⟨none, rfl, rfl⟩
  step := by
    rintro L t L' c hreach rfl hstep
    rcases course_step deliveryId (linked_of_reachable hreach) hstep with
      hsame | ⟨e, -, hstep⟩
    · exact Or.inl hsame
    · exact Or.inr ⟨e, _, hstep, rfl⟩

theorem reachable_course (h : (transactions X protector).Reachable L) (deliveryId : String) :
    (Course.machine X).Reachable (L.course deliveryId) := by
  obtain ⟨c, hc, rfl⟩ := (course_simulation deliveryId).reachable h
  exact hc

/-- **Every course of a reachable ledger is sound.** -/
theorem sound_course (h : (transactions X protector).Reachable L) {c : Course}
    (hc : L.course deliveryId = some c) : c.Sound X :=
  Course.sound_of_reachable (hc ▸ reachable_course h deliveryId)

end Simulation

end NotificationLedger

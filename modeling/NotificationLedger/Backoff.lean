import NotificationLedger.Cancellation
import NotificationLedger.NoRepeat

/-!
# Backoff

A temporary failure schedules the next attempt at the later of two times: the policy's delay after
the observation, and the provider's own. From there to the claim of that attempt the schedule stays
what it was (`Awaits`), unless an administrator moves it. After the last attempt of the budget there
is no schedule at all.
-/

namespace NotificationLedger

open Outcome

/-! ## The schedule

The next time is the later of the policy's and the provider's, and it is stored with the precision
of the column; rounding goes down on both sides of the comparison. -/

theorem DateTime.stored_mono {t u : DateTime} (h : t ≤ u) : t.stored ≤ u.stored :=
  Int.tdiv_le_tdiv (by decide) h

namespace Events

variable {payload : EmailDispatchObserved} {nextAt : DateTime}

theorem le_retryAt (payload : EmailDispatchObserved) (nextAt : DateTime) :
    nextAt ≤ retryAt payload nextAt := by
  unfold retryAt
  split
  · exact le_max_left _ _
  · exact le_rfl

/-- The provider's own delay counts as long as it is at most a day. -/
theorem addMilliseconds_le_retryAt {failure : SanitizedFailure} {delay : UInt64}
    (hfailure : payload.failure = some failure) (hdelay : failure.retryAfterMs = some delay)
    (hbound : delay.toNat ≤ 86400000) :
    payload.observedAt.addMilliseconds delay.toNat ≤ retryAt payload nextAt := by
  have hmin : min (delay.toNat : ℤ) 86400000 = delay.toNat := by omega
  rw [retryAt, hfailure, Option.bind_some, hdelay]
  simp only [hmin]
  exact Int.le_max_right _ _

/-- The provider's own delay in a valid temporary failure is at most a day. -/
theorem delay_of_validShape (h : validShape payload = true)
    (houtcome : payload.outcome = .temporaryFailure) {failure : SanitizedFailure}
    (hfailure : payload.failure = some failure) {delay : UInt64}
    (hdelay : failure.retryAfterMs = some delay) : delay.toNat ≤ 86400000 := by
  simp only [validShape, houtcome, hfailure, Option.any_some, hdelay, Option.all_some,
    Bool.and_eq_true, decide_eq_true_eq] at h
  exact h.2.2

end Events

/-- The delay of the policy after each attempt that leaves another one. -/
theorem Delivery.nextAttempt_eq {d : Delivery} (observedAt : DateTime) (hmax : d.maxAttempts = 4) :
    (d.attemptCount = 1 → d.nextAttempt observedAt = some (observedAt.addSeconds 60)) ∧
      (d.attemptCount = 2 → d.nextAttempt observedAt = some (observedAt.addSeconds 300)) ∧
      (d.attemptCount = 3 → d.nextAttempt observedAt = some (observedAt.addSeconds 1800)) ∧
      (d.attemptCount = 4 → d.nextAttempt observedAt = none) := by
  refine ⟨fun h ↦ ?_, fun h ↦ ?_, fun h ↦ ?_, fun h ↦ ?_⟩ <;>
    rw [Delivery.nextAttempt, hmax, h] <;> rfl

/-! ## Waiting for the next attempt

`Awaits` fixes the schedule and the count of a delivery; it also admits that the delivery is
accepted or final, or was attempted again. A manual retry is the one event of a course that leads
out of it. -/

/-- After `n` attempts the delivery waits until the scheduled time, was handed over for the last
time, or was attempted again. -/
def Delivery.Awaits (n : ℕ) (scheduled : Timestamp) (d : Delivery) : Prop :=
  (d.status = .retryScheduled ∧ d.attemptCount = n ∧ d.nextAttemptAt = some scheduled) ∨
    d.Settled ∨ n < d.attemptCount

/-- Only a manual retry moves the schedule. -/
theorem Course.Step.awaits {X : Externals} {c c' : Course} {e : Course.Event} {n : ℕ}
    {scheduled : Timestamp} (hstep : Course.Step X c e c') (he : ∀ now, e ≠ .rescheduled now)
    (h : c.delivery.Awaits n scheduled) : c'.delivery.Awaits n scheduled := by
  rcases h with ⟨hstatus, hcount, hscheduled⟩ | hsettled | hlater
  · cases hstep with
    | claim => exact Or.inr (Or.inr (hcount ▸ Nat.lt_succ_self _))
    | resolve hattempting => cases hattempting.symm.trans hstatus
    | absorb => exact Or.inl ⟨hstatus, hcount, hscheduled⟩
    | settle hopen => rcases hopen with hopen | hopen <;> cases hopen.symm.trans hstatus
    | cancel => exact Or.inr (Or.inl (Or.inr rfl))
    | reschedule => exact absurd rfl (he _)
  · exact Or.inr (Or.inl (hstep.settled hsettled))
  · refine Or.inr (Or.inr ?_)
    cases hstep with
    | claim => exact Nat.lt_succ_of_lt hlater
    | resolve => exact hlater.trans_eq (Delivery.afterDispatch_counts _ _).1.symm
    | settle => exact hlater.trans_eq (Delivery.afterReceipt_counts _ _).1.symm
    | absorb | cancel | reschedule => exact hlater

/-! ## Runs

The events of a course are turned into labels of the system here: what must not occur in the run is
a manual retry that is accepted and is no replay. -/

section Runs

variable {S : Setting} {s s' : System} {deliveryId : String} {l : Command × Reply}

/-- A manual retry of this delivery is accepted. The replay of an earlier one accepts nothing: it
is answered alike, but moves no schedule. -/
def AcceptsRetry (deliveryId : String) (l : Command × Reply) : Prop :=
  ∃ caller request now result, l = (.retryDelivery caller request now, .retry (.ok result)) ∧
    request.deliveryId = deliveryId ∧ result.idempotentReplay = false

/-- A manual retry reschedules no other delivery, and its replay none at all. -/
theorem Repository.deliveries_of_requestManualRetry {X : Externals} {L L' : Ledger}
    {target idempotencyKey requestedBy : String} {expectedRevision : ℕ} {now : DateTime}
    {result : RetryResult}
    (h : requestManualRetry X L target expectedRevision idempotencyKey requestedBy now =
      .ok (L', result)) (hne : target = deliveryId → result.idempotentReplay ≠ false) :
    L'.deliveries.get? deliveryId = L.deliveries.get? deliveryId := by
  rcases of_requestManualRetry h with rfl | h
  · rfl
  obtain ⟨d, -, -, -, -, ⟨L₁, hins, rfl⟩, rfl⟩ := scheduleManualRetry_eq_ok.mp h
  refine Table.get?_update_of_not (Delivery.keeps_rescheduled _ _) fun a ha ↦ ?_
  have hid : a.id = deliveryId := (Table.get?_eq_some.mp ha).2
  rw [decide_eq_false_iff_not, hid]
  exact fun heq ↦ hne heq.symm rfl

theorem Ledger.HoldsDelivery.awaits {n : ℕ} {scheduled : Timestamp}
    (h : s.ledger.HoldsDelivery deliveryId (Delivery.Awaits n scheduled))
    (hreach : (system S).Reachable s) (hstep : (system S).Step s l s')
    (hretry : ¬AcceptsRetry deliveryId l) :
    s'.ledger.HoldsDelivery deliveryId (Delivery.Awaits n scheduled) := by
  obtain ⟨d, hd, hawaits⟩ := h
  have hcourse : s.ledger.course deliveryId = some ⟨d, s.ledger.attemptsOf deliveryId⟩ :=
    Ledger.course_eq_some.mpr ⟨hd, rfl⟩
  rcases course_of_step deliveryId hreach hstep with hsame | ⟨t, e, hissues, hshows, hmachine⟩
  · exact ⟨d, (Ledger.course_eq_some.mp (hsame.trans hcourse)).1, hawaits⟩
  by_cases he : ∀ now, e ≠ .rescheduled now
  · rw [hcourse] at hmachine
    generalize hafter : s'.ledger.course deliveryId = after at hmachine
    cases hmachine with
    | step hmove => exact ⟨_, (Ledger.course_eq_some.mp hafter).1, hmove.awaits he hawaits⟩
  · -- the retry of another delivery, or a replay
    push Not at he
    obtain ⟨now, rfl⟩ := he
    obtain ⟨command, reply⟩ := l
    cases hshows with
    | retry =>
      cases hissues with
      | @retry caller requestedBy request now result hcaller =>
        have hne : request.deliveryId = deliveryId → result.idempotentReplay ≠ false :=
          fun hid hreplay ↦ hretry ⟨_, _, _, _, rfl, hid, hreplay⟩
        refine ⟨d, ?_, hawaits⟩
        cases System.stepped_of_exec hstep with
        | retryScheduled _ h =>
          exact (Repository.deliveries_of_requestManualRetry h hne).trans hd

theorem Ledger.HoldsDelivery.awaits_run {n : ℕ} {scheduled : Timestamp}
    {ms : List (Command × Reply)}
    (h : s.ledger.HoldsDelivery deliveryId (Delivery.Awaits n scheduled))
    (hreach : (system S).Reachable s) (hrun : (system S).Run s ms s')
    (hretry : ∀ m ∈ ms, ¬AcceptsRetry deliveryId m) :
    s'.ledger.HoldsDelivery deliveryId (Delivery.Awaits n scheduled) := by
  induction hrun with
  | nil => exact h
  | snoc hrun hlast ih =>
    exact (ih fun m hm ↦ hretry m (List.mem_append_left _ hm)).awaits (hreach.run hrun) hlast
      (hretry _ (by simp))

/-! ## The temporary failure

The step that records the failure, and the row it leaves: scheduled if the budget has an attempt
left, failed if it has none. -/

/-- The step records `observed`, a valid temporary failure, for attempt `n` of the delivery, which
was in flight until then. -/
structure FailsTemporarily (S : Setting) (s : System) (l : Command × Reply) (s' : System)
    (deliveryId : String) (n : ℕ) (observed : EmailDispatchObserved) : Prop where
  label : ∃ i response claim,
    l = (.advance i (.answered (.response response)), .dispatched claim (.ok observed)) ∧
      Plugin.dispatchObservation S claim response = .ok observed ∧ claim.deliveryId = deliveryId
  outcome : observed.outcome = .temporaryFailure
  before : ∃ a ∈ s.ledger.attemptsOf deliveryId, a.id = observed.attemptId ∧ a.sequence = n ∧
    a.status = .dispatching
  after : ∃ a ∈ s'.ledger.attemptsOf deliveryId, a.id = observed.attemptId ∧
    a.status = .temporaryFailure

theorem FailsTemporarily.validShape {n : ℕ} {observed : EmailDispatchObserved}
    (h : FailsTemporarily S s l s' deliveryId n observed) :
    Events.validShape observed = true := by
  obtain ⟨_, _, _, -, hobserved, -⟩ := h.label
  exact Plugin.validShape_of_response hobserved

/-- The observation that is recorded is the one that is answered. -/
theorem observedOf_of_dispatchReply {claim : DispatchClaim} (now : DateTime)
    {response : Plugin.DispatchResponse} {observed : EmailDispatchObserved}
    (h : Plugin.dispatchReply S claim (.response response) = .ok observed) :
    Plugin.observedOf S claim now (.response response) = observed := by
  simp only [Plugin.dispatchReply, Plugin.observedOf] at h ⊢
  cases hobserved : Plugin.dispatchObservation S claim response with
  | error e =>
    rw [hobserved] at h
    cases h
  | ok o =>
    rw [hobserved] at h
    cases h
    rfl

/-- **What a temporary failure does to its delivery.** -/
theorem FailsTemporarily.delivery {n : ℕ} {observed : EmailDispatchObserved}
    (h : FailsTemporarily S s l s' deliveryId n observed) (hreach : (system S).Reachable s)
    (hstep : (system S).Step s l s') :
    ∃ d, s.ledger.deliveries.get? deliveryId = some d ∧ d.attemptCount = n ∧ d.maxAttempts = 4 ∧
      s'.ledger.deliveries.get? deliveryId = some (d.afterDispatch observed) := by
  obtain ⟨⟨i, response, claim, rfl, -, hdelivery⟩, houtcome,
    ⟨a, ha, haid, hseq, hdispatching⟩, ⟨b, hb, hbid, hfailed⟩⟩ := h
  have hlinked := linked_of_reachable (reachable_ledger hreach)
  obtain ⟨hamem, had⟩ := Ledger.mem_attemptsOf.mp ha
  obtain ⟨d, hd, hdid⟩ := hlinked.attempts a hamem
  have hget : s.ledger.deliveries.get? deliveryId = some d :=
    Table.get?_eq_some.mpr ⟨hd, hdid.trans had⟩
  have hcourse : s.ledger.course deliveryId = some ⟨d, s.ledger.attemptsOf deliveryId⟩ :=
    Ledger.course_eq_some.mpr ⟨hget, rfl⟩
  have hsound := sound_course (reachable_ledger hreach) hcourse
  refine ⟨d, hget, (hsound.sequence_eq ha hdispatching).symm.trans hseq, hsound.maxAttempts, ?_⟩
  rcases course_of_step deliveryId hreach hstep with hsame | ⟨t, e, hissues, hshows, hmachine⟩
  · -- the status of the attempt changes
    have hkept := (Ledger.course_eq_some.mp (hsame.trans hcourse)).2
    rw [← hkept] at hb
    have hab := hsound.eq_of_id ha hb (haid.trans hbid.symm)
    rw [hab, hfailed] at hdispatching
    cases hdispatching
  rw [hcourse] at hmachine
  generalize hafter : s'.ledger.course deliveryId = after at hmachine
  generalize hreply : Reply.dispatched claim (.ok observed) = reply at hissues
  cases hissues with
  | @answer _ now work _ hc =>
    simp only [Reply.dispatched.injEq] at hreply
    obtain ⟨rfl, hreply⟩ := hreply
    have hobserved := observedOf_of_dispatchReply now hreply.symm
    rw [hobserved] at hshows
    cases hshows with
    | dispatch _ hpayload =>
      cases Plugin.dispatch_of_dispatchEnvelope hpayload
      cases hmachine with
      | step hmove =>
        cases hmove with
        | resolve => exact (Ledger.course_eq_some.mp hafter).1
        | absorb _ _ hlate =>
          -- a temporary failure that comes late is no evidence
          rw [houtcome] at hlate
          rcases hlate with ⟨-, h⟩ | ⟨-, h⟩ <;> cases h
    | receipt hfresh => cases Plugin.dispatch_of_dispatchEnvelope hfresh.admitted
    | lifecycle _ hpayload => cases Plugin.dispatch_of_dispatchEnvelope hpayload

/-! ## The claim of the next attempt

The clock of a claim is that of the worker's call, read when the call started. The row it selects is
due at that time, and the row lock keeps it so until the claim. -/

/-- A worker whose call has read the time `t` claims attempt `n` of the delivery. -/
def ClaimsAttempt (s : System) (l : Command × Reply) (s' : System) (deliveryId : String) (n : ℕ)
    (t : DateTime) : Prop :=
  ∃ j row work, s.calls[j]? = some (.dispatch t (.selected row)) ∧
    l = (.advance j .proceed, .claimed work) ∧ work.claim.deliveryId = deliveryId ∧
    ∃ a ∈ s'.ledger.attempts.rows, a.id = work.claim.attemptId ∧ a.sequence = n

/-- What is claimed is due. -/
theorem due_of_claimsAttempt (hreach : (system S).Reachable s) (hstep : (system S).Step s l s')
    {n : ℕ} {t : DateTime} (h : ClaimsAttempt s l s' deliveryId n t) :
    ∃ d, s.ledger.deliveries.get? deliveryId = some d ∧ d.status.isClaimable = true ∧
      d.attemptCount + 1 = n ∧ ∃ scheduled ∈ d.nextAttemptAt, scheduled ≤ t.stored := by
  obtain ⟨j, row, work, hc, rfl, hdelivery, a, ha, haid, hseq⟩ := h
  obtain ⟨hget, hdue, -⟩ := System.holds_of_reachable hreach _ _ (List.mem_of_getElem? hc)
  obtain ⟨hclaimable, hscheduled, -⟩ := Runtime.isDue_iff.mp hdue
  cases System.stepped_of_exec hstep with
  | advanced hc' hadvance =>
    cases hc.symm.trans hc'
    cases hadvance with
    | claimed hclaim =>
      obtain ⟨-, -, -, hwork, L₁, hins, rfl⟩ := (Runtime.claimRow_eq_ok hget hclaimable).mp hclaim
      rw [hwork] at hdelivery haid
      obtain ⟨-, T, hT, rfl⟩ := Ledger.insertAttempt_eq_some.mp hins
      have hnew := (Table.mem_insert? hT).mpr (Or.inr rfl)
      have hrow := Table.eq_of_key ha hnew haid
      rw [hrow] at hseq
      exact ⟨row.delivery, hdelivery ▸ hget, hclaimable, hseq, hscheduled⟩

theorem not_claimsAttempt_of_settled {s₁ s₂ s₃ : System} {l' : Command × Reply}
    {ms : List (Command × Reply)} {n : ℕ} {t : DateTime} (hreach : (system S).Reachable s₁)
    (hsettled : s₁.ledger.HoldsDelivery deliveryId Delivery.Settled)
    (hrun : (system S).Run s₁ ms s₂) (hstep : (system S).Step s₂ l' s₃) :
    ¬ClaimsAttempt s₂ l' s₃ deliveryId n t := by
  rintro ⟨j, row, work, -, rfl, hid, -⟩
  exact not_claimed_of_settled hreach hsettled hrun hstep hid

/-- An attempt that is claimed after a temporary failure was scheduled by it. -/
theorem scheduled_of_claimsAttempt {s₁ s₂ s₃ : System} {l' : Command × Reply}
    {ms : List (Command × Reply)} {t : DateTime} {observed : EmailDispatchObserved}
    {d : Delivery} (houtcome : observed.outcome = .temporaryFailure)
    (hreach : (system S).Reachable s₁)
    (hafter : s₁.ledger.deliveries.get? deliveryId = some (d.afterDispatch observed))
    (hrun : (system S).Run s₁ ms s₂) (hretry : ∀ m ∈ ms, ¬AcceptsRetry deliveryId m)
    (hstep : (system S).Step s₂ l' s₃)
    (hclaims : ClaimsAttempt s₂ l' s₃ deliveryId (d.attemptCount + 1) t) :
    ∃ next, d.nextAttempt observed.observedAt = some next ∧
      (Events.retryAt observed next).stored ≤ t.stored := by
  rw [Delivery.afterDispatch, houtcome] at hafter
  simp only at hafter
  cases hnext : d.nextAttempt observed.observedAt with
  | none =>
    rw [hnext] at hafter
    have hsettled : s₁.ledger.HoldsDelivery deliveryId Delivery.Settled :=
      ⟨_, hafter, Or.inr rfl⟩
    exact absurd hclaims (not_claimsAttempt_of_settled hreach hsettled hrun hstep)
  | some next =>
    rw [hnext] at hafter
    refine ⟨next, rfl, ?_⟩
    have hholds : s₁.ledger.HoldsDelivery deliveryId
        (Delivery.Awaits d.attemptCount (Events.retryAt observed next).stored) :=
      ⟨_, hafter, Or.inl ⟨rfl, rfl, rfl⟩⟩
    obtain ⟨b, hb, hawaits⟩ := hholds.awaits_run hreach hrun hretry
    obtain ⟨b', hb', hclaimable, hbcount, u, hu, hle⟩ :=
      due_of_claimsAttempt (hreach.run hrun) hstep hclaims
    cases hb.symm.trans hb'
    rcases hawaits with ⟨-, -, hnextAt⟩ | hsettled | hlater
    · cases hnextAt.symm.trans hu
      exact hle
    · rw [hsettled.not_isClaimable] at hclaimable
      cases hclaimable
    · omega

end Runs

/-! ## The main result -/

/-- **Automatic retries respect backoff.** After attempt `n` failed temporarily, the next attempt is
not claimed before the policy's delay after the observation has passed, nor before the provider's,
unless a manual retry was accepted in between; the replay of an older one is none. After the last
attempt of the budget the delivery is failed, and no attempt of it is ever claimed. -/
theorem backoff_of_run {S : Setting} {s s₁ : System} {l : Command × Reply} {deliveryId : String}
    {n : ℕ} {observed : EmailDispatchObserved} (hreach : (system S).Reachable s)
    (hstep : (system S).Step s l s₁)
    (hfails : FailsTemporarily S s l s₁ deliveryId n observed) :
    (∀ ms s₂ l' s₃ t, (system S).Run s₁ ms s₂ → (∀ m ∈ ms, ¬AcceptsRetry deliveryId m) →
      (system S).Step s₂ l' s₃ → ClaimsAttempt s₂ l' s₃ deliveryId (n + 1) t →
      (n = 1 → (observed.observedAt.addSeconds 60).stored ≤ t.stored) ∧
      (n = 2 → (observed.observedAt.addSeconds 300).stored ≤ t.stored) ∧
      (n = 3 → (observed.observedAt.addSeconds 1800).stored ≤ t.stored) ∧
      ∀ failure ∈ observed.failure, ∀ delay ∈ failure.retryAfterMs,
        (observed.observedAt.addMilliseconds delay.toNat).stored ≤ t.stored) ∧
    ∀ d, s.ledger.deliveries.get? deliveryId = some d → n = d.maxAttempts →
      s₁.ledger.HoldsDelivery deliveryId
        (fun d' ↦ d'.status = .failed ∧ d'.finalReason = some "retry_exhausted") ∧
      ∀ ms s₂ l' s₃ m t, (system S).Run s₁ ms s₂ → (system S).Step s₂ l' s₃ →
        ¬ClaimsAttempt s₂ l' s₃ deliveryId m t := by
  obtain ⟨d, hd, rfl, hmax, hafter⟩ := hfails.delivery hreach hstep
  obtain ⟨hone, htwo, hthree, hfour⟩ := Delivery.nextAttempt_eq observed.observedAt hmax
  have hreach₁ := hreach.step hstep
  refine ⟨?_, ?_⟩
  · intro ms s₂ l' s₃ t hrun hretry hlast hclaims
    obtain ⟨next, hnext, hscheduled⟩ := scheduled_of_claimsAttempt hfails.outcome hreach₁ hafter
      hrun hretry hlast hclaims
    have hdelay : ∀ u, d.nextAttempt observed.observedAt = some u → u.stored ≤ t.stored := by
      intro u hu
      cases hnext.symm.trans hu
      exact (DateTime.stored_mono (Events.le_retryAt observed next)).trans hscheduled
    refine ⟨fun hn ↦ hdelay _ (hone hn), fun hn ↦ hdelay _ (htwo hn),
      fun hn ↦ hdelay _ (hthree hn), fun failure hfailure delay hprovider ↦ ?_⟩
    have hbound := Events.delay_of_validShape hfails.validShape hfails.outcome hfailure hprovider
    exact (DateTime.stored_mono
      (Events.addMilliseconds_le_retryAt hfailure hprovider hbound)).trans hscheduled
  · -- after the last attempt the delivery is settled at once
    intro d' hd' hn
    cases hd.symm.trans hd'
    have hfinal : (d.afterDispatch observed).status = .failed ∧
        (d.afterDispatch observed).finalReason = some "retry_exhausted" := by
      rw [Delivery.afterDispatch, hfails.outcome]
      simp only [hfour (hn.trans hmax)]
      exact ⟨rfl, rfl⟩
    refine ⟨⟨_, hafter, hfinal⟩, fun ms s₂ l' s₃ m t hrun hlast ↦ ?_⟩
    exact not_claimsAttempt_of_settled hreach₁ ⟨_, hafter, Or.inr (by rw [hfinal.1]; rfl)⟩ hrun
      hlast

namespace Deployment

/-- The provider refuses the first attempt for now. -/
theorem refusal_runs :
    ((awaiting.exec setting (.advance 1 (.answered refusal))).any fun p : System × Reply ↦
      (p.1.ledger.attemptsOf delivery.id).any fun a : Attempt ↦ decide (a.id = attempt.id) &&
        decide (a.status = .temporaryFailure)) = true := by
  decide +kernel

/-- The observation of that refusal. -/
def refusalObserved : EmailDispatchObserved := Plugin.observedOf setting work.claim midnight refusal

theorem exists_refusal :
    ∃ s₁, (system setting).Step awaiting
        (.advance 1 (.answered refusal), .dispatched work.claim (.ok refusalObserved)) s₁ ∧
      FailsTemporarily setting awaiting
        (.advance 1 (.answered refusal), .dispatched work.claim (.ok refusalObserved)) s₁
        delivery.id 1 refusalObserved := by
  obtain ⟨⟨s₁, reply⟩, hexec, hafter⟩ := (Option.any_eq_true _ _).mp refusal_runs
  obtain ⟨a, ha, hattempt⟩ := List.any_eq_true.mp hafter
  simp only [Bool.and_eq_true, decide_eq_true_eq] at hattempt
  have hstep : (system setting).Step awaiting (.advance 1 (.answered refusal), reply) s₁ := hexec
  have hreply : reply = .dispatched work.claim (.ok refusalObserved) := by
    cases System.stepped_of_exec hstep with
    | advanced hc hadvance =>
      cases hc
      cases hadvance with
      | recorded => rfl
      | lost =>
        -- the ledger would still hold the attempt in flight
        have hsame : ∀ b ∈ awaiting.ledger.attemptsOf delivery.id,
            b.status ≠ .temporaryFailure := by decide
        exact absurd hattempt.2 (hsame a ha)
  subst hreply
  refine ⟨s₁, hstep, ⟨⟨1, _, work.claim, rfl, rfl, rfl⟩, rfl, ?_, a, ha, hattempt⟩⟩
  exact ⟨attempt, by decide, rfl, rfl, rfl⟩

end Deployment

/-- The second attempt of a delivery whose first one was refused at midnight. -/
theorem backoff_of_run_refused :
    ∃ s₁, s₁.ledger.HoldsDelivery Deployment.delivery.id (fun d ↦ d.status = .retryScheduled) ∧
      ∀ ms s₂ l' s₃ t, (system Deployment.setting).Run s₁ ms s₂ →
        (∀ m ∈ ms, ¬AcceptsRetry Deployment.delivery.id m) →
        (system Deployment.setting).Step s₂ l' s₃ →
        ClaimsAttempt s₂ l' s₃ Deployment.delivery.id 2 t →
        (Deployment.midnight.addSeconds 60).stored ≤ t.stored := by
  obtain ⟨s₁, hstep, hfails⟩ := Deployment.exists_refusal
  refine ⟨s₁, ?_, fun ms s₂ l' s₃ t hrun hretry hlast hclaims ↦ ?_⟩
  · obtain ⟨d, hd, -, -, hafter⟩ := hfails.delivery Deployment.reachable_awaiting hstep
    have hrow : Deployment.awaiting.ledger.deliveries.get? Deployment.delivery.id =
        some Deployment.delivery := by decide
    cases hrow.symm.trans hd
    exact ⟨_, hafter, by decide⟩
  · exact ((backoff_of_run Deployment.reachable_awaiting hstep hfails).1 ms s₂ l' s₃ t hrun hretry
      hlast hclaims).1 rfl

end NotificationLedger

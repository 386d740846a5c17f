import NotificationLedger.NoRepeat
import NotificationLedger.Receipts

/-!
# Delivery and attempts agree

The status of a delivery and the statuses of its attempts are kept in two tables that six operations
update separately. They agree as long as every receipt that settles a delivery names its newest
attempt; a receipt for an older attempt rewrites that attempt and finalizes the delivery while the
newest attempt is still in flight (`not_agreement_of_step`).

## Where the newest attempt matters

A claim appends the newest attempt, an observation closes the attempt in flight, which is the newest
one, and a retry or a cancellation leaves the attempts alone. Only a receipt names any attempt it
likes. So the two tables agree along every run whose receipts name the newest attempt, and the first
receipt that does not is where they part.
-/

namespace NotificationLedger

open Outcome

/-- The status of the newest attempt, where the row of the delivery determines it. -/
def Delivery.newestAttempt (d : Delivery) : Option AttemptStatus :=
  match d.status with
  | .attempting => some .dispatching
  | .accepted | .delivered => some .accepted
  | .deliveryUnknown => some .deliveryUnknown
  | .retryScheduled => some .temporaryFailure
  | .failed =>
    if d.finalReason ∈ [some "permanent_failure", some "bounced", some "rejected"] then
      some .permanentFailure
    else none
  | .queued => none

/-- A newest attempt with status `s` agrees with the row of its delivery. -/
def Delivery.Admits (d : Delivery) (s : AttemptStatus) : Prop :=
  (s = .dispatching ↔ d.status = .attempting) ∧ ∀ t ∈ d.newestAttempt, s = t

namespace Course

/-- The attempt with the highest sequence. -/
def Newest (c : Course) (a : Attempt) : Prop :=
  a ∈ c.attempts ∧ ∀ b ∈ c.attempts, b.sequence ≤ a.sequence

/-- The delivery and its attempts agree. -/
structure Agrees (c : Course) : Prop where
  older : ∀ a ∈ c.attempts, ¬c.Newest a → a.status = .temporaryFailure
  newest : ∀ a, c.Newest a → c.delivery.Admits a.status
  attempted : c.delivery.newestAttempt.isSome → ∃ a, c.Newest a

/-! ## Agreement by sequence

Attempts are numbered by their order, so the newest one is the one whose sequence is the count of
the delivery. Agreement is stated for the list and used for the numbers. -/

section Sequences

variable {X : Externals} {c : Course} {a : Attempt}

theorem Sound.newest_iff (h : Sound X c) (ha : a ∈ c.attempts) :
    c.Newest a ↔ a.sequence = c.delivery.attemptCount := by
  have hle := h.sequence_le ha
  constructor
  · rintro ⟨-, hmax⟩
    obtain ⟨b, hb, hseq⟩ := h.exists_newest (by omega)
    have hba := hmax b hb
    omega
  · intro hseq
    refine ⟨ha, fun b hb ↦ ?_⟩
    rw [hseq]
    exact (h.sequence_le hb).2

/-- Agreement, stated with the attempt count of the delivery. -/
theorem Sound.agrees_iff (h : Sound X c) :
    c.Agrees ↔
      (∀ a ∈ c.attempts, a.sequence ≠ c.delivery.attemptCount → a.status = .temporaryFailure) ∧
      (∀ a ∈ c.attempts, a.sequence = c.delivery.attemptCount → c.delivery.Admits a.status) ∧
      (c.delivery.newestAttempt.isSome → 0 < c.delivery.attemptCount) := by
  constructor
  · rintro ⟨holder, hnewest, hattempted⟩
    refine ⟨fun a ha hne ↦ ?_, fun a ha hseq ↦ ?_, fun hsome ↦ ?_⟩
    · exact holder a ha (mt (h.newest_iff ha).mp hne)
    · exact hnewest a ((h.newest_iff ha).mpr hseq)
    · obtain ⟨a, ha, -⟩ := hattempted hsome
      have hle := h.sequence_le ha
      omega
  · rintro ⟨holder, hnewest, hattempted⟩
    refine ⟨fun a ha hne ↦ ?_, fun a ha ↦ ?_, fun hsome ↦ ?_⟩
    · exact holder a ha (mt (h.newest_iff ha).mpr hne)
    · exact hnewest a ha.1 ((h.newest_iff ha.1).mp ha)
    · obtain ⟨a, ha, hseq⟩ := h.exists_newest (hattempted hsome)
      exact ⟨a, (h.newest_iff ha).mpr hseq⟩

end Sequences

/-! ## What a row admits after a transformation

One lemma for each transformation, about the row alone: which status of the newest attempt the new
status of the delivery goes with. -/

section Admits

variable (d : Delivery)

theorem admits_claimed (count : ℕ) (now : DateTime) :
    (d.claimed count now).Admits .dispatching := by
  simp [Delivery.Admits, Delivery.claimed, Delivery.newestAttempt]

theorem admits_afterDispatch (payload : EmailDispatchObserved) :
    (d.afterDispatch payload).Admits payload.outcome.attemptStatus := by
  refine ⟨iff_of_false ?_ (Delivery.afterDispatch_ne payload d).2, ?_⟩
  · cases payload.outcome <;> simp [DispatchOutcome.attemptStatus]
  · unfold Delivery.afterDispatch
    cases payload.outcome with
    | temporaryFailure =>
      cases d.nextAttempt payload.observedAt <;>
        simp [Delivery.newestAttempt, Delivery.finalized, Delivery.retryScheduled,
          DispatchOutcome.attemptStatus]
    | accepted | permanentFailure | deliveryUnknown =>
      simp [Delivery.newestAttempt, Delivery.finalized, Delivery.accepted,
        DispatchOutcome.attemptStatus]

theorem admits_afterReceipt (payload : EmailReceiptObserved) :
    (d.afterReceipt payload).Admits payload.kind.attemptStatus := by
  unfold Delivery.afterReceipt
  cases payload.kind <;>
    simp [Delivery.Admits, Delivery.newestAttempt, Delivery.delivered, Delivery.finalized,
      ReceiptKind.attemptStatus, ReceiptKind.asStr]

/-- A cancellation determines nothing about the attempts. -/
theorem newestAttempt_cancelled (event : ObservationEnvelope) :
    (Events.cancelled event d).newestAttempt = none := by
  have hreason : ∀ l : Lifecycle, some ("source_invitation_" ++ l.asStr) ∉
      [some "permanent_failure", some "bounced", some "rejected"] := by
    intro l
    cases l <;> decide
  simp only [Delivery.newestAttempt, Events.cancelled, Delivery.finalized]
  exact if_neg (hreason _)

end Admits

/-! ## One step

The step lemma has the newest attempt as a hypothesis for receipts, and none for the other events. A
second invariant rides along: a temporary failure is overwritten by a receipt only. -/

section Step

variable {X : Externals} {c c' : Course} {e : Event} {d : Delivery} {as : List Attempt}

/-- A step that rewrites the newest attempt keeps the agreement when the new row of the delivery
admits the new status. -/
private theorem Agrees.of_rewrite {f : Attempt → Attempt} {d' : Delivery} {a : Attempt}
    (hsound : Sound X ⟨d, as⟩) (hsound' : Sound X ⟨d', rewrite a.id f as⟩)
    (h : (⟨d, as⟩ : Course).Agrees) (ha : a ∈ as) (hseq : a.sequence = d.attemptCount)
    (hf : (f a).sequence = a.sequence) (hcount : d'.attemptCount = d.attemptCount)
    (hadmits : d'.Admits (f a).status) : (⟨d', rewrite a.id f as⟩ : Course).Agrees := by
  obtain ⟨holder, -, -⟩ := hsound.agrees_iff.mp h
  refine hsound'.agrees_iff.mpr ⟨?_, ?_, ?_⟩
  · intro b hb hne
    obtain ⟨b, hbmem, rfl⟩ := mem_rewrite.mp hb
    by_cases hid : b.id = a.id
    · rw [if_pos hid, hsound.eq_of_id hbmem ha hid, hf, hseq, hcount] at hne
      exact absurd rfl hne
    · rw [if_neg hid, hcount] at hne
      rw [if_neg hid]
      exact holder b hbmem hne
  · intro b hb hbseq
    obtain ⟨b, hbmem, rfl⟩ := mem_rewrite.mp hb
    by_cases hid : b.id = a.id
    · rw [if_pos hid, hsound.eq_of_id hbmem ha hid]
      exact hadmits
    · rw [if_neg hid, hcount] at hbseq
      exact absurd (congrArg Attempt.id (hsound.eq_of_sequence hbmem ha (hbseq.trans hseq.symm)))
        hid
  · intro _
    have hle := (hsound.sequence_le ha).1
    rw [hseq] at hle
    rw [hcount]
    exact hle

/-- An absorbed observation changes no status. -/
private theorem Agrees.absorb {payload : EmailDispatchObserved} (hsound : Sound X ⟨d, as⟩)
    (hsound' : Sound X ⟨d, rewrite payload.attemptId (Attempt.absorbed payload) as⟩)
    (h : (⟨d, as⟩ : Course).Agrees) :
    (⟨d, rewrite payload.attemptId (Attempt.absorbed payload) as⟩ : Course).Agrees := by
  obtain ⟨holder, hnewest, hattempted⟩ := hsound.agrees_iff.mp h
  refine hsound'.agrees_iff.mpr ⟨?_, ?_, hattempted⟩
  · intro b hb
    obtain ⟨b, hbmem, rfl⟩ := mem_rewrite.mp hb
    have hb := holder b hbmem
    split <;> exact hb
  · intro b hb
    obtain ⟨b, hbmem, rfl⟩ := mem_rewrite.mp hb
    have hb := hnewest b hbmem
    split <;> exact hb

private theorem Agrees.claim {now : DateTime} (hsound : Sound X ⟨d, as⟩)
    (hsound' : Sound X ⟨d.claimed (d.attemptCount + 1) now,
      as ++ [Runtime.attemptRow X d.id (d.attemptCount + 1) now]⟩)
    (hclaimable : d.status.isClaimable = true) (h : (⟨d, as⟩ : Course).Agrees) :
    (⟨d.claimed (d.attemptCount + 1) now,
      as ++ [Runtime.attemptRow X d.id (d.attemptCount + 1) now]⟩ : Course).Agrees := by
  obtain ⟨holder, -, -⟩ := hsound.agrees_iff.mp h
  refine hsound'.agrees_iff.mpr ⟨?_, ?_, fun _ ↦ Nat.succ_pos _⟩
  · intro b hb hne
    rcases List.mem_append.mp hb with hb | hb
    · by_cases hseq : b.sequence = d.attemptCount
      · -- it was the newest attempt, and the delivery was claimable
        obtain ⟨b', hb', hseq', hs⟩ := hsound.newest_of_claimable hclaimable
          (lt_of_lt_of_le (hsound.sequence_le hb).1 (hsound.sequence_le hb).2)
        rw [hsound.eq_of_sequence hb hb' (hseq.trans hseq'.symm)]
        exact hs
      · exact holder b hb hseq
    · rw [List.mem_singleton.mp hb] at hne
      exact absurd rfl hne
  · intro b hb hseq
    rcases List.mem_append.mp hb with hb | hb
    · have hle := (hsound.sequence_le hb).2
      simp only [Delivery.claimed] at hseq hle
      omega
    · rw [List.mem_singleton.mp hb]
      exact admits_claimed d _ now

/-- **One step keeps the agreement**, if a receipt it shows names the newest attempt. -/
theorem Agrees.step (hsound : Sound X c) (h : c.Agrees) (hstep : Step X c e c')
    (hreceipt : ∀ payload, e = .receiptObserved payload → ∀ a ∈ c.attempts,
      a.id = payload.attemptId → c.Newest a) : c'.Agrees := by
  have hsound' := hsound.step hstep
  cases hstep with
  | claim hclaimable => exact h.claim hsound hsound' hclaimable
  | @resolve d as payload a _ _ ha hid hdispatching =>
    rw [← hid] at hsound' ⊢
    exact h.of_rewrite hsound hsound' ha (hsound.sequence_eq ha hdispatching) rfl
      (Delivery.afterDispatch_counts payload d).1 (admits_afterDispatch d payload)
  | absorb => exact h.absorb hsound hsound'
  | @settle d as payload a _ _ ha hid =>
    have hseq := (hsound.newest_iff ha).mp (hreceipt payload rfl a ha hid)
    rw [← hid] at hsound' ⊢
    exact h.of_rewrite hsound hsound' ha hseq rfl (Delivery.afterReceipt_counts payload d).1
      (admits_afterReceipt d payload)
  | @cancel d as event hclaimable =>
    obtain ⟨holder, hnewest, -⟩ := hsound.agrees_iff.mp h
    refine hsound'.agrees_iff.mpr ⟨holder, fun a ha hseq ↦ ⟨?_, ?_⟩, ?_⟩
    · refine iff_of_false (fun hs ↦ ?_) nofun
      rw [((hnewest a ha hseq).1).mp hs] at hclaimable
      cases hclaimable
    · rw [newestAttempt_cancelled]
      exact nofun
    · rw [newestAttempt_cancelled]
      exact nofun
  | reschedule => exact hsound'.agrees_iff.mpr (hsound.agrees_iff.mp h)

/-- A temporary failure is rewritten neither by a receipt for the newest attempt nor by the
observation of another attempt. -/
theorem Step.keeps_temporaryFailure {a : Attempt} (hsound : Sound X c) (hstep : Step X c e c')
    (hreceipt : ∀ payload, e = .receiptObserved payload → ∀ b ∈ c.attempts,
      b.id = payload.attemptId → c.Newest b)
    (hdispatch : ∀ payload, e = .dispatchObserved payload → payload.attemptId ≠ a.id)
    (ha : a ∈ c.attempts) (hs : a.status = .temporaryFailure) : a ∈ c'.attempts := by
  have hkept : ∀ {attemptId : String} {f : Attempt → Attempt} {as : List Attempt}, a ∈ as →
      attemptId ≠ a.id → a ∈ rewrite attemptId f as := by
    intro attemptId f as hmem hne
    exact mem_rewrite.mpr ⟨a, hmem, if_neg hne.symm⟩
  cases hstep with
  | claim => exact List.mem_append_left _ ha
  | resolve => exact hkept ha (hdispatch _ rfl)
  | absorb => exact hkept ha (hdispatch _ rfl)
  | @settle d as payload b hopen _ hb hid =>
    refine hkept ha fun hclash ↦ ?_
    have hba : b = a := hsound.eq_of_id hb ha (hid.trans hclash)
    have hseq := (hsound.newest_iff ha).mp (hba ▸ hreceipt payload rfl b hb hid)
    -- the newest attempt of an open delivery is in flight or accepted
    rcases hopen with hopen | hopen
    · have hnewest := hsound.newest a ha hseq .dispatching (by rw [hopen]; rfl)
      rw [hs] at hnewest
      cases hnewest
    · have hnewest := hsound.newest a ha hseq .accepted (by rw [hopen]; rfl)
      rw [hs] at hnewest
      cases hnewest
  | cancel | reschedule => exact ha

end Step

end Course

/-! ## Runs in which receipts name the newest attempt

The hypothesis is one on the steps of a run: a receipt call names the newest attempt of its delivery
at that moment. It says nothing about calls of other kinds. -/

/-- If the step is a receipt call whose recording settles a delivery, the receipt names the newest
attempt of that delivery. -/
def NewestReceipt (S : Setting) (s : System) (l : Command × Reply) : Prop :=
  ∀ caller request envelope payload d a, l.1 = .observeReceipt caller request →
    Plugin.receiptEnvelope S caller request = .ok envelope →
    Events.Fresh S.externals s.ledger envelope payload d a →
    Course.Newest ⟨d, s.ledger.attemptsOf d.id⟩ a

section Runs

variable {S : Setting} {ls : List (Command × Reply)} {s s' : System} {l : Command × Reply}
  {t : Transaction} {c : Course} {deliveryId : String} {a : Attempt}

/-- A receipt event of a course is shown by a receipt call for one of its attempts. -/
private theorem newest_of_shows {payload : EmailReceiptObserved}
    (hissues : System.Issues S s l.1 l.2 t)
    (hshows : t.Shows S.externals s.ledger (.receiptObserved payload))
    (hcond : NewestReceipt S s l) (hc : s.ledger.course deliveryId = some c)
    (ha : a ∈ c.attempts) (hid : a.id = payload.attemptId) : c.Newest a := by
  cases hshows with
  | @receipt event _ d b hfresh =>
    obtain ⟨hd, hb, hbd⟩ := Ledger.deliveryWithAttempt_eq_some.mp hfresh.settles.rows
    have hnewest : Course.Newest ⟨d, s.ledger.attemptsOf d.id⟩ b := by
      generalize hcommand : l.1 = command at hissues
      generalize l.2 = reply at hissues
      cases hissues with
      | answer => cases Plugin.dispatch_of_dispatchEnvelope hfresh.admitted
      | receipt henvelope => exact hcond _ _ _ _ d b hcommand henvelope hfresh
      | lifecycle henvelope =>
        obtain ⟨_, h⟩ := Plugin.lifecycle_of_lifecycleEnvelope henvelope hfresh.admitted
        cases h
    -- the attempt is stored once, so its delivery is the one of the course
    obtain ⟨hbmem, hbid⟩ := Table.get?_eq_some.mp hb
    obtain ⟨hamem, had⟩ := (Ledger.mem_course hc).mp ha
    have hba : b = a := Table.eq_of_key hbmem hamem (hbid.trans hid.symm)
    have hdid : d.id = deliveryId := by rw [← hbd, hba, had]
    have hcourse := Ledger.course_of_mem (Table.get?_eq_some.mp hd).1
    rw [hdid, hc, Option.some_inj] at hcourse
    rw [hcourse, ← hba, ← hdid]
    exact hnewest

/-- No worker waits for the answer to an attempt that was already refused. -/
theorem ne_of_awaiting (h : (system S).History ls s) (ha : a ∈ s.ledger.attempts.rows)
    (hs : a.status = .temporaryFailure) {now : DateTime} {work : DispatchWork}
    (hc : Call.dispatch now (.awaiting work) ∈ s.calls) : work.claim.attemptId ≠ a.id := by
  obtain ⟨pre, l, post, _, _, rfl, -, -, hfailed, -, -⟩ := refused_of_history h a ha hs
  obtain ⟨_, _, claim, _, rfl, hid, -⟩ := hfailed.answer
  obtain ⟨-, -, hdisjoint⟩ := List.nodup_append.mp (answered_custody h).once
  intro hclash
  refine hdisjoint a.id ?_ a.id ?_ rfl
  · have hanswered : ∀ command observed,
        answeredAttempt? (command, .dispatched claim (.ok observed)) = some a.id :=
      fun _ _ ↦ congrArg some hid
    exact List.mem_filterMap.mpr
      ⟨_, List.mem_append_right _ List.mem_cons_self, hanswered _ _⟩
  · exact List.mem_filterMap.mpr ⟨_, hc, congrArg some hclash⟩

/-- The observation a step records is not of an attempt that was already refused. -/
private theorem ne_of_shows {payload : EmailDispatchObserved} (h : (system S).History ls s)
    (hissues : System.Issues S s l.1 l.2 t)
    (hshows : t.Shows S.externals s.ledger (.dispatchObserved payload))
    (ha : a ∈ s.ledger.attempts.rows) (hs : a.status = .temporaryFailure) :
    payload.attemptId ≠ a.id := by
  obtain ⟨i, now, work, result, -, -, hc, rfl⟩ := answer_of_shows hissues hshows
  rw [(Plugin.observedOf_claim _ _ _ _).2.1]
  exact ne_of_awaiting h ha hs (List.mem_of_getElem? hc)

/-- Every delivery agrees with its attempts. -/
def Agreement (L : Ledger) : Prop :=
  ∀ deliveryId c, L.course deliveryId = some c → c.Agrees

/-- **One step keeps the agreement.** -/
theorem Agreement.step (hreach : (system S).Reachable s) (h : Agreement s.ledger)
    (hstep : (system S).Step s l s') (hcond : NewestReceipt S s l) : Agreement s'.ledger := by
  intro deliveryId c' hc'
  rcases course_of_step deliveryId hreach hstep with hsame | ⟨t, e, hissues, hshows, hmachine⟩
  · exact h deliveryId c' (hsame ▸ hc')
  rw [hc'] at hmachine
  generalize hc : s.ledger.course deliveryId = before at hmachine
  cases hmachine with
  | opened =>
    refine ⟨fun a ha ↦ (nomatch ha), fun a ha ↦ (nomatch ha.1), fun hsome ↦ ?_⟩
    cases hsome
  | @step c _ _ hmachine =>
    refine (h deliveryId c hc).step (sound_course (reachable_ledger hreach) hc) hmachine ?_
    rintro payload rfl a ha hid
    exact newest_of_shows hissues hshows hcond hc ha hid

/-- **One step keeps temporary failures.** -/
theorem keeps_temporaryFailure (h : (system S).History ls s) (hstep : (system S).Step s l s')
    (hcond : NewestReceipt S s l) (ha : a ∈ s.ledger.attempts.rows)
    (hs : a.status = .temporaryFailure) : a ∈ s'.ledger.attempts.rows := by
  have hreach : (system S).Reachable s := ⟨ls, h⟩
  have hledger := reachable_ledger hreach
  obtain ⟨d, hd, hdid⟩ := (linked_of_reachable hledger).attempts a ha
  have hc := Ledger.course_of_mem hd
  have hmem : a ∈ s.ledger.attemptsOf d.id := Ledger.mem_attemptsOf.mpr ⟨ha, hdid.symm⟩
  rcases course_of_step d.id hreach hstep with hsame | ⟨t, e, hissues, hshows, hmachine⟩
  · rw [hc] at hsame
    exact ((Ledger.mem_course hsame).mp hmem).1
  rw [hc] at hmachine
  generalize hc' : s'.ledger.course d.id = after at hmachine
  cases hmachine with
  | @step _ c' _ hmachine =>
    refine ((Ledger.mem_course hc').mp (hmachine.keeps_temporaryFailure (sound_course hledger hc)
      ?_ ?_ hmem hs)).1
    · rintro payload rfl b hb hid
      exact newest_of_shows hissues hshows hcond hc hb hid
    · rintro payload rfl
      exact ne_of_shows h hissues hshows ha hs

/-- **A settling receipt for an older attempt breaks the agreement.** -/
theorem not_agreement_of_step (hreach : (system S).Reachable s) (hstep : (system S).Step s l s')
    (hcond : ¬NewestReceipt S s l) : ¬Agreement s'.ledger := by
  intro hagree
  refine hcond fun caller request envelope payload d a hcommand henvelope hfresh ↦ ?_
  by_contra hold
  obtain ⟨command, reply⟩ := l
  subst hcommand
  -- the receipt is recorded
  obtain ⟨T, R, -, -, happly⟩ := hfresh.exists_apply
  have hledger : s'.ledger =
      ({ s.ledger with consumedEvents := T, receipts := R } : Ledger).settle payload := by
    cases System.stepped_of_exec hstep with
    | receiptRefused h =>
      rw [Plugin.observeReceipt_eq_ok.mpr ⟨envelope, henvelope, happly⟩] at h
      cases h
    | receiptRecorded henvelope' h =>
      cases henvelope.symm.trans henvelope'
      exact Except.ok.inj (h.symm.trans happly)
  have hrows := Ledger.deliveryWithAttempt_settle
    (L := { s.ledger with consumedEvents := T, receipts := R }) payload hfresh.settles.rows
  rw [← hledger] at hrows
  obtain ⟨hd', -, -, -, hc', hmem'⟩ := Ledger.course_of_join hrows
  obtain ⟨-, ha, had⟩ := Ledger.deliveryWithAttempt_eq_some.mp hfresh.settles.rows
  -- a later attempt of the delivery is still there
  have hmem : a ∈ s.ledger.attemptsOf d.id :=
    Ledger.mem_attemptsOf.mpr ⟨(Table.get?_eq_some.mp ha).1, had⟩
  have hlater : ∃ b ∈ s.ledger.attemptsOf d.id, a.sequence < b.sequence := by
    by_contra hnone
    exact hold ⟨hmem, fun b hb ↦ not_lt.mp fun hlt ↦ hnone ⟨b, hb, hlt⟩⟩
  obtain ⟨b, hb, hlt⟩ := hlater
  obtain ⟨hbmem, hbd⟩ := Ledger.mem_attemptsOf.mp hb
  obtain ⟨b', hb', hident⟩ := (extends_of_step hreach hstep).exists_attempt hbmem
  simp only [Attempt.identity, Prod.mk.injEq] at hident
  have hdid : d.id = (d.afterReceipt payload).id :=
    (congrArg Prod.fst (Delivery.afterReceipt_identity payload d)).symm
  have hs := (hagree _ _ hc').older _ hmem' fun hnewest ↦ by
    have hle := hnewest.2 b' (Ledger.mem_attemptsOf.mpr
      ⟨hb', hident.2.1.trans (hbd.trans hdid)⟩)
    rw [hident.2.2.1] at hle
    exact absurd hlt (not_lt.mpr hle)
  change payload.kind.attemptStatus = .temporaryFailure at hs
  cases hkind : payload.kind <;> rw [hkind] at hs <;> cases hs

end Runs

/-! ## The main result -/

/-- **Delivery and attempts agree.** In every run whose settling receipts name the newest attempt,
every delivery agrees with its attempts in every state, and a temporary failure keeps its row. The
first receipt that does not breaks the agreement. -/
theorem agreement_of_run {S : Setting} {ls ms : List (Command × Reply)} {s s' : System}
    (h : ((system S).restrict (NewestReceipt S)).History ls s)
    (hrun : ((system S).restrict (NewestReceipt S)).Run s ms s') :
    Agreement s'.ledger ∧
      (∀ a ∈ s.ledger.attempts.rows, a.status = .temporaryFailure →
        a ∈ s'.ledger.attempts.rows) ∧
      ∀ l t, (system S).Step s' l t → ¬NewestReceipt S s' l → ¬Agreement t.ledger := by
  refine ⟨?_, ?_, ?_⟩
  · refine Lts.Reachable.invariant (S := (system S).restrict (NewestReceipt S))
      (I := fun s ↦ Agreement s.ledger) ?_ ?_ ⟨_, h.append hrun⟩
    · rintro s rfl deliveryId c hc
      cases hc
    · intro s l s' hreach hagree hstep
      exact hagree.step hreach.of_restrict hstep.1 hstep.2
  · intro a ha hs
    induction hrun with
    | nil => exact ha
    | snoc hrun hstep ih =>
      exact keeps_temporaryFailure (h.append hrun).of_restrict hstep.1 hstep.2 ih hs
  · intro l t hstep
    exact not_agreement_of_step ⟨_, (h.append hrun).of_restrict⟩ hstep

/-- The first attempt was refused, the second is in flight. -/
theorem agreement_retrying :
    Agreement Deployment.retrying.ledger ∧
      Deployment.refusedAttempt ∈ Deployment.retrying.ledger.attempts.rows := by
  obtain ⟨ls, hls, hcommands⟩ := Deployment.exists_history_retrying
  have hreceipts : ∀ c ∈ Deployment.toRetrying, c.isObserveReceipt = false := by decide
  have hcond : ∀ l ∈ ls, ∀ s, NewestReceipt Deployment.setting s l := by
    intro l hl s caller request envelope payload d a hcommand
    have hnone := hreceipts l.1 (hcommands l hl)
    rw [hcommand] at hnone
    cases hnone
  obtain ⟨s₀, hs₀, hrun⟩ := hls
  obtain ⟨hagree, hkept, -⟩ := agreement_of_run ⟨s₀, hs₀, hrun.restrict hcond⟩ .nil
  exact ⟨hagree, hkept _ List.mem_cons_self rfl⟩

/-- While the second attempt is in flight, the mail service reports that the first was delivered. -/
theorem not_agreement_after_receipt :
    ∃ s, (system Deployment.setting).Reachable s ∧ ¬Agreement s.ledger := by
  obtain ⟨s, hs, hrows⟩ := exists_of_execAll [Deployment.observeDelivered]
    (fun s : System ↦ s.ledger.deliveries.rows.any fun d : Delivery ↦
      decide (d.status = .delivered) && (s.ledger.attemptsOf d.id).any fun a : Attempt ↦
        decide (a.status = .dispatching) && (s.ledger.attemptsOf d.id).all fun b : Attempt ↦
          decide (b.sequence ≤ a.sequence))
    Deployment.reachable_retrying (by decide +kernel)
  refine ⟨s, hs, fun hagree ↦ ?_⟩
  obtain ⟨d, hd, hrow⟩ := List.any_eq_true.mp hrows
  rw [Bool.and_eq_true, decide_eq_true_eq, List.any_eq_true] at hrow
  obtain ⟨hdelivered, a, ha, hrow⟩ := hrow
  rw [Bool.and_eq_true, decide_eq_true_eq, List.all_eq_true] at hrow
  obtain ⟨hdispatching, hmax⟩ := hrow
  have hadmits := (hagree d.id _ (Ledger.course_of_mem hd)).newest a
    ⟨ha, fun b hb ↦ of_decide_eq_true (hmax b hb)⟩
  rw [hadmits.1.mp hdispatching] at hdelivered
  cases hdelivered

end NotificationLedger

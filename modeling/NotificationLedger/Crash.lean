import NotificationLedger.NoRepeat
import NotificationLedger.Terminal

/-!
# Workers that disappear

A worker may vanish at any point: the process dies between the claim and the provider's answer, or
the caller drops the call. The claim is committed by then, so the delivery stays `attempting` with
its attempt in flight, and nothing in the component takes it from there: no other worker selects it,
no manual retry and no cancellation applies. Only the receipt of a mail service ends it.

Behind this stands that claimed work is exclusive (`holding_of_history`): whoever carries work of a
delivery carries its newest attempt, so no two workers carry work of one delivery and dropping a
call leaves nobody with it.

## What is left of an abandoned call

An abandoned call has returned without an answer, and nothing of it stays in the ledger but what it
had committed. If that was a claim, the attempt in flight has no worker. Each operation that could
move the delivery needs either its worker or a status it does not have; a receipt needs neither.
-/

namespace NotificationLedger

open Outcome

variable {S : Setting} {s s' : System} {ls : List (Command × Reply)}

/-! ## The events of one delivery

Which labels of the system can show an event of this delivery: its claim, the answer to its attempt,
a receipt, or a lifecycle call. An answer needs a call that carries the work. -/

/-- A receipt event of a course is shown by the receipt call that reports it. -/
theorem report_of_shows {command : Command} {reply : Reply} {t : Transaction}
    {payload : EmailReceiptObserved} (hissues : System.Issues S s command reply t)
    (hshows : t.Shows S.externals s.ledger (.receiptObserved payload)) :
    ∃ caller request source observedAt, command = .observeReceipt caller request ∧
      reply = .receipt (.ok ()) ∧
      authorizedCaller caller S.config.receiptCallers = some source ∧
      payload = Plugin.receiptObservation source request observedAt := by
  cases hshows with
  | receipt hfresh =>
    cases hissues with
    | receipt henvelope =>
      obtain ⟨source, observedAt, hcaller, ho⟩ :=
        Plugin.receipt_of_receiptEnvelope henvelope hfresh.admitted
      cases ho
      exact ⟨_, _, source, observedAt, rfl, rfl, hcaller, rfl⟩
    | answer => cases Plugin.dispatch_of_dispatchEnvelope hfresh.admitted
    | lifecycle henvelope =>
      obtain ⟨_, h⟩ := Plugin.lifecycle_of_lifecycleEnvelope henvelope hfresh.admitted
      cases h

/-- A dispatch event that finds its attempt in a course is the answer to work of that delivery. -/
theorem carrier_of_shows {command : Command} {reply : Reply} {t : Transaction}
    {payload : EmailDispatchObserved} {deliveryId : String} {c : Course} {a : Attempt}
    (hreach : (system S).Reachable s) (hissues : System.Issues S s command reply t)
    (hshows : t.Shows S.externals s.ledger (.dispatchObserved payload))
    (hc : s.ledger.course deliveryId = some c) (ha : a ∈ c.attempts)
    (hid : a.id = payload.attemptId) :
    ∃ i now work result, command = .advance i (.answered result) ∧
      reply = .dispatched work.claim (Plugin.dispatchReply S work.claim result) ∧
      s.calls[i]? = some (.dispatch now (.awaiting work)) ∧ work.claim.attemptId = a.id ∧
      work.claim.deliveryId = deliveryId := by
  obtain ⟨i, now, work, result, rfl, rfl, hi, rfl⟩ := answer_of_shows hissues hshows
  obtain ⟨hamem, hadelivery⟩ := (Ledger.mem_course hc).mp ha
  have hattempt : work.claim.attemptId = a.id :=
    (Plugin.observedOf_claim _ _ _ _).2.1.symm.trans hid.symm
  obtain ⟨b, hb, hbid, hbdelivery, -⟩ :=
    (backed_of_reachable hreach _ (List.mem_of_getElem? hi) work rfl).attempt
  have hba : b = a := Table.eq_of_key hb hamem (hbid.trans hattempt)
  refine ⟨i, now, work, result, rfl, rfl, hi, hattempt, ?_⟩
  rw [← hbdelivery, hba, hadelivery]

/-! ## Claimed work is exclusive

Work that is carried belongs to a delivery whose newest attempt it is. Two calls with work of one
delivery would carry the same attempt, and an attempt is in the custody of one call. -/

/-- The delivery waits for an answer, or a receipt has ended it. -/
def DeliveryStatus.isHeld (status : DeliveryStatus) : Prop :=
  status = .attempting ∨ status = .delivered ∨ status = .failed

theorem DeliveryStatus.not_isClaimable_of_isHeld {status : DeliveryStatus} (h : status.isHeld) :
    status.isClaimable = false := by
  rcases h with rfl | rfl | rfl <;> rfl

/-- No worker can claim a held delivery, and only an answer to one of its attempts or a receipt
moves it. -/
theorem Course.Step.of_isHeld {X : Externals} {c c' : Course} {e : Event} (h : Course.Step X c e c')
    (hheld : c.delivery.status.isHeld) :
    (∃ payload, e = .dispatchObserved payload ∧
      ∃ a ∈ c.attempts, a.id = payload.attemptId ∧
        (c.delivery.status = .attempting → a.status = .dispatching)) ∨
    ∃ payload, e = .receiptObserved payload ∧ c.delivery.status = .attempting ∧
      c.delivery.id = payload.deliveryId ∧ c'.delivery = c.delivery.afterReceipt payload := by
  have hclaimable := DeliveryStatus.not_isClaimable_of_isHeld hheld
  cases h with
  | claim h | cancel h =>
    rw [h] at hclaimable
    cases hclaimable
  | resolve _ _ ha hid hdispatching =>
    exact Or.inl ⟨_, rfl, _, ha, hid, fun _ ↦ hdispatching⟩
  | absorb ha hid hlate =>
    refine Or.inl ⟨_, rfl, _, ha, hid, fun hs ↦ ?_⟩
    rcases hlate with ⟨hs', -⟩ | ⟨hs', -⟩ <;> rw [hs] at hs' <;> cases hs'
  | settle hopen _ _ _ hdelivery =>
    refine Or.inr ⟨_, rfl, ?_, hdelivery, rfl⟩
    rcases hopen with hs | hs
    · exact hs
    · rcases hheld with hs' | hs' | hs' <;> rw [hs] at hs' <;> cases hs'
  | reschedule hscheduled =>
    rcases hheld with hs' | hs' | hs' <;> rw [hscheduled] at hs' <;> cases hs'

/-- The work is for the newest attempt of a held delivery. -/
def Holding (L : Ledger) (work : DispatchWork) : Prop :=
  ∃ c a, L.course work.claim.deliveryId = some c ∧ a ∈ c.attempts ∧
    a.id = work.claim.attemptId ∧ a.sequence = c.delivery.attemptCount ∧
    c.delivery.status.isHeld

/-- A claim makes its attempt the newest one. -/
theorem holding_of_claimed (hreach : (system S).Reachable s) {i : ℕ} {work : DispatchWork}
    (hstep : (system S).Step s (.advance i .proceed, .claimed work) s') :
    Holding s'.ledger work := by
  obtain ⟨⟨a, ha, hid, hdelivery, -⟩, hfresh⟩ : (∃ a ∈ s'.ledger.attempts.rows,
      a.id = work.claim.attemptId ∧ a.deliveryId = work.claim.deliveryId ∧
        a.functionRunId = work.claim.runId) ∧
      ∀ a ∈ s.ledger.attempts.rows, a.id ≠ work.claim.attemptId := by
    cases System.stepped_of_exec hstep with
    | advanced hi hadvance =>
      cases hadvance with
      | claimed hclaim =>
        obtain ⟨hget, hdue, -⟩ := System.holds_of_reachable hreach _ _ (List.mem_of_getElem? hi)
        exact (backed_of_claimRow hget (Runtime.isDue_iff.mp hdue).1 hclaim).imp_left
          Backed.attempt
  rcases shown_of_stepped hreach hstep ha with hold | ⟨t, e, c, c', -, -, h, hc, hc', hmem⟩
  · exact absurd hid (hfresh a hold)
  rcases h.exists_id hmem with ⟨b, hb, hbid⟩ | ⟨now, rfl⟩
  · exact absurd (hbid.trans hid) (hfresh b ((Ledger.mem_course hc).mp hb).1)
  cases h with
  | claim =>
    refine ⟨_, a, hdelivery ▸ hc', hmem, hid, ?_, Or.inl rfl⟩
    rcases List.mem_append.mp hmem with hold | hnew
    · exact absurd hid (hfresh a ((Ledger.mem_course hc).mp hold).1)
    · rw [List.mem_singleton.mp hnew]
      rfl

/-- Work stays with the newest attempt until it is answered. -/
theorem Holding.step {l : Command × Reply} {work : DispatchWork} (hreach : (system S).Reachable s)
    (h : Holding s.ledger work) (hstep : (system S).Step s l s')
    (hopen : answeredAttempt? l ≠ some work.claim.attemptId) : Holding s'.ledger work := by
  obtain ⟨c, a, hc, ha, hid, hseq, hheld⟩ := h
  have hsound := sound_course (reachable_ledger hreach) hc
  -- the attempt keeps its identity, so only the row of the delivery matters
  have hkeep : ∀ c', s'.ledger.course work.claim.deliveryId = some c' →
      c'.delivery.attemptCount = c.delivery.attemptCount → c'.delivery.status.isHeld →
      Holding s'.ledger work := by
    intro c' hc' hcount hheld'
    obtain ⟨hamem, hadelivery⟩ := (Ledger.mem_course hc).mp ha
    obtain ⟨b, hb, hident⟩ := (extends_of_step hreach hstep).exists_attempt hamem
    simp only [Attempt.identity, Prod.mk.injEq] at hident
    exact ⟨c', b, hc', (Ledger.mem_course hc').mpr ⟨hb, hident.2.1.trans hadelivery⟩,
      hident.1.trans hid, hident.2.2.1.trans (hseq.trans hcount.symm), hheld'⟩
  rcases course_of_step work.claim.deliveryId hreach hstep with
    hsame | ⟨t, e, hissues, hshows, hmachine⟩
  · exact hkeep c (hsame.trans hc) rfl hheld
  rw [hc] at hmachine
  generalize hafter : s'.ledger.course work.claim.deliveryId = after at hmachine
  cases hmachine with
  | @step _ c' _ hmove =>
    rcases hmove.of_isHeld hheld with
      ⟨payload, rfl, b, hb, hbid, hdispatching⟩ | ⟨payload, rfl, -, -, hrow⟩
    · by_cases hs : c.delivery.status = .attempting
      · -- the attempt answered is the one in flight, which is the attempt of this work
        have hba : b = a :=
          hsound.eq_of_sequence hb ha ((hsound.sequence_eq hb (hdispatching hs)).trans hseq.symm)
        obtain ⟨i, now, work', result, hcommand, hreply, -, hattempt, -⟩ :=
          carrier_of_shows hreach hissues hshows hc hb hbid
        refine absurd ?_ hopen
        obtain ⟨command, reply⟩ := l
        simp only at hreply
        rw [hreply, answeredAttempt?, hattempt, hba, hid]
      · have hfinal : c.delivery.status.isFinal = true := by
          rcases hheld with hs' | hs' | hs'
          · exact absurd hs' hs
          · rw [hs']
            rfl
          · rw [hs']
            rfl
        have hrow := (hmove.frozen hfinal).1
        exact hkeep c' hafter (by rw [hrow]) (by rw [hrow]; exact hheld)
    · refine hkeep c' hafter ?_ ?_
      · rw [hrow]
        exact (Delivery.afterReceipt_counts payload c.delivery).1
      · rw [hrow, Delivery.afterReceipt_status]
        split
        · exact Or.inr (Or.inl rfl)
        · exact Or.inr (Or.inr rfl)

/-- A work carried after a step was carried before it, or the step claims it. -/
theorem carried_of_stepped {command : Command} {reply : Reply} {c : Call} {work : DispatchWork}
    (h : System.Stepped S s command s' reply) (hc : c ∈ s'.calls) (hwork : c.work? = some work) :
    (∃ c₀ ∈ s.calls, c₀.work? = some work) ∨
      ∃ i, command = .advance i .proceed ∧ reply = .claimed work := by
  cases h with
  | createRefused | dispatchRefused | receiptRefused | lifecycleRefused | retryRefused
  | receiptRecorded | lifecycleRecorded | retryScheduled => exact Or.inl ⟨c, hc, hwork⟩
  | createStarted | dispatchStarted =>
    rcases List.mem_append.mp hc with hc | hc
    · exact Or.inl ⟨c, hc, hwork⟩
    · rw [List.mem_singleton.mp hc] at hwork
      cases hwork
  | abandoned =>
    rcases List.mem_or_eq_of_mem_set hc with hc | rfl
    · exact Or.inl ⟨c, hc, hwork⟩
    · cases hwork
  | advanced hi h =>
    rcases List.mem_or_eq_of_mem_set hc with hc | rfl
    · exact Or.inl ⟨c, hc, hwork⟩
    cases h with
    | claimed =>
      cases hwork
      exact Or.inr ⟨_, rfl, rfl⟩
    | handedOver => exact Or.inl ⟨_, List.mem_of_getElem? hi, hwork⟩
    | _ => cases hwork

/-- **Carried work is for the newest attempt.** -/
theorem holding_of_history (h : (system S).History ls s) :
    ∀ c ∈ s.calls, ∀ work, c.work? = some work → Holding s.ledger work := by
  refine Lts.History.invariant (S := system S)
    (I := fun _ s ↦ ∀ c ∈ s.calls, ∀ work, c.work? = some work → Holding s.ledger work) ?_ ?_ h
  · rintro s rfl c hc
    cases hc
  · intro ls s l s' hls hholding hstep c hc work hwork
    have hreach : (system S).Reachable s := ⟨ls, hls⟩
    rcases carried_of_stepped (System.stepped_of_exec hstep) hc hwork with
      ⟨c₀, hc₀, hwork₀⟩ | ⟨i, hcommand, hreply⟩
    · refine (hholding c₀ hc₀ work hwork₀).step hreach hstep fun hanswered ↦ ?_
      -- an attempt that has been answered is in nobody's hands
      have honce := (answered_custody (hls.snoc hstep)).once
      refine (List.nodup_append.mp honce).2.2 work.claim.attemptId ?_ work.claim.attemptId ?_ rfl
      · exact List.mem_filterMap.mpr ⟨l, by simp, hanswered⟩
      · exact List.mem_filterMap.mpr ⟨c, hc, by rw [Call.carried?, hwork]; rfl⟩
    · obtain ⟨command, reply⟩ := l
      cases hcommand
      cases hreply
      exact holding_of_claimed hreach hstep

/-- Two positions of a list that `f` maps to one value are the same. -/
theorem eq_of_filterMap_nodup {α β : Type} {f : α → Option β} {xs : List α}
    (h : (xs.filterMap f).Nodup) {i j : ℕ} {x y : α} {b : β} (hi : xs[i]? = some x)
    (hj : xs[j]? = some y) (hx : f x = some b) (hy : f y = some b) : i = j := by
  rw [List.Nodup, List.pairwise_filterMap, List.pairwise_iff_getElem] at h
  obtain ⟨hilt, rfl⟩ := List.getElem?_eq_some_iff.mp hi
  obtain ⟨hjlt, rfl⟩ := List.getElem?_eq_some_iff.mp hj
  rcases lt_trichotomy i j with hij | hij | hij
  · exact absurd rfl (h i j hilt hjlt hij b hx b hy)
  · exact hij
  · exact absurd rfl (h j i hjlt hilt hij b hy b hx)

/-- No other call carries work of the delivery, and no call is about to claim it. -/
structure Exclusive (s : System) (i : ℕ) (work : DispatchWork) : Prop where
  holding : Holding s.ledger work
  carried : ∀ j c work', s.calls[j]? = some c → c.work? = some work' →
    work'.claim.deliveryId = work.claim.deliveryId → j = i
  selected : ∀ now row, Call.dispatch now (.selected row) ∈ s.calls →
    row.delivery.id ≠ work.claim.deliveryId

/-- No two calls carry work of one delivery. -/
theorem eq_of_carried (h : (system S).History ls s) {i j : ℕ} {c c' : Call}
    {work work' : DispatchWork} (hc : s.calls[i]? = some c) (hwork : c.work? = some work)
    (hc' : s.calls[j]? = some c') (hwork' : c'.work? = some work')
    (hsame : work'.claim.deliveryId = work.claim.deliveryId) : j = i := by
  have hholding := holding_of_history h
  obtain ⟨k, a, hk, ha, hid, hseq, -⟩ := hholding c (List.mem_of_getElem? hc) work hwork
  obtain ⟨k', b, hk', hb, hbid, hbseq, -⟩ := hholding c' (List.mem_of_getElem? hc') work' hwork'
  rw [hsame, hk] at hk'
  cases hk'
  have hab : b = a := (sound_course (reachable_ledger ⟨ls, h⟩) hk).eq_of_sequence hb ha
    (hbseq.trans hseq.symm)
  have honce := (List.nodup_append.mp (answered_custody h).once).2.1
  refine eq_of_filterMap_nodup honce hc' hc (b := work.claim.attemptId) ?_ ?_
  · rw [Call.carried?, hwork', ← hid, ← hab, hbid]
    rfl
  · rw [Call.carried?, hwork]
    rfl

/-- **Claimed work is exclusive.** -/
theorem exclusive_of_history (h : (system S).History ls s) {i : ℕ} {c : Call}
    {work : DispatchWork} (hc : s.calls[i]? = some c) (hwork : c.work? = some work) :
    Exclusive s i work := by
  have hholding := holding_of_history h c (List.mem_of_getElem? hc) work hwork
  refine ⟨hholding, fun j c' work' hc' hwork' ↦ eq_of_carried h hc hwork hc' hwork', ?_⟩
  rintro now row hrow hsame
  obtain ⟨hget, hdue, -⟩ := System.holds_of_reachable ⟨ls, h⟩ _ _ hrow
  obtain ⟨k, -, hk, -, -, -, hheld⟩ := hholding
  rw [← hsame, Ledger.course_eq_some, hget, Option.some_inj] at hk
  rw [← hk.1] at hheld
  have hclaimable := (Runtime.isDue_iff.mp hdue).1
  rw [DeliveryStatus.not_isClaimable_of_isHeld hheld] at hclaimable
  cases hclaimable

/-- The worker of the claimed delivery is the only one. -/
theorem exclusive_awaiting : Exclusive Deployment.awaiting 1 Deployment.work := by
  obtain ⟨ls, hls⟩ := Deployment.reachable_awaiting
  exact exclusive_of_history (c := .dispatch Deployment.midnight (.awaiting Deployment.work)) hls
    rfl rfl

/-! ## A delivery nobody carries

Once its call is gone, `Deserted` holds: the attempt is in flight and no call carries it. Each step
keeps this or is the receipt that ends it, so the run lemma has two cases. -/

/-- The delivery whose work a step claims, hands over or answers. -/
def Reply.sent? : Reply → Option String
  | .claimed work => some work.claim.deliveryId
  | .handedOver request => some request.deliveryId
  | .dispatched claim _ => some claim.deliveryId
  | _ => none

/-- The delivery is held and no call carries its work. -/
structure Deserted (s : System) (deliveryId : String) : Prop where
  held : ∃ c, s.ledger.course deliveryId = some c ∧ c.delivery.status.isHeld
  uncarried : ∀ c ∈ s.calls, ∀ work, c.work? = some work → work.claim.deliveryId ≠ deliveryId

/-- An authorized caller reports a receipt of the delivery. -/
def Reports (S : Setting) (deliveryId : String) (payload : EmailReceiptObserved)
    (l : Command × Reply) : Prop :=
  ∃ caller request source observedAt, l = (.observeReceipt caller request, .receipt (.ok ())) ∧
    authorizedCaller caller S.config.receiptCallers = some source ∧
    request.deliveryId = deliveryId ∧
    payload = Plugin.receiptObservation source request observedAt

/-- The delivery left `attempting` through one receipt, and its row is what the receipt made it. -/
def Ended (S : Setting) (s : System) (ms : List (Command × Reply)) (s' : System)
    (deliveryId : String) : Prop :=
  ∃ pre l post t d payload, ms = pre ++ l :: post ∧ (system S).Run s pre t ∧
    t.ledger.course deliveryId = s.ledger.course deliveryId ∧
    s.ledger.deliveries.get? deliveryId = some d ∧ d.status = .attempting ∧
    Reports S deliveryId payload l ∧
    s'.ledger.deliveries.get? deliveryId = some (d.afterReceipt payload)

/-- No step sends a deserted delivery, and only a receipt changes it. -/
theorem Deserted.step {l : Command × Reply} {deliveryId : String} (hreach : (system S).Reachable s)
    (h : Deserted s deliveryId) (hstep : (system S).Step s l s') :
    Deserted s' deliveryId ∧ l.2.sent? ≠ some deliveryId ∧
      (s'.ledger.course deliveryId = s.ledger.course deliveryId ∨
        ∃ d payload, s.ledger.deliveries.get? deliveryId = some d ∧ d.status = .attempting ∧
          Reports S deliveryId payload l ∧
          s'.ledger.deliveries.get? deliveryId = some (d.afterReceipt payload)) := by
  obtain ⟨⟨c, hc, hheld⟩, huncarried⟩ := h
  have hid := Ledger.course_delivery_id hc
  obtain ⟨command, reply⟩ := l
  -- a call cannot claim the delivery, and none has work of it to hand over or answer
  have hsent : reply.sent? ≠ some deliveryId := by
    intro hsent
    cases System.stepped_of_exec hstep with
    | advanced hi hadvance =>
      have hmem := List.mem_of_getElem? hi
      cases hadvance with
      | @claimed now row L' work hclaim =>
        obtain ⟨hget, hdue, -⟩ := System.holds_of_reachable hreach _ _ hmem
        have hclaimable := (Runtime.isDue_iff.mp hdue).1
        obtain ⟨-, -, -, hwork, -⟩ := (Runtime.claimRow_eq_ok hget hclaimable).mp hclaim
        have hrow : row.delivery.id = deliveryId := by
          rw [← Option.some_inj.mp hsent, hwork]
          rfl
        rw [hrow, (Ledger.course_eq_some.mp hc).1, Option.some_inj] at hget
        rw [← hget, DeliveryStatus.not_isClaimable_of_isHeld hheld] at hclaimable
        cases hclaimable
      | @handedOver now work =>
        refine huncarried _ hmem work rfl ?_
        rw [← (backed_of_reachable hreach _ hmem work rfl).request.1]
        exact Option.some_inj.mp hsent
      | lost | recorded => exact huncarried _ hmem _ rfl (Option.some_inj.mp hsent)
      | _ => cases hsent
    | _ => cases hsent
  have huncarried' : ∀ c ∈ s'.calls, ∀ work, c.work? = some work →
      work.claim.deliveryId ≠ deliveryId := by
    intro c' hc' work hwork hsame
    rcases carried_of_stepped (System.stepped_of_exec hstep) hc' hwork with
      ⟨c₀, hc₀, hwork₀⟩ | ⟨i, -, rfl⟩
    · exact huncarried c₀ hc₀ work hwork₀ hsame
    · exact hsent (congrArg some hsame)
  rcases course_of_step deliveryId hreach hstep with hsame | ⟨t, e, hissues, hshows, hmachine⟩
  · exact ⟨⟨⟨c, hsame.trans hc, hheld⟩, huncarried'⟩, hsent, Or.inl hsame⟩
  rw [hc] at hmachine
  generalize hafter : s'.ledger.course deliveryId = after at hmachine
  cases hmachine with
  | @step _ c' _ hmove =>
    rcases hmove.of_isHeld hheld with
      ⟨payload, rfl, b, hb, hbid, -⟩ | ⟨payload, rfl, hattempting, hpayload, hrow⟩
    · obtain ⟨i, now, work, result, -, -, hi, -, hdelivery⟩ :=
        carrier_of_shows hreach hissues hshows hc hb hbid
      exact absurd hdelivery (huncarried _ (List.mem_of_getElem? hi) work rfl)
    · obtain ⟨caller, request, source, observedAt, hcommand, hreply, hcaller, rfl⟩ :=
        report_of_shows hissues hshows
      have hrow' := (Ledger.course_eq_some.mp hafter).1
      refine ⟨⟨⟨c', hafter, ?_⟩, huncarried'⟩, hsent, Or.inr ⟨c.delivery, _,
        (Ledger.course_eq_some.mp hc).1, hattempting, ⟨caller, request, source, observedAt,
          Prod.ext hcommand hreply, hcaller, ?_, rfl⟩, hrow'.trans (congrArg some hrow)⟩⟩
      · rw [hrow, Delivery.afterReceipt_status]
        split
        · exact Or.inr (Or.inl rfl)
        · exact Or.inr (Or.inr rfl)
      · exact hpayload.symm.trans hid

/-- **Nothing but a receipt moves a deserted delivery.** -/
theorem Deserted.run {ms : List (Command × Reply)} {deliveryId : String}
    (hreach : (system S).Reachable s) (h : Deserted s deliveryId) (hrun : (system S).Run s ms s') :
    Deserted s' deliveryId ∧ (∀ l ∈ ms, l.2.sent? ≠ some deliveryId) ∧
      (s'.ledger.course deliveryId = s.ledger.course deliveryId ∨
        Ended S s ms s' deliveryId) := by
  induction hrun with
  | nil => exact ⟨h, fun l hl ↦ absurd hl List.not_mem_nil, Or.inl rfl⟩
  | @snoc ms l t s' hpre hstep ih =>
    obtain ⟨hdeserted, hsent, hsofar⟩ := ih
    obtain ⟨hdeserted', hsent', hmove⟩ := hdeserted.step (hreach.run hpre) hstep
    refine ⟨hdeserted', ?_, ?_⟩
    · rw [List.forall_mem_append, List.forall_mem_singleton]
      exact ⟨hsent, hsent'⟩
    rcases hsofar with hsame | ⟨pre, k, post, u, d, payload, rfl, hu, husame, hd, hs, hk, hrow⟩
    · rcases hmove with hsame' | ⟨d, payload, hd, hs, hreports, hrow⟩
      · exact Or.inl (hsame'.trans hsame)
      · refine Or.inr ⟨ms, l, [], t, d, payload, rfl, hpre, hsame, ?_, hs, hreports, hrow⟩
        obtain ⟨c, hc, -⟩ := h.held
        have hget := (Ledger.course_eq_some.mp hc).1
        rw [(Ledger.course_eq_some.mp (hsame.trans hc)).1] at hd
        rw [hget, hd]
    · refine Or.inr ⟨pre, k, post ++ [l], u, d, payload, ?_, hu, husame, hd, hs, hk, ?_⟩
      · rw [List.append_assoc, List.cons_append]
      · -- the receipt has closed the delivery, so no second one moves it
        rcases hmove with hsame' | ⟨d', payload', hd', hs', -, -⟩
        · rw [← hrow]
          obtain ⟨c', hc', -⟩ := hdeserted.held
          rw [(Ledger.course_eq_some.mp hc').1, (Ledger.course_eq_some.mp (hsame'.trans hc')).1]
        · rw [hrow, Option.some_inj] at hd'
          rw [← hd', Delivery.afterReceipt_status] at hs'
          split at hs' <;> cases hs'

/-- **A worker that disappears takes its delivery with it.** After a call with claimed work is
dropped no step ever claims, hands over or answers that delivery again; its row and its attempts
stay what they were, until an authorized receipt closes it. -/
theorem never_sent_after_abandon {i : ℕ} {c : Call} {work : DispatchWork} {reply : Reply}
    {t : System} {ms : List (Command × Reply)} (h : (system S).History ls s)
    (hc : s.calls[i]? = some c) (hwork : c.work? = some work)
    (habandon : (system S).Step s (.abandon i, reply) t) (hrun : (system S).Run t ms s') :
    (∀ l ∈ ms, l.2.sent? ≠ some work.claim.deliveryId) ∧
      (s'.ledger.course work.claim.deliveryId = s.ledger.course work.claim.deliveryId ∨
        Ended S t ms s' work.claim.deliveryId) := by
  obtain ⟨k, a, hk, -, -, -, hheld⟩ := holding_of_history h c (List.mem_of_getElem? hc) work hwork
  have hreach : (system S).Reachable t := ⟨_, h.snoc habandon⟩
  have hdeserted : Deserted t work.claim.deliveryId ∧ t.ledger = s.ledger := by
    cases System.stepped_of_exec habandon with
    | abandoned =>
      refine ⟨⟨⟨k, hk, hheld⟩, fun c' hc' work' hwork' hsame ↦ ?_⟩, rfl⟩
      obtain ⟨j, hj⟩ := List.mem_iff_getElem?.mp hc'
      simp only [List.getElem?_set] at hj
      split at hj
      · split at hj
        · cases hj
          cases hwork'
        · cases hj
      · next hne => exact hne (eq_of_carried h hc hwork hj hwork' hsame).symm
  obtain ⟨-, hsent, hrest⟩ := hdeserted.1.run hreach hrun
  rw [hdeserted.2] at hrest
  exact ⟨hsent, hrest⟩

/-- The worker of the claimed delivery has disappeared. -/
def Deployment.deserted : System := { Deployment.awaiting with calls := [.returned, .returned] }

/-- Another worker finds nothing to send, then the mail service reports the delivery. -/
theorem never_sent_after_abandon_awaiting :
    ∃ ms s', (system Deployment.setting).Run Deployment.deserted ms s' ∧
      (s'.ledger.deliveries.rows.any fun d ↦ decide (d.status = .delivered)) = true ∧
      (∀ l ∈ ms, l.2.sent? ≠ some Deployment.work.claim.deliveryId) ∧
      (s'.ledger.course Deployment.work.claim.deliveryId =
          Deployment.awaiting.ledger.course Deployment.work.claim.deliveryId ∨
        Ended Deployment.setting Deployment.deserted ms s'
          Deployment.work.claim.deliveryId) := by
  obtain ⟨ls, hls⟩ := Deployment.reachable_awaiting
  have hexec : ((Deployment.deserted.execAll Deployment.setting
      [.dispatchDue (some "jobs") Deployment.oneHourLater, .advance 2 .proceed,
        Deployment.observeDelivered]).any fun p ↦
      p.1.ledger.deliveries.rows.any fun d ↦ decide (d.status = .delivered)) = true := by
    decide +kernel
  obtain ⟨p, hp, hdelivered⟩ := (Option.any_eq_true _ _).mp hexec
  have hrun := run_of_execAll hp
  exact ⟨_, p.1, hrun, hdelivered,
    never_sent_after_abandon (i := 1)
      (c := .dispatch Deployment.midnight (.awaiting Deployment.work)) hls rfl rfl rfl hrun⟩

end NotificationLedger

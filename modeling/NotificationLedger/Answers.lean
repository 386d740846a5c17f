import NotificationLedger.Evidence
import NotificationLedger.Projection
import NotificationLedger.Resolution
import NotificationLedger.Rows

/-!
# The answer after an outcome was recorded

When the provider has answered and its observation is committed, `dispatch_due` reads the delivery
again, outside the transaction, and builds its response from that. Other calls may have taken any
number of steps in between. The response exists for four of the seven statuses only, carries two
times and fails with a bounded query, so the ledger at the time of reading decides between success
and failure.
-/

namespace NotificationLedger

open Outcome

/-! ## Reading a delivery

`getDelivery` succeeds if and only if its row is found, every part projects, and the evidence is
within its limits. The response is then a function of the row and of the evidence that was read. -/

namespace Repository

variable {L₁ L₂ L₃ L₄ : Ledger} {id : String}

theorem evidenceOf_eq_ok {α β : Type} {limit : ℕ} {rows : List α} {order : α → α → Bool}
    {record : α → β} {records : List β} :
    evidenceOf limit rows order record = .ok records ↔
      rows.length ≤ limit ∧ records = (rows.mergeSort order).map record := by
  rw [evidenceOf, ensure_bind_eq_ok, pure_eq_ok, List.length_take, List.length_mergeSort]
  constructor
  · rintro ⟨hle, rfl⟩
    have hlength : rows.length ≤ limit := by omega
    refine ⟨hlength, ?_⟩
    rw [List.take_of_length_le (by rw [List.length_mergeSort]; omega)]
  · rintro ⟨hle, rfl⟩
    refine ⟨by omega, ?_⟩
    rw [List.take_of_length_le (by rw [List.length_mergeSort]; omega)]

/-- The rows of a delivery that `get_delivery` found, none of them too many. -/
structure Bounded (L₂ L₃ L₄ : Ledger) (id : String) : Prop where
  attempts : (rowsOf Attempt.deliveryId L₂.attempts.rows id).length ≤ adminAttemptLimit
  receipts : (rowsOf Receipt.deliveryId L₃.receipts.rows id).length ≤ adminReceiptLimit
  retryRequests : (rowsOf RetryRequest.deliveryId L₄.retryRequests.rows id).length ≤
    adminRetryRequestLimit

/-- The detail of a row. -/
def detailOf (row : Runtime.DueRow) (L₂ L₃ L₄ : Ledger) (id : String) : DeliveryDetail where
  delivery := summaryFromRow row
  attempts := ((rowsOf Attempt.deliveryId L₂.attempts.rows id).mergeSort
    fun a b ↦ decide (a.sequence ≤ b.sequence)).map attemptRecord
  receipts := ((rowsOf Receipt.deliveryId L₃.receipts.rows id).mergeSort
    fun a b ↦ timeOrder a.observedAt b.observedAt a.id b.id).map receiptRecord
  retryRequests := ((rowsOf RetryRequest.deliveryId L₄.retryRequests.rows id).mergeSort
    fun a b ↦ timeOrder a.createdAt b.createdAt a.id b.id).map retryRecord

theorem getDelivery_eq_ok_some {detail : DeliveryDetail} :
    getDelivery L₁ L₂ L₃ L₄ id = .ok (some detail) ↔
      Storable [id] ∧ ∃ row, (L₁.deliveries.get? id).bind (Runtime.join L₁) = some row ∧
        Bounded L₂ L₃ L₄ id ∧ detail = detailOf row L₂ L₃ L₄ id := by
  rw [getDelivery, ensure_bind_eq_ok]
  refine and_congr_right fun _ ↦ ?_
  cases (L₁.deliveries.get? id).bind (Runtime.join L₁) with
  | none =>
    rw [pure_eq_ok]
    constructor
    · exact nofun
    · rintro ⟨row, hrow, -⟩
      cases hrow
  | some row =>
    simp only [bind_eq_ok, pure_eq_ok, evidenceOf_eq_ok, Option.some_inj]
    constructor
    · rintro ⟨attempts, ⟨ha, rfl⟩, receipts, ⟨hr, rfl⟩, retryRequests, ⟨hq, rfl⟩, rfl⟩
      exact ⟨row, rfl, ⟨ha, hr, hq⟩, rfl⟩
    · rintro ⟨_, rfl, hbounded, rfl⟩
      exact ⟨_, ⟨hbounded.attempts, rfl⟩, _, ⟨hbounded.receipts, rfl⟩, _,
        ⟨hbounded.retryRequests, rfl⟩, rfl⟩

end Repository

namespace Plugin

variable {S : Setting}

/-- The statuses `delivery_status` knows. -/
def reports (status : DeliveryStatus) : Bool :=
  match status with
  | .accepted | .retryScheduled | .failed | .deliveryUnknown => true
  | .queued | .attempting | .delivered => false

theorem exists_deliveryStatus {status : DeliveryStatus} :
    (∃ s, deliveryStatus status = .ok s) ↔ reports status = true := by
  cases status with
  | accepted | retryScheduled | failed | deliveryUnknown => exact ⟨fun _ ↦ rfl, fun _ ↦ ⟨_, rfl⟩⟩
  | queued | attempting | delivered =>
    constructor
    · rintro ⟨s, hs⟩
      cases hs
    · exact nofun

theorem attemptId_of_response {claim : DispatchClaim} {observed : EmailDispatchObserved}
    {L₁ L₂ L₃ L₄ : Ledger} {response : DispatchDueResponse}
    (h : dispatchDueResponse S claim observed L₁ L₂ L₃ L₄ = .ok response) :
    response.attemptId = claim.attemptId := by
  obtain ⟨_, -, h⟩ := bind_eq_ok.mp h
  obtain ⟨_, -, h⟩ := bind_eq_ok.mp h
  obtain ⟨_, -, h⟩ := bind_eq_ok.mp h
  obtain ⟨_, -, h⟩ := bind_eq_ok.mp h
  obtain ⟨_, -, h⟩ := bind_eq_ok.mp h
  rw [← pure_eq_ok.mp h]

theorem dispatchDueResponse_eq_ok {claim : DispatchClaim} {observed : EmailDispatchObserved}
    {L₁ L₂ L₃ L₄ : Ledger} :
    (∃ response, dispatchDueResponse S claim observed L₁ L₂ L₃ L₄ = .ok response ∧
        response.attemptId = claim.attemptId) ↔
      ∃ detail, Repository.getDelivery L₁ L₂ L₃ L₄ claim.deliveryId = .ok (some detail) ∧
        (∀ t ∈ detail.delivery.nextAttemptAt, Formattable S t) ∧
        Formattable S observed.observedAt ∧ reports detail.delivery.status = true := by
  constructor
  · rintro ⟨response, h, -⟩
    obtain ⟨read, hread, h⟩ := bind_eq_ok.mp h
    obtain ⟨detail, hdetail, h⟩ := bind_eq_ok.mp h
    obtain ⟨next, hnext, h⟩ := bind_eq_ok.mp h
    obtain ⟨observedAt, hobserved, h⟩ := bind_eq_ok.mp h
    obtain ⟨status, hstatus, -⟩ := bind_eq_ok.mp h
    have hsome : read = some detail := require_eq_ok.mp hdetail
    rw [hsome] at hread
    exact ⟨detail, mapError_eq_ok.mp hread, exists_formatOptional.mp ⟨next, hnext⟩,
      exists_formatTime.mp ⟨observedAt, hobserved⟩, exists_deliveryStatus.mp ⟨status, hstatus⟩⟩
  · rintro ⟨detail, hread, hnext, hobserved, hstatus⟩
    obtain ⟨next, hnext⟩ := exists_formatOptional.mpr hnext
    obtain ⟨observedAt, hobserved⟩ := exists_formatTime.mpr hobserved
    obtain ⟨status, hstatus⟩ := exists_deliveryStatus.mpr hstatus
    have hresponse : dispatchDueResponse S claim observed L₁ L₂ L₃ L₄ =
        .ok ⟨claim.attemptId, claim.deliveryId, next, observedAt, claim.runId, status⟩ := by
      rw [dispatchDueResponse, mapError_eq_ok.mpr hread, ok_bind, require_some, ok_bind, hnext,
        ok_bind, hobserved, ok_bind, hstatus, ok_bind]
      rfl
    exact ⟨_, hresponse, attemptId_of_response hresponse⟩

end Plugin

/-! ## The evidence of a delivery stays within its limits

Attempts are bounded by the policy, and receipts by what the delivery can have been settled by.
Retry requests are not bounded by anything. -/

section Bounds

variable {S : Setting} {s₀ s₁ s₂ : System} {id : String}

theorem length_attemptsOf_le (hreach : (system S).Reachable s₀) {d : Delivery}
    (hd : d ∈ s₀.ledger.deliveries.rows) :
    (Repository.rowsOf Attempt.deliveryId s₀.ledger.attempts.rows d.id).length ≤
      Repository.adminAttemptLimit := by
  have hsound := sound_course (reachable_ledger hreach) (Ledger.course_of_mem hd)
  have hlength : (s₀.ledger.attemptsOf d.id).length = d.attemptCount := hsound.length_eq
  have hbudget : d.attemptCount ≤ 4 := hsound.budget
  change (s₀.ledger.attemptsOf d.id).length ≤ 10
  omega

theorem length_receiptsOf_le (hreach : (system S).Reachable s₀) {d : Delivery}
    (hd : d ∈ s₀.ledger.deliveries.rows) :
    (Repository.rowsOf Receipt.deliveryId s₀.ledger.receipts.rows d.id).length ≤
      Repository.adminReceiptLimit := by
  have htwo := (length_receipts_le (evidence_of_reachable (reachable_ledger hreach) d hd)).2.2
  change (s₀.ledger.receiptsOf d.id).length ≤ 1000
  omega

/-- A delivery is found in every later ledger, and joined. -/
theorem exists_row_of_extends {L : Ledger} (hreach : (system S).Reachable s₀)
    (hext : L.Extends s₀.ledger) {d : Delivery} (hd : d ∈ L.deliveries.rows) :
    Storable [d.id] ∧ ∃ row, row.delivery.id = d.id ∧
      row.delivery ∈ s₀.ledger.deliveries.rows ∧
      s₀.ledger.deliveries.get? d.id = some row.delivery ∧
      Runtime.join s₀.ledger row.delivery = some row := by
  have hchecked := checked_of_reachable (reachable_ledger hreach)
  obtain ⟨d', hd', hident⟩ := hext.exists_delivery hd
  have hid : d'.id = d.id := congrArg Prod.fst hident
  obtain ⟨hstorable, -⟩ := hchecked.deliveries d' hd'
  obtain ⟨row, hjoin, rfl⟩ := hchecked.exists_join hd'
  refine ⟨?_, row, hid, hd', Table.get?_eq_some.mpr ⟨hd', hid⟩, hjoin⟩
  rw [← hid]
  exact Storable.cons_iff.mpr ⟨(Storable.cons_iff.mp hstorable).1, by simp [Storable]⟩

end Bounds

/-! ## The main result -/

/-- What `dispatch_due` can report when it reads the delivery: a status it knows, times it can
format, and no more retry requests than the bounded query allows. -/
structure Reportable (S : Setting) (claim : DispatchClaim) (observed : EmailDispatchObserved)
    (d : Delivery) (L : Ledger) : Prop where
  status : Plugin.reports d.status = true
  nextAttemptAt : ∀ t ∈ d.nextAttemptAt, Plugin.Formattable S (Timestamp.read t)
  observedAt : Plugin.Formattable S observed.observedAt
  retryRequests : (Repository.rowsOf RetryRequest.deliveryId L.retryRequests.rows
    claim.deliveryId).length ≤ Repository.adminRetryRequestLimit

section Main

variable {S : Setting} {s₀ s₁ t₁ t₂ t₃ t₄ : System} {i : ℕ}
  {response : Plugin.DispatchResponse} {claim : DispatchClaim} {observed : EmailDispatchObserved}

/-- The call that hands in an answer waits for it, and its delivery is stored. -/
theorem exists_delivery_of_answer (hreach : (system S).Reachable s₀)
    {result : Plugin.DispatchResult}
    {reply : Except (PluginError DispatchDueError) EmailDispatchObserved}
    (hstep : (system S).Step s₀ (.advance i (.answered result), .dispatched claim reply) s₁) :
    ∃ d ∈ s₀.ledger.deliveries.rows, d.id = claim.deliveryId := by
  have hwaiting : ∃ now work, .dispatch now (.awaiting work) ∈ s₀.calls ∧ work.claim = claim := by
    cases System.stepped_of_exec hstep with
    | advanced hc h =>
      cases h with
      | recorded | lost => exact ⟨_, _, List.mem_of_getElem? hc, rfl⟩
  obtain ⟨now, work, hc, rfl⟩ := hwaiting
  obtain ⟨d, a, hrows, -⟩ := rows_of_work hreach hc rfl
  obtain ⟨hd, -, -⟩ := Ledger.deliveryWithAttempt_eq_some.mp hrows
  exact ⟨d, Table.get?_eq_some.mp hd⟩

/-- **When a recorded outcome is reported as such.** The four queries of the read-back take place
at four moments after the outcome was recorded. -/
theorem reported_iff {ls₁ ls₂ ls₃ ls₄ : List (Command × Reply)}
    (hreach : (system S).Reachable s₀)
    (hstep : (system S).Step s₀
      (.advance i (.answered (.response response)), .dispatched claim (.ok observed)) s₁)
    (h₁ : (system S).Run s₁ ls₁ t₁) (h₂ : (system S).Run t₁ ls₂ t₂)
    (h₃ : (system S).Run t₂ ls₃ t₃) (_h₄ : (system S).Run t₃ ls₄ t₄) :
    (∃ r, Plugin.dispatchDueResponse S claim observed t₁.ledger t₂.ledger t₃.ledger t₄.ledger =
        .ok r ∧ r.attemptId = claim.attemptId) ↔
      ∃ d, t₁.ledger.deliveries.get? claim.deliveryId = some d ∧
        Reportable S claim observed d t₄.ledger := by
  have hreach₁ : (system S).Reachable t₁ := (hreach.step hstep).run h₁
  have hreach₂ : (system S).Reachable t₂ := hreach₁.run h₂
  have hreach₃ : (system S).Reachable t₃ := hreach₂.run h₃
  -- the delivery was stored before the answer came and has stayed since
  have hext₁ : s₀.ledger.Extends t₁.ledger :=
    (extends_of_step hreach hstep).trans (extends_of_systemRun (hreach.step hstep) h₁)
  have hext₂ := hext₁.trans (extends_of_systemRun hreach₁ h₂)
  have hext₃ := hext₂.trans (extends_of_systemRun hreach₂ h₃)
  obtain ⟨d₀, hd₀, hid⟩ := exists_delivery_of_answer hreach hstep
  obtain ⟨hstorable, row, -, -, hget, hjoin⟩ := exists_row_of_extends hreach₁ hext₁ hd₀
  obtain ⟨-, row₂, hid₂, hmem₂, -⟩ := exists_row_of_extends hreach₂ hext₂ hd₀
  obtain ⟨-, row₃, hid₃, hmem₃, -⟩ := exists_row_of_extends hreach₃ hext₃ hd₀
  have hattempts := length_attemptsOf_le hreach₂ hmem₂
  have hreceipts := length_receiptsOf_le hreach₃ hmem₃
  rw [hid] at hget hstorable
  rw [hid₂, hid] at hattempts
  rw [hid₃, hid] at hreceipts
  have hread : (t₁.ledger.deliveries.get? claim.deliveryId).bind (Runtime.join t₁.ledger) =
      some row := by
    rw [hget, Option.bind_some, hjoin]
  rw [Plugin.dispatchDueResponse_eq_ok]
  constructor
  · rintro ⟨detail, hdetail, hnext, hobserved, hstatus⟩
    obtain ⟨-, row', hrow', hbounded, rfl⟩ := Repository.getDelivery_eq_ok_some.mp hdetail
    rw [hread, Option.some_inj] at hrow'
    subst hrow'
    refine ⟨row.delivery, hget, hstatus, fun t ht ↦ ?_, hobserved, hbounded.retryRequests⟩
    exact hnext _ (Option.mem_map_of_mem Timestamp.read ht)
  · rintro ⟨d, hd, hreportable⟩
    rw [hget, Option.some_inj] at hd
    subst hd
    refine ⟨_, Repository.getDelivery_eq_ok_some.mpr ⟨hstorable, row, hread,
      ⟨hattempts, hreceipts, hreportable.retryRequests⟩, rfl⟩, fun u hu ↦ ?_,
      hreportable.observedAt, hreportable.status⟩
    obtain ⟨t, ht, rfl⟩ := Option.mem_map.mp hu
    exact hreportable.nextAttemptAt t ht

end Main

/-! ## An answer that is lost

Both witnesses evaluate the acceptance of the first attempt and some commands of others behind it,
and read the delivery back in the ledger that is reached. -/

/-- The outcome a reply shows to have been recorded. -/
def Reply.outcome? : Reply → Option (DispatchClaim × EmailDispatchObserved)
  | .dispatched claim (.ok observed) => some (claim, observed)
  | _ => none

theorem eq_of_outcome? {reply : Reply} {claim : DispatchClaim} {observed : EmailDispatchObserved}
    (h : reply.outcome? = some (claim, observed)) : reply = .dispatched claim (.ok observed) := by
  unfold Reply.outcome? at h
  split at h <;> cases h
  rfl

/-- Each command has its reply. -/
theorem length_of_execAll {S : Setting} {s s' : System} {cs : List Command} {replies : List Reply}
    (h : s.execAll S cs = some (s', replies)) : replies.length = cs.length := by
  induction cs generalizing s s' replies with
  | nil =>
    cases h
    rfl
  | cons c cs ih =>
    simp only [System.execAll, bind, Option.bind_eq_some_iff, pure, Option.some_inj,
      Prod.exists, Prod.mk.injEq] at h
    obtain ⟨t, reply, -, u, rest, hrest, rfl, rfl⟩ := h
    rw [List.length_cons, List.length_cons, ih hrest]

namespace Deployment

/-- The acceptance of the first attempt is recorded, some commands are taken, and the delivery is
read back. -/
def answersAfter (cs : List Command) (succeeds : Bool) : Bool :=
  (awaiting.exec setting (.advance 1 (.answered acceptance))).any fun p : System × Reply ↦
    p.2.outcome?.any fun outcome : DispatchClaim × EmailDispatchObserved ↦
      (p.1.execAll setting cs).any fun q : System × List Reply ↦
        decide ((Plugin.dispatchDueResponse setting outcome.1 outcome.2 q.1.ledger q.1.ledger
          q.1.ledger q.1.ledger).isOk = succeeds)

theorem exists_answerAfter {cs : List Command} {succeeds : Bool}
    (h : answersAfter cs succeeds = true) :
    ∃ s₁ claim observed ls t, (system setting).Step awaiting
        (.advance 1 (.answered acceptance), .dispatched claim (.ok observed)) s₁ ∧
      (system setting).Run s₁ ls t ∧ ls.map Prod.fst = cs ∧
      (Plugin.dispatchDueResponse setting claim observed t.ledger t.ledger t.ledger
        t.ledger).isOk = succeeds := by
  obtain ⟨⟨s₁, reply⟩, hexec, hrest⟩ := (Option.any_eq_true _ _).mp h
  obtain ⟨⟨claim, observed⟩, hreply, hrest⟩ := (Option.any_eq_true _ _).mp hrest
  obtain ⟨⟨t, replies⟩, hall, hanswer⟩ := (Option.any_eq_true _ _).mp hrest
  have hreply' : reply = .dispatched claim (.ok observed) := eq_of_outcome? hreply
  rw [hreply'] at hexec
  exact ⟨s₁, claim, observed, _, t, hexec, run_of_execAll hall,
    List.map_fst_zip (Nat.le_of_eq (length_of_execAll hall).symm), of_decide_eq_true hanswer⟩

end Deployment

/-- The acceptance is reported, also if another worker finds nothing due before it is read back. -/
theorem reported_iff_accepted :
    ∃ (s₁ t : System) (claim : DispatchClaim) (observed : EmailDispatchObserved)
      (ls : List (Command × Reply)),
      (system Deployment.setting).Step Deployment.awaiting
        (.advance 1 (.answered Deployment.acceptance), .dispatched claim (.ok observed)) s₁ ∧
      (system Deployment.setting).Run s₁ ls t ∧
      ls.map Prod.fst = [.dispatchDue (some "jobs") Deployment.midnight, .advance 2 .proceed] ∧
      ∃ d, t.ledger.deliveries.get? claim.deliveryId = some d ∧
        Reportable Deployment.setting claim observed d t.ledger := by
  obtain ⟨s₁, claim, observed, ls, t, hstep, hrun, hcommands, hanswer⟩ :=
    Deployment.exists_answerAfter (show Deployment.answersAfter
      [.dispatchDue (some "jobs") Deployment.midnight, .advance 2 .proceed] true = true by
        decide +kernel)
  obtain ⟨r, hr⟩ := exists_of_isOk hanswer
  refine ⟨s₁, t, claim, observed, ls, hstep, hrun, hcommands, ?_⟩
  exact (reported_iff Deployment.reachable_awaiting hstep hrun .nil .nil .nil).mp
    ⟨r, hr, Plugin.attemptId_of_response hr⟩

/-- The receipt of the mail service arrives between the commit and the read-back. The delivery is
delivered, and the call that handed the message over fails. -/
theorem unreported_delivered :
    ∃ s₀ s₁ t i response claim observed ls, (system Deployment.setting).Reachable s₀ ∧
      (system Deployment.setting).Step s₀
        (.advance i (.answered (.response response)), .dispatched claim (.ok observed)) s₁ ∧
      (system Deployment.setting).Run s₁ ls t ∧
      ¬∃ r, Plugin.dispatchDueResponse Deployment.setting claim observed t.ledger t.ledger
        t.ledger t.ledger = .ok r := by
  obtain ⟨s₁, claim, observed, ls, t, hstep, hrun, -, hanswer⟩ :=
    Deployment.exists_answerAfter
      (show Deployment.answersAfter [Deployment.observeDelivered] false = true by decide +kernel)
  refine ⟨_, s₁, t, 1, _, claim, observed, ls, Deployment.reachable_awaiting, hstep, hrun, ?_⟩
  rintro ⟨r, hr⟩
  rw [hr] at hanswer
  cases hanswer

end NotificationLedger

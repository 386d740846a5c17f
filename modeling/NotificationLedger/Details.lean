import NotificationLedger.NoRepeat
import NotificationLedger.Presentation

/-!
# The detail of a delivery

`get_delivery` puts its answer together from four statements, each on the ledger of its moment. The
parts are right for themselves; together they describe one ledger as long as nothing of the delivery
changes between the reads. What can change is bounded: rows of evidence are only ever added, and an
attempt is added by a claim alone.
-/

namespace NotificationLedger

open Outcome

/-! ## The parts of an answer

Each part of a response is the projection of rows read by one of the four statements. -/

namespace Plugin

variable {S : Setting} {L₁ L₂ L₃ L₄ : Ledger} {caller : Option String} {id : String}
  {response : GetDeliveryResponse}

theorem getDelivery_eq_ok :
    getDelivery S L₁ L₂ L₃ L₄ caller id = .ok response ↔
      ((authorizedCaller caller S.config.adminCallers).isSome ∧
        requiredBounded id 1 160 = true ∧ Storable [id]) ∧
      ∃ row, (L₁.deliveries.get? id).bind (Runtime.join L₁) = some row ∧
        Repository.Bounded L₂ L₃ L₄ id ∧
        adminDetail S (Repository.detailOf row L₂ L₃ L₄ id) = .ok response := by
  constructor
  · intro h
    obtain ⟨_, hcaller, h⟩ := bind_eq_ok.mp h
    obtain ⟨hvalid, h⟩ := ensure_bind_eq_ok.mp h
    obtain ⟨read, hread, h⟩ := bind_eq_ok.mp h
    obtain ⟨detail, hdetail, h⟩ := bind_eq_ok.mp h
    cases require_eq_ok.mp hdetail
    obtain ⟨hid, row, hrow, hbounded, rfl⟩ :=
      Repository.getDelivery_eq_ok_some.mp (mapError_eq_ok.mp hread)
    exact ⟨⟨Option.isSome_of_eq_some (require_eq_ok.mp hcaller), hvalid, hid⟩, row, hrow, hbounded,
      mapError_eq_ok.mp h⟩
  · rintro ⟨⟨hcaller, hvalid, hid⟩, row, hrow, hbounded, hdetail⟩
    obtain ⟨c, hc⟩ := Option.isSome_iff_exists.mp hcaller
    have hread := Repository.getDelivery_eq_ok_some.mpr ⟨hid, row, hrow, hbounded, rfl⟩
    exact bind_eq_ok.mpr ⟨c, require_eq_ok.mpr hc, ensure_bind_eq_ok.mpr ⟨hvalid,
      bind_eq_ok.mpr ⟨_, mapError_eq_ok.mpr hread, bind_eq_ok.mpr ⟨_, rfl,
        mapError_eq_ok.mpr hdetail⟩⟩⟩⟩

theorem attemptCount_of_adminDelivery {value : DeliverySummary} {record : AdminDelivery}
    (h : adminDelivery S value = .ok record) :
    record.status = value.status ∧ record.revision = value.revision ∧
      record.attemptCount = value.attemptCount := by
  obtain ⟨-, h⟩ := ensure_bind_eq_ok.mp h
  obtain ⟨_, -, h⟩ := bind_eq_ok.mp h
  obtain ⟨_, -, h⟩ := bind_eq_ok.mp h
  obtain ⟨_, -, h⟩ := bind_eq_ok.mp h
  rw [← pure_eq_ok.mp h]
  exact ⟨rfl, rfl, rfl⟩

theorem id_of_adminReceipt {value : ReceiptRecord} {record : AdminReceipt}
    (h : adminReceipt S value = .ok record) : record.id = value.id := by
  obtain ⟨-, h⟩ := ensure_bind_eq_ok.mp h
  obtain ⟨_, -, h⟩ := bind_eq_ok.mp h
  rw [← pure_eq_ok.mp h]

theorem id_of_adminRetryRecord {value : RetryRecord} {record : AdminRetryRecord}
    (h : adminRetryRecord S value = .ok record) : record.id = value.id := by
  obtain ⟨-, h⟩ := ensure_bind_eq_ok.mp h
  obtain ⟨_, -, h⟩ := bind_eq_ok.mp h
  obtain ⟨_, -, h⟩ := bind_eq_ok.mp h
  rw [← pure_eq_ok.mp h]

/-- The parts of a detail, each projected for itself. -/
theorem of_adminDetail {value : DeliveryDetail} (h : adminDetail S value = .ok response) :
    adminDelivery S value.delivery = .ok response.delivery ∧
      List.Forall₂ (fun a b ↦ adminAttempt S a = .ok b) value.attempts response.attempts ∧
      List.Forall₂ (fun a b ↦ adminReceipt S a = .ok b) value.receipts response.receipts ∧
      List.Forall₂ (fun a b ↦ adminRetryRecord S a = .ok b) value.retryRequests
        response.retryRequests := by
  obtain ⟨-, h⟩ := ensure_bind_eq_ok.mp h
  obtain ⟨attempts, hattempts, h⟩ := bind_eq_ok.mp h
  obtain ⟨delivery, hdelivery, h⟩ := bind_eq_ok.mp h
  obtain ⟨receipts, hreceipts, h⟩ := bind_eq_ok.mp h
  obtain ⟨retryRequests, hretries, h⟩ := bind_eq_ok.mp h
  rw [← pure_eq_ok.mp h]
  exact ⟨hdelivery, forall₂_of_mapM hattempts, forall₂_of_mapM hreceipts, forall₂_of_mapM hretries⟩

end Plugin

/-! ## What a step adds to a delivery

A step appends at most one attempt to a delivery, and only if it claims it; so the attempts read
later are those counted before and one for each claim in between. -/

section Steps

variable {S : Setting} {s s' : System} {id : String} {l : Command × Reply}

/-- The step claims an attempt of this delivery. -/
def ClaimsOf (id : String) (l : Command × Reply) : Prop :=
  ∃ command work, l = (command, .claimed work) ∧ work.claim.deliveryId = id

/-- A claim adds the attempt it claims. -/
theorem attemptsOf_of_claim (hreach : (system S).Reachable s) {command : Command}
    {work : DispatchWork} (hstep : (system S).Step s (command, .claimed work) s') :
    ∃ a : Attempt, a.deliveryId = work.claim.deliveryId ∧
      s'.ledger.attempts.rows = s.ledger.attempts.rows ++ [a] := by
  cases System.stepped_of_exec hstep with
  | advanced hc hadvance =>
    cases hadvance with
    | claimed hclaim =>
      obtain ⟨hget, hdue, -⟩ := System.holds_of_reachable hreach _ _ (List.mem_of_getElem? hc)
      have hclaimable := (Runtime.isDue_iff.mp hdue).1
      obtain ⟨-, -, -, hwork, L₁, hins, rfl⟩ := (Runtime.claimRow_eq_ok hget hclaimable).mp hclaim
      obtain ⟨-, T, hT, rfl⟩ := Ledger.insertAttempt_eq_some.mp hins
      rw [hwork]
      exact ⟨_, rfl, (Table.insert?_eq_some.mp hT).2⟩

/-- Only a claim adds an attempt to a course. -/
theorem Course.Step.length_attempts {X : Externals} {c c' : Course} {e : Course.Event}
    (h : Course.Step X c e c') (he : ∀ now, e ≠ .claimed now) :
    c'.attempts.length = c.attempts.length := by
  cases h with
  | claim => exact absurd rfl (he _)
  | resolve | absorb | settle => exact List.length_map _
  | cancel | reschedule => rfl

/-- The attempts of a delivery, read off its course. -/
theorem Ledger.attemptsOf_eq_course {X : Externals} {L : Ledger} (hlinked : Linked X L) :
    L.attemptsOf id = ((L.course id).map Course.attempts).getD [] := by
  rw [Ledger.course, Option.map_map]
  cases hd : L.deliveries.get? id with
  | none => exact hlinked.attemptsOf_eq_nil hd
  | some d => rfl

/-- **The attempts of a delivery after a step.** -/
theorem length_attemptsOf_of_step (id : String) (hreach : (system S).Reachable s)
    (hstep : (system S).Step s l s') :
    (ClaimsOf id l →
        (s'.ledger.attemptsOf id).length = (s.ledger.attemptsOf id).length + 1) ∧
      (¬ClaimsOf id l → (s'.ledger.attemptsOf id).length = (s.ledger.attemptsOf id).length) := by
  constructor
  · rintro ⟨command, work, rfl, hid⟩
    obtain ⟨a, ha, hrows⟩ := attemptsOf_of_claim hreach hstep
    rw [Ledger.attemptsOf, hrows, List.filter_append, List.length_append]
    simp [ha, hid, Ledger.attemptsOf]
  · intro hnone
    obtain ⟨command, reply⟩ := l
    by_cases hclaim : ∃ work, reply = .claimed work
    · obtain ⟨work, rfl⟩ := hclaim
      obtain ⟨a, ha, hrows⟩ := attemptsOf_of_claim hreach hstep
      have hne : work.claim.deliveryId ≠ id := fun hid ↦ hnone ⟨_, _, rfl, hid⟩
      rw [Ledger.attemptsOf, hrows, List.filter_append, List.length_append]
      simp [ha, hne, Ledger.attemptsOf]
    -- any other step is read off the course of the delivery
    have hlinked := linked_of_reachable (reachable_ledger hreach)
    have hlinked' := linked_of_reachable (reachable_ledger (hreach.step hstep))
    rw [Ledger.attemptsOf_eq_course hlinked', Ledger.attemptsOf_eq_course hlinked]
    rcases course_of_step id hreach hstep with hsame | ⟨t, e, hissues, hshows, hmachine⟩
    · rw [hsame]
    · have he : ∀ now, e ≠ .claimed now := by
        rintro now rfl
        cases hshows with
        | claim =>
          cases hissues
          exact hclaim ⟨_, rfl⟩
      generalize s.ledger.course id = before at hmachine
      generalize s'.ledger.course id = after at hmachine
      cases hmachine with
      | opened => rfl
      | step hmove => exact hmove.length_attempts he

/-- **The attempts of a delivery after a run**: as many as before exactly when none was claimed. -/
theorem length_attemptsOf_of_run (id : String) {ls : List (Command × Reply)}
    (hreach : (system S).Reachable s) (hrun : (system S).Run s ls s') :
    (s.ledger.attemptsOf id).length ≤ (s'.ledger.attemptsOf id).length ∧
      ((s'.ledger.attemptsOf id).length = (s.ledger.attemptsOf id).length ↔
        ∀ l ∈ ls, ¬ClaimsOf id l) := by
  induction hrun with
  | nil => exact ⟨le_rfl, by simp⟩
  | @snoc ls l t u hrun hlast ih =>
    obtain ⟨hclaims, hother⟩ := length_attemptsOf_of_step id (hreach.run hrun) hlast
    rw [List.forall_mem_append, List.forall_mem_singleton, ← ih.2]
    by_cases hclaim : ClaimsOf id l
    · rw [hclaims hclaim]
      refine ⟨by omega, ⟨fun h ↦ ?_, fun h ↦ absurd hclaim h.2⟩⟩
      omega
    · rw [hother hclaim]
      exact ⟨ih.1, fun h ↦ ⟨h, hclaim⟩, fun h ↦ h.1⟩

end Steps

/-! ## The main result -/

/-- What a successful answer says about the four states its statements have read, with the steps
`ls` between the first two. -/
structure Detailed (S : Setting) (caller : Option String) (id : String) (s₁ s₂ s₃ s₄ : System)
    (ls : List (Command × Reply)) (response : Plugin.GetDeliveryResponse) : Prop where
  /-- Each part projects the ledger it was read from. -/
  parts : ∃ row, (s₁.ledger.deliveries.get? id).bind (Runtime.join s₁.ledger) = some row ∧
    response.delivery.status = row.delivery.status ∧
    response.delivery.revision = row.delivery.revision ∧
    response.delivery.attemptCount = row.delivery.attemptCount ∧
    Plugin.adminDetail S (Repository.detailOf row s₂.ledger s₃.ledger s₄.ledger id) = .ok response
  /-- Unless its rows change before they are read, the answer projects one state. -/
  single : Repository.rowsOf Attempt.deliveryId s₂.ledger.attempts.rows id =
      Repository.rowsOf Attempt.deliveryId s₁.ledger.attempts.rows id →
    Repository.rowsOf Receipt.deliveryId s₃.ledger.receipts.rows id =
      Repository.rowsOf Receipt.deliveryId s₁.ledger.receipts.rows id →
    Repository.rowsOf RetryRequest.deliveryId s₄.ledger.retryRequests.rows id =
      Repository.rowsOf RetryRequest.deliveryId s₁.ledger.retryRequests.rows id →
    Plugin.getDelivery S s₁.ledger s₁.ledger s₁.ledger s₁.ledger caller id = .ok response
  /-- The count agrees with the attempts unless one was claimed in between. -/
  attempts : response.delivery.attemptCount ≤ response.attempts.length ∧
    (response.attempts.length = response.delivery.attemptCount ↔ ∀ l ∈ ls, ¬ClaimsOf id l)
  /-- Evidence stored at the first read is in the answer. -/
  receipts : ∀ r ∈ s₁.ledger.receipts.rows, r.deliveryId = id →
    r.id ∈ response.receipts.map Plugin.AdminReceipt.id
  retryRequests : ∀ q ∈ s₁.ledger.retryRequests.rows, q.deliveryId = id →
    q.id ∈ response.retryRequests.map Plugin.AdminRetryRecord.id

/-- The returned count is that of the first read, the returned attempts are those of the second. -/
theorem counts_of_getDelivery {S : Setting} {s : System} {L₂ L₃ L₄ : Ledger}
    {caller : Option String} {id : String} {response : Plugin.GetDeliveryResponse}
    (hreach : (system S).Reachable s)
    (hread : Plugin.getDelivery S s.ledger L₂ L₃ L₄ caller id = .ok response) :
    response.delivery.attemptCount = (s.ledger.attemptsOf id).length ∧
      response.attempts.length = (L₂.attemptsOf id).length := by
  obtain ⟨-, row, hrow, -, hdetail⟩ := Plugin.getDelivery_eq_ok.mp hread
  obtain ⟨hdelivery, hattempts, -⟩ := Plugin.of_adminDetail hdetail
  obtain ⟨-, -, hcount⟩ := Plugin.attemptCount_of_adminDelivery hdelivery
  obtain ⟨d, hd, hjoin⟩ := Option.bind_eq_some_iff.mp hrow
  obtain ⟨hsame, -⟩ := Runtime.of_join hjoin
  have hcourse : s.ledger.course id = some ⟨d, s.ledger.attemptsOf id⟩ :=
    Ledger.course_eq_some.mpr ⟨hd, rfl⟩
  constructor
  · rw [hcount, (sound_course (reachable_ledger hreach) hcourse).length_eq]
    exact congrArg Delivery.attemptCount hsame
  · rw [← hattempts.length_eq]
    exact (List.length_map _).trans (List.length_mergeSort _)

/-- **A delivery detail** puts together four successive states. -/
theorem detailed_of_getDelivery {S : Setting} {s₁ s₂ s₃ s₄ : System}
    {ls ms ns : List (Command × Reply)} {caller : Option String} {id : String}
    {response : Plugin.GetDeliveryResponse} (hreach : (system S).Reachable s₁)
    (h₁ : (system S).Run s₁ ls s₂) (h₂ : (system S).Run s₂ ms s₃) (h₃ : (system S).Run s₃ ns s₄)
    (hread : Plugin.getDelivery S s₁.ledger s₂.ledger s₃.ledger s₄.ledger caller id =
      .ok response) : Detailed S caller id s₁ s₂ s₃ s₄ ls response := by
  have hreach₂ := hreach.run h₁
  have hext₃ := (extends_of_systemRun hreach h₁).trans (extends_of_systemRun hreach₂ h₂)
  have hext₄ := hext₃.trans (extends_of_systemRun (hreach₂.run h₂) h₃)
  obtain ⟨hvalid, row, hrow, hbounded, hdetail⟩ := Plugin.getDelivery_eq_ok.mp hread
  obtain ⟨hdelivery, -, hreceipts, hretries⟩ := Plugin.of_adminDetail hdetail
  obtain ⟨hstatus, hrevision, hcount⟩ := Plugin.attemptCount_of_adminDelivery hdelivery
  obtain ⟨hcounted, hlength⟩ := counts_of_getDelivery hreach hread
  obtain ⟨hle, hiff⟩ := length_attemptsOf_of_run id hreach h₁
  refine ⟨⟨row, hrow, hstatus, hrevision, hcount, hdetail⟩, fun ha hr hq ↦ ?_, ?_, ?_, ?_⟩
  · -- with the same rows at every read, four reads of the first state give the same answer
    refine Plugin.getDelivery_eq_ok.mpr ⟨hvalid, row, hrow, ?_, ?_⟩
    · exact ⟨ha ▸ hbounded.attempts, hr ▸ hbounded.receipts, hq ▸ hbounded.retryRequests⟩
    · rw [← hdetail, Repository.detailOf, Repository.detailOf, ha, hr, hq]
  · rw [hcounted, hlength]
    exact ⟨hle, hiff⟩
  · intro r hr hid
    have hids := map_eq_of_forall₂ (f := ReceiptRecord.id) (g := Plugin.AdminReceipt.id)
      (fun _ _ h ↦ (Plugin.id_of_adminReceipt h).symm) hreceipts
    rw [← hids]
    have hrows := Repository.mem_rowsOf.mpr ⟨hext₃.receipts.subset hr, hid⟩
    exact List.mem_map_of_mem (List.mem_map_of_mem (List.mem_mergeSort.mpr hrows))
  · intro q hq hid
    have hids := map_eq_of_forall₂ (f := RetryRecord.id) (g := Plugin.AdminRetryRecord.id)
      (fun _ _ h ↦ (Plugin.id_of_adminRetryRecord h).symm) hretries
    rw [← hids]
    have hrows := Repository.mem_rowsOf.mpr ⟨hext₄.retryRequests.subset hq, hid⟩
    exact List.mem_map_of_mem (List.mem_map_of_mem (List.mem_mergeSort.mpr hrows))

/-! ## A claim between two statements

The row is read before a claim and its attempts behind it: the answer counts one attempt and lists
two. -/

namespace Deployment

/-- The delivery is read before it is claimed, and its attempts afterwards. -/
theorem exists_tornAnswer :
    ∃ response, Plugin.getDelivery setting queued.ledger awaiting.ledger awaiting.ledger
      awaiting.ledger (some "admin") delivery.id = .ok response := by
  have hrow : ((queued.ledger.deliveries.get? delivery.id).bind
      (Runtime.join queued.ledger)).any (fun row ↦
        (Plugin.adminDelivery setting (Repository.summaryFromRow row)).isOk) = true := by decide
  obtain ⟨row, hrow, hdelivery⟩ := (Option.any_eq_true _ _).mp hrow
  have hbounded : Repository.Bounded awaiting.ledger awaiting.ledger awaiting.ledger delivery.id :=
    ⟨by decide, by decide, by decide⟩
  have hattempt : (Plugin.adminAttempt setting (Repository.attemptRecord attempt)).isOk = true := by
    decide
  obtain ⟨response, hdetail⟩ := Plugin.exists_adminDetail (S := setting) hbounded
    (fun a ha ↦ List.mem_singleton.mp ha ▸ exists_of_isOk hattempt) (exists_of_isOk hdelivery)
    (fun r hr ↦ absurd hr List.not_mem_nil) (fun q hq ↦ absurd hq List.not_mem_nil)
  exact ⟨response, Plugin.getDelivery_eq_ok.mpr
    ⟨⟨by decide, by decide, by decide⟩, row, hrow, hbounded, hdetail⟩⟩

end Deployment

/-- What that answer does say. -/
theorem detailed_of_getDelivery_claimed :
    ∃ ls response, Detailed Deployment.setting (some "admin") Deployment.delivery.id
      Deployment.queued Deployment.awaiting Deployment.awaiting Deployment.awaiting ls
      response := by
  obtain ⟨response, hread⟩ := Deployment.exists_tornAnswer
  obtain ⟨ls, hrun, -⟩ := exists_run_of_execAll Deployment.handOver_runs
  exact ⟨ls, response, detailed_of_getDelivery Deployment.reachable_queued hrun .nil .nil hread⟩

/-- It shows an attempt of a delivery that has none, as no state of the ledger does. -/
theorem not_single_of_claimed :
    ∃ s₁ ls s₂ caller id response, (system Deployment.setting).Reachable s₁ ∧
      (system Deployment.setting).Run s₁ ls s₂ ∧
      Plugin.getDelivery Deployment.setting s₁.ledger s₂.ledger s₂.ledger s₂.ledger caller id =
        .ok response ∧
      response.attempts.length ≠ response.delivery.attemptCount ∧
      ∀ t, (system Deployment.setting).Reachable t →
        Plugin.getDelivery Deployment.setting t.ledger t.ledger t.ledger t.ledger caller id ≠
          .ok response := by
  obtain ⟨response, hread⟩ := Deployment.exists_tornAnswer
  obtain ⟨ls, hrun, -⟩ := exists_run_of_execAll Deployment.handOver_runs
  obtain ⟨hcount, hlength⟩ := counts_of_getDelivery Deployment.reachable_queued hread
  have hnone : (Deployment.queued.ledger.attemptsOf Deployment.delivery.id).length = 0 := by decide
  have hone : (Deployment.awaiting.ledger.attemptsOf Deployment.delivery.id).length = 1 := by decide
  have htorn : response.attempts.length ≠ response.delivery.attemptCount := by
    rw [hcount, hlength, hnone, hone]
    decide
  refine ⟨_, ls, _, _, _, response, Deployment.reachable_queued, hrun, hread, htorn, ?_⟩
  intro t ht hsingle
  obtain ⟨hcount', hlength'⟩ := counts_of_getDelivery ht hsingle
  exact htorn (hlength'.trans hcount'.symm)

end NotificationLedger

import NotificationLedger.Answers
import NotificationLedger.Creation

/-!
# Rows the projections accept

The administrative projections check what they read once more before it leaves the plugin, with
bounds of their own. Here are the conditions under which they accept a row and a query its rows.
What a row owes to the request behind its intent holds of every reachable ledger; the rest, all
times among it, is collected in one predicate for each table.
-/

namespace NotificationLedger

open Outcome

/-! ## What a projection accepts

The checks of the projections, as conditions on a record. -/

namespace Plugin

variable {S : Setting}

theorem exists_adminDelivery {value : DeliverySummary} (hvalid : validSummary value = true)
    (hcreated : Formattable S value.createdAt) (hnext : ∀ t ∈ value.nextAttemptAt, Formattable S t)
    (hupdated : Formattable S value.updatedAt) : ∃ record, adminDelivery S value = .ok record := by
  obtain ⟨createdAt, hcreated⟩ := exists_formatTime.mpr hcreated
  obtain ⟨nextAttemptAt, hnext⟩ := exists_formatOptional.mpr hnext
  obtain ⟨updatedAt, hupdated⟩ := exists_formatTime.mpr hupdated
  rw [adminDelivery, ensure_of hvalid, ok_bind, hcreated, ok_bind, hnext, ok_bind, hupdated]
  exact ⟨_, rfl⟩

theorem exists_adminAttempt {value : AttemptRecord} (hvalid : validAttempt value = true)
    (hcompleted : ∀ t ∈ value.completedAt, Formattable S t)
    (hstarted : Formattable S value.startedAt) : ∃ record, adminAttempt S value = .ok record := by
  obtain ⟨completedAt, hcompleted⟩ := exists_formatOptional.mpr hcompleted
  obtain ⟨startedAt, hstarted⟩ := exists_formatTime.mpr hstarted
  rw [adminAttempt, ensure_of hvalid, ok_bind, hcompleted, ok_bind, hstarted]
  exact ⟨_, rfl⟩

theorem exists_adminReceipt {value : ReceiptRecord} (hvalid : validReceipt value = true)
    (hobserved : Formattable S value.observedAt) : ∃ record, adminReceipt S value = .ok record := by
  obtain ⟨observedAt, hobserved⟩ := exists_formatTime.mpr hobserved
  rw [adminReceipt, ensure_of hvalid, ok_bind, hobserved]
  exact ⟨_, rfl⟩

theorem exists_adminRetryRecord {value : RetryRecord} (hvalid : validRetryRecord value = true)
    (hcreated : Formattable S value.createdAt)
    (hscheduled : ∀ t ∈ value.scheduledAt, Formattable S t) :
    ∃ record, adminRetryRecord S value = .ok record := by
  obtain ⟨createdAt, hcreated⟩ := exists_formatTime.mpr hcreated
  obtain ⟨scheduledAt, hscheduled⟩ := exists_formatOptional.mpr hscheduled
  rw [adminRetryRecord, ensure_of hvalid, ok_bind, hcreated, ok_bind, hscheduled]
  exact ⟨_, rfl⟩

/-! ## What a query accepts

A query answers if every row it returns projects. For the evidence of a delivery there are limits in
addition, and exceeding one fails the query. -/

/-- **A list** of rows that are all accepted. -/
theorem exists_listDeliveries {L : Ledger} {caller : Option String}
    {request : ListDeliveriesRequest}
    (hcaller : (authorizedCaller caller S.config.adminCallers).isSome)
    (hvalid : validListRequest request = true) (hcursor : Storable request.cursor.toList)
    (hrows : ∀ d ∈ L.deliveries.rows, ∀ row ∈ Runtime.join L d,
      ∃ record, adminDelivery S (Repository.summaryFromRow row) = .ok record) :
    ∃ response, listDeliveries S L caller request = .ok response := by
  obtain ⟨c, hc⟩ := Option.isSome_iff_exists.mp hcaller
  have hall : ∀ limit, ∀ value ∈ ((((L.deliveries.rows.filter
      (Repository.listed request.cursor request.status)).filterMap (Runtime.join L)).map
        Repository.summaryFromRow).mergeSort Repository.listOrder).take limit,
      ∃ record, adminDelivery S value = .ok record := by
    intro limit value hvalue
    obtain ⟨row, hrow, rfl⟩ := List.mem_map.mp (List.mem_mergeSort.mp (List.mem_of_mem_take hvalue))
    obtain ⟨d, hd, hjoin⟩ := List.mem_filterMap.mp hrow
    exact hrows d (List.mem_filter.mp hd).1 row hjoin
  obtain ⟨records, hrecords⟩ := exists_mapM fun value hvalue ↦
    hall ((request.limit.getD 100).toNat + 1) value
      (List.mem_of_mem_take (i := (request.limit.getD 100).toNat) hvalue)
  exact ⟨_, bind_eq_ok.mpr ⟨c, require_eq_ok.mpr hc, ensure_bind_eq_ok.mpr ⟨hvalid,
    bind_eq_ok.mpr ⟨_, mapError_eq_ok.mpr (ensure_bind_eq_ok.mpr ⟨hcursor, rfl⟩),
      bind_eq_ok.mpr ⟨records, mapError_eq_ok.mpr hrecords, rfl⟩⟩⟩⟩⟩

end Plugin

namespace Repository

variable {L₁ L₂ L₃ L₄ : Ledger} {id : String}

theorem evidenceOf_overflow {α β : Type} {limit : ℕ} {rows : List α} {order : α → α → Bool}
    {record : α → β} (h : limit < rows.length) :
    evidenceOf limit rows order record = .error adminEvidenceOverflow := by
  have hmore : ¬((rows.mergeSort order).take (limit + 1)).length ≤ limit := by
    rw [List.length_take, List.length_mergeSort]
    omega
  rw [evidenceOf, ensure_of_not hmore]
  rfl

/-- A stored delivery is read, unless it has too many rows. -/
theorem getDelivery_of_row (hid : Storable [id]) {row : Runtime.DueRow}
    (hrow : (L₁.deliveries.get? id).bind (Runtime.join L₁) = some row) :
    (Bounded L₂ L₃ L₄ id ∧
        getDelivery L₁ L₂ L₃ L₄ id = .ok (some (detailOf row L₂ L₃ L₄ id))) ∨
      getDelivery L₁ L₂ L₃ L₄ id = .error adminEvidenceOverflow := by
  by_cases hbounded : Bounded L₂ L₃ L₄ id
  · exact Or.inl ⟨hbounded, getDelivery_eq_ok_some.mpr ⟨hid, row, hrow, hbounded, rfl⟩⟩
  right
  rw [getDelivery, ensure_of hid, ok_bind, hrow]
  simp only
  -- the first of the three statements that finds too many rows
  by_cases hattempts : (rowsOf Attempt.deliveryId L₂.attempts.rows id).length ≤ adminAttemptLimit
  · rw [evidenceOf_eq_ok.mpr ⟨hattempts, rfl⟩, ok_bind]
    by_cases hreceipts :
      (rowsOf Receipt.deliveryId L₃.receipts.rows id).length ≤ adminReceiptLimit
    · rw [evidenceOf_eq_ok.mpr ⟨hreceipts, rfl⟩, ok_bind, evidenceOf_overflow, error_bind]
      by_contra hretries
      exact hbounded ⟨hattempts, hreceipts, Nat.not_lt.mp hretries⟩
    · rw [evidenceOf_overflow (Nat.not_le.mp hreceipts), error_bind]
  · rw [evidenceOf_overflow (Nat.not_le.mp hattempts), error_bind]

theorem mem_rowsOf {α : Type} {deliveryId : α → String} {rows : List α} {r : α} :
    r ∈ rowsOf deliveryId rows id ↔ r ∈ rows ∧ deliveryId r = id := by
  rw [rowsOf, List.mem_filter, decide_eq_true_eq]

end Repository

namespace Plugin

variable {S : Setting} {L₁ L₂ L₃ L₄ : Ledger} {id : String}

/-- **The detail** of a delivery whose rows are all accepted. -/
theorem exists_adminDetail {row : Runtime.DueRow} (hbounded : Repository.Bounded L₂ L₃ L₄ id)
    (hattempts : ∀ a ∈ L₂.attempts.rows,
      ∃ record, adminAttempt S (Repository.attemptRecord a) = .ok record)
    (hdelivery : ∃ record, adminDelivery S (Repository.summaryFromRow row) = .ok record)
    (hreceipts : ∀ r ∈ L₃.receipts.rows,
      ∃ record, adminReceipt S (Repository.receiptRecord r) = .ok record)
    (hretries : ∀ q ∈ L₄.retryRequests.rows,
      ∃ record, adminRetryRecord S (Repository.retryRecord q) = .ok record) :
    ∃ response, adminDetail S (Repository.detailOf row L₂ L₃ L₄ id) = .ok response := by
  obtain ⟨delivery, hdelivery⟩ := hdelivery
  have hattempts : ∃ records, (Repository.detailOf row L₂ L₃ L₄ id).attempts.mapM
      (adminAttempt S) = .ok records := by
    refine exists_mapM fun value hvalue ↦ ?_
    obtain ⟨a, ha, rfl⟩ := List.mem_map.mp hvalue
    exact hattempts a (Repository.mem_rowsOf.mp (List.mem_mergeSort.mp ha)).1
  have hreceipts : ∃ records, (Repository.detailOf row L₂ L₃ L₄ id).receipts.mapM
      (adminReceipt S) = .ok records := by
    refine exists_mapM fun value hvalue ↦ ?_
    obtain ⟨r, hr, rfl⟩ := List.mem_map.mp hvalue
    exact hreceipts r (Repository.mem_rowsOf.mp (List.mem_mergeSort.mp hr)).1
  have hretries : ∃ records, (Repository.detailOf row L₂ L₃ L₄ id).retryRequests.mapM
      (adminRetryRecord S) = .ok records := by
    refine exists_mapM fun value hvalue ↦ ?_
    obtain ⟨q, hq, rfl⟩ := List.mem_map.mp hvalue
    exact hretries q (Repository.mem_rowsOf.mp (List.mem_mergeSort.mp hq)).1
  obtain ⟨attempts, hattempts⟩ := hattempts
  obtain ⟨receipts, hreceipts⟩ := hreceipts
  obtain ⟨retries, hretries⟩ := hretries
  refine ⟨_, ensure_bind_eq_ok.mpr ⟨?_, bind_eq_ok.mpr ⟨attempts, hattempts, bind_eq_ok.mpr
    ⟨delivery, hdelivery, bind_eq_ok.mpr ⟨receipts, hreceipts, bind_eq_ok.mpr
      ⟨retries, hretries, rfl⟩⟩⟩⟩⟩⟩
  simp only [Repository.detailOf, List.length_map, List.length_mergeSort]
  exact ⟨hbounded.attempts, hbounded.receipts, hbounded.retryRequests⟩

/-- **A delivery is shown**, or reported to have too many rows. -/
theorem getDelivery_of_row {caller : Option String}
    (hcaller : (authorizedCaller caller S.config.adminCallers).isSome)
    (hvalid : requiredBounded id 1 160 = true) (hid : Storable [id]) {row : Runtime.DueRow}
    (hrow : (L₁.deliveries.get? id).bind (Runtime.join L₁) = some row)
    (hdetail : Repository.Bounded L₂ L₃ L₄ id →
      ∃ response, adminDetail S (Repository.detailOf row L₂ L₃ L₄ id) = .ok response) :
    (∃ response, getDelivery S L₁ L₂ L₃ L₄ caller id = .ok response) ∨
      getDelivery S L₁ L₂ L₃ L₄ caller id = .error (.domain .evidenceOverflow) := by
  obtain ⟨c, hc⟩ := Option.isSome_iff_exists.mp hcaller
  rw [getDelivery, hc, require_some, ok_bind, ensure_of hvalid, ok_bind]
  rcases Repository.getDelivery_of_row hid hrow with ⟨hbounded, hread⟩ | hread
  · obtain ⟨response, hresponse⟩ := hdetail hbounded
    left
    rw [hread]
    exact ⟨response, bind_eq_ok.mpr ⟨_, rfl, bind_eq_ok.mpr
      ⟨_, rfl, mapError_eq_ok.mpr hresponse⟩⟩⟩
  · right
    rw [hread]
    rfl

end Plugin

/-! ## What the rows hold

The texts and counts of a row were bounded when it was written. Its times were not, and they are
collected in `Presentable`. -/

/-- A stored time in the four-digit years. -/
def Timestamp.InRange (t : Timestamp) : Prop := Plugin.inYearRange (Timestamp.read t) = true

/-- The columns of a delivery that no reference to its intent bounds. -/
structure Delivery.Presentable (d : Delivery) : Prop where
  createdAt : Timestamp.InRange d.createdAt
  nextAttemptAt : ∀ t ∈ d.nextAttemptAt, Timestamp.InRange t
  updatedAt : Timestamp.InRange d.updatedAt
  finalReason : optionalBounded d.finalReason 160 = true

structure Attempt.Presentable (a : Attempt) : Prop where
  startedAt : Timestamp.InRange a.startedAt
  completedAt : ∀ t ∈ a.completedAt, Timestamp.InRange t
  provider : optionalBounded a.provider 160 = true
  remoteReceiptId : optionalBounded a.remoteReceiptId 320 = true
  failureCode : optionalBounded a.failureCode 160 = true
  failureClassification : optionalBounded a.failureClassification 160 = true

structure Receipt.Presentable (r : Receipt) : Prop where
  id : requiredBounded r.id 1 160 = true
  source : requiredBounded r.source 1 160 = true
  remoteId : requiredBounded r.remoteId 1 320 = true
  observedAt : Timestamp.InRange r.observedAt

structure RetryRequest.Presentable (q : RetryRequest) : Prop where
  id : requiredBounded q.id 1 160 = true
  requestedBy : optionalBounded q.requestedBy 240 = true
  sourceRevision : 1 ≤ q.sourceRevision ∧ q.sourceRevision ≤ maxSafeWireInteger
  reason : optionalBounded q.reason 160 = true
  scheduledAt : ∀ t ∈ q.scheduledAt, Timestamp.InRange t
  createdAt : Timestamp.InRange q.createdAt

structure Ledger.Presentable (L : Ledger) : Prop where
  deliveries : ∀ d ∈ L.deliveries.rows, d.Presentable
  attempts : ∀ a ∈ L.attempts.rows, a.Presentable
  receipts : ∀ r ∈ L.receipts.rows, r.Presentable
  retryRequests : ∀ q ∈ L.retryRequests.rows, q.Presentable

section Accepted

variable {S : Setting} {s : System} {d : Delivery} {row : Runtime.DueRow}

theorem Runtime.of_join {L : Ledger} (h : Runtime.join L d = some row) :
    row.delivery = d ∧ row.intent ∈ L.intents.rows ∧ row.snapshot ∈ L.renderSnapshots.rows ∧
      row.template ∈ L.templateReleases.rows := by
  simp only [Runtime.join, bind, Option.bind_eq_some_iff, pure, Option.some_inj] at h
  obtain ⟨i, hi, snapshot, hsnapshot, template, htemplate, rfl⟩ := h
  exact ⟨rfl, (Table.get?_eq_some.mp hi).1, (Table.get?_eq_some.mp hsnapshot).1,
    (Table.get?_eq_some.mp htemplate).1⟩

/-- The mask, the locale and the correlation id of a stored intent. -/
theorem bounded_of_intent (hreach : (system S).Reachable s) {i : Intent}
    (hi : i ∈ s.ledger.intents.rows) :
    requiredBounded i.recipientMask 3 320 = true ∧ requiredBounded i.locale 2 32 = true ∧
      requiredBounded i.correlationId 1 240 = true := by
  obtain ⟨request, hwritten⟩ := (provenance_of_reachable hreach).intents i hi
  obtain ⟨hvalid, -, -, -, -, -, hlocale, hcorrelation, hmask⟩ := hwritten.fields
  obtain ⟨⟨-, -, -, -, hlength⟩, -⟩ :=
    (checked_of_reachable (reachable_ledger hreach)).intents i hi
  refine ⟨?_, ?_, ?_⟩
  · rw [requiredBounded, hmask, Snapshot.isBlank_maskEmail hvalid.mailbox, ← hmask]
    exact decide_eq_true hlength
  · rw [hlocale]
    rcases hvalid.locale with h | h <;> rw [h] <;> decide
  · rw [hcorrelation]
    exact hvalid.correlationId

/-- The template and the version of a stored release. -/
theorem bounded_of_release (hreach : (system S).Reachable s) {t : TemplateRelease}
    (ht : t ∈ s.ledger.templateReleases.rows) :
    requiredBounded t.templateId 1 160 = true ∧ requiredBounded t.version 1 80 = true := by
  obtain ⟨request, rendered, now, ⟨-, hrendered⟩, rfl⟩ :=
    (provenance_of_reachable hreach).releases t ht
  obtain ⟨⟨htemplate, hversion, -⟩, -⟩ := Public.validateRenderedTemplate_eq_ok.mp hrendered
  obtain ⟨hpos, hlength, hblank, -⟩ := length_templateId request
  simp only [Public.releaseRow, Public.persistenceOf]
  rw [htemplate, hversion, requiredBounded, hblank]
  exact ⟨decide_eq_true ⟨hpos, hlength⟩, by decide⟩

/-- **The summary of a stored delivery** passes its bounds. -/
theorem validSummary_of_reachable (hreach : (system S).Reachable s)
    (hd : d ∈ s.ledger.deliveries.rows) (hjoin : Runtime.join s.ledger d = some row)
    (hreason : optionalBounded d.finalReason 160 = true) :
    Plugin.validSummary (Repository.summaryFromRow row) = true := by
  have hledger := reachable_ledger hreach
  obtain ⟨rfl, hi, hsnapshot, htemplate⟩ := Runtime.of_join hjoin
  obtain ⟨hmask, hlocale, hcorrelation⟩ := bounded_of_intent hreach hi
  obtain ⟨htemplateId, hversion⟩ := bounded_of_release hreach htemplate
  obtain ⟨⟨-, -, hdigest, hpreview⟩, -⟩ :=
    (checked_of_reachable hledger).renderSnapshots _ hsnapshot
  have hsound := sound_course hledger (Ledger.course_of_mem hd)
  have hid : requiredBounded row.delivery.id 1 160 = true := by
    rw [((linked_of_reachable hledger).deliveries _ hd).1]
    exact requiredBounded_stableId _ (by decide)
  have hcount : row.delivery.attemptCount ≤ 10 := le_trans hsound.budget (by decide)
  have hmax : row.delivery.maxAttempts = 4 := hsound.maxAttempts
  have hroom : 1 ≤ row.delivery.maxAttempts ∧ row.delivery.maxAttempts ≤ 10 := by
    rw [hmax]
    decide
  have hbudget : row.delivery.attemptCount ≤ row.delivery.maxAttempts := hmax ▸ hsound.budget
  simp only [Plugin.validSummary, Bool.and_eq_true, decide_eq_true_eq]
  exact ⟨⟨⟨⟨⟨⟨⟨⟨⟨⟨⟨⟨hid, hmask⟩, htemplateId⟩, hversion⟩, hlocale⟩, hsound.revision⟩, hcount⟩,
    hroom⟩, hbudget⟩, hpreview⟩, hdigest⟩, hcorrelation⟩, hreason⟩

/-- Every time in the four-digit years has a text that the plugin's own check accepts. -/
def Formats (S : Setting) : Prop :=
  ∀ t, Plugin.inYearRange t = true → Plugin.validTime S (S.externals.toRfc3339Millis t) = true

theorem Formats.formattable (h : Formats S) {t : Timestamp} (ht : Timestamp.InRange t) :
    Plugin.Formattable S (Timestamp.read t) := ⟨ht, h _ ht⟩

theorem Formats.formattable_map (h : Formats S) {t : Option Timestamp}
    (ht : ∀ u ∈ t, Timestamp.InRange u) :
    ∀ u ∈ t.map Timestamp.read, Plugin.Formattable S u := by
  intro u hu
  obtain ⟨v, hv, rfl⟩ := Option.mem_map.mp hu
  exact h.formattable (ht v hv)

/-- **A presentable delivery is accepted.** -/
theorem Delivery.Presentable.exists_admin (hformats : Formats S) (hreach : (system S).Reachable s)
    (hd : d ∈ s.ledger.deliveries.rows) (hjoin : Runtime.join s.ledger d = some row)
    (h : d.Presentable) :
    ∃ record, Plugin.adminDelivery S (Repository.summaryFromRow row) = .ok record := by
  have hvalid := validSummary_of_reachable hreach hd hjoin h.finalReason
  obtain ⟨rfl, -⟩ := Runtime.of_join hjoin
  exact Plugin.exists_adminDelivery hvalid (hformats.formattable h.createdAt)
    (hformats.formattable_map h.nextAttemptAt) (hformats.formattable h.updatedAt)

/-- The ids and the sequence of a stored attempt. -/
theorem bounded_of_attempt (hreach : (system S).Reachable s) {a : Attempt}
    (ha : a ∈ s.ledger.attempts.rows) :
    requiredBounded a.id 1 160 = true ∧ (1 ≤ a.sequence ∧ a.sequence ≤ 10) ∧
      requiredBounded a.functionRunId 1 160 = true := by
  have hledger := reachable_ledger hreach
  obtain ⟨d, hd, hid⟩ := (linked_of_reachable hledger).attempts a ha
  have hsound := sound_course hledger (Ledger.course_of_mem hd)
  have hmem : a ∈ s.ledger.attemptsOf d.id := Ledger.mem_attemptsOf.mpr ⟨ha, hid.symm⟩
  obtain ⟨-, hname, hrun, -⟩ := hsound.named a hmem
  have hle := hsound.sequence_le hmem
  have hbudget : d.attemptCount ≤ 4 := hsound.budget
  refine ⟨?_, ⟨hle.1, le_trans hle.2 (le_trans hbudget (by decide))⟩, ?_⟩
  · rw [hname]
    exact requiredBounded_stableId _ (by decide)
  · rw [hrun]
    exact requiredBounded_stableId _ (by decide)

theorem Attempt.Presentable.exists_admin (hformats : Formats S) (hreach : (system S).Reachable s)
    {a : Attempt} (ha : a ∈ s.ledger.attempts.rows) (h : a.Presentable) :
    ∃ record, Plugin.adminAttempt S (Repository.attemptRecord a) = .ok record := by
  obtain ⟨hid, hsequence, hrun⟩ := bounded_of_attempt hreach ha
  refine Plugin.exists_adminAttempt ?_ (hformats.formattable_map h.completedAt)
    (hformats.formattable h.startedAt)
  simp only [Plugin.validAttempt, Bool.and_eq_true, decide_eq_true_eq]
  exact ⟨⟨⟨⟨⟨⟨hid, hsequence⟩, hrun⟩, h.provider⟩, h.remoteReceiptId⟩, h.failureCode⟩,
    h.failureClassification⟩

theorem Receipt.Presentable.exists_admin (hformats : Formats S) (hreach : (system S).Reachable s)
    {r : Receipt} (hr : r ∈ s.ledger.receipts.rows) (h : r.Presentable) :
    ∃ record, Plugin.adminReceipt S (Repository.receiptRecord r) = .ok record := by
  have hledger := reachable_ledger hreach
  obtain ⟨a, ha, hid, -⟩ := (linked_of_reachable hledger).receipts r hr
  obtain ⟨hattempt, -⟩ := bounded_of_attempt hreach ha
  have hattemptId : requiredBounded r.attemptId 1 160 = true := by
    rw [← hid]
    exact hattempt
  refine Plugin.exists_adminReceipt ?_ (hformats.formattable h.observedAt)
  simp only [Plugin.validReceipt, Bool.and_eq_true]
  exact ⟨⟨⟨⟨h.id, hattemptId⟩, h.source⟩, h.remoteId⟩,
    ((checked_of_reachable hledger).receipts r hr).2⟩

theorem RetryRequest.Presentable.exists_admin (hformats : Formats S) {q : RetryRequest}
    (h : q.Presentable) :
    ∃ record, Plugin.adminRetryRecord S (Repository.retryRecord q) = .ok record := by
  refine Plugin.exists_adminRetryRecord ?_ (hformats.formattable h.createdAt)
    (hformats.formattable_map h.scheduledAt)
  simp only [Plugin.validRetryRecord, Bool.and_eq_true, decide_eq_true_eq]
  exact ⟨⟨⟨h.id, h.requestedBy⟩, h.sourceRevision⟩, h.reason⟩

end Accepted

end NotificationLedger

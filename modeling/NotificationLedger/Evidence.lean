import NotificationLedger.Columns
import NotificationLedger.Observations
import NotificationLedger.Receipts

/-!
# Evidence of delivery

Two kinds of evidence lie beside a delivery: at most one receipt of a mail service, which is what
its final status stands for, and at most one trace of an accepted dispatch. The invariant relates
the status of a delivery to the receipts stored for it; the histories say which call each of them
came from.

## The invariant

`Evidenced` compares a delivery with the receipts stored for it: those of mail services are of the
kind its status and reason tell, none or one, and a trace of an accepted dispatch is stored only
where there is a time of acceptance, and once. A row transformation keeps this together with the
receipt it inserts, so both are looked at in one step; `Evidence` says it of all rows.

A history then gives every stored receipt the call that brought it: a receipt call, or the answer of
a provider that named one.
-/

namespace NotificationLedger

open Outcome

/-! ## Receipts of one delivery

The receipts a mail service can send settle a delivery; the trace that an accepted dispatch leaves
in the same table does not. -/

/-- The receipt of a mail service, as opposed to the trace of an accepted dispatch. -/
def EvidenceKind.isAuthoritative : EvidenceKind → Bool
  | .accepted => false
  | .delivered | .bounced | .rejected => true

theorem ReceiptKind.isAuthoritative_evidence (kind : ReceiptKind) :
    kind.evidence.isAuthoritative = true := by
  cases kind <;> rfl

/-- The receipt the status of a delivery stands for. -/
def Delivery.settledBy (d : Delivery) : Option EvidenceKind :=
  match d.status with
  | .delivered => some .delivered
  | .failed =>
    if d.finalReason = some "bounced" then some .bounced
    else if d.finalReason = some "rejected" then some .rejected
    else none
  | _ => none

namespace Ledger

variable (L : Ledger) (deliveryId : String)

def receiptsOf : List Receipt :=
  L.receipts.rows.filter fun r ↦ decide (r.deliveryId = deliveryId)

def authoritativeReceipts : List Receipt :=
  (L.receiptsOf deliveryId).filter fun r ↦ r.kind.isAuthoritative

def acceptedReceipts : List Receipt :=
  (L.receiptsOf deliveryId).filter fun r ↦ decide (r.kind = .accepted)

variable {L deliveryId}

theorem mem_receiptsOf {r : Receipt} :
    r ∈ L.receiptsOf deliveryId ↔ r ∈ L.receipts.rows ∧ r.deliveryId = deliveryId := by
  rw [receiptsOf, List.mem_filter, decide_eq_true_eq]

theorem mem_authoritativeReceipts {r : Receipt} :
    r ∈ L.authoritativeReceipts deliveryId ↔
      r ∈ L.receipts.rows ∧ r.deliveryId = deliveryId ∧ r.kind.isAuthoritative = true := by
  rw [authoritativeReceipts, List.mem_filter, mem_receiptsOf, and_assoc]

end Ledger

/-! ## The invariant of one delivery -/

/-- What the receipts `rs` of a delivery say. -/
structure Evidenced (d : Delivery) (rs : List Receipt) : Prop where
  settled : (rs.filter fun r ↦ r.kind.isAuthoritative).map Receipt.kind = d.settledBy.toList
  accepted : (rs.filter fun r ↦ decide (r.kind = .accepted)).length ≤
    if d.acceptedAt.isSome then 1 else 0

namespace Evidenced

variable {d d' : Delivery} {rs : List Receipt}

theorem congr (h : Evidenced d rs) (hsettled : d'.settledBy = d.settledBy)
    (haccepted : d.acceptedAt.isSome = true → d'.acceptedAt.isSome = true) :
    Evidenced d' rs := by
  refine ⟨hsettled ▸ h.settled, h.accepted.trans ?_⟩
  by_cases hs : d.acceptedAt.isSome = true
  · rw [if_pos hs, if_pos (haccepted hs)]
  · rw [if_neg hs]
    exact Nat.zero_le _

/-- A mail service's receipt settles the delivery. -/
theorem snoc_authoritative (h : Evidenced d rs) {r : Receipt}
    (hkind : r.kind.isAuthoritative = true) (hopen : d.settledBy = none)
    (hsettled : d'.settledBy = some r.kind)
    (haccepted : d.acceptedAt.isSome = true → d'.acceptedAt.isSome = true) :
    Evidenced d' (rs ++ [r]) := by
  have hne : decide (r.kind = .accepted) = false := by
    rw [decide_eq_false_iff_not]
    intro hr
    rw [hr] at hkind
    cases hkind
  have hbefore := h.settled
  rw [hopen] at hbefore
  refine ⟨?_, ?_⟩
  · rw [List.filter_append, List.map_append, hbefore, hsettled]
    simp [hkind]
  · rw [List.filter_append]
    simp only [List.filter_cons, hne, List.filter_nil, List.append_nil, Bool.false_eq_true,
      if_false]
    have hcount : Evidenced { d with acceptedAt := d'.acceptedAt } rs := h.congr rfl haccepted
    exact hcount.accepted

/-- The trace of an accepted dispatch settles nothing. -/
theorem snoc_accepted (h : Evidenced d rs) {r : Receipt} (hkind : r.kind = .accepted)
    (hsettled : d'.settledBy = d.settledBy) (hbefore : d.acceptedAt = none)
    (hafter : d'.acceptedAt.isSome = true) : Evidenced d' (rs ++ [r]) := by
  have hnone := h.accepted
  rw [hbefore, Option.isSome_none, if_neg Bool.false_ne_true, Nat.le_zero,
    List.length_eq_zero_iff] at hnone
  refine ⟨?_, ?_⟩
  · rw [hsettled, ← h.settled, List.filter_append, List.map_append]
    simp [hkind, EvidenceKind.isAuthoritative]
  · rw [List.filter_append, hnone, if_pos hafter]
    simp [hkind]

end Evidenced

/-! ## The row transformations

What a transformation does to `settledBy` and to the time of acceptance, under the status it is
guarded by. -/

namespace Delivery

variable {d : Delivery}

theorem settledBy_eq_none (h : d.status ≠ .delivered) (h' : d.status ≠ .failed) :
    d.settledBy = none := by
  unfold settledBy
  cases hs : d.status with
  | delivered => exact absurd hs h
  | failed => exact absurd hs h'
  | queued | attempting | retryScheduled | accepted | deliveryUnknown => rfl

theorem settledBy_of_isClaimable (h : d.status.isClaimable = true) : d.settledBy = none := by
  refine settledBy_eq_none ?_ ?_ <;> intro hs <;> rw [hs] at h <;> cases h

theorem settledBy_finalized (status : DeliveryStatus) (now : DateTime) {reason : String}
    (hstatus : status ≠ .delivered) (hreason : reason ≠ "bounced" ∧ reason ≠ "rejected") :
    (d.finalized status reason now).settledBy = none := by
  unfold settledBy finalized
  cases status with
  | delivered => exact absurd rfl hstatus
  | failed => simp [hreason.1, hreason.2]
  | queued | attempting | retryScheduled | accepted | deliveryUnknown => rfl

/-- No dispatch observation settles a delivery. -/
theorem settledBy_afterDispatch (payload : EmailDispatchObserved) :
    (d.afterDispatch payload).settledBy = none := by
  unfold afterDispatch
  cases payload.outcome with
  | accepted => rfl
  | temporaryFailure =>
    cases d.nextAttempt payload.observedAt with
    | some next => rfl
    | none => exact settledBy_finalized _ _ nofun (by decide)
  | permanentFailure => exact settledBy_finalized _ _ nofun (by decide)
  | deliveryUnknown => exact settledBy_finalized _ _ nofun (by decide)

theorem settledBy_afterReceipt (payload : EmailReceiptObserved) :
    (d.afterReceipt payload).settledBy = some payload.kind.evidence := by
  unfold afterReceipt
  cases payload.kind <;> rfl

theorem settledBy_cancelled (event : ObservationEnvelope) :
    (Events.cancelled event d).settledBy = none := by
  refine settledBy_finalized _ _ nofun ?_
  cases Events.lifecycleOf event.eventName <;> decide

/-- No transformation forgets that the delivery was accepted. -/
theorem acceptedAt_afterDispatch (payload : EmailDispatchObserved)
    (h : d.acceptedAt.isSome = true) : (d.afterDispatch payload).acceptedAt.isSome = true := by
  unfold afterDispatch
  cases payload.outcome with
  | accepted => rfl
  | temporaryFailure => cases d.nextAttempt payload.observedAt <;> exact h
  | permanentFailure | deliveryUnknown => exact h

theorem acceptedAt_afterReceipt (payload : EmailReceiptObserved)
    (h : d.acceptedAt.isSome = true) : (d.afterReceipt payload).acceptedAt.isSome = true := by
  unfold afterReceipt
  cases payload.kind with
  | delivered =>
    change (d.acceptedAt.or _).isSome = true
    rw [Option.isSome_or, h, Bool.true_or]
  | bounced | rejected => exact h

end Delivery

/-! ## The invariant of the ledger

One lemma for each transaction. An update that leaves `settledBy` alone keeps the invariant, and an
insertion needs the delivery of the new receipt only. -/

def Evidence (L : Ledger) : Prop := ∀ d ∈ L.deliveries.rows, Evidenced d (L.receiptsOf d.id)

section Invariant

variable {X : Externals} {protector : SnapshotProtector} {L L' : Ledger}

theorem receiptsOf_congr (h : L'.receipts = L.receipts) (deliveryId : String) :
    L'.receiptsOf deliveryId = L.receiptsOf deliveryId := by
  rw [Ledger.receiptsOf, Ledger.receiptsOf, h]

/-- Statements that rewrite deliveries and add no receipt. -/
theorem Evidence.update (h : Evidence L) {p : Delivery → Bool} {f : Delivery → Delivery}
    (hf : Keyed.Keeps f) (hd : L'.deliveries = L.deliveries.update p f hf)
    (hr : L'.receipts = L.receipts)
    (hkeep : ∀ d ∈ L.deliveries.rows, p d = true → ∀ rs, Evidenced d rs → Evidenced (f d) rs) :
    Evidence L' := by
  intro b hb
  rw [hd] at hb
  obtain ⟨d, hmem, rfl⟩ := Table.mem_update.mp hb
  have hrs : ∀ id, L'.receiptsOf id = L.receiptsOf id := receiptsOf_congr hr
  split
  · next hp =>
    have hid : (f d).id = d.id := (hf d).1
    rw [hrs, hid]
    exact hkeep d hmem hp _ (h d hmem)
  · rw [hrs]
    exact h d hmem

/-- Statements that rewrite one delivery and add a receipt for it. -/
theorem Evidence.insert (h : Evidence L) {deliveryId : String} {f : Delivery → Delivery}
    (hf : Keyed.Keeps f)
    (hd : L'.deliveries = L.deliveries.update (fun d ↦ decide (d.id = deliveryId)) f hf)
    {r : Receipt} (hr : L.receipts.insert? r = some L'.receipts) (hof : r.deliveryId = deliveryId)
    (hkeep : ∀ d, L.deliveries.get? deliveryId = some d → ∀ rs, Evidenced d rs →
      Evidenced (f d) (rs ++ [r])) : Evidence L' := by
  intro b hb
  rw [hd] at hb
  obtain ⟨d, hmem, rfl⟩ := Table.mem_update.mp hb
  have hrows : ∀ id, L'.receiptsOf id =
      L.receiptsOf id ++ if deliveryId = id then [r] else [] := by
    intro id
    rw [Ledger.receiptsOf, (Table.insert?_eq_some.mp hr).2, List.filter_append, ← hof]
    congr 1
    by_cases hid : r.deliveryId = id <;> simp [hid]
  split
  · next hp =>
    rw [decide_eq_true_eq] at hp
    have hid : (f d).id = d.id := (hf d).1
    rw [hrows, hid, if_pos hp.symm]
    exact hkeep d (Table.get?_eq_some.mpr ⟨hmem, hp⟩) _ (h d hmem)
  · next hp =>
    rw [decide_eq_true_eq] at hp
    rw [hrows, if_neg (Ne.symm hp), List.append_nil]
    exact h d hmem

theorem Evidence.congr (h : Evidence L) (hd : L'.deliveries = L.deliveries)
    (hr : L'.receipts = L.receipts) : Evidence L' := by
  intro d hmem
  rw [hd] at hmem
  rw [receiptsOf_congr hr]
  exact h d hmem

/-- A new delivery has no receipts. -/
theorem Linked.receiptsOf_eq_nil (h : Linked X L) {deliveryId : String}
    (hnone : L.deliveries.get? deliveryId = none) : L.receiptsOf deliveryId = [] := by
  rw [Ledger.receiptsOf, List.filter_eq_nil_iff]
  intro r hr hid
  rw [decide_eq_true_eq] at hid
  obtain ⟨a, ha, -, had⟩ := h.receipts r hr
  obtain ⟨d, hd, hdid⟩ := h.attempts a ha
  exact Table.get?_eq_none.mp hnone d hd (hdid.trans (had.trans hid))

theorem Evidence.create (h : Evidence L) (hlinked : Linked X L)
    {intent : Public.IntentPersistence} {nonces : Public.Nonces} {now : DateTime}
    {receipt : TransactionalIntentReceipt}
    (hrun : Public.persistIntent X protector L intent nonces now = .ok (L', receipt)) :
    Evidence L' := by
  obtain ⟨⟨-, hreceipts, -⟩, hsame | ⟨intentId, hins⟩⟩ := Public.frame_of_persistIntent hrun
  · exact h.congr hsame hreceipts
  intro d hd
  rw [receiptsOf_congr hreceipts]
  rcases (Table.mem_insert? hins).mp hd with hold | rfl
  · exact h d hold
  · rw [hlinked.receiptsOf_eq_nil (Table.get?_eq_none.mpr fun b hb hkey ↦
      (Table.insert?_eq_some.mp hins).1 b hb (Or.inl hkey))]
    exact ⟨rfl, Nat.zero_le _⟩

theorem Evidence.observeDispatch (h : Evidence L)
    (hconsistent : ∀ d ∈ L.deliveries.rows, d.Consistent) {event : ObservationEnvelope}
    {payload : EmailDispatchObserved}
    (hrun : Events.observeDispatch X L event payload = .ok L') : Evidence L' := by
  obtain ⟨-, d, a, hrows, -, hcase⟩ := Events.observeDispatch_eq_ok.mp hrun
  obtain ⟨hget, -, -⟩ := Ledger.deliveryWithAttempt_eq_some.mp hrows
  rcases hcase with ⟨-, -, -, rfl⟩ | ⟨hattempting, -, -, -, hevidence⟩
  · exact h.congr rfl rfl
  have hnotAccepted : d.acceptedAt = none := by
    have hd := (hconsistent d (Table.get?_eq_some.mp hget).1).unaccepted
    rw [← Option.not_isSome_iff_eq_none]
    intro hsome
    rcases hd hsome with hs | hs | hs <;> rw [hattempting] at hs <;> cases hs
  have hopen : d.settledBy = none := by
    refine Delivery.settledBy_eq_none ?_ ?_ <;> rw [hattempting] <;> exact nofun
  have hresolved : ∀ rs, Evidenced d rs → Evidenced (d.afterDispatch payload) rs :=
    fun rs hd ↦ hd.congr ((Delivery.settledBy_afterDispatch payload).trans hopen.symm)
      (Delivery.acceptedAt_afterDispatch payload)
  have hkeep : Evidence (L.resolve payload) := by
    refine h.update (Delivery.keeps_afterDispatch payload) rfl rfl fun b hb hp rs ↦ ?_
    rw [decide_eq_true_eq] at hp
    cases hget.symm.trans (Table.get?_eq_some.mpr ⟨hb, hp⟩)
    exact hresolved rs
  unfold Events.insertEvidence at hevidence
  split at hevidence
  · next receipt houtcome _ =>
    obtain ⟨-, T, hT, rfl⟩ := Ledger.insertReceipt_eq_some.mp hevidence
    refine h.insert (Delivery.keeps_afterDispatch payload) rfl hT rfl fun b hb rs hd ↦ ?_
    cases hget.symm.trans hb
    refine hd.snoc_accepted rfl ((Delivery.settledBy_afterDispatch payload).trans hopen.symm)
      hnotAccepted ?_
    rw [Delivery.afterDispatch, houtcome]
    rfl
  · obtain ⟨-, T, -, rfl⟩ := Ledger.insertRetryRequest_eq_some.mp hevidence
    exact hkeep
  · rw [Option.some_inj] at hevidence
    exact hevidence ▸ hkeep

theorem Evidence.observeReceipt (h : Evidence L) {event : ObservationEnvelope}
    {payload : EmailReceiptObserved}
    (hrun : Events.observeReceipt X L event payload = .ok L') : Evidence L' := by
  obtain ⟨-, ⟨_, -, -, rfl⟩ | ⟨d, a, hsettles, L₁, hins, rfl⟩⟩ :=
    Events.observeReceipt_eq_ok.mp hrun
  · exact h
  obtain ⟨hget, -, -⟩ := Ledger.deliveryWithAttempt_eq_some.mp hsettles.rows
  obtain ⟨-, T, hT, rfl⟩ := Ledger.insertReceipt_eq_some.mp hins
  refine h.insert (Delivery.keeps_afterReceipt payload) rfl hT rfl fun b hb rs hd ↦ ?_
  cases hget.symm.trans hb
  refine hd.snoc_authoritative (ReceiptKind.isAuthoritative_evidence payload.kind) ?_
    (Delivery.settledBy_afterReceipt payload) (Delivery.acceptedAt_afterReceipt payload)
  refine Delivery.settledBy_eq_none ?_ ?_ <;>
    rcases hsettles.opened with hs | hs <;> rw [hs] <;> exact nofun

theorem Evidence.observeLifecycle (h : Evidence L) {event : ObservationEnvelope}
    {payload : OrganizationInvitationLifecycle}
    (hrun : Events.observeLifecycle L event payload = .ok L') : Evidence L' := by
  obtain ⟨-, -, L₁, hins, rfl⟩ := Events.observeLifecycle_eq_ok.mp hrun
  obtain ⟨-, T, -, rfl⟩ := Ledger.insertSourceLifecycleEvent_eq_some.mp hins
  refine h.update (Delivery.keeps_finalized _ _ _) rfl rfl fun d _ hp rs hd ↦ ?_
  simp only [Events.cancels, Events.cancellable, Bool.and_eq_true] at hp
  refine hd.congr ?_ id
  exact (Delivery.settledBy_cancelled event).trans (Delivery.settledBy_of_isClaimable hp.1).symm

/-- **One transaction keeps the evidence in step with the deliveries.** -/
theorem Evidence.step (h : Evidence L) (hreach : (transactions X protector).Reachable L)
    {t : Transaction} (hrun : t.run X protector L = .ok L') : Evidence L' := by
  cases t with
  | create intent nonces now =>
    obtain ⟨receipt, hrun⟩ := fst_map_eq_ok.mp hrun
    exact h.create (linked_of_reachable hreach) hrun
  | claim locked now =>
    rcases of_claimOneDue hrun with rfl | ⟨row, work, hget, hclaimable, -, hclaim⟩
    · exact h
    obtain ⟨-, -, -, -, L₁, hins, rfl⟩ := (Runtime.claimRow_eq_ok hget hclaimable).mp hclaim
    obtain ⟨-, T, -, rfl⟩ := Ledger.insertAttempt_eq_some.mp hins
    refine h.update (Delivery.keeps_claimed _ _) rfl rfl fun d hd hp rs hev ↦ ?_
    rw [decide_eq_true_eq] at hp
    cases hget.symm.trans (Table.get?_eq_some.mpr ⟨hd, hp⟩)
    exact hev.congr (Delivery.settledBy_of_isClaimable hclaimable).symm id
  | observe event =>
    obtain ⟨o, -, hrecord⟩ := Events.apply_eq_ok.mp hrun
    obtain ⟨-, ⟨_, -, -, rfl⟩ | ⟨-, L₁, hins, hobserve⟩⟩ := Events.recordOnce_eq_ok.mp hrecord
    · exact h
    obtain ⟨-, T, -, rfl⟩ := Ledger.insertConsumedEvent_eq_some.mp hins
    have hconsumed : Evidence { L with consumedEvents := T } := h.congr rfl rfl
    cases o with
    | dispatch payload =>
      exact hconsumed.observeDispatch (fun d ↦ consistent_of_mem hreach) hobserve
    | receipt payload => exact hconsumed.observeReceipt hobserve
    | lifecycle payload => exact hconsumed.observeLifecycle hobserve
  | retry deliveryId expectedRevision idempotencyKey requestedBy now =>
    obtain ⟨result, hrun⟩ := fst_map_eq_ok.mp hrun
    rcases Repository.of_requestManualRetry hrun with rfl | hrun
    · exact h
    obtain ⟨d, -, -, -, -, ⟨L₁, hins, rfl⟩, -⟩ := Repository.scheduleManualRetry_eq_ok.mp hrun
    obtain ⟨-, T, -, rfl⟩ := Ledger.insertRetryRequest_eq_some.mp hins
    exact h.update (Delivery.keeps_rescheduled _ _) rfl rfl fun d _ _ rs hev ↦ hev.congr rfl id

theorem evidence_of_reachable (h : (transactions X protector).Reachable L) : Evidence L := by
  refine Lts.Reachable.invariant (S := transactions X protector) (I := Evidence) ?_ ?_ h
  · rintro L rfl d hd
    cases hd
  · exact fun L t L' hreach hi hrun ↦ hi.step hreach hrun

end Invariant

/-! ## Where a receipt comes from

Over a run of transactions: the observation that stored a receipt, by its id. -/

section Origin

variable {X : Externals} {protector : SnapshotProtector} {L L' : Ledger} {r : Receipt}

/-- The observation a transaction stores a receipt for. -/
inductive Stores (X : Externals) (L : Ledger) : Transaction → Receipt → Prop
  | accepted {event : ObservationEnvelope} {payload : EmailDispatchObserved}
      {receipt : RemoteReceiptSummary} {d : Delivery} {a : Attempt}
      (hadmitted : Events.observationOf X event = .ok (.dispatch payload))
      (houtcome : payload.outcome = .accepted) (hreceipt : payload.remoteReceipt = some receipt)
      (hrows : L.deliveryWithAttempt payload.deliveryId payload.attemptId = some (d, a))
      (hrun : a.functionRunId = payload.functionRunId) :
      Stores X L (.observe event) (Events.acceptedRow X payload receipt)
  | observed {event : ObservationEnvelope} {payload : EmailReceiptObserved} {d : Delivery}
      {a : Attempt} (hadmitted : Events.observationOf X event = .ok (.receipt payload))
      (hsettles : Events.Settles L payload d a) :
      Stores X L (.observe event) (Events.observedRow X event payload)

/-- A receipt that a transaction adds belongs to the observation it records. -/
theorem stores_of_run {t : Transaction} (h : t.run X protector L = .ok L')
    (hr : r ∈ L'.receipts.rows) (hnew : r ∉ L.receipts.rows) : Stores X L t r := by
  by_cases hother : ∀ event, t ≠ .observe event
  · rw [(frame_of_run h hother).2.1] at hr
    exact absurd hr hnew
  push Not at hother
  obtain ⟨event, rfl⟩ := hother
  obtain ⟨o, hadmitted, hrecord⟩ := Events.apply_eq_ok.mp h
  obtain ⟨-, ⟨_, -, -, rfl⟩ | ⟨-, L₁, hins, hobserve⟩⟩ := Events.recordOnce_eq_ok.mp hrecord
  · exact absurd hr hnew
  obtain ⟨-, T, -, rfl⟩ := Ledger.insertConsumedEvent_eq_some.mp hins
  cases o with
  | dispatch payload =>
    obtain ⟨-, d, a, hrows, hrun, ⟨-, -, -, rfl⟩ | ⟨-, -, -, -, hevidence⟩⟩ :=
      Events.observeDispatch_eq_ok.mp hobserve
    · exact absurd hr hnew
    unfold Events.insertEvidence at hevidence
    split at hevidence
    · next receipt houtcome hreceipt =>
      obtain ⟨-, R, hR, rfl⟩ := Ledger.insertReceipt_eq_some.mp hevidence
      rcases (Table.mem_insert? hR).mp hr with hold | rfl
      · exact absurd hold hnew
      · exact .accepted hadmitted houtcome hreceipt hrows hrun
    · obtain ⟨-, R, -, rfl⟩ := Ledger.insertRetryRequest_eq_some.mp hevidence
      exact absurd hr hnew
    · rw [Option.some_inj] at hevidence
      rw [← hevidence] at hr
      exact absurd hr hnew
  | receipt payload =>
    obtain ⟨-, ⟨_, -, -, rfl⟩ | ⟨d, a, hsettles, L₂, hins, rfl⟩⟩ :=
      Events.observeReceipt_eq_ok.mp hobserve
    · exact absurd hr hnew
    obtain ⟨-, R, hR, rfl⟩ := Ledger.insertReceipt_eq_some.mp hins
    rcases (Table.mem_insert? hR).mp hr with hold | rfl
    · exact absurd hold hnew
    · exact .observed hadmitted ⟨hsettles.unknown, hsettles.texts, hsettles.rows, hsettles.run,
        hsettles.opened, hsettles.revision⟩
  | lifecycle payload =>
    obtain ⟨-, -, L₂, hins, rfl⟩ := Events.observeLifecycle_eq_ok.mp hobserve
    obtain ⟨-, R, -, rfl⟩ := Ledger.insertSourceLifecycleEvent_eq_some.mp hins
    exact absurd hr hnew

end Origin

/-! ## The calls behind the receipts

The observation belongs to a label of the history. A receipt of a mail service was reported by a
receipt call with its values; the trace of an acceptance came with the answer of a provider. -/

/-- The call of an authorized mail service that recorded the receipt, for the run of the attempt. -/
def ReportedBy (S : Setting) (r : Receipt) (a : Attempt) (l : Command × Reply) : Prop :=
  ∃ caller request, l = (.observeReceipt caller request, .receipt (.ok ())) ∧
    authorizedCaller caller S.config.receiptCallers = some r.source ∧
    request.deliveryId = r.deliveryId ∧ request.attemptId = r.attemptId ∧
    request.runId = a.functionRunId ∧ request.kind.evidence = r.kind ∧
    request.remoteId = r.remoteId ∧ request.digest = r.digest

/-- The provider's acceptance of the attempt, naming the receipt. -/
def AcceptedBy (S : Setting) (r : Receipt) (a : Attempt) (l : Command × Reply) : Prop :=
  r.kind = .accepted ∧ r.source = S.emailProviderInstance ∧
    ∃ i response claim reply,
      l = (.advance i (.answered (.response response)), .dispatched claim reply) ∧
      Plugin.validDispatchResponse S response = true ∧ response.outcome = .accepted ∧
      claim.deliveryId = r.deliveryId ∧ claim.attemptId = r.attemptId ∧
      claim.runId = a.functionRunId ∧
      ∃ remote, response.remoteReceipt = some remote ∧ remote.remoteId = r.remoteId ∧
        remote.digest = r.digest

section Calls

variable {S : Setting} {ls : List (Command × Reply)} {s s' : System} {r : Receipt}

/-- A step that adds a receipt is the call it comes from. -/
theorem origin_of_stores {command : Command} {reply : Reply} {t : Transaction}
    (hissues : System.Issues S s command reply t) (hstores : Stores S.externals s.ledger t r) :
    ∃ a ∈ s.ledger.attempts.rows, a.id = r.attemptId ∧ a.deliveryId = r.deliveryId ∧
      (ReportedBy S r a (command, reply) ∨ AcceptedBy S r a (command, reply)) := by
  cases hstores with
  | @accepted event payload receipt d a hadmitted houtcome hreceipt hrows hrun =>
    obtain ⟨hd, ha, had⟩ := Ledger.deliveryWithAttempt_eq_some.mp hrows
    obtain ⟨hmem, haid⟩ := Table.get?_eq_some.mp ha
    refine ⟨a, hmem, haid, had.trans (Table.get?_eq_some.mp hd).2, Or.inr ?_⟩
    cases hissues with
    | receipt henvelope =>
      obtain ⟨_, _, -, h⟩ := Plugin.receipt_of_receiptEnvelope henvelope hadmitted
      cases h
    | lifecycle henvelope =>
      obtain ⟨_, h⟩ := Plugin.lifecycle_of_lifecycleEnvelope henvelope hadmitted
      cases h
    | @answer i now work result hc =>
      cases Plugin.dispatch_of_dispatchEnvelope hadmitted
      obtain ⟨response, rfl, hvalid, hresponse, hobserved⟩ :=
        Plugin.valid_of_observedOf (Or.inl houtcome)
      obtain ⟨hdelivery, hattempt, hrunId, -⟩ :=
        Plugin.observedOf_claim S work.claim now (.response response)
      obtain ⟨-, -, hsource⟩ := Plugin.remoteReceipt_observedOf (Option.mem_def.mpr hreceipt)
      obtain ⟨-, t, failure, -, -, heq⟩ := Plugin.dispatchObservation_eq_ok.mp hobserved
      obtain ⟨-, -, -, -, hvalidated⟩ := Events.observationOf_eq_ok.mp hadmitted
      obtain ⟨-, hremote, -⟩ := Events.validateDispatchObservation_eq_ok.mp hvalidated
      obtain ⟨-, -, hlength, -, hsourceLength⟩ := hremote receipt hreceipt
      have hremoteReceipt :
          (Plugin.responseObserved S work.claim response t failure).remoteReceipt =
            some receipt := heq ▸ hreceipt
      obtain ⟨remote, hremoteEq, rfl⟩ := Option.map_eq_some_iff.mp hremoteReceipt
      refine ⟨rfl, (bounded_eq_self hsourceLength).trans hsource, i, response, work.claim, _, rfl,
        hvalid, hresponse.trans houtcome, hdelivery.symm, hattempt.symm, ?_, remote, hremoteEq, ?_,
        rfl⟩
      · exact hrunId.symm.trans hrun.symm
      · exact (bounded_eq_self hlength).symm
  | @observed event payload d a hadmitted hsettles =>
    obtain ⟨hd, ha, had⟩ := Ledger.deliveryWithAttempt_eq_some.mp hsettles.rows
    obtain ⟨hmem, haid⟩ := Table.get?_eq_some.mp ha
    refine ⟨a, hmem, haid, had.trans (Table.get?_eq_some.mp hd).2, Or.inl ?_⟩
    cases hissues with
    | answer hc => cases Plugin.dispatch_of_dispatchEnvelope hadmitted
    | lifecycle henvelope =>
      obtain ⟨_, h⟩ := Plugin.lifecycle_of_lifecycleEnvelope henvelope hadmitted
      cases h
    | @receipt caller request _ henvelope =>
      obtain ⟨source, t, hcaller, -, -, hobservation⟩ :=
        Plugin.observationOf_receiptEnvelope henvelope
      cases hadmitted.symm.trans hobservation
      obtain ⟨-, -, -, -, hvalid⟩ := Events.observationOf_eq_ok.mp hadmitted
      obtain ⟨hsource, hremote⟩ := Events.observedRow_identity S.externals event hvalid
      refine ⟨caller, request, rfl, ?_, rfl, rfl, hsettles.run.symm, rfl, hremote.symm, rfl⟩
      rw [hsource]
      exact hcaller

/-- **Every receipt has its call in the history**, made for the run of the attempt it names. -/
theorem origin_of_history (h : (system S).History ls s) :
    ∀ r ∈ s.ledger.receipts.rows, ∃ a ∈ s.ledger.attempts.rows, a.id = r.attemptId ∧
      a.deliveryId = r.deliveryId ∧ ∃ l ∈ ls, ReportedBy S r a l ∨ AcceptedBy S r a l := by
  refine Lts.History.invariant (S := system S)
    (I := fun ls s ↦ ∀ r ∈ s.ledger.receipts.rows, ∃ a ∈ s.ledger.attempts.rows,
      a.id = r.attemptId ∧ a.deliveryId = r.deliveryId ∧
        ∃ l ∈ ls, ReportedBy S r a l ∨ AcceptedBy S r a l) ?_ ?_ h
  · rintro s rfl r hr
    cases hr
  · rintro ls s ⟨command, reply⟩ s' hls ih hstep r hr
    have hreach : (system S).Reachable s := ⟨ls, hls⟩
    -- the attempt is found again under the same run id
    have hlater : ∀ a ∈ s.ledger.attempts.rows, ∀ l,
        a.id = r.attemptId → a.deliveryId = r.deliveryId →
        ReportedBy S r a l ∨ AcceptedBy S r a l →
        ∃ b ∈ s'.ledger.attempts.rows, b.id = r.attemptId ∧ b.deliveryId = r.deliveryId ∧
          (ReportedBy S r b l ∨ AcceptedBy S r b l) := by
      intro a ha l haid had horigin
      obtain ⟨b, hb, hident⟩ := (extends_of_step hreach hstep).exists_attempt ha
      simp only [Attempt.identity, Prod.mk.injEq] at hident
      refine ⟨b, hb, hident.1.trans haid, hident.2.1.trans had, ?_⟩
      unfold ReportedBy AcceptedBy at horigin ⊢
      rwa [hident.2.2.2.1]
    by_cases hold : r ∈ s.ledger.receipts.rows
    · obtain ⟨a, ha, haid, had, l, hl, horigin⟩ := ih r hold
      obtain ⟨b, hb, hbid, hbd, horigin⟩ := hlater a ha l haid had horigin
      exact ⟨b, hb, hbid, hbd, l, List.mem_append_left _ hl, horigin⟩
    rcases System.ledger_of_stepped (System.holds_of_reachable hreach)
      (System.stepped_of_exec hstep) with hsame | ⟨t, hissues, hrun⟩
    · rw [hsame] at hr
      exact absurd hr hold
    obtain ⟨a, ha, haid, had, horigin⟩ := origin_of_stores hissues (stores_of_run hrun hr hold)
    obtain ⟨b, hb, hbid, hbd, horigin⟩ := hlater a ha _ haid had horigin
    exact ⟨b, hb, hbid, hbd, _, by simp, horigin⟩

end Calls

/-! ## The main result -/

/-- What proves that a delivery was delivered, bounced or rejected, and what was merely accepted. -/
structure Proved (S : Setting) (ls : List (Command × Reply)) (s : System) (d : Delivery) :
    Prop where
  delivered : d.status = .delivered ↔ ∃ r ∈ s.ledger.receiptsOf d.id, r.kind = .delivered
  bounced : d.status = .failed ∧ d.finalReason = some "bounced" ↔
    ∃ r ∈ s.ledger.receiptsOf d.id, r.kind = .bounced
  rejected : d.status = .failed ∧ d.finalReason = some "rejected" ↔
    ∃ r ∈ s.ledger.receiptsOf d.id, r.kind = .rejected
  atMostOne : (s.ledger.authoritativeReceipts d.id).length ≤ 1 ∧
    (s.ledger.acceptedReceipts d.id).length ≤ 1
  atMostTwo : (s.ledger.receiptsOf d.id).length ≤ 2
  /-- The receipt of a mail service was reported by an authorized caller for the run it names. -/
  reported : ∀ r ∈ s.ledger.authoritativeReceipts d.id, r.source ∈ S.config.receiptCallers ∧
    ∃ a ∈ s.ledger.attempts.rows, a.id = r.attemptId ∧ a.deliveryId = d.id ∧
      ∃ l ∈ ls, ReportedBy S r a l
  /-- The trace of an accepted dispatch was left by the provider's acceptance. -/
  acknowledged : ∀ r ∈ s.ledger.acceptedReceipts d.id, ∃ a ∈ s.ledger.attempts.rows,
    a.id = r.attemptId ∧ a.deliveryId = d.id ∧ ∃ l ∈ ls, AcceptedBy S r a l
  /-- Only a receipt call makes the delivery delivered. -/
  unproved : ∀ l s' d', (system S).Step s l s' → d.status ≠ .delivered →
    s'.ledger.deliveries.get? d.id = some d' → d'.status = .delivered →
    l.1.isObserveReceipt = true

section Main

variable {S : Setting} {ls : List (Command × Reply)} {s s' : System} {d : Delivery}

theorem settledBy_eq_some_iff {kind : EvidenceKind} (hkind : kind.isAuthoritative = true)
    {rs : List Receipt} (h : Evidenced d rs) :
    d.settledBy = some kind ↔ ∃ r ∈ rs, r.kind = kind := by
  have hmem : kind ∈ d.settledBy.toList ↔ ∃ r ∈ rs, r.kind = kind := by
    rw [← h.settled, List.mem_map]
    constructor
    · rintro ⟨r, hr, rfl⟩
      exact ⟨r, (List.mem_filter.mp hr).1, rfl⟩
    · rintro ⟨r, hr, rfl⟩
      exact ⟨r, List.mem_filter.mpr ⟨hr, hkind⟩, rfl⟩
  rw [← hmem, Option.mem_toList]

theorem settledBy_delivered_iff : d.settledBy = some .delivered ↔ d.status = .delivered := by
  unfold Delivery.settledBy
  cases hs : d.status with
  | failed =>
    simp only [reduceCtorEq, iff_false]
    split
    · exact nofun
    · split <;> exact nofun
  | delivered | queued | attempting | retryScheduled | accepted | deliveryUnknown => simp

/-- A failed delivery names the receipt that failed it. -/
theorem settledBy_failed_iff (kind : EvidenceKind) (hkind : kind = .bounced ∨ kind = .rejected) :
    d.settledBy = some kind ↔ d.status = .failed ∧ d.finalReason = some kind.asStr := by
  unfold Delivery.settledBy
  rcases hkind with rfl | rfl <;> cases hs : d.status with
  | failed =>
    by_cases hbounced : d.finalReason = some "bounced"
    · simp [hbounced, EvidenceKind.asStr]
    · by_cases hrejected : d.finalReason = some "rejected" <;>
        simp [hbounced, hrejected, EvidenceKind.asStr]
  | delivered | queued | attempting | retryScheduled | accepted | deliveryUnknown => simp

/-- Every receipt is of one of the two kinds. -/
theorem length_receipts_le {rs : List Receipt} (h : Evidenced d rs) :
    (rs.filter fun r ↦ r.kind.isAuthoritative).length ≤ 1 ∧
      (rs.filter fun r ↦ decide (r.kind = .accepted)).length ≤ 1 ∧ rs.length ≤ 2 := by
  have hauthoritative : (rs.filter fun r ↦ r.kind.isAuthoritative).length ≤ 1 := by
    rw [← List.length_map Receipt.kind, h.settled]
    cases d.settledBy <;> simp
  have haccepted : (rs.filter fun r ↦ decide (r.kind = .accepted)).length ≤ 1 := by
    refine h.accepted.trans ?_
    split <;> omega
  refine ⟨hauthoritative, haccepted, ?_⟩
  have hsplit := List.length_eq_length_filter_add (l := rs) fun r ↦ r.kind.isAuthoritative
  have hrest : (rs.filter fun r ↦ !r.kind.isAuthoritative) =
      rs.filter fun r ↦ decide (r.kind = .accepted) := by
    refine List.filter_congr fun r _ ↦ ?_
    cases r.kind <;> rfl
  rw [hrest] at hsplit
  omega

theorem Course.Step.receipt_of_delivered {X : Externals} {c c' : Course} {e : Course.Event}
    (h : Course.Step X c e c') (hs : c.delivery.status ≠ .delivered)
    (hs' : c'.delivery.status = .delivered) : ∃ payload, e = .receiptObserved payload := by
  cases h with
  | settle => exact ⟨_, rfl⟩
  | claim | cancel => cases hs'
  | resolve =>
    rw [Delivery.afterDispatch_status] at hs'
    split at hs'
    · cases hs'
    · split at hs' <;> cases hs'
    · cases hs'
    · cases hs'
  | absorb | reschedule => exact absurd hs' hs

/-- The step that makes a delivery delivered is a receipt call. -/
theorem isObserveReceipt_of_delivered (hreach : (system S).Reachable s)
    (hd : d ∈ s.ledger.deliveries.rows) {l : Command × Reply} (hstep : (system S).Step s l s')
    (hs : d.status ≠ .delivered) {d' : Delivery}
    (hd' : s'.ledger.deliveries.get? d.id = some d') (hs' : d'.status = .delivered) :
    l.1.isObserveReceipt = true := by
  have hcourse : s.ledger.course d.id = some ⟨d, s.ledger.attemptsOf d.id⟩ :=
    Ledger.course_of_mem hd
  have hafter : s'.ledger.course d.id = some ⟨d', s'.ledger.attemptsOf d.id⟩ :=
    Ledger.course_eq_some.mpr ⟨hd', rfl⟩
  rcases course_of_step d.id hreach hstep with hsame | ⟨t, e, hissues, hshows, hmachine⟩
  · rw [hcourse, hafter, Option.some_inj, Course.mk.injEq] at hsame
    rw [hsame.1] at hs'
    exact absurd hs' hs
  rw [hcourse, hafter] at hmachine
  have hreceipt : ∃ payload, e = .receiptObserved payload := by
    generalize hc' : s'.ledger.attemptsOf d.id = as at hmachine
    cases hmachine with
    | step hmove => exact hmove.receipt_of_delivered hs hs'
  obtain ⟨payload, rfl⟩ := hreceipt
  obtain ⟨command, reply⟩ := l
  cases hshows with
  | receipt hfresh =>
    cases hissues with
    | receipt => rfl
    | answer => cases Plugin.dispatch_of_dispatchEnvelope hfresh.admitted
    | lifecycle henvelope =>
      obtain ⟨_, h⟩ := Plugin.lifecycle_of_lifecycleEnvelope henvelope hfresh.admitted
      cases h

/-- **Delivered is proved only by an authoritative receipt.** -/
theorem proved_of_history (h : (system S).History ls s) (hd : d ∈ s.ledger.deliveries.rows) :
    Proved S ls s d := by
  have hreach : (system S).Reachable s := ⟨ls, h⟩
  have hevidenced := evidence_of_reachable (reachable_ledger hreach) d hd
  obtain ⟨hauthoritative, haccepted, htwo⟩ := length_receipts_le hevidenced
  refine ⟨?_, ?_, ?_, ⟨hauthoritative, haccepted⟩, htwo, ?_, ?_, ?_⟩
  · rw [← settledBy_delivered_iff, settledBy_eq_some_iff rfl hevidenced]
  · exact (settledBy_failed_iff .bounced (Or.inl rfl)).symm.trans
      (settledBy_eq_some_iff rfl hevidenced)
  · exact (settledBy_failed_iff .rejected (Or.inr rfl)).symm.trans
      (settledBy_eq_some_iff rfl hevidenced)
  · intro r hr
    obtain ⟨hmem, hof, hkind⟩ := Ledger.mem_authoritativeReceipts.mp hr
    obtain ⟨a, ha, haid, had, l, hl, hreported | ⟨haccepted, -⟩⟩ := origin_of_history h r hmem
    · have hreported' := hreported
      obtain ⟨caller, request, -, hcaller, -⟩ := hreported'
      rw [authorizedCaller, Option.filter_eq_some_iff] at hcaller
      exact ⟨of_decide_eq_true hcaller.2, a, ha, haid, had.trans hof, l, hl, hreported⟩
    · rw [haccepted] at hkind
      cases hkind
  · intro r hr
    rw [Ledger.acceptedReceipts, List.mem_filter, Ledger.mem_receiptsOf, decide_eq_true_eq] at hr
    obtain ⟨⟨hmem, hof⟩, hkind⟩ := hr
    obtain ⟨a, ha, haid, had, l, hl, ⟨_, request, -, -, -, -, -, hrequest, -⟩ | haccepted⟩ :=
      origin_of_history h r hmem
    · rw [hkind] at hrequest
      generalize request.kind = kind at hrequest
      cases kind <;> cases hrequest
    · exact ⟨a, ha, haid, had.trans hof, l, hl, haccepted⟩
  · intro l s' d' hstep hs hd' hs'
    exact isObserveReceipt_of_delivered hreach hd hstep hs hd' hs'

end Main

/-- A mail service has reported the first attempt as delivered. -/
theorem proved_of_history_delivered :
    ∃ ls s d, d ∈ s.ledger.deliveries.rows ∧ d.status = .delivered ∧
      Proved Deployment.setting ls s d := by
  obtain ⟨ls, hls⟩ := Deployment.reachable_awaiting
  obtain ⟨ms, s, hms, -, hrows⟩ := exists_history_of_execAll [Deployment.observeDelivered]
    (fun s : System ↦ s.ledger.deliveries.rows.any fun d : Delivery ↦
      decide (d.status = .delivered)) hls (by decide +kernel)
  obtain ⟨d, hd, hs⟩ := List.any_eq_true.mp hrows
  exact ⟨_, s, d, hd, of_decide_eq_true hs, proved_of_history hms hd⟩

end NotificationLedger

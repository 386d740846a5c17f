import NotificationLedger.Observations
import NotificationLedger.Resolution

/-!
# Acceptance and receipt

The provider's acceptance of an attempt and the mail service's receipt for it travel separately, and
the receipt can come first. A delivered receipt then finalizes the delivery, and the acceptance is
absorbed: both orders end with the same statuses. A bounced or rejected receipt that comes first
leaves no room for the acceptance, although the other order accepts both.
-/

namespace NotificationLedger

open Outcome

namespace Events

variable {X : Externals} {protector : SnapshotProtector} {L L' : Ledger}
  {event event' : ObservationEnvelope} {o : EmailDispatchObserved} {r : EmailReceiptObserved}
  {d : Delivery} {a : Attempt}

/-! ## The race

Both observations are on their way for one attempt in flight, under different ids, and neither id
nor the identity of the receipt has been used. `Commutes` compares the two orders. -/

/-- An acceptance of an attempt in flight and a receipt for it, neither of them recorded yet. -/
structure Racing (X : Externals) (L : Ledger) (event event' : ObservationEnvelope)
    (o : EmailDispatchObserved) (r : EmailReceiptObserved) (d : Delivery) (a : Attempt) :
    Prop where
  acceptance : observationOf X event = .ok (.dispatch o)
  outcome : o.outcome = .accepted
  receipt : observationOf X event' = .ok (.receipt r)
  rows : L.deliveryWithAttempt o.deliveryId o.attemptId = some (d, a)
  sameRows : r.deliveryId = o.deliveryId ∧ r.attemptId = o.attemptId
  run : a.functionRunId = o.functionRunId
  sameRun : a.functionRunId = r.functionRunId
  attempting : d.status = .attempting
  dispatching : a.status = .dispatching
  revision : d.revision + 2 ≤ maxSafeWireInteger
  unconsumed : L.consumedEvents.get? event.id = none ∧ L.consumedEvents.get? event'.id = none
  distinct : event.id ≠ event'.id
  /-- No stored receipt has the identity of either receipt, and theirs differ. -/
  unclashed : ∀ b ∈ L.receipts.rows, ¬Keyed.Clash b (observedRow X event' r)
  acceptedUnclashed : ∀ q ∈ o.remoteReceipt,
    ¬Keyed.Clash (acceptedRow X o q) (observedRow X event' r) ∧
    ∀ b ∈ L.receipts.rows, ¬Keyed.Clash b (acceptedRow X o q)

/-- The texts the two observations bind besides the ids of the rows. -/
def racingTexts (event event' : ObservationEnvelope) (o : EmailDispatchObserved)
    (r : EmailReceiptObserved) : List String :=
  [event.id, event'.id, r.source, r.remoteId] ++ resolveTexts o

/-- Both orders succeed at both steps and end with the same statuses and reason. -/
def Commutes (X : Externals) (L : Ledger) (event event' : ObservationEnvelope)
    (deliveryId attemptId : String) : Prop :=
  ∃ L₁ L₂ M₁ M₂, apply X L event = .ok L₁ ∧ apply X L₁ event' = .ok L₂ ∧
    apply X L event' = .ok M₁ ∧ apply X M₁ event = .ok M₂ ∧
    ∃ d a d' a', L₂.deliveryWithAttempt deliveryId attemptId = some (d, a) ∧
      M₂.deliveryWithAttempt deliveryId attemptId = some (d', a') ∧
      d.status = d'.status ∧ d.finalReason = d'.finalReason ∧ a.status = a'.status

/-! ## Texts -/

theorem storable_racingTexts :
    Storable (racingTexts event event' o r) ↔ storable event.id = true ∧
      Storable [event'.id, r.source, r.remoteId] ∧ Storable (resolveTexts o) := by
  rw [racingTexts, Storable.append_iff, Storable.cons_iff, and_assoc]

/-- An acceptance carries no failure, so absorbing it binds the run id and nothing else new. -/
theorem storable_absorbTexts (hadmitted : observationOf X event = .ok (.dispatch o))
    (houtcome : o.outcome = .accepted) (hrun : storable o.functionRunId = true)
    (h : Storable (resolveTexts o)) : Storable (absorbTexts o) := by
  obtain ⟨-, -, -, -, hvalidated⟩ := observationOf_eq_ok.mp hadmitted
  obtain ⟨-, -, hshape⟩ := validateDispatchObservation_eq_ok.mp hvalidated
  rw [validShape, houtcome] at hshape
  have hfailure : o.failure = none := Option.isNone_iff_eq_none.mp hshape
  rw [resolveTexts, updateTexts, hfailure] at h
  rw [absorbTexts, hfailure]
  simp only [Option.map_none, Option.toList_none, List.map_nil, List.flatMap_nil,
    List.append_nil] at h ⊢
  rw [Storable.cons_iff] at h ⊢
  rw [Storable.cons_iff]
  exact ⟨h.1, hrun, h.2⟩

/-! ## The acceptance

Before the receipt it closes the attempt; behind a delivered receipt it fills what the receipt has
left open; behind any other receipt it is refused. -/

/-- The evidence of an acceptance can be inserted unless its identity is taken. -/
theorem exists_insertEvidence_accepted (hadmitted : observationOf X event = .ok (.dispatch o))
    (houtcome : o.outcome = .accepted) (htexts : Storable (resolveTexts o))
    (hids : Storable [o.deliveryId, o.attemptId])
    (hdelivery : (L.deliveries.get? o.deliveryId).isSome)
    (hattempt : (L.attempts.get? o.attemptId).isSome)
    (hunclashed : ∀ q ∈ o.remoteReceipt, ∀ b ∈ L.receipts.rows,
      ¬Keyed.Clash b (acceptedRow X o q)) :
    ∃ R, insertEvidence X event o d L = some { L with receipts := R } ∧
      ∀ b ∈ R.rows, b ∈ L.receipts.rows ∨ ∃ q ∈ o.remoteReceipt, b = acceptedRow X o q := by
  rw [insertEvidence, houtcome]
  cases hq : o.remoteReceipt with
  | none => exact ⟨L.receipts, rfl, fun b hb ↦ Or.inl hb⟩
  | some q =>
    obtain ⟨-, -, -, -, hvalidated⟩ := observationOf_eq_ok.mp hadmitted
    obtain ⟨-, hreceipt, -⟩ := validateDispatchObservation_eq_ok.mp hvalidated
    obtain ⟨hdigest, -⟩ := hreceipt q hq
    have hconforms : (acceptedRow X o q).Conforms := by
      have hid : storable (acceptedRow X o q).id = true := storable_stableId X (by decide)
      obtain ⟨hdeliveryId, hattemptId⟩ := Storable.cons_iff.mp hids
      rw [resolveTexts, updateTexts, hq, Storable.append_iff, Storable.append_iff] at htexts
      obtain ⟨hremote, hsource⟩ := Storable.cons_iff.mp
        (Storable.cons_iff.mp (Storable.cons_iff.mp htexts.1.1).2).2
      refine ⟨?_, hdigest⟩
      simp only [Storable.cons_iff]
      exact ⟨hid, hdeliveryId, (Storable.cons_iff.mp hattemptId).1,
        (Storable.cons_iff.mp hsource).1, hremote, storable_of_isDigest hdigest, by simp [Storable]⟩
    obtain ⟨T, hT⟩ := Table.exists_insert? (hunclashed q hq)
    refine ⟨T, Ledger.insertReceipt_eq_some.mpr
      ⟨⟨hconforms, hdelivery, hattempt⟩, T, hT, rfl⟩, fun b hb ↦ ?_⟩
    exact ((Table.mem_insert? hT).mp hb).imp_right fun heq ↦ ⟨q, rfl, heq⟩

/-- **An acceptance that is waited for** is recorded. -/
theorem Racing.exists_acceptance (h : Racing X L event event' o r d a)
    (hids : Storable [o.deliveryId, o.attemptId]) (hid : storable event.id = true)
    (htexts : Storable (resolveTexts o)) :
    ∃ T R, L.consumedEvents.insert? (consumedRow X event o.observedAt) = some T ∧
      (∀ b ∈ R.rows, b ∈ L.receipts.rows ∨ ∃ q ∈ o.remoteReceipt, b = acceptedRow X o q) ∧
      apply X L event = .ok { L.resolve o with consumedEvents := T, receipts := R } := by
  obtain ⟨T, hT, -⟩ := exists_insertConsumedEvent (X := X) (t := o.observedAt)
    (storable_identity h.acceptance hid) h.unconsumed.1
  have hrev : d.revision < maxSafeWireInteger := by
    have hroom := h.revision
    omega
  have hrows : ({ L with consumedEvents := T } : Ledger).deliveryWithAttempt o.deliveryId
      o.attemptId = some (d, a) := h.rows
  obtain ⟨hd, ha, -⟩ := Ledger.deliveryWithAttempt_eq_some.mp
    (Ledger.deliveryWithAttempt_resolve o hrows)
  obtain ⟨R, hevidence, hreceipts⟩ := exists_insertEvidence_accepted (d := d) h.acceptance
    h.outcome htexts hids (Option.isSome_of_eq_some hd) (Option.isSome_of_eq_some ha)
    fun q hq b hb ↦ (h.acceptedUnclashed q hq).2 b hb
  refine ⟨T, R, hT, hreceipts, (apply_eq_ok_of_fresh h.acceptance h.unconsumed.1).mpr
    ⟨hid, T, hT, observeDispatch_eq_ok.mpr ⟨hids, d, a, hrows, h.run, Or.inr ?_⟩⟩⟩
  exact ⟨h.attempting, h.dispatching, hrev, htexts, hevidence⟩

/-- **An acceptance that a delivered receipt has overtaken** is absorbed. -/
theorem exists_absorption (hadmitted : observationOf X event = .ok (.dispatch o))
    (houtcome : o.outcome = .accepted)
    (hrows : L.deliveryWithAttempt o.deliveryId o.attemptId = some (d, a))
    (hrun : a.functionRunId = o.functionRunId) (hdelivered : d.status = .delivered)
    (hreceipt : ∃ b ∈ L.receipts.rows, b.attemptId = o.attemptId)
    (hfresh : L.consumedEvents.get? event.id = none)
    (hids : Storable [o.deliveryId, o.attemptId, o.functionRunId])
    (hid : storable event.id = true) (htexts : Storable (resolveTexts o)) :
    ∃ T, apply X L event = .ok ({ L with consumedEvents := T }.absorb o) := by
  obtain ⟨T, hT, -⟩ := exists_insertConsumedEvent (X := X) (t := o.observedAt)
    (storable_identity hadmitted hid) hfresh
  obtain ⟨hdelivery, hids⟩ := Storable.cons_iff.mp hids
  obtain ⟨hattempt, hids⟩ := Storable.cons_iff.mp hids
  have haid : a.id = o.attemptId :=
    (Table.get?_eq_some.mp (Ledger.deliveryWithAttempt_eq_some.mp hrows).2.1).2
  refine ⟨T, (apply_eq_ok_of_fresh hadmitted hfresh).mpr ⟨hid, T, hT,
    observeDispatch_eq_ok.mpr ⟨?_, d, a, hrows, hrun, Or.inl ⟨?_, ?_, ?_, rfl⟩⟩⟩⟩
  · exact Storable.cons_iff.mpr ⟨hdelivery, Storable.cons_iff.mpr ⟨hattempt, by simp [Storable]⟩⟩
  · rw [hdelivered]
    decide
  · obtain ⟨b, hb, hba⟩ := hreceipt
    have hhas : hasReceipt L a.id = true :=
      List.any_eq_true.mpr ⟨b, hb, decide_eq_true (hba.trans haid.symm)⟩
    change lateObservationIsCompatible d.status (hasReceipt L a.id) o.outcome = true
    rw [lateObservationIsCompatible, hhas, hdelivered, houtcome]
    rfl
  · exact storable_absorbTexts hadmitted houtcome (Storable.cons_iff.mp hids).1 htexts

/-! ## The receipt

It settles a delivery that is in flight, and one that was accepted, in the same way. -/

/-- A receipt that no stored one clashes with finds its delivery open. -/
theorem settles_of_unclashed (hadmitted : observationOf X event' = .ok (.receipt r))
    (hrows : L.deliveryWithAttempt r.deliveryId r.attemptId = some (d, a))
    (hrun : a.functionRunId = r.functionRunId)
    (hopen : d.status = .attempting ∨ d.status = .accepted)
    (hrev : d.revision < maxSafeWireInteger) (hids : Storable [r.deliveryId, r.attemptId])
    (hunclashed : ∀ b ∈ L.receipts.rows, ¬Keyed.Clash b (observedRow X event' r)) :
    Settles L r d a := by
  obtain ⟨-, -, -, -, hvalid⟩ := observationOf_eq_ok.mp hadmitted
  obtain ⟨hsource, hremote⟩ := observedRow_identity X event' hvalid
  refine ⟨findReceipt_eq_none.mpr fun b hb hidentity ↦ hunclashed b hb (Or.inr ?_), hids, hrows,
    hrun, hopen, hrev⟩
  rw [hsource, hremote]
  exact hidentity

/-- A receipt under a free id and identity is recorded, and nothing else can come of it. -/
theorem exists_apply_receipt (hadmitted : observationOf X event' = .ok (.receipt r))
    (hfresh : L.consumedEvents.get? event'.id = none) (hsettles : Settles L r d a)
    (hunclashed : ∀ b ∈ L.receipts.rows, ¬Keyed.Clash b (observedRow X event' r))
    (htexts : Storable [event'.id, r.source, r.remoteId]) :
    ∃ T R, L.consumedEvents.insert? (consumedRow X event' r.observedAt) = some T ∧
      observedRow X event' r ∈ R.rows ∧
      apply X L event' =
        .ok (({ L with consumedEvents := T, receipts := R } : Ledger).settle r) := by
  obtain ⟨T, R, hT, hR, happly⟩ := Fresh.exists_apply ⟨hadmitted, hfresh, htexts, hsettles,
    fun b hb heq ↦ hunclashed b hb (Or.inl heq)⟩
  exact ⟨T, R, hT, (Table.mem_insert? hR).mpr (Or.inr rfl), happly⟩

/-! ## The main result -/

/-- Consuming one id leaves the others free. -/
theorem get?_consumed {T : Table ConsumedEvent} {t : DateTime} {id : String}
    (hT : L.consumedEvents.insert? (consumedRow X event t) = some T) (hne : event.id ≠ id)
    (hfresh : L.consumedEvents.get? id = none) : T.get? id = none := by
  rw [Table.get?_insert? hT]
  exact (if_neg hne).trans hfresh

/-- The rows of the race, named by the receipt. -/
theorem Racing.rows' (h : Racing X L event event' o r d a) :
    L.deliveryWithAttempt r.deliveryId r.attemptId = some (d, a) := by
  rw [h.sameRows.1, h.sameRows.2]
  exact h.rows

/-- The receipt finds the delivery open. -/
theorem Racing.settles (h : Racing X L event event' o r d a)
    (hids : Storable [o.deliveryId, o.attemptId]) : Settles L r d a := by
  refine settles_of_unclashed h.receipt h.rows' h.sameRun (Or.inl h.attempting) ?_ ?_ h.unclashed
  · have hroom := h.revision
    omega
  · rw [h.sameRows.1, h.sameRows.2]
    exact hids

/-- What both orders have to bind. -/
theorem Racing.storable_of_commutes (h : Racing X L event event' o r d a)
    (hcommutes : Commutes X L event event' o.deliveryId o.attemptId) :
    Storable (racingTexts event event' o r) := by
  obtain ⟨L₁, L₂, M₁, M₂, hacceptance, -, hreceipt, -⟩ := hcommutes
  obtain ⟨hid, T, -, hobserve⟩ := (apply_eq_ok_of_fresh h.acceptance h.unconsumed.1).mp hacceptance
  obtain ⟨hid', T', -, hobserve'⟩ := (apply_eq_ok_of_fresh h.receipt h.unconsumed.2).mp hreceipt
  obtain ⟨htexts', -⟩ := observeReceipt_eq_ok.mp hobserve'
  obtain ⟨-, d', a', hrows, -, hcase⟩ := observeDispatch_eq_ok.mp hobserve
  have hsame : some (d', a') = some (d, a) := hrows.symm.trans h.rows
  cases hsame
  refine storable_racingTexts.mpr ⟨hid, Storable.cons_iff.mpr ⟨hid', htexts'⟩, ?_⟩
  rcases hcase with ⟨hne, -⟩ | ⟨-, -, -, htexts, -⟩
  · exact absurd h.attempting hne
  · exact htexts

/-- Only a delivered receipt leaves room for the acceptance. -/
theorem Racing.delivered_of_commutes (h : Racing X L event event' o r d a)
    (hids : Storable [o.deliveryId, o.attemptId])
    (hcommutes : Commutes X L event event' o.deliveryId o.attemptId) : r.kind = .delivered := by
  obtain ⟨-, htexts, -⟩ := storable_racingTexts.mp (h.storable_of_commutes hcommutes)
  obtain ⟨L₁, L₂, M₁, M₂, -, -, hreceipt, hlate, -⟩ := hcommutes
  obtain ⟨T, R, hT, -, happly⟩ :=
    exists_apply_receipt h.receipt h.unconsumed.2 (h.settles hids) h.unclashed htexts
  have hM₁ := Except.ok.inj (happly.symm.trans hreceipt)
  have hrows : M₁.deliveryWithAttempt o.deliveryId o.attemptId =
      some (d.afterReceipt r, a.afterReceipt r) := by
    rw [← hM₁, ← h.sameRows.1, ← h.sameRows.2]
    exact Ledger.deliveryWithAttempt_settle r h.rows'
  have hfresh : M₁.consumedEvents.get? event.id = none := by
    rw [← hM₁]
    exact get?_consumed hT (Ne.symm h.distinct) h.unconsumed.1
  obtain ⟨-, T', -, hobserve⟩ := (apply_eq_ok_of_fresh h.acceptance hfresh).mp hlate
  obtain ⟨-, d', a', hrows', -, hcase⟩ := observeDispatch_eq_ok.mp hobserve
  have hsame : some (d', a') = some (d.afterReceipt r, a.afterReceipt r) :=
    hrows'.symm.trans hrows
  cases hsame
  rcases hcase with ⟨-, hcompatible, -⟩ | ⟨hattempting, -⟩
  · rw [lateObservationIsCompatible, h.outcome] at hcompatible
    cases hkind : r.kind with
    | delivered => rfl
    | bounced | rejected =>
      simp [Delivery.afterReceipt, hkind, Delivery.finalized] at hcompatible
  · cases hkind : r.kind with
    | delivered => rfl
    | bounced | rejected =>
      rw [Delivery.afterReceipt, hkind] at hattempting
      cases hattempting

/-- **When acceptance and receipt commute**: exactly when the receipt reports a delivery and no text
has a NUL character. -/
theorem commutes_iff (hreach : (transactions X protector).Reachable L)
    (h : Racing X L event event' o r d a) :
    Commutes X L event event' o.deliveryId o.attemptId ↔
      r.kind = .delivered ∧ Storable (racingTexts event event' o r) := by
  have hcomputed := computed_of_rows hreach h.rows
  have hids : Storable [o.deliveryId, o.attemptId, o.functionRunId] := by
    rw [← h.run]
    exact fun id hid ↦ (hcomputed id hid).2.2
  have hids' : Storable [o.deliveryId, o.attemptId] := fun id hid ↦ hids id (by
    simp only [List.mem_cons, List.not_mem_nil, or_false] at hid ⊢
    tauto)
  refine ⟨fun hcommutes ↦ ⟨h.delivered_of_commutes hids' hcommutes,
    h.storable_of_commutes hcommutes⟩, ?_⟩
  rintro ⟨hkind, htexts⟩
  obtain ⟨hid, htexts', hresolve⟩ := storable_racingTexts.mp htexts
  -- the acceptance first: the delivery is accepted, and the receipt still finds it open
  obtain ⟨T₁, R₁, hT₁, hR₁, hacceptance⟩ := h.exists_acceptance hids' hid hresolve
  have hrows₁ : ({ L.resolve o with consumedEvents := T₁, receipts := R₁ } :
      Ledger).deliveryWithAttempt r.deliveryId r.attemptId =
      some (d.afterDispatch o, a.afterDispatch o) := by
    rw [h.sameRows.1, h.sameRows.2]
    exact Ledger.deliveryWithAttempt_resolve o h.rows
  have hunclashed₁ : ∀ b ∈ R₁.rows, ¬Keyed.Clash b (observedRow X event' r) := by
    intro b hb
    rcases hR₁ b hb with hb | ⟨q, hq, rfl⟩
    · exact h.unclashed b hb
    · exact (h.acceptedUnclashed q hq).1
  have hsettles₁ : Settles { L.resolve o with consumedEvents := T₁, receipts := R₁ } r
      (d.afterDispatch o) (a.afterDispatch o) := by
    refine settles_of_unclashed h.receipt hrows₁ h.sameRun (Or.inr ?_) ?_ ?_ hunclashed₁
    · rw [Delivery.afterDispatch, h.outcome]
      rfl
    · rw [Delivery.afterDispatch, h.outcome]
      have hroom := h.revision
      change d.revision + 1 < maxSafeWireInteger
      omega
    · rw [h.sameRows.1, h.sameRows.2]
      exact hids'
  obtain ⟨T₂, R₂, -, -, hreceipt⟩ := exists_apply_receipt h.receipt
    (get?_consumed hT₁ h.distinct h.unconsumed.2) hsettles₁ hunclashed₁ htexts'
  -- the receipt first: the delivery is delivered, and the acceptance is absorbed
  obtain ⟨T₃, R₃, hT₃, hrow, hreceipt'⟩ :=
    exists_apply_receipt h.receipt h.unconsumed.2 (h.settles hids') h.unclashed htexts'
  have hrows₃ : (({ L with consumedEvents := T₃, receipts := R₃ } : Ledger).settle
      r).deliveryWithAttempt o.deliveryId o.attemptId =
      some (d.afterReceipt r, a.afterReceipt r) := by
    rw [← h.sameRows.1, ← h.sameRows.2]
    exact Ledger.deliveryWithAttempt_settle r h.rows'
  have hdelivered : (d.afterReceipt r).status = .delivered := by
    rw [Delivery.afterReceipt, hkind]
    rfl
  obtain ⟨T₄, habsorption⟩ := exists_absorption h.acceptance h.outcome hrows₃ h.run hdelivered
    ⟨_, hrow, h.sameRows.2⟩ (get?_consumed hT₃ (Ne.symm h.distinct) h.unconsumed.1) hids hid
    hresolve
  refine ⟨_, _, _, _, hacceptance, hreceipt, hreceipt', habsorption,
    (d.afterDispatch o).afterReceipt r, (a.afterDispatch o).afterReceipt r, d.afterReceipt r,
    (a.afterReceipt r).absorbed o, ?_, ?_, ?_⟩
  · rw [← h.sameRows.1, ← h.sameRows.2]
    exact Ledger.deliveryWithAttempt_settle r hrows₁
  · exact Ledger.deliveryWithAttempt_absorb o hrows₃
  · simp only [Delivery.afterReceipt, hkind]
    exact ⟨rfl, rfl, rfl⟩

end Events

/-! ## A race for the first attempt -/

namespace Deployment

open Events Plugin

def acceptedObservation : EmailDispatchObserved :=
  observedOf setting work.claim midnight acceptance

/-- The mail service reports on the first attempt. -/
def receiptOf (kind : ReceiptKind) : EmailReceiptObserved where
  deliveryId := delivery.id
  attemptId := attempt.id
  functionRunId := attempt.functionRunId
  kind := kind
  source := "mail"
  observedAt := oneHourLater
  remoteId := "m1"
  digest := rendered.templateDigest

def receiptEnvelopeOf (kind : ReceiptKind) : ObservationEnvelope where
  id := "r1"
  eventName := emailReceiptObservedEvent
  eventVersion := 1
  sourceModule := "mail"
  aggregateId := delivery.id
  occurredAt := oneHourLater
  payload := (receiptOf kind).encode externals

theorem racing (kind : ReceiptKind) :
    Racing externals awaiting.ledger (dispatchEnvelope setting work.claim acceptedObservation)
      (receiptEnvelopeOf kind) acceptedObservation (receiptOf kind) delivery attempt where
  acceptance := observationOf_dispatchEnvelope midnight acceptance (by decide) (by decide)
  outcome := by decide
  receipt := observationOf_eq_ok.mpr ⟨by cases kind <;> exact ⟨rfl, by decide, by decide⟩, rfl,
    EmailReceiptObserved.decode_encode _ _, rfl, validateReceipt_eq_ok.mpr
      (by cases kind <;> decide)⟩
  rows := by decide
  sameRows := by cases kind <;> decide
  run := by decide
  sameRun := rfl
  attempting := rfl
  dispatching := rfl
  revision := by decide
  unconsumed := ⟨rfl, rfl⟩
  distinct := by cases kind <;> decide
  unclashed := fun b hb ↦ absurd hb List.not_mem_nil
  acceptedUnclashed := by
    have hnone : acceptedObservation.remoteReceipt = none := by decide
    rw [hnone]
    exact nofun

end Deployment

/-- A delivered receipt and the acceptance can be recorded in either order. -/
theorem commutes_iff_delivered :
    ∃ L event event' o r d a,
      Events.Racing Deployment.setting.externals L event event' o r d a ∧
      Events.Commutes Deployment.setting.externals L event event' o.deliveryId o.attemptId :=
  ⟨_, _, _, _, _, _, _, Deployment.racing .delivered,
    (Events.commutes_iff (reachable_ledger Deployment.reachable_awaiting)
      (Deployment.racing .delivered)).mpr ⟨rfl, by decide⟩⟩

/-- A bounced receipt that comes first leaves the acceptance out. -/
theorem not_commutes_bounced :
    ∃ L event event' o r d a,
      (transactions Deployment.setting.externals Deployment.setting.protector).Reachable L ∧
      Events.Racing Deployment.setting.externals L event event' o r d a ∧ r.kind = .bounced ∧
      ¬Events.Commutes Deployment.setting.externals L event event' o.deliveryId o.attemptId := by
  refine ⟨_, _, _, _, _, _, _, reachable_ledger Deployment.reachable_awaiting,
    Deployment.racing .bounced, rfl, fun hcommutes ↦ ?_⟩
  have hkind := (Deployment.racing .bounced).delivered_of_commutes (by decide) hcommutes
  cases hkind

end NotificationLedger

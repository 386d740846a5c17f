import NotificationLedger.Evidence
import NotificationLedger.Scoping

/-!
# What an acknowledged receipt has left

A receipt call that succeeds answers that the receipt is recorded. It has three ways to succeed, and
in each of them a receipt with the reported source, remote id, kind and digest is stored
afterwards. Whose receipt that is, is another matter: a receipt known under its identity is
acknowledged whatever delivery and attempt it is reported for.
-/

namespace NotificationLedger

open Outcome

/-! ## The receipt behind an answer

Three branches of the handler end in success, and each leaves a receipt that matches: the consumed
id leads back to an earlier success, whose receipt is still there; the known identity is the
receipt; and otherwise one is inserted. -/

/-- The stored receipt has the identity and the digest of the reported one. -/
def Receipt.Matches (r : Receipt) (payload : EmailReceiptObserved) : Prop :=
  (r.source = payload.source ∧ r.remoteId = payload.remoteId ∧ r.kind = payload.kind.evidence) ∧
    r.digest = payload.digest

namespace Events

variable {X : Externals} {L L' : Ledger} {event event' : ObservationEnvelope}
  {payload : EmailReceiptObserved}

/-- Admission looks at nothing but what the digest covers. -/
theorem observationOf_congr (h : digestInput event = digestInput event') :
    observationOf X event = observationOf X event' := by
  simp only [digestInput, Json.obj.injEq, List.cons.injEq, Prod.mk.injEq, Json.str.injEq,
    Json.num.injEq, true_and, and_true] at h
  obtain ⟨-, hname, hversion, hsource, -, hpayload⟩ := h
  simp only [observationOf, validateEventContract, decodePayload, validateEventSource, hname,
    hpayload, hsource, hversion]

/-- A receipt whose id was still free has been stored now, or a matching one was before. -/
theorem exists_matches_of_apply (hadmitted : observationOf X event = .ok (.receipt payload))
    (hfresh : L.consumedEvents.get? event.id = none) (h : apply X L event = .ok L') :
    ∃ r ∈ L'.receipts.rows, r.Matches payload ∧ (r ∈ L.receipts.rows ∨
      r.deliveryId = payload.deliveryId ∧ r.attemptId = payload.attemptId) := by
  obtain ⟨-, -, -, -, hvalid⟩ := observationOf_eq_ok.mp hadmitted
  obtain ⟨hsource, hremote⟩ := observedRow_identity X event hvalid
  rcases of_apply_receipt hadmitted h with ⟨c, hc, -⟩ |
    ⟨-, -, T, -, ⟨r, hfind, hdigest, rfl⟩ | ⟨d, a, -, R, hR, rfl⟩⟩
  · rw [hfresh] at hc
    cases hc
  · obtain ⟨hr, hidentity⟩ := findReceipt_eq_some hfind
    exact ⟨r, hr, ⟨hidentity, hdigest⟩, Or.inl hr⟩
  · refine ⟨observedRow X event payload, (Table.mem_insert? hR).mpr (Or.inr rfl), ?_,
      Or.inr ⟨rfl, rfl⟩⟩
    exact ⟨⟨hsource, hremote, rfl⟩, rfl⟩

end Events

section Answer

variable {S : Setting} {ls : List (Command × Reply)} {s s' : System}
  {event : ObservationEnvelope} {payload : EmailReceiptObserved}

/-- A receipt that consumed its id has a matching one in every later ledger. -/
theorem Consumed.exists_matches (h : Consumed S ls s event)
    (hadmitted : Events.observationOf S.externals event = .ok (.receipt payload)) :
    ∃ r ∈ s.ledger.receipts.rows, r.Matches payload := by
  obtain ⟨pre, l, post, t, t', -, hpre, hstep, hpost, -, happly, hfresh⟩ := h
  obtain ⟨r, hr, hmatches, -⟩ := Events.exists_matches_of_apply hadmitted hfresh happly
  exact ⟨r, (extends_of_systemRun ⟨_, hpre.snoc hstep⟩ hpost).receipts.subset hr, hmatches⟩

/-- **Every acknowledged receipt has a matching one in the ledger**: one that was there before, or
its own. -/
theorem exists_matches_of_acknowledged (h : (system S).History ls s)
    (hfree : CollisionFree S.externals
      {v | ∃ e, (e = event ∨ Recorded S ls s e) ∧ v = Events.digestInput e})
    (hadmitted : Events.observationOf S.externals event = .ok (.receipt payload)) {L' : Ledger}
    (happly : Events.apply S.externals s.ledger event = .ok L') :
    ∃ r ∈ L'.receipts.rows, r.Matches payload ∧ (r ∈ s.ledger.receipts.rows ∨
      r.deliveryId = payload.deliveryId ∧ r.attemptId = payload.attemptId) := by
  by_cases hfresh : s.ledger.consumedEvents.get? event.id = none
  · exact Events.exists_matches_of_apply hadmitted hfresh happly
  -- the id was consumed by the same content, so by a receipt that matches
  obtain ⟨o, -, ⟨c, hc, hdigest, rfl⟩ | ⟨hnone, -⟩⟩ := Events.of_apply happly
  · obtain ⟨hmem, hid⟩ := Table.get?_eq_some.mp hc
    obtain ⟨e, hconsumed, heid⟩ := exists_consumed h c hmem
    obtain ⟨⟨c', hc', hdigest'⟩, -⟩ := hconsumed.recorded.consumed
    have hsameId : e.id = event.id := heid.trans hid
    rw [hsameId, hc, Option.some_inj] at hc'
    subst hc'
    have hinput : Events.digestInput e = Events.digestInput event :=
      hfree.eq_of_digestText S.externals ⟨e, Or.inr hconsumed.recorded, rfl⟩
        ⟨event, Or.inl rfl, rfl⟩ (hdigest'.symm.trans hdigest)
    have hadmitted' := (Events.observationOf_congr (X := S.externals) hinput).trans hadmitted
    obtain ⟨r, hr, hmatches⟩ := hconsumed.exists_matches hadmitted'
    exact ⟨r, hr, hmatches, Or.inl hr⟩
  · exact absurd hnone hfresh

end Answer

/-! ## What a delivery reflects

A delivery reflects a receipt when it has the status which receipts of that kind stand for. It does
so for every receipt stored for it, and the one reported need not be among them. -/

/-- The delivery has the status a receipt of this kind stands for. -/
def Delivery.Reflects (d : Delivery) (kind : ReceiptKind) : Prop :=
  match kind with
  | .delivered => d.status = .delivered
  | kind => d.status = .failed ∧ d.finalReason = some kind.asStr

theorem Delivery.reflects_iff {d : Delivery} {kind : ReceiptKind} :
    d.Reflects kind ↔ d.settledBy = some kind.evidence := by
  cases kind with
  | delivered => exact settledBy_delivered_iff.symm
  | bounced => exact (settledBy_failed_iff .bounced (Or.inl rfl)).symm
  | rejected => exact (settledBy_failed_iff .rejected (Or.inr rfl)).symm

/-- A delivery reflects every receipt stored for it. -/
theorem exists_reflects {S : Setting} {s : System} (hreach : (system S).Reachable s)
    {r : Receipt} (hr : r ∈ s.ledger.receipts.rows) {kind : ReceiptKind}
    (hkind : r.kind = kind.evidence) :
    ∃ d, s.ledger.deliveries.get? r.deliveryId = some d ∧ d.Reflects kind := by
  have hledger := reachable_ledger hreach
  have hlinked := linked_of_reachable hledger
  obtain ⟨a, ha, -, had⟩ := hlinked.receipts r hr
  obtain ⟨d, hd, hid⟩ := hlinked.attempts a ha
  have hdid : d.id = r.deliveryId := hid.trans had
  refine ⟨d, Table.get?_eq_some.mpr ⟨hd, hdid⟩, ?_⟩
  rw [Delivery.reflects_iff, settledBy_eq_some_iff kind.isAuthoritative_evidence
    (evidence_of_reachable hledger d hd)]
  exact ⟨r, Ledger.mem_receiptsOf.mpr ⟨hr, hdid.symm⟩, hkind⟩

/-! ## The main result -/

/-- The ledger holds the receipt of the call, and its delivery reflects it. -/
structure Kept (caller : Option String) (request : ObserveReceiptRequest) (L : Ledger) :
    Prop where
  row : ∃ r ∈ L.receipts.rows, r.deliveryId = request.deliveryId ∧
    r.attemptId = request.attemptId ∧ r.kind = request.kind.evidence ∧ some r.source = caller ∧
    r.remoteId = request.remoteId ∧ r.digest = request.digest
  reflected : ∃ d, L.deliveries.get? request.deliveryId = some d ∧ d.Reflects request.kind

/-- No receipt of the caller under this remote id and kind belongs to anything else. -/
def Unclaimed (caller : Option String) (request : ObserveReceiptRequest) (L : Ledger) : Prop :=
  ∀ r ∈ L.receipts.rows, some r.source = caller → r.remoteId = request.remoteId →
    r.kind = request.kind.evidence →
    r.deliveryId = request.deliveryId ∧ r.attemptId = request.attemptId

section Main

variable {S : Setting} {ls : List (Command × Reply)} {s s' : System} {caller : Option String}
  {request : ObserveReceiptRequest}

/-- The envelope a successful receipt call had applied. -/
theorem apply_of_receiptRecorded
    (hstep : (system S).Step s (.observeReceipt caller request, .receipt (.ok ())) s') :
    ∃ event, s.observation? S (.observeReceipt caller request) = some event ∧
      Events.apply S.externals s.ledger event = .ok s'.ledger := by
  cases System.stepped_of_exec hstep with
  | receiptRecorded henvelope h =>
    exact ⟨_, System.observation?_observeReceipt.mpr henvelope, h⟩

/-- **When recorded means recorded.** -/
theorem acknowledged_iff (h : (system S).History ls s)
    (hfree : CollisionFree S.externals
      {v | ∃ e, (s.observation? S (.observeReceipt caller request) = some e ∨
        Recorded S ls s e) ∧ v = Events.digestInput e})
    (hstep : (system S).Step s (.observeReceipt caller request, .receipt (.ok ())) s') :
    Kept caller request s'.ledger ↔ Unclaimed caller request s.ledger := by
  have hreach : (system S).Reachable s := ⟨ls, h⟩
  have hext := extends_of_step hreach hstep
  constructor
  · rintro ⟨⟨r, hr, hdelivery, hattempt, hkind, hsource, hremote, -⟩, -⟩ b hb hbsource hbremote
      hbkind
    -- two rows of one identity are one row
    have hbr : b = r := by
      refine Table.eq_of_clash (hext.receipts.subset hb) hr (Or.inr ⟨?_, ?_, ?_⟩)
      · exact Option.some_inj.mp (hbsource.trans hsource.symm)
      · exact hbremote.trans hremote.symm
      · exact hbkind.trans hkind.symm
    rw [hbr]
    exact ⟨hdelivery, hattempt⟩
  · intro hunclaimed
    obtain ⟨event, hevent, happly⟩ := apply_of_receiptRecorded hstep
    obtain ⟨source, t, hcaller, -, -, hadmitted⟩ := Plugin.observationOf_receiptEnvelope
      (System.observation?_observeReceipt.mp hevent)
    have hfree' : CollisionFree S.externals
        {v | ∃ e, (e = event ∨ Recorded S ls s e) ∧ v = Events.digestInput e} := by
      have hone : ∀ e, s.observation? S (.observeReceipt caller request) = some e ↔ e = event := by
        intro e
        rw [hevent, Option.some_inj, eq_comm]
      simpa only [hone] using hfree
    obtain ⟨r, hr, ⟨⟨hsource, hremote, hkind⟩, hdigest⟩, horigin⟩ :=
      exists_matches_of_acknowledged h hfree' hadmitted happly
    have hcalled : some r.source = caller := by
      rw [hsource]
      exact (Option.filter_eq_some_iff.mp hcaller).1.symm
    have hbelongs : r.deliveryId = request.deliveryId ∧ r.attemptId = request.attemptId := by
      rcases horigin with hold | hown
      · exact hunclaimed r hold hcalled hremote hkind
      · exact hown
    obtain ⟨d, hd, hreflects⟩ := exists_reflects (hreach.step hstep) hr hkind
    refine ⟨⟨r, hr, hbelongs.1, hbelongs.2, hkind, hcalled, hremote, hdigest⟩, d, ?_, hreflects⟩
    rw [← hbelongs.1]
    exact hd

end Main

/-! ## A receipt reported for another attempt

The second report has the identity of the first and names another attempt. It is acknowledged
without a row, since the lookup goes by the identity alone. -/

namespace Deployment

/-- The mail service reports a receipt of the second attempt, or of the first one. -/
def reportDelivered (observationId : String) (attempt : Attempt) : ObserveReceiptRequest where
  observationId := observationId
  deliveryId := delivery.id
  attemptId := attempt.id
  runId := attempt.functionRunId
  kind := .delivered
  observedAt := "2026-01-01T02:00:00Z"
  remoteId := "m1"
  digest := rendered.templateDigest

/-- The report is acknowledged, and the ledger passes a test afterwards. -/
def acknowledges (s : System) (request : ObserveReceiptRequest) (P : Ledger → Bool) : Bool :=
  (s.exec setting (.observeReceipt (some "mail") request)).any fun p : System × Reply ↦
    (match p.2 with
      | .receipt (.ok ()) => true
      | _ => false) && P p.1.ledger

theorem exists_step_of_acknowledges {s : System} {request : ObserveReceiptRequest}
    {P : Ledger → Bool} (h : acknowledges s request P = true) :
    ∃ s', (system setting).Step s (.observeReceipt (some "mail") request, .receipt (.ok ())) s' ∧
      P s'.ledger = true := by
  obtain ⟨⟨s', reply⟩, hexec, htest⟩ := (Option.any_eq_true _ _).mp h
  rw [Bool.and_eq_true] at htest
  obtain ⟨hreply, hP⟩ := htest
  refine ⟨s', ?_, hP⟩
  change s.exec setting _ = some (s', _)
  rw [hexec]
  split at hreply
  · next hok => rw [show reply = _ from hok]
  · cases hreply

/-- Both attempts were claimed and the second was reported as delivered. A report of the first
attempt is then acknowledged, and leaves no receipt of it. -/
theorem exists_step_reported :
    ∃ ls s s' d a, (system setting).History ls s ∧
      s.ledger.deliveryWithAttempt delivery.id attempt.id = some (d, a) ∧
      (system setting).Step s (.observeReceipt (some "mail") (reportDelivered "r2" attempt),
        .receipt (.ok ())) s' ∧
      ∀ r ∈ s'.ledger.receipts.rows, r.attemptId ≠ attempt.id := by
  obtain ⟨ls, hls, -⟩ := exists_history_retrying
  obtain ⟨ms, s, hms, -, hP⟩ := exists_history_of_execAll
    [.observeReceipt (some "mail") (reportDelivered "r1" secondAttempt)]
    (fun s : System ↦ (s.ledger.deliveryWithAttempt delivery.id attempt.id).isSome &&
      acknowledges s (reportDelivered "r2" attempt) fun L ↦
        L.receipts.rows.all fun r : Receipt ↦ decide (r.attemptId ≠ attempt.id))
    hls (by decide +kernel)
  rw [Bool.and_eq_true] at hP
  obtain ⟨⟨d, a⟩, hrows⟩ := Option.isSome_iff_exists.mp hP.1
  obtain ⟨s', hstep, hall⟩ := exists_step_of_acknowledges hP.2
  exact ⟨_, s, s', d, a, hms, hrows, hstep, fun r hr ↦
    of_decide_eq_true (List.all_eq_true.mp hall r hr)⟩

/-- The first receipt of the mail service is acknowledged. -/
theorem acknowledges_first :
    acknowledges awaiting (reportDelivered "r1" attempt) (fun _ ↦ true) = true := by
  decide +kernel

end Deployment

/-- The first receipt of the mail service is recorded. -/
theorem acknowledged_iff_first :
    ∃ s', (system Deployment.setting).Step Deployment.awaiting
        (.observeReceipt (some "mail") (Deployment.reportDelivered "r1" Deployment.attempt),
          .receipt (.ok ())) s' ∧
      Kept (some "mail") (Deployment.reportDelivered "r1" Deployment.attempt) s'.ledger := by
  obtain ⟨ls, hls, hnone⟩ := Deployment.exists_history_unrecorded
  obtain ⟨s', hstep, -⟩ := Deployment.exists_step_of_acknowledges Deployment.acknowledges_first
  obtain ⟨event, hevent, -⟩ := apply_of_receiptRecorded hstep
  refine ⟨s', hstep, (acknowledged_iff hls ?_ hstep).mpr fun r hr ↦ absurd hr List.not_mem_nil⟩
  have hone : ∀ e, Deployment.awaiting.observation? Deployment.setting (.observeReceipt
      (some "mail") (Deployment.reportDelivered "r1" Deployment.attempt)) = some e ∨
      Recorded Deployment.setting ls Deployment.awaiting e → e = event := by
    intro e he
    have he' := he.resolve_right (hnone e)
    rw [hevent, Option.some_inj] at he'
    exact he'.symm
  exact collisionFree_of_forall_eq hone

/-- The second attempt was reported as delivered. The same remote id is then reported for the first
attempt, acknowledged, and nothing is stored for it. -/
theorem acknowledged_unstored :
    ∃ s s' caller request d a, (system Deployment.setting).Reachable s ∧
      s.ledger.deliveryWithAttempt request.deliveryId request.attemptId = some (d, a) ∧
      (system Deployment.setting).Step s
        (.observeReceipt caller request, .receipt (.ok ())) s' ∧
      ¬Kept caller request s'.ledger := by
  obtain ⟨ls, s, s', d, a, hls, hrows, hstep, hnone⟩ := Deployment.exists_step_reported
  refine ⟨s, s', _, _, d, a, ⟨ls, hls⟩, hrows, hstep, ?_⟩
  rintro ⟨⟨r, hr, -, hattempt, -⟩, -⟩
  exact hnone r hr hattempt

end NotificationLedger

import NotificationLedger.Admission
import NotificationLedger.Effects
import NotificationLedger.Foundation.Utf8

/-!
# What a receipt call does

A receipt call is always admitted once the plugin has accepted the request, and leaves the ledger in
one of three ways: its observation id was consumed before, its identity `(source, remote_id, kind)`
is known, or it settles the delivery it names.
-/

namespace NotificationLedger

open Outcome

namespace Events

variable {X : Externals} {L L' : Ledger} {event : ObservationEnvelope}
  {payload : EmailReceiptObserved} {d : Delivery} {a : Attempt}

/-- The checks of a receipt, read together. -/
theorem validateReceipt_eq_ok {u : Unit} :
    validateReceipt payload = .ok u ↔ isDigest payload.digest = true ∧
      payload.remoteId ≠ "" ∧ payload.remoteId.length ≤ 320 ∧ payload.source ≠ "" ∧
        payload.source.length ≤ 160 := by
  rw [validateReceipt, validateDigest, ensure_bind_eq_ok, ensure_eq_ok]

/-- An admitted receipt is stored under the very identity it was looked up by. -/
theorem observedRow_identity (X : Externals) (event : ObservationEnvelope)
    (hvalid : validateReceipt payload = .ok ()) :
    (observedRow X event payload).source = payload.source ∧
      (observedRow X event payload).remoteId = payload.remoteId := by
  obtain ⟨-, -, hremote, -, hsource⟩ := validateReceipt_eq_ok.mp hvalid
  exact ⟨bounded_eq_self hsource, bounded_eq_self hremote⟩

theorem findReceipt_eq_none {source remoteId : String} {kind : EvidenceKind} :
    findReceipt L source remoteId kind = none ↔
      ∀ r ∈ L.receipts.rows, ¬(r.source = source ∧ r.remoteId = remoteId ∧ r.kind = kind) := by
  simp [findReceipt, and_assoc]

theorem findReceipt_eq_some {source remoteId : String} {kind : EvidenceKind} {r : Receipt}
    (h : findReceipt L source remoteId kind = some r) :
    r ∈ L.receipts.rows ∧ r.source = source ∧ r.remoteId = remoteId ∧ r.kind = kind := by
  have hfound := List.find?_some h
  simp only [Bool.and_eq_true, decide_eq_true_eq] at hfound
  exact ⟨List.mem_of_find?_eq_some h, hfound.1.1, hfound.1.2, hfound.2⟩

/-- The row of a receipt that settles its delivery can be inserted, unless its id is taken. -/
theorem Settles.exists_insert? (event : ObservationEnvelope) (h : Settles L payload d a)
    (hvalid : validateReceipt payload = .ok ())
    (htexts : Storable [payload.source, payload.remoteId])
    (hid : ∀ r ∈ L.receipts.rows, r.id ≠ (observedRow X event payload).id) :
    ∃ R, L.receipts.insert? (observedRow X event payload) = some R ∧
      L.insertReceipt (observedRow X event payload) = some { L with receipts := R } := by
  obtain ⟨hsource, hremote⟩ := observedRow_identity X event hvalid
  obtain ⟨hdigest, -⟩ := validateReceipt_eq_ok.mp hvalid
  obtain ⟨hd, ha, -⟩ := Ledger.deliveryWithAttempt_eq_some.mp h.rows
  have hconforms : (observedRow X event payload).Conforms := by
    have hstable : storable (observedRow X event payload).id = true :=
      storable_stableId X (by decide)
    obtain ⟨htext, hrest⟩ := Storable.cons_iff.mp htexts
    obtain ⟨hdelivery, hattempt⟩ := Storable.cons_iff.mp h.texts
    refine ⟨?_, hdigest⟩
    rw [hsource, hremote, Storable.cons_iff, Storable.cons_iff, Storable.cons_iff,
      Storable.cons_iff, Storable.cons_iff, Storable.cons_iff]
    exact ⟨hstable, hdelivery, (Storable.cons_iff.mp hattempt).1, htext,
      (Storable.cons_iff.mp hrest).1, storable_of_isDigest hdigest, by simp [Storable]⟩
  obtain ⟨L', hL'⟩ := (Ledger.exists_insertReceipt hconforms (Option.isSome_of_eq_some hd)
    (Option.isSome_of_eq_some ha)).mpr fun r hr ↦ ⟨hid r hr, by
      rw [hsource, hremote]
      exact findReceipt_eq_none.mp h.unknown r hr⟩
  obtain ⟨-, R, hR, rfl⟩ := Ledger.insertReceipt_eq_some.mp hL'
  exact ⟨R, hR, hL'⟩

/-- **A fresh receipt is recorded.** -/
theorem Fresh.exists_apply (h : Fresh X L event payload d a) :
    ∃ T R, L.consumedEvents.insert? (consumedRow X event payload.observedAt) = some T ∧
      L.receipts.insert? (observedRow X event payload) = some R ∧
      apply X L event =
        .ok (({ L with consumedEvents := T, receipts := R } : Ledger).settle payload) := by
  obtain ⟨hadmitted, hfresh, htexts, hsettles, hid⟩ := h
  obtain ⟨hstorable, htexts⟩ := Storable.cons_iff.mp htexts
  obtain ⟨-, hname, -, -, hvalid⟩ := observationOf_eq_ok.mp hadmitted
  have hevent : Storable [event.id, event.eventName] := by
    have hstorableName : storable emailReceiptObservedEvent = true := by
      simp [storable, emailReceiptObservedEvent]
    rw [hname]
    exact Storable.cons_iff.mpr ⟨hstorable,
      Storable.cons_iff.mpr ⟨hstorableName, by simp [Storable]⟩⟩
  obtain ⟨T, hT, hconsume⟩ := exists_insertConsumedEvent (X := X) (t := payload.observedAt) hevent
    hfresh
  have hsettles' : Settles { L with consumedEvents := T } payload d a :=
    ⟨hsettles.unknown, hsettles.texts, hsettles.rows, hsettles.run, hsettles.opened,
      hsettles.revision⟩
  obtain ⟨R, hR, hins⟩ := hsettles'.exists_insert? event hvalid htexts hid
  refine ⟨T, R, hT, hR, apply_eq_ok.mpr ⟨_, hadmitted, recordOnce_eq_ok.mpr ⟨hevent, Or.inr
    ⟨hfresh, _, hconsume, ?_⟩⟩⟩⟩
  exact observeReceipt_eq_ok.mpr ⟨htexts, Or.inr ⟨d, a, hsettles', _, hins, rfl⟩⟩

/-- **What a recorded receipt has done.** -/
theorem of_apply_receipt (hadmitted : observationOf X event = .ok (.receipt payload))
    (h : apply X L event = .ok L') :
    (∃ c, L.consumedEvents.get? event.id = some c ∧ c.eventDigest = eventDigest X event ∧
      L' = L) ∨
    (L.consumedEvents.get? event.id = none ∧ Storable [payload.source, payload.remoteId] ∧
      ∃ T, L.consumedEvents.insert? (consumedRow X event payload.observedAt) = some T ∧
        ((∃ r, findReceipt L payload.source payload.remoteId payload.kind.evidence = some r ∧
            r.digest = payload.digest ∧ L' = { L with consumedEvents := T }) ∨
          ∃ d a, Settles L payload d a ∧
            ∃ R, L.receipts.insert? (observedRow X event payload) = some R ∧
              L' = ({ L with consumedEvents := T, receipts := R } : Ledger).settle payload)) := by
  obtain ⟨o, ho, hrecord⟩ := apply_eq_ok.mp h
  cases hadmitted.symm.trans ho
  obtain ⟨-, hreplayed | ⟨hfresh, L₁, hconsume, hobserve⟩⟩ := recordOnce_eq_ok.mp hrecord
  · exact Or.inl hreplayed
  obtain ⟨-, T, hT, rfl⟩ := Ledger.insertConsumedEvent_eq_some.mp hconsume
  obtain ⟨htexts, hcase⟩ := observeReceipt_eq_ok.mp hobserve
  refine Or.inr ⟨hfresh, htexts, T, hT, hcase.imp id ?_⟩
  rintro ⟨d, a, hsettles, L₂, hins, rfl⟩
  obtain ⟨-, R, hR, rfl⟩ := Ledger.insertReceipt_eq_some.mp hins
  refine ⟨d, a, ?_, R, hR, rfl⟩
  exact ⟨hsettles.unknown, hsettles.texts, hsettles.rows, hsettles.run, hsettles.opened,
    hsettles.revision⟩

end Events

/-! ## Receipt calls are admitted -/

namespace Plugin

open Events

variable {S : Setting} {caller : Option String} {source : String}

theorem toNat_of_isInstanceChar {c : Char} (h : isInstanceChar c = true) :
    45 ≤ c.toNat ∧ c.toNat ≤ 122 := by
  simp only [isInstanceChar, Bool.or_eq_true, Utf8.isAlphanum_iff, decide_eq_true_eq,
    List.mem_cons, List.not_mem_nil, or_false] at h
  rcases h with h | h
  · omega
  · rcases h with rfl | rfl | rfl | rfl <;> decide

theorem isWhitespace_of_isInstanceChar {c : Char} (h : isInstanceChar c = true) :
    isWhitespace c = false := by
  have hc := toNat_of_isInstanceChar h
  simp only [isWhitespace, Bool.or_eq_false_iff, decide_eq_false_iff_not, beq_eq_false_iff_ne]
  omega

/-- An instance key is printable ASCII, so it passes every check on a source. -/
theorem of_validInstance {value : String} (h : validInstance value = true) :
    value ≠ "" ∧ isBlank value = false ∧ value.length ≤ 160 ∧ storable value = true := by
  simp only [validInstance, Bool.and_eq_true, decide_eq_true_eq, List.all_eq_true] at h
  obtain ⟨⟨hne, hlength⟩, hchars⟩ := h
  refine ⟨hne, ?_, hlength, ?_⟩
  · obtain ⟨c, hc⟩ := List.exists_mem_of_ne_nil value.toList (by simpa using hne)
    rw [isBlank, List.all_eq_false]
    refine ⟨c, hc, ?_⟩
    rw [isWhitespace_of_isInstanceChar (hchars c hc)]
    exact Bool.false_ne_true
  · rw [storable, List.all_eq_true]
    intro c hc
    have hcode := (toNat_of_isInstanceChar (hchars c hc)).1
    rw [bne_iff_ne]
    rintro rfl
    exact absurd hcode (by decide)

/-- A caller that a validated configuration allows. -/
theorem of_authorizedCaller {callers : List String} (hvalid : ValidCallers callers)
    (h : authorizedCaller caller callers = some source) : validInstance source = true := by
  rw [authorizedCaller, Option.filter_eq_some_iff] at h
  exact hvalid.2.2.1 source (of_decide_eq_true h.2)

/-- **A receipt call is admitted** as the receipt it reports, under its caller's name. -/
theorem observationOf_receiptEnvelope {request : ObserveReceiptRequest}
    {envelope : ObservationEnvelope} (h : receiptEnvelope S caller request = .ok envelope) :
    ∃ source t, authorizedCaller caller S.config.receiptCallers = some source ∧
      envelope.id = request.observationId ∧ envelope.sourceModule = source ∧
      observationOf S.externals envelope =
        .ok (.receipt (receiptObservation source request t)) := by
  obtain ⟨source, t, hcaller, hvalid, -, rfl⟩ := receiptEnvelope_eq_ok.mp h
  obtain ⟨hne, hblank, hlength, -⟩ :=
    of_validInstance (of_authorizedCaller S.config.valid.2.2.1 hcaller)
  refine ⟨source, t, hcaller, rfl, rfl, observationOf_eq_ok.mpr ⟨⟨rfl, hblank, hlength⟩, rfl,
    EmailReceiptObserved.decode_encode _ _, rfl, validateReceipt_eq_ok.mpr ?_⟩⟩
  simp only [validReceiptRequest, Bool.and_eq_true] at hvalid
  obtain ⟨⟨-, hremote⟩, hdigest⟩ := hvalid
  refine ⟨hdigest, ?_, length_le_of_requiredBounded hremote, hne, hlength⟩
  intro hempty
  change request.remoteId = "" at hempty
  rw [hempty] at hremote
  exact absurd hremote (by decide)

/-- An envelope of a receipt call is recorded exactly when the call succeeds. -/
theorem observeReceipt_eq_ok {L L' : Ledger} {request : ObserveReceiptRequest} :
    observeReceipt S L caller request = .ok L' ↔
      ∃ envelope, receiptEnvelope S caller request = .ok envelope ∧
        apply S.externals L envelope = .ok L' := by
  rw [observeReceipt, bind_eq_ok]
  refine exists_congr fun envelope ↦ and_congr_right fun _ ↦ ?_
  rw [mapError_eq_ok]

end Plugin

end NotificationLedger

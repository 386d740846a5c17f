import NotificationLedger.Timeliness
import NotificationLedger.Receipts

/-!
# What `retry_now_eligible` promises

The flag looks at the status and the attempts of a delivery. The retry call also needs room for a
new revision, and the claim after it for another one, so that the flag promises too much for a
delivery in the last two revisions: in the last one the call is refused, in the one before it the
call spends the revision the claim would need. Up to there the flag is exact.
-/

namespace NotificationLedger

open Outcome

/-! ## Any revision

A ledger whose deliveries have been through many revisions is made from a reachable one by raising a
revision. Nothing else depends on how often a delivery was changed, so these ledgers stand for those
that long runs reach. -/

def Delivery.withRevision (revision : ℕ) (d : Delivery) : Delivery := { d with revision }

theorem Delivery.keeps_withRevision (revision : ℕ) :
    Keyed.Keeps (Delivery.withRevision revision) := fun _ ↦ ⟨rfl, fun _ ↦ Iff.rfl⟩

/-- The ledger with another revision of a delivery. -/
def Ledger.withRevision (L : Ledger) (deliveryId : String) (revision : ℕ) : Ledger :=
  { L with
    deliveries := L.deliveries.update (fun d ↦ decide (d.id = deliveryId))
      (Delivery.withRevision revision) (Delivery.keeps_withRevision revision) }

/-- The ledger of a reachable state, where the delivery may be in any revision: the number of
retries is not bounded, and a revision is reached by as many calls. -/
def Ledger.ReachableUpToRevision (S : Setting) (L : Ledger) (deliveryId : String) : Prop :=
  ∃ s, (system S).Reachable s ∧ (L = s.ledger ∨ ∃ revision, 1 ≤ revision ∧
    revision ≤ maxSafeWireInteger ∧ L = s.ledger.withRevision deliveryId revision)

section Rows

variable {S : Setting} {L : Ledger} {deliveryId : String} {d : Delivery}

/-- What does not depend on the revision. -/
theorem Ledger.ReachableUpToRevision.delivery (h : L.ReachableUpToRevision S deliveryId)
    (hd : L.deliveries.get? deliveryId = some d) :
    storable d.id = true ∧ (d.status = .retryScheduled → d.attemptCount < d.maxAttempts) := by
  obtain ⟨s, hreach, hL⟩ := h
  have hledger := reachable_ledger hreach
  have hstored : ∀ e, s.ledger.deliveries.get? deliveryId = some e → storable e.id = true ∧
      (e.status = .retryScheduled → e.attemptCount < e.maxAttempts) := by
    intro e he
    have hmem := (Table.get?_eq_some.mp he).1
    have hsound := sound_course hledger (Ledger.course_of_mem hmem)
    refine ⟨(Storable.cons_iff.mp ((checked_of_reachable hledger).deliveries e hmem).1).1, ?_⟩
    intro hstatus
    have hroom : e.attemptCount < 4 := hsound.room hstatus
    have hmax : e.maxAttempts = 4 := hsound.maxAttempts
    omega
  rcases hL with rfl | ⟨revision, -, -, rfl⟩
  · exact hstored d hd
  · rw [Ledger.withRevision, Table.get?_update] at hd
    obtain ⟨e, he, rfl⟩ := Option.map_eq_some_iff.mp hd
    split
    · exact hstored e he
    · exact hstored e he

end Rows

/-! ## The retry of a delivery

The retry call under an unused key, at the revision that is shown, and the claim behind it: each
needs a new revision below the limit. -/

section Retry

variable {S : Setting} {L L' : Ledger} {d : Delivery} {caller : Option String} {key : String}
  {requestedBy : String} {now : DateTime} {result : RetryResult}

/-- A retry of the delivery in its present revision. -/
def retryOf (d : Delivery) (key : String) : RetryDeliveryRequest where
  deliveryId := d.id
  revision := d.revision
  idempotencyKey := key

/-- An authorized call under a key that the ledger has not seen for the delivery. -/
structure Unused (S : Setting) (L : Ledger) (d : Delivery) (caller : Option String)
    (key : String) : Prop where
  authorized : (authorizedCaller caller S.config.adminCallers).isSome
  bounded : requiredBounded key 1 240 = true
  nulFree : storable key = true
  unused : ∀ r ∈ L.retryRequests.rows, r.deliveryId = d.id → r.idempotencyKey ≠ key
  /-- The digest in the id of the new decision is not one of a stored decision. -/
  fresh : ∀ r ∈ L.retryRequests.rows,
    r.id ≠ stableId S.externals "ntf_rty" ("manual:" ++ d.id ++ ":" ++ key)

/-- The call stores a decision and is answered. -/
def RetrySucceeds (S : Setting) (L : Ledger) (d : Delivery) (caller : Option String)
    (key : String) (now : DateTime) : Prop :=
  ∃ L' result response, Plugin.retryDelivery S L caller (retryOf d key) now = .ok (L', result) ∧
    Plugin.adminRetry S now result = .ok response

/-- What a claim asks of the row at this time. -/
def Delivery.ClaimableAt (now : DateTime) (d : Delivery) : Prop :=
  Runtime.isDue now d = true ∧ d.revision < maxSafeWireInteger

theorem Unused.findRetry (h : Unused S L d caller key) :
    Repository.findRetry L d.id key = none := by
  cases hfind : Repository.findRetry L d.id key with
  | none => rfl
  | some found =>
    obtain ⟨hr, hdelivery, hkey, -⟩ := Repository.findRetry_eq_some.mp hfind
    exact absurd hkey (h.unused found.1 hr hdelivery)

theorem validRetryRequest_retryOf (hid : requiredBounded d.id 1 160 = true)
    (hrev : 1 ≤ d.revision ∧ d.revision ≤ maxSafeWireInteger)
    (h : Unused S L d caller key) : Plugin.validRetryRequest (retryOf d key) = true := by
  have hwire : (1 : ℤ) ≤ d.revision ∧ (d.revision : ℤ) ≤ maxSafeWireInteger :=
    ⟨by exact_mod_cast hrev.1, by exact_mod_cast hrev.2⟩
  rw [Plugin.validRetryRequest, Bool.and_eq_true, Bool.and_eq_true]
  exact ⟨⟨hid, decide_eq_true hwire⟩, h.bounded⟩

theorem Unused.conforms (h : Unused S L d caller key)
    (hcaller : authorizedCaller caller S.config.adminCallers = some requestedBy)
    (hstorable : storable d.id = true) (expectedRevision : ℕ) (now : DateTime) :
    (Repository.manualRetryRow S.externals d.id expectedRevision key requestedBy now).Conforms := by
  obtain ⟨-, -, -, hcallerStorable⟩ :=
    Plugin.of_validInstance (Plugin.of_authorizedCaller S.config.valid.2.2.2 hcaller)
  have hrow : storable (stableId S.externals "ntf_rty" ("manual:" ++ d.id ++ ":" ++ key)) = true :=
    storable_stableId S.externals (by decide)
  refine ⟨?_, ?_⟩
  · simp [Storable, Repository.manualRetryRow, hrow, hstorable, h.nulFree]
  · have hreason : storable "operator_retry_now" = true := by decide
    simp [Storable, Repository.manualRetryRow, hcallerStorable, hreason]

/-- **The conditions of a retry** under an unused key. -/
theorem retryDelivery_unused (now : DateTime) (hd : L.deliveries.get? d.id = some d)
    (hid : requiredBounded d.id 1 160 = true) (hstorable : storable d.id = true)
    (hrev : 1 ≤ d.revision ∧ d.revision ≤ maxSafeWireInteger) (h : Unused S L d caller key) :
    (∃ L' result, Plugin.retryDelivery S L caller (retryOf d key) now = .ok (L', result)) ↔
      d.revision < maxSafeWireInteger ∧ d.status = .retryScheduled ∧
        d.attemptCount < d.maxAttempts := by
  constructor
  · rintro ⟨L', result, hretry⟩
    obtain ⟨requestedBy, -, -, -, hrequest⟩ := Plugin.retryDelivery_eq_ok.mp hretry
    obtain ⟨-, ⟨r, e, t, hfind, -⟩ | ⟨-, hschedule⟩⟩ :=
      Repository.requestManualRetry_eq_ok.mp hrequest
    · cases h.findRetry.symm.trans hfind
    obtain ⟨e, he, -, hlt, hopen, -⟩ := Repository.scheduleManualRetry_eq_ok.mp hschedule
    cases hd.symm.trans he
    exact ⟨hlt, hopen⟩
  · rintro ⟨hlt, hopen⟩
    obtain ⟨requestedBy, hcaller⟩ := Option.isSome_iff_exists.mp h.authorized
    have hstored : (L.deliveries.get? d.id).isSome = true := by rw [hd, Option.isSome_some]
    have hinsert := (Ledger.exists_insertRetryRequest
      (h.conforms hcaller hstorable d.revision now) hstored).mpr ?_
    · obtain ⟨L₁, hins⟩ := hinsert
      refine ⟨_, _, Plugin.retryDelivery_eq_ok.mpr ⟨requestedBy, hcaller,
        validRetryRequest_retryOf hid hrev h, ?_, Repository.requestManualRetry_eq_ok.mpr
          ⟨?_, .inr ⟨h.findRetry, Repository.scheduleManualRetry_eq_ok.mpr
            ⟨d, hd, ?_, hlt, hopen, ⟨L₁, ?_, rfl⟩, rfl⟩⟩⟩⟩⟩
      · have hwire : (d.revision : ℤ) ≠ maxSafeWireInteger := by exact_mod_cast hlt.ne
        exact hwire
      · exact Storable.cons_iff.mpr ⟨hstorable, by simp [Storable, retryOf, h.nulFree]⟩
      · rfl
      · exact hins
    · intro r hr
      exact ⟨h.fresh r hr, fun hkey ↦ h.unused r hr hkey.1 hkey.2⟩

/-- What a retry under an unused key leaves. -/
theorem delivery_of_retryDelivery (hd : L.deliveries.get? d.id = some d)
    (h : Unused S L d caller key)
    (hretry : Plugin.retryDelivery S L caller (retryOf d key) now = .ok (L', result)) :
    L'.deliveries.get? d.id = some (d.rescheduled (d.revision + 1) now) ∧
      result = ⟨d.id, d.revision + 1, .retryScheduled, now.stored, false⟩ := by
  obtain ⟨requestedBy, -, -, -, hrequest⟩ := Plugin.retryDelivery_eq_ok.mp hretry
  obtain ⟨-, ⟨r, e, t, hfind, -⟩ | ⟨-, hschedule⟩⟩ :=
    Repository.requestManualRetry_eq_ok.mp hrequest
  · cases h.findRetry.symm.trans hfind
  obtain ⟨e, he, -, -, -, ⟨L₁, -, rfl⟩, rfl⟩ := Repository.scheduleManualRetry_eq_ok.mp hschedule
  cases hd.symm.trans he
  exact ⟨Table.get?_update_self (Delivery.keeps_rescheduled _ _) hd (decide_eq_true rfl), rfl⟩

/-- The answer to such a retry has a text for every time in the four-digit years. -/
theorem retrySucceeds_iff (hformats : Formats S) (hnow : Plugin.inYearRange now = true)
    (hd : L.deliveries.get? d.id = some d) (hid : requiredBounded d.id 1 160 = true)
    (hstorable : storable d.id = true)
    (hrev : 1 ≤ d.revision ∧ d.revision ≤ maxSafeWireInteger) (h : Unused S L d caller key) :
    RetrySucceeds S L d caller key now ↔
      d.revision < maxSafeWireInteger ∧ d.status = .retryScheduled ∧
        d.attemptCount < d.maxAttempts := by
  rw [← retryDelivery_unused now hd hid hstorable hrev h]
  constructor
  · rintro ⟨L', result, response, hretry, -⟩
    exact ⟨L', result, hretry⟩
  · rintro ⟨L', result, hretry⟩
    obtain ⟨-, hresult⟩ := delivery_of_retryDelivery hd h hretry
    obtain ⟨hlt, -⟩ := (retryDelivery_unused now hd hid hstorable hrev h).mp ⟨L', result, hretry⟩
    obtain ⟨text, htext⟩ := Plugin.exists_formatTime.mpr
      (⟨hnow, hformats now hnow⟩ : Plugin.Formattable S now)
    refine ⟨L', result, _, hretry, Plugin.adminRetry_eq_ok.mpr ⟨?_, text, ?_, rfl⟩⟩
    · rw [hresult]
      exact ⟨hid, ⟨by simp, hlt⟩, rfl⟩
    · rw [hresult]
      exact htext

end Retry

/-! ## The flag

`Truthful` compares the flag with what the retry and the claim do. The two sides part in the last
two revisions. -/

/-- The flag is true exactly if a retry succeeds, and a retry that succeeds lets the delivery be
claimed at that time, with the attempts it had and no more. -/
def Truthful (S : Setting) (L : Ledger) (d : Delivery) (v : Plugin.AdminDelivery)
    (caller : Option String) (key : String) (now : DateTime) : Prop :=
  (v.retryNowEligible = true ↔ RetrySucceeds S L d caller key now) ∧
    ∀ L' result, Plugin.retryDelivery S L caller (retryOf d key) now = .ok (L', result) →
      ∃ d', L'.deliveries.get? d.id = some d' ∧ d'.ClaimableAt now ∧
        d'.attemptCount = d.attemptCount ∧ d'.maxAttempts = d.maxAttempts

theorem of_adminDelivery {S : Setting} {value : DeliverySummary} {v : Plugin.AdminDelivery}
    (h : Plugin.adminDelivery S value = .ok v) :
    requiredBounded value.id 1 160 = true ∧
      (1 ≤ value.revision ∧ value.revision ≤ maxSafeWireInteger) ∧
      v.retryNowEligible = (decide (value.status = .retryScheduled) &&
        decide (value.attemptCount < value.maxAttempts)) := by
  rw [Plugin.adminDelivery, ensure_bind_eq_ok] at h
  obtain ⟨hvalid, h⟩ := h
  obtain ⟨createdAt, -, h⟩ := bind_eq_ok.mp h
  obtain ⟨nextAttemptAt, -, h⟩ := bind_eq_ok.mp h
  obtain ⟨updatedAt, -, h⟩ := bind_eq_ok.mp h
  cases h
  simp only [Plugin.validSummary, Bool.and_eq_true, decide_eq_true_eq] at hvalid
  obtain ⟨⟨⟨⟨⟨⟨⟨⟨⟨⟨⟨⟨hid, -⟩, -⟩, -⟩, -⟩, hrev⟩, -⟩, -⟩, -⟩, -⟩, -⟩, -⟩, -⟩ := hvalid
  exact ⟨hid, hrev, rfl⟩

/-- **The flag is exact up to the last two revisions.** -/
theorem retryNowEligible_truthful {S : Setting} (hformats : Formats S) {L : Ledger} {d : Delivery}
    {row : Runtime.DueRow} {v : Plugin.AdminDelivery} {caller : Option String} {key : String}
    {now : DateTime} (hreach : L.ReachableUpToRevision S d.id) (hd : d ∈ L.deliveries.rows)
    (hrow : Runtime.join L d = some row)
    (hv : Plugin.adminDelivery S (Repository.summaryFromRow row) = .ok v)
    (hunused : Unused S L d caller key) (hnow : Plugin.inYearRange now = true) :
    Truthful S L d v caller key now ↔
      ¬(d.status = .retryScheduled ∧ maxSafeWireInteger ≤ d.revision + 1) := by
  have hget : L.deliveries.get? d.id = some d := Table.get?_of_mem hd
  obtain ⟨hstorable, hroom⟩ := hreach.delivery hget
  obtain ⟨rfl, -⟩ := Runtime.of_join hrow
  obtain ⟨hid, hrev, hflag⟩ := of_adminDelivery hv
  have heligible : v.retryNowEligible = true ↔ row.delivery.status = .retryScheduled := by
    rw [hflag, Bool.and_eq_true, decide_eq_true_eq, decide_eq_true_eq]
    exact ⟨And.left, fun hs ↦ ⟨hs, hroom hs⟩⟩
  have hsucceeds := retrySucceeds_iff hformats hnow hget hid hstorable hrev hunused
  constructor
  · rintro ⟨hexact, hclaimable⟩ ⟨hstatus, hlast⟩
    obtain ⟨hlt, -⟩ := hsucceeds.mp (hexact.mp (heligible.mpr hstatus))
    obtain ⟨L', result, response, hretry, -⟩ := hexact.mp (heligible.mpr hstatus)
    obtain ⟨d', hd', hclaim, -⟩ := hclaimable L' result hretry
    -- the retry has spent the revision the claim needs
    rw [(delivery_of_retryDelivery hget hunused hretry).1, Option.some_inj] at hd'
    subst hd'
    exact absurd hclaim.2 (by simp only [Delivery.rescheduled]; omega)
  · intro hnot
    refine ⟨?_, ?_⟩
    · rw [heligible, hsucceeds]
      constructor
      · intro hs
        exact ⟨by by_contra hge; exact hnot ⟨hs, by omega⟩, hs, hroom hs⟩
      · exact fun h ↦ h.2.1
    · intro L' result hretry
      obtain ⟨-, hs, hbudget⟩ :=
        (retryDelivery_unused now hget hid hstorable hrev hunused).mp ⟨L', result, hretry⟩
      refine ⟨_, (delivery_of_retryDelivery hget hunused hretry).1, ⟨?_, ?_⟩, rfl, rfl⟩
      · rw [Runtime.isDue_iff]
        refine ⟨?_, ⟨now.stored, rfl, le_rfl⟩, hbudget⟩
        simp only [Delivery.rescheduled, hs]
        rfl
      · simp only [Delivery.rescheduled]
        by_contra hge
        exact hnot ⟨hs, by omega⟩

namespace Deployment

/-- The delivery waits for a retry in this revision, the projection shows it, and the key is
unused. -/
def waitsInRevision (L : Ledger) (revision : ℕ) (key : String) : Bool :=
  (L.deliveries.get? delivery.id).any fun d ↦
    decide (d.status = .retryScheduled ∧ d.revision = revision) &&
      ((Runtime.join L d).any fun row ↦
        (Plugin.adminDelivery setting (Repository.summaryFromRow row)).toOption.isSome) &&
      L.retryRequests.rows.all fun r ↦ decide (r.idempotencyKey ≠ key ∧
        r.id ≠ stableId setting.externals "ntf_rty" ("manual:" ++ delivery.id ++ ":" ++ key))

/-- The first attempt was refused for the moment; then the delivery is seeded with its last
revision. -/
theorem exists_waiting :
    ∃ s, (system setting).Reachable s ∧ waitsInRevision s.ledger 3 "k2" = true ∧
      waitsInRevision (s.ledger.withRevision delivery.id maxSafeWireInteger) maxSafeWireInteger
        "k2" = true := by
  obtain ⟨s, hreach, hP⟩ := exists_of_execAll [.advance 1 (.answered refusal)]
    (fun s : System ↦ waitsInRevision s.ledger 3 "k2" &&
      waitsInRevision (s.ledger.withRevision delivery.id maxSafeWireInteger) maxSafeWireInteger
        "k2") reachable_awaiting (by decide +kernel)
  rw [Bool.and_eq_true] at hP
  exact ⟨s, hreach, hP⟩

theorem exists_of_waitsInRevision {L : Ledger} {revision : ℕ} {key : String}
    (hkey : requiredBounded key 1 240 = true ∧ storable key = true)
    (h : waitsInRevision L revision key = true) :
    ∃ d ∈ L.deliveries.rows, d.id = delivery.id ∧ d.status = .retryScheduled ∧
      d.revision = revision ∧ (∃ row v, Runtime.join L d = some row ∧
        Plugin.adminDelivery setting (Repository.summaryFromRow row) = .ok v) ∧
      Unused setting L d (some "admin") key := by
  obtain ⟨d, hd, h⟩ := (Option.any_eq_true _ _).mp h
  obtain ⟨hmem, hid⟩ := Table.get?_eq_some.mp hd
  rw [Bool.and_eq_true, Bool.and_eq_true, decide_eq_true_eq, List.all_eq_true] at h
  obtain ⟨⟨⟨hstatus, hrevision⟩, hprojected⟩, hrows⟩ := h
  obtain ⟨row, hrow, hv⟩ := (Option.any_eq_true _ _).mp hprojected
  obtain ⟨v, hv⟩ := Option.isSome_iff_exists.mp hv
  refine ⟨d, hmem, hid, hstatus, hrevision, ⟨row, v, hrow, toOption_eq_some.mp hv⟩,
    ⟨by decide, hkey.1, hkey.2, fun r hr _ ↦ ?_, fun r hr ↦ ?_⟩⟩
  · exact (of_decide_eq_true (hrows r hr)).1
  · rw [show d.id = delivery.id from hid]
    exact (of_decide_eq_true (hrows r hr)).2

end Deployment

/-- In its third revision the flag of the waiting delivery tells the truth. -/
theorem retryNowEligible_truthful_waiting :
    ∃ L d v key, L.ReachableUpToRevision Deployment.setting d.id ∧ d ∈ L.deliveries.rows ∧
      Truthful Deployment.setting L d v (some "admin") key Deployment.oneHourLater := by
  obtain ⟨s, hreach, hwaits, -⟩ := Deployment.exists_waiting
  obtain ⟨d, hd, -, hstatus, hrevision, ⟨row, v, hrow, hv⟩, hunused⟩ :=
    Deployment.exists_of_waitsInRevision (by decide) hwaits
  have hreach' : s.ledger.ReachableUpToRevision Deployment.setting d.id := ⟨s, hreach, .inl rfl⟩
  refine ⟨s.ledger, d, v, "k2", hreach', hd, (retryNowEligible_truthful Deployment.formats hreach'
    hd hrow hv hunused (by decide)).mpr ?_⟩
  rw [hrevision]
  exact fun h ↦ absurd h.2 (by decide)

/-- In the last revision the flag is true and the retry is refused. -/
theorem not_truthful_exhausted :
    ∃ L d row v, L.ReachableUpToRevision Deployment.setting d.id ∧ d ∈ L.deliveries.rows ∧
      d.revision = maxSafeWireInteger ∧ Runtime.join L d = some row ∧
      Plugin.adminDelivery Deployment.setting (Repository.summaryFromRow row) = .ok v ∧
      Unused Deployment.setting L d (some "admin") "k2" ∧ v.retryNowEligible = true ∧
      ¬RetrySucceeds Deployment.setting L d (some "admin") "k2" Deployment.oneHourLater := by
  obtain ⟨s, hreach, -, hwaits⟩ := Deployment.exists_waiting
  obtain ⟨d, hd, hid, hstatus, hrevision, ⟨row, v, hrow, hv⟩, hunused⟩ :=
    Deployment.exists_of_waitsInRevision (by decide) hwaits
  have hreach' : (s.ledger.withRevision Deployment.delivery.id
      maxSafeWireInteger).ReachableUpToRevision Deployment.setting d.id := by
    rw [hid]
    exact ⟨s, hreach, .inr ⟨maxSafeWireInteger, by decide, le_rfl, rfl⟩⟩
  have hget := Table.get?_of_mem hd
  obtain ⟨hstorable, hroom⟩ := hreach'.delivery hget
  obtain ⟨rfl, -⟩ := Runtime.of_join hrow
  obtain ⟨hbounded, hrev, hflag⟩ := of_adminDelivery hv
  refine ⟨_, row.delivery, row, v, hreach', hd, hrevision, hrow, hv, hunused, ?_, ?_⟩
  · rw [hflag, Bool.and_eq_true, decide_eq_true_eq, decide_eq_true_eq]
    exact ⟨hstatus, hroom hstatus⟩
  · rw [retrySucceeds_iff Deployment.formats (by decide) hget hbounded hstorable hrev hunused,
      hrevision]
    exact fun h ↦ lt_irrefl _ h.1

end NotificationLedger

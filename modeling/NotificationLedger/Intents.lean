import NotificationLedger.Interleaving
import NotificationLedger.Requests
import NotificationLedger.Rows

/-!
# Where stored intents come from

An intent, its snapshot and its delivery are written by one transaction, from a request the plugin
admitted and a render storage accepted. A create call remembers both between its steps, so what it
writes at the end is still what was admitted at the start. `Provenance` says this of every row a
reachable ledger holds in the tables of the intents.

## Remembering

A call keeps its request from the start and its prepared intent from the render on. `Remembered`
says that the first is one the plugin has admitted, and the second what storage has made of it and
of an accepted render; no step of the call changes either. The rows a write inserts are then
functions of the request, the render and the envelopes.
-/

namespace NotificationLedger

open Outcome Public

/-! ## Writing an intent

The rows of one write as functions of what it is given, and the equivalence that says when it
succeeds. A release is inserted or found; the other three rows are always new. -/

namespace Public

variable {X : Externals} {protector : SnapshotProtector} {L L' : Ledger}
  {intent : IntentPersistence} {nonces : Nonces} {now : DateTime}
  {receipt : TransactionalIntentReceipt}

/-- The row of the template release an intent was rendered with. -/
def releaseRow (X : Externals) (intent : IntentPersistence) (now : DateTime) :
    TemplateRelease where
  id := templateReleaseIdOf X intent
  templateId := intent.templateId
  version := intent.templateVersion
  locale := intent.templateLocale
  rendererIdentity := intent.rendererIdentity
  templateDigest := intent.templateDigest
  createdAt := now.stored

/-- The release of this template, version and locale. -/
def IsRelease (intent : IntentPersistence) (t : TemplateRelease) : Prop :=
  t.templateId = intent.templateId ∧ t.version = intent.templateVersion ∧
    t.locale = intent.templateLocale

theorem ensureTemplateRelease_eq_ok :
    ensureTemplateRelease X L intent now = .ok L' ↔ (releaseRow X intent now).Conforms ∧
      ((∃ t ∈ L.templateReleases.rows, IsRelease intent t ∧
          t.templateDigest = intent.templateDigest ∧ L' = L) ∨
        (∀ t ∈ L.templateReleases.rows, ¬IsRelease intent t) ∧
          L.insertTemplateRelease (releaseRow X intent now) = some L') := by
  have hmatch : ∀ t : TemplateRelease, ((decide (t.templateId = intent.templateId) &&
      decide (t.version = intent.templateVersion) && decide (t.locale = intent.templateLocale)) =
        true ↔ IsRelease intent t) := by
    intro t
    rw [Bool.and_eq_true, Bool.and_eq_true, decide_eq_true_eq, decide_eq_true_eq,
      decide_eq_true_eq, and_assoc]
    rfl
  rw [ensureTemplateRelease, ensure_bind_eq_ok]
  refine and_congr_right fun _ ↦ ?_
  cases hfind : L.templateReleases.rows.find? fun r ↦
      decide (r.templateId = intent.templateId) && decide (r.version = intent.templateVersion) &&
        decide (r.locale = intent.templateLocale) with
  | none =>
    have hnone : ∀ t ∈ L.templateReleases.rows, ¬IsRelease intent t :=
      fun t ht hrelease ↦ List.find?_eq_none.mp hfind t ht ((hmatch t).mpr hrelease)
    simp only
    rw [require_eq_ok]
    constructor
    · exact fun hins ↦ Or.inr ⟨hnone, hins⟩
    · rintro (⟨t, ht, hrelease, -⟩ | ⟨-, hins⟩)
      · exact absurd hrelease (hnone t ht)
      · exact hins
  | some t =>
    have ht := List.mem_of_find?_eq_some hfind
    have hfound := List.find?_some hfind
    have hrelease := (hmatch t).mp hfound
    simp only
    rw [ensure_bind_eq_ok, pure_eq_ok]
    constructor
    · rintro ⟨hdigest, rfl⟩
      exact Or.inl ⟨t, ht, hrelease, hdigest, rfl⟩
    · rintro (⟨u, hu, hother, hdigest, rfl⟩ | ⟨hnone, -⟩)
      · -- a template has one release for each version and locale
        have hsame : t = u := Table.eq_of_clash ht hu (Or.inr ⟨hrelease.1.trans hother.1.symm,
          hrelease.2.1.trans hother.2.1.symm, hrelease.2.2.trans hother.2.2.symm⟩)
        exact ⟨hsame ▸ hdigest, rfl⟩
      · exact absurd hrelease (hnone t ht)

/-- The encryptions of one write. -/
structure Encrypted where
  subject : ProtectedValue
  text : ProtectedValue
  html : ProtectedValue
  recipient : ProtectedValue

/-- The protector gave these values, all under one key. -/
structure Encrypted.By (e : Encrypted) (protector : SnapshotProtector) (intent : IntentPersistence)
    (nonces : Nonces) : Prop where
  subject : protector.protect nonces.subject intent.rendered.subject = .ok e.subject
  text : protector.protect nonces.text intent.rendered.text = .ok e.text
  html : protector.protect nonces.html intent.rendered.html = .ok e.html
  recipient : protector.protect nonces.recipient intent.recipient.address = .ok e.recipient
  key : e.subject.keyReference = e.text.keyReference ∧ e.text.keyReference = e.html.keyReference

/-- The content digest of the render an intent carries. -/
def messageDigest (X : Externals) (intent : IntentPersistence) : String :=
  Snapshot.contentDigest X intent.rendered.subject intent.rendered.text intent.rendered.html

/-- **What a write does**, step by step. -/
theorem writeIntent_eq_ok :
    writeIntent X protector L intent nonces now = .ok (L', receipt) ↔
      messageDigest X intent = intent.contentDigest ∧
      ∃ (L₁ : Ledger) (e : Encrypted) (L₂ L₃ : Ledger),
        ensureTemplateRelease X L intent now = .ok L₁ ∧ e.By protector intent nonces ∧
        L₁.insertRenderSnapshot
          (snapshotRow X intent e.subject e.text e.html (messageDigest X intent) now) = some L₂ ∧
        L₂.insertIntent (intentRow X intent e.recipient now) = some L₃ ∧
        L₃.insertDelivery (deliveryRow X (intentRow X intent e.recipient now).id now) =
          some L' ∧
        receipt = {
          intentId := (intentRow X intent e.recipient now).id
          deliveryId := deliveryIdOf X (intentRow X intent e.recipient now).id
          status := .queued
          idempotentReplay := false } := by
  rw [writeIntent]
  simp only [ensure_bind_eq_ok]
  refine and_congr Iff.rfl ?_
  constructor
  · intro h
    obtain ⟨L₁, h₁, h⟩ := bind_eq_ok.mp h
    obtain ⟨subject, hsubject, h⟩ := bind_eq_ok.mp h
    obtain ⟨text, htext, h⟩ := bind_eq_ok.mp h
    obtain ⟨html, hhtml, h⟩ := bind_eq_ok.mp h
    obtain ⟨hkey, h⟩ := ensure_bind_eq_ok.mp h
    obtain ⟨recipient, hrecipient, h⟩ := bind_eq_ok.mp h
    obtain ⟨L₂, h₂, h⟩ := bind_eq_ok.mp h
    obtain ⟨L₃, h₃, h⟩ := bind_eq_ok.mp h
    obtain ⟨L₄, h₄, h⟩ := bind_eq_ok.mp h
    rw [require_eq_ok] at h₂ h₃ h₄
    rw [pure_eq_ok, Prod.mk.injEq] at h
    obtain ⟨rfl, rfl⟩ := h
    exact ⟨L₁, ⟨subject, text, html, recipient⟩, L₂, L₃, h₁,
      ⟨hsubject, htext, hhtml, hrecipient, hkey⟩, h₂, h₃, h₄, rfl⟩
  · rintro ⟨L₁, e, L₂, L₃, h₁, he, h₂, h₃, h₄, rfl⟩
    simp only [messageDigest, intentRow] at h₂ h₃ h₄
    simp only [h₁, ok_bind, he.subject, he.text, he.html, ensure_of he.key, he.recipient, h₂,
      require_some, h₃, h₄, intentRow]
    rfl

/-- What a write leaves in the tables, under its encryptions. -/
structure Wrote (X : Externals) (intent : IntentPersistence) (now : DateTime) (e : Encrypted)
    (L L' : Ledger) : Prop where
  release : ∃ L₁, ensureTemplateRelease X L intent now = .ok L₁ ∧
    L'.templateReleases = L₁.templateReleases
  snapshotConforms :
    (snapshotRow X intent e.subject e.text e.html (messageDigest X intent) now).Conforms
  snapshots : L.renderSnapshots.insert?
    (snapshotRow X intent e.subject e.text e.html (messageDigest X intent) now) =
      some L'.renderSnapshots
  intentConforms : (intentRow X intent e.recipient now).Conforms
  intents : L.intents.insert? (intentRow X intent e.recipient now) = some L'.intents
  deliveries : L.deliveries.insert? (deliveryRow X (intentRow X intent e.recipient now).id now) =
    some L'.deliveries
  attempts : L'.attempts = L.attempts
  receipts : L'.receipts = L.receipts
  retryRequests : L'.retryRequests = L.retryRequests

/-- The release is made sure of before the tables of the intents are touched. -/
theorem wrote_of_writeIntent
    (h : writeIntent X protector L intent nonces now = .ok (L', receipt)) :
    ∃ e : Encrypted, e.By protector intent nonces ∧ Wrote X intent now e L L' ∧
      receipt = ⟨(intentRow X intent e.recipient now).id,
        deliveryIdOf X (intentRow X intent e.recipient now).id, .queued, false⟩ := by
  obtain ⟨-, L₁, e, L₂, L₃, h₁, he, h₂, h₃, h₄, hreceipt⟩ := writeIntent_eq_ok.mp h
  obtain ⟨⟨hsnapshot, -⟩, T₂, hT₂, rfl⟩ := Ledger.insertRenderSnapshot_eq_some.mp h₂
  obtain ⟨⟨hintent, -⟩, T₃, hT₃, rfl⟩ := Ledger.insertIntent_eq_some.mp h₃
  obtain ⟨-, T₄, hT₄, rfl⟩ := Ledger.insertDelivery_eq_some.mp h₄
  refine ⟨e, he, ?_, hreceipt⟩
  rcases (ensureTemplateRelease_eq_ok.mp h₁).2 with ⟨_, -, -, -, rfl⟩ | ⟨-, hins⟩
  · exact ⟨⟨_, h₁, rfl⟩, hsnapshot, hT₂, hintent, hT₃, hT₄, rfl, rfl, rfl⟩
  · obtain ⟨-, T₁, -, rfl⟩ := Ledger.insertTemplateRelease_eq_some.mp hins
    exact ⟨⟨_, h₁, rfl⟩, hsnapshot, hT₂, hintent, hT₃, hT₄, rfl, rfl, rfl⟩

end Public

/-! ## What the other transactions leave alone

Only a creation touches the tables of the intents, and no other transaction adds a delivery. -/

section Frame

variable {X : Externals} {protector : SnapshotProtector} {L L' : Ledger}

/-- Only a create transaction writes templates, snapshots and intents. -/
theorem Transaction.frame_of_not_create {t : Transaction} (h : t.run X protector L = .ok L')
    (hother : ∀ intent nonces now, t ≠ .create intent nonces now) :
    L'.templateReleases = L.templateReleases ∧ L'.renderSnapshots = L.renderSnapshots ∧
      L'.intents = L.intents := by
  cases t with
  | create intent nonces now => exact absurd rfl (hother intent nonces now)
  | claim locked now =>
    rcases of_claimOneDue h with rfl | ⟨row, work, hd, hclaimable, -, h⟩
    · exact ⟨rfl, rfl, rfl⟩
    · obtain ⟨-, -, -, -, L₁, hins, rfl⟩ := (Runtime.claimRow_eq_ok hd hclaimable).mp h
      obtain ⟨-, T, -, rfl⟩ := Ledger.insertAttempt_eq_some.mp hins
      exact ⟨rfl, rfl, rfl⟩
  | observe event =>
    obtain ⟨o, -, hrecord⟩ := Events.apply_eq_ok.mp h
    obtain ⟨-, ⟨_, -, -, rfl⟩ | ⟨-, L₁, hins, hobserve⟩⟩ := Events.recordOnce_eq_ok.mp hrecord
    · exact ⟨rfl, rfl, rfl⟩
    obtain ⟨-, T, -, rfl⟩ := Ledger.insertConsumedEvent_eq_some.mp hins
    cases o with
    | dispatch payload =>
      obtain ⟨-, d, a, -, -, ⟨-, -, -, rfl⟩ | ⟨-, -, -, -, hevidence⟩⟩ :=
        Events.observeDispatch_eq_ok.mp hobserve
      · exact ⟨rfl, rfl, rfl⟩
      unfold Events.insertEvidence at hevidence
      split at hevidence
      · obtain ⟨-, R, -, rfl⟩ := Ledger.insertReceipt_eq_some.mp hevidence
        exact ⟨rfl, rfl, rfl⟩
      · obtain ⟨-, R, -, rfl⟩ := Ledger.insertRetryRequest_eq_some.mp hevidence
        exact ⟨rfl, rfl, rfl⟩
      · rw [← Option.some_inj.mp hevidence]
        exact ⟨rfl, rfl, rfl⟩
    | receipt payload =>
      obtain ⟨-, ⟨_, -, -, rfl⟩ | ⟨d, a, -, L₁, hreceipt, rfl⟩⟩ :=
        Events.observeReceipt_eq_ok.mp hobserve
      · exact ⟨rfl, rfl, rfl⟩
      · obtain ⟨-, R, -, rfl⟩ := Ledger.insertReceipt_eq_some.mp hreceipt
        exact ⟨rfl, rfl, rfl⟩
    | lifecycle payload =>
      obtain ⟨-, -, L₁, hevent, hL'⟩ := Events.observeLifecycle_eq_ok.mp hobserve
      obtain ⟨-, R, -, rfl⟩ := Ledger.insertSourceLifecycleEvent_eq_some.mp hevent
      rw [hL']
      exact ⟨rfl, rfl, rfl⟩
  | retry deliveryId expectedRevision idempotencyKey requestedBy now =>
    obtain ⟨result, h⟩ := fst_map_eq_ok.mp h
    rcases Repository.of_requestManualRetry h with rfl | h
    · exact ⟨rfl, rfl, rfl⟩
    · obtain ⟨d, -, -, -, -, ⟨L₁, hins, hL'⟩, -⟩ := Repository.scheduleManualRetry_eq_ok.mp h
      obtain ⟨-, T, -, rfl⟩ := Ledger.insertRetryRequest_eq_some.mp hins
      rw [hL']
      exact ⟨rfl, rfl, rfl⟩

end Frame

/-! ## What a create call remembers

The phases of a call hold the request, and from the render on the prepared intent as well. -/

/-- An admitted request with an accepted render. -/
structure Origin (S : Setting) (request : IntentRequest) (rendered : RenderedTemplate)
    (now : DateTime) : Prop where
  admitted : ∃ caller raw, Plugin.intentRequestOf S caller raw now = .ok request
  rendered : validateRenderedTemplate S.externals rendered request.templateId templateVersion
    request.recipient.locale = .ok ()

/-- The intent a create call has prepared. -/
def CreatePhase.intent? : CreatePhase → Option IntentPersistence
  | .prepared intent | .locked intent | .writing intent => some intent
  | .reading | .rendering => none

/-- What a create call remembers was admitted when it started. -/
structure Remembered (S : Setting) (request : IntentRequest) (now : DateTime)
    (phase : CreatePhase) : Prop where
  admitted : ∃ caller raw, Plugin.intentRequestOf S caller raw now = .ok request
  prepared : ∀ intent ∈ phase.intent?, ∃ rendered, Origin S request rendered now ∧
    intent = persistenceOf S.externals request rendered

section Calls

variable {S : Setting} {s s' : System}

theorem Remembered.step {command : Command} {reply : Reply}
    (hs : ∀ request now phase, Call.create request now phase ∈ s.calls →
      Remembered S request now phase)
    (h : System.Stepped S s command s' reply) :
    ∀ request now phase, Call.create request now phase ∈ s'.calls →
      Remembered S request now phase := by
  intro request now phase hmem
  cases h with
  | createRefused | dispatchRefused | receiptRefused | lifecycleRefused | retryRefused
  | receiptRecorded | lifecycleRecorded | retryScheduled => exact hs _ _ _ hmem
  | createStarted hintent =>
    rcases List.mem_append.mp hmem with hmem | hmem
    · exact hs _ _ _ hmem
    · cases List.mem_singleton.mp hmem
      exact ⟨⟨_, _, hintent⟩, fun _ hnone ↦ by cases hnone⟩
  | dispatchStarted =>
    rcases List.mem_append.mp hmem with hmem | hmem
    · exact hs _ _ _ hmem
    · cases List.mem_singleton.mp hmem
  | abandoned =>
    rcases List.mem_or_eq_of_mem_set hmem with hmem | hmem
    · exact hs _ _ _ hmem
    · cases hmem
  | advanced hc hadvance =>
    rcases List.mem_or_eq_of_mem_set hmem with hmem | rfl
    · exact hs _ _ _ hmem
    have hold := List.mem_of_getElem? hc
    cases hadvance with
    | unknown => exact ⟨(hs _ _ _ hold).admitted, fun _ hnone ↦ by cases hnone⟩
    | prepared hprepare =>
      obtain ⟨hadmitted, -⟩ := hs _ _ _ hold
      obtain ⟨-, hrendered, rfl⟩ := prepareIntent_eq_ok.mp hprepare
      refine ⟨hadmitted, fun intent hintent ↦ ?_⟩
      cases hintent
      exact ⟨_, ⟨hadmitted, hrendered⟩, rfl⟩
    | locked | absent =>
      obtain ⟨hadmitted, hprepared⟩ := hs _ _ _ hold
      exact ⟨hadmitted, hprepared⟩

theorem remembered_of_reachable (h : (system S).Reachable s) {request : IntentRequest}
    {now : DateTime} {phase : CreatePhase} (hmem : Call.create request now phase ∈ s.calls) :
    Remembered S request now phase := by
  refine Lts.Reachable.invariant (S := system S)
    (I := fun s ↦ ∀ request now phase, Call.create request now phase ∈ s.calls →
      Remembered S request now phase) ?_ ?_ h request now phase hmem
  · rintro s rfl request now phase hmem
    cases hmem
  · intro s l s' _ hs hstep
    exact Remembered.step hs (System.stepped_of_exec hstep)

end Calls

/-! ## Where the rows come from

Each row of an intent is the one that some admitted request and accepted render give. The delivery
and the snapshot of the same write are found through it. -/

/-- The rows that were written together with an intent. -/
structure Written (S : Setting) (L : Ledger) (request : IntentRequest) (i : Intent) : Prop where
  origin : ∃ (rendered : RenderedTemplate) (now : DateTime) (e : Encrypted),
    Origin S request rendered now ∧
    i = intentRow S.externals (persistenceOf S.externals request rendered) e.recipient now ∧
    snapshotRow S.externals (persistenceOf S.externals request rendered) e.subject e.text e.html
        (messageDigest S.externals (persistenceOf S.externals request rendered)) now ∈
      L.renderSnapshots.rows
  delivery : ∃ d ∈ L.deliveries.rows, d.intentId = i.id

/-- Every row in the tables of the intents was written for an admitted request. -/
structure Provenance (S : Setting) (L : Ledger) : Prop where
  intents : ∀ i ∈ L.intents.rows, ∃ request, Written S L request i
  snapshots : ∀ s ∈ L.renderSnapshots.rows, ∃ i ∈ L.intents.rows, i.snapshotId = s.id
  releases : ∀ t ∈ L.templateReleases.rows, ∃ request rendered now, Origin S request rendered now ∧
    t = releaseRow S.externals (persistenceOf S.externals request rendered) now

section Provenance

variable {S : Setting} {s s' : System} {L L' : Ledger}

theorem Written.extends {request : IntentRequest} {i : Intent} (h : Written S L request i)
    (hext : L.Extends L') : Written S L' request i := by
  obtain ⟨⟨rendered, now, e, horigin, hi, hsnapshot⟩, d, hd, hintent⟩ := h
  obtain ⟨d', hd', hident⟩ := hext.exists_delivery hd
  simp only [Delivery.identity, Prod.mk.injEq] at hident
  exact ⟨⟨rendered, now, e, horigin, hi, hext.renderSnapshots.subset hsnapshot⟩, d', hd',
    hident.2.1.trans hintent⟩

/-- A stored release carries the id that belongs to its template, version and locale. -/
theorem Provenance.id_of_isRelease (h : Provenance S L) {intent : IntentPersistence}
    {t : TemplateRelease} (ht : t ∈ L.templateReleases.rows) (hrelease : IsRelease intent t) :
    t.id = templateReleaseIdOf S.externals intent := by
  obtain ⟨request, rendered, now, -, rfl⟩ := h.releases t ht
  obtain ⟨htemplate, hversion, hlocale⟩ := hrelease
  simp only [releaseRow] at htemplate hversion hlocale
  change templateReleaseIdOf _ _ = _
  simp only [templateReleaseIdOf, htemplate, hversion, hlocale]

/-- Writing an intent keeps the provenance of every row. -/
theorem Provenance.write (h : Provenance S L) {request : IntentRequest}
    {rendered : RenderedTemplate} {nonces : Nonces} {now : DateTime}
    {receipt : TransactionalIntentReceipt} (horigin : Origin S request rendered now)
    (hwrite : writeIntent S.externals S.protector L (persistenceOf S.externals request rendered)
      nonces now = .ok (L', receipt)) : Provenance S L' := by
  have hext : L.Extends L' := (statements_writeIntent hwrite).extends
  obtain ⟨e, -, hwrote, -⟩ := wrote_of_writeIntent hwrite
  refine ⟨fun i hi ↦ ?_, fun snapshot hsnapshot ↦ ?_, fun t ht ↦ ?_⟩
  · rcases (Table.mem_insert? hwrote.intents).mp hi with hold | rfl
    · obtain ⟨request, hwritten⟩ := h.intents i hold
      exact ⟨request, hwritten.extends hext⟩
    · refine ⟨request, ⟨rendered, now, e, horigin, rfl, ?_⟩, _,
        (Table.mem_insert? hwrote.deliveries).mpr (Or.inr rfl), rfl⟩
      exact (Table.mem_insert? hwrote.snapshots).mpr (Or.inr rfl)
  · rcases (Table.mem_insert? hwrote.snapshots).mp hsnapshot with hold | rfl
    · obtain ⟨i, hi, hid⟩ := h.snapshots snapshot hold
      exact ⟨i, (Table.mem_insert? hwrote.intents).mpr (Or.inl hi), hid⟩
    · exact ⟨_, (Table.mem_insert? hwrote.intents).mpr (Or.inr rfl), rfl⟩
  · obtain ⟨L₁, hensured, hreleases⟩ := hwrote.release
    rw [hreleases] at ht
    obtain ⟨-, ⟨_, -, -, -, rfl⟩ | ⟨-, hins⟩⟩ := ensureTemplateRelease_eq_ok.mp hensured
    · exact h.releases t ht
    · obtain ⟨-, T₁, hT₁, rfl⟩ := Ledger.insertTemplateRelease_eq_some.mp hins
      rcases (Table.mem_insert? hT₁).mp ht with hold | rfl
      · exact h.releases t hold
      · exact ⟨request, rendered, now, horigin, rfl⟩

theorem Provenance.congr (h : Provenance S L) (hext : L.Extends L')
    (htemplates : L'.templateReleases = L.templateReleases)
    (hsnapshots : L'.renderSnapshots = L.renderSnapshots) (hintents : L'.intents = L.intents) :
    Provenance S L' := by
  refine ⟨?_, ?_, ?_⟩
  · rw [hintents]
    exact fun i hi ↦ (h.intents i hi).imp fun request hwritten ↦ hwritten.extends hext
  · rw [hsnapshots, hintents]
    exact h.snapshots
  · rw [htemplates]
    exact h.releases

/-- **Every stored intent was written for an admitted request.** -/
theorem provenance_of_reachable (h : (system S).Reachable s) : Provenance S s.ledger := by
  refine Lts.Reachable.invariant (S := system S) (I := fun s ↦ Provenance S s.ledger) ?_ ?_ h
  · rintro s rfl
    constructor <;> exact fun _ hr ↦ absurd hr List.not_mem_nil
  · rintro s ⟨command, reply⟩ s' hreach hs hstep
    have hext := extends_of_step hreach hstep
    rcases System.ledger_of_stepped (System.holds_of_reachable hreach)
      (System.stepped_of_exec hstep) with hsame | ⟨t, hissues, hrun⟩
    · rw [hsame]
      exact hs
    by_cases hcreate : ∃ intent nonces now, t = .create intent nonces now
    · obtain ⟨intent, nonces, now, rfl⟩ := hcreate
      cases hissues with
      | write hc =>
        obtain ⟨-, hprepared⟩ := remembered_of_reachable hreach (List.mem_of_getElem? hc)
        obtain ⟨rendered, horigin, rfl⟩ := hprepared intent rfl
        obtain ⟨receipt, hpersist⟩ := fst_map_eq_ok.mp hrun
        rcases of_persistIntent hpersist with ⟨hsame, -⟩ | ⟨-, hwrite⟩
        · rw [hsame]
          exact hs
        · exact hs.write horigin hwrite
    · obtain ⟨htemplates, hsnapshots, hintents⟩ := Transaction.frame_of_not_create hrun
        fun intent nonces now ht ↦ hcreate ⟨intent, nonces, now, ht⟩
      exact hs.congr hext htemplates hsnapshots hintents

/-- The request behind a stored intent, and what the row says of it. -/
theorem Written.fields {request : IntentRequest} {i : Intent} (h : Written S L request i) :
    request.Valid ∧ i.id = intentIdOf S.externals i.sourceModule i.idempotencyKey i.requestDigest ∧
      i.snapshotId = snapshotIdOf S.externals i.requestDigest ∧
      i.requestDigest = request.digest S.externals ∧
      i.sourceModule = request.source.moduleId ∧ i.idempotencyKey = request.idempotencyKey ∧
      i.locale = request.recipient.locale ∧ i.correlationId = request.correlationId ∧
      i.recipientMask = Snapshot.maskEmail request.recipient.address := by
  obtain ⟨⟨rendered, now, e, ⟨⟨caller, raw, hadmitted⟩, -⟩, rfl, -⟩, -⟩ := h
  refine ⟨IntentRequest.valid_of_validate (Plugin.validate_of_intentRequestOf hadmitted), ?_⟩
  exact ⟨rfl, rfl, rfl, rfl, rfl, rfl, rfl, rfl⟩

end Provenance

end NotificationLedger

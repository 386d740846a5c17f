import NotificationLedger.Deployment
import NotificationLedger.Intents

/-!
# Storing an admitted request

A create operation that nothing interrupts, from the request to the queued delivery. The bounds on
what it stores are checked in three places, and some columns are computed on the way; the result
says which requests and renders get through all of them.

## Which checks remain

The validators bound every text of a request and of a render, and most bounds of the schema follow
from them. Three do not: the mask is computed from an address and may be longer than its column, and
two texts of a render, with the preview made of its text, may hold a character that no column can.
`Fits` is what is left to check.

The environment is asked for little: envelopes that can be stored, and no two requests with one
digest or one id (`NoCollision`).
-/

namespace NotificationLedger

open Outcome Public

/-- Either create operation with the render it receives, uninterrupted. -/
def Plugin.create (S : Setting) (L : Ledger) (caller : Option String) (request : CreateRequest)
    (rendered : RenderedTemplate) (nonces : Nonces) (now : DateTime) :
    Except (PluginError CreateError) (Ledger × CreateResponse) := do
  let intent ← intentRequestOf S caller request now
  let replay ← (findReplay S.externals L intent now).mapError mapCreateError
  match replay with
  | some receipt => pure (L, { receipt.response with idempotentReplay := true })
  | none => do
    let (L', receipt) ←
      (createInTx S.externals S.protector L intent rendered nonces now).mapError mapCreateError
    pure (L', receipt.response)

/-! ## What is asked of the environment -/

/-- The texts of a request that are stored, or masked and stored, hold no NUL. -/
def Public.IntentRequest.NulFree (request : IntentRequest) : Prop :=
  Storable [request.source.entityId, request.recipient.address, request.idempotencyKey,
    request.correlationId] ∧
    Storable (request.requestedBy.toList ++ request.causationId.toList)

/-- The columns of an intent take the texts of the request, the address in its masked form. -/
def Public.IntentRequest.Keepable (request : IntentRequest) : Prop :=
  Storable [request.source.entityId, Snapshot.maskEmail request.recipient.address,
    request.idempotencyKey, request.correlationId] ∧
    Storable (request.requestedBy.toList ++ request.causationId.toList) ∧
    (Snapshot.domainOf request.recipient.address).length ≤ 315

/-- The protector encrypts the texts of an intent under one key, to texts a column can hold. -/
def Public.Encrypts (protector : SnapshotProtector) (intent : IntentPersistence)
    (nonces : Nonces) : Prop :=
  ∃ e : Encrypted, e.By protector intent nonces ∧
    Storable [e.subject.ciphertext, e.text.ciphertext, e.html.ciphertext, e.subject.keyReference,
      e.recipient.ciphertext, e.recipient.keyReference] ∧
    0 < e.subject.ciphertext.length ∧ 0 < e.text.ciphertext.length ∧ 0 < e.html.ciphertext.length

/-- The text a release id is computed from. -/
def releaseText (templateId version locale : String) : String :=
  templateId ++ ":" ++ version ++ ":" ++ locale

/-- Neither the digests nor the truncated ids of what is to be stored collide with stored ones. -/
structure NoCollision (S : Setting) (L : Ledger) (intent : IntentPersistence)
    (request : IntentRequest) : Prop where
  requests : ∀ i ∈ L.intents.rows, ∀ stored, Written S L stored i →
    CollisionFree S.externals {request.encode S.externals, stored.encode S.externals}
  snapshots : ∀ i ∈ L.intents.rows,
    snapshotIdOf S.externals i.requestDigest = snapshotIdOf S.externals intent.requestDigest →
      i.requestDigest = intent.requestDigest
  intents : ∀ i ∈ L.intents.rows,
    intentIdOf S.externals i.sourceModule i.idempotencyKey i.requestDigest =
        intentIdOf S.externals intent.source.moduleId intent.idempotencyKey intent.requestDigest →
      i.requestDigest = intent.requestDigest
  deliveries : ∀ i ∈ L.intents.rows,
    deliveryIdOf S.externals i.id = deliveryIdOf S.externals
        (intentIdOf S.externals intent.source.moduleId intent.idempotencyKey
          intent.requestDigest) →
      i.id = intentIdOf S.externals intent.source.moduleId intent.idempotencyKey
        intent.requestDigest
  releases : ∀ t ∈ L.templateReleases.rows,
    t.id = templateReleaseIdOf S.externals intent →
      releaseText t.templateId t.version t.locale =
        releaseText intent.templateId intent.templateVersion intent.templateLocale

/-! ## The rows and their checks

For each of the four rows, the checks of its table in terms of the request, the render and the
envelopes. What the validators have bounded is discharged here; the rest becomes a part of `Fits`.
-/

section Rows

variable {X : Externals} {request : IntentRequest} {rendered : RenderedTemplate} {now : DateTime}

theorem storable_templateId (request : IntentRequest) : storable request.templateId = true := by
  have hall : ∀ t ∈ ["organization-invitation", "access-request-submitted",
      "access-request-approved", "access-request-denied", "access-request-expiring"],
      storable t = true := by decide
  exact hall _ (templateId_cases request)

theorem length_templateId (request : IntentRequest) :
    0 < request.templateId.length ∧ request.templateId.length ≤ 160 ∧
      isBlank request.templateId = false ∧ ':' ∉ request.templateId.toList := by
  have hall : ∀ t ∈ ["organization-invitation", "access-request-submitted",
      "access-request-approved", "access-request-denied", "access-request-expiring"],
      0 < t.length ∧ t.length ≤ 160 ∧ isBlank t = false ∧ ':' ∉ t.toList := by decide
  exact hall _ (templateId_cases request)

/-- The release of an accepted render, up to the two texts the renderer chose. -/
theorem conforms_releaseRow
    (h : validateRenderedTemplate X rendered request.templateId templateVersion
      request.recipient.locale = .ok ()) :
    (releaseRow X (persistenceOf X request rendered) now).Conforms ↔
      storable rendered.resolvedLocale = true ∧ storable rendered.rendererIdentity = true := by
  obtain ⟨⟨htemplate, hversion, -, -, hlocale, -, hdigest, -⟩, -⟩ :=
    validateRenderedTemplate_eq_ok.mp h
  have hlocalePos : 0 < rendered.resolvedLocale.length := by
    simp only [requiredBounded, Bool.and_eq_true, decide_eq_true_eq] at hlocale
    omega
  have hid : storable (templateReleaseIdOf X (persistenceOf X request rendered)) = true :=
    storable_stableId X (by decide)
  have htemplateId : storable rendered.templateId = true := htemplate ▸ storable_templateId request
  have hversionStorable : storable rendered.templateVersion = true := by
    rw [hversion]
    decide
  have hversionPos : 0 < rendered.templateVersion.length := by
    rw [hversion]
    decide
  have htemplatePos : 0 < rendered.templateId.length := htemplate ▸ (length_templateId request).1
  constructor
  · rintro ⟨htexts, -⟩
    exact ⟨htexts _ (by simp [releaseRow, persistenceOf]),
      htexts _ (by simp [releaseRow, persistenceOf])⟩
  · rintro ⟨hresolved, hrenderer⟩
    refine ⟨?_, htemplatePos, hversionPos, hlocalePos, hdigest⟩
    simp only [Storable, releaseRow, persistenceOf, List.forall_mem_cons, List.not_mem_nil,
      false_implies, implies_true, and_true]
    exact ⟨hid, htemplateId, hversionStorable, hresolved, hrenderer, storable_of_isDigest hdigest⟩

/-- The snapshot of an accepted render, up to the preview. -/
theorem conforms_snapshotRow {e : Encrypted}
    (htexts : Storable [e.subject.ciphertext, e.text.ciphertext, e.html.ciphertext,
      e.subject.keyReference, e.recipient.ciphertext, e.recipient.keyReference])
    (hnonempty : 0 < e.subject.ciphertext.length ∧ 0 < e.text.ciphertext.length ∧
      0 < e.html.ciphertext.length) :
    (snapshotRow X (persistenceOf X request rendered) e.subject e.text e.html
        (messageDigest X (persistenceOf X request rendered)) now).Conforms ↔
      storable (Snapshot.redactPreview rendered.text) = true := by
  have hid : storable (snapshotIdOf X (request.digest X)) = true :=
    storable_stableId X (by decide)
  have hrelease : storable (templateReleaseIdOf X (persistenceOf X request rendered)) = true :=
    storable_stableId X (by decide)
  have hdigest : isDigest (messageDigest X (persistenceOf X request rendered)) = true :=
    isDigest_digestText X _
  constructor
  · rintro ⟨hstorable, -⟩
    exact hstorable _ (by simp [snapshotRow, persistenceOf])
  · intro hpreview
    refine ⟨?_, hnonempty, hdigest, Snapshot.length_redactPreview _⟩
    simp only [Storable, List.forall_mem_cons] at htexts
    obtain ⟨hsubject, htext, hhtml, hkey, -⟩ := htexts
    simp only [Storable, snapshotRow, persistenceOf, List.forall_mem_cons, List.not_mem_nil,
      false_implies, implies_true, and_true]
    exact ⟨hid, hrelease, hsubject, htext, hhtml, hkey, storable_of_isDigest hdigest, hpreview⟩

/-- The row of an admitted request conforms when its texts do. -/
theorem conforms_intentRow {recipient : ProtectedValue} (hvalid : request.Valid)
    (hmodule : storable request.source.moduleId = true)
    (hrecipient : storable recipient.ciphertext = true ∧ storable recipient.keyReference = true) :
    (intentRow X (persistenceOf X request rendered) recipient now).Conforms ↔
      request.Keepable := by
  have hlength := Snapshot.length_maskEmail hvalid.mailbox
  have hkey := hvalid.idempotencyKey
  simp only [requiredBounded, Bool.and_eq_true, decide_eq_true_eq] at hkey
  constructor
  · rintro ⟨htexts, hoptional, -, -, -, hmask⟩
    change (Snapshot.maskEmail request.recipient.address).length ≤ 320 at hmask
    refine ⟨?_, hoptional, by omega⟩
    simp only [Storable, intentRow, persistenceOf, List.forall_mem_cons, List.not_mem_nil,
      false_implies, implies_true, and_true] at htexts ⊢
    obtain ⟨-, -, -, hentity, -, -, hmaskStorable, -, -, hkeyStorable, -, hcorrelation⟩ := htexts
    exact ⟨hentity, hmaskStorable, hkeyStorable, hcorrelation⟩
  · rintro ⟨htexts, hoptional, hdomain⟩
    simp only [Storable, List.forall_mem_cons] at htexts
    obtain ⟨hentity, hmask, hkeyStorable, hcorrelation, -⟩ := htexts
    have htype : storable request.source.entityType = true := by
      rcases hvalid.entityType with h | h <;> rw [h] <;> decide
    have hlocale : storable request.recipient.locale = true := by
      rcases hvalid.locale with h | h <;> rw [h] <;> decide
    have hid : storable (intentIdOf X request.source.moduleId request.idempotencyKey
        (request.digest X)) = true := storable_stableId X (by decide)
    have hsnapshot : storable (snapshotIdOf X (request.digest X)) = true :=
      storable_stableId X (by decide)
    have hdigest : isDigest (request.digest X) = true := isDigest_digestText X _
    refine ⟨?_, hoptional, hkey.2.1, hdigest, ?_, ?_⟩
    · simp only [Storable, intentRow, persistenceOf, List.forall_mem_cons, List.not_mem_nil,
        false_implies, implies_true, and_true]
      exact ⟨hid, hmodule, htype, hentity, hrecipient.1, hrecipient.2, hmask, hlocale, hsnapshot,
        hkeyStorable, storable_of_isDigest hdigest, hcorrelation⟩
    · change 3 ≤ (Snapshot.maskEmail request.recipient.address).length
      omega
    · change (Snapshot.maskEmail request.recipient.address).length ≤ 320
      omega

/-- Without a NUL only the length of the mask is left to ask. -/
theorem keepable_of_nulFree (hvalid : request.Valid) (hnul : request.NulFree)
    (hdomain : (Snapshot.domainOf request.recipient.address).length ≤ 315) : request.Keepable := by
  obtain ⟨htexts, hoptional⟩ := hnul
  simp only [Storable, List.forall_mem_cons] at htexts
  obtain ⟨hentity, haddress, hkey, hcorrelation, -⟩ := htexts
  refine ⟨?_, hoptional, hdomain⟩
  simp only [Storable, List.forall_mem_cons, List.not_mem_nil, false_implies, implies_true,
    and_true]
  exact ⟨hentity, Snapshot.storable_maskEmail hvalid.mailbox haddress, hkey, hcorrelation⟩

theorem conforms_deliveryRow (module key digest : String) :
    (deliveryRow X (intentIdOf X module key digest) now).Conforms := by
  have hid : storable (deliveryIdOf X (intentIdOf X module key digest)) = true :=
    storable_stableId X (by decide)
  have hintent : storable (intentIdOf X module key digest) = true :=
    storable_stableId X (by decide)
  refine ⟨?_, ⟨show 1 ≤ 4 by decide, show 4 ≤ 10 by decide, Nat.zero_le _⟩, Nat.one_pos, rfl⟩
  simp only [Storable, deliveryRow, List.forall_mem_cons, List.not_mem_nil, false_implies,
    implies_true, and_true]
  exact ⟨hid, hintent⟩

end Rows

/-! ## Release ids

The id of a release hashes its template, version and locale with colons between them. Two releases
with one id are told apart by the text that is hashed, and two texts by their parts, since neither a
template id nor a version holds a colon. -/

/-- A text before its first colon is determined. -/
theorem eq_of_append_colon {a b l m : String} (ha : ':' ∉ a.toList) (hb : ':' ∉ b.toList)
    (h : a ++ ":" ++ l = b ++ ":" ++ m) : a = b ∧ l = m := by
  have hcut : ∀ {t u : String}, ':' ∉ t.toList →
      (t ++ ":" ++ u).toList.takeWhile (fun c ↦ c != ':') = t.toList := by
    intro t u ht
    have hall : ∀ c ∈ t.toList, (c != ':') = true := by
      intro c hc
      rw [bne_iff_ne]
      rintro rfl
      exact ht hc
    have hcolon : ":".toList = [':'] := by decide
    rw [String.toList_append, String.toList_append, hcolon, List.append_assoc,
      List.takeWhile_append_of_pos hall, List.singleton_append,
      List.takeWhile_cons_of_neg (by simp), List.append_nil]
  have hab : a = b := by
    have hlist := congrArg (fun t : String ↦ t.toList.takeWhile fun c ↦ c != ':') h
    simp only [hcut ha, hcut hb] at hlist
    exact String.toList_inj.mp hlist
  subst hab
  refine ⟨rfl, ?_⟩
  have hlist := congrArg String.toList h
  simp only [String.toList_append, List.append_cancel_left_eq] at hlist
  exact String.toList_inj.mp hlist

/-- The text of a release id tells its template and locale. -/
theorem isRelease_of_releaseText {S : Setting} {request request' : IntentRequest}
    {rendered rendered' : RenderedTemplate} {now now' : DateTime}
    (h : Origin S request rendered now) (h' : Origin S request' rendered' now')
    (htext : releaseText rendered'.templateId rendered'.templateVersion rendered'.resolvedLocale =
      releaseText rendered.templateId rendered.templateVersion rendered.resolvedLocale) :
    IsRelease (persistenceOf S.externals request rendered)
      (releaseRow S.externals (persistenceOf S.externals request' rendered') now') := by
  obtain ⟨⟨htemplate, hversion, -⟩, -⟩ := validateRenderedTemplate_eq_ok.mp h.rendered
  obtain ⟨⟨htemplate', hversion', -⟩, -⟩ := validateRenderedTemplate_eq_ok.mp h'.rendered
  have hcolon : ':' ∉ rendered.templateId.toList :=
    htemplate ▸ (length_templateId request).2.2.2
  have hcolon' : ':' ∉ rendered'.templateId.toList :=
    htemplate' ▸ (length_templateId request').2.2.2
  have hsplit : ∀ t l : String,
      releaseText t templateVersion l = t ++ ":" ++ (templateVersion ++ ":" ++ l) := by
    intro t l
    simp only [releaseText, String.append_assoc]
  rw [hversion, hversion', hsplit, hsplit] at htext
  obtain ⟨hid, hrest⟩ := eq_of_append_colon hcolon' hcolon htext
  obtain ⟨-, hlocale⟩ := eq_of_append_colon (by decide) (by decide) hrest
  exact ⟨hid, hversion'.trans hversion.symm, hlocale⟩

/-! ## When the write succeeds

`Ready` collects what a first write finds: an admitted request, an accepted render, no intent under
its key, envelopes that can be stored, and no collision. Under it the write succeeds exactly when
the checks that are left are met. -/

/-- With a release in place, nothing stored clashes, and every row conforms: then it is written. -/
theorem exists_write_of_free {S : Setting} {L L₁ : Ledger} {request : IntentRequest}
    {rendered : RenderedTemplate} {nonces : Nonces} {now : DateTime} {e : Encrypted}
    (hvalid : request.Valid) (hmodule : storable request.source.moduleId = true)
    (hkeepable : request.Keepable)
    (hmessage : messageDigest S.externals (persistenceOf S.externals request rendered) =
      rendered.contentDigest)
    (hrelease : ensureTemplateRelease S.externals L (persistenceOf S.externals request rendered)
      now = .ok L₁)
    (hfk : (L₁.templateReleases.get?
      (templateReleaseIdOf S.externals (persistenceOf S.externals request rendered))).isSome)
    (he : e.By S.protector (persistenceOf S.externals request rendered) nonces)
    (hciphertexts : Storable [e.subject.ciphertext, e.text.ciphertext, e.html.ciphertext,
      e.subject.keyReference, e.recipient.ciphertext, e.recipient.keyReference])
    (hnonempty : 0 < e.subject.ciphertext.length ∧ 0 < e.text.ciphertext.length ∧
      0 < e.html.ciphertext.length)
    (hpreview : storable (Snapshot.redactPreview rendered.text) = true)
    (hsnapshotFree : ∀ s ∈ L₁.renderSnapshots.rows, ¬Keyed.Clash s
      (snapshotRow S.externals (persistenceOf S.externals request rendered) e.subject e.text e.html
        (messageDigest S.externals (persistenceOf S.externals request rendered)) now))
    (hintentFree : ∀ i ∈ L₁.intents.rows, ¬Keyed.Clash i
      (intentRow S.externals (persistenceOf S.externals request rendered) e.recipient now))
    (hdeliveryFree : ∀ d ∈ L₁.deliveries.rows, ¬Keyed.Clash d
      (deliveryRow S.externals
        (intentRow S.externals (persistenceOf S.externals request rendered) e.recipient now).id
        now)) :
    ∃ (L' : Ledger) (receipt : TransactionalIntentReceipt),
      writeIntent S.externals S.protector L (persistenceOf S.externals request rendered) nonces
        now = .ok (L', receipt) := by
  -- the snapshot
  obtain ⟨T₂, hT₂⟩ := Table.exists_insert? hsnapshotFree
  have h₂ := Ledger.insertRenderSnapshot_eq_some.mpr
    ⟨⟨(conforms_snapshotRow hciphertexts hnonempty).mpr hpreview, hfk⟩, T₂, hT₂, rfl⟩
  -- the intent
  obtain ⟨T₃, hT₃⟩ := Table.exists_insert? hintentFree
  have hrecipient : storable e.recipient.ciphertext = true ∧
      storable e.recipient.keyReference = true :=
    ⟨hciphertexts _ (by simp), hciphertexts _ (by simp)⟩
  have hsnapshotStored := Option.isSome_of_eq_some
    (Table.get?_of_mem ((Table.mem_insert? hT₂).mpr (Or.inr rfl)))
  have h₃ : ({ L₁ with renderSnapshots := T₂ } : Ledger).insertIntent
      (intentRow S.externals (persistenceOf S.externals request rendered) e.recipient now) =
        some { L₁ with
          renderSnapshots := T₂
          intents := T₃ } :=
    Ledger.insertIntent_eq_some.mpr
      ⟨⟨(conforms_intentRow hvalid hmodule hrecipient).mpr hkeepable, hsnapshotStored⟩, T₃,
        hT₃, rfl⟩
  -- the delivery
  obtain ⟨T₄, hT₄⟩ := Table.exists_insert? hdeliveryFree
  have hintentStored := Option.isSome_of_eq_some
    (Table.get?_of_mem ((Table.mem_insert? hT₃).mpr (Or.inr rfl)))
  have h₄ : ({ L₁ with
        renderSnapshots := T₂
        intents := T₃ } : Ledger).insertDelivery
      (deliveryRow S.externals
        (intentRow S.externals (persistenceOf S.externals request rendered) e.recipient now).id
        now) =
        some { L₁ with
          renderSnapshots := T₂
          intents := T₃
          deliveries := T₄ } :=
    Ledger.insertDelivery_eq_some.mpr
      ⟨⟨conforms_deliveryRow _ _ _, hintentStored⟩, T₄, hT₄, rfl⟩
  exact ⟨_, _, writeIntent_eq_ok.mpr ⟨hmessage, L₁, e, _, _, hrelease, he, h₂, h₃, h₄, rfl⟩⟩

/-- An admitted request with an accepted render, under a fresh key and with nothing in its way. -/
structure Ready (S : Setting) (L : Ledger) (request : IntentRequest) (rendered : RenderedTemplate)
    (nonces : Nonces) (now : DateTime) : Prop where
  linked : Linked S.externals L
  provenance : Provenance S L
  origin : Origin S request rendered now
  nulFree : request.NulFree
  fresh : ∀ i ∈ L.intents.rows,
    ¬(i.sourceModule = request.source.moduleId ∧ i.idempotencyKey = request.idempotencyKey)
  release : ∀ t ∈ L.templateReleases.rows,
    IsRelease (persistenceOf S.externals request rendered) t →
    t.templateDigest = rendered.templateDigest
  encrypts : Encrypts S.protector (persistenceOf S.externals request rendered) nonces
  free : NoCollision S L (persistenceOf S.externals request rendered) request

/-- The render and the address fit the columns they end up in. -/
def Fits (request : IntentRequest) (rendered : RenderedTemplate) : Prop :=
  (Snapshot.domainOf request.recipient.address).length ≤ 315 ∧
    Storable [rendered.resolvedLocale, rendered.rendererIdentity,
      Snapshot.redactPreview rendered.text]

namespace Ready

variable {S : Setting} {L : Ledger} {request : IntentRequest} {rendered : RenderedTemplate}
  {nonces : Nonces} {now : DateTime}

theorem admitted (h : Ready S L request rendered nonces now) :
    request.validate now = .ok () ∧ request.Valid ∧
      storable request.source.moduleId = true := by
  obtain ⟨caller, raw, hraw⟩ := h.origin.admitted
  have hvalidate := Plugin.validate_of_intentRequestOf hraw
  exact ⟨hvalidate, IntentRequest.valid_of_validate hvalidate,
    Plugin.storable_moduleId_of_intentRequestOf hraw⟩

/-- No stored request has the digest of this one. -/
theorem digest_ne (h : Ready S L request rendered nonces now) {i : Intent}
    (hi : i ∈ L.intents.rows) : i.requestDigest ≠ request.digest S.externals := by
  intro heq
  obtain ⟨stored, hwritten⟩ := h.provenance.intents i hi
  obtain ⟨-, -, -, hdigest, hmodule, hkey, -⟩ := hwritten.fields
  have hencode : request.encode S.externals = stored.encode S.externals :=
    (h.free.requests i hi stored hwritten).eq_of_digestText _ (by simp) (by simp)
      (heq.symm.trans hdigest)
  have hsame := IntentRequest.encode_injective S.externals hencode
  rw [← hsame] at hmodule hkey
  exact h.fresh i hi ⟨hmodule, hkey⟩

/-- The new intent has an id of its own. -/
theorem intentId_ne (h : Ready S L request rendered nonces now) {i : Intent}
    (hi : i ∈ L.intents.rows) :
    i.id ≠ intentIdOf S.externals request.source.moduleId request.idempotencyKey
      (request.digest S.externals) := by
  intro heq
  obtain ⟨stored, hwritten⟩ := h.provenance.intents i hi
  obtain ⟨-, hid, -⟩ := hwritten.fields
  exact h.digest_ne hi (h.free.intents i hi (hid ▸ heq))

theorem exists_release (h : Ready S L request rendered nonces now)
    (hconforms :
      (releaseRow S.externals (persistenceOf S.externals request rendered) now).Conforms) :
    ∃ L₁, ensureTemplateRelease S.externals L (persistenceOf S.externals request rendered) now =
        .ok L₁ ∧
      L₁.renderSnapshots = L.renderSnapshots ∧ L₁.intents = L.intents ∧
      L₁.deliveries = L.deliveries ∧
      (L₁.templateReleases.get?
        (templateReleaseIdOf S.externals (persistenceOf S.externals request rendered))).isSome := by
  by_cases hstored : ∃ t ∈ L.templateReleases.rows,
      IsRelease (persistenceOf S.externals request rendered) t
  · obtain ⟨t, ht, hrelease⟩ := hstored
    refine ⟨L, ensureTemplateRelease_eq_ok.mpr ⟨hconforms, Or.inl ⟨t, ht, hrelease,
      h.release t ht hrelease, rfl⟩⟩, rfl, rfl, rfl, ?_⟩
    rw [← h.provenance.id_of_isRelease ht hrelease]
    exact Option.isSome_of_eq_some (Table.get?_of_mem ht)
  · have hnone : ∀ t ∈ L.templateReleases.rows,
        ¬IsRelease (persistenceOf S.externals request rendered) t :=
      fun t ht hrelease ↦ hstored ⟨t, ht, hrelease⟩
    have hfree : ∀ t ∈ L.templateReleases.rows, ¬Keyed.Clash t
        (releaseRow S.externals (persistenceOf S.externals request rendered) now) := by
      intro t ht hclash
      rcases hclash with hid | hrelease
      · have htext := h.free.releases t ht hid
        obtain ⟨request', rendered', now', horigin', heq⟩ := h.provenance.releases t ht
        rw [heq] at htext
        simp only [releaseRow, persistenceOf] at htext
        rw [heq] at ht
        exact hnone _ ht (isRelease_of_releaseText h.origin horigin' htext)
      · exact hnone t ht hrelease
    obtain ⟨T, hT⟩ := Table.exists_insert? hfree
    refine ⟨{ L with templateReleases := T }, ensureTemplateRelease_eq_ok.mpr ⟨hconforms,
      Or.inr ⟨hnone, Ledger.insertTemplateRelease_eq_some.mpr ⟨hconforms, T, hT, rfl⟩⟩⟩,
      rfl, rfl, rfl, ?_⟩
    have hmem := (Table.mem_insert? hT).mpr (Or.inr rfl)
    exact Option.isSome_of_eq_some (Table.get?_of_mem hmem)

/-- What does not fit is refused by a check of the schema. -/
theorem fits_of_write (h : Ready S L request rendered nonces now) {L' : Ledger}
    {receipt : TransactionalIntentReceipt}
    (hwrite : writeIntent S.externals S.protector L (persistenceOf S.externals request rendered)
      nonces now = .ok (L', receipt)) : Fits request rendered := by
  obtain ⟨-, hvalid, -⟩ := h.admitted
  obtain ⟨e, -, hwrote, -⟩ := wrote_of_writeIntent hwrite
  obtain ⟨L₁, hensured, -⟩ := hwrote.release
  obtain ⟨hrelease, -⟩ := ensureTemplateRelease_eq_ok.mp hensured
  obtain ⟨-, -, -, -, -, hmask⟩ := hwrote.intentConforms
  obtain ⟨hlocale, hrenderer⟩ := (conforms_releaseRow h.origin.rendered).mp hrelease
  have hpreview : storable (Snapshot.redactPreview rendered.text) = true :=
    hwrote.snapshotConforms.1 _ (by simp [snapshotRow, persistenceOf])
  have hlength := Snapshot.length_maskEmail hvalid.mailbox
  change (Snapshot.maskEmail request.recipient.address).length ≤ 320 at hmask
  refine ⟨by omega, ?_⟩
  rw [Storable.cons_iff, Storable.cons_iff, Storable.cons_iff]
  exact ⟨hlocale, hrenderer, hpreview, fun _ hnone ↦ absurd hnone List.not_mem_nil⟩

/-- What fits is written, and nothing but a queued delivery is added to the deliveries. -/
theorem exists_write (h : Ready S L request rendered nonces now) (hfits : Fits request rendered) :
    ∃ (L' : Ledger) (receipt : TransactionalIntentReceipt),
      writeIntent S.externals S.protector L (persistenceOf S.externals request rendered) nonces
        now = .ok (L', receipt) := by
  obtain ⟨-, hvalid, hmodule⟩ := h.admitted
  obtain ⟨hdomain, htexts⟩ := hfits
  rw [Storable.cons_iff, Storable.cons_iff, Storable.cons_iff] at htexts
  obtain ⟨hlocale, hrenderer, hpreview, -⟩ := htexts
  obtain ⟨e, he, hciphertexts, hnonempty⟩ := h.encrypts
  have hmessage : messageDigest S.externals (persistenceOf S.externals request rendered) =
      rendered.contentDigest := (validateRenderedTemplate_eq_ok.mp h.origin.rendered).2.2.2.2.2.2
  obtain ⟨L₁, h₁, hsnapshots, hintents, hdeliveries, hfk⟩ := h.exists_release
    ((conforms_releaseRow h.origin.rendered).mpr ⟨hlocale, hrenderer⟩)
  have hsnapshotFree : ∀ s ∈ L₁.renderSnapshots.rows, ¬Keyed.Clash s
      (snapshotRow S.externals (persistenceOf S.externals request rendered) e.subject e.text e.html
        (messageDigest S.externals (persistenceOf S.externals request rendered)) now) := by
    rw [hsnapshots]
    intro s hs hclash
    obtain ⟨i, hi, hid⟩ := h.provenance.snapshots s hs
    obtain ⟨stored, hwritten⟩ := h.provenance.intents i hi
    obtain ⟨-, -, hsnapshotId, -⟩ := hwritten.fields
    exact h.digest_ne hi (h.free.snapshots i hi (hsnapshotId.symm.trans (hid.trans hclash)))
  have hintentFree : ∀ i ∈ L₁.intents.rows, ¬Keyed.Clash i
      (intentRow S.externals (persistenceOf S.externals request rendered) e.recipient now) := by
    rw [hintents]
    intro i hi hclash
    rcases hclash with hid | hkey
    · exact h.intentId_ne hi hid
    · exact h.fresh i hi hkey
  have hdeliveryFree : ∀ d ∈ L₁.deliveries.rows, ¬Keyed.Clash d
      (deliveryRow S.externals
        (intentRow S.externals (persistenceOf S.externals request rendered) e.recipient now).id
        now) := by
    rw [hdeliveries]
    intro d hd hclash
    obtain ⟨hid, i, hi, hintent⟩ := h.linked.deliveries d hd
    rcases hclash with hclash | hclash
    · have hsame : deliveryIdOf S.externals i.id = _ := (hintent ▸ hid.symm).trans hclash
      exact h.intentId_ne hi (h.free.deliveries i hi hsame)
    · exact h.intentId_ne hi (hintent.trans hclash)
  exact exists_write_of_free hvalid hmodule (keepable_of_nulFree hvalid h.nulFree hdomain) hmessage
    h₁ hfk he hciphertexts hnonempty hpreview hsnapshotFree hintentFree hdeliveryFree

end Ready

/-! ## The main result -/

/-- One queued delivery was added, for the intent the response names, and every row of the ledger
satisfies the schema. -/
structure Queued (L L' : Ledger) (response : CreateResponse) : Prop where
  delivery : ∃ d, L'.deliveries.rows = L.deliveries.rows ++ [d] ∧ d.Conforms ∧
    d.status = .queued ∧ d.id = response.deliveryId ∧ d.intentId = response.intentId
  created : response.idempotentReplay = false
  checked : L'.Checked

section Main

variable {S : Setting} {s : System} {L L' : Ledger} {caller : Option String} {raw : CreateRequest}
  {request : IntentRequest} {rendered : RenderedTemplate} {nonces : Nonces} {now : DateTime}

/-- The delivery a write adds. -/
theorem queued_of_write {intent : IntentPersistence} {receipt : TransactionalIntentReceipt}
    (hL : (transactions S.externals S.protector).Reachable L)
    (hwrite : writeIntent S.externals S.protector L intent nonces now = .ok (L', receipt)) :
    Queued L L' receipt.response := by
  have hstep : (transactions S.externals S.protector).Step L (.create intent nonces now) L' :=
    fst_map_eq_ok.mpr ⟨receipt, persistIntent_of_writeIntent hwrite⟩
  have hchecked := checked_of_reachable (hL.step hstep)
  have hconforms : (deliveryRow S.externals receipt.intentId now).Conforms := by
    obtain ⟨-, L₁, e, L₂, L₃, -, -, -, -, h₄, rfl⟩ := writeIntent_eq_ok.mp hwrite
    exact (Ledger.insertDelivery_eq_some.mp h₄).1.1
  obtain ⟨e, -, hwrote, rfl⟩ := wrote_of_writeIntent hwrite
  exact ⟨⟨_, (Table.insert?_eq_some.mp hwrote.deliveries).2, hconforms, rfl, rfl, rfl⟩, rfl,
    hchecked⟩

/-- The uninterrupted operation under a fresh key is the write. -/
theorem create_eq_ok (h : Ready S L request rendered nonces now)
    (hadmitted : Plugin.intentRequestOf S caller raw now = .ok request)
    {response : CreateResponse} :
    Plugin.create S L caller raw rendered nonces now = .ok (L', response) ↔
      ∃ receipt, writeIntent S.externals S.protector L
          (persistenceOf S.externals request rendered) nonces now = .ok (L', receipt) ∧
        response = receipt.response := by
  obtain ⟨hvalidate, -, hmodule⟩ := h.admitted
  have hkey : storable request.idempotencyKey = true := h.nulFree.1 _ (by simp)
  have hnone := storedIntent_eq_none h.fresh
  have hreplay : findReplay S.externals L request now = .ok none := by
    rw [findReplay, hvalidate, ok_bind]
    exact findIdempotentIntent_eq_none hmodule hkey hnone
  have hprepare := prepareIntent_eq_ok.mpr ⟨hvalidate, h.origin.rendered, rfl⟩
  have hrecheck : recheckIntent L (persistenceOf S.externals request rendered) = .ok none :=
    recheckIntent_eq_none hmodule hkey hnone
  rw [Plugin.create, hadmitted, ok_bind, hreplay]
  simp only [Except.mapError, ok_bind]
  rw [bind_eq_ok]
  simp only [createInTx, hprepare, ok_bind, persistIntent, hrecheck]
  constructor
  · rintro ⟨⟨L₁, receipt⟩, hwrite, h⟩
    rw [pure_eq_ok, Prod.mk.injEq] at h
    obtain ⟨rfl, rfl⟩ := h
    exact ⟨receipt, mapError_eq_ok.mp hwrite, rfl⟩
  · rintro ⟨receipt, hwrite, rfl⟩
    exact ⟨(L', receipt), mapError_eq_ok.mpr hwrite, rfl⟩

/-- **Which admitted intents can be stored.** -/
theorem stored_iff (hreach : (system S).Reachable s)
    (hadmitted : Plugin.intentRequestOf S caller raw now = .ok request)
    (hnul : request.NulFree)
    (hfresh : ∀ i ∈ s.ledger.intents.rows,
      ¬(i.sourceModule = request.source.moduleId ∧ i.idempotencyKey = request.idempotencyKey))
    (hrendered : validateRenderedTemplate S.externals rendered request.templateId templateVersion
      request.recipient.locale = .ok ())
    (hrelease : ∀ t ∈ s.ledger.templateReleases.rows,
      IsRelease (persistenceOf S.externals request rendered) t →
        t.templateDigest = rendered.templateDigest)
    (hencrypts : Encrypts S.protector (persistenceOf S.externals request rendered) nonces)
    (hfree : NoCollision S s.ledger (persistenceOf S.externals request rendered) request) :
    (∃ L' response, Plugin.create S s.ledger caller raw rendered nonces now = .ok (L', response) ∧
        Queued s.ledger L' response) ↔
      Fits request rendered := by
  have hledger := reachable_ledger hreach
  have hready : Ready S s.ledger request rendered nonces now :=
    ⟨linked_of_reachable hledger, provenance_of_reachable hreach,
      ⟨⟨caller, raw, hadmitted⟩, hrendered⟩, hnul, hfresh, hrelease, hencrypts, hfree⟩
  constructor
  · rintro ⟨L', response, hcreate, -⟩
    obtain ⟨receipt, hwrite, -⟩ := (create_eq_ok hready hadmitted).mp hcreate
    exact hready.fits_of_write hwrite
  · intro hfits
    obtain ⟨L', receipt, hwrite⟩ := hready.exists_write hfits
    exact ⟨L', receipt.response, (create_eq_ok hready hadmitted).mpr ⟨receipt, hwrite, rfl⟩,
      queued_of_write hledger hwrite⟩

end Main

/-! ## A long domain

A mask keeps the domain whole, so a domain close to the bound of an address makes it longer than its
column. Everything else about the request is in order. -/

namespace Deployment

/-- The same invitation under another key and to another address. -/
def requestTo (address : String) : CreateRequest :=
  .organizationInvitation { request with
    recipient := { address, displayName := none, locale := .en }
    idempotencyKey := "k2" }

/-- What the plugin makes of it. -/
def intentTo (address : String) : IntentRequest :=
  match intentRequest with
  | .invitation request => .invitation { request with
      recipient := { request.recipient with address }
      idempotencyKey := "k2" }
  | request => request

/-- What the test protector writes holds no NUL. -/
theorem storable_base64Encode (bytes : List UInt8) :
    storable (String.ofList (base64Encode bytes)) = true := by
  have hdigit : ∀ n, (base64Digit n != '\x00') = true := by
    intro n
    have hall : ∀ k < 64, (base64Alphabet.getD k '=' != '\x00') = true := by decide +kernel
    exact hall _ (Nat.mod_lt _ (by decide))
  rw [storable, String.toList_ofList]
  fun_induction base64Encode bytes <;> simp_all

theorem encrypts_intentTo (address : String) :
    Encrypts setting.protector (persistenceOf setting.externals (intentTo address) rendered)
      nonces := by
  have hlength : 0 < (String.ofList (base64Encode (utf8 "Hi"))).length := by decide
  have hkey : storable "test-only:base64" = true := by decide
  refine ⟨⟨_, _, _, _⟩, ⟨rfl, rfl, rfl, rfl, rfl, rfl⟩, ?_, hlength, hlength, hlength⟩
  simp only [Storable, List.forall_mem_cons, List.not_mem_nil, false_implies, implies_true,
    and_true]
  exact ⟨storable_base64Encode _, storable_base64Encode _, storable_base64Encode _, hkey,
    storable_base64Encode _, hkey⟩

theorem intentRequestOf_requestTo (address : String) (h : requiredBounded address 3 320 = true)
    (hat : '@' ∈ address.toList) :
    Plugin.intentRequestOf setting (some "org") (requestTo address) midnight =
      .ok (intentTo address) := by
  have hcaller : authorizedCaller (some "org") setting.config.transactionalCallers =
      some "org" := rfl
  have htime : Plugin.parseTime setting request.template.expiresAt = some nextDay := by
    decide
  have hvalid : Plugin.validCreateRequest setting
      { request with
        recipient := { address, displayName := none, locale := .en }
        idempotencyKey := "k2" } midnight = true := by
    -- only the address differs from a request that is valid
    have hother : Plugin.validCreateRequest setting
        { request with idempotencyKey := "k2" } midnight = true := by decide
    simp only [Plugin.validCreateRequest, Bool.and_eq_true, decide_eq_true_eq] at hother ⊢
    tauto
  rw [requestTo, Plugin.intentRequestOf, Plugin.invitationIntent, hcaller, require_some, ok_bind,
    ensure_of hvalid, ok_bind, htime]
  rfl

/-- The render answers an invitation, whatever its address is. -/
theorem rendered_valid :
    validateRenderedTemplate setting.externals rendered "organization-invitation" templateVersion
      "en" = .ok () :=
  validateRenderedTemplate_eq_ok.mpr (by decide)

end Deployment

/-- The ledger of one invitation has nothing of a second one, but the release they share. -/
theorem noCollision_queued :
    NoCollision Deployment.setting Deployment.queued.ledger
      (persistenceOf Deployment.setting.externals (Deployment.intentTo "bo@c.de")
        Deployment.rendered) (Deployment.intentTo "bo@c.de") := by
  have hrow : ∀ i ∈ Deployment.queued.ledger.intents.rows, i = Deployment.intent :=
    fun _ hi ↦ List.mem_singleton.mp hi
  have hdigest : Deployment.intent.requestDigest ≠
      (Deployment.intentTo "bo@c.de").digest Deployment.setting.externals := by decide +kernel
  constructor
  · intro i hi stored hstored
    rw [hrow i hi] at hstored
    obtain ⟨-, -, -, hsame, -⟩ := hstored.fields
    rw [hsame] at hdigest
    exact CollisionFree.pair _ hdigest.symm
  · intro i hi
    rw [hrow i hi]
    decide +kernel
  · intro i hi
    rw [hrow i hi]
    decide +kernel
  · intro i hi
    rw [hrow i hi]
    decide +kernel
  · intro t ht
    rw [List.mem_singleton.mp ht]
    decide +kernel

/-- A second invitation is stored beside the first, under the release of the first. -/
theorem stored_iff_second :
    ∃ L' response, Plugin.create Deployment.setting Deployment.queued.ledger (some "org")
        (Deployment.requestTo "bo@c.de") Deployment.rendered Deployment.nonces
        Deployment.midnight = .ok (L', response) ∧
      Queued Deployment.queued.ledger L' response := by
  have hadmitted := Deployment.intentRequestOf_requestTo "bo@c.de" (by decide)
    (by decide)
  refine (stored_iff Deployment.reachable_queued hadmitted ⟨by decide, by decide⟩
    (by decide +kernel) Deployment.rendered_valid (fun t ht _ ↦ ?_)
    (Deployment.encrypts_intentTo _) noCollision_queued).mpr ⟨by decide, by decide⟩
  rw [List.mem_singleton.mp ht]
  rfl

/-- An address of 320 characters with a local part of one. -/
def longAddress : String := String.ofList ('a' :: '@' :: List.replicate 318 'b')

theorem toList_longAddress : longAddress.toList = 'a' :: '@' :: List.replicate 318 'b' :=
  String.toList_ofList

theorem requiredBounded_longAddress : requiredBounded longAddress 3 320 = true := by
  rw [requiredBounded, isBlank, ← String.length_toList, toList_longAddress, List.all_cons,
    List.length_cons, List.length_cons, List.length_replicate]
  rfl

theorem storable_longAddress : storable longAddress = true := by
  rw [storable, toList_longAddress, List.all_cons, List.all_cons, List.all_replicate]
  rfl

theorem length_domainOf_longAddress : (Snapshot.domainOf longAddress).length = 318 := by
  have hdomain : ∀ c ∈ List.replicate 318 'b', (c != '@') = true := by
    intro c hc
    rw [List.eq_of_mem_replicate hc]
    rfl
  rw [Snapshot.domainOf, toList_longAddress, List.length_reverse, List.reverse_cons,
    List.reverse_cons, List.reverse_replicate, List.append_assoc,
    List.takeWhile_append_of_pos hdomain, List.length_append, List.length_replicate]
  rfl

/-- The validators admit it; its mask has 323 characters, and nothing is stored. -/
theorem unstored_longAddress :
    ∃ s caller raw request, (system Deployment.setting).Reachable s ∧
      Plugin.intentRequestOf Deployment.setting caller raw Deployment.midnight = .ok request ∧
      request.NulFree ∧
      (∀ i ∈ s.ledger.intents.rows,
        ¬(i.sourceModule = request.source.moduleId ∧ i.idempotencyKey = request.idempotencyKey)) ∧
      validateRenderedTemplate Deployment.setting.externals Deployment.rendered
        request.templateId templateVersion request.recipient.locale = .ok () ∧
      (∀ t ∈ s.ledger.templateReleases.rows,
        IsRelease (persistenceOf Deployment.setting.externals request Deployment.rendered) t →
          t.templateDigest = Deployment.rendered.templateDigest) ∧
      Encrypts Deployment.setting.protector
        (persistenceOf Deployment.setting.externals request Deployment.rendered)
        Deployment.nonces ∧
      NoCollision Deployment.setting s.ledger
        (persistenceOf Deployment.setting.externals request Deployment.rendered) request ∧
      ¬∃ L' response, Plugin.create Deployment.setting s.ledger caller raw Deployment.rendered
        Deployment.nonces Deployment.midnight = .ok (L', response) := by
  have hempty : (system Deployment.setting).Reachable System.empty := ⟨[], Lts.History.nil rfl⟩
  have hadmitted : Plugin.intentRequestOf Deployment.setting (some "org")
      (Deployment.requestTo longAddress) Deployment.midnight =
        .ok (Deployment.intentTo longAddress) :=
    Deployment.intentRequestOf_requestTo longAddress requiredBounded_longAddress
      (by rw [toList_longAddress]; exact List.mem_cons_of_mem _ List.mem_cons_self)
  have hnul : (Deployment.intentTo longAddress).NulFree := by
    refine ⟨?_, by decide⟩
    simp only [Storable, List.forall_mem_cons, List.not_mem_nil, false_implies, implies_true,
      and_true]
    exact ⟨by decide, storable_longAddress, by decide, by decide⟩
  have hrendered : validateRenderedTemplate Deployment.setting.externals Deployment.rendered
      (Deployment.intentTo longAddress).templateId templateVersion
        (Deployment.intentTo longAddress).recipient.locale = .ok () := Deployment.rendered_valid
  have hencrypts := Deployment.encrypts_intentTo longAddress
  have hfree : NoCollision Deployment.setting System.empty.ledger
      (persistenceOf Deployment.setting.externals (Deployment.intentTo longAddress)
        Deployment.rendered) (Deployment.intentTo longAddress) := by
    constructor <;> exact fun _ hr ↦ absurd hr List.not_mem_nil
  have hfresh : ∀ i ∈ System.empty.ledger.intents.rows, ¬(i.sourceModule =
      (Deployment.intentTo longAddress).source.moduleId ∧
        i.idempotencyKey = (Deployment.intentTo longAddress).idempotencyKey) :=
    fun _ hi ↦ absurd hi List.not_mem_nil
  have hrelease : ∀ t ∈ System.empty.ledger.templateReleases.rows,
      IsRelease (persistenceOf Deployment.setting.externals (Deployment.intentTo longAddress)
        Deployment.rendered) t → t.templateDigest = Deployment.rendered.templateDigest :=
    fun _ ht ↦ absurd ht List.not_mem_nil
  refine ⟨System.empty, some "org", Deployment.requestTo longAddress,
    Deployment.intentTo longAddress, hempty, hadmitted, hnul, hfresh, hrendered, hrelease,
    hencrypts, hfree, ?_⟩
  have hready : Ready Deployment.setting System.empty.ledger (Deployment.intentTo longAddress)
      Deployment.rendered Deployment.nonces Deployment.midnight :=
    ⟨linked_of_reachable (reachable_ledger hempty), provenance_of_reachable hempty,
      ⟨⟨_, _, hadmitted⟩, hrendered⟩, hnul, hfresh, hrelease, hencrypts, hfree⟩
  rintro ⟨L', response, hcreate⟩
  obtain ⟨receipt, hwrite, -⟩ := (create_eq_ok hready hadmitted).mp hcreate
  have hdomain := length_domainOf_longAddress
  have hfits : (Snapshot.domainOf longAddress).length ≤ 315 := (hready.fits_of_write hwrite).1
  omega

end NotificationLedger

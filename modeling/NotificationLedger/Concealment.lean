import NotificationLedger.Creation
import NotificationLedger.Redaction

/-!
# What a stored preview shows

A preview is redacted by two patterns that know nothing of the request, and the validators admit
addresses and links those patterns do not match. A stored preview shows neither, whatever the
render, exactly when each of the two is covered.
-/

namespace NotificationLedger

open Outcome Public

/-- The texts of a request a preview should not show. -/
def Public.IntentRequest.secrets : IntentRequest → List String
  | .invitation request => [request.recipient.address, request.template.invitationUrl]
  | .accessRequest request => [request.recipient.address]

/-- Whatever an accepted render says, the preview stored with it holds no secret of the request. -/
def Concealed (S : Setting) (request : IntentRequest) (now : DateTime) : Prop :=
  ∀ (rendered : RenderedTemplate) (intent : IntentPersistence) (L : Ledger) (nonces : Nonces)
    (t : DateTime) (L' : Ledger) (receipt : TransactionalIntentReceipt),
    prepareIntent S.externals request rendered now = .ok intent →
    writeIntent S.externals S.protector L intent nonces t = .ok (L', receipt) →
    ∀ snapshot ∈ L'.renderSnapshots.rows,
      snapshot.id = snapshotIdOf S.externals intent.requestDigest →
      ∀ secret ∈ request.secrets, ¬secret.toList <:+: snapshot.redactedPreview.toList

section Concealment

variable {S : Setting} {caller : Option String} {raw : CreateRequest} {request : IntentRequest}
  {now : DateTime}

/-- The secrets of an admitted request are no blanks. -/
theorem isBlank_of_mem_secrets (hvalidate : request.validate now = .ok ()) {secret : String}
    (hsecret : secret ∈ request.secrets) : isBlank secret = false := by
  have hblank : ∀ {value : String} {minimum maximum : ℕ},
      requiredBounded value minimum maximum = true → isBlank value = false := by
    intro value minimum maximum h
    simp only [requiredBounded, Bool.and_eq_true, Bool.not_eq_true'] at h
    exact h.1
  have hvalid := IntentRequest.valid_of_validate hvalidate
  cases request with
  | invitation request =>
    obtain ⟨-, -, -, -, -, -, -, -, -, -, hurl, -⟩ := validateInvitationRequest_eq_ok.mp hvalidate
    simp only [IntentRequest.secrets, List.mem_cons, List.not_mem_nil, or_false] at hsecret
    rcases hsecret with rfl | rfl
    · exact hblank hvalid.address
    · exact hblank hurl
  | accessRequest request =>
    cases List.mem_singleton.mp hsecret
    exact hblank hvalid.address

/-- The snapshot a write stores, and what that says about the request. -/
theorem exists_snapshot_of_write {rendered : RenderedTemplate} {L L' : Ledger} {nonces : Nonces}
    {t : DateTime} {receipt : TransactionalIntentReceipt} (hvalid : request.Valid)
    (hwrite : writeIntent S.externals S.protector L (persistenceOf S.externals request rendered)
      nonces t = .ok (L', receipt)) :
    request.Keepable ∧ storable (Snapshot.redactPreview rendered.text) = true ∧
      ∃ snapshot ∈ L'.renderSnapshots.rows,
        snapshot.id = snapshotIdOf S.externals (request.digest S.externals) ∧
        snapshot.redactedPreview = Snapshot.redactPreview rendered.text := by
  obtain ⟨e, -, hwrote, -⟩ := wrote_of_writeIntent hwrite
  have hmodule : storable request.source.moduleId = true :=
    hwrote.intentConforms.1 _ (by simp [intentRow, persistenceOf])
  have hrecipient : storable e.recipient.ciphertext = true ∧
      storable e.recipient.keyReference = true :=
    ⟨hwrote.intentConforms.1 _ (by simp [intentRow]),
      hwrote.intentConforms.1 _ (by simp [intentRow])⟩
  exact ⟨(conforms_intentRow hvalid hmodule hrecipient).mp hwrote.intentConforms,
    hwrote.snapshotConforms.1 _ (by simp [snapshotRow, persistenceOf]), _,
    (Table.mem_insert? hwrote.snapshots).mpr (Or.inr rfl), rfl, rfl⟩

/-- A render that says a value and little else. -/
def Public.IntentRequest.renderOf (X : Externals) (request : IntentRequest) (value : String) :
    RenderedTemplate where
  templateId := request.templateId
  templateVersion := templateVersion
  requestedLocale := request.recipient.locale
  resolvedLocale := request.recipient.locale
  fallbackUsed := false
  rendererIdentity := "renderer"
  templateDigest := digestText X []
  subject := "Hi"
  text := value
  html := "Hi"
  contentDigest := Snapshot.contentDigest X "Hi" value "Hi"

theorem validateRenderedTemplate_renderOf (hvalid : request.Valid) {value : String}
    (hvalue : requiredBounded value 1 131072 = true) :
    validateRenderedTemplate S.externals (request.renderOf S.externals value) request.templateId
      templateVersion request.recipient.locale = .ok () := by
  have hlocale : requiredBounded request.recipient.locale 2 32 = true := by
    rcases hvalid.locale with h | h <;> rw [h] <;> decide
  have hrenderer : requiredBounded "renderer" 1 160 = true := by decide
  have hsubject : requiredBounded "Hi" 1 998 = true ∧ '\r' ∉ "Hi".toList ∧ '\n' ∉ "Hi".toList := by
    decide
  have hhtml : requiredBounded "Hi" 1 262144 = true := by decide
  have hfallback : false = decide (request.recipient.locale ≠ request.recipient.locale) := by simp
  exact validateRenderedTemplate_eq_ok.mpr ⟨⟨rfl, rfl, rfl, hfallback, hlocale, hrenderer,
    isDigest_digestText _ _, isDigest_digestText _ _⟩, hsubject.1, hsubject.2.1, hsubject.2.2,
    hvalue, hhtml, rfl⟩

/-- A value that is its own preview is stored as one, when the columns take the request. -/
theorem exists_write_renderOf
    (hadmitted : Plugin.intentRequestOf S caller raw now = .ok request)
    (hkeepable : request.Keepable) {value : String} {nonces : Nonces}
    (hvalue : requiredBounded value 1 131072 = true)
    (hpreview : storable (Snapshot.redactPreview value) = true)
    (hencrypts : Encrypts S.protector
      (persistenceOf S.externals request (request.renderOf S.externals value)) nonces) :
    ∃ (L' : Ledger) (receipt : TransactionalIntentReceipt),
      writeIntent S.externals S.protector Ledger.empty
        (persistenceOf S.externals request (request.renderOf S.externals value)) nonces now =
          .ok (L', receipt) := by
  have hvalid := IntentRequest.valid_of_validate (Plugin.validate_of_intentRequestOf hadmitted)
  have hrendered := validateRenderedTemplate_renderOf (S := S) hvalid hvalue
  have hmodule := Plugin.storable_moduleId_of_intentRequestOf hadmitted
  obtain ⟨e, he, hciphertexts, hnonempty⟩ := hencrypts
  have hlocale : storable request.recipient.locale = true := by
    rcases hvalid.locale with h | h <;> rw [h] <;> decide
  have hrenderer : storable "renderer" = true := by decide
  have hrow : (releaseRow S.externals
      (persistenceOf S.externals request (request.renderOf S.externals value)) now).Conforms :=
    (conforms_releaseRow hrendered).mpr ⟨hlocale, hrenderer⟩
  have hnone : ∀ t ∈ Ledger.empty.templateReleases.rows, ¬Keyed.Clash t (releaseRow S.externals
      (persistenceOf S.externals request (request.renderOf S.externals value)) now) :=
    fun _ ht ↦ absurd ht List.not_mem_nil
  obtain ⟨T, hT⟩ := Table.exists_insert? hnone
  have hrelease := ensureTemplateRelease_eq_ok.mpr ⟨hrow,
    Or.inr ⟨fun _ ht ↦ absurd ht List.not_mem_nil,
      Ledger.insertTemplateRelease_eq_some.mpr ⟨hrow, T, hT, rfl⟩⟩⟩
  have hstored := Option.isSome_of_eq_some
    (Table.get?_of_mem ((Table.mem_insert? hT).mpr (Or.inr rfl)))
  exact exists_write_of_free hvalid hmodule hkeepable rfl hrelease hstored he hciphertexts
    hnonempty hpreview (fun _ h ↦ absurd h List.not_mem_nil) (fun _ h ↦ absurd h List.not_mem_nil)
    fun _ h ↦ absurd h List.not_mem_nil

/-- What is not covered is shown by some render. -/
theorem not_concealed_of_not_covered
    (hadmitted : Plugin.intentRequestOf S caller raw now = .ok request)
    (hkeepable : request.Keepable)
    (hencrypts : ∀ rendered, validateRenderedTemplate S.externals rendered request.templateId
      templateVersion request.recipient.locale = .ok () →
      ∃ nonces, Encrypts S.protector (persistenceOf S.externals request rendered) nonces)
    {secret : String} (hsecret : secret ∈ request.secrets) (h : ¬Snapshot.Covered secret) :
    ¬Concealed S request now := by
  have hvalidate := Plugin.validate_of_intentRequestOf hadmitted
  have hvalid := IntentRequest.valid_of_validate hvalidate
  obtain ⟨hpreview, hstorable⟩ := Snapshot.redactPreview_of_not_covered h
  have hvalue : requiredBounded secret 1 131072 = true := by
    have hblank := isBlank_of_mem_secrets hvalidate hsecret
    have hpos : secret.length ≠ 0 := by
      intro hzero
      rw [← String.length_toList, List.length_eq_zero_iff] at hzero
      rw [isBlank, hzero] at hblank
      cases hblank
    rw [Snapshot.Covered, not_or, not_lt] at h
    have hlength := h.1
    simp only [requiredBounded, hblank, Bool.not_false, Bool.true_and, decide_eq_true_eq]
    omega
  have hrendered := validateRenderedTemplate_renderOf (S := S) hvalid hvalue
  -- the render says the secret itself, and redaction hands it back
  obtain ⟨nonces, hnonces⟩ := hencrypts _ hrendered
  obtain ⟨L', receipt, hwrite⟩ := exists_write_renderOf hadmitted hkeepable hvalue
    (by rwa [hpreview]) hnonces
  obtain ⟨-, -, snapshot, hsnapshot, hid, htext⟩ := exists_snapshot_of_write hvalid hwrite
  intro hconcealed
  refine hconcealed _ _ _ _ _ _ _ (prepareIntent_eq_ok.mpr ⟨hvalidate, hrendered, rfl⟩) hwrite
    snapshot hsnapshot hid secret hsecret ?_
  have hshown : snapshot.redactedPreview = secret := htext.trans hpreview
  rw [hshown]

/-- **Which requests a preview conceals.** -/
theorem concealed_iff (hadmitted : Plugin.intentRequestOf S caller raw now = .ok request)
    (hencrypts : ∀ rendered, validateRenderedTemplate S.externals rendered request.templateId
      templateVersion request.recipient.locale = .ok () →
      ∃ nonces, Encrypts S.protector (persistenceOf S.externals request rendered) nonces) :
    Concealed S request now ↔
      (request.Keepable → ∀ secret ∈ request.secrets, Snapshot.Covered secret) := by
  have hvalidate := Plugin.validate_of_intentRequestOf hadmitted
  constructor
  · intro hconcealed hkeepable secret hsecret
    by_contra h
    exact not_concealed_of_not_covered hadmitted hkeepable hencrypts hsecret h hconcealed
  · intro hcovered rendered intent L nonces t L' receipt hprepare hwrite snapshot hsnapshot hid
      secret hsecret
    obtain ⟨-, -, rfl⟩ := prepareIntent_eq_ok.mp hprepare
    obtain ⟨hkeepable, hstorable, row, hrow, hrowId, hpreview⟩ :=
      exists_snapshot_of_write (IntentRequest.valid_of_validate hvalidate) hwrite
    have hsame : snapshot = row := Table.eq_of_clash hsnapshot hrow (hid.trans hrowId.symm)
    rw [hsame, hpreview]
    exact Snapshot.not_infix_of_covered (hcovered hkeepable secret hsecret) hstorable

end Concealment

/-! ## Covered and uncovered -/

namespace Deployment

theorem length_base64Encode_pos {bytes : List UInt8} (h : bytes ≠ []) :
    0 < (base64Encode bytes).length := by
  fun_cases base64Encode bytes <;> simp_all

theorem length_ciphertext_pos {text : String} {minimum maximum : ℕ}
    (h : requiredBounded text minimum maximum = true) :
    0 < (String.ofList (base64Encode (utf8 text))).length := by
  rw [← String.length_toList, String.toList_ofList]
  refine length_base64Encode_pos fun hnil ↦ ?_
  have hlist : text.toList = [] := by
    rw [utf8, List.flatMap_eq_nil_iff] at hnil
    refine List.eq_nil_iff_forall_not_mem.mpr fun c hc ↦ ?_
    have hsize := congrArg List.length (hnil c hc)
    rw [String.length_utf8EncodeChar, List.length_nil] at hsize
    exact absurd hsize (Char.utf8Size_pos c).ne'
  simp only [requiredBounded, isBlank, hlist, List.all_nil, Bool.not_true, Bool.false_and] at h
  cases h

/-- The test protector encrypts every accepted render. -/
theorem encrypts_accepted {request : IntentRequest} {rendered : RenderedTemplate}
    (h : validateRenderedTemplate setting.externals rendered request.templateId templateVersion
      request.recipient.locale = .ok ()) :
    ∃ nonces, Encrypts setting.protector (persistenceOf setting.externals request rendered)
      nonces := by
  obtain ⟨-, hsubject, -, -, htext, hhtml, -⟩ := validateRenderedTemplate_eq_ok.mp h
  have hkey : storable "test-only:base64" = true := by decide
  refine ⟨nonces, ⟨_, _, _, _⟩, ⟨rfl, rfl, rfl, rfl, rfl, rfl⟩, ?_, length_ciphertext_pos hsubject,
    length_ciphertext_pos htext, length_ciphertext_pos hhtml⟩
  simp only [Storable, List.forall_mem_cons, List.not_mem_nil, false_implies, implies_true,
    and_true]
  exact ⟨storable_base64Encode _, storable_base64Encode _, storable_base64Encode _, hkey,
    storable_base64Encode _, hkey⟩

end Deployment

/-- An address with a top-level domain and a link are concealed. -/
theorem concealed_iff_dotted :
    Concealed Deployment.setting (Deployment.intentTo "bo@c.de") Deployment.midnight :=
  (concealed_iff (Deployment.intentRequestOf_requestTo "bo@c.de" (by decide) (by decide))
    fun _ h ↦ Deployment.encrypts_accepted h).mpr fun _ ↦ by decide

/-- The validators admit an address without a top-level domain, and a preview shows it. -/
theorem not_concealed_localhost :
    Plugin.intentRequestOf Deployment.setting (some "org") (Deployment.requestTo "ada@localhost")
        Deployment.midnight = .ok (Deployment.intentTo "ada@localhost") ∧
      ¬Concealed Deployment.setting (Deployment.intentTo "ada@localhost")
        Deployment.midnight := by
  have hadmitted := Deployment.intentRequestOf_requestTo "ada@localhost" (by decide) (by decide)
  have hkeepable : (Deployment.intentTo "ada@localhost").Keepable :=
    ⟨by decide, by decide, by decide⟩
  exact ⟨hadmitted, not_concealed_of_not_covered hadmitted hkeepable
    (fun _ h ↦ Deployment.encrypts_accepted h) List.mem_cons_self (by decide)⟩

end NotificationLedger

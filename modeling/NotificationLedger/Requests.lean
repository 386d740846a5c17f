import NotificationLedger.Receipts
import Mathlib.Data.List.TakeWhile

/-!
# Requests the plugin admits

The plugin and the storage functions check a create request with separate validators. What the
first admits the second accepts at the same time, so a request is only ever refused for its shape
before anything is read. The section before that bounds the two texts which are computed from a
request and a render: the recipient mask and the preview.
-/

namespace NotificationLedger

open Outcome Public

/-! ## The recipient mask -/

namespace Snapshot

/-- The part of an address behind its last `@`. -/
def domainOf (address : String) : List Char :=
  (address.toList.reverse.takeWhile fun c ↦ c != '@').reverse

/-- The mask of an address keeps one character and the domain. -/
theorem exists_maskEmail {address : String} (h : '@' ∈ address.toList) :
    ∃ c, (c = '*' ∨ c ∈ address.toList) ∧
      (maskEmail address).toList = c :: "***@".toList ++ domainOf address := by
  have hmem : '@' ∈ address.toList.reverse := List.mem_reverse.mpr h
  unfold maskEmail
  simp only
  cases hdrop : address.toList.reverse.dropWhile fun c ↦ c != '@' with
  | nil =>
    have hall := List.dropWhile_eq_nil_iff.mp hdrop '@' hmem
    simp at hall
  | cons separator localReversed =>
    refine ⟨localReversed.getLast?.getD '*', ?_, by rw [String.toList_ofList]; rfl⟩
    cases hlast : localReversed.getLast? with
    | none => exact Or.inl rfl
    | some c =>
      refine Or.inr ?_
      have hin : c ∈ localReversed := List.mem_of_getLast? hlast
      have hsuffix : separator :: localReversed <:+ address.toList.reverse :=
        hdrop ▸ List.dropWhile_suffix _
      exact List.mem_reverse.mp (hsuffix.subset (List.mem_cons_of_mem _ hin))

/-- The mask is five characters longer than the domain. -/
theorem length_maskEmail {address : String} (h : '@' ∈ address.toList) :
    (maskEmail address).length = (domainOf address).length + 5 := by
  obtain ⟨c, -, hmask⟩ := exists_maskEmail h
  have hfixed : "***@".toList.length = 4 := by decide
  rw [← String.length_toList, hmask, List.cons_append, List.length_cons, List.length_append,
    hfixed]
  omega

theorem domainOf_subset {address : String} {c : Char} (h : c ∈ domainOf address) :
    c ∈ address.toList :=
  List.mem_reverse.mp ((List.takeWhile_prefix _).subset (List.mem_reverse.mp h))

theorem storable_maskEmail {address : String} (h : '@' ∈ address.toList)
    (hstorable : storable address = true) : storable (maskEmail address) = true := by
  obtain ⟨c, hc, hmask⟩ := exists_maskEmail h
  rw [storable, List.all_eq_true] at hstorable ⊢
  rw [hmask]
  intro x hx
  rcases List.mem_append.mp hx with hx | hx
  · rcases List.mem_cons.mp hx with rfl | hx
    · rcases hc with rfl | hc
      · decide
      · exact hstorable x hc
    · have hfixed : storable "***@" = true := by decide
      rw [storable, List.all_eq_true] at hfixed
      exact hfixed x hx
  · exact hstorable x (domainOf_subset hx)

/-- A mask is never blank. -/
theorem isBlank_maskEmail {address : String} (h : '@' ∈ address.toList) :
    isBlank (maskEmail address) = false := by
  obtain ⟨c, -, hmask⟩ := exists_maskEmail h
  rw [isBlank, hmask, List.all_eq_false]
  exact ⟨'@', by simp, by decide⟩

theorem length_redactPreview (text : String) : (redactPreview text).length ≤ 160 := by
  rw [redactPreview, ← String.length_toList, String.toList_ofList, List.length_take]
  exact Nat.min_le_left _ _

end Snapshot

/-! ## Storage accepts what the plugin admits -/

namespace Public

theorem validateBounded_eq_ok {field value : String} {minimum maximum : ℕ} {u : Unit} :
    validateBounded field value minimum maximum = .ok u ↔
      requiredBounded value minimum maximum = true := by
  rw [validateBounded, ensure_eq_ok, requiredBounded]
  simp

theorem validateAtMost_eq_ok {field : String} {value : Option String} {maximum : ℕ} {u : Unit} :
    validateAtMost field value maximum = .ok u ↔ optionalBounded value maximum = true := by
  rw [validateAtMost, ensure_eq_ok]

theorem validateExpiry_eq_ok {event : AccessRequestNotificationEvent}
    {expiresAt : Option DateTime} {now : DateTime} {u : Unit} :
    validateExpiry event expiresAt now = .ok u ↔
      (event = .expiring → expiresAt.isSome = true) ∧ (event = .denied → expiresAt = none) ∧
        ∀ t ∈ expiresAt, now < t := by
  cases event <;> cases expiresAt <;> simp [validateExpiry, ensure_eq_ok, pure_eq_ok]

theorem validateInvitationRequest_eq_ok {request : CreateTransactionalEmailIntent}
    {now : DateTime} {u : Unit} :
    validateInvitationRequest request now = .ok u ↔
      requiredBounded request.source.moduleId 1 160 = true ∧
      requiredBounded request.source.entityType 1 160 = true ∧
      requiredBounded request.source.entityId 1 240 = true ∧
      requiredBounded request.recipient.address 3 320 = true ∧
      requiredBounded request.recipient.locale 2 32 = true ∧
      requiredBounded request.idempotencyKey 1 240 = true ∧
      requiredBounded request.correlationId 1 240 = true ∧
      requiredBounded request.template.organizationId 1 240 = true ∧
      requiredBounded request.template.organizationName 1 240 = true ∧
      requiredBounded request.template.invitationId 1 240 = true ∧
      requiredBounded request.template.invitationUrl 1 4096 = true ∧
      optionalBounded request.recipient.displayName 240 = true ∧
      optionalBounded request.template.inviterDisplayName 240 = true ∧
      optionalBounded request.template.roleName 160 = true ∧
      optionalBounded request.causationId 240 = true ∧
      optionalBounded request.requestedBy 240 = true ∧
      '@' ∈ request.recipient.address.toList ∧
      (request.recipient.locale = "en" ∨ request.recipient.locale = "en-US") ∧
      ("https://".toList.isPrefixOf request.template.invitationUrl.toList = true ∨
        "http://localhost".toList.isPrefixOf request.template.invitationUrl.toList = true) ∧
      now < request.template.expiresAt ∧
      request.source.entityType = "organization_invitation" ∧
        request.source.entityId = request.template.invitationId := by
  simp only [validateInvitationRequest, bind_eq_ok, validateBounded_eq_ok, validateAtMost_eq_ok,
    ensure_eq_ok, exists_const]

theorem validateAccessRequest_eq_ok {request : CreateAccessRequestNotificationIntent}
    {now : DateTime} {u : Unit} :
    validateAccessRequest request now = .ok u ↔
      requiredBounded request.source.moduleId 1 160 = true ∧
      requiredBounded request.source.entityType 1 160 = true ∧
      requiredBounded request.source.entityId 1 240 = true ∧
      requiredBounded request.recipient.address 3 320 = true ∧
      requiredBounded request.recipient.locale 2 32 = true ∧
      requiredBounded request.template.requestId 1 160 = true ∧
      requiredBounded request.template.organizationId 1 240 = true ∧
      requiredBounded request.template.role.roleId 1 160 = true ∧
      requiredBounded request.template.scope.kind 1 160 = true ∧
      requiredBounded request.template.scope.id 1 240 = true ∧
      requiredBounded request.idempotencyKey 1 240 = true ∧
      requiredBounded request.correlationId 1 240 = true ∧
      optionalBounded request.recipient.displayName 240 = true ∧
      optionalBounded request.template.role.displayName 160 = true ∧
      optionalBounded request.template.scope.displayName 240 = true ∧
      optionalBounded request.causationId 240 = true ∧
      optionalBounded request.requestedBy 240 = true ∧
      '@' ∈ request.recipient.address.toList ∧
      (request.recipient.locale = "en" ∨ request.recipient.locale = "en-US") ∧
      (request.source.entityType = "access_request" ∧
        request.source.entityId = request.template.requestId) ∧
      request.idempotencyKey =
        "access-request:" ++ request.template.requestId ++ ":" ++ request.template.event.asStr ∧
      (request.template.event = .expiring → request.template.expiresAt.isSome = true) ∧
      (request.template.event = .denied → request.template.expiresAt = none) ∧
        ∀ t ∈ request.template.expiresAt, now < t := by
  simp only [validateAccessRequest, bind_eq_ok, validateBounded_eq_ok, validateAtMost_eq_ok,
    ensure_eq_ok, exists_const, validateExpiry_eq_ok]

/-- What both validators ask of the parts that storage keeps. -/
structure IntentRequest.Valid (request : IntentRequest) : Prop where
  moduleId : requiredBounded request.source.moduleId 1 160 = true
  entityType : request.source.entityType = "organization_invitation" ∨
    request.source.entityType = "access_request"
  entityId : requiredBounded request.source.entityId 1 240 = true
  address : requiredBounded request.recipient.address 3 320 = true
  mailbox : '@' ∈ request.recipient.address.toList
  locale : request.recipient.locale = "en" ∨ request.recipient.locale = "en-US"
  idempotencyKey : requiredBounded request.idempotencyKey 1 240 = true
  correlationId : requiredBounded request.correlationId 1 240 = true
  causationId : optionalBounded request.causationId 240 = true
  requestedBy : optionalBounded request.requestedBy 240 = true

theorem IntentRequest.valid_of_validate {request : IntentRequest} {now : DateTime} {u : Unit}
    (h : request.validate now = .ok u) : request.Valid := by
  cases request with
  | invitation request =>
    obtain ⟨hmodule, -, hentity, haddress, -, hkey, hcorrelation, -, -, -, -, -, -, -, hcausation,
      hrequestedBy, hat, hlocale, -, -, htype, -⟩ := validateInvitationRequest_eq_ok.mp h
    exact ⟨hmodule, Or.inl htype, hentity, haddress, hat, hlocale, hkey, hcorrelation, hcausation,
      hrequestedBy⟩
  | accessRequest request =>
    obtain ⟨hmodule, -, hentity, haddress, -, -, -, -, -, -, hkey, hcorrelation, -, -, -,
      hcausation, hrequestedBy, hat, hlocale, ⟨htype, -⟩, -⟩ := validateAccessRequest_eq_ok.mp h
    exact ⟨hmodule, Or.inr htype, hentity, haddress, hat, hlocale, hkey, hcorrelation, hcausation,
      hrequestedBy⟩

theorem validateRenderedTemplate_eq_ok {X : Externals} {rendered : RenderedTemplate}
    {templateId version locale : String} {u : Unit} :
    validateRenderedTemplate X rendered templateId version locale = .ok u ↔
      (rendered.templateId = templateId ∧ rendered.templateVersion = version ∧
        rendered.requestedLocale = locale ∧
        rendered.fallbackUsed = decide (rendered.requestedLocale ≠ rendered.resolvedLocale) ∧
        requiredBounded rendered.resolvedLocale 2 32 = true ∧
        requiredBounded rendered.rendererIdentity 1 160 = true ∧
        isDigest rendered.templateDigest = true ∧ isDigest rendered.contentDigest = true) ∧
      (requiredBounded rendered.subject 1 998 = true ∧ '\r' ∉ rendered.subject.toList ∧
        '\n' ∉ rendered.subject.toList ∧ requiredBounded rendered.text 1 131072 = true ∧
        requiredBounded rendered.html 1 262144 = true ∧
        Snapshot.contentDigest X rendered.subject rendered.text rendered.html =
          rendered.contentDigest) :=
  ensure_eq_ok

/-- What a request and its render become. -/
def persistenceOf (X : Externals) (request : IntentRequest) (rendered : RenderedTemplate) :
    IntentPersistence where
  source := request.source
  recipient := request.recipient
  idempotencyKey := request.idempotencyKey
  correlationId := request.correlationId
  causationId := request.causationId
  requestedBy := request.requestedBy
  purpose := request.purpose
  templateId := rendered.templateId
  templateVersion := rendered.templateVersion
  templateLocale := rendered.resolvedLocale
  rendererIdentity := rendered.rendererIdentity
  templateDigest := rendered.templateDigest
  contentDigest := rendered.contentDigest
  requestDigest := request.digest X
  rendered := rendered

theorem prepareIntent_eq_ok {X : Externals} {request : IntentRequest}
    {rendered : RenderedTemplate} {now : DateTime} {intent : IntentPersistence} :
    prepareIntent X request rendered now = .ok intent ↔
      request.validate now = .ok () ∧
        validateRenderedTemplate X rendered request.templateId templateVersion
          request.recipient.locale = .ok () ∧ intent = persistenceOf X request rendered := by
  simp only [prepareIntent, bind_eq_ok, pure_eq_ok]
  constructor
  · rintro ⟨⟨⟩, hvalidate, ⟨⟩, hrendered, rfl⟩
    exact ⟨hvalidate, hrendered, rfl⟩
  · rintro ⟨hvalidate, hrendered, rfl⟩
    exact ⟨(), hvalidate, (), hrendered, rfl⟩

/-- The five template ids. -/
theorem templateId_cases (request : IntentRequest) :
    request.templateId ∈ ["organization-invitation", "access-request-submitted",
      "access-request-approved", "access-request-denied", "access-request-expiring"] := by
  cases request with
  | invitation request => simp [IntentRequest.templateId]
  | accessRequest request =>
    cases hevent : request.template.event <;>
      simp [IntentRequest.templateId, accessRequestTemplateId, hevent]

end Public

namespace Plugin

variable {S : Setting} {caller : Option String} {now : DateTime}

/-- A caller that may create intents has a name that every column accepts. -/
theorem of_transactionalCaller {source : String}
    (h : authorizedCaller caller S.config.transactionalCallers = some source) :
    requiredBounded source 1 160 = true ∧ storable source = true := by
  obtain ⟨hne, hblank, hlength, hstorable⟩ :=
    of_validInstance (of_authorizedCaller S.config.valid.1 h)
  have hpos : 1 ≤ source.length := by
    rw [Nat.one_le_iff_ne_zero, Ne, String.length_eq_zero_iff]
    exact hne
  refine ⟨?_, hstorable⟩
  rw [requiredBounded, hblank, decide_eq_true ⟨hpos, hlength⟩]
  rfl

theorem requiredBounded_asStr (locale : RecipientLocale) :
    requiredBounded locale.asStr 2 32 = true := by
  cases locale <;> decide

theorem asStr_supported (locale : RecipientLocale) :
    locale.asStr = "en" ∨ locale.asStr = "en-US" := by
  cases locale
  · exact Or.inl rfl
  · exact Or.inr rfl

theorem validate_of_invitationIntent {request : CreateOrganizationInvitationRequest}
    {intent : CreateTransactionalEmailIntent}
    (h : invitationIntent S caller request now = .ok intent) :
    validateInvitationRequest intent now = .ok () := by
  obtain ⟨source, hcaller, h⟩ := bind_eq_ok.mp h
  obtain ⟨hvalid, h⟩ := ensure_bind_eq_ok.mp h
  obtain ⟨expiresAt, hexpires, h⟩ := bind_eq_ok.mp h
  rw [require_eq_ok] at hcaller hexpires
  obtain ⟨hsource, -⟩ := of_transactionalCaller hcaller
  rw [← pure_eq_ok.mp h, validateInvitationRequest_eq_ok]
  simp only [validCreateRequest, hexpires, Option.any_some, Bool.and_eq_true, decide_eq_true_eq,
    Bool.or_eq_true] at hvalid
  obtain ⟨⟨⟨⟨⟨⟨⟨⟨⟨⟨⟨⟨⟨⟨⟨⟨⟨⟨⟨htype, hentity⟩, hid⟩, haddress⟩, hat⟩, hname⟩, horganization⟩,
    horganizationName⟩, hinvitation⟩, hsame⟩, hurl⟩, hscheme⟩, hinviter⟩, hrole⟩, -⟩, hfuture⟩,
    hkey⟩, hcorrelation⟩, hcausation⟩, hrequestedBy⟩ := hvalid
  exact ⟨hsource, htype, hid, haddress, requiredBounded_asStr _, hkey, hcorrelation,
    horganization, horganizationName, hinvitation, hurl, hname, hinviter, hrole, hcausation,
    hrequestedBy, hat, asStr_supported _, hscheme, hfuture, hentity, hsame⟩

theorem event_length (event : AccessRequestNotificationEvent) : event.asStr.length ≤ 9 := by
  cases event <;> decide

/-- The key an access request must carry is within bounds. -/
theorem requiredBounded_accessKey {requestId : String} (h : requiredBounded requestId 1 160 = true)
    (event : AccessRequestNotificationEvent) :
    requiredBounded ("access-request:" ++ requestId ++ ":" ++ event.asStr) 1 240 = true := by
  have hlength := length_le_of_requiredBounded h
  have hevent := event_length event
  have hprefix : "access-request:".length = 15 := by decide
  have hcolon : ":".length = 1 := by decide
  have hblank : isBlank ("access-request:" ++ requestId ++ ":" ++ event.asStr) = false := by
    rw [isBlank, List.all_eq_false]
    exact ⟨':', by simp [String.toList_append], by decide⟩
  rw [requiredBounded, hblank]
  simp only [String.length_append, hprefix, hcolon, Bool.not_false, Bool.true_and,
    decide_eq_true_eq]
  omega

theorem parseExpiry_eq_ok {text : Option String} {expiresAt : Option DateTime} :
    parseExpiry S text = .ok expiresAt ↔
      (text = none ∧ expiresAt = none) ∨
        ∃ value t, text = some value ∧ parseTime S value = some t ∧ expiresAt = some t := by
  cases text with
  | none =>
    rw [parseExpiry, pure_eq_ok]
    simp [eq_comm]
  | some value =>
    cases hparse : parseTime S value with
    | none => simp [parseExpiry, hparse, require]
    | some t => simp [parseExpiry, hparse, require, eq_comm]

theorem validate_of_accessRequestIntent {request : CreateAccessRequestNotificationRequest}
    {intent : CreateAccessRequestNotificationIntent}
    (h : accessRequestIntent S caller request now = .ok intent) :
    validateAccessRequest intent now = .ok () := by
  obtain ⟨source, hcaller, h⟩ := bind_eq_ok.mp h
  obtain ⟨hvalid, h⟩ := ensure_bind_eq_ok.mp h
  obtain ⟨expiresAt, hexpires, h⟩ := bind_eq_ok.mp h
  rw [require_eq_ok] at hcaller
  obtain ⟨hsource, -⟩ := of_transactionalCaller hcaller
  rw [← pure_eq_ok.mp h, validateAccessRequest_eq_ok]
  simp only [validAccessRequestNotificationRequest, Bool.and_eq_true, decide_eq_true_eq] at hvalid
  obtain ⟨⟨⟨⟨⟨⟨⟨⟨⟨⟨⟨⟨⟨⟨⟨hid, horganization⟩, haddress⟩, hat⟩, hname⟩, hrole⟩, hroleName⟩,
    hscope⟩, hscopeId⟩, hscopeName⟩, -⟩, hexpiry⟩, hkey⟩, hcorrelation⟩, hcausation⟩,
    hrequestedBy⟩ := hvalid
  have htype : requiredBounded "access_request" 1 160 = true := by decide
  have hidEntity : requiredBounded request.requestId 1 240 = true := by
    have hlength := length_le_of_requiredBounded hid
    have hblank := not_isBlank_of_requiredBounded hid
    simp only [requiredBounded, Bool.and_eq_true, decide_eq_true_eq, hblank] at hid ⊢
    exact ⟨rfl, hid.2.1, by omega⟩
  have hkeyBounds := hkey ▸ requiredBounded_accessKey hid request.event
  refine ⟨hsource, htype, hidEntity, haddress, requiredBounded_asStr _, hid, horganization, hrole,
    hscope, hscopeId, hkeyBounds, hcorrelation, hname, hroleName, hscopeName, hcausation,
    hrequestedBy, hat, asStr_supported _, ⟨rfl, rfl⟩, hkey, ?_⟩
  rcases parseExpiry_eq_ok.mp hexpires with ⟨htext, rfl⟩ | ⟨value, t, htext, hparse, rfl⟩
  · rw [htext] at hexpiry
    cases hevent : request.event <;> simp_all
  · rw [htext] at hexpiry
    cases hevent : request.event <;> simp_all

/-- **Storage accepts what the plugin admits**, at the same time. -/
theorem validate_of_intentRequestOf {raw : CreateRequest} {request : IntentRequest}
    (h : intentRequestOf S caller raw now = .ok request) : request.validate now = .ok () := by
  cases raw with
  | organizationInvitation raw =>
    rw [intentRequestOf, map_eq_pure_bind] at h
    obtain ⟨intent, hintent, h⟩ := bind_eq_ok.mp h
    rw [← pure_eq_ok.mp h]
    exact validate_of_invitationIntent hintent
  | accessRequestNotification raw =>
    rw [intentRequestOf, map_eq_pure_bind] at h
    obtain ⟨intent, hintent, h⟩ := bind_eq_ok.mp h
    rw [← pure_eq_ok.mp h]
    exact validate_of_accessRequestIntent hintent

/-- The caller of an admitted request is stored without trouble. -/
theorem storable_moduleId_of_intentRequestOf {raw : CreateRequest} {request : IntentRequest}
    (h : intentRequestOf S caller raw now = .ok request) :
    storable request.source.moduleId = true := by
  cases raw with
  | organizationInvitation raw =>
    rw [intentRequestOf, map_eq_pure_bind] at h
    obtain ⟨intent, hintent, h⟩ := bind_eq_ok.mp h
    obtain ⟨source, hcaller, hintent⟩ := bind_eq_ok.mp hintent
    obtain ⟨-, hintent⟩ := ensure_bind_eq_ok.mp hintent
    obtain ⟨expiresAt, -, hintent⟩ := bind_eq_ok.mp hintent
    rw [← pure_eq_ok.mp h, ← pure_eq_ok.mp hintent]
    exact (of_transactionalCaller (require_eq_ok.mp hcaller)).2
  | accessRequestNotification raw =>
    rw [intentRequestOf, map_eq_pure_bind] at h
    obtain ⟨intent, hintent, h⟩ := bind_eq_ok.mp h
    obtain ⟨source, hcaller, hintent⟩ := bind_eq_ok.mp hintent
    obtain ⟨-, hintent⟩ := ensure_bind_eq_ok.mp hintent
    obtain ⟨expiresAt, -, hintent⟩ := bind_eq_ok.mp hintent
    rw [← pure_eq_ok.mp h, ← pure_eq_ok.mp hintent]
    exact (of_transactionalCaller (require_eq_ok.mp hcaller)).2

end Plugin

end NotificationLedger

import NotificationLedger.Persistence
import NotificationLedger.Linearization

/-!
# What is asked of the template provider

Between its two idempotency checks a creation has its message rendered elsewhere. It asks for a
fixed template at a fixed version and sends the variables of its purpose, each once; which of them
a template declares is known to the provider only. It takes nothing but an answer to what it has
asked. A successful answer to the caller then names an intent whose message was rendered for just
the request of that call, also where it is a replay.

One of the two builders writes the names in their order and the other one sorts them, so which
names are sent depends on the purpose and the event alone. The values are those the validators let
through: `RenderRequest.WellFormed` follows from them in every reachable state, as they rule out a
blank value of each variable outside `optionalNames` and an expiry that has passed.
-/

namespace NotificationLedger

open Outcome Public

/-! ## Requests -/

structure RenderVariable where
  name : String
  value : String
  deriving DecidableEq

structure RenderRequest where
  templateId : String
  version : Option String
  locale : String
  /-- The `variables`. -/
  items : List RenderVariable
  deriving DecidableEq

/-- `str::trim`. -/
def trim (value : String) : String :=
  String.ofList ((value.toList.dropWhile isWhitespace).reverse.dropWhile isWhitespace).reverse

def trimmedOptional (value : Option String) : String := (value.map trim).getD ""

/-- The display name of a role or a scope, or its id where there is none. -/
def displayedName (displayName : Option String) (id : String) : String :=
  ((displayName.map trim).filter fun value ↦ decide (value ≠ "")).getD id

namespace Plugin

/-- `formatTime` is `to_rfc3339_opts` to the second with the `Z` suffix. -/
def organizationInvitationRenderRequest (formatTime : DateTime → String)
    (intent : CreateTransactionalEmailIntent) : RenderRequest where
  templateId := "organization-invitation"
  version := some "v1"
  locale := intent.recipient.locale
  items := [
    ⟨"expires_at", formatTime intent.template.expiresAt⟩,
    ⟨"invitation_url", intent.template.invitationUrl⟩,
    ⟨"inviter_display_name", trimmedOptional intent.template.inviterDisplayName⟩,
    ⟨"locale", intent.recipient.locale⟩,
    ⟨"organization_name", trim intent.template.organizationName⟩,
    ⟨"recipient_display_name", trimmedOptional intent.recipient.displayName⟩,
    ⟨"role_name", trimmedOptional intent.template.roleName⟩]

/-- The variables of an access request before they are sorted. -/
def accessRequestVariables (formatTime : DateTime → String)
    (intent : CreateAccessRequestNotificationIntent) : List RenderVariable :=
  [⟨"locale", intent.recipient.locale⟩,
    ⟨"organization_id", intent.template.organizationId⟩,
    ⟨"recipient_display_name", trimmedOptional intent.recipient.displayName⟩,
    ⟨"request_id", intent.template.requestId⟩,
    ⟨"role", displayedName intent.template.role.displayName intent.template.role.roleId⟩,
    ⟨"scope", displayedName intent.template.scope.displayName intent.template.scope.id⟩,
    ⟨"scope_kind", intent.template.scope.kind⟩] ++
  if intent.template.event = .denied then []
  else [⟨"expires_at", (intent.template.expiresAt.map formatTime).getD ""⟩]

def accessRequestRenderRequest (formatTime : DateTime → String)
    (intent : CreateAccessRequestNotificationIntent) : RenderRequest where
  templateId := accessRequestTemplateId intent.template.event
  version := some "v1"
  locale := intent.recipient.locale
  items := (accessRequestVariables formatTime intent).mergeSort fun left right ↦
    decide (¬right.name.toList < left.name.toList)

def renderRequest (formatTime : DateTime → String) : IntentRequest → RenderRequest
  | .invitation intent => organizationInvitationRenderRequest formatTime intent
  | .accessRequest intent => accessRequestRenderRequest formatTime intent

end Plugin

/-! ## Answers -/

structure RenderResponse where
  templateId : String
  version : String
  requestedLocale : String
  resolvedLocale : String
  fallbackUsed : Bool
  rendererIdentity : String
  templateDigest : String
  contentDigest : String
  subject : String
  text : String
  html : String

inductive RenderError
  | notFound
  | unauthorized
  | other (code : String)

inductive RenderInvocationError
  | domain (error : RenderError)
  | runtime (failure : RuntimeFailure)

namespace Plugin

def renderedTemplate (response : RenderResponse) : RenderedTemplate where
  templateId := response.templateId
  templateVersion := response.version
  requestedLocale := response.requestedLocale
  resolvedLocale := response.resolvedLocale
  fallbackUsed := response.fallbackUsed
  rendererIdentity := response.rendererIdentity
  templateDigest := response.templateDigest
  contentDigest := response.contentDigest
  subject := response.subject
  text := response.text
  html := response.html

def mapTemplateRenderError : RenderInvocationError → RuntimeFailure
  | .runtime failure => failure
  | .domain .notFound => .pluginFailure "required Notification Template version is unavailable"
  | .domain .unauthorized =>
    .pluginFailure
      "Notification is not authorized to render through its configured Template Provider"
  | .domain (.other _) => .protocolViolation "lenso.notification-template@1"

/-- What a creation goes on with, given the result of the invocation. -/
def rendersAs (result : Except RenderInvocationError RenderResponse) :
    Except RuntimeFailure RenderedTemplate :=
  (result.map renderedTemplate).mapError mapTemplateRenderError

end Plugin

open Plugin

/-! ## Well-formed requests -/

theorem isBlank_trim (value : String) : isBlank (trim value) = isBlank value := by
  have hdrop : ∀ l : List Char, (l.dropWhile isWhitespace).all isWhitespace =
      l.all isWhitespace := by
    intro l
    induction l with
    | nil => rfl
    | cons c l ih =>
      by_cases hc : isWhitespace c = true
      · rw [List.dropWhile_cons_of_pos hc, ih, List.all_cons, hc, Bool.true_and]
      · rw [List.dropWhile_cons_of_neg hc]
  rw [isBlank, trim, String.toList_ofList, List.all_reverse, hdrop, List.all_reverse, hdrop,
    isBlank]

/-- A display name that is shown is not blank, and neither is an id. -/
theorem isBlank_displayedName {displayName : Option String} {id : String}
    (h : isBlank id = false) : isBlank (displayedName displayName id) = false := by
  rw [displayedName]
  cases displayName with
  | none => exact h
  | some value =>
    by_cases hempty : trim value = ""
    · have hnone : (some (trim value)).filter (fun value ↦ decide (value ≠ "")) = none := by
        rw [Option.filter_some, if_neg (by simp [hempty])]
      rw [Option.map_some, hnone, Option.getD_none, h]
    · have hsome : (some (trim value)).filter (fun value ↦ decide (value ≠ "")) =
          some (trim value) := by
        rw [Option.filter_some, if_pos (by simp [hempty])]
      rw [Option.map_some, hsome, Option.getD_some, isBlank_trim, Bool.eq_false_iff]
      -- what is left of a blank text is empty
      intro hblank
      rw [isBlank, List.all_eq_true] at hblank
      refine hempty ?_
      rw [trim, List.dropWhile_eq_nil_iff.mpr hblank]
      rfl

theorem isBlank_locale {locale : String} (h : locale = "en" ∨ locale = "en-US") :
    isBlank locale = false := by
  rcases h with rfl | rfl <;> decide

/-- The names of the variables that are sent for a request. -/
def Public.IntentRequest.variableNames : IntentRequest → List String
  | .invitation _ =>
    ["expires_at", "invitation_url", "inviter_display_name", "locale", "organization_name",
      "recipient_display_name", "role_name"]
  | .accessRequest intent =>
    (if intent.template.event = .denied then [] else ["expires_at"]) ++
      ["locale", "organization_id", "recipient_display_name", "request_id", "role", "scope",
        "scope_kind"]

/-- The variables that may be sent empty, as a request need not have a value for them. -/
def optionalNames : List String :=
  ["expires_at", "inviter_display_name", "recipient_display_name", "role_name"]

/-- What the provider can rely on. -/
structure RenderRequest.WellFormed (formatTime : DateTime → String) (request : IntentRequest)
    (now : DateTime) (r : RenderRequest) : Prop where
  template : r.templateId = request.templateId ∧ r.version = some templateVersion ∧
    (r.locale = "en" ∨ r.locale = "en-US") ∧ r.locale = request.recipient.locale
  names : r.items.map RenderVariable.name = request.variableNames
  sorted : r.items.Pairwise fun v w ↦ v.name.toList < w.name.toList
  required : ∀ v ∈ r.items, v.name ∉ optionalNames → isBlank v.value = false
  /-- A template that speaks of an expiry is given one that lies ahead. -/
  expiry : request.templateId ∈ ["organization-invitation", "access-request-expiring"] →
    ∃ t, now < t ∧ ⟨"expires_at", formatTime t⟩ ∈ r.items

section Requests

variable {formatTime : DateTime → String}

/-- The names that are sent are in their order, each once. -/
theorem pairwise_variableNames (request : IntentRequest) :
    request.variableNames.Pairwise fun v w ↦ v.toList < w.toList := by
  cases request with
  | invitation request =>
    rw [IntentRequest.variableNames]
    decide
  | accessRequest request =>
    rw [IntentRequest.variableNames]
    by_cases hdenied : request.template.event = .denied
    · rw [if_pos hdenied]
      decide
    · rw [if_neg hdenied]
      decide

/-- A list that is sorted by distinct names is the sorted form of whatever has its members. -/
theorem mergeSort_eq_of_perm {vs ws : List RenderVariable} (h : vs.Perm ws)
    (hsorted : (ws.map RenderVariable.name).Pairwise fun v w ↦ v.toList < w.toList) :
    vs.mergeSort (fun left right ↦ decide (¬right.name.toList < left.name.toList)) = ws := by
  have hperm := (List.mergeSort_perm vs fun left right : RenderVariable ↦
    decide (¬right.name.toList < left.name.toList)).trans h
  have hnodup : (ws.map RenderVariable.name).Nodup := by
    refine hsorted.imp ?_
    rintro v w hvw rfl
    exact List.lt_irrefl _ hvw
  refine hperm.eq_of_pairwise ?_ (List.pairwise_mergeSort ?_ ?_ vs)
    ((List.pairwise_map.mp hsorted).imp ?_)
  · intro v w hv hw hvw hwv
    have hname : v.name.toList = w.name.toList :=
      List.le_antisymm (List.not_lt.mp (of_decide_eq_true hvw))
        (List.not_lt.mp (of_decide_eq_true hwv))
    exact List.inj_on_of_nodup_map hnodup (hperm.mem_iff.mp hv) hw (String.toList_inj.mp hname)
  · intro u v w huv hvw
    exact decide_eq_true (List.not_lt.mpr (List.le_trans (List.not_lt.mp (of_decide_eq_true huv))
      (List.not_lt.mp (of_decide_eq_true hvw))))
  · intro v w
    rw [Bool.or_eq_true, decide_eq_true_eq, decide_eq_true_eq, List.not_lt, List.not_lt]
    exact List.le_total v.name.toList w.name.toList
  · intro v w hvw
    exact decide_eq_true (List.lt_asymm hvw)

/-- The variables of an access request in their order. -/
theorem items_accessRequestRenderRequest (intent : CreateAccessRequestNotificationIntent) :
    (accessRequestRenderRequest formatTime intent).items =
      (if intent.template.event = .denied then []
        else [⟨"expires_at", (intent.template.expiresAt.map formatTime).getD ""⟩]) ++
      [⟨"locale", intent.recipient.locale⟩,
        ⟨"organization_id", intent.template.organizationId⟩,
        ⟨"recipient_display_name", trimmedOptional intent.recipient.displayName⟩,
        ⟨"request_id", intent.template.requestId⟩,
        ⟨"role", displayedName intent.template.role.displayName intent.template.role.roleId⟩,
        ⟨"scope", displayedName intent.template.scope.displayName intent.template.scope.id⟩,
        ⟨"scope_kind", intent.template.scope.kind⟩] := by
  rw [accessRequestRenderRequest]
  refine mergeSort_eq_of_perm List.perm_append_comm ?_
  have hsorted := pairwise_variableNames (.accessRequest intent)
  rw [IntentRequest.variableNames] at hsorted
  rw [List.map_append]
  by_cases hdenied : intent.template.event = .denied
  · rw [if_pos hdenied] at hsorted ⊢
    exact hsorted
  · rw [if_neg hdenied] at hsorted ⊢
    exact hsorted

theorem names_renderRequest (formatTime : DateTime → String) (request : IntentRequest) :
    (renderRequest formatTime request).items.map RenderVariable.name =
      request.variableNames := by
  cases request with
  | invitation request => rfl
  | accessRequest request =>
    rw [renderRequest, items_accessRequestRenderRequest, List.map_append,
      IntentRequest.variableNames]
    by_cases hdenied : request.template.event = .denied
    · rw [if_pos hdenied, if_pos hdenied]
      rfl
    · rw [if_neg hdenied, if_neg hdenied]
      rfl

theorem eq_expiring_of_templateId {event : AccessRequestNotificationEvent}
    (h : accessRequestTemplateId event ∈ ["organization-invitation", "access-request-expiring"]) :
    event = .expiring := by
  cases event with
  | expiring => rfl
  | submitted | approved | denied => exact absurd h (by decide)

/-- **Every call that waits for a render has asked for a well-formed one.** -/
theorem wellFormed_renderRequest {S : Setting} {s : System} {request : IntentRequest}
    {now : DateTime} (hreach : (system S).Reachable s)
    (hc : Call.create request now .rendering ∈ s.calls) :
    (renderRequest formatTime request).WellFormed formatTime request now := by
  obtain ⟨⟨caller, raw, hraw⟩, -⟩ := remembered_of_reachable hreach hc
  have hvalidate := Plugin.validate_of_intentRequestOf hraw
  have hnames := names_renderRequest formatTime request
  have hsorted : (renderRequest formatTime request).items.Pairwise
      fun v w ↦ v.name.toList < w.name.toList := by
    have hpairwise := pairwise_variableNames request
    rw [← hnames, List.pairwise_map] at hpairwise
    exact hpairwise
  have hvalid := IntentRequest.valid_of_validate hvalidate
  cases request with
  | invitation request =>
    obtain ⟨-, -, -, -, -, -, -, -, horganization, -, hurl, -, -, -, -, -, -, hlocale, -, hexpiry,
      -⟩ := validateInvitationRequest_eq_ok.mp hvalidate
    refine ⟨⟨rfl, rfl, hlocale, rfl⟩, hnames, hsorted, ?_, ?_⟩
    · intro v hv hrequired
      simp only [renderRequest, organizationInvitationRenderRequest, List.mem_cons,
        List.not_mem_nil, or_false] at hv
      rcases hv with rfl | rfl | rfl | rfl | rfl | rfl | rfl
      · exact absurd (show "expires_at" ∈ optionalNames by decide) hrequired
      · exact not_isBlank_of_requiredBounded hurl
      · exact absurd (show "inviter_display_name" ∈ optionalNames by decide) hrequired
      · exact isBlank_locale hlocale
      · exact (isBlank_trim _).trans (not_isBlank_of_requiredBounded horganization)
      · exact absurd (show "recipient_display_name" ∈ optionalNames by decide) hrequired
      · exact absurd (show "role_name" ∈ optionalNames by decide) hrequired
    · intro _
      exact ⟨request.template.expiresAt, hexpiry, List.mem_cons_self⟩
  | accessRequest request =>
    obtain ⟨-, -, -, -, -, hid, horganization, hrole, hkind, hscope, -, -, -, -, -, -, -, -,
      hlocale, -, -, hexpiring, -, hfuture⟩ := validateAccessRequest_eq_ok.mp hvalidate
    refine ⟨⟨rfl, rfl, hlocale, rfl⟩, hnames, hsorted, ?_, ?_⟩
    · intro v hv hrequired
      simp only [renderRequest, items_accessRequestRenderRequest, List.mem_append, List.mem_cons,
        List.not_mem_nil, or_false] at hv
      rcases hv with hv | rfl | rfl | rfl | rfl | rfl | rfl | rfl
      · by_cases hevent : request.template.event = .denied
        · rw [if_pos hevent] at hv
          exact absurd hv List.not_mem_nil
        · rw [if_neg hevent, List.mem_singleton] at hv
          subst hv
          exact absurd (show "expires_at" ∈ optionalNames by decide) hrequired
      · exact isBlank_locale hlocale
      · exact not_isBlank_of_requiredBounded horganization
      · exact absurd (show "recipient_display_name" ∈ optionalNames by decide) hrequired
      · exact not_isBlank_of_requiredBounded hid
      · exact isBlank_displayedName (not_isBlank_of_requiredBounded hrole)
      · exact isBlank_displayedName (not_isBlank_of_requiredBounded hscope)
      · exact not_isBlank_of_requiredBounded hkind
    · intro htemplate
      have hevent := eq_expiring_of_templateId htemplate
      obtain ⟨t, ht⟩ := Option.isSome_iff_exists.mp (hexpiring hevent)
      refine ⟨t, hfuture t ht, ?_⟩
      rw [renderRequest, items_accessRequestRenderRequest, if_neg (by simp [hevent]), ht]
      exact List.mem_cons_self

end Requests

/-! ## A call that waits for its render -/

namespace Deployment

/-- The invitation is about to be rendered. -/
def rendering : System where
  ledger := Ledger.empty
  calls := [.create intentRequest midnight .rendering]

def asking : List Command :=
  [.create (some "org") (.organizationInvitation request) midnight, .advance 0 .proceed]

theorem asking_runs : (System.empty.execAll setting asking).map Prod.fst = some rendering := by
  decide +kernel

theorem reachable_rendering : (system setting).Reachable rendering :=
  reachable_of_execAll ⟨[], .nil rfl⟩ asking_runs

/-- `to_rfc3339_opts(SecondsFormat::Secs, true)` on the instants of the tests. -/
def formatTime (t : DateTime) : String :=
  ((instants.find? fun p ↦ decide (p.1 = t)).map Prod.snd).getD ""

/-- What the provider answers. -/
def answer : RenderResponse where
  templateId := rendered.templateId
  version := rendered.templateVersion
  requestedLocale := rendered.requestedLocale
  resolvedLocale := rendered.resolvedLocale
  fallbackUsed := rendered.fallbackUsed
  rendererIdentity := rendered.rendererIdentity
  templateDigest := rendered.templateDigest
  contentDigest := rendered.contentDigest
  subject := rendered.subject
  text := rendered.text
  html := rendered.html

end Deployment

/-- The invitation's link is among the variables. -/
theorem wellFormed_renderRequest_rendering :
    (renderRequest Deployment.formatTime Deployment.intentRequest).WellFormed Deployment.formatTime
        Deployment.intentRequest Deployment.midnight ∧
      ⟨"invitation_url", "https://b.co/i1"⟩ ∈
        (renderRequest Deployment.formatTime Deployment.intentRequest).items :=
  ⟨wellFormed_renderRequest Deployment.reachable_rendering List.mem_cons_self, by decide⟩

/-! ## Accepted answers -/

/-- The response is one the provider may give to the request. -/
structure RenderResponse.Answers (X : Externals) (response : RenderResponse) (r : RenderRequest) :
    Prop where
  template : response.templateId = r.templateId ∧ some response.version = r.version
  locale : response.requestedLocale = r.locale ∧
    (response.fallbackUsed = true ↔ response.requestedLocale ≠ response.resolvedLocale)
  metadata : requiredBounded response.resolvedLocale 2 32 = true ∧
    requiredBounded response.rendererIdentity 1 160 = true ∧
    isDigest response.templateDigest = true ∧ isDigest response.contentDigest = true
  subject : requiredBounded response.subject 1 998 = true ∧ '\r' ∉ response.subject.toList ∧
    '\n' ∉ response.subject.toList
  bodies : requiredBounded response.text 1 131072 = true ∧
    requiredBounded response.html 1 262144 = true
  /-- The digest is that of the content. -/
  content : Snapshot.contentDigest X response.subject response.text response.html =
    response.contentDigest

section Answers

variable {X : Externals} {S : Setting} {formatTime : DateTime → String}
  {ls : List (Command × Reply)} {s : System} {request : IntentRequest} {now : DateTime} {n : ℕ}

theorem fields_renderRequest (formatTime : DateTime → String) (request : IntentRequest) :
    (renderRequest formatTime request).templateId = request.templateId ∧
      (renderRequest formatTime request).version = some templateVersion ∧
      (renderRequest formatTime request).locale = request.recipient.locale := by
  cases request with
  | invitation request => exact ⟨rfl, rfl, rfl⟩
  | accessRequest request => exact ⟨rfl, rfl, rfl⟩

/-- Storage accepts the renders that answer what was asked, and no others. -/
theorem answers_iff_validate {response : RenderResponse} :
    response.Answers X (renderRequest formatTime request) ↔
      validateRenderedTemplate X (renderedTemplate response) request.templateId templateVersion
        request.recipient.locale = .ok () := by
  obtain ⟨htemplate, hversion, hlocale⟩ := fields_renderRequest formatTime request
  rw [validateRenderedTemplate_eq_ok]
  constructor
  · rintro ⟨⟨hid, hv⟩, ⟨hl, hfallback⟩, ⟨hresolved, hrenderer, hdigest, hcontentDigest⟩,
      ⟨hsubject, hcr, hlf⟩, ⟨htext, hhtml⟩, hcontent⟩
    refine ⟨⟨hid.trans htemplate, ?_, hl.trans hlocale, ?_, hresolved, hrenderer, hdigest,
      hcontentDigest⟩, hsubject, hcr, hlf, htext, hhtml, hcontent⟩
    · exact Option.some_inj.mp (hv.trans hversion)
    · exact Bool.eq_iff_iff.mpr (hfallback.trans decide_eq_true_iff.symm)
  · rintro ⟨⟨hid, hv, hl, hfallback, hresolved, hrenderer, hdigest, hcontentDigest⟩, hsubject, hcr,
      hlf, htext, hhtml, hcontent⟩
    refine ⟨⟨hid.trans htemplate.symm, ?_⟩, ⟨hl.trans hlocale.symm, ?_⟩,
      ⟨hresolved, hrenderer, hdigest, hcontentDigest⟩, ⟨hsubject, hcr, hlf⟩, ⟨htext, hhtml⟩,
      hcontent⟩
    · exact (congrArg some hv).trans hversion.symm
    · exact (Bool.eq_iff_iff.mp hfallback).trans decide_eq_true_iff

/-- The failure of a provider that answers something else. -/
def invalidRender : RuntimeFailure :=
  .pluginFailure "Notification Template Provider returned an invalid render projection"

/-- The call ends in a failure of the runtime that does not answer the request. -/
def RenderFails (s s' : System) (n : ℕ) (request : IntentRequest) (reply : Reply) : Prop :=
  s' = { s with calls := s.calls.set n .returned } ∧
    ∃ failure, reply = .created request (.error (.runtime failure))

/-- The step of a call that is given a result. -/
theorem step_of_rendered {result : Except RuntimeFailure RenderedTemplate} {c : Call}
    {reply : Reply} (hc : s.calls[n]? = some (.create request now .rendering))
    (h : Call.stepCreate S s.ledger (s.calls.filterMap Call.lockText?) request now .rendering
      (.rendered result) = some (s.ledger, c, reply)) :
    (system S).Step s (.advance n (.rendered result), reply)
      { s with calls := s.calls.set n c } := by
  have hcommit : s.commit (s.calls.set n c) s.ledger =
      some { s with calls := s.calls.set n c } := commit_eq fun _ _ ↦ rfl
  change s.exec S (.advance n (.rendered result)) = some (_, _)
  simp only [System.exec, hc, Call.step, h, bind, Option.bind_some, hcommit, pure]

/-- **A call goes on with an answer to its request and with nothing else.** Whatever the provider
does otherwise ends the call in a failure of the runtime, and the ledger stays as it is. -/
theorem prepares_iff_answers (formatTime : DateTime → String) (hreach : (system S).Reachable s)
    (hc : s.calls[n]? = some (.create request now .rendering))
    (result : Except RenderInvocationError RenderResponse) :
    ∃ s' reply, (system S).Step s (.advance n (.rendered (rendersAs result)), reply) s' ∧
      s'.ledger = s.ledger ∧
      ((∃ response, result = .ok response ∧
          response.Answers S.externals (renderRequest formatTime request)) ↔
        ∃ intent, s'.calls[n]? = some (.create request now (.prepared intent))) ∧
      ((¬∃ response, result = .ok response ∧
          response.Answers S.externals (renderRequest formatTime request)) →
        RenderFails s s' n request reply) := by
  obtain ⟨⟨caller, raw, hraw⟩, -⟩ := remembered_of_reachable hreach (List.mem_of_getElem? hc)
  have hvalidate := validate_of_intentRequestOf hraw
  have hset : ∀ c : Call, (s.calls.set n c)[n]? = some c :=
    fun c ↦ List.getElem?_set_self (List.getElem?_eq_some_iff.mp hc).1
  have hreturned : ∀ intent, (s.calls.set n .returned)[n]? ≠
      some (.create request now (.prepared intent)) := by
    intro intent h
    rw [hset] at h
    cases h
  cases result with
  | error e =>
    refine ⟨_, .created request (.error (.runtime (mapTemplateRenderError e))),
      step_of_rendered hc rfl, rfl, ⟨?_, ?_⟩, fun _ ↦ ⟨rfl, _, rfl⟩⟩
    · rintro ⟨response, hresponse, -⟩
      cases hresponse
    · rintro ⟨intent, h⟩
      exact absurd h (hreturned intent)
  | ok response =>
    by_cases hanswers : response.Answers S.externals (renderRequest formatTime request)
    · have hprepare := prepareIntent_eq_ok.mpr ⟨hvalidate, answers_iff_validate.mp hanswers, rfl⟩
      have hstep : (system S).Step s
          (.advance n (.rendered (rendersAs (.ok response))), .pending)
          { s with calls := s.calls.set n (.create request now
              (.prepared (persistenceOf S.externals request (renderedTemplate response)))) } :=
        step_of_rendered hc (by
          simp only [rendersAs, Except.map, Except.mapError, Call.stepCreate, hprepare])
      refine ⟨_, _, hstep, rfl, ⟨fun _ ↦ ⟨_, hset _⟩, fun _ ↦ ⟨response, rfl, hanswers⟩⟩, ?_⟩
      exact fun hnone ↦ absurd ⟨response, rfl, hanswers⟩ hnone
    · have hprepare : prepareIntent S.externals request (renderedTemplate response) now =
          .error ⟨.internal,
            "Notification Template Provider returned an invalid render projection"⟩ := by
        rw [prepareIntent, hvalidate, ok_bind]
        rw [answers_iff_validate, validateRenderedTemplate, ensure_eq_ok] at hanswers
        rw [validateRenderedTemplate, ensure_of_not hanswers]
        rfl
      have hstep : (system S).Step s
          (.advance n (.rendered (rendersAs (.ok response))),
            .created request (.error (.runtime invalidRender)))
          { s with calls := s.calls.set n .returned } :=
        step_of_rendered hc (by
          simp only [rendersAs, Except.map, Except.mapError, Call.stepCreate, hprepare]
          rfl)
      refine ⟨_, _, hstep, rfl, ⟨?_, ?_⟩, fun _ ↦ ⟨rfl, _, rfl⟩⟩
      · rintro ⟨other, hother, hyes⟩
        cases hother
        exact absurd hyes hanswers
      · rintro ⟨intent, h⟩
        exact absurd h (hreturned intent)

/-- The answer of the tests is accepted, and one for another locale is not. -/
theorem prepares_iff_answers_rendering :
    (∃ s' reply intent, (system Deployment.setting).Step Deployment.rendering
        (.advance 0 (.rendered (rendersAs (.ok Deployment.answer))), reply) s' ∧
      s'.calls[0]? = some (.create Deployment.intentRequest Deployment.midnight
        (.prepared intent))) ∧
      ∃ s' reply, (system Deployment.setting).Step Deployment.rendering
          (.advance 0 (.rendered (rendersAs (.ok { Deployment.answer with
            requestedLocale := "en-US", fallbackUsed := true }))), reply) s' ∧
        RenderFails Deployment.rendering s' 0 Deployment.intentRequest reply := by
  have hanswers : Deployment.answer.Answers Deployment.setting.externals
      (renderRequest Deployment.formatTime Deployment.intentRequest) :=
    answers_iff_validate.mpr (validateRenderedTemplate_eq_ok.mpr (by decide +kernel))
  constructor
  · obtain ⟨s', reply, hstep, -, hiff, -⟩ := prepares_iff_answers
      Deployment.formatTime Deployment.reachable_rendering (n := 0) rfl
      (.ok Deployment.answer)
    obtain ⟨intent, hintent⟩ := hiff.mp ⟨_, rfl, hanswers⟩
    exact ⟨s', reply, intent, hstep, hintent⟩
  · obtain ⟨s', reply, hstep, -, -, hfails⟩ := prepares_iff_answers
      Deployment.formatTime Deployment.reachable_rendering (n := 0) rfl
      (.ok { Deployment.answer with requestedLocale := "en-US", fallbackUsed := true })
    refine ⟨s', reply, hstep, hfails ?_⟩
    rintro ⟨response, hresponse, hother⟩
    cases hresponse
    exact absurd hother.locale.1 (by decide)

/-- A write had its render from a call for its request, and it answers what that call has asked. -/
theorem Write.In.answers {w : Write} (formatTime : DateTime → String) (h : w.In S ls s) :
    ∃ n response, w.rendered = renderedTemplate response ∧
      (.advance n (.rendered (rendersAs (.ok response))), .pending) ∈ ls ∧
      response.Answers S.externals (renderRequest formatTime w.request) := by
  obtain ⟨pre, n, receipt, post, t, t', rfl, hpre, -, hc, -⟩ := h.committed
  obtain ⟨-, hprepared⟩ := asked_of_history hpre hc fun heq ↦ by cases heq
  obtain ⟨rendered, hmem, hprepare⟩ := hprepared _ rfl
  obtain ⟨-, hvalidate, hsame⟩ := prepareIntent_eq_ok.mp hprepare
  have hrendered : w.rendered = rendered := congrArg IntentPersistence.rendered hsame
  -- a render is a response under other names
  obtain ⟨response, hresponse⟩ : ∃ response, rendered = renderedTemplate response :=
    ⟨⟨rendered.templateId, rendered.templateVersion, rendered.requestedLocale,
      rendered.resolvedLocale, rendered.fallbackUsed, rendered.rendererIdentity,
      rendered.templateDigest, rendered.contentDigest, rendered.subject, rendered.text,
      rendered.html⟩, rfl⟩
  rw [hresponse] at hmem hvalidate
  exact ⟨n, response, hrendered.trans hresponse, List.mem_append_left _ hmem,
    answers_iff_validate.mpr hvalidate⟩

/-- The answer to a create call names an intent that was written with a render the provider has
given in this history, and given for the request of that very call. -/
structure AnsweredAsAsked (S : Setting) (formatTime : DateTime → String)
    (ls : List (Command × Reply)) (s : System) (request : IntentRequest)
    (response : CreateResponse) : Prop where
  write : ∃ w : Write, w.In S ls s ∧ response.intentId = w.intentId S ∧
    ∃ n result, w.rendered = renderedTemplate result ∧
      (.advance n (.rendered (rendersAs (.ok result))), .pending) ∈ ls ∧
      (CollisionFree S.externals {request.encode S.externals, w.request.encode S.externals} →
        w.request = request ∧
          result.Answers S.externals (renderRequest formatTime request))

/-- **Every successful answer was rendered as asked**, also the answer to a replay. -/
theorem answeredAsAsked_of_history (h : (system S).History ls s) {l : Command × Reply}
    (hl : l ∈ ls) {response : CreateResponse} (hcreated : created? l = some (request, response)) :
    AnsweredAsAsked S formatTime ls s request response := by
  obtain ⟨i, hi, hdigest, d, -, -, hid, -⟩ :=
    (namesRequest_of_history h l hl request response hcreated).stored
  have himem := (Ledger.mem_intentsOf.mp hi).1
  obtain ⟨w, hw, hwid⟩ := exists_write_of_history h i himem
  obtain ⟨n, result, hrendered, hmem, hanswers⟩ := hw.answers formatTime
  refine ⟨w, hw, hid.trans hwid, n, result, hrendered, hmem, fun hfree ↦ ?_⟩
  -- the named row is the one that was written, so it carries both digests
  obtain ⟨e, L₁, hkept⟩ := hw.kept
  have hrow : i = intentRow S.externals (w.intent S) e.recipient w.now :=
    Table.eq_of_key himem hkept.intents hwid
  have hsame : request.digest S.externals = w.request.digest S.externals := by
    rw [← hdigest, hrow]
    rfl
  have hencode : request.encode S.externals = w.request.encode S.externals :=
    hfree.eq_of_digestText _ (by simp) (by simp) hsame
  have hrequest : w.request = request := (IntentRequest.encode_injective S.externals hencode).symm
  exact ⟨hrequest, hrequest ▸ hanswers⟩

/-- The answer to a repetition of the first invitation, which is a replay. -/
theorem answeredAsAsked_of_history_repeated : ∃ ls s response,
    (system Deployment.setting).History ls s ∧ response.idempotentReplay = true ∧
      AnsweredAsAsked Deployment.setting Deployment.formatTime ls s Deployment.intentRequest
        response := by
  obtain ⟨ls, hls⟩ := Deployment.exists_history_queued
  obtain ⟨ms, s, hms, -, hP⟩ := exists_labels_of_execAll (Deployment.repeatCreate 1)
    (fun ms _ ↦ ms.any fun l ↦ (created? l).any fun p ↦
      decide (p.1 = Deployment.intentRequest) && p.2.idempotentReplay) hls (by decide +kernel)
  obtain ⟨l, hl, hcreated⟩ := List.any_eq_true.mp hP
  obtain ⟨⟨request, response⟩, hcreated, hreplay⟩ := (Option.any_eq_true _ _).mp hcreated
  rw [Bool.and_eq_true, decide_eq_true_eq] at hreplay
  obtain ⟨rfl, hreplay⟩ := hreplay
  exact ⟨_, s, response, hms, hreplay,
    answeredAsAsked_of_history hms (List.mem_append_right _ hl) hcreated⟩

end Answers

end NotificationLedger

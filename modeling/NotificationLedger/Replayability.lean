import NotificationLedger.Boundary
import NotificationLedger.Idempotency

/-!
# Repeating a create call

A create call that is repeated finds the stored intent of its key, under the same digest, before
anything is rendered. It gets that far only while both validators accept it, and they compare its
expiry with the clock: a call whose request has expired is refused although its intent is stored.
-/

namespace NotificationLedger

open Outcome Public

/-! ## Requests over time -/

namespace CreateRequest

variable {S : Setting} {raw : CreateRequest} {now t : DateTime}

/-- The expiry, where the request names one, is still ahead. -/
def Current (S : Setting) (now : DateTime) (raw : CreateRequest) : Prop :=
  ∀ text ∈ raw.expiresAt?, ∀ expiresAt ∈ Plugin.parseTime S text, now < expiresAt

/-- **Time enters a request's validity only through its expiry.** -/
theorem valid_iff_current (h : raw.valid S t = true) :
    raw.valid S now = true ↔ raw.Current S now := by
  cases raw with
  | organizationInvitation raw =>
    simp only [valid, Plugin.validCreateRequest, Bool.and_eq_true] at h ⊢
    obtain ⟨⟨⟨⟨⟨⟨hrest, htime⟩, hfuture⟩, hkey⟩, hcorrelation⟩, hcausation⟩, hrequestedBy⟩ := h
    have hnow : (Plugin.parseTime S raw.template.expiresAt).any
        (fun expiresAt ↦ decide (now < expiresAt)) = true ↔
          Current S now (.organizationInvitation raw) := by
      cases hparse : Plugin.parseTime S raw.template.expiresAt with
      | none =>
        rw [hparse] at hfuture
        cases hfuture
      | some expiresAt => simp [Current, expiresAt?, hparse]
    rw [hnow]
    constructor
    · rintro ⟨⟨⟨⟨⟨-, hcurrent⟩, -⟩, -⟩, -⟩, -⟩
      exact hcurrent
    · exact fun hcurrent ↦
        ⟨⟨⟨⟨⟨⟨hrest, htime⟩, hcurrent⟩, hkey⟩, hcorrelation⟩, hcausation⟩, hrequestedBy⟩
  | accessRequestNotification raw =>
    simp only [valid, Plugin.validAccessRequestNotificationRequest, Bool.and_eq_true] at h ⊢
    obtain ⟨⟨⟨⟨⟨⟨hrest, htime⟩, hexpiry⟩, hkey⟩, hcorrelation⟩, hcausation⟩, hrequestedBy⟩ := h
    simp only [hrest, htime, hkey, hcorrelation, hcausation, hrequestedBy, true_and, and_true]
    -- each event has a rule of its own about the expiry
    cases hexpires : raw.expiresAt with
    | none =>
      rw [hexpires] at hexpiry
      cases hevent : raw.event <;> simp_all [Current, expiresAt?]
    | some text =>
      rw [hexpires] at hexpiry
      cases hparse : Plugin.parseTime S text <;> cases hevent : raw.event <;>
        simp_all [Current, expiresAt?]

end CreateRequest

namespace Plugin

variable {S : Setting} {caller : Option String} {raw : CreateRequest} {request : IntentRequest}
  {now t : DateTime}

/-- An admitted request is admitted again, as the same intent, until it expires. -/
theorem intentRequestOf_iff_current (h : intentRequestOf S caller raw t = .ok request) :
    intentRequestOf S caller raw now = .ok request ↔ raw.Current S now := by
  obtain ⟨source, hcaller, hvalid, hintent⟩ := intentRequestOf_eq_ok.mp h
  rw [← CreateRequest.valid_iff_current hvalid, intentRequestOf_eq_ok]
  constructor
  · rintro ⟨-, -, hvalid, -⟩
    exact hvalid
  · exact fun hvalid ↦ ⟨source, hcaller, hvalid, hintent⟩

end Plugin

/-! ## Replays -/

/-- The repeated call is answered from the ledger alone, with these ids: the call starts, and its
first step, whenever it is taken on this ledger, returns them and changes nothing. -/
def Replayed (S : Setting) (L : Ledger) (caller : Option String) (raw : CreateRequest)
    (now : DateTime) (response : CreateResponse) : Prop :=
  ∃ request, (∀ s : System, s.exec S (.create caller raw now) =
      some ({ s with calls := s.calls ++ [.create request now .reading] }, .pending)) ∧
    ∀ s : System, s.ledger = L → ∀ n, s.calls[n]? = some (.create request now .reading) →
      s.exec S (.advance n .proceed) =
        some ({ s with calls := s.calls.set n .returned },
          .created request (.ok { response with idempotentReplay := true }))

section Replays

variable {S : Setting} {ls : List (Command × Reply)} {s : System} {request : IntentRequest}
  {response : CreateResponse} {now t : DateTime}

/-- A named request is found. -/
theorem findReplay_of_names (hreach : (system S).Reachable s)
    (h : NamesRequest S s.ledger request response) (hvalid : request.validate now = .ok ()) :
    ∃ status, findReplay S.externals s.ledger request now =
      .ok (some ⟨response.intentId, response.deliveryId, status, true⟩) := by
  obtain ⟨i, hi, hdigest, d, hd, hintent, hid, hdid⟩ := h.stored
  obtain ⟨hrow, hmodule, hkey⟩ := Ledger.mem_intentsOf.mp hi
  obtain ⟨e, he, heintent, hstored⟩ :=
    exists_storedIntent (provenance_of_reachable hreach) hrow hmodule hkey
  have hsame : d = e := Table.eq_of_clash hd he (Or.inr (hintent.trans heintent.symm))
  have htexts := ((checked_of_reachable (reachable_ledger hreach)).intents i hrow).1.1
  have hstorable : Storable [request.source.moduleId, request.idempotencyKey] := by
    rw [← hmodule, ← hkey]
    exact Storable.cons_iff.mpr ⟨htexts _ (by simp), Storable.cons_iff.mpr
      ⟨htexts _ (by simp), fun _ hnone ↦ absurd hnone List.not_mem_nil⟩⟩
  refine ⟨e.status, ?_⟩
  rw [findReplay, hvalid, ok_bind, findIdempotentIntent, ensure_of hstorable, ok_bind, hstored,
    projectIdempotentIntent, ensure_of hdigest, ok_bind, hid, hdid, hsame]
  rfl

/-- **A create call whose intent was committed is replayed exactly until its request expires**, in
every later state and whatever has become of the delivery. -/
theorem replayed_iff_current {caller : Option String} {raw : CreateRequest}
    (h : (system S).History ls s) {l : Command × Reply} (hl : l ∈ ls)
    (hcreated : created? l = some (request, response))
    (hraw : Plugin.intentRequestOf S caller raw t = .ok request) (now : DateTime) :
    Replayed S s.ledger caller raw now response ↔ raw.Current S now := by
  have hreach : (system S).Reachable s := ⟨ls, h⟩
  constructor
  · rintro ⟨request', hstarts, -⟩
    have hstart := hstarts System.empty
    simp only [System.exec] at hstart
    split at hstart
    · cases hstart
    · next intent hintent =>
      obtain ⟨source, -, hvalid, -⟩ := Plugin.intentRequestOf_eq_ok.mp hintent
      obtain ⟨-, -, hvalid', -⟩ := Plugin.intentRequestOf_eq_ok.mp hraw
      exact (CreateRequest.valid_iff_current hvalid').mp hvalid
  · intro hcurrent
    have hadmitted := (Plugin.intentRequestOf_iff_current hraw).mpr hcurrent
    have hnames := namesRequest_of_history h l hl request response hcreated
    obtain ⟨status, hfind⟩ :=
      findReplay_of_names hreach hnames (Plugin.validate_of_intentRequestOf hadmitted)
    refine ⟨request, fun s ↦ ?_, ?_⟩
    · simp only [System.exec, hadmitted]
    · rintro u hu n hc
      have hstep : Call.step S u.ledger u.calls (.create request now .reading) .proceed =
          some (u.ledger, .returned,
            .created request (.ok { response with idempotentReplay := true })) := by
        rw [hu]
        simp only [Call.step, Call.stepCreate, hfind]
        rfl
      exact step_of_unchanged hc hstep

end Replays

/-! ## An invitation that expires -/

theorem System.execAll_append {S : Setting} (s : System) (cs ds : List Command) :
    (s.execAll S (cs ++ ds)).map Prod.fst =
      ((s.execAll S cs).map Prod.fst).bind fun t ↦ (t.execAll S ds).map Prod.fst := by
  induction cs generalizing s with
  | nil => rfl
  | cons c cs ih =>
    simp only [List.cons_append, System.execAll]
    cases s.exec S c with
    | none => rfl
    | some p =>
      simp only [bind, Option.bind_some]
      have hrest := ih p.1
      cases hcs : p.1.execAll S cs <;> cases hall : p.1.execAll S (cs ++ ds) <;>
        simp_all

namespace Deployment

/-- The call of the invitation is about to write. -/
def writing : System where
  ledger := Ledger.empty
  calls := [.create intentRequest midnight (.writing persistence)]

theorem locking_runs :
    (prepared.execAll setting [.advance 0 .proceed, .advance 0 .proceed]).map Prod.fst =
      some writing := by decide

theorem admitted_midnight : Plugin.intentRequestOf setting (some "org")
    (.organizationInvitation request) midnight = .ok intentRequest := rfl

/-- A history in which the invitation was created. -/
theorem exists_history_created :
    ∃ ls l response, (system setting).History ls queued ∧ l ∈ ls ∧
      created? l = some (intentRequest, response) := by
  obtain ⟨ls, hls⟩ := reachable_of_execAll reachable_prepared locking_runs
  have hruns := storing_runs
  have hsplit : storing = [.advance 0 .proceed, .advance 0 .proceed] ++
      [.advance 0 (.nonces nonces)] := rfl
  rw [hsplit, System.execAll_append, locking_runs, Option.bind_some] at hruns
  obtain ⟨ms, hms, -⟩ := exists_run_of_execAll hruns
  have hwrite : ∃ reply, (system setting).Step writing (.advance 0 (.nonces nonces), reply)
      queued := by
    simp only [System.execAll, bind, pure, Option.map_eq_some_iff, Option.bind_eq_some_iff,
      Option.some_inj, Prod.exists, Prod.mk.injEq] at hruns
    obtain ⟨_, replies, ⟨t, reply, hstep, _, _, ⟨rfl, rfl⟩, rfl, rfl⟩, rfl⟩ := hruns
    exact ⟨reply, hstep⟩
  obtain ⟨reply, hstep⟩ := hwrite
  have hhistory := hls.snoc hstep
  cases System.stepped_of_exec hstep with
  | advanced hc hadvance =>
    cases hc
    cases hadvance with
    | written h =>
      exact ⟨_, _, _, hhistory, List.mem_append_right _ (List.mem_singleton_self _), rfl⟩

end Deployment

/-- An hour later the invitation is still replayed. -/
theorem replayed_iff_current_oneHourLater :
    ∃ ls response, (system Deployment.setting).History ls Deployment.queued ∧
      Replayed Deployment.setting Deployment.queued.ledger (some "org")
        (.organizationInvitation Deployment.request) Deployment.oneHourLater response := by
  obtain ⟨ls, l, response, hls, hl, hcreated⟩ := Deployment.exists_history_created
  refine ⟨ls, response, hls, (replayed_iff_current hls hl hcreated Deployment.admitted_midnight
    Deployment.oneHourLater).mpr ?_⟩
  intro text htext expiresAt hexpires
  cases htext
  cases hexpires
  decide

/-- A day later it has expired: the same call is refused, although its intent is stored. -/
theorem not_replayed_nextDay :
    ∃ ls l response, (system Deployment.setting).History ls Deployment.queued ∧ l ∈ ls ∧
      created? l = some (Deployment.intentRequest, response) ∧
      Plugin.intentRequestOf Deployment.setting (some "org")
        (.organizationInvitation Deployment.request) Deployment.midnight =
          .ok Deployment.intentRequest ∧
      Deployment.midnight ≤ Deployment.nextDay ∧
      ¬Replayed Deployment.setting Deployment.queued.ledger (some "org")
        (.organizationInvitation Deployment.request) Deployment.nextDay response := by
  obtain ⟨ls, l, response, hls, hl, hcreated⟩ := Deployment.exists_history_created
  refine ⟨ls, l, response, hls, hl, hcreated, Deployment.admitted_midnight, by decide, ?_⟩
  rintro ⟨request, hstarts, -⟩
  have hstart := congrArg (Option.map fun p ↦ p.1.calls.length) (hstarts System.empty)
  simp only [Option.map_some, System.empty, List.nil_append, List.length_singleton] at hstart
  exact absurd hstart (by decide)

end NotificationLedger

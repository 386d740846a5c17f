import NotificationLedger.Authority

/-!
# The retry button of the Console

The Console retries a delivery under a key it derives from the delivery and the revision it shows.
A replay elsewhere answers from whatever decision is stored under the key. Under the keys of the
Console it answers from a decision of just the revision that is shown, and there is one decision for
all the presses of one revision.
-/

namespace NotificationLedger

open Outcome

namespace Console

/-- The idempotency key of `executeRetry`. -/
def retryKey (id : String) (revision : ℕ) : String :=
  "console-retry:" ++ (id ++ (":" ++ revision.repr))

/-- `api.retryDelivery` as `executeRetry` calls it. -/
def retryRequest (id : String) (revision : ℕ) : RetryDeliveryRequest where
  deliveryId := id
  revision := revision
  idempotencyKey := retryKey id revision

/-- Nobody retries under a key of the Console but for its revision. -/
def OwnsKeys (ls : List (Command × Reply)) : Prop :=
  ∀ (caller : Option String) (request : RetryDeliveryRequest) (now : DateTime) (reply : Reply),
    (Command.retryDelivery caller request now, reply) ∈ ls → ∀ revision : ℕ,
      request.idempotencyKey = retryKey request.deliveryId revision → request.revision = revision

/-- A press for this revision of the delivery has been accepted. -/
def Pressed (ls : List (Command × Reply)) (id : String) (revision : ℕ) : Prop :=
  ∃ caller now result, (.retryDelivery caller (retryRequest id revision) now,
    .retry (.ok result)) ∈ ls

theorem retryKey_inj {id : String} {revision revision' : ℕ}
    (h : retryKey id revision = retryKey id revision') : revision = revision' := by
  have hrepr : revision.repr = revision'.repr := by
    simpa [retryKey, String.append_right_inj] using h
  have hdigits : Nat.toDigits 10 revision = Nat.toDigits 10 revision' := by
    rw [← Nat.toList_repr, ← Nat.toList_repr, hrepr]
  rw [← Nat.ofDigitChars_ten_toDigits (n := revision), hdigits, Nat.ofDigitChars_ten_toDigits]

/-- The keys of the automatic decisions are others. -/
theorem retryKey_ne_dispatchObservationId (id attemptId : String) (revision : ℕ) :
    retryKey id revision ≠ Plugin.dispatchObservationId attemptId := by
  intro h
  have hchars : "console-retry:".toList ++ (id ++ (":" ++ revision.repr)).toList =
      "dispatch-observation:".toList ++ attemptId.toList := by
    rw [← String.toList_append, ← String.toList_append]
    exact congrArg String.toList h
  have hhead := congrArg List.head? hchars
  rw [List.head?_append_of_ne_nil _ (by decide), List.head?_append_of_ne_nil _ (by decide)] at hhead
  exact absurd hhead (by decide)

section Presses

variable {S : Setting} {s s' : System} {ls : List (Command × Reply)} {caller : Option String}
  {id : String} {revision : ℕ} {now : DateTime} {result : RetryResult}

/-- A decision under a key of the Console was scheduled for the revision in the key. -/
theorem scheduled_of_retryKey (h : (system S).History ls s) (howns : OwnsKeys ls)
    {r : RetryRequest} (hr : r ∈ s.ledger.retryRequests.rows)
    (hkey : r.idempotencyKey = retryKey r.deliveryId revision) :
    r.kind = .manual ∧ r.sourceRevision = revision ∧
      ∃ caller now result, (.retryDelivery caller (retryRequest r.deliveryId revision) now,
        .retry (.ok result)) ∈ ls ∧ result.idempotentReplay = false := by
  have hkind : r.kind = .manual := by
    obtain ⟨l, -, hmanual | ⟨-, -, i, response, claim, reply, -, -, -, hautomatic⟩⟩ :=
      decided_of_history h r hr
    · exact hmanual
    · exact absurd (hkey.symm.trans hautomatic) (retryKey_ne_dispatchObservationId _ _ _)
  obtain ⟨l, hl, caller, request, now, result, rfl, hreplay, hdelivery, hkey', -, hsource, -⟩ :=
    scheduled_of_history h r hr hkind
  have hrevision : request.revision = revision :=
    howns caller request now _ hl revision (by rw [hkey', hdelivery, hkey])
  have hrequest : request = retryRequest r.deliveryId revision := by
    cases request
    simp only at hdelivery hkey' hrevision
    rw [retryRequest, hdelivery, hkey', hkey, hrevision]
  refine ⟨hkind, ?_, caller, now, result, hrequest ▸ hl, hreplay⟩
  rw [← hsource, hrevision, Int.toNat_natCast]

/-- An accepted press has left its decision. -/
theorem exists_row_of_pressed (h : (system S).History ls s) (hpressed : Pressed ls id revision) :
    ∃ r ∈ s.ledger.retryRequests.rows, r.deliveryId = id ∧
      r.idempotencyKey = retryKey id revision := by
  obtain ⟨caller, now, result, hl⟩ := hpressed
  obtain ⟨pre, post, rfl⟩ := List.append_of_mem hl
  obtain ⟨t, t', hpre, hstep, hpost⟩ := h.of_append_cons
  have hkept := (extends_of_systemRun ⟨_, hpre.snoc hstep⟩ hpost).retryRequests.subset
  by_cases hreplay : result.idempotentReplay = true
  · obtain ⟨r, d, _, hfind, -, rfl, -⟩ := exists_stored_of_replay hstep hreplay
    obtain ⟨hr, hid, hkey, -⟩ := Repository.findRetry_eq_some.mp hfind
    exact ⟨r, hkept hr, hid, hkey⟩
  · obtain ⟨source, -, -, hrow, -⟩ := stored_of_step (eq_false_of_ne_true hreplay) hstep
    exact ⟨_, hkept hrow, rfl, rfl⟩

/-- **One decision for all presses of one revision.** A press that is accepted is a replay exactly
when the revision was pressed before, and there is exactly one decision under its key, a manual one
for the revision that is shown. -/
theorem pressed_iff (h : (system S).History ls s) (howns : OwnsKeys ls)
    (hstep : (system S).Step s
      (.retryDelivery caller (retryRequest id revision) now, .retry (.ok result)) s') :
    (result.idempotentReplay = true ↔ Pressed ls id revision) ∧
      ∃ r ∈ s'.ledger.retryRequests.rows, r.deliveryId = id ∧
        r.idempotencyKey = retryKey id revision ∧ r.kind = .manual ∧ r.sourceRevision = revision ∧
        ∀ r' ∈ s'.ledger.retryRequests.rows, r'.deliveryId = id →
          r'.idempotencyKey = retryKey id revision → r' = r := by
  have hunique : ∀ r ∈ s'.ledger.retryRequests.rows, r.deliveryId = id →
      r.idempotencyKey = retryKey id revision → ∀ r' ∈ s'.ledger.retryRequests.rows,
        r'.deliveryId = id → r'.idempotencyKey = retryKey id revision → r' = r :=
    fun r hr hid hkey r' hr' hid' hkey' ↦ Table.eq_of_clash hr' hr
      (Or.inr ⟨hid'.trans hid.symm, hkey'.trans hkey.symm⟩)
  by_cases hreplay : result.idempotentReplay = true
  · obtain ⟨r, d, t, hfind, -, rfl, -⟩ := exists_stored_of_replay hstep hreplay
    obtain ⟨hr, hid, hkey, -⟩ := Repository.findRetry_eq_some.mp hfind
    obtain rfl : r.deliveryId = id := hid
    obtain ⟨hkind, hsource, caller', now', result', hl, -⟩ :=
      scheduled_of_retryKey h howns hr hkey
    exact ⟨⟨fun _ ↦ ⟨caller', now', result', hl⟩, fun _ ↦ hreplay⟩, r, hr, rfl, hkey, hkind,
      hsource, hunique r hr rfl hkey⟩
  · obtain ⟨source, -, -, hrow, -⟩ := stored_of_step (eq_false_of_ne_true hreplay) hstep
    refine ⟨⟨fun hyes ↦ absurd hyes hreplay, ?_⟩, _, hrow, rfl, rfl, rfl,
      Int.toNat_natCast revision, hunique _ hrow rfl rfl⟩
    intro hpressed
    obtain ⟨r, hr, hid, hkey⟩ := exists_row_of_pressed h hpressed
    -- the decision is found again, so nothing can have been scheduled
    obtain ⟨_, -, -, -, hrequest⟩ := Plugin.retryDelivery_eq_ok.mp (retryDelivery_of_step hstep)
    obtain ⟨-, ⟨_, _, _, -, -, -, rfl⟩ | ⟨hnone, hschedule⟩⟩ :=
      Repository.requestManualRetry_eq_ok.mp hrequest
    · exact absurd rfl hreplay
    · obtain ⟨d, hd, -⟩ := Repository.scheduleManualRetry_eq_ok.mp hschedule
      cases hnone.symm.trans (Repository.findRetry_eq_some.mpr ⟨hr, hid, hkey, hd⟩)

end Presses

/-- The button is pressed twice after the first attempt was refused. -/
theorem pressed_iff_twice :
    ∃ ls s s' result, (system Deployment.setting).History ls s ∧
      (system Deployment.setting).Step s (.retryDelivery (some "admin")
        (retryRequest Deployment.delivery.id 3) Deployment.oneHourLater, .retry (.ok result)) s' ∧
      result.idempotentReplay = true ∧ Pressed ls Deployment.delivery.id 3 := by
  obtain ⟨ls, hls, hcommands⟩ := Deployment.exists_history_awaiting
  obtain ⟨ms, s, hms, hcommands', hP⟩ := exists_history_of_execAll
    [.advance 1 (.answered Deployment.refusal), .retryDelivery (some "admin")
      (retryRequest Deployment.delivery.id 3) Deployment.oneHourLater]
    (fun s : System ↦ Deployment.answersRetry s (.retryDelivery (some "admin")
      (retryRequest Deployment.delivery.id 3) Deployment.oneHourLater) true) hls (by decide +kernel)
  obtain ⟨s', result, response, hstep, hresponse, hreplay⟩ := Deployment.exists_answer hP
  have hnone : ∀ c ∈ Deployment.toAwaiting, c.isRetryDelivery = false := by decide
  have howns : OwnsKeys (ls ++ ms) := by
    intro caller request now reply hl revision hkey
    rcases List.mem_append.mp hl with hl | hl
    · cases hnone _ (hcommands _ hl)
    · rcases List.mem_cons.mp (hcommands' _ hl) with heq | hmem
      · cases heq
      · cases List.mem_singleton.mp hmem
        have hsame : 3 = revision := retryKey_inj hkey
        rw [← hsame]
        rfl
  obtain ⟨-, _, -, rfl⟩ := Plugin.adminRetry_eq_ok.mp hresponse
  exact ⟨_, s, s', result, hms, hstep, hreplay, (pressed_iff hms howns hstep).1.mp hreplay⟩

end Console

end NotificationLedger

import NotificationLedger.Replay

/-!
# Whose observation an id stands for

The consumed ids of all sources share one key space: `consumed_events` is keyed by the id alone, and
a caller chooses its ids freely. An observation is independent of the other sources exactly as long
as none of them has used its id; afterwards it is refused as a conflict, although its own source has
never used the id.
-/

namespace NotificationLedger

open Outcome

/-! ## An unconsumed id is never refused as a replay

Every error of a handler other than the one of the id is of another kind or text. The rules for
bounding a failure go through the handlers statement by statement. -/

namespace Events

variable {X : Externals} {L : Ledger} {event : ObservationEnvelope}

/-- The error is not the one that claiming an id fails with. -/
def NotReplayed (e : NotificationError) : Prop := e ≠ replayedWithDifferentContent

instance : DecidablePred NotReplayed := fun e ↦
  inferInstanceAs (Decidable (e ≠ replayedWithDifferentContent))

/-- Errors of every other code. -/
theorem notReplayed_of_code {e : NotificationError} (h : e.code ≠ .conflict) : NotReplayed e :=
  fun heq ↦ h (congrArg NotificationError.code heq)

/-- Errors with another message. -/
theorem notReplayed_of_message {e : NotificationError}
    (h : e.message ≠ "Notification Event id was replayed with different content") :
    NotReplayed e := fun heq ↦ h (congrArg NotificationError.message heq)

theorem notReplayed_mapSqlError : NotReplayed mapSqlError := notReplayed_of_code nofun

theorem notReplayed_revisionExhausted : NotReplayed revisionExhausted :=
  notReplayed_of_message (by simp [revisionExhausted])

theorem raises_bindTexts {texts : List String} : Raises (bindTexts texts) NotReplayed :=
  raises_ensure notReplayed_mapSqlError

theorem raises_updateAttempt {payload : EmailDispatchObserved} {status : AttemptStatus}
    {failureCode : Option String} :
    Raises (updateAttempt L payload status failureCode) NotReplayed :=
  raises_bind raises_bindTexts fun _ ↦ raises_pure

theorem raises_finalizeDelivery {deliveryId reason : String} {revision : ℕ}
    {status : DeliveryStatus} {now : DateTime} :
    Raises (finalizeDelivery L deliveryId revision status reason now) NotReplayed :=
  raises_bind (raises_ensure (notReplayed_of_message (by simp))) fun _ ↦ raises_pure

theorem raises_observeOutcome {payload : EmailDispatchObserved} {d : Delivery} :
    Raises (observeOutcome X L event payload d) NotReplayed := by
  unfold observeOutcome
  cases payload.outcome with
  | accepted =>
    refine raises_bind raises_updateAttempt fun _ ↦ ?_
    refine raises_bind (raises_ensure notReplayed_revisionExhausted) fun _ ↦ ?_
    cases payload.remoteReceipt with
    | none => exact raises_pure
    | some receipt => exact raises_require notReplayed_mapSqlError
  | temporaryFailure =>
    refine raises_bind raises_updateAttempt fun _ ↦ ?_
    dsimp only
    split
    · refine raises_bind (raises_ensure notReplayed_revisionExhausted) fun _ ↦ ?_
      exact raises_require notReplayed_mapSqlError
    · refine raises_bind raises_finalizeDelivery fun _ ↦ ?_
      exact raises_require notReplayed_mapSqlError
  | permanentFailure | deliveryUnknown =>
    exact raises_bind raises_updateAttempt fun _ ↦ raises_finalizeDelivery

theorem raises_observeDispatch {payload : EmailDispatchObserved} :
    Raises (observeDispatch X L event payload) NotReplayed := by
  refine raises_bind raises_bindTexts fun _ ↦ ?_
  refine raises_bind (raises_require (notReplayed_of_code nofun)) fun rows ↦ ?_
  refine raises_bind (raises_ensure (notReplayed_of_message (by simp))) fun _ ↦ ?_
  split
  · split
    · exact raises_bind raises_bindTexts fun _ ↦ raises_pure
    · exact raises_error (notReplayed_of_message (by simp))
  · refine raises_bind (raises_ensure (notReplayed_of_message (by simp))) fun _ ↦ ?_
    refine raises_bind (raises_ensure notReplayed_revisionExhausted) fun _ ↦ ?_
    exact raises_observeOutcome

theorem raises_observeReceipt {payload : EmailReceiptObserved} :
    Raises (observeReceipt X L event payload) NotReplayed := by
  refine raises_bind raises_bindTexts fun _ ↦ ?_
  split
  · exact raises_bind (raises_ensure (notReplayed_of_message (by simp))) fun _ ↦ raises_pure
  · refine raises_bind raises_bindTexts fun _ ↦ ?_
    refine raises_bind (raises_require (notReplayed_of_code nofun)) fun rows ↦ ?_
    refine raises_bind (raises_ensure (notReplayed_of_message (by simp))) fun _ ↦ ?_
    refine raises_bind (raises_ensure (notReplayed_of_message (by simp))) fun _ ↦ ?_
    refine raises_bind (raises_ensure notReplayed_revisionExhausted) fun _ ↦ ?_
    refine raises_bind (raises_require notReplayed_mapSqlError) fun _ ↦ ?_
    unfold settleReceipt
    split
    · exact raises_bind (raises_ensure notReplayed_revisionExhausted) fun _ ↦ raises_pure
    · exact raises_finalizeDelivery

theorem raises_observeLifecycle {payload : OrganizationInvitationLifecycle} :
    Raises (observeLifecycle L event payload) NotReplayed := by
  unfold observeLifecycle
  dsimp only
  refine raises_bind raises_bindTexts fun _ ↦ ?_
  refine raises_bind (raises_ensure notReplayed_revisionExhausted) fun _ ↦ ?_
  exact raises_bind (raises_require notReplayed_mapSqlError) fun _ ↦ raises_pure

/-- Admission fails with validation errors only. -/
theorem raises_observationOf : Raises (observationOf X event) fun e ↦ e.code = .validation := by
  refine raises_bind (raises_ensure rfl) fun _ ↦ ?_
  split
  · refine raises_bind (raises_require rfl) fun payload ↦ ?_
    refine raises_bind (raises_ensure rfl) fun _ ↦ ?_
    refine raises_bind ?_ fun _ ↦ raises_pure
    refine raises_bind (raises_ensure rfl) fun _ ↦ ?_
    refine raises_bind (raises_ensure rfl) fun _ ↦ ?_
    refine raises_bind (raises_ensure rfl) fun _ ↦ ?_
    refine raises_bind (raises_ensure rfl) fun _ ↦ ?_
    cases payload.remoteReceipt with
    | none => exact raises_ensure rfl
    | some receipt =>
      refine raises_bind ?_ fun _ ↦ raises_ensure rfl
      refine raises_bind (raises_ensure rfl) fun _ ↦ ?_
      exact raises_ensure rfl
  · split
    · refine raises_bind (raises_require rfl) fun payload ↦ ?_
      refine raises_bind (raises_ensure rfl) fun _ ↦ ?_
      refine raises_bind ?_ fun _ ↦ raises_pure
      refine raises_bind (raises_ensure rfl) fun _ ↦ ?_
      exact raises_ensure rfl
    · split
      · exact raises_bind (raises_require rfl) fun _ ↦ raises_pure
      · exact raises_error rfl

/-- **Only a consumed id is refused as a replay.** -/
theorem raises_apply (h : L.consumedEvents.get? event.id = none) :
    Raises (apply X L event) NotReplayed := by
  rw [apply_eq]
  refine raises_bind (fun e he ↦ notReplayed_of_code ?_) fun o ↦ ?_
  · rw [raises_observationOf e he]
    exact nofun
  refine raises_bind ?_ ?_
  · refine raises_bind raises_bindTexts fun _ ↦ ?_
    rw [h]
    exact raises_bind (raises_require notReplayed_mapSqlError) fun _ ↦ raises_pure
  · rintro ⟨L', replayed⟩
    cases replayed with
    | true => exact raises_pure
    | false =>
      cases o with
      | dispatch payload => exact raises_observeDispatch
      | receipt payload => exact raises_observeReceipt
      | lifecycle payload => exact raises_observeLifecycle

end Events

/-! ## Recorded observations

A consumed id belongs to a command of the history, by the source it names, and the other way round.
-/

/-- The history `ls` of `s` has applied this observation. -/
def Recorded (S : Setting) (ls : List (Command × Reply)) (s : System)
    (event : ObservationEnvelope) : Prop :=
  ∃ pre l post t t', ls = pre ++ l :: post ∧ (system S).History pre t ∧ (system S).Step t l t' ∧
    (system S).Run t' post s ∧ t.observation? S l.1 = some event ∧
    Events.apply S.externals t.ledger event = .ok t'.ledger

section Recorded

variable {S : Setting} {ls : List (Command × Reply)} {s s' : System} {l : Command × Reply}
  {event : ObservationEnvelope}

theorem Recorded.snoc (h : Recorded S ls s event) (hstep : (system S).Step s l s') :
    Recorded S (ls ++ [l]) s' event := by
  obtain ⟨pre, l', post, t, t', rfl, hpre, hfirst, hpost, hrest⟩ := h
  refine ⟨pre, l', post ++ [l], t, t', ?_, hpre, hfirst, hpost.snoc hstep, hrest⟩
  rw [List.append_assoc, List.cons_append]

/-- A recorded observation was the observation of some command. -/
theorem Recorded.exists_command (h : Recorded S ls s event) :
    ∃ l ∈ ls, ∃ t : System, t.observation? S l.1 = some event := by
  obtain ⟨pre, l, post, t, -, rfl, -, -, -, hevent, -⟩ := h
  exact ⟨l, List.mem_append_right _ List.mem_cons_self, t, hevent⟩

/-- The observation was applied while nobody had used its id. -/
def Consumed (S : Setting) (ls : List (Command × Reply)) (s : System)
    (event : ObservationEnvelope) : Prop :=
  ∃ pre l post t t', ls = pre ++ l :: post ∧ (system S).History pre t ∧ (system S).Step t l t' ∧
    (system S).Run t' post s ∧ t.observation? S l.1 = some event ∧
    Events.apply S.externals t.ledger event = .ok t'.ledger ∧
    t.ledger.consumedEvents.get? event.id = none

theorem Consumed.recorded (h : Consumed S ls s event) : Recorded S ls s event := by
  obtain ⟨pre, l, post, t, t', hls, hpre, hstep, hpost, hevent, happly, -⟩ := h
  exact ⟨pre, l, post, t, t', hls, hpre, hstep, hpost, hevent, happly⟩

theorem Consumed.snoc (h : Consumed S ls s event) (hstep : (system S).Step s l s') :
    Consumed S (ls ++ [l]) s' event := by
  obtain ⟨pre, l', post, t, t', rfl, hpre, hfirst, hpost, hrest⟩ := h
  refine ⟨pre, l', post ++ [l], t, t', ?_, hpre, hfirst, hpost.snoc hstep, hrest⟩
  rw [List.append_assoc, List.cons_append]

/-- Every consumed id was consumed by an observation of the history. -/
theorem exists_consumed (h : (system S).History ls s) :
    ∀ c ∈ s.ledger.consumedEvents.rows, ∃ event, Consumed S ls s event ∧ event.id = c.eventId := by
  refine Lts.History.invariant (S := system S)
    (I := fun ls s ↦ ∀ c ∈ s.ledger.consumedEvents.rows, ∃ event, Consumed S ls s event ∧
      event.id = c.eventId) ?_ ?_ h
  · rintro s rfl c hc
    cases hc
  · intro ls s l s' hls ih hstep c hc
    have hreach : (system S).Reachable s := ⟨ls, hls⟩
    have hkeep : c ∈ s.ledger.consumedEvents.rows → ∃ event, Consumed S (ls ++ [l]) s' event ∧
        event.id = c.eventId := by
      intro hold
      obtain ⟨event, hconsumed, hid⟩ := ih c hold
      exact ⟨event, hconsumed.snoc hstep, hid⟩
    rcases System.ledger_of_stepped (System.holds_of_reachable hreach)
      (System.stepped_of_exec hstep) with hsame | ⟨t, hissues, hrun⟩
    · exact hkeep (hsame ▸ hc)
    by_cases hobserve : ∃ event, t = .observe event
    · obtain ⟨event, rfl⟩ := hobserve
      obtain ⟨o, -, ⟨_, -, -, hsame⟩ | ⟨hfresh, hins⟩⟩ := Events.of_apply hrun
      · exact hkeep (hsame ▸ hc)
      rcases (Table.mem_insert? hins).mp hc with hold | rfl
      · exact hkeep hold
      · exact ⟨event, ⟨ls, l, [], s, s', rfl, hls, hstep, .nil,
          System.observation?_of_issues hissues, hrun, hfresh⟩, rfl⟩
    · have hframe := frame_of_run hrun fun event h ↦ hobserve ⟨event, h⟩
      exact hkeep (hframe.1 ▸ hc)

theorem recorded_of_consumed (h : (system S).History ls s) :
    ∀ c ∈ s.ledger.consumedEvents.rows, ∃ event, Recorded S ls s event ∧ event.id = c.eventId := by
  intro c hc
  obtain ⟨event, hconsumed, hid⟩ := exists_consumed h c hc
  exact ⟨event, hconsumed.recorded, hid⟩

/-- An observation of the history has consumed its id. -/
theorem Recorded.consumed (h : Recorded S ls s event) :
    (∃ c, s.ledger.consumedEvents.get? event.id = some c ∧
      c.eventDigest = Events.eventDigest S.externals event) ∧ storable event.id = true := by
  obtain ⟨pre, l, post, t, t', -, hpre, hstep, hpost, -, happly⟩ := h
  obtain ⟨c, hc, hdigest⟩ := Events.consumed_of_apply happly
  refine ⟨⟨c, ?_, hdigest⟩, Events.storable_of_apply happly⟩
  exact (extends_of_systemRun ⟨_, hpre.snoc hstep⟩ hpost).consumed hc

end Recorded

/-! ## The condition

A ledger is compared with the one in which the id was never consumed. The two differ in the rows
with this id, which only the claim of the id and the lifecycle event under it read. -/

/-- The ledger had no observation used this id. -/
def Ledger.forget (L : Ledger) (observationId : String) : Ledger :=
  { L with
    consumedEvents := L.consumedEvents.remove observationId
    sourceLifecycleEvents := L.sourceLifecycleEvents.remove observationId }

/-- The uses others made of its id do not matter to the observation. -/
structure Scoped (S : Setting) (L : Ledger) (event : ObservationEnvelope) : Prop where
  unaffected : Events.apply S.externals L event =
    Events.apply S.externals (L.forget event.id) event
  notReplayed : Events.apply S.externals L event ≠
    .error Events.replayedWithDifferentContent

section Scoped

variable {S : Setting} {ls : List (Command × Reply)} {s : System} {event : ObservationEnvelope}

/-- An id that nobody has consumed leaves nothing to forget. -/
theorem forget_eq_self {X : Externals} {protector : SnapshotProtector} {L : Ledger} {id : String}
    (h : (transactions X protector).Reachable L) (hfresh : L.consumedEvents.get? id = none) :
    L.forget id = L := by
  have hlifecycle : L.sourceLifecycleEvents.get? id = none := by
    refine Table.get?_eq_none.mpr fun r hr hid ↦ ?_
    have hsome := lifecycle_consumed h r hr
    rw [show r.eventId = id from hid, hfresh] at hsome
    cases hsome
  rw [Ledger.forget, Table.remove_eq_self hfresh, Table.remove_eq_self hlifecycle]

/-- **Scoping.** Let the observation's own source never have used its id. Then the uses of other
sources do not matter to it exactly when there are none, or the envelope is not admitted anyway. -/
theorem scoped_iff (h : (system S).History ls s)
    (hunused : ∀ e, Recorded S ls s e → e.id = event.id → e.sourceModule ≠ event.sourceModule)
    (hfree : CollisionFree S.externals
      {v | ∃ e, (e = event ∨ Recorded S ls s e) ∧ v = Events.digestInput e}) :
    Scoped S s.ledger event ↔ ((∃ o, Events.observationOf S.externals event = .ok o) →
      ∀ e, Recorded S ls s e → e.id ≠ event.id) := by
  constructor
  · rintro ⟨-, hnot⟩ ⟨o, ho⟩ e he hid
    obtain ⟨⟨c, hc, hdigest⟩, hstorable⟩ := he.consumed
    rw [hid] at hc hstorable
    rw [Events.apply_of_consumed ho hc hstorable] at hnot
    refine hnot (if_neg fun heq ↦ hunused e he hid ?_)
    have hinput := hfree.eq_of_digestText S.externals ⟨e, Or.inr he, rfl⟩ ⟨event, Or.inl rfl, rfl⟩
      (hdigest.symm.trans heq)
    exact congrArg (fun c ↦ c.2.1) (content_eq_of_digestInput hinput)
  · intro hcond
    by_cases hadmitted : ∃ o, Events.observationOf S.externals event = .ok o
    · have hfresh : s.ledger.consumedEvents.get? event.id = none := by
        refine Table.get?_eq_none.mpr fun c hc hid ↦ ?_
        obtain ⟨e, he, heid⟩ := recorded_of_consumed h c hc
        exact hcond hadmitted e he (heid.trans hid)
      refine ⟨?_, fun herror ↦ Events.raises_apply hfresh _ herror rfl⟩
      rw [forget_eq_self (reachable_ledger ⟨ls, h⟩) hfresh]
    · have hrefused : ∃ e, Events.observationOf S.externals event = .error e := by
        cases ho : Events.observationOf S.externals event with
        | error e => exact ⟨e, rfl⟩
        | ok o => exact absurd ⟨o, ho⟩ hadmitted
      obtain ⟨e, he⟩ := hrefused
      have happly : ∀ L, Events.apply S.externals L event = .error e := by
        intro L
        rw [Events.apply_eq, he]
        rfl
      refine ⟨(happly _).trans (happly _).symm, ?_⟩
      rw [happly]
      intro heq
      have hcode := Events.raises_observationOf e he
      rw [Except.error.inj heq] at hcode
      cases hcode

end Scoped

/-! ## Two callers -/

/-- A command that records nothing has no observation. -/
theorem System.observation?_eq_none {S : Setting} {s : System} {command : Command}
    (h : command.observes = false) : s.observation? S command = none := by
  cases command with
  | observeReceipt | observeInvitationLifecycle => cases h
  | advance call input =>
    cases input with
    | answered result => cases h
    | _ => rfl
  | _ => rfl

/-- Observations that are all the same cannot collide. -/
theorem collisionFree_of_forall_eq {X : Externals} {P : ObservationEnvelope → Prop}
    {event : ObservationEnvelope} (h : ∀ e, P e → e = event) :
    CollisionFree X {v | ∃ e, P e ∧ v = Events.digestInput e} := by
  have hone : {v | ∃ e, P e ∧ v = Events.digestInput e}.Subsingleton := by
    rintro _ ⟨e, he, rfl⟩ _ ⟨e', he', rfl⟩
    rw [h e he, h e' he']
  exact ⟨hone.injOn _, (hone.image _).injOn _⟩

/-- Nobody has observed anything yet. -/
theorem Deployment.exists_history_unrecorded :
    ∃ ls, (system setting).History ls awaiting ∧ ∀ e, ¬Recorded setting ls awaiting e := by
  obtain ⟨ls, hls, hcommands⟩ := exists_history_awaiting
  have hobserves : ∀ c ∈ toAwaiting, c.observes = false := by decide
  refine ⟨ls, hls, fun e he ↦ ?_⟩
  obtain ⟨l, hl, t, hobservation⟩ := he.exists_command
  rw [System.observation?_eq_none (hobserves l.1 (hcommands l hl))] at hobservation
  cases hobservation

/-- The first receipt of the mail service stands for itself. -/
theorem scoped_awaiting :
    ∃ event, Deployment.awaiting.observation? Deployment.setting Deployment.observeDelivered =
        some event ∧ Scoped Deployment.setting Deployment.awaiting.ledger event := by
  obtain ⟨ls, hls, hnone⟩ := Deployment.exists_history_unrecorded
  have hsome : (Deployment.awaiting.observation? Deployment.setting
      Deployment.observeDelivered).isSome := by decide
  obtain ⟨event, hevent⟩ := Option.isSome_iff_exists.mp hsome
  refine ⟨event, hevent, (scoped_iff hls ?_ ?_).mpr fun _ e he ↦ absurd he (hnone e)⟩
  · exact fun e he ↦ absurd he (hnone e)
  · exact collisionFree_of_forall_eq fun e he ↦ he.resolve_right (hnone e)

/-- The organization revokes the invitation under an id that the mail service then uses for its
receipt, for the first time. -/
theorem not_scoped_after_revocation :
    ∃ ls s event, (system Deployment.setting).History ls s ∧
      s.observation? Deployment.setting Deployment.observeDelivered = some event ∧
      (∀ e, Recorded Deployment.setting ls s e → e.id = event.id →
        e.sourceModule ≠ event.sourceModule) ∧
      ¬Scoped Deployment.setting s.ledger event := by
  obtain ⟨ls, hls, hcommands⟩ := Deployment.exists_history_awaiting
  obtain ⟨ms, s, hms, hlast, hrefused⟩ := exists_history_of_execAll
    [Deployment.observeRevoked "r1"]
    (fun s : System ↦ (s.observation? Deployment.setting Deployment.observeDelivered).any
      fun event : ObservationEnvelope ↦
        decide (event.sourceModule = "mail") &&
          failsWith (Events.apply Deployment.setting.externals s.ledger event)
            Events.replayedWithDifferentContent)
    hls (by decide +kernel)
  obtain ⟨event, hevent, hrefused⟩ := (Option.any_eq_true _ _).mp hrefused
  rw [Bool.and_eq_true, decide_eq_true_eq] at hrefused
  obtain ⟨hsource, hrefused⟩ := hrefused
  refine ⟨_, s, event, hms, hevent, ?_, ?_⟩
  · intro e he _
    obtain ⟨l, hl, t, hobservation⟩ := he.exists_command
    have hobserves : ∀ c ∈ Deployment.toAwaiting, c.observes = false := by decide
    rcases List.mem_append.mp hl with hl | hl
    · rw [System.observation?_eq_none (hobserves l.1 (hcommands l hl))] at hobservation
      cases hobservation
    · rw [List.mem_singleton.mp (hlast l hl)] at hobservation
      -- the only observation so far is the organization's
      have hother : ((Plugin.lifecycleEnvelope Deployment.setting (some "org") {
          observationId := "r1"
          organizationId := "o1"
          invitationId := "i1"
          lifecycle := .revoked
          observedAt := "2026-01-01T00:00:00Z" }).toOption.all
            fun e : ObservationEnvelope ↦ decide (e.sourceModule ≠ "mail")) = true := by
        decide
      rw [hsource]
      exact of_decide_eq_true ((Option.all_eq_true _ _).mp hother e hobservation)
  · rintro ⟨-, hnot⟩
    exact hnot (failsWith_iff.mp hrefused)

end NotificationLedger

import NotificationLedger.System

/-!
# Every step is a transaction or none

What a step of the system can do, said once: `Call.Advance` lists the branches of a call's step, and
`System.of_exec` reads off which transaction a command commits. The only thing a call has to
remember correctly for this is the row it selected (`Holds`); the row lock keeps it current.

It follows that the ledger of a reachable system is reachable by transactions, so every result about
transactions holds at every moment of every interleaving.

## Two views of a step

`Call.Advance` has a constructor for each branch a call can take, with the equation of the
transaction it ran; `System.Stepped` has one for each kind of command. A proof about histories
splits on these and never unfolds `exec`. The proofs that look at the ledger alone go one level
further down, to the transaction system.
-/

namespace NotificationLedger

open Outcome Public

namespace Call

/-- The branches of one step of a call. -/
inductive Advance (S : Setting) (L : Ledger) (calls : List Call) :
    Call → Input → Ledger → Call → Reply → Prop
  | replayFailed {request : IntentRequest} {now : DateTime} {e : NotificationError}
      (h : findReplay S.externals L request now = .error e) :
      Advance S L calls (.create request now .reading) .proceed L .returned
        (.created request (.error (Plugin.mapCreateError e)))
  | replayed {request : IntentRequest} {now : DateTime} {receipt : TransactionalIntentReceipt}
      (h : findReplay S.externals L request now = .ok (some receipt)) :
      Advance S L calls (.create request now .reading) .proceed L .returned
        (.created request (.ok { receipt.response with idempotentReplay := true }))
  | unknown {request : IntentRequest} {now : DateTime}
      (h : findReplay S.externals L request now = .ok none) :
      Advance S L calls (.create request now .reading) .proceed L
        (.create request now .rendering) .pending
  | renderFailed {request : IntentRequest} {now : DateTime} {failure : RuntimeFailure} :
      Advance S L calls (.create request now .rendering) (.rendered (.error failure)) L .returned
        (.created request (.error (.runtime failure)))
  | renderRefused {request : IntentRequest} {now : DateTime} {rendered : RenderedTemplate}
      {e : NotificationError} (h : prepareIntent S.externals request rendered now = .error e) :
      Advance S L calls (.create request now .rendering) (.rendered (.ok rendered)) L .returned
        (.created request (.error (Plugin.mapCreateError e)))
  | prepared {request : IntentRequest} {now : DateTime} {rendered : RenderedTemplate}
      {intent : IntentPersistence}
      (h : prepareIntent S.externals request rendered now = .ok intent) :
      Advance S L calls (.create request now .rendering) (.rendered (.ok rendered)) L
        (.create request now (.prepared intent)) .pending
  | locked {request : IntentRequest} {now : DateTime} {intent : IntentPersistence}
      (h : lockText intent.source.moduleId intent.idempotencyKey ∉ calls.filterMap lockText?) :
      Advance S L calls (.create request now (.prepared intent)) .proceed L
        (.create request now (.locked intent)) .pending
  | recheckFailed {request : IntentRequest} {now : DateTime} {intent : IntentPersistence}
      {e : NotificationError} (h : recheckIntent L intent = .error e) :
      Advance S L calls (.create request now (.locked intent)) .proceed L .returned
        (.created request (.error (Plugin.mapCreateError e)))
  | rechecked {request : IntentRequest} {now : DateTime} {intent : IntentPersistence}
      {receipt : TransactionalIntentReceipt} (h : recheckIntent L intent = .ok (some receipt)) :
      Advance S L calls (.create request now (.locked intent)) .proceed L .returned
        (.created request (.ok receipt.response))
  | absent {request : IntentRequest} {now : DateTime} {intent : IntentPersistence}
      (h : recheckIntent L intent = .ok none) :
      Advance S L calls (.create request now (.locked intent)) .proceed L
        (.create request now (.writing intent)) .pending
  | writeFailed {request : IntentRequest} {now : DateTime} {intent : IntentPersistence}
      {nonces : Nonces} {e : NotificationError}
      (h : writeIntent S.externals S.protector L intent nonces now = .error e) :
      Advance S L calls (.create request now (.writing intent)) (.nonces nonces) L .returned
        (.created request (.error (Plugin.mapCreateError e)))
  | written {request : IntentRequest} {now : DateTime} {intent : IntentPersistence}
      {nonces : Nonces} {L' : Ledger} {receipt : TransactionalIntentReceipt}
      (h : writeIntent S.externals S.protector L intent nonces now = .ok (L', receipt)) :
      Advance S L calls (.create request now (.writing intent)) (.nonces nonces) L' .returned
        (.created request (.ok receipt.response))
  | nothingDue {now : DateTime}
      (h : Runtime.selectDue L (fun id ↦ decide (id ∈ calls.filterMap rowLock?)) now = none) :
      Advance S L calls (.dispatch now .selecting) .proceed L .returned
        (.dispatchRefused (.domain .noDeliveryDue))
  | selected {now : DateTime} {row : Runtime.DueRow}
      (h : Runtime.selectDue L (fun id ↦ decide (id ∈ calls.filterMap rowLock?)) now =
        some row) :
      Advance S L calls (.dispatch now .selecting) .proceed L (.dispatch now (.selected row))
        .pending
  | claimFailed {now : DateTime} {row : Runtime.DueRow} {e : NotificationError}
      (h : Runtime.claimRow S.externals S.protector L row now = .error e) :
      Advance S L calls (.dispatch now (.selected row)) .proceed L .returned
        (.dispatchRefused (.runtime (Plugin.runtime e)))
  | claimed {now : DateTime} {row : Runtime.DueRow} {L' : Ledger} {work : DispatchWork}
      (h : Runtime.claimRow S.externals S.protector L row now = .ok (L', work)) :
      Advance S L calls (.dispatch now (.selected row)) .proceed L'
        (.dispatch now (.claimed work)) (.claimed work)
  | handedOver {now : DateTime} {work : DispatchWork} :
      Advance S L calls (.dispatch now (.claimed work)) .proceed L
        (.dispatch now (.awaiting work)) (.handedOver work.request)
  | lost {now : DateTime} {work : DispatchWork} {result : Plugin.DispatchResult}
      {e : NotificationError}
      (h : Plugin.applyDispatch S L work.claim (Plugin.observedOf S work.claim now result) =
        .error e) :
      Advance S L calls (.dispatch now (.awaiting work)) (.answered result) L .returned
        (.dispatched work.claim (.error (.runtime (Plugin.runtime e))))
  | recorded {now : DateTime} {work : DispatchWork} {result : Plugin.DispatchResult}
      {L' : Ledger}
      (h : Plugin.applyDispatch S L work.claim (Plugin.observedOf S work.claim now result) =
        .ok L') :
      Advance S L calls (.dispatch now (.awaiting work)) (.answered result) L' .returned
        (.dispatched work.claim (Plugin.dispatchReply S work.claim result))

variable {S : Setting} {L L' : Ledger} {calls : List Call} {c c' : Call} {input : Input}
  {reply : Reply}

private theorem advance_of_stepCreate {request : IntentRequest} {now : DateTime}
    {phase : CreatePhase}
    (h : stepCreate S L (calls.filterMap lockText?) request now phase input =
      some (L', c', reply)) :
    Advance S L calls (.create request now phase) input L' c' reply := by
  unfold stepCreate at h
  split at h
  · split at h <;> cases h
    · exact .replayFailed ‹_›
    · exact .replayed ‹_›
    · exact .unknown ‹_›
  · cases h
    exact .renderFailed
  · split at h <;> cases h
    · exact .renderRefused ‹_›
    · exact .prepared ‹_›
  · split at h
    · cases h
    · cases h
      exact .locked ‹_›
  · split at h <;> cases h
    · exact .recheckFailed ‹_›
    · exact .rechecked ‹_›
    · exact .absent ‹_›
  · split at h <;> cases h
    · exact .writeFailed ‹_›
    · exact .written ‹_›
  · cases h

private theorem advance_of_stepDispatch {now : DateTime} {phase : DispatchPhase}
    (h : stepDispatch S L (calls.filterMap rowLock?) now phase input = some (L', c', reply)) :
    Advance S L calls (.dispatch now phase) input L' c' reply := by
  unfold stepDispatch at h
  split at h
  · split at h <;> cases h
    · exact .nothingDue ‹_›
    · exact .selected ‹_›
  · split at h <;> cases h
    · exact .claimFailed ‹_›
    · exact .claimed ‹_›
  · cases h
    exact .handedOver
  · split at h <;> cases h
    · exact .lost ‹_›
    · exact .recorded ‹_›
  · cases h

theorem advance_of_step (h : c.step S L calls input = some (L', c', reply)) :
    Advance S L calls c input L' c' reply := by
  cases c with
  | create request now phase => exact advance_of_stepCreate h
  | dispatch now phase => exact advance_of_stepDispatch h
  | returned => cases h

end Call

namespace System

/-- What a command does. -/
inductive Stepped (S : Setting) (s : System) : Command → System → Reply → Prop
  | createRefused {caller : Option String} {request : CreateRequest} {now : DateTime}
      {e : PluginError CreateError} (h : Plugin.intentRequestOf S caller request now = .error e) :
      Stepped S s (.create caller request now) s (.createRefused e)
  | createStarted {caller : Option String} {request : CreateRequest} {now : DateTime}
      {intent : IntentRequest} (h : Plugin.intentRequestOf S caller request now = .ok intent) :
      Stepped S s (.create caller request now)
        { s with calls := s.calls ++ [.create intent now .reading] } .pending
  | dispatchRefused {caller : Option String} {now : DateTime} :
      Stepped S s (.dispatchDue caller now) s (.dispatchRefused (.domain .unauthorized))
  | dispatchStarted {caller : Option String} {now : DateTime} :
      Stepped S s (.dispatchDue caller now)
        { s with calls := s.calls ++ [.dispatch now .selecting] } .pending
  | receiptRefused {caller : Option String} {request : ObserveReceiptRequest}
      {e : PluginError ObserveReceiptError}
      (h : Plugin.observeReceipt S s.ledger caller request = .error e) :
      Stepped S s (.observeReceipt caller request) s (.receipt (.error e))
  | receiptRecorded {caller : Option String} {request : ObserveReceiptRequest}
      {envelope : ObservationEnvelope} {L : Ledger}
      (henvelope : Plugin.receiptEnvelope S caller request = .ok envelope)
      (h : Events.apply S.externals s.ledger envelope = .ok L)
      (hlocks : ∀ id ∈ s.calls.filterMap Call.rowLock?,
        L.deliveries.get? id = s.ledger.deliveries.get? id) :
      Stepped S s (.observeReceipt caller request) { s with ledger := L } (.receipt (.ok ()))
  | lifecycleRefused {caller : Option String} {request : ObserveInvitationLifecycleRequest}
      {e : PluginError ObserveInvitationLifecycleError}
      (h : Plugin.observeInvitationLifecycle S s.ledger caller request = .error e) :
      Stepped S s (.observeInvitationLifecycle caller request) s (.lifecycle (.error e))
  | lifecycleRecorded {caller : Option String} {request : ObserveInvitationLifecycleRequest}
      {envelope : ObservationEnvelope} {L : Ledger}
      (henvelope : Plugin.lifecycleEnvelope S caller request = .ok envelope)
      (h : Events.apply S.externals s.ledger envelope = .ok L)
      (hlocks : ∀ id ∈ s.calls.filterMap Call.rowLock?,
        L.deliveries.get? id = s.ledger.deliveries.get? id) :
      Stepped S s (.observeInvitationLifecycle caller request) { s with ledger := L }
        (.lifecycle (.ok ()))
  | retryRefused {caller : Option String} {request : RetryDeliveryRequest} {now : DateTime}
      {e : PluginError RetryDeliveryError}
      (h : Plugin.retryDelivery S s.ledger caller request now = .error e) :
      Stepped S s (.retryDelivery caller request now) s (.retry (.error e))
  | retryScheduled {caller : Option String} {requestedBy : String}
      {request : RetryDeliveryRequest} {now : DateTime} {L : Ledger} {result : RetryResult}
      (hcaller : authorizedCaller caller S.config.adminCallers = some requestedBy)
      (h : Repository.requestManualRetry S.externals s.ledger request.deliveryId
        request.revision.toNat request.idempotencyKey requestedBy now = .ok (L, result))
      (hlocks : ∀ id ∈ s.calls.filterMap Call.rowLock?,
        L.deliveries.get? id = s.ledger.deliveries.get? id) :
      Stepped S s (.retryDelivery caller request now) { s with ledger := L } (.retry (.ok result))
  | advanced {i : ℕ} {input : Input} {c c' : Call} {L : Ledger} {reply : Reply}
      (hc : s.calls[i]? = some c) (h : Call.Advance S s.ledger s.calls c input L c' reply)
      (hlocks : ∀ id ∈ (s.calls.set i c').filterMap Call.rowLock?,
        L.deliveries.get? id = s.ledger.deliveries.get? id) :
      Stepped S s (.advance i input) { ledger := L, calls := s.calls.set i c' } reply
  | abandoned {i : ℕ} {c : Call} (hc : s.calls[i]? = some c) :
      Stepped S s (.abandon i) { s with calls := s.calls.set i .returned } .pending

variable {S : Setting} {s s' : System} {command : Command} {reply : Reply}

private theorem of_commit {calls : List Call} {L : Ledger} (h : s.commit calls L = some s') :
    s' = { ledger := L, calls } ∧ ∀ id ∈ calls.filterMap Call.rowLock?,
      L.deliveries.get? id = s.ledger.deliveries.get? id := by
  unfold commit at h
  split at h
  · next hlocks =>
    rw [Option.some_inj] at h
    exact ⟨h.symm, hlocks⟩
  · cases h

private theorem of_once {ε α : Type} {locks : List String} {outcome : Except ε (Ledger × α)}
    {answer : Except ε α → Reply} (h : s.once locks outcome answer = some (s', reply)) :
    (∃ e, outcome = .error e ∧ s' = s ∧ reply = answer (.error e)) ∨
      ∃ L a, outcome = .ok (L, a) ∧ s' = { s with ledger := L } ∧ reply = answer (.ok a) ∧
        ∀ id ∈ s.calls.filterMap Call.rowLock?,
          L.deliveries.get? id = s.ledger.deliveries.get? id := by
  unfold once at h
  split at h
  swap
  · cases h
  split at h
  · next e =>
    cases h
    exact Or.inl ⟨e, rfl, rfl, rfl⟩
  · next L a =>
    obtain ⟨t, hcommit, heq⟩ := Option.map_eq_some_iff.mp h
    obtain ⟨rfl, hlocks⟩ := of_commit hcommit
    cases heq
    exact Or.inr ⟨L, a, rfl, rfl, rfl, hlocks⟩

private theorem pair_eq_error {ε α : Type} {m : Except ε α} {e : ε}
    (h : ((·, ()) <$> m) = .error e) : m = .error e := by
  cases m with
  | error e' => exact congrArg Except.error (Except.error.inj h)
  | ok a => cases h

private theorem pair_eq_ok {ε α : Type} {m : Except ε α} {p : α × Unit}
    (h : ((·, ()) <$> m) = .ok p) : m = .ok p.1 := by
  cases m with
  | error e => cases h
  | ok a =>
    cases h
    rfl

/-- **Inversion.** -/
theorem stepped_of_exec (h : s.exec S command = some (s', reply)) :
    Stepped S s command s' reply := by
  cases command with
  | create caller request now =>
    simp only [exec] at h
    split at h <;> cases h
    · exact .createRefused ‹_›
    · exact .createStarted ‹_›
  | dispatchDue caller now =>
    simp only [exec] at h
    split at h <;> cases h
    · exact .dispatchRefused
    · exact .dispatchStarted
  | observeReceipt caller request =>
    rcases of_once h with ⟨e, he, rfl, rfl⟩ | ⟨L, a, hok, rfl, rfl, hlocks⟩
    · exact .receiptRefused (pair_eq_error he)
    · have hobserved := pair_eq_ok hok
      rw [Plugin.observeReceipt] at hobserved
      obtain ⟨envelope, henvelope, happly⟩ := bind_eq_ok.mp hobserved
      exact .receiptRecorded henvelope (mapError_eq_ok.mp happly) hlocks
  | observeInvitationLifecycle caller request =>
    rcases of_once h with ⟨e, he, rfl, rfl⟩ | ⟨L, a, hok, rfl, rfl, hlocks⟩
    · exact .lifecycleRefused (pair_eq_error he)
    · have hobserved := pair_eq_ok hok
      rw [Plugin.observeInvitationLifecycle] at hobserved
      obtain ⟨envelope, henvelope, happly⟩ := bind_eq_ok.mp hobserved
      exact .lifecycleRecorded henvelope (mapError_eq_ok.mp happly) hlocks
  | retryDelivery caller request now =>
    rcases of_once h with ⟨e, he, rfl, rfl⟩ | ⟨L, a, hok, rfl, rfl, hlocks⟩
    · exact .retryRefused he
    · rw [Plugin.retryDelivery] at hok
      obtain ⟨requestedBy, hcaller, hok⟩ := bind_eq_ok.mp hok
      obtain ⟨-, hok⟩ := ensure_bind_eq_ok.mp hok
      obtain ⟨-, hok⟩ := ensure_bind_eq_ok.mp hok
      exact .retryScheduled (require_eq_ok.mp hcaller) (mapError_eq_ok.mp hok) hlocks
  | advance i input =>
    simp only [exec, bind, Option.bind_eq_some_iff, pure, Option.some_inj, Prod.exists,
      Prod.mk.injEq] at h
    obtain ⟨c, hc, L, c', reply', hstep, t, hcommit, rfl, rfl⟩ := h
    obtain ⟨rfl, hlocks⟩ := of_commit hcommit
    exact .advanced hc (Call.advance_of_step hstep) hlocks
  | abandon i =>
    simp only [exec, bind, Option.bind_eq_some_iff, pure, Option.some_inj, Prod.mk.injEq] at h
    obtain ⟨c, hc, rfl, rfl⟩ := h
    exact .abandoned hc

/-! ## The transaction of a command

Which transaction a step commits, if any, with the values it commits. A claim needs that the row it
selected is still what it was; this is the one invariant in this section, and row locks are what
keeps it. -/

/-- The transactions a command may commit, and what it then shows. -/
inductive Issues (S : Setting) (s : System) : Command → Reply → Transaction → Prop
  | write {i : ℕ} {request : IntentRequest} {now : DateTime} {intent : IntentPersistence}
      {nonces : Nonces} {receipt : TransactionalIntentReceipt}
      (hc : s.calls[i]? = some (.create request now (.writing intent))) :
      Issues S s (.advance i (.nonces nonces)) (.created request (.ok receipt.response))
        (.create intent nonces now)
  | claim {i : ℕ} {now : DateTime} {row : Runtime.DueRow} {work : DispatchWork}
      (hc : s.calls[i]? = some (.dispatch now (.selected row))) :
      Issues S s (.advance i .proceed) (.claimed work)
        (.claim (fun id ↦ decide (id ≠ row.delivery.id)) now)
  | answer {i : ℕ} {now : DateTime} {work : DispatchWork} {result : Plugin.DispatchResult}
      (hc : s.calls[i]? = some (.dispatch now (.awaiting work))) :
      Issues S s (.advance i (.answered result))
        (.dispatched work.claim (Plugin.dispatchReply S work.claim result))
        (.observe
          (Plugin.dispatchEnvelope S work.claim (Plugin.observedOf S work.claim now result)))
  | receipt {caller : Option String} {request : ObserveReceiptRequest}
      {envelope : ObservationEnvelope}
      (henvelope : Plugin.receiptEnvelope S caller request = .ok envelope) :
      Issues S s (.observeReceipt caller request) (.receipt (.ok ())) (.observe envelope)
  | lifecycle {caller : Option String} {request : ObserveInvitationLifecycleRequest}
      {envelope : ObservationEnvelope}
      (henvelope : Plugin.lifecycleEnvelope S caller request = .ok envelope) :
      Issues S s (.observeInvitationLifecycle caller request) (.lifecycle (.ok ()))
        (.observe envelope)
  | retry {caller : Option String} {requestedBy : String} {request : RetryDeliveryRequest}
      {now : DateTime} {result : RetryResult}
      (hcaller : authorizedCaller caller S.config.adminCallers = some requestedBy) :
      Issues S s (.retryDelivery caller request now) (.retry (.ok result))
        (.retry request.deliveryId request.revision.toNat request.idempotencyKey requestedBy now)

/-- What a call remembers of the row it selected is still so. -/
def Holds (s : System) : Prop :=
  ∀ now row, Call.dispatch now (.selected row) ∈ s.calls →
    s.ledger.deliveries.get? row.delivery.id = some row.delivery ∧
      Runtime.isDue now row.delivery = true ∧ Runtime.join s.ledger row.delivery = some row

/-- Claiming a selected row is the claim transaction that sees all other rows locked. -/
theorem Holds.run_claim (hholds : s.Holds) {now : DateTime} {row : Runtime.DueRow} {L : Ledger}
    {work : DispatchWork} (hmem : Call.dispatch now (.selected row) ∈ s.calls)
    (h : Runtime.claimRow S.externals S.protector s.ledger row now = .ok (L, work)) :
    (Transaction.claim (fun id ↦ decide (id ≠ row.delivery.id)) now).run S.externals S.protector
      s.ledger = .ok L := by
  obtain ⟨hget, hdue, hjoin⟩ := hholds _ _ hmem
  have hselect := Runtime.selectDue_eq_some (Table.get?_eq_some.mp hget).1 hdue hjoin
    fun _ ↦ rfl
  simp only [Transaction.run, Runtime.claimOneDue]
  rw [hselect]
  simp only
  rw [h]
  rfl

/-- **The step lemma.** A command leaves the ledger alone or commits one transaction. -/
theorem ledger_of_stepped (hholds : s.Holds) (h : Stepped S s command s' reply) :
    s'.ledger = s.ledger ∨ ∃ t, Issues S s command reply t ∧
      t.run S.externals S.protector s.ledger = .ok s'.ledger := by
  cases h with
  | createRefused | createStarted | dispatchRefused | dispatchStarted | receiptRefused
  | lifecycleRefused | retryRefused | abandoned => exact Or.inl rfl
  | receiptRecorded henvelope h => exact Or.inr ⟨_, .receipt henvelope, h⟩
  | lifecycleRecorded henvelope h => exact Or.inr ⟨_, .lifecycle henvelope, h⟩
  | retryScheduled hcaller h =>
    exact Or.inr ⟨_, .retry hcaller, fst_map_eq_ok.mpr ⟨_, h⟩⟩
  | advanced hc h =>
    cases h with
    | replayFailed | replayed | unknown | renderFailed | renderRefused | prepared | locked
    | recheckFailed | rechecked | absent | writeFailed | nothingDue | selected | claimFailed
    | handedOver | lost => exact Or.inl rfl
    | written h =>
      exact Or.inr ⟨_, .write hc, fst_map_eq_ok.mpr ⟨_, persistIntent_of_writeIntent h⟩⟩
    | claimed h => exact Or.inr ⟨_, .claim hc, hholds.run_claim (List.mem_of_getElem? hc) h⟩
    | recorded h => exact Or.inr ⟨_, .answer hc, h⟩

/-- No step changes a row that is still locked after it. -/
theorem locked_of_stepped (h : Stepped S s command s' reply) :
    ∀ id ∈ s'.calls.filterMap Call.rowLock?,
      s'.ledger.deliveries.get? id = s.ledger.deliveries.get? id := by
  cases h with
  | createRefused | createStarted | dispatchRefused | dispatchStarted | receiptRefused
  | lifecycleRefused | retryRefused | abandoned => exact fun _ _ ↦ rfl
  | receiptRecorded _ _ hlocks => exact hlocks
  | lifecycleRecorded _ _ hlocks => exact hlocks
  | retryScheduled _ _ hlocks => exact hlocks
  | advanced _ _ hlocks => exact hlocks

/-- A call that has selected a row either had selected it before or selects it now. -/
theorem selected_of_stepped (h : Stepped S s command s' reply) {now : DateTime}
    {row : Runtime.DueRow} (hmem : Call.dispatch now (.selected row) ∈ s'.calls) :
    Call.dispatch now (.selected row) ∈ s.calls ∨ (s'.ledger = s.ledger ∧
      ∃ locked, Runtime.selectDue s.ledger locked now = some row) := by
  cases h with
  | createRefused | dispatchRefused | receiptRefused | lifecycleRefused | retryRefused
  | receiptRecorded | lifecycleRecorded | retryScheduled => exact Or.inl hmem
  | createStarted | dispatchStarted =>
    rcases List.mem_append.mp hmem with hmem | hmem
    · exact Or.inl hmem
    · rw [List.mem_singleton] at hmem
      cases hmem
  | abandoned =>
    rcases List.mem_or_eq_of_mem_set hmem with hmem | hmem
    · exact Or.inl hmem
    · cases hmem
  | advanced _ h =>
    rcases List.mem_or_eq_of_mem_set hmem with hmem | rfl
    · exact Or.inl hmem
    · cases h with
      | selected h => exact Or.inr ⟨rfl, _, h⟩

theorem Holds.step (hholds : s.Holds) (h : Stepped S s command s' reply) : s'.Holds := by
  intro now row hmem
  rcases selected_of_stepped h hmem with hold | ⟨hledger, locked, hselect⟩
  · obtain ⟨hget, hdue, hjoin⟩ := hholds now row hold
    have hlock : row.delivery.id ∈ s'.calls.filterMap Call.rowLock? :=
      List.mem_filterMap.mpr ⟨_, hmem, rfl⟩
    refine ⟨(locked_of_stepped h _ hlock).trans hget, hdue, ?_⟩
    rcases ledger_of_stepped hholds h with hledger | ⟨t, -, hrun⟩
    · rw [hledger]
      exact hjoin
    · exact (Transaction.extends hrun).join hjoin
  · obtain ⟨hrow, hdue, -, hjoin⟩ := Runtime.of_selectDue hselect
    rw [hledger]
    exact ⟨Table.get?_of_mem hrow, hdue, hjoin⟩

theorem holds_of_reachable (h : (system S).Reachable s) : s.Holds := by
  refine Lts.Reachable.invariant (S := system S) (I := Holds) ?_ ?_ h
  · rintro s rfl now row hmem
    cases hmem
  · intro s l s' _ hholds hstep
    exact hholds.step (stepped_of_exec hstep)

end System

/-! ## The simulation

A step of the system maps to one step of the transaction system or to none. Everything proved about
transactions, courses and growing ledgers is brought over here. -/

variable {S : Setting} {s s' : System}

/-- Transactions simulate the system. -/
theorem system_simulation (S : Setting) :
    Lts.Simulation (system S) (transactions S.externals S.protector) fun s L ↦ s.ledger = L where
  start := by
    rintro s rfl
    exact ⟨Ledger.empty, rfl, rfl⟩
  step := by
    rintro s ⟨command, reply⟩ s' L hreach rfl hstep
    rcases System.ledger_of_stepped (System.holds_of_reachable hreach)
      (System.stepped_of_exec hstep) with hsame | ⟨t, -, hrun⟩
    · exact Or.inl hsame
    · exact Or.inr ⟨t, _, hrun, rfl⟩

/-- **The ledger of a reachable system is reachable by transactions.** -/
theorem reachable_ledger (h : (system S).Reachable s) :
    (transactions S.externals S.protector).Reachable s.ledger := by
  obtain ⟨L, hL, rfl⟩ := (system_simulation S).reachable h
  exact hL

/-- A step of a call that leaves the ledger alone is always taken. -/
theorem step_of_unchanged {n : ℕ} {c c' : Call} {input : Input} {reply : Reply}
    (hc : s.calls[n]? = some c)
    (h : c.step S s.ledger s.calls input = some (s.ledger, c', reply)) :
    (system S).Step s (.advance n input, reply) { s with calls := s.calls.set n c' } := by
  have hcommit : s.commit (s.calls.set n c') s.ledger =
      some { s with calls := s.calls.set n c' } := by
    rw [System.commit, if_pos fun _ _ ↦ rfl]
  change s.exec S (.advance n input) = some (_, _)
  simp only [System.exec, hc, h, bind, Option.bind_some, hcommit, pure]

/-- A step leaves a course alone or shows one event of it. -/
theorem course_of_step (deliveryId : String) (h : (system S).Reachable s)
    {l : Command × Reply} (hstep : (system S).Step s l s') :
    s'.ledger.course deliveryId = s.ledger.course deliveryId ∨
      ∃ t e, System.Issues S s l.1 l.2 t ∧ t.Shows S.externals s.ledger e ∧
        Course.MachineStep S.externals (s.ledger.course deliveryId) e
          (s'.ledger.course deliveryId) := by
  rcases System.ledger_of_stepped (System.holds_of_reachable h)
    (System.stepped_of_exec hstep) with hsame | ⟨t, hissues, hrun⟩
  · exact Or.inl (congrArg (Ledger.course · deliveryId) hsame)
  · refine (course_step deliveryId (linked_of_reachable (reachable_ledger h)) hrun).imp_right ?_
    exact fun ⟨e, hshows, hmachine⟩ ↦ ⟨t, e, hissues, hshows, hmachine⟩

/-- A step extends the ledger. -/
theorem extends_of_step (h : (system S).Reachable s) {l : Command × Reply}
    (hstep : (system S).Step s l s') : s.ledger.Extends s'.ledger := by
  rcases System.ledger_of_stepped (System.holds_of_reachable h)
    (System.stepped_of_exec hstep) with hsame | ⟨t, -, hrun⟩
  · exact hsame ▸ Ledger.Extends.refl _
  · exact Transaction.extends hrun

theorem extends_of_systemRun {ls : List (Command × Reply)} (hreach : (system S).Reachable s)
    (h : (system S).Run s ls s') : s.ledger.Extends s'.ledger := by
  refine (h.preserves (I := fun t ↦ s.ledger.Extends t.ledger) ?_ hreach
    (Ledger.Extends.refl _)).2
  exact fun t l t' ht hext hstep ↦ hext.trans (extends_of_step ht hstep)

end NotificationLedger

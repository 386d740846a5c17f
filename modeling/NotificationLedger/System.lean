import NotificationLedger.Refinement

/-!
# Calls in progress

The component as its callers see it: a ledger and any number of calls that are part way through
their work. A create call reads for a replay, waits for its render and writes under an advisory
lock; a dispatch call selects a row and keeps it locked, claims it, hands the request over and waits
for the provider. Between two steps of one call any others may take theirs. The remaining operations
are one transaction each.

A step that has to wait for a lock is not enabled. Two lock texts are told apart exactly; that the
database hashes them to 64 bits could only make more calls wait. An operation of one transaction
waits while another call has locked a row that it selects `for update` (`Command.locks`), whether it
would then succeed or be refused.

The state is a `System`: the ledger, and the calls by the order of their starts. `System.exec` takes
one command, `Call.step` the next step of a call; both are functions, and what the environment
decides (a render, nonces, an answer of the provider, which call goes next) is their argument. The
steps are collected into the labelled transition system `system`, whose labels are a command and
what it shows; the invariants of the later modules are about its histories.
-/

namespace NotificationLedger

open Outcome Public

/-! ## Calls -/

inductive CreatePhase
  | reading
  | rendering
  | prepared (intent : IntentPersistence)
  | locked (intent : IntentPersistence)
  | writing (intent : IntentPersistence)
  deriving DecidableEq

inductive DispatchPhase
  | selecting
  | selected (row : Runtime.DueRow)
  | claimed (work : DispatchWork)
  | awaiting (work : DispatchWork)
  deriving DecidableEq

/-- A call in progress; `now` is the time it read when it started. -/
inductive Call
  | create (request : IntentRequest) (now : DateTime) (phase : CreatePhase)
  | dispatch (now : DateTime) (phase : DispatchPhase)
  | returned
  deriving DecidableEq

/-- The text of the advisory lock a call holds. -/
def Call.lockText? : Call → Option String
  | .create _ _ (.locked intent) | .create _ _ (.writing intent) =>
    some (lockText intent.source.moduleId intent.idempotencyKey)
  | _ => none

/-- The delivery whose row a call has locked. -/
def Call.rowLock? : Call → Option String
  | .dispatch _ (.selected row) => some row.delivery.id
  | _ => none

/-- What a step of a call takes from its environment. -/
inductive Input
  | proceed
  | rendered (result : Except RuntimeFailure RenderedTemplate)
  | nonces (nonces : Nonces)
  | answered (result : Plugin.DispatchResult)

structure CreateResponse where
  intentId : String
  deliveryId : String
  idempotentReplay : Bool
  deriving DecidableEq, Repr

/-- What a step shows to the outside. -/
inductive Reply
  | pending
  | createRefused (error : PluginError CreateError)
  | created (request : IntentRequest) (result : Except (PluginError CreateError) CreateResponse)
  | dispatchRefused (error : PluginError DispatchDueError)
  | claimed (work : DispatchWork)
  | handedOver (request : DispatchRequest)
  | dispatched (claim : DispatchClaim)
      (result : Except (PluginError DispatchDueError) EmailDispatchObserved)
  | receipt (result : Except (PluginError ObserveReceiptError) Unit)
  | lifecycle (result : Except (PluginError ObserveInvitationLifecycleError) Unit)
  | retry (result : Except (PluginError RetryDeliveryError) RetryResult)

def TransactionalIntentReceipt.response (receipt : TransactionalIntentReceipt) :
    CreateResponse where
  intentId := receipt.intentId
  deliveryId := receipt.deliveryId
  idempotentReplay := receipt.idempotentReplay

/-! ## One step of a call -/

namespace Call

variable (S : Setting)

/-- The steps of both create operations. -/
def stepCreate (L : Ledger) (lockTexts : List String) (request : IntentRequest) (now : DateTime) :
    CreatePhase → Input → Option (Ledger × Call × Reply)
  | .reading, .proceed =>
    match findReplay S.externals L request now with
    | .error e => some (L, .returned, .created request (.error (Plugin.mapCreateError e)))
    | .ok (some receipt) =>
      some (L, .returned, .created request (.ok { receipt.response with idempotentReplay := true }))
    | .ok none => some (L, .create request now .rendering, .pending)
  | .rendering, .rendered (.error failure) =>
    some (L, .returned, .created request (.error (.runtime failure)))
  | .rendering, .rendered (.ok rendered) =>
    match prepareIntent S.externals request rendered now with
    | .error e => some (L, .returned, .created request (.error (Plugin.mapCreateError e)))
    | .ok intent => some (L, .create request now (.prepared intent), .pending)
  | .prepared intent, .proceed =>
    if lockText intent.source.moduleId intent.idempotencyKey ∈ lockTexts then none
    else some (L, .create request now (.locked intent), .pending)
  | .locked intent, .proceed =>
    match recheckIntent L intent with
    | .error e => some (L, .returned, .created request (.error (Plugin.mapCreateError e)))
    | .ok (some receipt) => some (L, .returned, .created request (.ok receipt.response))
    | .ok none => some (L, .create request now (.writing intent), .pending)
  | .writing intent, .nonces nonces =>
    match writeIntent S.externals S.protector L intent nonces now with
    | .error e => some (L, .returned, .created request (.error (Plugin.mapCreateError e)))
    | .ok (L', receipt) => some (L', .returned, .created request (.ok receipt.response))
  | _, _ => none

/-- The steps of `dispatch_due`. -/
def stepDispatch (L : Ledger) (rowLocks : List String) (now : DateTime) :
    DispatchPhase → Input → Option (Ledger × Call × Reply)
  | .selecting, .proceed =>
    match Runtime.selectDue L (fun id ↦ decide (id ∈ rowLocks)) now with
    | none => some (L, .returned, .dispatchRefused (.domain .noDeliveryDue))
    | some row => some (L, .dispatch now (.selected row), .pending)
  | .selected row, .proceed =>
    match Runtime.claimRow S.externals S.protector L row now with
    | .error e => some (L, .returned, .dispatchRefused (.runtime (Plugin.runtime e)))
    | .ok (L', work) => some (L', .dispatch now (.claimed work), .claimed work)
  | .claimed work, .proceed => some (L, .dispatch now (.awaiting work), .handedOver work.request)
  | .awaiting work, .answered result =>
    match Plugin.applyDispatch S L work.claim (Plugin.observedOf S work.claim now result) with
    | .error e =>
      some (L, .returned, .dispatched work.claim (.error (.runtime (Plugin.runtime e))))
    | .ok L' =>
      some (L', .returned, .dispatched work.claim (Plugin.dispatchReply S work.claim result))
  | _, _ => none

/-- One step of a call, given the locks that are held. -/
def step (L : Ledger) (calls : List Call) : Call → Input → Option (Ledger × Call × Reply)
  | .create request now phase, input =>
    stepCreate S L (calls.filterMap lockText?) request now phase input
  | .dispatch now phase, input => stepDispatch S L (calls.filterMap rowLock?) now phase input
  | .returned, _ => none

end Call

/-! ## The system -/

structure System where
  ledger : Ledger
  calls : List Call
  deriving DecidableEq

def System.empty : System where
  ledger := Ledger.empty
  calls := []

inductive Command
  | create (caller : Option String) (request : CreateRequest) (now : DateTime)
  | dispatchDue (caller : Option String) (now : DateTime)
  | observeReceipt (caller : Option String) (request : ObserveReceiptRequest)
  | observeInvitationLifecycle (caller : Option String)
      (request : ObserveInvitationLifecycleRequest)
  | retryDelivery (caller : Option String) (request : RetryDeliveryRequest) (now : DateTime)
  /-- The next step of a call in progress. -/
  | advance (call : ℕ) (input : Input)
  /-- The call is dropped; a transaction it had open is rolled back. -/
  | abandon (call : ℕ)

/-- The command is a receipt call. -/
def Command.isObserveReceipt : Command → Bool
  | .observeReceipt _ _ => true
  | _ => false

/-- The command has an observation recorded. -/
def Command.observes : Command → Bool
  | .observeReceipt _ _ | .observeInvitationLifecycle _ _ | .advance _ (.answered _) => true
  | _ => false

/-- The rows an operation of one transaction selects `for update`. The steps of a call in progress
find theirs unlocked: a claim skips locked rows and then keeps its own, and the delivery of an
attempt in flight is not one that a claim selects. -/
def Command.locks (S : Setting) (L : Ledger) : Command → List String
  | .observeReceipt caller request =>
    Plugin.envelopeLocks S L (Plugin.receiptEnvelope S caller request)
  | .observeInvitationLifecycle caller request =>
    Plugin.envelopeLocks S L (Plugin.lifecycleEnvelope S caller request)
  | .retryDelivery caller request _ => Plugin.retryDeliveryLocks S L caller request
  | .create _ _ _ | .dispatchDue _ _ | .advance _ _ | .abandon _ => []

namespace System

variable (S : Setting) (s : System)

/-- Commits a transaction, unless it would change a locked row. -/
def commit (calls : List Call) (L : Ledger) : Option System :=
  if ∀ id ∈ calls.filterMap Call.rowLock?, L.deliveries.get? id = s.ledger.deliveries.get? id then
    some { ledger := L, calls }
  else none

/-- No call has locked one of these rows. -/
def Unlocked (locks : List String) : Prop :=
  ∀ id ∈ s.calls.filterMap Call.rowLock?, id ∉ locks

instance (locks : List String) : Decidable (s.Unlocked locks) :=
  inferInstanceAs (Decidable (∀ id ∈ _, id ∉ _))

/-- A transaction of an operation without further steps, which selects some rows `for update`. -/
def once {ε α : Type} (locks : List String) (outcome : Except ε (Ledger × α))
    (reply : Except ε α → Reply) : Option (System × Reply) :=
  if s.Unlocked locks then
    match outcome with
    | .error e => some (s, reply (.error e))
    | .ok (L, a) => (s.commit s.calls L).map fun s' ↦ (s', reply (.ok a))
  else none

def exec (command : Command) : Option (System × Reply) :=
  match command with
  | .create caller request now =>
    match Plugin.intentRequestOf S caller request now with
    | .error e => some (s, .createRefused e)
    | .ok request =>
      some ({ s with calls := s.calls ++ [.create request now .reading] }, .pending)
  | .dispatchDue caller now =>
    match authorizedCaller caller S.config.dispatchCallers with
    | none => some (s, .dispatchRefused (.domain .unauthorized))
    | some _ => some ({ s with calls := s.calls ++ [.dispatch now .selecting] }, .pending)
  | .observeReceipt caller request =>
    s.once (command.locks S s.ledger) ((·, ()) <$> Plugin.observeReceipt S s.ledger caller request)
      .receipt
  | .observeInvitationLifecycle caller request =>
    s.once (command.locks S s.ledger)
      ((·, ()) <$> Plugin.observeInvitationLifecycle S s.ledger caller request) .lifecycle
  | .retryDelivery caller request now =>
    s.once (command.locks S s.ledger) (Plugin.retryDelivery S s.ledger caller request now) .retry
  | .advance call input => do
    let current ← s.calls[call]?
    let (L, next, reply) ← current.step S s.ledger s.calls input
    let s' ← s.commit (s.calls.set call next) L
    return (s', reply)
  | .abandon call => do
    let _ ← s.calls[call]?
    return ({ s with calls := s.calls.set call .returned }, .pending)

/-- Takes the commands in order. -/
def execAll : System → List Command → Option (System × List Reply)
  | s, [] => some (s, [])
  | s, c :: cs => do
    let (s', reply) ← s.exec S c
    let (s'', replies) ← execAll s' cs
    return (s'', reply :: replies)

end System

/-- The system, each step labelled with the command and what it shows. -/
def system (S : Setting) : Lts System (Command × Reply) where
  Start s := s = System.empty
  Step s l s' := s.exec S l.1 = some (s', l.2)

section

variable {S : Setting} {s s' : System}

theorem run_of_execAll {cs : List Command} {replies : List Reply}
    (h : s.execAll S cs = some (s', replies)) : (system S).Run s (cs.zip replies) s' := by
  induction cs generalizing s replies with
  | nil =>
    simp only [System.execAll, Option.some_inj, Prod.mk.injEq] at h
    obtain ⟨rfl, rfl⟩ := h
    exact .nil
  | cons c cs ih =>
    simp only [System.execAll, bind, Option.bind_eq_some_iff, pure, Option.some_inj,
      Prod.exists, Prod.mk.injEq] at h
    obtain ⟨t, reply, hstep, u, rest, hrest, rfl, rfl⟩ := h
    have hone : (system S).Run s [(c, reply)] t := Lts.Run.single hstep
    exact hone.append (ih hrest)

/-- Evaluating some commands takes them and no others. -/
theorem exists_run_of_execAll {cs : List Command}
    (h : (s.execAll S cs).map Prod.fst = some s') :
    ∃ ls, (system S).Run s ls s' ∧ ∀ l ∈ ls, l.1 ∈ cs := by
  obtain ⟨⟨t, replies⟩, hall, rfl⟩ := Option.map_eq_some_iff.mp h
  exact ⟨_, run_of_execAll hall, fun l hl ↦ (List.of_mem_zip hl).1⟩

/-- What evaluating some commands reaches is reachable. -/
theorem reachable_of_execAll {cs : List Command} (hs : (system S).Reachable s)
    (h : (s.execAll S cs).map Prod.fst = some s') : (system S).Reachable s' := by
  obtain ⟨ms, hms, -⟩ := exists_run_of_execAll h
  obtain ⟨ls, hls⟩ := hs
  exact ⟨_, hls.append hms⟩

/-- A test of what evaluating some commands shows and reaches. -/
theorem exists_labels_of_execAll {ls : List (Command × Reply)} (cs : List Command)
    (P : List (Command × Reply) → System → Bool) (hs : (system S).History ls s)
    (h : ((s.execAll S cs).any fun p ↦ P (cs.zip p.2) p.1) = true) :
    ∃ ms s', (system S).History (ls ++ ms) s' ∧ (∀ l ∈ ms, l.1 ∈ cs) ∧ P ms s' = true := by
  obtain ⟨⟨s', replies⟩, hp, hP⟩ := (Option.any_eq_true _ _).mp h
  exact ⟨_, s', hs.append (run_of_execAll hp), fun l hl ↦ (List.of_mem_zip hl).1, hP⟩

/-- A test of what evaluating some commands reaches. -/
theorem exists_history_of_execAll {ls : List (Command × Reply)} (cs : List Command)
    (P : System → Bool) (hs : (system S).History ls s)
    (h : ((s.execAll S cs).any fun p ↦ P p.1) = true) :
    ∃ ms s', (system S).History (ls ++ ms) s' ∧ (∀ l ∈ ms, l.1 ∈ cs) ∧ P s' = true :=
  exists_labels_of_execAll cs (fun _ ↦ P) hs h

theorem exists_of_execAll (cs : List Command) (P : System → Bool) (hs : (system S).Reachable s)
    (h : ((s.execAll S cs).any fun p ↦ P p.1) = true) :
    ∃ s', (system S).Reachable s' ∧ P s' = true := by
  obtain ⟨ls, hls⟩ := hs
  obtain ⟨ms, s', hms, -, hP⟩ := exists_history_of_execAll cs P hls h
  exact ⟨s', ⟨_, hms⟩, hP⟩

end

end NotificationLedger

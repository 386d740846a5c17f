import NotificationLedger.Foundation.Stutter
import NotificationLedger.Boundary
import NotificationLedger.Evidence
import NotificationLedger.Isolation
import NotificationLedger.NoRepeat
import NotificationLedger.Persistence
import NotificationLedger.Retries

/-!
# Who may do what

The configuration names, for each role, the plugin instances that may act in it. Nobody else can
bring anything about: the commands of other callers are answered as unauthorized and can be struck
from a history, or put into one anywhere, without any difference to the rest (`run_iff_permitted`).
Conversely, whatever stands in the ledger goes back to a command of a caller that the configuration
allows in the role the row belongs to (`attributed_of_history`).

## Labels that explain rows

A step of a call does not name its caller, the command that started the call does: the calls are
numbered in the order of their starts, so `callerIn` finds that command in the history. Each kind of
row then has the labels that can have brought it. A row is traced by one rule for all tables
(`traced_of_history`): a row that a step does not find is explained by that step's label.
-/

namespace NotificationLedger

open Outcome Public

/-! ## Callers without a role

A command of a caller without the role is answered before anything is read, so it locks nothing,
waits for nothing and leaves the state as it is. That makes it idle, and the rule for idle labels
strikes it from any run. -/

/-- The caller is allowed in the role of the command. A call in progress has been admitted. -/
def Command.permitted (S : Setting) : Command → Bool
  | .create caller _ _ => (authorizedCaller caller S.config.transactionalCallers).isSome
  | .dispatchDue caller _ => (authorizedCaller caller S.config.dispatchCallers).isSome
  | .observeReceipt caller _ => (authorizedCaller caller S.config.receiptCallers).isSome
  | .observeInvitationLifecycle caller _ =>
    (authorizedCaller caller S.config.transactionalCallers).isSome
  | .retryDelivery caller _ _ => (authorizedCaller caller S.config.adminCallers).isSome
  | .advance _ _ | .abandon _ => true

/-- What a caller without the role is told. -/
def Command.unauthorizedReply : Command → Reply
  | .create _ _ _ => .createRefused (.domain .unauthorized)
  | .dispatchDue _ _ => .dispatchRefused (.domain .unauthorized)
  | .observeReceipt _ _ => .receipt (.error (.domain .unauthorized))
  | .observeInvitationLifecycle _ _ => .lifecycle (.error (.domain .unauthorized))
  | .retryDelivery _ _ _ => .retry (.error (.domain .unauthorized))
  | .advance _ _ | .abandon _ => .pending

section Permission

variable {S : Setting} {s s' : System} {ls : List (Command × Reply)}

/-- A retry of another caller than an administrator selects no row. -/
theorem retryDeliveryLocks_of_unauthorized {L : Ledger} {caller : Option String}
    {request : RetryDeliveryRequest} (h : authorizedCaller caller S.config.adminCallers = none) :
    Plugin.retryDeliveryLocks S L caller request = [] := by
  refine if_neg fun hlocks ↦ ?_
  rw [h] at hlocks
  exact Bool.false_ne_true hlocks.1

/-- The role is checked before any row is selected. -/
theorem locks_of_not_permitted {command : Command} {L : Ledger}
    (h : command.permitted S = false) : command.locks S L = [] := by
  cases command with
  | observeReceipt caller request =>
    rw [Command.permitted, Option.isSome_eq_false_iff, Option.isNone_iff_eq_none] at h
    rw [Command.locks, Plugin.receiptEnvelope, h]
    rfl
  | observeInvitationLifecycle caller request =>
    rw [Command.permitted, Option.isSome_eq_false_iff, Option.isNone_iff_eq_none] at h
    rw [Command.locks, Plugin.lifecycleEnvelope, h]
    rfl
  | retryDelivery caller request now =>
    rw [Command.permitted, Option.isSome_eq_false_iff, Option.isNone_iff_eq_none] at h
    exact retryDeliveryLocks_of_unauthorized h
  | create | dispatchDue | advance | abandon => rfl

theorem unlocked_nil : s.Unlocked [] := fun _ _ ↦ List.not_mem_nil

/-- A transaction that is refused before it selects a row is answered at once. -/
theorem once_nil {ε α : Type} (e : ε) (answer : Except ε α → Reply) :
    s.once [] (.error e) answer = some (s, answer (.error e)) := if_pos unlocked_nil

/-- The role is checked first, so nothing else about the command matters. -/
theorem exec_of_not_permitted {command : Command} (h : command.permitted S = false) :
    s.exec S command = some (s, command.unauthorizedReply) := by
  have hlocks := locks_of_not_permitted (L := s.ledger) h
  cases command with
  | create caller request now =>
    rw [Command.permitted, Option.isSome_eq_false_iff, Option.isNone_iff_eq_none] at h
    cases request with
    | organizationInvitation request =>
      rw [System.exec, Plugin.intentRequestOf, Plugin.invitationIntent, h]
      rfl
    | accessRequestNotification request =>
      rw [System.exec, Plugin.intentRequestOf, Plugin.accessRequestIntent, h]
      rfl
  | dispatchDue caller now =>
    rw [Command.permitted, Option.isSome_eq_false_iff, Option.isNone_iff_eq_none] at h
    rw [System.exec, h]
    rfl
  | observeReceipt caller request =>
    rw [Command.permitted, Option.isSome_eq_false_iff, Option.isNone_iff_eq_none] at h
    rw [System.exec, hlocks, Plugin.observeReceipt, Plugin.receiptEnvelope, h]
    exact once_nil _ _
  | observeInvitationLifecycle caller request =>
    rw [Command.permitted, Option.isSome_eq_false_iff, Option.isNone_iff_eq_none] at h
    rw [System.exec, hlocks, Plugin.observeInvitationLifecycle, Plugin.lifecycleEnvelope, h]
    exact once_nil _ _
  | retryDelivery caller request now =>
    rw [Command.permitted, Option.isSome_eq_false_iff, Option.isNone_iff_eq_none] at h
    rw [System.exec, hlocks, Plugin.retryDelivery, h]
    exact once_nil _ _
  | advance | abandon => cases h

theorem idles_of_not_permitted :
    (system S).Idles (fun l ↦ l.1.permitted S) fun l ↦ l.2 = l.1.unauthorizedReply := by
  rintro s ⟨command, reply⟩ s' hpermitted
  change s.exec S command = some (s', reply) ↔ _
  rw [exec_of_not_permitted hpermitted, Option.some_inj, Prod.mk.injEq]
  exact and_congr eq_comm eq_comm

/-- **Callers without a role do not interfere.** A sequence of commands runs from one state to
another exactly when it does so without theirs, and each of these is answered as unauthorized. -/
theorem run_iff_permitted :
    (system S).Run s ls s' ↔
      (system S).Run s (ls.filter fun l ↦ l.1.permitted S) s' ∧
        ∀ l ∈ ls, l.1.permitted S = false → l.2 = l.1.unauthorizedReply :=
  idles_of_not_permitted.run_iff

end Permission

/-! ## On whose behalf a call runs

Calls are numbered by their starts. The invariant says of each call in progress that the command
that started it was allowed to, and that a create call keeps the module of that caller in its
request. -/

/-- The command has started a call. -/
def starts : Command × Reply → Bool
  | (.create _ _ _, .pending) | (.dispatchDue _ _, .pending) => true
  | _ => false

/-- The caller that has started a call. -/
def starter : Command × Reply → Option String
  | (.create caller _ _, _) | (.dispatchDue caller _, _) => caller
  | _ => none

/-- The caller a command was issued by; the steps of a call belong to who has started it, and the
calls are numbered in the order of their starts. -/
def callerIn (ls : List (Command × Reply)) : Command → Option String
  | .create caller _ _ | .dispatchDue caller _ | .observeReceipt caller _
  | .observeInvitationLifecycle caller _ | .retryDelivery caller _ _ => caller
  | .advance n _ | .abandon n => (ls.filter starts)[n]?.bind starter

/-- What is known of a call from the history: it was started by an instance of its role, and a
create call works for the instance that its request names. -/
def Call.StartedIn (S : Setting) (ls : List (Command × Reply)) (n : ℕ) : Call → Prop
  | .create request now _ => request.source.moduleId ∈ S.config.transactionalCallers ∧
      ∃ raw, (ls.filter starts)[n]? =
        some (.create (some request.source.moduleId) raw now, .pending)
  | .dispatch now _ => ∃ name ∈ S.config.dispatchCallers,
      (ls.filter starts)[n]? = some (.dispatchDue (some name) now, .pending)
  | .returned => True

section Starts

variable {S : Setting} {s s' : System} {ls : List (Command × Reply)} {n : ℕ} {c c' : Call}

theorem Call.StartedIn.append (h : c.StartedIn S ls n) (ms : List (Command × Reply)) :
    c.StartedIn S (ls ++ ms) n := by
  have hsome : ∀ l, (ls.filter starts)[n]? = some l →
      ((ls ++ ms).filter starts)[n]? = some l := by
    intro l hl
    rw [List.filter_append]
    rw [List.getElem?_append_left (List.getElem?_eq_some_iff.mp hl).1]
    exact hl
  cases c with
  | create request now phase =>
    obtain ⟨hmem, raw, hraw⟩ := h
    exact ⟨hmem, raw, hsome _ hraw⟩
  | dispatch now phase =>
    obtain ⟨name, hmem, hstart⟩ := h
    exact ⟨name, hmem, hsome _ hstart⟩
  | returned => trivial

end Starts

/-! ## Where the rows come from

For each table, the label that can have brought a row, with the ids that tie the row to the answer:
a row is explained by what it tells of, and not by just any permitted answer. -/

section Callers

variable {S : Setting} {s : System} {ls : List (Command × Reply)} {n : ℕ}

theorem callerIn_append {command : Command} {name : String}
    (h : callerIn ls command = some name) (ms : List (Command × Reply)) :
    callerIn (ls ++ ms) command = some name := by
  have hsome : ∀ n : ℕ, (ls.filter starts)[n]?.bind starter = some name →
      ((ls ++ ms).filter starts)[n]?.bind starter = some name := by
    intro n hn
    obtain ⟨l, hl, hstarter⟩ := Option.bind_eq_some_iff.mp hn
    rw [List.filter_append, List.getElem?_append_left (List.getElem?_eq_some_iff.mp hl).1, hl]
    exact hstarter
  cases command with
  | create | dispatchDue | observeReceipt | observeInvitationLifecycle | retryDelivery => exact h
  | advance n | abandon n => exact hsome n h

end Callers

/-- The answer `l` recorded the observation `event`, on behalf of an instance of the role that it
takes. -/
inductive RecordedBy (S : Setting) (ls : List (Command × Reply)) (event : ObservationEnvelope) :
    Command × Reply → Prop
  | answer {n : ℕ} {now : DateTime} {claim : DispatchClaim} {result : Plugin.DispatchResult}
      {name : String} (hname : name ∈ S.config.dispatchCallers)
      (hcaller : callerIn ls (.advance n (.answered result)) = some name)
      (hevent : event = Plugin.dispatchEnvelope S claim (Plugin.observedOf S claim now result)) :
      RecordedBy S ls event
        (.advance n (.answered result), .dispatched claim (Plugin.dispatchReply S claim result))
  | receipt {name : String} {request : ObserveReceiptRequest}
      (hname : name ∈ S.config.receiptCallers)
      (hevent : Plugin.receiptEnvelope S (some name) request = .ok event) :
      RecordedBy S ls event (.observeReceipt (some name) request, .receipt (.ok ()))
  | lifecycle {name : String} {request : ObserveInvitationLifecycleRequest}
      (hname : name ∈ S.config.transactionalCallers)
      (hevent : Plugin.lifecycleEnvelope S (some name) request = .ok event) :
      RecordedBy S ls event (.observeInvitationLifecycle (some name) request, .lifecycle (.ok ()))

/-- The provider refused the attempt for the moment, and the decision was taken under the
observation of this answer. -/
def DecidedBy (q : RetryRequest) (l : Command × Reply) : Prop :=
  ∃ i response claim reply,
    l = (.advance i (.answered (.response response)), .dispatched claim reply) ∧
      response.outcome = .temporaryFailure ∧ claim.deliveryId = q.deliveryId ∧
      q.idempotencyKey = Plugin.dispatchObservationId claim.attemptId

section Attribution

variable {S : Setting} {s s' : System} {ls : List (Command × Reply)}

/-- **The tracing rule.** If a row that a step does not find, or find alike, comes from the label of
the step, every row comes from a label of the history. -/
theorem traced_of_history {α : Type} (rows : Ledger → List α) (P : α → Command × Reply → Prop)
    (hempty : rows Ledger.empty = [])
    (hrows : ∀ s l s', (system S).Reachable s → (system S).Step s l s' → ∀ a ∈ rows s'.ledger,
      (∃ b ∈ rows s.ledger, ∀ m, P b m → P a m) ∨ P a l)
    (h : (system S).History ls s) : ∀ a ∈ rows s.ledger, ∃ l ∈ ls, P a l := by
  refine Lts.History.invariant (S := system S)
    (I := fun ls s ↦ ∀ a ∈ rows s.ledger, ∃ l ∈ ls, P a l) ?_ ?_ h
  · rintro s rfl a ha
    rw [System.empty, hempty] at ha
    cases ha
  · intro ls s l s' hls ih hstep a ha
    rcases hrows s l s' ⟨ls, hls⟩ hstep a ha with ⟨b, hb, halike⟩ | hnew
    · obtain ⟨m, hm, hP⟩ := ih b hb
      exact ⟨m, List.mem_append_left _ hm, halike m hP⟩
    · exact ⟨l, by simp, hnew⟩

/-- An automatic decision belongs to an answer of the provider. -/
theorem decided_of_history (h : (system S).History ls s) :
    ∀ q ∈ s.ledger.retryRequests.rows, ∃ l ∈ ls, q.kind = .manual ∨
      q.kind = .automatic ∧ q.requestedBy = none ∧ DecidedBy q l := by
  refine traced_of_history (fun L ↦ L.retryRequests.rows)
    (fun q l ↦ q.kind = .manual ∨ q.kind = .automatic ∧ q.requestedBy = none ∧ DecidedBy q l)
    rfl ?_ h
  rintro s ⟨command, reply⟩ s' hreach hstep q hq
  by_cases hold : q ∈ s.ledger.retryRequests.rows
  · exact Or.inl ⟨q, hold, fun _ h ↦ h⟩
  rcases System.ledger_of_stepped (System.holds_of_reachable hreach)
    (System.stepped_of_exec hstep) with hsame | ⟨t, hissues, hrun⟩
  · rw [hsame] at hq
    exact absurd hq hold
  right
  cases decides_of_run hrun hq hold with
  | manual hschedule => exact Or.inl rfl
  | @automatic event payload d a hadmitted houtcome hrows =>
    obtain ⟨-, hdelivery, hkey, hrequestedBy, -⟩ :=
      retryDecisionRow_identity S.externals event payload d
    have hkind : (Events.retryDecisionRow S.externals event payload d).kind = .automatic := by
      unfold Events.retryDecisionRow
      split <;> rfl
    refine Or.inr ⟨hkind, hrequestedBy, ?_⟩
    rw [DecidedBy, hdelivery, hkey]
    cases hissues with
    | receipt henvelope =>
      obtain ⟨_, _, -, h⟩ := Plugin.receipt_of_receiptEnvelope henvelope hadmitted
      cases h
    | lifecycle henvelope =>
      obtain ⟨_, h⟩ := Plugin.lifecycle_of_lifecycleEnvelope henvelope hadmitted
      cases h
    | @answer i now work result hc =>
      cases Plugin.dispatch_of_dispatchEnvelope hadmitted
      obtain ⟨hclaim, -⟩ := Plugin.observedOf_claim S work.claim now result
      obtain ⟨response, rfl, -, hresponse, -⟩ := Plugin.valid_of_observedOf (Or.inr houtcome)
      exact ⟨i, response, work.claim, _, rfl, hresponse.trans houtcome, hclaim.symm, rfl⟩

theorem RecordedBy.append {event : ObservationEnvelope} {l : Command × Reply}
    (h : RecordedBy S ls event l) (ms : List (Command × Reply)) :
    RecordedBy S (ls ++ ms) event l := by
  cases h with
  | answer hname hcaller hevent => exact .answer hname (callerIn_append hcaller ms) hevent
  | receipt hname hevent => exact .receipt hname hevent
  | lifecycle hname hevent => exact .lifecycle hname hevent

end Attribution

end NotificationLedger

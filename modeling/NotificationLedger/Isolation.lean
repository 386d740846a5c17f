import NotificationLedger.Boundary
import NotificationLedger.Cancellation
import NotificationLedger.Idempotency

/-!
# One module's calls and the rows of the others

No table but `intents` names the module a row was written for, so the rows of a module are found by
the joins from a delivery to its intent. `Ledger.Untouched` compares the rows of every other module
before and after a step; the steps of a module's own calls preserve them.

## Finding the module of a row

`Ledger.moduleOf` follows the join of a delivery, and `Ledger.foreign` asks whether it leads to
another module. An insertion can give a delivery a module that had none, and changes that of no
other; an update of the deliveries keeps their keys. So two ledgers are compared by filtering both
with `foreign`, and the order of the rows is compared along with them.
-/

namespace NotificationLedger

open Outcome Public

/-! ## The rows of the other modules -/

namespace Ledger

variable (L : Ledger) (source : String)

/-- The module a delivery was requested by. -/
def moduleOf (deliveryId : String) : Option String :=
  (L.deliveries.get? deliveryId).bind fun d ↦
    (L.intents.get? d.intentId).map fun i ↦ i.sourceModule

/-- The delivery was requested by another module. -/
def foreign (deliveryId : String) : Bool :=
  (L.moduleOf deliveryId).any fun module ↦ decide (module ≠ source)

/-- What a caller cannot touch: the intents of the other modules, and the rows that belong to their
deliveries, in the order they were inserted in. -/
structure Untouched (L L' : Ledger) : Prop where
  intents : L'.intents.rows.filter (fun i ↦ decide (i.sourceModule ≠ source)) =
    L.intents.rows.filter fun i ↦ decide (i.sourceModule ≠ source)
  deliveries : L'.deliveries.rows.filter (fun d ↦ L'.foreign source d.id) =
    L.deliveries.rows.filter fun d ↦ L.foreign source d.id
  attempts : L'.attempts.rows.filter (fun a ↦ L'.foreign source a.deliveryId) =
    L.attempts.rows.filter fun a ↦ L.foreign source a.deliveryId
  receipts : L'.receipts.rows.filter (fun r ↦ L'.foreign source r.deliveryId) =
    L.receipts.rows.filter fun r ↦ L.foreign source r.deliveryId
  retryRequests : L'.retryRequests.rows.filter (fun q ↦ L'.foreign source q.deliveryId) =
    L.retryRequests.rows.filter fun q ↦ L.foreign source q.deliveryId

variable {L source} {L' : Ledger}

theorem Untouched.refl : Untouched source L L := ⟨rfl, rfl, rfl, rfl, rfl⟩

theorem moduleOf_of_get? {deliveryId : String} {d : Delivery}
    (h : L.deliveries.get? deliveryId = some d) :
    L.moduleOf deliveryId = (L.intents.get? d.intentId).map fun i ↦ i.sourceModule := by
  rw [moduleOf, h, Option.bind_some]

theorem foreign_of_get? {deliveryId : String} {d : Delivery} {i : Intent}
    (hd : L.deliveries.get? deliveryId = some d) (hi : L.intents.get? d.intentId = some i) :
    L.foreign source deliveryId = decide (i.sourceModule ≠ source) := by
  rw [foreign, moduleOf_of_get? hd, hi, Option.map_some, Option.any_some]

/-- The evidence tables compare by the rows they hold, once the same deliveries are foreign. -/
theorem Untouched.of_foreign (hforeign : ∀ id, L'.foreign source id = L.foreign source id)
    (hintents : L'.intents.rows.filter (fun i ↦ decide (i.sourceModule ≠ source)) =
      L.intents.rows.filter fun i ↦ decide (i.sourceModule ≠ source))
    (hdeliveries : L'.deliveries.rows.filter (fun d ↦ L.foreign source d.id) =
      L.deliveries.rows.filter fun d ↦ L.foreign source d.id)
    (hattempts : L'.attempts = L.attempts) (hreceipts : L'.receipts = L.receipts)
    (hretries : L'.retryRequests = L.retryRequests) : Untouched source L L' := by
  refine ⟨hintents, ?_, ?_, ?_, ?_⟩ <;> simp only [hforeign]
  · exact hdeliveries
  · rw [hattempts]
  · rw [hreceipts]
  · rw [hretries]

/-! ## A new intent

The transaction of a creation inserts an intent and its delivery, both of the caller. The rows of
other modules keep their module, so both filters see the same rows. -/

/-- Inserting an intent with its delivery decides the module of that delivery, and of no other that
had one. -/
theorem moduleOf_insert? {i : Intent} {d : Delivery}
    (hi : L.intents.insert? i = some L'.intents)
    (hd : L.deliveries.insert? d = some L'.deliveries) (hlink : d.intentId = i.id)
    (deliveryId : String) :
    L'.moduleOf deliveryId = L.moduleOf deliveryId ∨
      (L.moduleOf deliveryId = none ∧ L'.moduleOf deliveryId = some i.sourceModule) := by
  have hintents := Table.get?_insert? hi
  by_cases hid : d.id = deliveryId
  · -- the new delivery
    refine Or.inr ⟨?_, ?_⟩
    · have hfresh : L.deliveries.get? deliveryId = none := Table.get?_eq_none.mpr fun b hb hkey ↦
        (Table.insert?_eq_some.mp hd).1 b hb (Or.inl (hkey.trans hid.symm))
      rw [moduleOf, hfresh, Option.bind_none]
    · have hnew : L'.deliveries.get? deliveryId = some d := by
        rw [Table.get?_insert? hd]
        exact if_pos hid
      have hstored : L'.intents.get? d.intentId = some i := by
        rw [hintents]
        exact if_pos hlink.symm
      rw [moduleOf_of_get? hnew, hstored, Option.map_some]
  · have hsame : L'.deliveries.get? deliveryId = L.deliveries.get? deliveryId := by
      rw [Table.get?_insert? hd]
      exact if_neg hid
    cases hb : L.deliveries.get? deliveryId with
    | none =>
      refine Or.inl ?_
      rw [moduleOf, moduleOf, hsame, hb, Option.bind_none, Option.bind_none]
    | some b =>
      rw [moduleOf_of_get? hb, moduleOf_of_get? (hsame.trans hb), hintents]
      split
      · next hkey =>
        -- a delivery whose intent was missing
        have hfresh : L.intents.get? b.intentId = none := Table.get?_eq_none.mpr fun j hj hjkey ↦
          (Table.insert?_eq_some.mp hi).1 j hj (Or.inl (hjkey.trans hkey.symm))
        exact Or.inr ⟨by rw [hfresh, Option.map_none], by rw [Option.map_some]⟩
      · exact Or.inl rfl

/-- **A new intent touches no other module.** -/
theorem Untouched.insert? {i : Intent} {d : Delivery}
    (hi : L.intents.insert? i = some L'.intents)
    (hd : L.deliveries.insert? d = some L'.deliveries) (hlink : d.intentId = i.id)
    (hmodule : i.sourceModule = source) (hattempts : L'.attempts = L.attempts)
    (hreceipts : L'.receipts = L.receipts) (hretries : L'.retryRequests = L.retryRequests) :
    Untouched source L L' := by
  have hforeign : ∀ id, L'.foreign source id = L.foreign source id := by
    intro id
    unfold foreign
    rcases moduleOf_insert? hi hd hlink id with hsame | ⟨hnone, hnew⟩
    · rw [hsame]
    · rw [hnone, hnew, Option.any_none, Option.any_some, hmodule]
      simp
  refine Untouched.of_foreign hforeign ?_ ?_ hattempts hreceipts hretries
  · rw [(Table.insert?_eq_some.mp hi).2, List.filter_append]
    simp [hmodule]
  · -- the new delivery is the caller's own, so the filter drops it
    have hown : L.foreign source d.id = false := by
      rw [← hforeign, foreign_of_get? (L := L') (d := d) (i := i) _ _]
      · simp [hmodule]
      · rw [Table.get?_insert? hd]
        exact if_pos rfl
      · rw [Table.get?_insert? hi]
        exact if_pos hlink.symm
    rw [(Table.insert?_eq_some.mp hd).2, List.filter_append]
    simp [hown]

/-! ## An update of own deliveries

An update that leaves the identity of a delivery alone keeps every module, so it is enough that no
foreign delivery is changed. -/

/-- **An update that only applies to deliveries of the module touches no other.** -/
theorem Untouched.update {p : Delivery → Bool} {f : Delivery → Delivery} {hf : Keyed.Keeps f}
    (hdeliveries : L'.deliveries = L.deliveries.update p f hf)
    (hintent : ∀ d, (f d).intentId = d.intentId)
    (hown : ∀ d ∈ L.deliveries.rows, p d = true → L.foreign source d.id = false)
    (hintents : L'.intents = L.intents) (hattempts : L'.attempts = L.attempts)
    (hreceipts : L'.receipts = L.receipts) (hretries : L'.retryRequests = L.retryRequests) :
    Untouched source L L' := by
  have hmodule : ∀ id, L'.moduleOf id = L.moduleOf id := by
    intro id
    rw [moduleOf, moduleOf, hdeliveries, hintents, Table.get?_update]
    cases L.deliveries.get? id with
    | none => rfl
    | some d =>
      rw [Option.map_some, Option.bind_some, Option.bind_some]
      split
      · rw [hintent]
      · rfl
  have hforeign : ∀ id, L'.foreign source id = L.foreign source id := by
    intro id
    rw [foreign, foreign, hmodule]
  refine Untouched.of_foreign hforeign ?_ ?_ hattempts hreceipts hretries
  · rw [hintents]
  · rw [hdeliveries, Table.filter_rows_update (q := fun d ↦ L.foreign source d.id)
      fun d ↦ congrArg (L.foreign source) (hf d).1]
    conv_rhs => rw [← List.map_id (List.filter _ _)]
    -- none of the rows that are left is updated
    refine List.map_congr_left fun d hd ↦ ?_
    obtain ⟨hmem, hother⟩ := List.mem_filter.mp hd
    rw [if_neg, id]
    intro hp
    rw [hown d hmem hp] at hother
    cases hother

end Ledger

/-! ## Calls by one module

`ActsAs` says that a step belongs to a call of a module: it starts one, continues one, or lets it
go. A call keeps the module that started it, whatever its caller sends. -/

section Calls

variable {S : Setting} {s s' : System} {source : String} {command : Command} {reply : Reply}

/-- The call at this index was started by the caller `source`. -/
def StartedBy (S : Setting) (s : System) (n : ℕ) (source : String) : Prop :=
  ∃ t t' caller request now ls, (system S).Reachable t ∧
    authorizedCaller caller S.config.transactionalCallers = some source ∧
    (system S).Step t (.create caller request now, .pending) t' ∧ n = t.calls.length ∧
    (system S).Run t' ls s

/-- The command belongs to a call by the business caller `source`: a create call starts or takes
its next step, or a lifecycle observation is reported. -/
inductive ActsAs (S : Setting) (s : System) (source : String) : Command → Prop
  | create {caller : Option String} {request : CreateRequest} {now : DateTime}
      (hcaller : authorizedCaller caller S.config.transactionalCallers = some source) :
      ActsAs S s source (.create caller request now)
  | advance {n : ℕ} {input : Input} (hstarted : StartedBy S s n source) :
      ActsAs S s source (.advance n input)
  | abandon {n : ℕ} (hstarted : StartedBy S s n source) : ActsAs S s source (.abandon n)
  | observeInvitationLifecycle {caller : Option String}
      {request : ObserveInvitationLifecycleRequest}
      (hcaller : authorizedCaller caller S.config.transactionalCallers = some source) :
      ActsAs S s source (.observeInvitationLifecycle caller request)

theorem CreateRequest.source_of_intent {raw : CreateRequest} {request : IntentRequest}
    (h : raw.intent S source = some request) : request.source.moduleId = source := by
  cases raw with
  | organizationInvitation raw =>
    obtain ⟨t, -, rfl⟩ := Option.map_eq_some_iff.mp h
    rfl
  | accessRequestNotification raw =>
    unfold CreateRequest.intent at h
    dsimp only at h
    split at h
    · cases h
      rfl
    · obtain ⟨t, -, rfl⟩ := Option.map_eq_some_iff.mp h
      rfl

/-- The call at this index is over, or creates an intent of the module. -/
def CreatesFor (source : String) (s : System) (n : ℕ) : Prop :=
  s.calls[n]? = some .returned ∨ ∃ request now phase,
    s.calls[n]? = some (.create request now phase) ∧ request.source.moduleId = source

/-- A step of a create call is one of the same request. -/
theorem CreatesFor.advance {n : ℕ} {input : Input} {c c' : Call} {L : Ledger}
    (h : CreatesFor source s n) (hc : s.calls[n]? = some c)
    (hadvance : Call.Advance S s.ledger s.calls c input L c' reply) :
    CreatesFor source { ledger := L, calls := s.calls.set n c' } n := by
  have hset : (s.calls.set n c')[n]? = some c' := by
    rw [List.getElem?_set_self (List.getElem?_eq_some_iff.mp hc).1]
  rcases h with hreturned | ⟨request, now, phase, hcreate, hmodule⟩
  · cases hc.symm.trans hreturned
    cases hadvance
  · cases hc.symm.trans hcreate
    cases hadvance with
    | replayFailed | replayed | renderFailed | renderRefused | recheckFailed | rechecked
    | writeFailed | written => exact Or.inl hset
    | unknown | prepared | locked | absent => exact Or.inr ⟨_, _, _, hset, hmodule⟩

theorem CreatesFor.step {n : ℕ} {l : Command × Reply} (h : CreatesFor source s n)
    (hstep : (system S).Step s l s') : CreatesFor source s' n := by
  obtain ⟨command, reply⟩ := l
  have hkept : s'.calls[n]? = s.calls[n]? → CreatesFor source s' n := by
    intro hsame
    unfold CreatesFor
    rw [hsame]
    exact h
  have hsome : n < s.calls.length := by
    rcases h with hc | ⟨_, _, _, hc, -⟩ <;> exact (List.getElem?_eq_some_iff.mp hc).1
  cases System.stepped_of_exec hstep with
  | createRefused | dispatchRefused | receiptRefused | lifecycleRefused | retryRefused
  | receiptRecorded | lifecycleRecorded | retryScheduled => exact hkept rfl
  | createStarted | dispatchStarted => exact hkept (List.getElem?_append_left hsome)
  | @abandoned i c hc =>
    by_cases hi : i = n
    · subst hi
      exact Or.inl (List.getElem?_set_self hsome)
    · exact hkept (List.getElem?_set_ne hi)
  | @advanced i input c c' L reply hc hadvance =>
    by_cases hi : i = n
    · subst hi
      exact h.advance hc hadvance
    · exact hkept (List.getElem?_set_ne hi)

theorem StartedBy.createsFor {n : ℕ} (h : StartedBy S s n source) : CreatesFor source s n := by
  obtain ⟨t, t', caller, raw, now, ls, hreach, hcaller, hstep, rfl, hrun⟩ := h
  have hstart : CreatesFor source t' t.calls.length := by
    cases System.stepped_of_exec hstep with
    | createStarted hintent =>
      obtain ⟨source', hcaller', -, hbuilt⟩ := Plugin.intentRequestOf_eq_ok.mp hintent
      cases hcaller.symm.trans hcaller'
      exact Or.inr ⟨_, _, _, List.getElem?_concat_length, CreateRequest.source_of_intent hbuilt⟩
  exact (hrun.preserves (I := fun s ↦ CreatesFor source s t.calls.length)
    (fun _ _ _ _ hi hnext ↦ hi.step hnext) (hreach.step hstep) hstart).2

/-- A step of a create call touches no other module. -/
theorem untouched_of_advance (hreach : (system S).Reachable s) {n : ℕ} {input : Input}
    (h : CreatesFor source s n) (hstep : (system S).Step s (.advance n input, reply) s') :
    Ledger.Untouched source s.ledger s'.ledger := by
  cases System.stepped_of_exec hstep with
  | @advanced _ _ c c' L _ hc hadvance =>
    rcases h with hreturned | ⟨request, now, phase, hcreate, hmodule⟩
    · cases hc.symm.trans hreturned
      cases hadvance
    · cases hc.symm.trans hcreate
      cases hadvance with
      | replayFailed | replayed | unknown | renderFailed | renderRefused | prepared | locked
      | recheckFailed | rechecked | absent | writeFailed => exact Ledger.Untouched.refl
      | @written _ _ intent nonces _ receipt hwrite =>
        have hprepared : intent ∈ (CreatePhase.writing intent).intent? := rfl
        obtain ⟨hsource, -⟩ := source_of_remembered hreach (List.mem_of_getElem? hc) hprepared
        obtain ⟨e, -, hwrote, -⟩ := wrote_of_writeIntent hwrite
        refine Ledger.Untouched.insert? hwrote.intents hwrote.deliveries rfl ?_ hwrote.attempts
          hwrote.receipts hwrote.retryRequests
        exact (congrArg (fun source ↦ source.moduleId) hsource).trans hmodule

end Calls

/-! ## Lifecycle calls -/

/-- A lifecycle observation of this invitation, made at this time, changes exactly the deliveries
that wait for an attempt under an intent of the module requested by then. -/
structure CancelsExactly (source invitationId : String) (observedAt : DateTime) (L L' : Ledger) :
    Prop where
  deliveries : List.Forall₂ (fun d d' ↦
    (Concerns L d source invitationId observedAt ∧
        (d.status = .queued ∨ d.status = .retryScheduled) →
      d'.status = .failed ∧ d'.revision = d.revision + 1 ∧ d'.identity = d.identity ∧
        d'.attemptCount = d.attemptCount) ∧
    (¬(Concerns L d source invitationId observedAt ∧
        (d.status = .queued ∨ d.status = .retryScheduled)) → d' = d))
    L.deliveries.rows L'.deliveries.rows
  intents : L'.intents = L.intents
  attempts : L'.attempts = L.attempts
  receipts : L'.receipts = L.receipts
  retryRequests : L'.retryRequests = L.retryRequests

section Lifecycle

variable {S : Setting} {s s' : System} {source : String} {command : Command} {reply : Reply}

section

variable {invitationId : String} {observedAt : DateTime} {event : ObservationEnvelope}
  {L L' : Ledger}

theorem CancelledBy.exactly (h : CancelledBy source invitationId observedAt event L L') :
    CancelsExactly source invitationId observedAt L L' := by
  refine ⟨?_, h.intents, h.attempts, h.receipts, h.retryRequests⟩
  rw [h.deliveries, Table.rows_update, List.forall₂_map_right_iff, List.forall₂_same]
  intro d hd
  rw [← cancellable_iff hd]
  constructor
  · intro hcancels
    rw [if_pos hcancels]
    exact ⟨rfl, rfl, rfl, rfl⟩
  · exact fun hkept ↦ if_neg hkept

theorem CancelledBy.untouched (h : CancelledBy source invitationId observedAt event L L') :
    Ledger.Untouched source L L' := by
  refine Ledger.Untouched.update h.deliveries (fun _ ↦ rfl) ?_ h.intents h.attempts h.receipts
    h.retryRequests
  intro d hd hcancels
  obtain ⟨⟨-, i, hi, hmodule, -⟩, -⟩ := (cancellable_iff hd).mp hcancels
  have hget : L.deliveries.get? d.id = some d := Table.get?_of_mem hd
  rw [Ledger.foreign_of_get? hget hi, hmodule]
  simp

end

/-! ## The main result -/

/-- **Business callers cannot touch each other's work**: whatever a call by one of them carries, its
steps leave the rows of every other module alone. A lifecycle call that is recorded cancels the
deliveries it concerns and no others; one that is refused, or whose observation was recorded before,
changes nothing. -/
theorem isolated_of_step (hreach : (system S).Reachable s) (hacts : ActsAs S s source command)
    (hstep : (system S).Step s (command, reply) s') :
    Ledger.Untouched source s.ledger s'.ledger ∧
      ∀ caller request, command = .observeInvitationLifecycle caller request →
        (∃ observedAt, RecordsLifecycle S s (command, reply) source request observedAt ∧
          CancelsExactly source request.invitationId observedAt s.ledger s'.ledger) ∨
        (∀ observedAt, ¬RecordsLifecycle S s (command, reply) source request observedAt) ∧
          s'.ledger = s.ledger := by
  cases hacts with
  | create =>
    refine ⟨?_, nofun⟩
    cases System.stepped_of_exec hstep <;> exact Ledger.Untouched.refl
  | advance hstarted => exact ⟨untouched_of_advance hreach hstarted.createsFor hstep, nofun⟩
  | abandon =>
    refine ⟨?_, nofun⟩
    cases System.stepped_of_exec hstep
    exact Ledger.Untouched.refl
  | observeInvitationLifecycle hcaller =>
    rcases effect_of_lifecycle hcaller hstep with ⟨t, event, hrecords, hcancels⟩ | ⟨hnone, hsame⟩
    · refine ⟨hcancels.untouched, ?_⟩
      rintro _ _ ⟨⟩
      exact Or.inl ⟨t, hrecords, hcancels.exactly⟩
    · refine ⟨?_, ?_⟩
      · rw [hsame]
        exact Ledger.Untouched.refl
      · rintro _ _ ⟨⟩
        exact Or.inr ⟨hnone, hsame⟩

end Lifecycle

namespace Deployment

/-- The module and the status of each delivery. -/
def modules (s : System) : List (Option String × DeliveryStatus) :=
  s.ledger.deliveries.rows.map fun d ↦ (s.ledger.moduleOf d.id, d.status)

/-- Two modules have a delivery each, and the revocation cancels that of the organization. -/
def revocationIsolated (s : System) : Bool :=
  decide (modules s = [(some "org", .queued), (some "team", .queued)]) &&
    (s.exec setting (observeRevoked "o1")).any fun q : System × Reply ↦
      isLifecycleRecorded q.2 &&
        decide (modules q.1 = [(some "org", .failed), (some "team", .queued)])

theorem exists_revocationIsolated :
    ∃ s, (system setting).Reachable s ∧ revocationIsolated s = true :=
  exists_of_execAll (createByTeam 1) revocationIsolated reachable_queued (by decide +kernel)

end Deployment

/-- The organization revokes its invitation while another module's, to the same thing and under the
same key, waits beside it. -/
theorem isolated_of_step_revoked :
    ∃ s s', (system Deployment.setting).Step s
        (Deployment.observeRevoked "o1", .lifecycle (.ok ())) s' ∧
      Deployment.modules s = [(some "org", .queued), (some "team", .queued)] ∧
      Deployment.modules s' = [(some "org", .failed), (some "team", .queued)] ∧
      Ledger.Untouched "org" s.ledger s'.ledger ∧
      ∃ request observedAt, Deployment.observeRevoked "o1" =
          .observeInvitationLifecycle (some "org") request ∧
        RecordsLifecycle Deployment.setting s (Deployment.observeRevoked "o1", .lifecycle (.ok ()))
          "org" request observedAt ∧
        CancelsExactly "org" request.invitationId observedAt s.ledger s'.ledger := by
  obtain ⟨s, hreach, h⟩ := Deployment.exists_revocationIsolated
  rw [Deployment.revocationIsolated, Bool.and_eq_true, decide_eq_true_eq] at h
  obtain ⟨hbefore, hrevoked⟩ := h
  obtain ⟨⟨s', reply⟩, hstep, h⟩ := (Option.any_eq_true _ _).mp hrevoked
  rw [Bool.and_eq_true, decide_eq_true_eq] at h
  obtain ⟨hreply, hafter⟩ := h
  have hrecorded : reply = .lifecycle (.ok ()) := Deployment.eq_of_isLifecycleRecorded hreply
  rw [hrecorded] at hstep
  have hacts : ActsAs Deployment.setting s "org" (Deployment.observeRevoked "o1") :=
    .observeInvitationLifecycle (by decide)
  obtain ⟨huntouched, hlifecycle⟩ := isolated_of_step hreach hacts hstep
  refine ⟨s, s', hstep, hbefore, hafter, huntouched, ?_⟩
  rcases hlifecycle _ _ rfl with ⟨observedAt, hrecords, hcancels⟩ | ⟨-, hsame⟩
  · exact ⟨_, observedAt, rfl, hrecords, hcancels⟩
  · -- the delivery of the organization has changed
    have hchanged := hbefore.symm.trans ((congrArg (fun L ↦ L.deliveries.rows.map
      fun d ↦ (L.moduleOf d.id, d.status)) hsame.symm).trans hafter)
    exact absurd hchanged (by decide)

/-! ## A replayed observation

The order matters here: the revocation is reported, the invitation is stored, and the same report
comes again. It is a replay, and the delivery that matches it now waits on. -/

namespace Deployment

/-- The revocation is reported before the invitation is stored, and once more afterwards. -/
theorem replayedRevocation_runs :
    ((prepared.execAll setting (observeRevoked "o1" :: storing)).any
      fun p : System × List Reply ↦ decide (p.1.ledger.intents = queued.ledger.intents) &&
        decide (p.1.ledger.deliveries = queued.ledger.deliveries) &&
        (p.1.exec setting (observeRevoked "o1")).any fun q : System × Reply ↦
          isLifecycleRecorded q.2 &&
            decide (q.1.ledger.deliveries = queued.ledger.deliveries)) = true := by
  decide +kernel

end Deployment

/-- The second report of the revocation is accepted as a replay, and the delivery that was queued in
between stays queued. -/
theorem not_cancelsExactly_replayed :
    ∃ s s', (system Deployment.setting).Reachable s ∧
      (system Deployment.setting).Step s (Deployment.observeRevoked "o1", .lifecycle (.ok ())) s' ∧
      ¬CancelsExactly "org" "i1" Deployment.midnight s.ledger s'.ledger := by
  obtain ⟨p, hp, h⟩ := (Option.any_eq_true _ _).mp Deployment.replayedRevocation_runs
  simp only [Bool.and_eq_true, decide_eq_true_eq] at h
  obtain ⟨⟨hintents, hdeliveries⟩, hsecond⟩ := h
  obtain ⟨⟨s', reply⟩, hstep, h⟩ := (Option.any_eq_true _ _).mp hsecond
  simp only [Bool.and_eq_true, decide_eq_true_eq] at h
  obtain ⟨hreply, hkept⟩ := h
  have hreach : (system Deployment.setting).Reachable p.1 :=
    reachable_of_execAll Deployment.reachable_prepared (by rw [hp, Option.map_some])
  refine ⟨p.1, s', hreach, ?_, fun hcancels ↦ ?_⟩
  · rw [← Deployment.eq_of_isLifecycleRecorded hreply]
    exact hstep
  · have hrows := hcancels.deliveries
    rw [hdeliveries, hkept] at hrows
    obtain ⟨⟨hcancelled, -⟩, -⟩ := List.forall₂_cons.mp hrows
    have hconcerns : Concerns p.1.ledger
        { Deployment.delivery with
          status := .queued
          revision := 1
          attemptCount := 0
          nextAttemptAt := some 820540800000000 } "org" "i1" Deployment.midnight := by
      refine ⟨?_, Deployment.intent, ?_, rfl, rfl, rfl, by decide⟩
      · rw [hdeliveries]
        exact List.mem_cons_self
      · rw [hintents]
        decide
    cases (hcancelled ⟨hconcerns, Or.inl rfl⟩).1

end NotificationLedger

import NotificationLedger.Contracts
import NotificationLedger.Foundation.Table
import NotificationLedger.Foundation.Outcome

/-!
# The ledger schema

The nine tables of the `notification` schema after migrations 0001 to 0003. A row holds every
column except the constant `channel`; a `Table` carries the primary key and unique constraints in
its type. `Conforms` states the `CHECK` constraints of a row together with the encoding condition on
its texts, and an insertion demands it along with the foreign keys.

An `UPDATE` changes no key and no text that is not checked where the statement is issued. Its
`CHECK` constraints are not evaluated again here: that every row of a reachable ledger still
satisfies them is a theorem.

## What the types carry

Primary keys and unique constraints are part of the type of a table, check constraints and foreign
keys are demanded by an insertion. A ledger is therefore a value the database could hold as far as
keys go, and `Ledger.Checked` says the rest.
-/

namespace NotificationLedger

/-! ## Column types

Enumerations stand for the text columns that a check constraint lists. A parameter of a statement is
storable or the statement fails. -/

inductive Purpose
  | organizationInvitation
  | accessRequest
  deriving DecidableEq, Repr

/-- `receipts.kind`: an accepted dispatch leaves evidence beside the three receipt kinds. -/
inductive EvidenceKind
  | accepted
  | delivered
  | bounced
  | rejected
  deriving DecidableEq, Repr

def EvidenceKind.asStr : EvidenceKind → String
  | .accepted => "accepted"
  | .delivered => "delivered"
  | .bounced => "bounced"
  | .rejected => "rejected"

def ReceiptKind.evidence : ReceiptKind → EvidenceKind
  | .delivered => .delivered
  | .bounced => .bounced
  | .rejected => .rejected

inductive RetryKind
  | automatic
  | manual
  deriving DecidableEq, Repr

inductive RetryDecision
  | scheduled
  | rejected
  deriving DecidableEq, Repr

inductive Lifecycle
  | accepted
  | expired
  | revoked
  deriving DecidableEq, Repr

def Lifecycle.asStr : Lifecycle → String
  | .accepted => "accepted"
  | .expired => "expired"
  | .revoked => "revoked"

/-- All the texts can be bound as parameters. -/
def Storable (texts : List String) : Prop := ∀ t ∈ texts, storable t = true

instance (texts : List String) : Decidable (Storable texts) :=
  inferInstanceAs (Decidable (∀ t ∈ texts, storable t = true))

theorem Storable.cons_iff {t : String} {ts : List String} :
    Storable (t :: ts) ↔ storable t = true ∧ Storable ts := List.forall_mem_cons

theorem Storable.append_iff {ts us : List String} :
    Storable (ts ++ us) ↔ Storable ts ∧ Storable us := List.forall_mem_append

/-! ## Rows -/

structure TemplateRelease where
  id : String
  templateId : String
  version : String
  locale : String
  rendererIdentity : String
  templateDigest : String
  createdAt : Timestamp
  deriving DecidableEq

structure RenderSnapshot where
  id : String
  templateReleaseId : String
  subjectCiphertext : String
  textCiphertext : String
  htmlCiphertext : String
  protectionKeyRef : String
  contentDigest : String
  redactedPreview : String
  createdAt : Timestamp
  deriving DecidableEq

structure Intent where
  id : String
  purpose : Purpose
  sourceModule : String
  sourceEntityType : String
  sourceEntityId : String
  recipientCiphertext : String
  recipientKeyRef : String
  recipientMask : String
  locale : String
  snapshotId : String
  idempotencyKey : String
  requestDigest : String
  requestedBy : Option String
  correlationId : String
  causationId : Option String
  requestedAt : Timestamp
  deriving DecidableEq

structure Delivery where
  id : String
  intentId : String
  status : DeliveryStatus
  revision : ℕ
  attemptCount : ℕ
  maxAttempts : ℕ
  nextAttemptAt : Option Timestamp
  acceptedAt : Option Timestamp
  deliveredAt : Option Timestamp
  finalAt : Option Timestamp
  finalReason : Option String
  createdAt : Timestamp
  updatedAt : Timestamp
  deriving DecidableEq

structure Attempt where
  id : String
  deliveryId : String
  sequence : ℕ
  functionRunId : String
  dispatchEventId : String
  status : AttemptStatus
  provider : Option String
  remoteReceiptId : Option String
  remoteReceiptSource : Option String
  remoteReceiptDigest : Option String
  failureCode : Option String
  failureClassification : Option String
  startedAt : Timestamp
  completedAt : Option Timestamp
  deriving DecidableEq

/-- The columns of a delivery that no statement ever rewrites. -/
def Delivery.identity (d : Delivery) : String × String × ℕ × Timestamp :=
  (d.id, d.intentId, d.maxAttempts, d.createdAt)

/-- The columns of an attempt that no statement ever rewrites. -/
def Attempt.identity (a : Attempt) : String × String × ℕ × String × String :=
  (a.id, a.deliveryId, a.sequence, a.functionRunId, a.dispatchEventId)

structure Receipt where
  id : String
  deliveryId : String
  attemptId : String
  kind : EvidenceKind
  source : String
  remoteId : String
  digest : String
  observedAt : Timestamp
  recordedAt : Timestamp
  deriving DecidableEq

structure RetryRequest where
  id : String
  deliveryId : String
  kind : RetryKind
  requestedBy : Option String
  sourceRevision : ℕ
  idempotencyKey : String
  decision : RetryDecision
  reason : Option String
  scheduledAt : Option Timestamp
  createdAt : Timestamp
  deriving DecidableEq

structure ConsumedEvent where
  eventId : String
  eventName : String
  eventDigest : String
  consumedAt : Timestamp
  deriving DecidableEq

structure SourceLifecycleEvent where
  eventId : String
  sourceModule : String
  sourceEntityType : String
  sourceEntityId : String
  lifecycle : Lifecycle
  observedAt : Timestamp
  recordedAt : Timestamp
  deriving DecidableEq

/-! ## Primary keys and unique constraints -/

instance : Keyed TemplateRelease String where
  key := TemplateRelease.id
  Clash a b := a.id = b.id ∨
    (a.templateId = b.templateId ∧ a.version = b.version ∧ a.locale = b.locale)
  clash_symm h := by grind
  clash_of_key := Or.inl
  decidableClash _ _ := inferInstanceAs (Decidable (_ ∨ _))

instance : Keyed RenderSnapshot String where
  key := RenderSnapshot.id
  Clash a b := a.id = b.id
  clash_symm h := h.symm
  clash_of_key := id
  decidableClash _ _ := inferInstanceAs (Decidable (_ = _))

instance : Keyed Intent String where
  key := Intent.id
  Clash a b := a.id = b.id ∨
    (a.sourceModule = b.sourceModule ∧ a.idempotencyKey = b.idempotencyKey)
  clash_symm h := by grind
  clash_of_key := Or.inl
  decidableClash _ _ := inferInstanceAs (Decidable (_ ∨ _))

instance : Keyed Delivery String where
  key := Delivery.id
  Clash a b := a.id = b.id ∨ a.intentId = b.intentId
  clash_symm h := by grind
  clash_of_key := Or.inl
  decidableClash _ _ := inferInstanceAs (Decidable (_ ∨ _))

instance : Keyed Attempt String where
  key := Attempt.id
  Clash a b := a.id = b.id ∨ a.functionRunId = b.functionRunId ∨
    a.dispatchEventId = b.dispatchEventId ∨
    (a.deliveryId = b.deliveryId ∧ a.sequence = b.sequence)
  clash_symm h := by grind
  clash_of_key := Or.inl
  decidableClash _ _ := inferInstanceAs (Decidable (_ ∨ _))

instance : Keyed Receipt String where
  key := Receipt.id
  Clash a b := a.id = b.id ∨ (a.source = b.source ∧ a.remoteId = b.remoteId ∧ a.kind = b.kind)
  clash_symm h := by grind
  clash_of_key := Or.inl
  decidableClash _ _ := inferInstanceAs (Decidable (_ ∨ _))

instance : Keyed RetryRequest String where
  key := RetryRequest.id
  Clash a b := a.id = b.id ∨
    (a.deliveryId = b.deliveryId ∧ a.idempotencyKey = b.idempotencyKey)
  clash_symm h := by grind
  clash_of_key := Or.inl
  decidableClash _ _ := inferInstanceAs (Decidable (_ ∨ _))

instance : Keyed ConsumedEvent String where
  key := ConsumedEvent.eventId
  Clash a b := a.eventId = b.eventId
  clash_symm h := h.symm
  clash_of_key := id
  decidableClash _ _ := inferInstanceAs (Decidable (_ = _))

instance : Keyed SourceLifecycleEvent String where
  key := SourceLifecycleEvent.eventId
  Clash a b := a.eventId = b.eventId
  clash_symm h := h.symm
  clash_of_key := id
  decidableClash _ _ := inferInstanceAs (Decidable (_ = _))

/-- The nine tables of the `notification` schema. -/
structure Ledger where
  templateReleases : Table TemplateRelease
  renderSnapshots : Table RenderSnapshot
  intents : Table Intent
  deliveries : Table Delivery
  attempts : Table Attempt
  receipts : Table Receipt
  retryRequests : Table RetryRequest
  consumedEvents : Table ConsumedEvent
  sourceLifecycleEvents : Table SourceLifecycleEvent
  deriving DecidableEq

/-- The ledger a fresh migration leaves behind. -/
def Ledger.empty : Ledger where
  templateReleases := Table.empty
  renderSnapshots := Table.empty
  intents := Table.empty
  deliveries := Table.empty
  attempts := Table.empty
  receipts := Table.empty
  retryRequests := Table.empty
  consumedEvents := Table.empty
  sourceLifecycleEvents := Table.empty

/-! ## Check constraints

In the order of the schema, one definition for each table, with the condition that PostgreSQL puts
on every text. -/

def TemplateRelease.Conforms (r : TemplateRelease) : Prop :=
  Storable [r.id, r.templateId, r.version, r.locale, r.rendererIdentity, r.templateDigest] ∧
    0 < r.templateId.length ∧ 0 < r.version.length ∧ 0 < r.locale.length ∧
    isDigest r.templateDigest = true
  deriving Decidable

def RenderSnapshot.Conforms (r : RenderSnapshot) : Prop :=
  Storable [r.id, r.templateReleaseId, r.subjectCiphertext, r.textCiphertext, r.htmlCiphertext,
      r.protectionKeyRef, r.contentDigest, r.redactedPreview] ∧
    (0 < r.subjectCiphertext.length ∧ 0 < r.textCiphertext.length ∧
      0 < r.htmlCiphertext.length) ∧
    isDigest r.contentDigest = true ∧ r.redactedPreview.length ≤ 160
  deriving Decidable

def Intent.Conforms (r : Intent) : Prop :=
  Storable [r.id, r.sourceModule, r.sourceEntityType, r.sourceEntityId, r.recipientCiphertext,
      r.recipientKeyRef, r.recipientMask, r.locale, r.snapshotId, r.idempotencyKey,
      r.requestDigest, r.correlationId] ∧
    Storable (r.requestedBy.toList ++ r.causationId.toList) ∧ 0 < r.idempotencyKey.length ∧
    isDigest r.requestDigest = true ∧
    (3 ≤ r.recipientMask.length ∧ r.recipientMask.length ≤ 320)
  deriving Decidable

def Delivery.Conforms (r : Delivery) : Prop :=
  Storable [r.id, r.intentId] ∧
    (1 ≤ r.maxAttempts ∧ r.maxAttempts ≤ 10 ∧ r.attemptCount ≤ r.maxAttempts) ∧
    0 < r.revision ∧ r.status.isFinal = r.finalAt.isSome
  deriving Decidable

def Attempt.Conforms (r : Attempt) : Prop :=
  Storable [r.id, r.deliveryId, r.functionRunId, r.dispatchEventId] ∧ 0 < r.sequence ∧
    ∀ digest ∈ r.remoteReceiptDigest, isDigest digest = true
  deriving Decidable

def Receipt.Conforms (r : Receipt) : Prop :=
  Storable [r.id, r.deliveryId, r.attemptId, r.source, r.remoteId, r.digest] ∧
    isDigest r.digest = true
  deriving Decidable

def RetryRequest.Conforms (r : RetryRequest) : Prop :=
  Storable [r.id, r.deliveryId, r.idempotencyKey] ∧
    Storable (r.requestedBy.toList ++ r.reason.toList)
  deriving Decidable

def ConsumedEvent.Conforms (r : ConsumedEvent) : Prop :=
  Storable [r.eventId, r.eventName, r.eventDigest] ∧ isDigest r.eventDigest = true
  deriving Decidable

def SourceLifecycleEvent.Conforms (r : SourceLifecycleEvent) : Prop :=
  Storable [r.eventId, r.sourceModule, r.sourceEntityType, r.sourceEntityId]
  deriving Decidable

namespace Ledger

variable (L : Ledger)

/-! ## Insertions

An insertion fails if the row breaks a check, a foreign key, or a unique constraint. Which of them
it breaks makes no difference to the source, which maps all of them to one error. -/

def insertTemplateRelease (r : TemplateRelease) : Option Ledger :=
  if r.Conforms then
    (L.templateReleases.insert? r).map fun T ↦ { L with templateReleases := T }
  else none

def insertRenderSnapshot (r : RenderSnapshot) : Option Ledger :=
  if r.Conforms ∧ (L.templateReleases.get? r.templateReleaseId).isSome then
    (L.renderSnapshots.insert? r).map fun T ↦ { L with renderSnapshots := T }
  else none

def insertIntent (r : Intent) : Option Ledger :=
  if r.Conforms ∧ (L.renderSnapshots.get? r.snapshotId).isSome then
    (L.intents.insert? r).map fun T ↦ { L with intents := T }
  else none

def insertDelivery (r : Delivery) : Option Ledger :=
  if r.Conforms ∧ (L.intents.get? r.intentId).isSome then
    (L.deliveries.insert? r).map fun T ↦ { L with deliveries := T }
  else none

def insertAttempt (r : Attempt) : Option Ledger :=
  if r.Conforms ∧ (L.deliveries.get? r.deliveryId).isSome then
    (L.attempts.insert? r).map fun T ↦ { L with attempts := T }
  else none

def insertReceipt (r : Receipt) : Option Ledger :=
  if r.Conforms ∧ (L.deliveries.get? r.deliveryId).isSome ∧
      (L.attempts.get? r.attemptId).isSome then
    (L.receipts.insert? r).map fun T ↦ { L with receipts := T }
  else none

def insertRetryRequest (r : RetryRequest) : Option Ledger :=
  if r.Conforms ∧ (L.deliveries.get? r.deliveryId).isSome then
    (L.retryRequests.insert? r).map fun T ↦ { L with retryRequests := T }
  else none

def insertConsumedEvent (r : ConsumedEvent) : Option Ledger :=
  if r.Conforms then
    (L.consumedEvents.insert? r).map fun T ↦ { L with consumedEvents := T }
  else none

def insertSourceLifecycleEvent (r : SourceLifecycleEvent) : Option Ledger :=
  if r.Conforms ∧ (L.consumedEvents.get? r.eventId).isSome then
    (L.sourceLifecycleEvents.insert? r).map fun T ↦ { L with sourceLifecycleEvents := T }
  else none

/-! ## What an insertion does

Backwards: a successful insertion has passed the three tests, and the table it leaves is the old one
with the row at its end. -/

private theorem guarded_map_eq_some {α β : Type} {c : Prop} [Decidable c] {o : Option α}
    {f : α → β} {b : β} :
    (if c then o.map f else none) = some b ↔ c ∧ ∃ a, o = some a ∧ b = f a := by
  by_cases hc : c
  · rw [if_pos hc, Option.map_eq_some_iff]
    exact ⟨fun ⟨a, ha, hb⟩ ↦ ⟨hc, a, ha, hb.symm⟩, fun ⟨_, a, ha, hb⟩ ↦ ⟨a, ha, hb.symm⟩⟩
  · rw [if_neg hc]
    constructor
    · intro h
      cases h
    · exact fun h ↦ absurd h.1 hc

variable {L} {L' : Ledger}

theorem insertTemplateRelease_eq_some {r : TemplateRelease} :
    L.insertTemplateRelease r = some L' ↔
      r.Conforms ∧ ∃ T, L.templateReleases.insert? r = some T ∧
        L' = { L with templateReleases := T } :=
  guarded_map_eq_some

theorem insertRenderSnapshot_eq_some {r : RenderSnapshot} :
    L.insertRenderSnapshot r = some L' ↔
      (r.Conforms ∧ (L.templateReleases.get? r.templateReleaseId).isSome) ∧
        ∃ T, L.renderSnapshots.insert? r = some T ∧ L' = { L with renderSnapshots := T } :=
  guarded_map_eq_some

theorem insertIntent_eq_some {r : Intent} :
    L.insertIntent r = some L' ↔
      (r.Conforms ∧ (L.renderSnapshots.get? r.snapshotId).isSome) ∧
        ∃ T, L.intents.insert? r = some T ∧ L' = { L with intents := T } :=
  guarded_map_eq_some

theorem insertDelivery_eq_some {r : Delivery} :
    L.insertDelivery r = some L' ↔
      (r.Conforms ∧ (L.intents.get? r.intentId).isSome) ∧
        ∃ T, L.deliveries.insert? r = some T ∧ L' = { L with deliveries := T } :=
  guarded_map_eq_some

theorem insertAttempt_eq_some {r : Attempt} :
    L.insertAttempt r = some L' ↔
      (r.Conforms ∧ (L.deliveries.get? r.deliveryId).isSome) ∧
        ∃ T, L.attempts.insert? r = some T ∧ L' = { L with attempts := T } :=
  guarded_map_eq_some

theorem insertReceipt_eq_some {r : Receipt} :
    L.insertReceipt r = some L' ↔
      (r.Conforms ∧ (L.deliveries.get? r.deliveryId).isSome ∧
        (L.attempts.get? r.attemptId).isSome) ∧
        ∃ T, L.receipts.insert? r = some T ∧ L' = { L with receipts := T } :=
  guarded_map_eq_some

theorem insertRetryRequest_eq_some {r : RetryRequest} :
    L.insertRetryRequest r = some L' ↔
      (r.Conforms ∧ (L.deliveries.get? r.deliveryId).isSome) ∧
        ∃ T, L.retryRequests.insert? r = some T ∧ L' = { L with retryRequests := T } :=
  guarded_map_eq_some

theorem insertConsumedEvent_eq_some {r : ConsumedEvent} :
    L.insertConsumedEvent r = some L' ↔
      r.Conforms ∧ ∃ T, L.consumedEvents.insert? r = some T ∧
        L' = { L with consumedEvents := T } :=
  guarded_map_eq_some

theorem insertSourceLifecycleEvent_eq_some {r : SourceLifecycleEvent} :
    L.insertSourceLifecycleEvent r = some L' ↔
      (r.Conforms ∧ (L.consumedEvents.get? r.eventId).isSome) ∧
        ∃ T, L.sourceLifecycleEvents.insert? r = some T ∧
          L' = { L with sourceLifecycleEvents := T } :=
  guarded_map_eq_some

/-! ## When evidence can be inserted

Forwards, for the two tables whose keys depend on what others have sent. -/

/-- A retry request can be inserted unless its identity is taken. -/
theorem exists_insertRetryRequest {q : RetryRequest} (hconforms : q.Conforms)
    (hdelivery : (L.deliveries.get? q.deliveryId).isSome) :
    (∃ L', L.insertRetryRequest q = some L') ↔ ∀ r ∈ L.retryRequests.rows,
      r.id ≠ q.id ∧ ¬(r.deliveryId = q.deliveryId ∧ r.idempotencyKey = q.idempotencyKey) := by
  have hclash : (∀ r ∈ L.retryRequests.rows, ¬Keyed.Clash r q) ↔ ∀ r ∈ L.retryRequests.rows,
      r.id ≠ q.id ∧ ¬(r.deliveryId = q.deliveryId ∧ r.idempotencyKey = q.idempotencyKey) :=
    forall₂_congr fun _ _ ↦ not_or
  rw [← hclash]
  constructor
  · rintro ⟨L', h⟩
    obtain ⟨-, T, hT, -⟩ := insertRetryRequest_eq_some.mp h
    exact (Table.insert?_eq_some.mp hT).1
  · intro h
    obtain ⟨T, hT⟩ := Table.exists_insert? h
    exact ⟨_, insertRetryRequest_eq_some.mpr ⟨⟨hconforms, hdelivery⟩, T, hT, rfl⟩⟩

/-- A receipt can be inserted unless its identity is taken. -/
theorem exists_insertReceipt {q : Receipt} (hconforms : q.Conforms)
    (hdelivery : (L.deliveries.get? q.deliveryId).isSome)
    (hattempt : (L.attempts.get? q.attemptId).isSome) :
    (∃ L', L.insertReceipt q = some L') ↔ ∀ r ∈ L.receipts.rows,
      r.id ≠ q.id ∧ ¬(r.source = q.source ∧ r.remoteId = q.remoteId ∧ r.kind = q.kind) := by
  have hclash : (∀ r ∈ L.receipts.rows, ¬Keyed.Clash r q) ↔ ∀ r ∈ L.receipts.rows,
      r.id ≠ q.id ∧ ¬(r.source = q.source ∧ r.remoteId = q.remoteId ∧ r.kind = q.kind) :=
    forall₂_congr fun _ _ ↦ not_or
  rw [← hclash]
  constructor
  · rintro ⟨L', h⟩
    obtain ⟨-, T, hT, -⟩ := insertReceipt_eq_some.mp h
    exact (Table.insert?_eq_some.mp hT).1
  · intro h
    obtain ⟨T, hT⟩ := Table.exists_insert? h
    exact ⟨_, insertReceipt_eq_some.mpr ⟨⟨hconforms, hdelivery, hattempt⟩, T, hT, rfl⟩⟩

/-! ## Joins -/

variable (L)

/-- The rows joined on `attempts.delivery_id = deliveries.id` for one delivery and one attempt. -/
def deliveryWithAttempt (deliveryId attemptId : String) : Option (Delivery × Attempt) :=
  match L.deliveries.get? deliveryId, L.attempts.get? attemptId with
  | some delivery, some attempt =>
    if attempt.deliveryId = delivery.id then some (delivery, attempt) else none
  | _, _ => none

/-- The attempts of one delivery, oldest first. -/
def attemptsOf (deliveryId : String) : List Attempt :=
  L.attempts.rows.filter fun a ↦ decide (a.deliveryId = deliveryId)

variable {L}

theorem deliveryWithAttempt_eq_some {deliveryId attemptId : String} {delivery : Delivery}
    {attempt : Attempt} :
    L.deliveryWithAttempt deliveryId attemptId = some (delivery, attempt) ↔
      L.deliveries.get? deliveryId = some delivery ∧ L.attempts.get? attemptId = some attempt ∧
        attempt.deliveryId = delivery.id := by
  unfold deliveryWithAttempt
  cases hd : L.deliveries.get? deliveryId with
  | none => simp
  | some d =>
    cases ha : L.attempts.get? attemptId with
    | none => simp
    | some a =>
      simp only [Option.some_inj]
      split
      · next h =>
        simp only [Option.some_inj, Prod.mk.injEq]
        constructor
        · rintro ⟨rfl, rfl⟩
          exact ⟨rfl, rfl, h⟩
        · rintro ⟨rfl, rfl, -⟩
          exact ⟨rfl, rfl⟩
      · next h =>
        refine ⟨fun hn ↦ by simp at hn, ?_⟩
        rintro ⟨rfl, rfl, h'⟩
        exact absurd h' h

theorem mem_attemptsOf {deliveryId : String} {a : Attempt} :
    a ∈ L.attemptsOf deliveryId ↔ a ∈ L.attempts.rows ∧ a.deliveryId = deliveryId := by
  simp [attemptsOf, List.mem_filter]

end Ledger

end NotificationLedger

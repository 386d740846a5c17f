import NotificationLedger.Transactions
import Mathlib.Logic.Relation

/-!
# The ledger only grows

No transaction deletes a row, and no `UPDATE` touches an identifying column: `Extends` states this
for all nine tables at once and holds of every committed transaction (`Transaction.extends`). It is
what makes a fact such as "this id was consumed" or "this receipt exists" permanent.

`Linked` collects the references between rows that hold of every reachable ledger, including the two
that no foreign key states: a receipt's attempt belongs to the receipt's delivery, and ids are the
stable ids of what they identify.

## Statements

Each transaction is a sequence of insertions and of updates that keep the identifying columns
(`Statement`), whatever its tests were. What all statements keep is kept by every transaction, so
the invariants below are proved once per statement.
-/

namespace NotificationLedger

open Outcome

namespace Ledger

/-- Every row of `L` is still in `L'`, up to columns that do not identify it. -/
structure Extends (L L' : Ledger) : Prop where
  templateReleases : L.templateReleases.rows <+: L'.templateReleases.rows
  renderSnapshots : L.renderSnapshots.rows <+: L'.renderSnapshots.rows
  intents : L.intents.rows <+: L'.intents.rows
  deliveries : L.deliveries.rows.map Delivery.identity <+: L'.deliveries.rows.map Delivery.identity
  attempts : L.attempts.rows.map Attempt.identity <+: L'.attempts.rows.map Attempt.identity
  receipts : L.receipts.rows <+: L'.receipts.rows
  retryRequests : L.retryRequests.rows <+: L'.retryRequests.rows
  consumedEvents : L.consumedEvents.rows <+: L'.consumedEvents.rows
  sourceLifecycleEvents : L.sourceLifecycleEvents.rows <+: L'.sourceLifecycleEvents.rows

variable {L L' L'' : Ledger}

theorem Extends.refl (L : Ledger) : Extends L L :=
  ⟨List.prefix_rfl, List.prefix_rfl, List.prefix_rfl, List.prefix_rfl, List.prefix_rfl,
    List.prefix_rfl, List.prefix_rfl, List.prefix_rfl, List.prefix_rfl⟩

theorem Extends.trans (h : Extends L L') (h' : Extends L' L'') : Extends L L'' :=
  ⟨h.1.trans h'.1, h.2.trans h'.2, h.3.trans h'.3, h.4.trans h'.4, h.5.trans h'.5,
    h.6.trans h'.6, h.7.trans h'.7, h.8.trans h'.8, h.9.trans h'.9⟩

theorem Extends.exists_delivery (h : Extends L L') {d : Delivery} (hd : d ∈ L.deliveries.rows) :
    ∃ d' ∈ L'.deliveries.rows, d'.identity = d.identity :=
  List.mem_map.mp (h.deliveries.subset (List.mem_map_of_mem hd))

theorem Extends.exists_attempt (h : Extends L L') {a : Attempt} (ha : a ∈ L.attempts.rows) :
    ∃ a' ∈ L'.attempts.rows, a'.identity = a.identity :=
  List.mem_map.mp (h.attempts.subset (List.mem_map_of_mem ha))

theorem Extends.intent (h : Extends L L') {id : String} {i : Intent}
    (hi : L.intents.get? id = some i) : L'.intents.get? id = some i := by
  obtain ⟨hmem, hid⟩ := Table.get?_eq_some.mp hi
  exact Table.get?_eq_some.mpr ⟨h.intents.subset hmem, hid⟩

theorem Extends.join (h : Extends L L') {d : Delivery} {row : Runtime.DueRow}
    (hjoin : Runtime.join L d = some row) : Runtime.join L' d = some row := by
  simp only [Runtime.join, bind, Option.bind_eq_some_iff] at hjoin ⊢
  obtain ⟨i, hi, s, hs, t, ht, hrow⟩ := hjoin
  obtain ⟨hsmem, hsid⟩ := Table.get?_eq_some.mp hs
  obtain ⟨htmem, htid⟩ := Table.get?_eq_some.mp ht
  exact ⟨i, h.intent hi, s, Table.get?_eq_some.mpr ⟨h.renderSnapshots.subset hsmem, hsid⟩, t,
    Table.get?_eq_some.mpr ⟨h.templateReleases.subset htmem, htid⟩, hrow⟩

theorem Extends.consumed (h : Extends L L') {id : String} {c : ConsumedEvent}
    (hc : L.consumedEvents.get? id = some c) : L'.consumedEvents.get? id = some c := by
  obtain ⟨hmem, hid⟩ := Table.get?_eq_some.mp hc
  exact Table.get?_eq_some.mpr ⟨h.consumedEvents.subset hmem, hid⟩

end Ledger

/-! ## Statements

An insertion, or an update that keeps the identifying columns. Everything a transaction does to the
ledger is a list of these. -/

/-- One statement of a transaction, with what every caller of it guarantees about the row. -/
inductive Statement (X : Externals) : Ledger → Ledger → Prop
  | templateRelease {L L' : Ledger} {r : TemplateRelease}
      (h : L.insertTemplateRelease r = some L') : Statement X L L'
  | renderSnapshot {L L' : Ledger} {r : RenderSnapshot}
      (h : L.insertRenderSnapshot r = some L') : Statement X L L'
  | intent {L L' : Ledger} {r : Intent} (h : L.insertIntent r = some L') : Statement X L L'
  | delivery {L L' : Ledger} {intentId : String} {now : DateTime}
      (h : L.insertDelivery (Public.deliveryRow X intentId now) = some L') : Statement X L L'
  | attempt {L L' : Ledger} {r : Attempt} (h : L.insertAttempt r = some L') : Statement X L L'
  | receipt {L L' : Ledger} {r : Receipt} (h : L.insertReceipt r = some L')
      (hattempt : ∃ a ∈ L.attempts.rows, a.id = r.attemptId ∧ a.deliveryId = r.deliveryId) :
      Statement X L L'
  | retryRequest {L L' : Ledger} {r : RetryRequest} (h : L.insertRetryRequest r = some L') :
      Statement X L L'
  | consumedEvent {L L' : Ledger} {r : ConsumedEvent} (h : L.insertConsumedEvent r = some L') :
      Statement X L L'
  | sourceLifecycleEvent {L L' : Ledger} {r : SourceLifecycleEvent}
      (h : L.insertSourceLifecycleEvent r = some L') : Statement X L L'
  | update {L L' : Ledger}
      (hframe : L' = { L with
        deliveries := L'.deliveries
        attempts := L'.attempts })
      (hd : L'.deliveries.rows.map Delivery.identity = L.deliveries.rows.map Delivery.identity)
      (ha : L'.attempts.rows.map Attempt.identity = L.attempts.rows.map Attempt.identity) :
      Statement X L L'

/-- Any number of statements. -/
abbrev Statements (X : Externals) : Ledger → Ledger → Prop := Relation.ReflTransGen (Statement X)

section Statements

variable {X : Externals} {protector : SnapshotProtector} {L L' : Ledger}

open Relation (ReflTransGen)

/-- **No statement removes a row.** -/
theorem Statement.extends (h : Statement X L L') : L.Extends L' := by
  cases h with
  | templateRelease h =>
    obtain ⟨-, T, hT, rfl⟩ := Ledger.insertTemplateRelease_eq_some.mp h
    exact { Ledger.Extends.refl L with templateReleases := Table.insert?_prefix hT }
  | renderSnapshot h =>
    obtain ⟨-, T, hT, rfl⟩ := Ledger.insertRenderSnapshot_eq_some.mp h
    exact { Ledger.Extends.refl L with renderSnapshots := Table.insert?_prefix hT }
  | intent h =>
    obtain ⟨-, T, hT, rfl⟩ := Ledger.insertIntent_eq_some.mp h
    exact { Ledger.Extends.refl L with intents := Table.insert?_prefix hT }
  | delivery h =>
    obtain ⟨-, T, hT, rfl⟩ := Ledger.insertDelivery_eq_some.mp h
    exact { Ledger.Extends.refl L with deliveries := (Table.insert?_prefix hT).map _ }
  | attempt h =>
    obtain ⟨-, T, hT, rfl⟩ := Ledger.insertAttempt_eq_some.mp h
    exact { Ledger.Extends.refl L with attempts := (Table.insert?_prefix hT).map _ }
  | receipt h =>
    obtain ⟨-, T, hT, rfl⟩ := Ledger.insertReceipt_eq_some.mp h
    exact { Ledger.Extends.refl L with receipts := Table.insert?_prefix hT }
  | retryRequest h =>
    obtain ⟨-, T, hT, rfl⟩ := Ledger.insertRetryRequest_eq_some.mp h
    exact { Ledger.Extends.refl L with retryRequests := Table.insert?_prefix hT }
  | consumedEvent h =>
    obtain ⟨-, T, hT, rfl⟩ := Ledger.insertConsumedEvent_eq_some.mp h
    exact { Ledger.Extends.refl L with consumedEvents := Table.insert?_prefix hT }
  | sourceLifecycleEvent h =>
    obtain ⟨-, T, hT, rfl⟩ := Ledger.insertSourceLifecycleEvent_eq_some.mp h
    exact { Ledger.Extends.refl L with sourceLifecycleEvents := Table.insert?_prefix hT }
  | update hframe hd ha =>
    rw [hframe]
    exact { Ledger.Extends.refl L with
      deliveries := hd ▸ List.prefix_rfl
      attempts := ha ▸ List.prefix_rfl }

theorem Statements.extends (h : Statements X L L') : L.Extends L' := by
  induction h with
  | refl => exact Ledger.Extends.refl L
  | tail _ h ih => exact ih.trans h.extends

/-! ## The updates of the handlers

The three whole-ledger updates are statements of the second kind. -/

theorem statement_resolve (payload : EmailDispatchObserved) :
    Statement X L (L.resolve payload) :=
  .update rfl
    (Table.map_rows_update (Delivery.keeps_afterDispatch payload)
      (Delivery.afterDispatch_identity payload))
    (Table.map_rows_update (Attempt.keeps_resolved payload _ _) fun _ ↦ rfl)

theorem statement_absorb (payload : EmailDispatchObserved) : Statement X L (L.absorb payload) :=
  .update rfl rfl (Table.map_rows_update (Attempt.keeps_absorbed payload) fun _ ↦ rfl)

theorem statement_settle (payload : EmailReceiptObserved) : Statement X L (L.settle payload) :=
  .update rfl
    (Table.map_rows_update (Delivery.keeps_afterReceipt payload)
      (Delivery.afterReceipt_identity payload))
    (Table.map_rows_update (Attempt.keeps_receipted _ _) fun _ ↦ rfl)

/-! ## Every transaction is a sequence of statements

Read off the equivalences of the handlers. The guards are forgotten on the way, since no invariant
of this module needs them. -/

theorem statements_insertEvidence {event : ObservationEnvelope} {payload : EmailDispatchObserved}
    {d : Delivery} {a : Attempt} (ha : a ∈ L.attempts.rows) (haid : a.id = payload.attemptId)
    (had : a.deliveryId = payload.deliveryId)
    (h : Events.insertEvidence X event payload d L = some L') : Statements X L L' := by
  unfold Events.insertEvidence at h
  split at h
  · exact .single (.receipt h ⟨a, ha, haid, had⟩)
  · exact .single (.retryRequest h)
  · rw [Option.some_inj] at h
    exact h ▸ .refl

/-- An attempt is found again after an update, up to the columns that do not identify it. -/
private theorem exists_identity {T U : Table Attempt}
    (h : U.rows.map Attempt.identity = T.rows.map Attempt.identity) {a : Attempt}
    (ha : a ∈ T.rows) : ∃ b ∈ U.rows, b.identity = a.identity := by
  have hmem : a.identity ∈ U.rows.map Attempt.identity := h ▸ List.mem_map_of_mem ha
  exact List.mem_map.mp hmem

theorem statements_observe {event : ObservationEnvelope} {observation : Events.Observation}
    (h : observation.observe X L event = .ok L') : Statements X L L' := by
  cases observation with
  | dispatch payload =>
    obtain ⟨-, d, a, hjoin, -, hcase⟩ := Events.observeDispatch_eq_ok.mp h
    obtain ⟨hd, ha, had⟩ := Ledger.deliveryWithAttempt_eq_some.mp hjoin
    rcases hcase with ⟨-, -, -, rfl⟩ | ⟨-, -, -, -, hevidence⟩
    · exact .single (statement_absorb payload)
    · obtain ⟨hmem, haid⟩ := Table.get?_eq_some.mp ha
      obtain ⟨b, hb, hident⟩ := exists_identity (U := (L.resolve payload).attempts)
        (Table.map_rows_update (Attempt.keeps_resolved payload _ _) fun _ ↦ rfl) hmem
      have hbid : b.id = payload.attemptId := (congrArg Prod.fst hident).trans haid
      have hbd : b.deliveryId = payload.deliveryId :=
        (congrArg (fun i ↦ i.2.1) hident).trans (had.trans (Table.get?_eq_some.mp hd).2)
      exact (ReflTransGen.single (statement_resolve payload)).trans
        (statements_insertEvidence hb hbid hbd hevidence)
  | receipt payload =>
    obtain ⟨-, ⟨_, -, -, rfl⟩ | ⟨d, a, hsettles, L₁, hins, rfl⟩⟩ :=
      Events.observeReceipt_eq_ok.mp h
    · exact .refl
    · obtain ⟨hd, ha, had⟩ := Ledger.deliveryWithAttempt_eq_some.mp hsettles.rows
      obtain ⟨hmem, haid⟩ := Table.get?_eq_some.mp ha
      refine (ReflTransGen.single (.receipt hins ⟨a, hmem, haid, ?_⟩)).tail
        (statement_settle payload)
      exact had.trans (Table.get?_eq_some.mp hd).2
  | lifecycle payload =>
    obtain ⟨-, -, L₁, hins, hL'⟩ := Events.observeLifecycle_eq_ok.mp h
    refine (ReflTransGen.single (.sourceLifecycleEvent hins)).tail ?_
    obtain ⟨-, T, -, rfl⟩ := Ledger.insertSourceLifecycleEvent_eq_some.mp hins
    rw [hL']
    exact .update rfl (Table.map_rows_update (Delivery.keeps_finalized _ _ _) fun _ ↦ rfl) rfl

theorem statements_apply {event : ObservationEnvelope} (h : Events.apply X L event = .ok L') :
    Statements X L L' := by
  obtain ⟨observation, -, hrecord⟩ := Events.apply_eq_ok.mp h
  obtain ⟨-, ⟨_, -, -, rfl⟩ | ⟨-, L₁, hins, hrun⟩⟩ := Events.recordOnce_eq_ok.mp hrecord
  · exact .refl
  · exact (ReflTransGen.single (.consumedEvent hins)).trans (statements_observe hrun)

theorem statements_claimRow {row : Runtime.DueRow} {now : DateTime} {work : DispatchWork}
    (hd : L.deliveries.get? row.delivery.id = some row.delivery)
    (hclaimable : row.delivery.status.isClaimable = true)
    (h : Runtime.claimRow X protector L row now = .ok (L', work)) : Statements X L L' := by
  obtain ⟨-, -, -, -, L₁, hins, rfl⟩ := (Runtime.claimRow_eq_ok hd hclaimable).mp h
  refine (ReflTransGen.single (.attempt hins)).tail ?_
  obtain ⟨-, T, -, rfl⟩ := Ledger.insertAttempt_eq_some.mp hins
  refine .update rfl ?_ rfl
  have hidentity : ∀ d : Delivery,
      (d.claimed (row.delivery.attemptCount + 1) now).identity = d.identity := fun _ ↦ rfl
  exact Table.map_rows_update (Delivery.keeps_claimed _ now) hidentity

theorem statements_requestManualRetry {deliveryId idempotencyKey requestedBy : String}
    {expectedRevision : ℕ} {now : DateTime} {result : RetryResult}
    (h : Repository.requestManualRetry X L deliveryId expectedRevision idempotencyKey requestedBy
      now = .ok (L', result)) : Statements X L L' := by
  rcases Repository.of_requestManualRetry h with rfl | h
  · exact .refl
  obtain ⟨d, -, -, -, -, ⟨L₁, hins, rfl⟩, -⟩ := Repository.scheduleManualRetry_eq_ok.mp h
  refine (ReflTransGen.single (.retryRequest hins)).tail ?_
  obtain ⟨-, T, -, rfl⟩ := Ledger.insertRetryRequest_eq_some.mp hins
  refine .update rfl ?_ rfl
  have hidentity : ∀ d : Delivery,
      (d.rescheduled (expectedRevision + 1) now).identity = d.identity := fun _ ↦ rfl
  exact Table.map_rows_update (Delivery.keeps_rescheduled _ now) hidentity

theorem statements_writeIntent {intent : Public.IntentPersistence} {nonces : Public.Nonces}
    {now : DateTime} {receipt : TransactionalIntentReceipt}
    (h : Public.writeIntent X protector L intent nonces now = .ok (L', receipt)) :
    Statements X L L' := by
  obtain ⟨_, _, L₁, L₂, L₃, h₁, ⟨h₂, -⟩, h₃, h₄, -⟩ := Public.of_writeIntent h
  have hrest : Statements X L₁ L' :=
    ((ReflTransGen.single (.renderSnapshot h₂)).tail (.intent h₃)).tail (.delivery h₄)
  rcases Public.of_ensureTemplateRelease h₁ with rfl | ⟨r, hins⟩
  · exact hrest
  · exact (ReflTransGen.single (.templateRelease hins)).trans hrest

/-- A committed claim, as the claim of the row it selected. -/
theorem of_claimOneDue {locked : String → Bool} {now : DateTime}
    (h : Transaction.run X protector L (.claim locked now) = .ok L') :
    L' = L ∨ ∃ row work, L.deliveries.get? row.delivery.id = some row.delivery ∧
      row.delivery.status.isClaimable = true ∧ Runtime.isDue now row.delivery = true ∧
      Runtime.claimRow X protector L row now = .ok (L', work) := by
  simp only [Transaction.run, Runtime.claimOneDue] at h
  cases hselect : Runtime.selectDue L locked now with
  | none =>
    rw [hselect] at h
    simp only [map_pure, Option.elim_none, pure_eq_ok] at h
    exact Or.inl h.symm
  | some row =>
    obtain ⟨hmem, hdue, -, -⟩ := Runtime.of_selectDue hselect
    rw [hselect] at h
    simp only at h
    cases hclaim : Runtime.claimRow X protector L row now with
    | error e =>
      rw [hclaim] at h
      cases h
    | ok claimed =>
      rw [hclaim] at h
      cases h
      exact Or.inr ⟨row, claimed.2, Table.get?_of_mem hmem, (Runtime.isDue_iff.mp hdue).1, hdue,
        hclaim⟩

theorem fst_map_eq_ok {α : Type} {m : NotificationResult (Ledger × α)} :
    Prod.fst <$> m = .ok L' ↔ ∃ a, m = .ok (L', a) := by
  cases m with
  | error e => simp
  | ok p => simp [Prod.ext_iff]

/-- **Every transaction is a sequence of statements.** -/
theorem Transaction.statements {t : Transaction} (h : t.run X protector L = .ok L') :
    Statements X L L' := by
  cases t with
  | create intent nonces now =>
    obtain ⟨receipt, h⟩ := fst_map_eq_ok.mp h
    rcases Public.of_persistIntent h with ⟨rfl, -⟩ | ⟨-, h⟩
    · exact .refl
    · exact statements_writeIntent h
  | claim locked now =>
    rcases of_claimOneDue h with rfl | ⟨row, work, hd, hclaimable, -, h⟩
    · exact .refl
    · exact statements_claimRow hd hclaimable h
  | observe event => exact statements_apply h
  | retry deliveryId expectedRevision idempotencyKey requestedBy now =>
    obtain ⟨result, h⟩ := fst_map_eq_ok.mp h
    exact statements_requestManualRetry h

theorem Transaction.extends {t : Transaction} (h : t.run X protector L = .ok L') :
    L.Extends L' := (Transaction.statements h).extends

theorem extends_of_run {ts : List Transaction} (h : (transactions X protector).Run L ts L') :
    L.Extends L' := by
  induction h with
  | nil => exact Ledger.Extends.refl L
  | snoc _ hstep ih => exact ih.trans (Transaction.extends hstep)

/-- What holds of the empty ledger and survives every statement holds of every reachable one. -/
theorem reachable_of_statement {I : Ledger → Prop} (hempty : I Ledger.empty)
    (hstep : ∀ L L', I L → Statement X L L' → I L')
    (h : (transactions X protector).Reachable L) : I L := by
  refine Lts.Reachable.invariant (S := transactions X protector) (I := I) ?_ ?_ h
  · rintro L rfl
    exact hempty
  · intro L t L' _ hi hrun
    have hstatements : Statements X L L' := Transaction.statements hrun
    clear hrun
    induction hstatements with
    | refl => exact hi
    | tail _ h ih => exact hstep _ _ ih h

/-! ## References between rows

The references the schema declares, and those it does not. An insertion is checked for the first
kind; for the second the handlers look the rows up themselves. -/

/-- The references between rows that later arguments follow. No foreign key states the last one, nor
that the id of a delivery is the stable id of its intent. -/
structure Linked (X : Externals) (L : Ledger) : Prop where
  deliveries : ∀ d ∈ L.deliveries.rows,
    d.id = Public.deliveryIdOf X d.intentId ∧ ∃ i ∈ L.intents.rows, i.id = d.intentId
  attempts : ∀ a ∈ L.attempts.rows, ∃ d ∈ L.deliveries.rows, d.id = a.deliveryId
  receipts : ∀ r ∈ L.receipts.rows,
    ∃ a ∈ L.attempts.rows, a.id = r.attemptId ∧ a.deliveryId = r.deliveryId

private theorem exists_of_isSome {α : Type} {κ : Type} [Keyed α κ] [DecidableEq κ] {T : Table α}
    {k : κ} (h : (T.get? k).isSome) : ∃ a ∈ T.rows, Keyed.key a = k := by
  obtain ⟨a, ha⟩ := Option.isSome_iff_exists.mp h
  exact ⟨a, Table.get?_eq_some.mp ha⟩

theorem Linked.statement (h : Linked X L) (hs : Statement X L L') : Linked X L' := by
  cases hs with
  | templateRelease hins =>
    obtain ⟨-, T, -, rfl⟩ := Ledger.insertTemplateRelease_eq_some.mp hins
    exact ⟨h.deliveries, h.attempts, h.receipts⟩
  | renderSnapshot hins =>
    obtain ⟨-, T, -, rfl⟩ := Ledger.insertRenderSnapshot_eq_some.mp hins
    exact ⟨h.deliveries, h.attempts, h.receipts⟩
  | intent hins =>
    obtain ⟨-, T, hT, rfl⟩ := Ledger.insertIntent_eq_some.mp hins
    refine { h with deliveries := fun d hd ↦ ?_ }
    obtain ⟨hid, i, hi, hintent⟩ := h.deliveries d hd
    exact ⟨hid, i, (Table.mem_insert? hT).mpr (Or.inl hi), hintent⟩
  | delivery hins =>
    obtain ⟨⟨-, hfk⟩, T, hT, rfl⟩ := Ledger.insertDelivery_eq_some.mp hins
    refine { h with deliveries := fun d hd ↦ ?_, attempts := fun a ha ↦ ?_ }
    · rcases (Table.mem_insert? hT).mp hd with hd | rfl
      · exact h.deliveries d hd
      · exact ⟨rfl, exists_of_isSome hfk⟩
    · obtain ⟨d, hd, hid⟩ := h.attempts a ha
      exact ⟨d, (Table.mem_insert? hT).mpr (Or.inl hd), hid⟩
  | attempt hins =>
    obtain ⟨⟨-, hfk⟩, T, hT, rfl⟩ := Ledger.insertAttempt_eq_some.mp hins
    refine { h with attempts := fun a ha ↦ ?_, receipts := fun r hr ↦ ?_ }
    · rcases (Table.mem_insert? hT).mp ha with ha | rfl
      · exact h.attempts a ha
      · exact exists_of_isSome hfk
    · obtain ⟨a, ha, hid⟩ := h.receipts r hr
      exact ⟨a, (Table.mem_insert? hT).mpr (Or.inl ha), hid⟩
  | receipt hins hattempt =>
    obtain ⟨-, T, hT, rfl⟩ := Ledger.insertReceipt_eq_some.mp hins
    refine { h with receipts := fun r hr ↦ ?_ }
    rcases (Table.mem_insert? hT).mp hr with hr | rfl
    · exact h.receipts r hr
    · exact hattempt
  | retryRequest hins =>
    obtain ⟨-, T, -, rfl⟩ := Ledger.insertRetryRequest_eq_some.mp hins
    exact ⟨h.deliveries, h.attempts, h.receipts⟩
  | consumedEvent hins =>
    obtain ⟨-, T, -, rfl⟩ := Ledger.insertConsumedEvent_eq_some.mp hins
    exact ⟨h.deliveries, h.attempts, h.receipts⟩
  | sourceLifecycleEvent hins =>
    obtain ⟨-, T, -, rfl⟩ := Ledger.insertSourceLifecycleEvent_eq_some.mp hins
    exact ⟨h.deliveries, h.attempts, h.receipts⟩
  | update hframe hd ha =>
    -- every row is the old row up to columns that are not referred to
    have hold : ∀ d ∈ L'.deliveries.rows, ∃ b ∈ L.deliveries.rows, b.identity = d.identity :=
      fun d hmem ↦ List.mem_map.mp (hd ▸ List.mem_map_of_mem hmem)
    have holdAttempt : ∀ a ∈ L'.attempts.rows, ∃ b ∈ L.attempts.rows, b.identity = a.identity :=
      fun a hmem ↦ List.mem_map.mp (ha ▸ List.mem_map_of_mem hmem)
    have hext : L.Extends L' := (Statement.update (X := X) hframe hd ha).extends
    have hintents : L'.intents = L.intents := by rw [hframe]
    have hreceipts : L'.receipts = L.receipts := by rw [hframe]
    refine ⟨fun d hmem ↦ ?_, fun a hmem ↦ ?_, fun r hmem ↦ ?_⟩
    · obtain ⟨b, hb, hident⟩ := hold d hmem
      simp only [Delivery.identity, Prod.mk.injEq] at hident
      rw [← hident.1, ← hident.2.1, hintents]
      exact h.deliveries b hb
    · obtain ⟨b, hb, hident⟩ := holdAttempt a hmem
      obtain ⟨d, hd, hid⟩ := h.attempts b hb
      obtain ⟨d', hd', hident'⟩ := hext.exists_delivery hd
      refine ⟨d', hd', (congrArg Prod.fst hident').trans (hid.trans ?_)⟩
      exact congrArg (fun i ↦ i.2.1) hident
    · obtain ⟨b, hb, hid, hdelivery⟩ := h.receipts r (hreceipts ▸ hmem)
      obtain ⟨a, ha, hident⟩ := hext.exists_attempt hb
      exact ⟨a, ha, (congrArg Prod.fst hident).trans hid,
        (congrArg (fun i ↦ i.2.1) hident).trans hdelivery⟩

/-- **The rows of a reachable ledger are linked.** -/
theorem linked_of_reachable (h : (transactions X protector).Reachable L) : Linked X L := by
  refine reachable_of_statement ?_ (fun L L' hl hs ↦ hl.statement hs) h
  exact ⟨by simp [Ledger.empty], by simp [Ledger.empty], by simp [Ledger.empty]⟩

theorem Linked.attemptsOf_eq_nil (h : Linked X L) {deliveryId : String}
    (hd : L.deliveries.get? deliveryId = none) : L.attemptsOf deliveryId = [] := by
  refine List.eq_nil_iff_forall_not_mem.mpr fun a ha ↦ ?_
  obtain ⟨hmem, hid⟩ := Ledger.mem_attemptsOf.mp ha
  obtain ⟨d, hdmem, hdid⟩ := h.attempts a hmem
  exact Table.get?_eq_none.mp hd d hdmem (hdid.trans hid)

end Statements

end NotificationLedger

import NotificationLedger.Growth

/-!
# Rows as the schema admitted them

A row that is only ever inserted satisfies its `CHECK` constraints and foreign keys for good. The
updates touch deliveries and attempts alone, so of those only the identifying columns are kept here.
It follows that the joins behind the administrative queries never lose a delivery.
-/

namespace NotificationLedger

open Outcome

/-- Every row satisfies the constraints it was inserted under. -/
structure Ledger.Checked (L : Ledger) : Prop where
  templateReleases : ∀ t ∈ L.templateReleases.rows, t.Conforms
  renderSnapshots : ∀ s ∈ L.renderSnapshots.rows, s.Conforms ∧
    ∃ t ∈ L.templateReleases.rows, t.id = s.templateReleaseId
  intents : ∀ i ∈ L.intents.rows, i.Conforms ∧
    ∃ s ∈ L.renderSnapshots.rows, s.id = i.snapshotId
  deliveries : ∀ d ∈ L.deliveries.rows, Storable [d.id, d.intentId] ∧
    ∃ i ∈ L.intents.rows, i.id = d.intentId
  receipts : ∀ r ∈ L.receipts.rows, r.Conforms
  retryRequests : ∀ r ∈ L.retryRequests.rows, r.Conforms

section Checked

variable {X : Externals} {protector : SnapshotProtector} {L L' : Ledger}

private theorem exists_mem_of_isSome {α κ : Type} [Keyed α κ] [DecidableEq κ] {T : Table α}
    {k : κ} (h : (T.get? k).isSome) : ∃ a ∈ T.rows, Keyed.key a = k := by
  obtain ⟨a, ha⟩ := Option.isSome_iff_exists.mp h
  exact ⟨a, Table.get?_eq_some.mp ha⟩

/-- A fact about the rows of a table, after an insertion. -/
private theorem forall_insert? {α κ : Type} [Keyed α κ] [DecidableEq κ] {T U : Table α} {r : α}
    {P Q : α → Prop} (hinsert : T.insert? r = some U) (h : ∀ a ∈ T.rows, P a)
    (hkeep : ∀ a, P a → Q a) (hnew : Q r) : ∀ a ∈ U.rows, Q a := by
  intro a ha
  rcases (Table.mem_insert? hinsert).mp ha with hold | rfl
  · exact hkeep a (h a hold)
  · exact hnew

/-- A reference into a table that gains a row. -/
private theorem exists_mem_insert? {α κ : Type} [Keyed α κ] [DecidableEq κ] {T U : Table α}
    {r : α} {P : α → Prop} (hinsert : T.insert? r = some U) (h : ∃ a ∈ T.rows, P a) :
    ∃ a ∈ U.rows, P a := by
  obtain ⟨a, ha, hP⟩ := h
  exact ⟨a, (Table.mem_insert? hinsert).mpr (Or.inl ha), hP⟩

theorem Ledger.Checked.statement (h : L.Checked) (hs : Statement X L L') : L'.Checked := by
  cases hs with
  | templateRelease hins =>
    obtain ⟨hconforms, T, hT, rfl⟩ := Ledger.insertTemplateRelease_eq_some.mp hins
    refine { h with
      templateReleases := forall_insert? hT h.templateReleases (fun _ ht ↦ ht) hconforms
      renderSnapshots := fun s hs ↦ ?_ }
    exact (h.renderSnapshots s hs).imp_right (exists_mem_insert? hT)
  | renderSnapshot hins =>
    obtain ⟨⟨hconforms, hfk⟩, T, hT, rfl⟩ := Ledger.insertRenderSnapshot_eq_some.mp hins
    refine { h with
      renderSnapshots := forall_insert? hT h.renderSnapshots (fun _ hs ↦ hs)
        ⟨hconforms, exists_mem_of_isSome hfk⟩
      intents := fun i hi ↦ ?_ }
    exact (h.intents i hi).imp_right (exists_mem_insert? hT)
  | intent hins =>
    obtain ⟨⟨hconforms, hfk⟩, T, hT, rfl⟩ := Ledger.insertIntent_eq_some.mp hins
    refine { h with
      intents := forall_insert? hT h.intents (fun _ hi ↦ hi)
        ⟨hconforms, exists_mem_of_isSome hfk⟩
      deliveries := fun d hd ↦ ?_ }
    exact (h.deliveries d hd).imp_right (exists_mem_insert? hT)
  | delivery hins =>
    obtain ⟨⟨hconforms, hfk⟩, T, hT, rfl⟩ := Ledger.insertDelivery_eq_some.mp hins
    exact { h with
      deliveries := forall_insert? hT h.deliveries (fun _ hd ↦ hd)
        ⟨hconforms.1, exists_mem_of_isSome hfk⟩ }
  | attempt hins =>
    obtain ⟨-, T, -, rfl⟩ := Ledger.insertAttempt_eq_some.mp hins
    exact { h with }
  | receipt hins =>
    obtain ⟨⟨hconforms, -⟩, T, hT, rfl⟩ := Ledger.insertReceipt_eq_some.mp hins
    exact { h with receipts := forall_insert? hT h.receipts (fun _ hr ↦ hr) hconforms }
  | retryRequest hins =>
    obtain ⟨⟨hconforms, -⟩, T, hT, rfl⟩ := Ledger.insertRetryRequest_eq_some.mp hins
    exact { h with retryRequests := forall_insert? hT h.retryRequests (fun _ hr ↦ hr) hconforms }
  | consumedEvent hins =>
    obtain ⟨-, T, -, rfl⟩ := Ledger.insertConsumedEvent_eq_some.mp hins
    exact { h with }
  | sourceLifecycleEvent hins =>
    obtain ⟨-, T, -, rfl⟩ := Ledger.insertSourceLifecycleEvent_eq_some.mp hins
    exact { h with }
  | update hframe hd ha =>
    rw [hframe]
    refine { h with deliveries := fun d hmem ↦ ?_ }
    -- every row is the old row up to columns that are not constrained here
    obtain ⟨b, hb, hident⟩ :=
      List.mem_map.mp (hd ▸ List.mem_map_of_mem (f := Delivery.identity) hmem)
    simp only [Delivery.identity, Prod.mk.injEq] at hident
    rw [← hident.1, ← hident.2.1]
    exact h.deliveries b hb

/-- **Every row of a reachable ledger still satisfies its constraints.** -/
theorem checked_of_reachable (h : (transactions X protector).Reachable L) : L.Checked := by
  refine reachable_of_statement ?_ (fun L L' hc hs ↦ hc.statement hs) h
  constructor <;> exact fun _ hr ↦ absurd hr List.not_mem_nil

/-- The joins find every delivery. -/
theorem Ledger.Checked.exists_join (h : L.Checked) {d : Delivery} (hd : d ∈ L.deliveries.rows) :
    ∃ row, Runtime.join L d = some row ∧ row.delivery = d := by
  obtain ⟨-, i, hi, hid⟩ := h.deliveries d hd
  obtain ⟨-, s, hs, hsid⟩ := h.intents i hi
  obtain ⟨-, t, ht, htid⟩ := h.renderSnapshots s hs
  have hintent : L.intents.get? d.intentId = some i := Table.get?_eq_some.mpr ⟨hi, hid⟩
  have hsnapshot : L.renderSnapshots.get? i.snapshotId = some s :=
    Table.get?_eq_some.mpr ⟨hs, hsid⟩
  have htemplate : L.templateReleases.get? s.templateReleaseId = some t :=
    Table.get?_eq_some.mpr ⟨ht, htid⟩
  refine ⟨⟨d, i, s, t⟩, ?_, rfl⟩
  rw [Runtime.join, hintent, Option.bind_eq_bind, Option.bind_some, hsnapshot,
    Option.bind_eq_bind, Option.bind_some, htemplate, Option.bind_eq_bind, Option.bind_some]
  rfl

end Checked

end NotificationLedger

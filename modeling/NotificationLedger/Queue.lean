import NotificationLedger.Deployment

/-!
# The due queue

A claim works on one row only, the head of the due order. When that row can be claimed it is
claimed, whatever stands behind it; when it cannot, the transaction fails and no later row is
tried. The head is described here without the fold that selects it.
-/

namespace NotificationLedger

open Outcome

namespace Runtime

/-! ## The due order -/

section Order

variable {a b c : DueRow} {s t u : Timestamp}

theorem precedes_iff (ha : a.delivery.nextAttemptAt = some s)
    (hb : b.delivery.nextAttemptAt = some t) :
    precedes a b = true ↔ s < t ∨ (s = t ∧ a.delivery.id.toList < b.delivery.id.toList) := by
  simp only [precedes, ha, hb, Bool.or_eq_true, Bool.and_eq_true, decide_eq_true_eq]

theorem precedes_trans (ha : a.delivery.nextAttemptAt = some s)
    (hb : b.delivery.nextAttemptAt = some t) (hc : c.delivery.nextAttemptAt = some u)
    (h : precedes a b = true) (h' : precedes b c = true) : precedes a c = true := by
  rw [precedes_iff ha hb] at h
  rw [precedes_iff hb hc] at h'
  rw [precedes_iff ha hc]
  rcases h with h | ⟨rfl, h⟩
  · rcases h' with h' | ⟨rfl, -⟩
    · exact Or.inl (lt_trans h h')
    · exact Or.inl h
  · rcases h' with h' | ⟨rfl, h'⟩
    · exact Or.inl h'
    · exact Or.inr ⟨rfl, List.lt_trans h h'⟩

theorem precedes_self (a : DueRow) : precedes a a = false := by
  unfold precedes
  split
  · next s t hs ht =>
    cases hs.symm.trans ht
    simp
  · rfl

/-- Two rows that do not precede each other carry the same time and the same id. -/
theorem eq_of_not_precedes (ha : a.delivery.nextAttemptAt = some s)
    (hb : b.delivery.nextAttemptAt = some t) (hab : precedes a b = false)
    (hba : precedes b a = false) : s = t ∧ a.delivery.id = b.delivery.id := by
  rw [← Bool.not_eq_true, precedes_iff ha hb, not_or, not_and] at hab
  rw [← Bool.not_eq_true, precedes_iff hb ha, not_or, not_and] at hba
  have hst : s = t := le_antisymm (not_lt.mp hba.1) (not_lt.mp hab.1)
  exact ⟨hst, String.toList_inj.mp (List.le_antisymm (hba.2 hst.symm) (hab.2 hst))⟩

/-- A row that does not precede one that does not precede `c` does not precede `c` either. -/
theorem not_precedes_trans (ha : a.delivery.nextAttemptAt = some s)
    (hb : b.delivery.nextAttemptAt = some t) (hc : c.delivery.nextAttemptAt = some u)
    (hab : precedes a b = false) (hbc : precedes b c = false) : precedes a c = false := by
  rw [← Bool.not_eq_true]
  intro hac
  by_cases hcb : precedes c b = true
  · rw [precedes_trans ha hc hb hac hcb] at hab
    cases hab
  · obtain ⟨rfl, hid⟩ := eq_of_not_precedes hb hc hbc (eq_false_of_ne_true hcb)
    rw [precedes_iff ha hc, ← hid, ← precedes_iff ha hb, hab] at hac
    cases hac

end Order

/-- The fold keeps a row that nothing folded so far precedes. -/
theorem foldl_earlier_first {rows : List DueRow} {best : Option DueRow} {row : DueRow}
    (hrows : ∀ r ∈ rows, ∃ t, r.delivery.nextAttemptAt = some t)
    (hbest : ∀ b ∈ best, ∃ t, b.delivery.nextAttemptAt = some t) {u : Timestamp}
    (hu : row.delivery.nextAttemptAt = some u) (h : rows.foldl earlier best = some row) :
    (∀ r ∈ rows, precedes r row = false) ∧ ∀ b ∈ best, precedes b row = false := by
  induction rows generalizing best with
  | nil =>
    refine ⟨fun r hr ↦ absurd hr List.not_mem_nil, fun b hb ↦ ?_⟩
    cases hb.symm.trans h
    exact precedes_self row
  | cons a rows ih =>
    obtain ⟨s, ha⟩ := hrows a List.mem_cons_self
    have hrest : ∀ r ∈ rows, ∃ t, r.delivery.nextAttemptAt = some t :=
      fun r hr ↦ hrows r (List.mem_cons_of_mem _ hr)
    -- the row kept after `a` is one of the two, and nothing of either precedes it
    have hkept : ∃ k, earlier best a = some k ∧ (∃ t, k.delivery.nextAttemptAt = some t) ∧
        precedes a k = false ∧ ∀ b ∈ best, precedes b k = false := by
      cases best with
      | none => exact ⟨a, rfl, ⟨s, ha⟩, precedes_self a, fun b hb ↦ by cases hb⟩
      | some b =>
        obtain ⟨t, hb⟩ := hbest b rfl
        by_cases hab : precedes a b = true
        · refine ⟨a, by rw [earlier, if_pos hab], ⟨s, ha⟩, precedes_self a, ?_⟩
          rintro _ ⟨⟩
          rw [← Bool.not_eq_true]
          intro hba
          have hself := precedes_trans ha hb ha hab hba
          rw [precedes_self] at hself
          cases hself
        · refine ⟨b, by rw [earlier, if_neg hab], ⟨t, hb⟩, eq_false_of_ne_true hab, ?_⟩
          rintro _ ⟨⟩
          exact precedes_self b
    obtain ⟨k, hk, ⟨t, htime⟩, hak, hbk⟩ := hkept
    rw [List.foldl_cons, hk] at h
    obtain ⟨hall, hkrow⟩ := ih hrest (fun b hb ↦ by cases hb; exact ⟨t, htime⟩) h
    have hfirst := hkrow k rfl
    refine ⟨fun r hr ↦ ?_, fun b hb ↦ ?_⟩
    · rcases List.mem_cons.mp hr with rfl | hr
      · exact not_precedes_trans ha htime hu hak hfirst
      · exact hall r hr
    · obtain ⟨v, hv⟩ := hbest b hb
      exact not_precedes_trans hv htime hu (hbk b hb) hfirst

/-! ## The head -/

/-- The row stands at the head of the due order: nobody has locked it, and no other unlocked due row
precedes it. -/
structure IsHead (L : Ledger) (locked : String → Bool) (now : DateTime) (row : DueRow) : Prop where
  stored : row.delivery ∈ L.deliveries.rows
  due : isDue now row.delivery = true
  unlocked : locked row.delivery.id = false
  joined : join L row.delivery = some row
  first : ∀ r : DueRow, r.delivery ∈ L.deliveries.rows → isDue now r.delivery = true →
    locked r.delivery.id = false → join L r.delivery = some r → precedes r row = false

section Head

variable {L : Ledger} {locked : String → Bool} {now : DateTime} {row : DueRow}

theorem exists_nextAttemptAt {d : Delivery} (h : isDue now d = true) :
    ∃ t, d.nextAttemptAt = some t := by
  obtain ⟨-, ⟨t, ht, -⟩, -⟩ := isDue_iff.mp h
  exact ⟨t, ht⟩

theorem mem_candidates {r : DueRow} :
    r ∈ (L.deliveries.rows.filter fun d ↦ isDue now d && !locked d.id).filterMap (join L) ↔
      r.delivery ∈ L.deliveries.rows ∧ isDue now r.delivery = true ∧
        locked r.delivery.id = false ∧ join L r.delivery = some r := by
  rw [List.mem_filterMap]
  constructor
  · rintro ⟨d, hd, hjoin⟩
    obtain rfl := join_delivery hjoin
    rw [List.mem_filter, Bool.and_eq_true, Bool.not_eq_true'] at hd
    exact ⟨hd.1, hd.2.1, hd.2.2, hjoin⟩
  · rintro ⟨hmem, hdue, hlocked, hjoin⟩
    refine ⟨r.delivery, List.mem_filter.mpr ⟨hmem, ?_⟩, hjoin⟩
    rw [hdue, hlocked]
    rfl

/-- **The selected row is the head.** -/
theorem isHead_of_selectDue (h : selectDue L locked now = some row) :
    IsHead L locked now row := by
  obtain ⟨hmem, hdue, hlocked, hjoin⟩ := of_selectDue h
  obtain ⟨u, hu⟩ := exists_nextAttemptAt hdue
  refine ⟨hmem, hdue, hlocked, hjoin, fun r hr hrdue hrlocked hrjoin ↦ ?_⟩
  refine (foldl_earlier_first (fun r hr ↦ ?_) (fun b hb ↦ by cases hb) hu h).1 r
    (mem_candidates.mpr ⟨hr, hrdue, hrlocked, hrjoin⟩)
  exact exists_nextAttemptAt (mem_candidates.mp hr).2.1

/-- A queue has one head only. -/
theorem IsHead.eq {row' : DueRow} (h : IsHead L locked now row) (h' : IsHead L locked now row') :
    row = row' := by
  obtain ⟨s, hs⟩ := exists_nextAttemptAt h.due
  obtain ⟨t, ht⟩ := exists_nextAttemptAt h'.due
  have hid := (eq_of_not_precedes hs ht
    (h'.first row h.stored h.due h.unlocked h.joined)
    (h.first row' h'.stored h'.due h'.unlocked h'.joined)).2
  have hdelivery : row.delivery = row'.delivery := Table.eq_of_key h.stored h'.stored hid
  have hjoined := h.joined
  rw [hdelivery, h'.joined, Option.some_inj] at hjoined
  exact hjoined.symm

theorem selectDue_of_isHead (h : IsHead L locked now row) :
    selectDue L locked now = some row := by
  have hsome : (selectDue L locked now).isSome = true := by
    refine isSome_selectDue ?_
    exact List.ne_nil_of_mem (mem_candidates.mpr ⟨h.stored, h.due, h.unlocked, h.joined⟩)
  obtain ⟨row', hrow'⟩ := Option.isSome_iff_exists.mp hsome
  rw [hrow', (isHead_of_selectDue hrow').eq h]

end Head

/-! ## Claiming the head -/

/-- The row can be claimed: its revision has room and its envelopes can be revealed. -/
def Claimable (X : Externals) (protector : SnapshotProtector) (row : DueRow) : Prop :=
  row.delivery.revision < maxSafeWireInteger ∧
    ∃ request, requestOf protector row (claimOf X row.delivery) = .ok request

/-- The next attempt of the delivery can be inserted: the stored rows satisfy their checks, and none
of its identifiers is taken. -/
structure Free (X : Externals) (L : Ledger) (row : DueRow) (now : DateTime) : Prop where
  conforms : row.delivery.Conforms
  attempts : ∀ a ∈ L.attempts.rows,
    ¬Keyed.Clash a (attemptRow X row.delivery.id (row.delivery.attemptCount + 1) now)

end Runtime

namespace Ledger

/-- The attempt of a claim conforms whenever its delivery does. -/
theorem exists_insertAttempt {X : Externals} {L : Ledger} {row : Runtime.DueRow} {now : DateTime}
    (h : Runtime.Free X L row now) (hd : row.delivery ∈ L.deliveries.rows) :
    ∃ L', L.insertAttempt
      (Runtime.attemptRow X row.delivery.id (row.delivery.attemptCount + 1) now) = some L' := by
  obtain ⟨T, hT⟩ := Table.exists_insert? h.attempts
  refine ⟨_, insertAttempt_eq_some.mpr ⟨⟨?_, ?_⟩, T, hT, rfl⟩⟩
  · refine ⟨?_, Nat.succ_pos _, fun digest hdigest ↦ by cases hdigest⟩
    have hid : storable row.delivery.id = true := h.conforms.1 _ List.mem_cons_self
    rw [Storable.cons_iff, Storable.cons_iff, Storable.cons_iff, Storable.cons_iff]
    exact ⟨storable_stableId X (by decide), hid, storable_stableId X (by decide),
      storable_stableId X (by decide), by simp [Storable]⟩
  · exact Option.isSome_of_eq_some (Table.get?_of_mem hd)

end Ledger

open NotificationLedger.Runtime

section Main

variable {X : Externals} {protector : SnapshotProtector} {L : Ledger} {locked : String → Bool}
  {now : DateTime} {row : DueRow}

/-- **The head decides.** A head that can be claimed is claimed, whatever stands behind it; if it
cannot, the call fails whatever stands behind it. -/
theorem claims_head (hhead : IsHead L locked now row) (hfree : Free X L row now) :
    (Claimable X protector row → ∃ L' work,
        claimOneDue X protector L locked now = .ok (some (L', work)) ∧
        work.claim = claimOf X row.delivery) ∧
      (¬Claimable X protector row → ∃ e, claimOneDue X protector L locked now = .error e) := by
  have hget : L.deliveries.get? row.delivery.id = some row.delivery :=
    Table.get?_of_mem hhead.stored
  obtain ⟨hclaimable, -, hbudget⟩ := isDue_iff.mp hhead.due
  rw [claimOneDue, selectDue_of_isHead hhead]
  constructor
  · rintro ⟨hrev, request, hrequest⟩
    obtain ⟨L₁, hins⟩ := Ledger.exists_insertAttempt hfree hhead.stored
    have hclaim : claimRow X protector L row now =
        .ok (_, { claim := claimOf X row.delivery, request }) :=
      (claimRow_eq_ok hget hclaimable).mpr ⟨hrev, hbudget, hrequest, rfl, L₁, hins, rfl⟩
    exact ⟨_, _, by simp only [hclaim]; rfl, rfl⟩
  · intro hbad
    cases hclaim : claimRow X protector L row now with
    | error e => exact ⟨e, by simp only [hclaim]; rfl⟩
    | ok claimed =>
      obtain ⟨hrev, -, hrequest, -⟩ := (claimRow_eq_ok hget hclaimable).mp hclaim
      exact absurd ⟨hrev, _, hrequest⟩ hbad

end Main

namespace Deployment

/-! ## A queue with a bad head -/

/-- An invitation whose recipient envelope was damaged. -/
def damagedIntent : Intent := { intent with
  id := "ntf_int_00000000000000000000000000000000"
  recipientCiphertext := "?"
  idempotencyKey := "k0" }

/-- It has waited longer than the other. -/
def damagedDelivery : Delivery := { delivery with
  id := "ntf_dlv_00000000000000000000000000000000"
  intentId := damagedIntent.id
  status := .queued
  revision := 1
  attemptCount := 0
  nextAttemptAt := some 820540799000000 }

def waitingDelivery : Delivery := { delivery with
  status := .queued
  revision := 1
  attemptCount := 0
  nextAttemptAt := some 820540800000000 }

def waitingRow : DueRow where
  delivery := waitingDelivery
  intent := intent
  snapshot := renderSnapshot
  template := templateRelease

def damagedQueue : Ledger := { queued.ledger with
  intents := {
    rows := [damagedIntent, intent]
    distinct := by decide +kernel }
  deliveries := {
    rows := [damagedDelivery, waitingDelivery]
    distinct := by decide +kernel } }

end Deployment

/-- One due delivery can be claimed and another cannot, and the call fails. -/
theorem blocked_by_head :
    ∃ (L : Ledger) (locked : String → Bool) (now : DateTime) (row : DueRow),
      row.delivery ∈ L.deliveries.rows ∧ isDue now row.delivery = true ∧
      locked row.delivery.id = false ∧ join L row.delivery = some row ∧
      Claimable Deployment.externals Deployment.testSnapshotProtector row ∧
      ∃ e, claimOneDue Deployment.externals Deployment.testSnapshotProtector L locked now =
        .error e := by
  refine ⟨Deployment.damagedQueue, fun _ ↦ false, Deployment.midnight, Deployment.waitingRow,
    List.mem_cons_of_mem _ List.mem_cons_self, by decide, rfl, by decide,
    ⟨by decide, Deployment.work.request, by decide⟩, Deployment.invalidSnapshot,
    by decide⟩

/-- The only delivery of the queue is its head, and it is claimed. -/
theorem claims_head_waiting :
    ∃ L' work, claimOneDue Deployment.externals Deployment.testSnapshotProtector
        Deployment.queued.ledger (fun _ ↦ false) Deployment.midnight = .ok (some (L', work)) ∧
      work.claim = claimOf Deployment.externals Deployment.waitingDelivery := by
  have hhead : IsHead Deployment.queued.ledger (fun _ ↦ false) Deployment.midnight
      Deployment.waitingRow := isHead_of_selectDue (by decide)
  refine (claims_head hhead ⟨by decide, fun a ha ↦ nomatch ha⟩).1
    ⟨by decide, Deployment.work.request, by decide⟩

end NotificationLedger

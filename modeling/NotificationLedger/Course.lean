import NotificationLedger.Effects
import NotificationLedger.Runtime
import NotificationLedger.Repository
import NotificationLedger.Public
import NotificationLedger.Foundation.Run
import Mathlib.Data.List.Nodup

/-!
# The course of one delivery

The component seen from a single delivery: its row and its attempts, oldest first, moved by six
kinds of events. Nothing else of the ledger is visible here, in particular no other delivery and no
evidence table, so that invariants of one delivery are proved over six cases.

`Sound` collects what holds of every course. It says nothing about older attempts of a finalized
delivery beyond that they are closed: a receipt may rewrite any of them.

## Why the course is enough

The operations read other tables only to decide whether they run, and the machine allows every event
whose guard on the delivery and its attempts holds. It has more runs than the ledger, which costs
nothing: an invariant of all its runs is one of the ledger's.

`Step` has one rule for each kind of event, with the guards of the source as hypotheses, so that a
proof about a step is a case split over six rules.
-/

namespace NotificationLedger

open NotificationLedger.Runtime

/-! ## Fields after a row transformation

The fields the machine looks at, for the transformations that depend on an outcome or a kind. The
proofs below rewrite with these and do not open the transformations. -/

namespace Delivery

variable (payload : EmailDispatchObserved) (observed : EmailReceiptObserved) (d : Delivery)

theorem afterDispatch_counts :
    (d.afterDispatch payload).attemptCount = d.attemptCount ∧
      (d.afterDispatch payload).maxAttempts = d.maxAttempts ∧
      (d.afterDispatch payload).revision = d.revision + 1 := by
  unfold afterDispatch
  split
  · exact ⟨rfl, rfl, rfl⟩
  · split <;> exact ⟨rfl, rfl, rfl⟩
  · exact ⟨rfl, rfl, rfl⟩
  · exact ⟨rfl, rfl, rfl⟩

theorem afterReceipt_counts :
    (d.afterReceipt observed).attemptCount = d.attemptCount ∧
      (d.afterReceipt observed).maxAttempts = d.maxAttempts ∧
      (d.afterReceipt observed).revision = d.revision + 1 := by
  unfold afterReceipt
  split <;> exact ⟨rfl, rfl, rfl⟩

theorem afterReceipt_status :
    (d.afterReceipt observed).status =
      if observed.kind = .delivered then .delivered else .failed := by
  unfold afterReceipt
  cases observed.kind <;> rfl

/-- A delivery leaves `attempting` with every observation. -/
theorem afterDispatch_status :
    (d.afterDispatch payload).status =
      match payload.outcome with
      | .accepted => .accepted
      | .temporaryFailure =>
        if (d.nextAttempt payload.observedAt).isSome then .retryScheduled else .failed
      | .permanentFailure => .failed
      | .deliveryUnknown => .deliveryUnknown := by
  unfold afterDispatch
  cases payload.outcome with
  | temporaryFailure =>
    cases d.nextAttempt payload.observedAt <;> rfl
  | accepted | permanentFailure | deliveryUnknown => rfl

/-- The observation the delivery was waiting for takes it out of `attempting`. -/
theorem afterDispatch_ne :
    (d.afterDispatch payload).status ≠ .queued ∧
      (d.afterDispatch payload).status ≠ .attempting := by
  rw [afterDispatch_status]
  cases payload.outcome with
  | temporaryFailure =>
    simp only
    split <;> simp
  | accepted | permanentFailure | deliveryUnknown => simp

theorem afterDispatch_final (h : d.finalAt.isSome = false) :
    (d.afterDispatch payload).status.isFinal = (d.afterDispatch payload).finalAt.isSome := by
  unfold afterDispatch
  cases payload.outcome with
  | temporaryFailure =>
    cases d.nextAttempt payload.observedAt with
    | none => rfl
    | some t => exact h.symm
  | accepted => exact h.symm
  | permanentFailure | deliveryUnknown => rfl

theorem nextAttempt_isSome_iff {t : DateTime} (hmax : d.maxAttempts = 4)
    (hpos : 0 < d.attemptCount) : (d.nextAttempt t).isSome = true ↔ d.attemptCount < 4 := by
  rw [nextAttempt, hmax]
  exact RetryPolicy.nextAt_isSome_iff hpos le_rfl

end Delivery

/-! ## The machine

An event carries what the source binds to its statements; a rule carries the guard. A delivery that
does not exist yet is `none`, and the event that opens it is the only one it has. -/

structure Course where
  delivery : Delivery
  /-- Oldest first. -/
  attempts : List Attempt

namespace Course

inductive Event
  | opened
  | claimed (now : DateTime)
  | dispatchObserved (payload : EmailDispatchObserved)
  | receiptObserved (payload : EmailReceiptObserved)
  | cancelled (event : ObservationEnvelope)
  | rescheduled (now : DateTime)

/-- Rewrites the attempt with one id. -/
def rewrite (attemptId : String) (f : Attempt → Attempt) (attempts : List Attempt) :
    List Attempt := attempts.map fun a ↦ if a.id = attemptId then f a else a

variable (X : Externals)

inductive Step : Course → Event → Course → Prop
  | claim {d : Delivery} {as : List Attempt} {now : DateTime}
      (hclaimable : d.status.isClaimable = true) (hrev : d.revision < maxSafeWireInteger)
      (hbudget : d.attemptCount < d.maxAttempts)
      (hfresh : ∀ a ∈ as, a.id ≠ attemptIdOf X d.id (d.attemptCount + 1)) :
      Step ⟨d, as⟩ (.claimed now)
        ⟨d.claimed (d.attemptCount + 1) now, as ++ [attemptRow X d.id (d.attemptCount + 1) now]⟩
  | resolve {d : Delivery} {as : List Attempt} {payload : EmailDispatchObserved} {a : Attempt}
      (hattempting : d.status = .attempting) (hrev : d.revision < maxSafeWireInteger)
      (ha : a ∈ as) (hid : a.id = payload.attemptId) (hdispatching : a.status = .dispatching) :
      Step ⟨d, as⟩ (.dispatchObserved payload)
        ⟨d.afterDispatch payload, rewrite payload.attemptId (Attempt.afterDispatch payload) as⟩
  | absorb {d : Delivery} {as : List Attempt} {payload : EmailDispatchObserved} {a : Attempt}
      (ha : a ∈ as) (hid : a.id = payload.attemptId)
      (hlate : (d.status = .delivered ∧ payload.outcome = .accepted) ∨
        (d.status = .failed ∧ payload.outcome = .permanentFailure)) :
      Step ⟨d, as⟩ (.dispatchObserved payload)
        ⟨d, rewrite payload.attemptId (Attempt.absorbed payload) as⟩
  | settle {d : Delivery} {as : List Attempt} {payload : EmailReceiptObserved} {a : Attempt}
      (hopen : d.status = .attempting ∨ d.status = .accepted)
      (hrev : d.revision < maxSafeWireInteger) (ha : a ∈ as) (hid : a.id = payload.attemptId)
      (hdelivery : d.id = payload.deliveryId) :
      Step ⟨d, as⟩ (.receiptObserved payload)
        ⟨d.afterReceipt payload, rewrite payload.attemptId (Attempt.afterReceipt payload) as⟩
  | cancel {d : Delivery} {as : List Attempt} {event : ObservationEnvelope}
      (hclaimable : d.status.isClaimable = true) (hrev : d.revision < maxSafeWireInteger) :
      Step ⟨d, as⟩ (.cancelled event) ⟨Events.cancelled event d, as⟩
  | reschedule {d : Delivery} {as : List Attempt} {now : DateTime}
      (hscheduled : d.status = .retryScheduled) (hrev : d.revision < maxSafeWireInteger) :
      Step ⟨d, as⟩ (.rescheduled now) ⟨d.rescheduled (d.revision + 1) now, as⟩

/-- A course before and after its delivery was queued. -/
inductive MachineStep : Option Course → Event → Option Course → Prop
  | opened {intentId : String} {now : DateTime} :
      MachineStep none .opened (some ⟨Public.deliveryRow X intentId now, []⟩)
  | step {c c' : Course} {e : Event} (h : Step X c e c') : MachineStep (some c) e (some c')

/-- The machine one delivery runs through. -/
def machine : Lts (Option Course) Event where
  Start c := c = none
  Step := MachineStep X

/-! ## Rewriting -/

section Rewrite

variable {attemptId : String} {f : Attempt → Attempt} {as : List Attempt}

theorem mem_rewrite {b : Attempt} :
    b ∈ rewrite attemptId f as ↔ ∃ a ∈ as, (if a.id = attemptId then f a else a) = b :=
  List.mem_map

/-- A column the rewriting leaves alone. -/
theorem map_rewrite {β : Type} (g : Attempt → β) (hg : ∀ a, g (f a) = g a) :
    (rewrite attemptId f as).map g = as.map g := by
  rw [rewrite, List.map_map]
  refine List.map_congr_left fun a _ ↦ ?_
  rw [Function.comp_apply]
  split
  · exact hg a
  · rfl

/-- A fact about every attempt that the rewriting preserves. -/
theorem forall_rewrite {P : Attempt → Prop} (h : ∀ a ∈ as, P a)
    (hf : ∀ a ∈ as, a.id = attemptId → P a → P (f a)) : ∀ b ∈ rewrite attemptId f as, P b := by
  intro b hb
  obtain ⟨a, ha, rfl⟩ := mem_rewrite.mp hb
  split
  · next hid => exact hf a ha hid (h a ha)
  · exact h a ha

end Rewrite

/-! ## Soundness

What every course satisfies: attempts are numbered without gaps up to the count, their ids are those
of their numbers, all but the newest are closed, and the newest one has the status that goes with
the delivery's, where that determines one. -/

/-- The status of the newest attempt, where the status of the delivery determines it. -/
def newestStatus : DeliveryStatus → Option AttemptStatus
  | .attempting => some .dispatching
  | .accepted => some .accepted
  | .retryScheduled => some .temporaryFailure
  | .deliveryUnknown => some .deliveryUnknown
  | .queued | .delivered | .failed => none

theorem newestStatus_afterDispatch (payload : EmailDispatchObserved) (d : Delivery) :
    ∀ s ∈ newestStatus (d.afterDispatch payload).status, payload.outcome.attemptStatus = s := by
  rw [Delivery.afterDispatch_status]
  intro s hs
  generalize payload.outcome = outcome at hs ⊢
  cases outcome with
  | temporaryFailure =>
    simp only at hs
    split at hs
    · exact Option.some_inj.mp hs
    · cases hs
  | accepted | deliveryUnknown => exact Option.some_inj.mp hs
  | permanentFailure => cases hs

/-- What holds of the course of every delivery. -/
structure Sound (c : Course) : Prop where
  maxAttempts : c.delivery.maxAttempts = 4
  budget : c.delivery.attemptCount ≤ 4
  revision : 1 ≤ c.delivery.revision ∧ c.delivery.revision ≤ maxSafeWireInteger
  sequences : c.attempts.map Attempt.sequence = List.range' 1 c.delivery.attemptCount
  named : ∀ a ∈ c.attempts, a.deliveryId = c.delivery.id ∧
    a.id = attemptIdOf X c.delivery.id a.sequence ∧ a.functionRunId = runIdOf X a.id ∧
    a.dispatchEventId = dispatchRecordIdOf X a.id
  distinct : (c.attempts.map Attempt.id).Nodup
  /-- Only the newest attempt can be in flight. -/
  closed : ∀ a ∈ c.attempts, a.sequence < c.delivery.attemptCount → a.status ≠ .dispatching
  newest : ∀ a ∈ c.attempts, a.sequence = c.delivery.attemptCount →
    ∀ s ∈ newestStatus c.delivery.status, a.status = s
  queued : c.delivery.status = .queued → c.delivery.attemptCount = 0
  started : (newestStatus c.delivery.status).isSome → 0 < c.delivery.attemptCount
  room : c.delivery.status = .retryScheduled → c.delivery.attemptCount < 4
  final : c.delivery.status.isFinal = c.delivery.finalAt.isSome

section Facts

variable {X} {c : Course}

theorem Sound.sequence_le (h : Sound X c) {a : Attempt} (ha : a ∈ c.attempts) :
    1 ≤ a.sequence ∧ a.sequence ≤ c.delivery.attemptCount := by
  have hmem : a.sequence ∈ c.attempts.map Attempt.sequence := List.mem_map_of_mem ha
  rw [h.sequences, List.mem_range'_1] at hmem
  omega

/-- An attempt in flight is the newest one. -/
theorem Sound.sequence_eq (h : Sound X c) {a : Attempt} (ha : a ∈ c.attempts)
    (hdispatching : a.status = .dispatching) : a.sequence = c.delivery.attemptCount := by
  have hle := (h.sequence_le ha).2
  by_contra hne
  exact h.closed a ha (by omega) hdispatching

/-- Two attempts with one sequence are the same attempt. -/
theorem Sound.eq_of_sequence (h : Sound X c) {a b : Attempt} (ha : a ∈ c.attempts)
    (hb : b ∈ c.attempts) (hab : a.sequence = b.sequence) : a = b := by
  have hnodup : (c.attempts.map Attempt.sequence).Nodup := by
    rw [h.sequences]
    exact List.nodup_range'
  exact List.inj_on_of_nodup_map hnodup ha hb hab

theorem Sound.eq_of_id (h : Sound X c) {a b : Attempt} (ha : a ∈ c.attempts)
    (hb : b ∈ c.attempts) (hab : a.id = b.id) : a = b :=
  List.inj_on_of_nodup_map h.distinct ha hb hab

/-- The number of attempts is the delivery's count. -/
theorem Sound.length_eq (h : Sound X c) : c.attempts.length = c.delivery.attemptCount := by
  have hlen := congrArg List.length h.sequences
  rwa [List.length_map, List.length_range'] at hlen

/-- The newest attempt of a delivery that has one. -/
theorem Sound.exists_newest (h : Sound X c) (hpos : 0 < c.delivery.attemptCount) :
    ∃ a ∈ c.attempts, a.sequence = c.delivery.attemptCount := by
  have hmem : c.delivery.attemptCount ∈ List.range' 1 c.delivery.attemptCount := by
    rw [List.mem_range'_1]
    omega
  rw [← h.sequences] at hmem
  obtain ⟨a, ha, hseq⟩ := List.mem_map.mp hmem
  exact ⟨a, ha, hseq⟩

end Facts

/-! ## Soundness is preserved

One lemma for each event, then the step and the run. -/

section Preservation

variable {X} {d : Delivery} {as : List Attempt}

theorem Sound.opened (intentId : String) (now : DateTime) :
    Sound X ⟨Public.deliveryRow X intentId now, []⟩ where
  maxAttempts := rfl
  budget := Nat.zero_le _
  revision := ⟨le_rfl, show 1 ≤ maxSafeWireInteger by decide⟩
  sequences := rfl
  named := by simp
  distinct := List.nodup_nil
  closed := by simp
  newest := by simp
  queued := fun _ ↦ rfl
  started := fun h ↦ by cases h
  room := fun h ↦ by cases h
  final := rfl

theorem Sound.claim {now : DateTime} (h : Sound X ⟨d, as⟩)
    (hclaimable : d.status.isClaimable = true) (hrev : d.revision < maxSafeWireInteger)
    (hbudget : d.attemptCount < d.maxAttempts)
    (hfresh : ∀ a ∈ as, a.id ≠ attemptIdOf X d.id (d.attemptCount + 1)) :
    Sound X ⟨d.claimed (d.attemptCount + 1) now,
      as ++ [attemptRow X d.id (d.attemptCount + 1) now]⟩ where
  maxAttempts := h.maxAttempts
  budget := by
    have hmax := h.maxAttempts
    simp only [Delivery.claimed] at hmax ⊢
    omega
  revision := ⟨Nat.le_add_left _ _, hrev⟩
  sequences := by
    rw [List.map_append, h.sequences]
    change _ = List.range' 1 (d.attemptCount + 1)
    rw [List.range'_1_concat, Nat.add_comm 1]
    rfl
  named := by
    intro a ha
    rcases List.mem_append.mp ha with ha | ha
    · exact h.named a ha
    · rw [List.mem_singleton.mp ha]
      exact ⟨rfl, rfl, rfl, rfl⟩
  distinct := by
    rw [List.map_append, List.nodup_append]
    refine ⟨h.distinct, List.nodup_singleton _, ?_⟩
    intro x hx y hy
    obtain ⟨a, ha, rfl⟩ := List.mem_map.mp hx
    rw [List.map_singleton, List.mem_singleton] at hy
    exact hy ▸ hfresh a ha
  closed := by
    intro a ha hlt
    rcases List.mem_append.mp ha with ha | ha
    · intro hdispatching
      -- the delivery was claimable, so not even its newest attempt was in flight
      have hseq := h.sequence_eq ha hdispatching
      cases hs : d.status with
      | queued =>
        have hzero := h.queued hs
        have hone := (h.sequence_le ha).1
        simp only at hzero hseq
        omega
      | retryScheduled =>
        have htemp := h.newest a ha hseq .temporaryFailure (by simp [hs, newestStatus])
        rw [htemp] at hdispatching
        cases hdispatching
      | attempting | accepted | delivered | failed | deliveryUnknown =>
        rw [hs] at hclaimable
        cases hclaimable
    · rw [List.mem_singleton.mp ha] at hlt
      exact absurd hlt (lt_irrefl _)
  newest := by
    intro a ha hseq s hs
    rcases List.mem_append.mp ha with ha | ha
    · have hle := (h.sequence_le ha).2
      simp only [Delivery.claimed] at hseq hle
      omega
    · rw [List.mem_singleton.mp ha]
      simpa [Delivery.claimed, newestStatus, attemptRow] using hs
  queued := fun hq ↦ by cases hq
  started := fun _ ↦ Nat.succ_pos _
  room := fun hr ↦ by cases hr
  final := by
    have hfinal := h.final
    change d.status.isFinal = d.finalAt.isSome at hfinal
    change false = d.finalAt.isSome
    rw [← hfinal, DeliveryStatus.isFinal_of_isClaimable hclaimable]

/-- A step that rewrites attempts only has to account for statuses. -/
private theorem Sound.of_rewrite {attemptId : String} {f : Attempt → Attempt} {d' : Delivery}
    (h : Sound X ⟨d, as⟩) (hf : ∀ a, (f a).identity = a.identity) (hid : d'.id = d.id)
    (hcount : d'.attemptCount = d.attemptCount) (hmax : d'.maxAttempts = d.maxAttempts)
    (hrev : 1 ≤ d'.revision ∧ d'.revision ≤ maxSafeWireInteger)
    (hclosed : ∀ a ∈ as, a.id = attemptId → a.sequence < d.attemptCount →
      (f a).status ≠ .dispatching)
    (hnewest : ∀ b ∈ rewrite attemptId f as, b.sequence = d.attemptCount →
      ∀ s ∈ newestStatus d'.status, b.status = s)
    (hstarted : d'.status ≠ .queued ∧ 0 < d.attemptCount)
    (hroom : d'.status = .retryScheduled → d.attemptCount < 4)
    (hfinal : d'.status.isFinal = d'.finalAt.isSome) :
    Sound X ⟨d', rewrite attemptId f as⟩ := by
  have hsequence : ∀ a, (f a).sequence = a.sequence := fun a ↦
    congrArg (fun i ↦ i.2.2.1) (hf a)
  exact {
    maxAttempts := hmax.trans h.maxAttempts
    budget := hcount ▸ h.budget
    revision := hrev
    sequences := by
      rw [map_rewrite Attempt.sequence hsequence, hcount]
      exact h.sequences
    named := by
      refine forall_rewrite (fun a ha ↦ hid ▸ h.named a ha) fun a _ _ hnamed ↦ ?_
      have hi := hf a
      simp only [Attempt.identity, Prod.mk.injEq] at hi
      obtain ⟨h₁, h₂, h₃, h₄, h₅⟩ := hi
      rw [h₁, h₂, h₃, h₄, h₅]
      exact hnamed
    distinct := by
      rw [map_rewrite Attempt.id fun a ↦ congrArg Prod.fst (hf a)]
      exact h.distinct
    closed := by
      intro b hb
      obtain ⟨a, ha, rfl⟩ := mem_rewrite.mp hb
      split
      · next hid =>
        rw [hsequence, hcount]
        exact hclosed a ha hid
      · rw [hcount]
        exact h.closed a ha
    newest := by
      rw [hcount]
      exact hnewest
    queued := fun hq ↦ absurd hq hstarted.1
    started := fun _ ↦ hcount ▸ hstarted.2
    room := fun hr ↦ hcount ▸ hroom hr
    final := hfinal }

theorem Sound.resolve {payload : EmailDispatchObserved} {a : Attempt} (h : Sound X ⟨d, as⟩)
    (hattempting : d.status = .attempting) (hrev : d.revision < maxSafeWireInteger) (ha : a ∈ as)
    (hid : a.id = payload.attemptId) (hdispatching : a.status = .dispatching) :
    Sound X ⟨d.afterDispatch payload,
      rewrite payload.attemptId (Attempt.afterDispatch payload) as⟩ := by
  obtain ⟨hcount, hmax, hrevision⟩ := Delivery.afterDispatch_counts payload d
  have hpos : 0 < d.attemptCount := h.started (by simp [hattempting, newestStatus])
  have hseq : a.sequence = d.attemptCount := h.sequence_eq ha hdispatching
  have hstatus := Delivery.afterDispatch_status payload d
  refine h.of_rewrite (fun _ ↦ rfl)
    (congrArg Prod.fst (Delivery.afterDispatch_identity payload d)) hcount hmax ?_ ?_ ?_ ⟨?_, hpos⟩
    ?_ ?_
  · rw [hrevision]
    exact ⟨Nat.le_add_left _ _, hrev⟩
  · intro b hb hbid hlt
    have hba : b = a := h.eq_of_id hb ha (hbid.trans hid.symm)
    rw [hba, hseq] at hlt
    exact absurd hlt (lt_irrefl _)
  · intro c hc hcseq s hs
    obtain ⟨b, hb, rfl⟩ := mem_rewrite.mp hc
    have hbseq : b.sequence = d.attemptCount := by
      split at hcseq <;> exact hcseq
    have hba : b = a := h.eq_of_sequence hb ha (hbseq.trans hseq.symm)
    rw [if_pos (hba ▸ hid)]
    exact newestStatus_afterDispatch payload d s hs
  · exact (Delivery.afterDispatch_ne payload d).1
  · intro hr
    rw [hstatus] at hr
    split at hr
    · cases hr
    · split at hr
      · next hnext => exact (Delivery.nextAttempt_isSome_iff d h.maxAttempts hpos).mp hnext
      · cases hr
    · cases hr
    · cases hr
  · have hfinal := h.final
    change d.status.isFinal = d.finalAt.isSome at hfinal
    rw [hattempting] at hfinal
    exact Delivery.afterDispatch_final payload d hfinal.symm

theorem Sound.absorb {payload : EmailDispatchObserved} (h : Sound X ⟨d, as⟩)
    (hfinal : d.status.isFinal = true) (hpos : 0 < d.attemptCount) :
    Sound X ⟨d, rewrite payload.attemptId (Attempt.absorbed payload) as⟩ := by
  refine h.of_rewrite (fun _ ↦ rfl) rfl rfl rfl h.revision ?_ ?_ ⟨?_, hpos⟩ ?_ h.final
  · intro a ha _ hlt
    exact h.closed a ha hlt
  · intro b hb
    obtain ⟨a, ha, rfl⟩ := mem_rewrite.mp hb
    split
    · exact h.newest a ha
    · exact h.newest a ha
  · intro hq
    rw [hq] at hfinal
    cases hfinal
  · intro hr
    rw [hr] at hfinal
    cases hfinal

theorem Sound.settle {payload : EmailReceiptObserved} (h : Sound X ⟨d, as⟩)
    (hopen : d.status = .attempting ∨ d.status = .accepted)
    (hrev : d.revision < maxSafeWireInteger) :
    Sound X ⟨d.afterReceipt payload,
      rewrite payload.attemptId (Attempt.afterReceipt payload) as⟩ := by
  obtain ⟨hcount, hmax, hrevision⟩ := Delivery.afterReceipt_counts payload d
  have hpos : 0 < d.attemptCount := by
    refine h.started ?_
    rcases hopen with hs | hs <;> simp [hs, newestStatus]
  have hstatus := Delivery.afterReceipt_status payload d
  refine h.of_rewrite (fun _ ↦ rfl)
    (congrArg Prod.fst (Delivery.afterReceipt_identity payload d)) hcount hmax ?_ ?_ ?_ ⟨?_, hpos⟩
    ?_ ?_
  · rw [hrevision]
    exact ⟨Nat.le_add_left _ _, hrev⟩
  · intro a _ _ _
    change payload.kind.attemptStatus ≠ .dispatching
    cases payload.kind <;> simp [ReceiptKind.attemptStatus]
  · intro b _ _ s hs
    rw [hstatus] at hs
    split at hs <;> cases hs
  · rw [hstatus]
    split <;> simp
  · intro hr
    rw [hstatus] at hr
    split at hr <;> cases hr
  · unfold Delivery.afterReceipt
    split <;> rfl

theorem Sound.cancel {event : ObservationEnvelope} (h : Sound X ⟨d, as⟩)
    (hrev : d.revision < maxSafeWireInteger) : Sound X ⟨Events.cancelled event d, as⟩ where
  maxAttempts := h.maxAttempts
  budget := h.budget
  revision := ⟨Nat.le_add_left _ _, hrev⟩
  sequences := h.sequences
  named := h.named
  distinct := h.distinct
  closed := h.closed
  newest := fun _ _ _ _ hs ↦ by cases hs
  queued := fun hq ↦ by cases hq
  started := fun hs ↦ by cases hs
  room := fun hr ↦ by cases hr
  final := rfl

theorem Sound.reschedule {now : DateTime} (h : Sound X ⟨d, as⟩)
    (hrev : d.revision < maxSafeWireInteger) :
    Sound X ⟨d.rescheduled (d.revision + 1) now, as⟩ where
  maxAttempts := h.maxAttempts
  budget := h.budget
  revision := ⟨Nat.le_add_left _ _, hrev⟩
  sequences := h.sequences
  named := h.named
  distinct := h.distinct
  closed := h.closed
  newest := h.newest
  queued := h.queued
  started := h.started
  room := h.room
  final := h.final

/-- **One step keeps a course sound.** -/
theorem Sound.step {c c' : Course} {e : Event} (h : Sound X c) (hstep : Step X c e c') :
    Sound X c' := by
  cases hstep with
  | claim hclaimable hrev hbudget hfresh => exact h.claim hclaimable hrev hbudget hfresh
  | resolve hattempting hrev ha hid hdispatching =>
    exact h.resolve hattempting hrev ha hid hdispatching
  | absorb ha hid hlate =>
    refine h.absorb ?_ ?_
    · rcases hlate with ⟨hs, -⟩ | ⟨hs, -⟩ <;> rw [hs] <;> rfl
    · have hle := h.sequence_le ha
      exact Nat.lt_of_lt_of_le hle.1 hle.2
  | settle hopen hrev ha hid => exact h.settle hopen hrev
  | cancel hclaimable hrev => exact h.cancel hrev
  | reschedule hscheduled hrev => exact h.reschedule hrev

/-- **Every reachable course is sound.** -/
theorem sound_of_reachable {c : Course} (h : (machine X).Reachable (some c)) : Sound X c := by
  refine Lts.Reachable.invariant (S := machine X) (I := fun o ↦ ∀ c ∈ o, Sound X c) ?_ ?_ h c rfl
  · rintro o rfl c hc
    cases hc
  · intro o e o' _ ih hstep c hc
    cases hstep with
    | opened =>
      cases hc
      exact Sound.opened _ _
    | step hstep =>
      cases hc
      exact (ih _ rfl).step hstep

end Preservation

end Course

end NotificationLedger

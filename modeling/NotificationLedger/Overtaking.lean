import Mathlib
import NotificationLedger.Details
import NotificationLedger.Queue
import NotificationLedger.Rows
import NotificationLedger.Creation

/-!
# How often a due delivery is overtaken

The queue promises no order in which due deliveries are sent: a retry comes back with the time its
provider asked for, which may lie before that of a delivery that has been waiting all along. But
what was created later stands behind it, and what was there before has four attempts at most. While
a delivery waits at its place, unlocked, so many claims can pass it by and no more.

## The measure

The claims that can still pass a delivery are counted by the attempts that the deliveries ahead of
it have left. A claim takes one of these, nothing gives one back, and what is created in the
meantime is created for later and stays behind. So the sum falls with each claim that overtakes, and
bounds their number over any run.
-/

namespace NotificationLedger

open NotificationLedger.Runtime

/-! ## Deliveries that may still be claimed

An accepted or final delivery is not claimed again. One that is opened later is due at its creation,
and its time moves only when it is attempted. -/

/-- Another attempt of the delivery is still possible. -/
def DeliveryStatus.mayBeClaimed : DeliveryStatus → Bool
  | .queued | .attempting | .retryScheduled => true
  | .accepted | .delivered | .failed | .deliveryUnknown => false

theorem DeliveryStatus.mayBeClaimed_of_isClaimable {status : DeliveryStatus}
    (h : status.isClaimable = true) : status.mayBeClaimed = true := by
  rcases DeliveryStatus.isClaimable_iff.mp h with rfl | rfl <;> rfl

/-- Once no attempt is possible, none will be. -/
theorem Course.Step.mayBeClaimed {X : Externals} {c c' : Course} {e : Course.Event}
    (h : Course.Step X c e c') (hmay : c'.delivery.status.mayBeClaimed = true) :
    c.delivery.status.mayBeClaimed = true := by
  cases h with
  | claim hclaimable => exact DeliveryStatus.mayBeClaimed_of_isClaimable hclaimable
  | resolve hattempting =>
    rw [hattempting]
    rfl
  | absorb => exact hmay
  | settle =>
    rw [Delivery.afterReceipt_status] at hmay
    split at hmay <;> cases hmay
  | cancel => cases hmay
  | reschedule hscheduled =>
    rw [hscheduled]
    rfl

/-- A delivery without attempts keeps its time, unless it is claimed or cancelled. -/
theorem Course.Step.nextAttemptAt_of_untried {X : Externals} {c c' : Course} {e : Course.Event}
    (h : Course.Step X c e c') (hsound : Course.Sound X c) (huntried : c.delivery.attemptCount = 0)
    (he : ∀ now, e ≠ .claimed now) :
    c'.delivery.attemptCount = 0 ∧
      (c'.delivery.nextAttemptAt = c.delivery.nextAttemptAt ∨
        c'.delivery.nextAttemptAt = none) := by
  have hstarted : (Course.newestStatus c.delivery.status).isSome = false := by
    rw [Bool.eq_false_iff]
    intro hsome
    have hpos := hsound.started hsome
    omega
  cases h with
  | claim => exact absurd rfl (he _)
  | resolve hattempting =>
    rw [hattempting] at hstarted
    cases hstarted
  | absorb => exact ⟨huntried, Or.inl rfl⟩
  | settle hopen =>
    rcases hopen with hs | hs <;> rw [hs] at hstarted <;> cases hstarted
  | cancel => exact ⟨huntried, Or.inr rfl⟩
  | reschedule hscheduled =>
    rw [hscheduled] at hstarted
    cases hstarted

theorem Course.Step.length_claimed {X : Externals} {c c' : Course} {now : DateTime}
    (h : Course.Step X c (.claimed now) c') :
    c'.attempts.length = c.attempts.length + 1 := by
  cases h with
  | claim => rw [List.length_append, List.length_singleton]

section Steps

variable {S : Setting} {s s' : System} {l : Command × Reply}

/-- A claim is of a row some call has selected. -/
theorem selected_of_claimed {command : Command} {work : DispatchWork}
    (hreach : (system S).Reachable s) (hstep : (system S).Step s (command, .claimed work) s') :
    ∃ now row, Call.dispatch now (.selected row) ∈ s.calls ∧
      row.delivery.id = work.claim.deliveryId := by
  cases System.stepped_of_exec hstep with
  | advanced hc hadvance =>
    cases hadvance with
    | @claimed now row _ _ hclaim =>
      have hmem := List.mem_of_getElem? hc
      obtain ⟨hget, hdue, -⟩ := System.holds_of_reachable hreach _ _ hmem
      obtain ⟨-, -, -, hwork, -⟩ :=
        (Runtime.claimRow_eq_ok hget (Runtime.isDue_iff.mp hdue).1).mp hclaim
      exact ⟨now, row, hmem, by rw [hwork]; rfl⟩

/-- A delivery is opened by a call that writes its intent, for the time of that call. -/
theorem opened_of_step (hreach : (system S).Reachable s) (hstep : (system S).Step s l s')
    {e : Delivery} (he : e ∈ s'.ledger.deliveries.rows)
    (hnew : s.ledger.deliveries.get? e.id = none) :
    ∃ request now intent intentId, Call.create request now (.writing intent) ∈ s.calls ∧
      e = Public.deliveryRow S.externals intentId now := by
  obtain ⟨command, reply⟩ := l
  have hget : s'.ledger.deliveries.get? e.id = some e := Table.get?_of_mem he
  have hlinked := linked_of_reachable (reachable_ledger hreach)
  have hnone : s.ledger.course e.id = none := by rw [Ledger.course, hnew, Option.map_none]
  have hcourse := Ledger.course_of_mem he
  rcases System.ledger_of_stepped (System.holds_of_reachable hreach)
    (System.stepped_of_exec hstep) with hsame | ⟨t, hissues, hrun⟩
  · rw [hsame, hnew] at hget
    cases hget
  rcases course_step e.id hlinked hrun with hsame | ⟨event, hshows, hmachine⟩
  · rw [hsame, hnone] at hcourse
    cases hcourse
  -- only a creation opens a course
  have hcreate : event = .opened := by
    rw [hnone] at hmachine
    generalize s'.ledger.course e.id = after at hmachine
    cases hmachine
    rfl
  subst hcreate
  cases hshows
  cases hissues with
  | write hc =>
    obtain ⟨receipt, hpersist⟩ := fst_map_eq_ok.mp hrun
    obtain ⟨-, hsame | ⟨intentId, hins⟩⟩ := Public.frame_of_persistIntent hpersist
    · rw [hsame, hnew] at hget
      cases hget
    · refine ⟨_, _, _, intentId, List.mem_of_getElem? hc, ?_⟩
      rcases (Table.mem_insert? hins).mp he with hold | hrow
      · exact absurd hnew (Option.ne_none_iff_exists'.mpr ⟨e, Table.get?_of_mem hold⟩)
      · exact hrow

end Steps

/-! ## A delivery at its place

`Waiting` is a delivery that stands in the ledger unchanged and that no call has locked;
`WaitsThrough` a run in which it stays so. `Behind` says what has become of the others meanwhile. -/

/-- The delivery stands in the ledger as it is, and no call has locked it. -/
structure Waiting (d : Delivery) (s : System) : Prop where
  stored : s.ledger.deliveries.get? d.id = some d
  unlocked : d.id ∉ s.calls.filterMap Call.rowLock?

instance (d : Delivery) (s : System) : Decidable (Waiting d s) :=
  decidable_of_iff (s.ledger.deliveries.get? d.id = some d ∧
    d.id ∉ s.calls.filterMap Call.rowLock?) ⟨fun h ↦ ⟨h.1, h.2⟩, fun h ↦ ⟨h.stored, h.unlocked⟩⟩

/-- A run in which the delivery waits all the time. -/
inductive WaitsThrough (S : Setting) (d : Delivery) (s : System) :
    List (Command × Reply) → System → Prop
  | nil (h : Waiting d s) : WaitsThrough S d s [] s
  | snoc {ls : List (Command × Reply)} {l : Command × Reply} {t u : System}
      (h : WaitsThrough S d s ls t) (hstep : (system S).Step t l u) (hu : Waiting d u) :
      WaitsThrough S d s (ls ++ [l]) u

/-- The delivery may pass `d`: it was there before, with an attempt left. -/
def MayPass (d e : Delivery) : Prop := e.id ≠ d.id ∧ e.status.mayBeClaimed = true

instance (d e : Delivery) : Decidable (MayPass d e) := inferInstanceAs (Decidable (_ ∧ _))

/-- The state while `d` waits for `t`, seen from the state `s` in which it began to. -/
structure Behind (d : Delivery) (t : Timestamp) (s u : System) : Prop where
  /-- What is new stands behind it. -/
  later : ∀ e ∈ u.ledger.deliveries.rows, s.ledger.deliveries.get? e.id = none →
    e.attemptCount = 0 ∧ ∀ v, e.nextAttemptAt = some v → t < v
  /-- What may still be claimed could have been before. -/
  open? : ∀ e ∈ u.ledger.deliveries.rows, e.status.mayBeClaimed = true →
    ∀ e₀, s.ledger.deliveries.get? e.id = some e₀ → e₀.status.mayBeClaimed = true
  known : ∀ now row, Call.dispatch now (.selected row) ∈ u.calls →
    ∃ e₀, s.ledger.deliveries.get? row.delivery.id = some e₀ ∧ MayPass d e₀
  created : ∀ request now phase, Call.create request now phase ∈ u.calls → t < now.stored

/-- The delivery a step claims. -/
def claimedDelivery? : Command × Reply → Option String
  | (_, .claimed work) => some work.claim.deliveryId
  | _ => none

theorem claimedDelivery?_eq_some {l : Command × Reply} {id : String} :
    claimedDelivery? l = some id ↔ ClaimsOf id l := by
  obtain ⟨command, reply⟩ := l
  cases reply with
  | claimed work => simp [claimedDelivery?, ClaimsOf]
  | _ => simp [claimedDelivery?, ClaimsOf]

section Waiting

variable {S : Setting} {s u u' : System} {d : Delivery} {t : Timestamp} {l : Command × Reply}

theorem WaitsThrough.run {ls : List (Command × Reply)} (h : WaitsThrough S d s ls u) :
    (system S).Run s ls u := by
  induction h with
  | nil => exact .nil
  | snoc _ hstep _ ih => exact ih.snoc hstep

theorem WaitsThrough.waiting {ls : List (Command × Reply)} (h : WaitsThrough S d s ls u) :
    Waiting d u := by
  cases h with
  | nil h => exact h
  | snoc _ _ hu => exact hu

/-- A claimable delivery of a reachable ledger has attempts left. -/
theorem attemptCount_lt_of_isClaimable (hreach : (system S).Reachable u)
    (hstored : u.ledger.deliveries.get? d.id = some d) (hd : d.status.isClaimable = true) :
    d.attemptCount < d.maxAttempts := by
  have hsound := sound_course (reachable_ledger hreach)
    (Ledger.course_of_mem (Table.get?_eq_some.mp hstored).1)
  rw [hsound.maxAttempts]
  rcases DeliveryStatus.isClaimable_iff.mp hd with hs | hs
  · rw [hsound.queued hs]
    exact Nat.zero_lt_succ 3
  · exact hsound.room hs

/-- **What is selected is not behind.** While `d` waits to be claimed, only a row that is not later
is selected. -/
theorem nextAttemptAt_le_of_selectDue (hreach : (system S).Reachable u) (hwaiting : Waiting d u)
    (hd : d.status.isClaimable = true) (ht : d.nextAttemptAt = some t) {now : DateTime}
    {row : DueRow} (h : selectDue u.ledger
      (fun id ↦ decide (id ∈ u.calls.filterMap Call.rowLock?)) now = some row) :
    ∃ v, row.delivery.nextAttemptAt = some v ∧ v ≤ t := by
  have hhead := isHead_of_selectDue h
  obtain ⟨-, ⟨v, hv, hnow⟩, -⟩ := isDue_iff.mp hhead.due
  refine ⟨v, hv, not_lt.mp fun hlt ↦ ?_⟩
  -- otherwise `d` is due too, and precedes the head
  have hmem := (Table.get?_eq_some.mp hwaiting.stored).1
  obtain ⟨rd, hjoin, hrd⟩ := (checked_of_reachable (reachable_ledger hreach)).exists_join hmem
  subst hrd
  have hdue : isDue now rd.delivery = true := isDue_iff.mpr
    ⟨hd, ⟨t, ht, hlt.le.trans hnow⟩, attemptCount_lt_of_isClaimable hreach hwaiting.stored hd⟩
  have hfirst := hhead.first rd hmem hdue (by simpa using hwaiting.unlocked) hjoin
  have hprecedes := (precedes_iff ht hv).mpr (Or.inl hlt)
  rw [hfirst] at hprecedes
  cases hprecedes

theorem Behind.start (hreach : (system S).Reachable s) (hwaiting : Waiting d s)
    (hcreated : ∀ request now phase, Call.create request now phase ∈ s.calls → t < now.stored) :
    Behind d t s s where
  later e he hnone :=
    absurd hnone (Option.ne_none_iff_exists'.mpr ⟨e, Table.get?_of_mem he⟩)
  open? e he hmay e₀ he₀ := by
    have hsame : e = e₀ := Table.eq_of_key he (Table.get?_eq_some.mp he₀).1
      (Table.get?_eq_some.mp he₀).2.symm
    exact hsame ▸ hmay
  known now row hmem := by
    obtain ⟨hget, hdue, -⟩ := System.holds_of_reachable hreach _ _ hmem
    refine ⟨row.delivery, hget, ?_,
      DeliveryStatus.mayBeClaimed_of_isClaimable (isDue_iff.mp hdue).1⟩
    intro hid
    exact hwaiting.unlocked (hid ▸ List.mem_filterMap.mpr ⟨_, hmem, rfl⟩)
  created := hcreated

/-- The course of a delivery that was there before a step. -/
theorem course_of_get? (hreach : (system S).Reachable u) (hstep : (system S).Step u l u')
    {e e' : Delivery} (he : u.ledger.deliveries.get? e'.id = some e)
    (he' : e' ∈ u'.ledger.deliveries.rows) :
    e' = e ∨ ∃ c c' event, Course.Step S.externals c event c' ∧ c.delivery = e ∧
      c'.delivery = e' ∧ Course.Sound S.externals c ∧
      ((∃ now, event = .claimed now) → ClaimsOf e'.id l) := by
  have hid : e.id = e'.id := (Table.get?_eq_some.mp he).2
  have hmem := (Table.get?_eq_some.mp he).1
  have hbefore : u.ledger.course e'.id = some ⟨e, u.ledger.attemptsOf e'.id⟩ :=
    Ledger.course_eq_some.mpr ⟨he, rfl⟩
  have hafter : u'.ledger.course e'.id = some ⟨e', u'.ledger.attemptsOf e'.id⟩ :=
    Ledger.course_of_mem he'
  rcases course_of_step e'.id hreach hstep with hsame | ⟨t, event, -, -, hmachine⟩
  · rw [hbefore, hafter, Option.some_inj, Course.mk.injEq] at hsame
    exact Or.inl hsame.1
  · rw [hbefore] at hmachine
    generalize hcourse : u'.ledger.course e'.id = after at hmachine
    cases hmachine with
    | @step _ c' _ h =>
      rw [hafter, Option.some_inj] at hcourse
      refine Or.inr ⟨_, c', event, h, rfl, by rw [← hcourse],
        sound_course (reachable_ledger hreach) hbefore, ?_⟩
      rintro ⟨now, rfl⟩
      by_contra hnone
      have hlength := (length_attemptsOf_of_step e'.id hreach hstep).2 hnone
      have hmore : c'.attempts.length = (u.ledger.attemptsOf e'.id).length + 1 :=
        h.length_claimed
      rw [← hcourse] at hmore
      simp only at hmore
      omega

/-- A row is selected from what nobody has locked. -/
theorem selected_of_step (hstep : (system S).Step u l u') {now : DateTime} {row : DueRow}
    (hmem : Call.dispatch now (.selected row) ∈ u'.calls) :
    Call.dispatch now (.selected row) ∈ u.calls ∨ selectDue u.ledger
      (fun id ↦ decide (id ∈ u.calls.filterMap Call.rowLock?)) now = some row := by
  obtain ⟨command, reply⟩ := l
  cases System.stepped_of_exec hstep with
  | createRefused | dispatchRefused | receiptRefused | lifecycleRefused | retryRefused
  | receiptRecorded | lifecycleRecorded | retryScheduled => exact Or.inl hmem
  | createStarted | dispatchStarted =>
    rcases List.mem_append.mp hmem with hmem | hmem
    · exact Or.inl hmem
    · rw [List.mem_singleton] at hmem
      cases hmem
  | abandoned =>
    rcases List.mem_or_eq_of_mem_set hmem with hmem | hmem
    · exact Or.inl hmem
    · cases hmem
  | advanced _ h =>
    rcases List.mem_or_eq_of_mem_set hmem with hmem | rfl
    · exact Or.inl hmem
    · cases h with
      | selected h => exact Or.inr h

/-- A creation keeps the time at which it was started. -/
theorem created_of_step (hstep : (system S).Step u l u') {request : Public.IntentRequest}
    {now : DateTime} {phase : CreatePhase} (hmem : Call.create request now phase ∈ u'.calls) :
    (∃ phase, Call.create request now phase ∈ u.calls) ∨
      ∃ caller raw, l.1 = .create caller raw now := by
  obtain ⟨command, reply⟩ := l
  cases System.stepped_of_exec hstep with
  | createRefused | dispatchRefused | receiptRefused | lifecycleRefused | retryRefused
  | receiptRecorded | lifecycleRecorded | retryScheduled => exact Or.inl ⟨_, hmem⟩
  | createStarted =>
    rcases List.mem_append.mp hmem with hmem | hmem
    · exact Or.inl ⟨_, hmem⟩
    · rw [List.mem_singleton] at hmem
      cases hmem
      exact Or.inr ⟨_, _, rfl⟩
  | dispatchStarted =>
    rcases List.mem_append.mp hmem with hmem | hmem
    · exact Or.inl ⟨_, hmem⟩
    · rw [List.mem_singleton] at hmem
      cases hmem
  | abandoned =>
    rcases List.mem_or_eq_of_mem_set hmem with hmem | hmem
    · exact Or.inl ⟨_, hmem⟩
    · cases hmem
  | advanced hc h =>
    rcases List.mem_or_eq_of_mem_set hmem with hmem | rfl
    · exact Or.inl ⟨_, hmem⟩
    · have hbefore := List.mem_of_getElem? hc
      cases h with
      | unknown | prepared | locked | absent => exact Or.inl ⟨_, hbefore⟩

/-- A delivery that a step claims was selected before. -/
theorem Behind.known_of_claims (hreach : (system S).Reachable u) (h : Behind d t s u)
    (hstep : (system S).Step u l u') {id : String} (hclaims : ClaimsOf id l) :
    ∃ e₀, s.ledger.deliveries.get? id = some e₀ ∧ MayPass d e₀ := by
  obtain ⟨command, work, rfl, hid⟩ := hclaims
  obtain ⟨now, row, hmem, hrow⟩ := selected_of_claimed hreach hstep
  rw [← hid, ← hrow]
  exact h.known now row hmem

/-- **A step lets nothing new pass.** -/
theorem Behind.step (hreach : (system S).Reachable u) (hext : s.ledger.Extends u.ledger)
    (h : Behind d t s u) (hwaiting : Waiting d u) (hwaiting' : Waiting d u')
    (hd : d.status.isClaimable = true) (ht : d.nextAttemptAt = some t)
    (hstep : (system S).Step u l u')
    (hcreate : ∀ caller request now, l.1 = .create caller request now → t < now.stored) :
    Behind d t s u' where
  later e' he' hnone := by
    cases hbefore : u.ledger.deliveries.get? e'.id with
    | none =>
      obtain ⟨request, now, intent, intentId, hmem, rfl⟩ := opened_of_step hreach hstep he' hbefore
      refine ⟨rfl, fun v hv ↦ ?_⟩
      cases hv
      exact h.created _ _ _ hmem
    | some e =>
      obtain ⟨hmem, hid⟩ := Table.get?_eq_some.mp hbefore
      have hid : e.id = e'.id := hid
      obtain ⟨hzero, hlater⟩ := h.later e hmem (hid ▸ hnone)
      rcases course_of_get? hreach hstep hbefore he' with rfl | ⟨c, c', event, hmove, rfl, rfl,
        hsound, hclaims⟩
      · exact ⟨hzero, hlater⟩
      have hnoclaim : ∀ now, event ≠ .claimed now := by
        rintro now rfl
        obtain ⟨e₀, he₀, -⟩ := h.known_of_claims hreach hstep (hclaims ⟨now, rfl⟩)
        rw [hnone] at he₀
        cases he₀
      obtain ⟨hzero', hsame | hnext⟩ := hmove.nextAttemptAt_of_untried hsound hzero hnoclaim
      · exact ⟨hzero', fun v hv ↦ hlater v (hsame ▸ hv)⟩
      · refine ⟨hzero', fun v hv ↦ ?_⟩
        rw [hnext] at hv
        cases hv
  open? e' he' hmay e₀ he₀ := by
    obtain ⟨hmem₀, hid₀⟩ := Table.get?_eq_some.mp he₀
    obtain ⟨e, hmem, hident⟩ := hext.exists_delivery hmem₀
    have hid : e.id = e'.id := (congrArg Prod.fst hident).trans hid₀
    have hbefore : u.ledger.deliveries.get? e'.id = some e := Table.get?_eq_some.mpr ⟨hmem, hid⟩
    refine h.open? e hmem ?_ e₀ (hid ▸ he₀)
    rcases course_of_get? hreach hstep hbefore he' with rfl | ⟨c, c', event, hmove, rfl, rfl, -⟩
    · exact hmay
    · exact hmove.mayBeClaimed hmay
  known now row hmem := by
    rcases selected_of_step hstep hmem with hold | hselect
    · exact h.known now row hold
    obtain ⟨v, hv, hle⟩ := nextAttemptAt_le_of_selectDue hreach hwaiting hd ht hselect
    obtain ⟨hrow, hdue, -⟩ := Runtime.of_selectDue hselect
    cases he₀ : s.ledger.deliveries.get? row.delivery.id with
    | none => exact absurd ((h.later _ hrow he₀).2 v hv) (not_lt.mpr hle)
    | some e₀ =>
      have hid : e₀.id = row.delivery.id := (Table.get?_eq_some.mp he₀).2
      refine ⟨e₀, rfl, ?_, h.open? _ hrow
        (DeliveryStatus.mayBeClaimed_of_isClaimable (isDue_iff.mp hdue).1) e₀ he₀⟩
      intro hsame
      refine hwaiting'.unlocked (List.mem_filterMap.mpr ⟨_, hmem, ?_⟩)
      rw [← hsame, hid]
      rfl
  created request now phase hmem := by
    rcases created_of_step hstep hmem with ⟨phase, hold⟩ | ⟨caller, raw, hcommand⟩
    · exact h.created _ _ _ hold
    · exact hcreate _ _ _ hcommand

/-! ## Counting the claims

Every claim that passes takes an attempt of a delivery that was there at the start, so the claims
are counted by delivery, and for each one they are at most the attempts it had left. -/

/-- **The run lemma.** Whatever is claimed while `d` waits was there before. -/
theorem behind_of_waitsThrough {ms : List (Command × Reply)} (hreach : (system S).Reachable s)
    (hd : d.status.isClaimable = true) (ht : d.nextAttemptAt = some t)
    (h : WaitsThrough S d s ms u)
    (hcreated : ∀ request now phase, Call.create request now phase ∈ s.calls → t < now.stored)
    (hcreates : ∀ l ∈ ms, ∀ caller request now, l.1 = .create caller request now →
      t < now.stored) :
    Behind d t s u ∧ ∀ id ∈ ms.filterMap claimedDelivery?,
      ∃ e₀, s.ledger.deliveries.get? id = some e₀ ∧ MayPass d e₀ := by
  induction h with
  | nil h => exact ⟨.start hreach h hcreated, fun id hid ↦ absurd hid List.not_mem_nil⟩
  | @snoc ls l v w h hstep hw ih =>
    rw [List.forall_mem_append, List.forall_mem_singleton] at hcreates
    obtain ⟨hbehind, hclaims⟩ := ih hcreates.1
    have hreach' := hreach.run h.run
    refine ⟨hbehind.step hreach' (extends_of_systemRun hreach h.run) h.waiting hw hd ht hstep
      hcreates.2, fun id hid ↦ ?_⟩
    rw [List.filterMap_append, List.mem_append] at hid
    rcases hid with hid | hid
    · exact hclaims id hid
    · obtain ⟨l', hl', hsome⟩ := List.mem_filterMap.mp hid
      rw [List.mem_singleton.mp hl'] at hsome
      exact hbehind.known_of_claims hreach' hstep (claimedDelivery?_eq_some.mp hsome)

/-- Every claim of a delivery is an attempt of it. -/
theorem count_claimedDelivery (id : String) {ms : List (Command × Reply)}
    (hreach : (system S).Reachable s) (hrun : (system S).Run s ms u) :
    (ms.filterMap claimedDelivery?).count id + (s.ledger.attemptsOf id).length =
      (u.ledger.attemptsOf id).length := by
  induction hrun with
  | nil => simp
  | @snoc ls l v w hrun hstep ih =>
    obtain ⟨hclaims, hother⟩ := length_attemptsOf_of_step id (hreach.run hrun) hstep
    rw [List.filterMap_append, List.count_append]
    by_cases hclaim : ClaimsOf id l
    · rw [hclaims hclaim, ← ih, List.filterMap_cons_some (claimedDelivery?_eq_some.mpr hclaim)]
      simp
      omega
    · rw [hother hclaim, ← ih]
      cases hl : claimedDelivery? l with
      | none => simp [hl]
      | some id' =>
        have hne : id' ≠ id := fun heq ↦ hclaim (claimedDelivery?_eq_some.mp (heq ▸ hl))
        simp [hl, hne]

/-- A list is as long as its members occur in it, if nothing else does. -/
theorem length_le_sum_count {α : Type} [DecidableEq α] {xs ids : List α}
    (h : ∀ x ∈ xs, x ∈ ids) : xs.length ≤ (ids.map fun id ↦ xs.count id).sum := by
  induction xs with
  | nil => exact Nat.zero_le _
  | cons x xs ih =>
    rw [List.forall_mem_cons] at h
    have hone : 1 ≤ (ids.map fun id ↦ if x = id then 1 else 0).sum :=
      List.single_le_sum (fun _ _ ↦ Nat.zero_le _) 1 (List.mem_map.mpr ⟨x, h.1, if_pos rfl⟩)
    have hsplit : (ids.map fun id ↦ (x :: xs).count id) =
        ids.map fun id ↦ xs.count id + if x = id then 1 else 0 :=
      List.map_congr_left fun id _ ↦ by simp [List.count_cons]
    rw [hsplit, List.sum_map_add, List.length_cons]
    exact Nat.add_le_add (ih h.2) hone

end Waiting

/-- **Overtaking is bounded.** While a claimable delivery waits at its place and whatever is created
is created for later, the claims that pass it by are claims of deliveries that were there before,
and of each of them no more than it has attempts left. -/
theorem overtaken_at_most {S : Setting} {s s' : System} {ms : List (Command × Reply)}
    {d : Delivery} {t : Timestamp} (hreach : (system S).Reachable s)
    (hd : d.status.isClaimable = true) (ht : d.nextAttemptAt = some t)
    (hwaits : WaitsThrough S d s ms s')
    (hcreated : ∀ request now phase, Call.create request now phase ∈ s.calls → t < now.stored)
    (hcreates : ∀ l ∈ ms, ∀ caller request now, l.1 = .create caller request now →
      t < now.stored) :
    (∀ id ∈ ms.filterMap claimedDelivery?, ∃ e ∈ s.ledger.deliveries.rows, e.id = id ∧
        MayPass d e ∧
        (ms.filterMap claimedDelivery?).count id ≤ e.maxAttempts - e.attemptCount) ∧
      (ms.filterMap claimedDelivery?).length ≤
        ((s.ledger.deliveries.rows.filter (MayPass d)).map fun e ↦
          e.maxAttempts - e.attemptCount).sum := by
  obtain ⟨-, hclaims⟩ := behind_of_waitsThrough hreach hd ht hwaits hcreated hcreates
  have hcount : ∀ e ∈ s.ledger.deliveries.rows,
      (ms.filterMap claimedDelivery?).count e.id ≤ e.maxAttempts - e.attemptCount := by
    intro e he
    obtain ⟨e', he', hident⟩ :=
      (extends_of_systemRun hreach hwaits.run).exists_delivery he
    have hid : e'.id = e.id := congrArg Prod.fst hident
    have hsound := sound_course (reachable_ledger hreach) (Ledger.course_of_mem he)
    have hsound' := sound_course (reachable_ledger (hreach.run hwaits.run))
      (Ledger.course_of_mem he')
    have hbefore : (s.ledger.attemptsOf e.id).length = e.attemptCount := hsound.length_eq
    have hafter : (s'.ledger.attemptsOf e'.id).length = e'.attemptCount := hsound'.length_eq
    have hbudget : e'.attemptCount ≤ 4 := hsound'.budget
    have hmax : e.maxAttempts = 4 := hsound.maxAttempts
    have htotal := count_claimedDelivery e.id hreach hwaits.run
    rw [hid] at hafter
    omega
  refine ⟨fun id hid ↦ ?_, ?_⟩
  · obtain ⟨e, he, hpass⟩ := hclaims id hid
    obtain ⟨hmem, rfl⟩ := Table.get?_eq_some.mp he
    exact ⟨e, hmem, rfl, hpass, hcount e hmem⟩
  · have hids : ∀ id ∈ ms.filterMap claimedDelivery?,
        id ∈ (s.ledger.deliveries.rows.filter (MayPass d)).map Delivery.id := by
      intro id hid
      obtain ⟨e, he, hpass⟩ := hclaims id hid
      obtain ⟨hmem, rfl⟩ := Table.get?_eq_some.mp he
      exact List.mem_map_of_mem (List.mem_filter.mpr ⟨hmem, decide_eq_true hpass⟩)
    refine (length_le_sum_count hids).trans ?_
    rw [List.map_map]
    exact List.sum_le_sum fun e he ↦ hcount e (List.mem_filter.mp he).1

/-! ## An earlier delivery passes

A second invitation waits at its place while a worker selects and claims the first one. -/

namespace Deployment

/-- A second invitation, an hour after the first. -/
def secondStoring : List Command :=
  [.create (some "org") (requestTo "bo@c.de") oneHourLater, .advance 1 .proceed,
    .advance 1 (.rendered (.ok rendered)), .advance 1 .proceed, .advance 1 .proceed,
    .advance 1 (.nonces nonces)]

/-- The delivery can be claimed, and waits while a worker starts, selects and claims. -/
def isPassed (s : System) (d : Delivery) : Bool :=
  d.status.isClaimable && decide (d.nextAttemptAt = some oneHourLater.stored) &&
    decide (Waiting d s) &&
    (s.exec setting (.dispatchDue (some "jobs") oneHourLater)).any fun started ↦
      decide (Waiting d started.1) &&
      (started.1.exec setting (.advance 2 .proceed)).any fun selected ↦
        decide (Waiting d selected.1) &&
        (selected.1.exec setting (.advance 2 .proceed)).any fun claimed ↦
          decide (Waiting d claimed.1) &&
          (claimedDelivery? (.advance 2 .proceed, claimed.2)).isSome

theorem secondStoring_runs : ((queued.execAll setting secondStoring).any fun p ↦
    p.1.calls.all (decide <| · = Call.returned) &&
      p.1.ledger.deliveries.rows.any (isPassed p.1)) = true := by
  decide +kernel

end Deployment

/-- The first invitation is claimed while the second waits, and could be claimed four times. -/
theorem overtaken_at_most_second :
    ∃ (s : System) (d : Delivery) (ms : List (Command × Reply)),
      d ∈ s.ledger.deliveries.rows ∧ ms.filterMap claimedDelivery? ≠ [] ∧
      (ms.filterMap claimedDelivery?).length ≤
        ((s.ledger.deliveries.rows.filter (MayPass d)).map fun e ↦
          e.maxAttempts - e.attemptCount).sum := by
  obtain ⟨s, hs, htest⟩ := exists_of_execAll Deployment.secondStoring
    (fun s ↦ s.calls.all (decide <| · = Call.returned) &&
      s.ledger.deliveries.rows.any (Deployment.isPassed s))
    Deployment.reachable_queued Deployment.secondStoring_runs
  rw [Bool.and_eq_true, List.all_eq_true, List.any_eq_true] at htest
  obtain ⟨hreturned, d, hd, hpassed⟩ := htest
  simp only [Deployment.isPassed, Bool.and_eq_true, decide_eq_true_eq, Option.any_eq_true]
    at hpassed
  obtain ⟨⟨⟨hclaimable, ht⟩, h₀⟩, started, hstarted, h₁, selected, hselected, h₂, claimed, hclaimed,
    h₃, hsome⟩ := hpassed
  have hstep₁ : (system Deployment.setting).Step s
      (.dispatchDue (some "jobs") Deployment.oneHourLater, started.2) started.1 := hstarted
  have hstep₂ : (system Deployment.setting).Step started.1
      (.advance 2 .proceed, selected.2) selected.1 := hselected
  have hstep₃ : (system Deployment.setting).Step selected.1
      (.advance 2 .proceed, claimed.2) claimed.1 := hclaimed
  have hwaits := (((@WaitsThrough.nil Deployment.setting d s h₀).snoc hstep₁ h₁).snoc
    hstep₂ h₂).snoc hstep₃ h₃
  obtain ⟨-, hlength⟩ := overtaken_at_most hs hclaimable ht hwaits
    (fun request now phase hmem ↦ by cases of_decide_eq_true (hreturned _ hmem))
    (fun l hl caller request now hcommand ↦ by
      simp only [List.nil_append, List.cons_append, List.mem_cons, List.not_mem_nil,
        or_false] at hl
      rcases hl with rfl | rfl | rfl <;> cases hcommand)
  refine ⟨s, d, _, hd, ?_, hlength⟩
  obtain ⟨id, hid⟩ := Option.isSome_iff_exists.mp hsome
  exact List.ne_nil_of_mem (List.mem_filterMap.mpr ⟨_, List.mem_append_right _
    (List.mem_singleton_self _), hid⟩)

end NotificationLedger

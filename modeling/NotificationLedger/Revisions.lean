import NotificationLedger.Deployment

/-!
# Revisions

The revision of a delivery counts the committed operations that changed its row. `Targets` says
which transactions change the row of a given delivery; each is guarded by its own copy of the bound
check, and all of them fail once the revision has reached the wire limit.
-/

namespace NotificationLedger

open Outcome

/-! ## The operations that change a delivery

A transaction that succeeds changes the row of a delivery by one revision, and only if it targets
it. -/

/-- The transaction would change the row of this delivery. -/
inductive Transaction.Targets (X : Externals) (L : Ledger) (d : Delivery) : Transaction → Prop
  | claim {locked : String → Bool} {now : DateTime} {row : Runtime.DueRow}
      (hselect : Runtime.selectDue L locked now = some row) (hrow : row.delivery = d) :
      Targets X L d (.claim locked now)
  | dispatch {event : ObservationEnvelope} {payload : EmailDispatchObserved} {a : Attempt}
      (hfresh : L.consumedEvents.get? event.id = none)
      (hadmitted : Events.observationOf X event = .ok (.dispatch payload))
      (hrows : L.deliveryWithAttempt payload.deliveryId payload.attemptId = some (d, a))
      (hattempting : d.status = .attempting) : Targets X L d (.observe event)
  | receipt {event : ObservationEnvelope} {payload : EmailReceiptObserved} {a : Attempt}
      (hfresh : L.consumedEvents.get? event.id = none)
      (hadmitted : Events.observationOf X event = .ok (.receipt payload))
      (hunknown : Events.findReceipt L payload.source payload.remoteId payload.kind.evidence = none)
      (hrows : L.deliveryWithAttempt payload.deliveryId payload.attemptId = some (d, a)) :
      Targets X L d (.observe event)
  | lifecycle {event : ObservationEnvelope} {payload : OrganizationInvitationLifecycle}
      (hfresh : L.consumedEvents.get? event.id = none)
      (hadmitted : Events.observationOf X event = .ok (.lifecycle payload))
      (hmem : d ∈ L.deliveries.rows) (hcancels : Events.cancels L event payload d = true) :
      Targets X L d (.observe event)
  | retry {deliveryId idempotencyKey requestedBy : String} {expectedRevision : ℕ}
      {now : DateTime} (hunknown : Repository.findRetry L deliveryId idempotencyKey = none)
      (hget : L.deliveries.get? deliveryId = some d) :
      Targets X L d (.retry deliveryId expectedRevision idempotencyKey requestedBy now)

section Targets

variable {X : Externals} {protector : SnapshotProtector} {L L' : Ledger} {t : Transaction}
  {d : Delivery}

/-- A row that an update changes satisfies its guard. -/
theorem of_changed {p : Delivery → Bool} {f : Delivery → Delivery} (hf : Keyed.Keeps f)
    {id : String} {T : Table Delivery} (hd : T.get? id = some d)
    (h : (T.update p f hf).get? id ≠ some d) : p d = true := by
  by_contra hp
  refine h ((Table.get?_update_of_not hf fun b hb ↦ ?_).trans hd)
  cases hd.symm.trans hb
  exact Bool.eq_false_iff.mpr hp

/-- The delivery under a key is the one with that id. -/
theorem eq_of_get {deliveryId : String} {b : Delivery} (hd : L.deliveries.get? d.id = some d)
    (hb : L.deliveries.get? deliveryId = some b) (hid : d.id = deliveryId) : b = d := by
  subst hid
  exact Option.some_inj.mp (hb.symm.trans hd)

/-- **Nothing else changes a delivery.** -/
theorem Transaction.targets_of_changed (hrun : t.run X protector L = .ok L')
    (hd : L.deliveries.get? d.id = some d) (hchanged : L'.deliveries.get? d.id ≠ some d) :
    t.Targets X L d := by
  cases t with
  | create intent nonces now =>
    refine absurd ?_ hchanged
    obtain ⟨receipt, h⟩ := fst_map_eq_ok.mp hrun
    obtain ⟨-, hsame | ⟨intentId, hins⟩⟩ := Public.frame_of_persistIntent h
    · rw [hsame]
      exact hd
    · obtain ⟨hmem, -⟩ := Table.get?_eq_some.mp hd
      exact Table.get?_of_mem ((Table.mem_insert? hins).mpr (Or.inl hmem))
  | claim locked now =>
    cases hselect : Runtime.selectDue L locked now with
    | none =>
      simp only [Transaction.run, Runtime.claimOneDue, hselect, map_pure, Option.elim_none,
        pure_eq_ok] at hrun
      exact absurd (hrun ▸ hd) hchanged
    | some row =>
      refine .claim hselect ?_
      obtain ⟨hmem, hdue, -, -⟩ := Runtime.of_selectDue hselect
      have hrow : L.deliveries.get? row.delivery.id = some row.delivery := Table.get?_of_mem hmem
      simp only [Transaction.run, Runtime.claimOneDue, hselect] at hrun
      cases hclaim : Runtime.claimRow X protector L row now with
      | error e =>
        rw [hclaim] at hrun
        cases hrun
      | ok claimed =>
        rw [hclaim] at hrun
        cases hrun
        obtain ⟨-, -, -, -, L₁, hins, hL'⟩ :=
          (Runtime.claimRow_eq_ok hrow (Runtime.isDue_iff.mp hdue).1).mp hclaim
        simp only [Option.elim_some, hL'] at hchanged
        exact eq_of_get hd hrow (of_decide_eq_true (of_changed _ hd hchanged))
  | observe event =>
    obtain ⟨observation, hadmitted, hrecord⟩ := Events.apply_eq_ok.mp hrun
    obtain ⟨-, ⟨_, -, -, rfl⟩ | ⟨hfresh, L₁, hins, hobserve⟩⟩ := Events.recordOnce_eq_ok.mp hrecord
    · exact absurd hd hchanged
    obtain ⟨-, T, -, rfl⟩ := Ledger.insertConsumedEvent_eq_some.mp hins
    cases observation with
    | dispatch payload =>
      obtain ⟨-, b, a, hrows, -, ⟨-, -, -, rfl⟩ | ⟨hattempting, -, -, -, hevidence⟩⟩ :=
        Events.observeDispatch_eq_ok.mp hobserve
      · exact absurd hd hchanged
      · rw [(Ledger.insertEvidence_frame hevidence).1] at hchanged
        obtain ⟨hget, -, -⟩ := Ledger.deliveryWithAttempt_eq_some.mp hrows
        have hbd : b = d := eq_of_get hd hget (of_decide_eq_true
          (of_changed (Delivery.keeps_afterDispatch payload) hd hchanged))
        subst hbd
        exact .dispatch hfresh hadmitted hrows hattempting
    | receipt payload =>
      obtain ⟨-, ⟨_, -, -, rfl⟩ | ⟨b, a, hsettles, L₂, hins', rfl⟩⟩ :=
        Events.observeReceipt_eq_ok.mp hobserve
      · exact absurd hd hchanged
      · obtain ⟨-, R, -, rfl⟩ := Ledger.insertReceipt_eq_some.mp hins'
        obtain ⟨hget, -, -⟩ := Ledger.deliveryWithAttempt_eq_some.mp hsettles.rows
        have hbd : b = d := eq_of_get hd hget (of_decide_eq_true
          (of_changed (Delivery.keeps_afterReceipt payload) hd hchanged))
        subst hbd
        exact .receipt hfresh hadmitted hsettles.unknown hsettles.rows
    | lifecycle payload =>
      obtain ⟨-, -, L₂, hins', rfl⟩ := Events.observeLifecycle_eq_ok.mp hobserve
      obtain ⟨-, R, -, rfl⟩ := Ledger.insertSourceLifecycleEvent_eq_some.mp hins'
      exact .lifecycle hfresh hadmitted (Table.get?_eq_some.mp hd).1
        (of_changed (Delivery.keeps_finalized _ _ _) hd hchanged)
  | retry deliveryId expectedRevision idempotencyKey requestedBy now =>
    obtain ⟨result, h⟩ := fst_map_eq_ok.mp hrun
    rw [Repository.requestManualRetry] at h
    obtain ⟨-, h⟩ := ensure_bind_eq_ok.mp h
    split at h
    · obtain ⟨_, -, h⟩ := bind_eq_ok.mp h
      rw [pure_eq_ok, Prod.mk.injEq] at h
      exact absurd (h.1 ▸ hd) hchanged
    · next hunknown =>
      obtain ⟨b, hget, -, -, -, ⟨L₁, hins, rfl⟩, -⟩ := Repository.scheduleManualRetry_eq_ok.mp h
      obtain ⟨-, R, -, rfl⟩ := Ledger.insertRetryRequest_eq_some.mp hins
      have hbd : b = d := eq_of_get hd hget (of_decide_eq_true
        (of_changed (Delivery.keeps_rescheduled _ _) hd hchanged))
      exact .retry hunknown (hbd ▸ hget)

/-- **At the wire limit every operation that would change the delivery fails.** -/
theorem Transaction.Targets.ne_ok (h : t.Targets X L d)
    (hlimit : maxSafeWireInteger ≤ d.revision) : t.run X protector L ≠ .ok L' := by
  intro hrun
  have hobserved : ∀ event, t = .observe event → ∃ observation,
      Events.observationOf X event = .ok observation ∧
        ((∃ c, L.consumedEvents.get? event.id = some c) ∨
          ∃ T, observation.observe X { L with consumedEvents := T } event = .ok L') := by
    rintro event rfl
    obtain ⟨observation, hadmitted, hrecord⟩ := Events.apply_eq_ok.mp hrun
    obtain ⟨-, ⟨c, hc, -⟩ | ⟨-, L₁, hins, hobserve⟩⟩ := Events.recordOnce_eq_ok.mp hrecord
    · exact ⟨observation, hadmitted, Or.inl ⟨c, hc⟩⟩
    · obtain ⟨-, T, -, rfl⟩ := Ledger.insertConsumedEvent_eq_some.mp hins
      exact ⟨observation, hadmitted, Or.inr ⟨T, hobserve⟩⟩
  cases h with
  | claim hselect hrow =>
    simp only [Transaction.run, Runtime.claimOneDue, hselect] at hrun
    rw [Runtime.claimRow, ensure_of_not (by rw [hrow]; omega)] at hrun
    cases hrun
  | dispatch hfresh hadmitted hrows hattempting =>
    obtain ⟨o, ho, ⟨c, hc⟩ | ⟨T, hobserve⟩⟩ := hobserved _ rfl
    · cases hfresh.symm.trans hc
    cases hadmitted.symm.trans ho
    obtain ⟨-, b, a, hrows', -, ⟨hne, -⟩ | ⟨-, -, hrev, -⟩⟩ :=
      Events.observeDispatch_eq_ok.mp hobserve
    · cases hrows.symm.trans hrows'
      exact hne hattempting
    · cases hrows.symm.trans hrows'
      omega
  | receipt hfresh hadmitted hunknown hrows =>
    obtain ⟨o, ho, ⟨c, hc⟩ | ⟨T, hobserve⟩⟩ := hobserved _ rfl
    · cases hfresh.symm.trans hc
    cases hadmitted.symm.trans ho
    obtain ⟨-, ⟨r, hr, -⟩ | ⟨b, a, hsettles, -⟩⟩ := Events.observeReceipt_eq_ok.mp hobserve
    · cases hunknown.symm.trans hr
    · have hrev := hsettles.revision
      cases hrows.symm.trans hsettles.rows
      omega
  | lifecycle hfresh hadmitted hmem hcancels =>
    obtain ⟨o, ho, ⟨c, hc⟩ | ⟨T, hobserve⟩⟩ := hobserved _ rfl
    · cases hfresh.symm.trans hc
    cases hadmitted.symm.trans ho
    obtain ⟨-, hrev, -⟩ := Events.observeLifecycle_eq_ok.mp hobserve
    have hlt := hrev d hmem hcancels
    omega
  | retry hunknown hget =>
    obtain ⟨result, h⟩ := fst_map_eq_ok.mp hrun
    rw [Repository.requestManualRetry] at h
    obtain ⟨-, h⟩ := ensure_bind_eq_ok.mp h
    rw [hunknown] at h
    obtain ⟨b, hget', -, hrev, -⟩ := Repository.scheduleManualRetry_eq_ok.mp h
    cases hget.symm.trans hget'
    omega

end Targets

/-! ## Counting

The revision is compared with the number of such steps since the delivery was opened, along the
history. -/

/-- The revisions from which the commands, taken in order, changed the row of a delivery. -/
def System.startRevisions (S : Setting) (deliveryId : String) : System → List Command → List ℕ
  | _, [] => []
  | s, c :: cs =>
    match s.exec S c with
    | none => []
    | some (s', _) =>
      (match s.ledger.deliveries.get? deliveryId with
        | some d => if s'.ledger.deliveries.get? deliveryId = some d then [] else [d.revision]
        | none => []) ++ startRevisions S deliveryId s' cs

/-- What one event does to the revision. -/
theorem Course.Step.revision {X : Externals} {c c' : Course} {e : Course.Event}
    (h : Course.Step X c e c') :
    c'.delivery = c.delivery ∨ c'.delivery.revision = c.delivery.revision + 1 := by
  cases h with
  | claim | cancel | reschedule => exact Or.inr rfl
  | resolve => exact Or.inr (Delivery.afterDispatch_counts _ _).2.2
  | absorb => exact Or.inl rfl
  | settle => exact Or.inr (Delivery.afterReceipt_counts _ _).2.2

section Counting

variable {S : Setting} {s s' : System} {deliveryId : String} {l : Command × Reply}
  {ls : List (Command × Reply)}

/-- A step keeps the row of a delivery, or raises its revision by one. -/
theorem revision_of_step (hreach : (system S).Reachable s) (hstep : (system S).Step s l s')
    {d : Delivery} (hd : s.ledger.deliveries.get? deliveryId = some d) :
    ∃ d', s'.ledger.deliveries.get? deliveryId = some d' ∧
      (d' = d ∨ d'.revision = d.revision + 1) := by
  have hcourse : s.ledger.course deliveryId = some ⟨d, s.ledger.attemptsOf deliveryId⟩ :=
    Ledger.course_eq_some.mpr ⟨hd, rfl⟩
  rcases course_of_step deliveryId hreach hstep with hsame | ⟨_, _, -, -, hmachine⟩
  · exact ⟨d, (Ledger.course_eq_some.mp (hsame.trans hcourse)).1, Or.inl rfl⟩
  · rw [hcourse] at hmachine
    generalize hafter : s'.ledger.course deliveryId = after at hmachine
    cases hmachine with
    | step hmove => exact ⟨_, (Ledger.course_eq_some.mp hafter).1, hmove.revision⟩

/-- A delivery that a step inserts starts with revision one. -/
theorem revision_of_new (hreach : (system S).Reachable s) (hstep : (system S).Step s l s')
    (hd : s.ledger.deliveries.get? deliveryId = none) {d : Delivery}
    (hd' : s'.ledger.deliveries.get? deliveryId = some d) : d.revision = 1 := by
  have hcourse : s.ledger.course deliveryId = none := by rw [Ledger.course, hd, Option.map_none]
  have hcourse' : s'.ledger.course deliveryId = some ⟨d, s'.ledger.attemptsOf deliveryId⟩ :=
    Ledger.course_eq_some.mpr ⟨hd', rfl⟩
  rcases course_of_step deliveryId hreach hstep with hsame | ⟨_, _, -, -, hmachine⟩
  · rw [hsame, hcourse] at hcourse'
    cases hcourse'
  · rw [hcourse, hcourse'] at hmachine
    generalize s'.ledger.attemptsOf deliveryId = attempts at hmachine
    cases hmachine
    rfl

/-- The revisions of a run with one more step. -/
theorem System.startRevisions_snoc {t : System} (h : (system S).Run s ls t) :
    s.startRevisions S deliveryId ((ls ++ [l]).map Prod.fst) =
      s.startRevisions S deliveryId (ls.map Prod.fst) ++
        t.startRevisions S deliveryId [l.1] := by
  induction ls generalizing s with
  | nil =>
    rw [h.eq_of_nil]
    rfl
  | cons m ls ih =>
    have hsplit : (system S).Run s ([] ++ m :: ls) t := h
    obtain ⟨u, v, hnil, hfirst, hrest⟩ := hsplit.of_append_cons
    rw [hnil.eq_of_nil] at hfirst
    have hexec : s.exec S m.1 = some (v, m.2) := hfirst
    simp only [List.cons_append, List.map_cons, startRevisions.eq_2 S deliveryId s m.1, hexec]
    rw [ih hrest, List.append_assoc]

/-- **The revisions a delivery was changed from**, in order: each from one to the last but one. -/
theorem startRevisions_eq (h : (system S).History ls s) :
    System.empty.startRevisions S deliveryId (ls.map Prod.fst) =
      match s.ledger.deliveries.get? deliveryId with
      | some d => List.range' 1 (d.revision - 1)
      | none => [] := by
  refine Lts.History.invariant (S := system S)
    (I := fun ls s ↦ System.empty.startRevisions S deliveryId (ls.map Prod.fst) =
      match s.ledger.deliveries.get? deliveryId with
      | some d => List.range' 1 (d.revision - 1)
      | none => []) ?_ ?_ h
  · rintro s rfl
    rfl
  · intro ls s l s' hls ih hstep
    have hreach : (system S).Reachable s := ⟨ls, hls⟩
    obtain ⟨s₀, rfl, hrun⟩ := hls
    rw [System.startRevisions_snoc hrun, ih]
    have hexec : s.exec S l.1 = some (s', l.2) := hstep
    simp only [System.startRevisions, hexec, List.append_nil]
    cases hd : s.ledger.deliveries.get? deliveryId with
    | none =>
      cases hd' : s'.ledger.deliveries.get? deliveryId with
      | none => rfl
      | some d' =>
        simp only [revision_of_new hreach hstep hd hd', List.nil_append, Nat.sub_self]
        rfl
    | some d =>
      obtain ⟨d', hd', hchange⟩ := revision_of_step hreach hstep hd
      obtain ⟨hmem, hid⟩ := Table.get?_eq_some.mp hd
      have hsound := sound_course (reachable_ledger hreach) (Ledger.course_of_mem hmem)
      have hpos : 1 ≤ d.revision := hsound.revision.1
      simp only [hd', Option.some_inj]
      by_cases hsame : d' = d
      · rw [if_pos hsame, hsame, List.append_nil]
      · have hnext := hchange.resolve_left hsame
        rw [if_neg hsame, hnext, Nat.add_sub_cancel]
        -- the new revision is appended at the end of the range
        obtain ⟨n, hn⟩ := Nat.exists_eq_add_of_le hpos
        rw [hn, Nat.add_sub_cancel_left, Nat.add_comm 1 n, List.range'_1_concat, Nat.add_comm 1 n]

end Counting

/-! ## The main result -/

/-- The reply reports a failure. -/
def Reply.isError : Reply → Bool
  | .createRefused _ | .dispatchRefused _ => true
  | .created _ result => !result.isOk
  | .dispatched _ result => !result.isOk
  | .receipt result => !result.isOk
  | .lifecycle result => !result.isOk
  | .retry result => !result.isOk
  | .pending | .claimed _ | .handedOver _ => false

/-- A transaction that cannot be committed is answered with an error, and nothing has changed. -/
theorem error_of_issues {S : Setting} {s s' : System} {command : Command} {reply reply' : Reply}
    {t : Transaction} (hreach : (system S).Reachable s)
    (hissues : System.Issues S s command reply t)
    (hfails : ∀ L', t.run S.externals S.protector s.ledger ≠ .ok L')
    (hstep : (system S).Step s (command, reply') s') :
    s'.ledger = s.ledger ∧ reply'.isError = true := by
  have hstepped := System.stepped_of_exec hstep
  have hholds := System.holds_of_reachable hreach
  cases hissues with
  | write hc =>
    cases hstepped with
    | advanced hc' h =>
      cases hc.symm.trans hc'
      cases h with
      | writeFailed => exact ⟨rfl, rfl⟩
      | written h =>
        exact absurd (fst_map_eq_ok.mpr ⟨_, Public.persistIntent_of_writeIntent h⟩) (hfails _)
  | claim hc =>
    cases hstepped with
    | advanced hc' h =>
      cases hc.symm.trans hc'
      cases h with
      | claimFailed => exact ⟨rfl, rfl⟩
      | claimed h => exact absurd (hholds.run_claim (List.mem_of_getElem? hc) h) (hfails _)
  | answer hc =>
    cases hstepped with
    | advanced hc' h =>
      cases hc.symm.trans hc'
      cases h with
      | lost => exact ⟨rfl, rfl⟩
      | recorded h => exact absurd h (hfails _)
  | receipt henvelope =>
    cases hstepped with
    | receiptRefused => exact ⟨rfl, rfl⟩
    | receiptRecorded henvelope' h =>
      cases henvelope.symm.trans henvelope'
      exact absurd h (hfails _)
  | lifecycle henvelope =>
    cases hstepped with
    | lifecycleRefused => exact ⟨rfl, rfl⟩
    | lifecycleRecorded henvelope' h =>
      cases henvelope.symm.trans henvelope'
      exact absurd h (hfails _)
  | retry hcaller =>
    cases hstepped with
    | retryRefused => exact ⟨rfl, rfl⟩
    | retryScheduled hcaller' h =>
      cases hcaller.symm.trans hcaller'
      exact absurd (fst_map_eq_ok.mpr ⟨_, h⟩) (hfails _)

/-- What the revision of a delivery says about a history of the system. -/
structure Accounted (S : Setting) (ls : List (Command × Reply)) (s : System) (d : Delivery) :
    Prop where
  /-- One, and one more for every committed change. -/
  counted : d.revision =
    1 + (System.empty.startRevisions S d.id (ls.map Prod.fst)).length
  /-- No two changes start from the same revision. -/
  distinct : (System.empty.startRevisions S d.id (ls.map Prod.fst)).Nodup
  bounded : 1 ≤ d.revision ∧ d.revision ≤ maxSafeWireInteger
  /-- Only an operation that targets the delivery changes it. -/
  targeted : ∀ command reply s', (system S).Step s (command, reply) s' →
    s'.ledger.deliveries.get? d.id ≠ some d →
    ∃ t, System.Issues S s command reply t ∧ t.Targets S.externals s.ledger d
  /-- At the limit every such operation fails as a whole. -/
  exhausted : d.revision = maxSafeWireInteger → ∀ command reply t reply' s',
    System.Issues S s command reply t → t.Targets S.externals s.ledger d →
    (system S).Step s (command, reply') s' → s'.ledger = s.ledger ∧ reply'.isError = true

/-- **Revisions count committed changes** and stay within the wire range. -/
theorem accounted_of_history {S : Setting} {ls : List (Command × Reply)} {s : System}
    {d : Delivery} (h : (system S).History ls s) (hd : d ∈ s.ledger.deliveries.rows) :
    Accounted S ls s d := by
  have hreach : (system S).Reachable s := ⟨ls, h⟩
  have hget : s.ledger.deliveries.get? d.id = some d := Table.get?_of_mem hd
  have hrange : System.empty.startRevisions S d.id (ls.map Prod.fst) = _ := startRevisions_eq h
  have hsound := sound_course (reachable_ledger hreach) (Ledger.course_of_mem hd)
  have hpos : 1 ≤ d.revision := hsound.revision.1
  rw [hget] at hrange
  simp only at hrange
  refine ⟨?_, ?_, hsound.revision, ?_, ?_⟩
  · rw [hrange, List.length_range']
    omega
  · rw [hrange]
    exact List.nodup_range'
  · intro command reply s' hstep hchanged
    rcases System.ledger_of_stepped (System.holds_of_reachable hreach)
      (System.stepped_of_exec hstep) with hsame | ⟨t, hissues, hrun⟩
    · rw [hsame] at hchanged
      exact absurd hget hchanged
    · exact ⟨t, hissues, Transaction.targets_of_changed hrun hget hchanged⟩
  · intro hlimit command reply t reply' s' hissues htargets hstep
    exact error_of_issues hreach hissues (fun L' ↦ htargets.ne_ok hlimit.ge) hstep

/-- Two claims and one refused attempt have raised the revision to four. -/
theorem accounted_retrying :
    ∃ ls d, d ∈ Deployment.retrying.ledger.deliveries.rows ∧ d.revision = 4 ∧
      Accounted Deployment.setting ls Deployment.retrying d := by
  obtain ⟨ls, hls, -⟩ := Deployment.exists_history_retrying
  exact ⟨ls, _, List.mem_cons_self, rfl, accounted_of_history hls List.mem_cons_self⟩

end NotificationLedger

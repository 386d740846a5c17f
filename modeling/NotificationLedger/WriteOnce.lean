import NotificationLedger.NoRepeat
import NotificationLedger.Columns

/-!
# The evidence of an attempt is written once

Seven columns of an attempt start out null. The statement that resolves an attempt overwrites all of
them, the one that absorbs a late observation fills what is null, and a receipt fills the time of
completion only. What is written stays: the overwritten attempt is the one in flight, which has
nothing to lose (`Course.Unwritten`). Since an attempt is answered once, the columns that an
observation fills all come from one answer.
-/

namespace NotificationLedger

/-! ## The columns

The seven columns as a record, and the order in which one is an extension of another: what is filled
stays. -/

/-- The columns only a dispatch observation fills. -/
structure DispatchEvidence where
  provider : Option String
  remoteReceiptId : Option String
  remoteReceiptSource : Option String
  remoteReceiptDigest : Option String
  failureCode : Option String
  failureClassification : Option String
  deriving DecidableEq

def DispatchEvidence.none : DispatchEvidence :=
  ⟨Option.none, Option.none, Option.none, Option.none, Option.none, Option.none⟩

/-- What an observation leaves in an attempt that had nothing. -/
def EmailDispatchObserved.evidence (payload : EmailDispatchObserved) : DispatchEvidence where
  provider := some (bounded payload.provider 160)
  remoteReceiptId := payload.remoteReceipt.map fun r ↦ bounded r.remoteId 320
  remoteReceiptSource := payload.remoteReceipt.map fun r ↦ bounded r.source 160
  remoteReceiptDigest := payload.remoteReceipt.map fun r ↦ r.digest
  failureCode := payload.failure.map fun f ↦ bounded f.code 160
  failureClassification := payload.failure.map fun f ↦ bounded f.classification 160

namespace Attempt

variable {a a' a'' : Attempt}

def evidence (a : Attempt) : DispatchEvidence where
  provider := a.provider
  remoteReceiptId := a.remoteReceiptId
  remoteReceiptSource := a.remoteReceiptSource
  remoteReceiptDigest := a.remoteReceiptDigest
  failureCode := a.failureCode
  failureClassification := a.failureClassification

/-- Nothing has been written. -/
structure Blank (a : Attempt) : Prop where
  evidence : a.evidence = .none
  completedAt : a.completedAt = none

/-- Every evidence column with a value keeps it. -/
structure Retains (a a' : Attempt) : Prop where
  provider : ∀ v ∈ a.provider, v ∈ a'.provider
  remoteReceiptId : ∀ v ∈ a.remoteReceiptId, v ∈ a'.remoteReceiptId
  remoteReceiptSource : ∀ v ∈ a.remoteReceiptSource, v ∈ a'.remoteReceiptSource
  remoteReceiptDigest : ∀ v ∈ a.remoteReceiptDigest, v ∈ a'.remoteReceiptDigest
  failureCode : ∀ v ∈ a.failureCode, v ∈ a'.failureCode
  failureClassification : ∀ v ∈ a.failureClassification, v ∈ a'.failureClassification
  completedAt : ∀ v ∈ a.completedAt, v ∈ a'.completedAt

theorem Retains.refl (a : Attempt) : a.Retains a :=
  ⟨fun _ h ↦ h, fun _ h ↦ h, fun _ h ↦ h, fun _ h ↦ h, fun _ h ↦ h, fun _ h ↦ h, fun _ h ↦ h⟩

theorem Retains.trans (h : a.Retains a') (h' : a'.Retains a'') : a.Retains a'' where
  provider v hv := h'.provider v (h.provider v hv)
  remoteReceiptId v hv := h'.remoteReceiptId v (h.remoteReceiptId v hv)
  remoteReceiptSource v hv := h'.remoteReceiptSource v (h.remoteReceiptSource v hv)
  remoteReceiptDigest v hv := h'.remoteReceiptDigest v (h.remoteReceiptDigest v hv)
  failureCode v hv := h'.failureCode v (h.failureCode v hv)
  failureClassification v hv := h'.failureClassification v (h.failureClassification v hv)
  completedAt v hv := h'.completedAt v (h.completedAt v hv)

/-- A blank attempt has nothing to lose. -/
theorem Blank.retains (h : a.Blank) (a' : Attempt) : a.Retains a' := by
  obtain ⟨hevidence, hcompleted⟩ := h
  simp only [Attempt.evidence, DispatchEvidence.none, DispatchEvidence.mk.injEq] at hevidence
  obtain ⟨h₁, h₂, h₃, h₄, h₅, h₆⟩ := hevidence
  constructor <;> simp [*]

private theorem mem_or {α : Type} {o o' : Option α} {v : α} (h : v ∈ o) : v ∈ o.or o' := by
  rw [Option.mem_def] at h ⊢
  rw [h, Option.some_or]

theorem retains_absorbed (payload : EmailDispatchObserved) (a : Attempt) :
    a.Retains (a.absorbed payload) :=
  ⟨fun _ ↦ mem_or, fun _ ↦ mem_or, fun _ ↦ mem_or, fun _ ↦ mem_or, fun _ ↦ mem_or, fun _ ↦ mem_or,
    fun _ ↦ mem_or⟩

theorem retains_afterReceipt (payload : EmailReceiptObserved) (a : Attempt) :
    a.Retains (a.afterReceipt payload) :=
  ⟨fun _ h ↦ h, fun _ h ↦ h, fun _ h ↦ h, fun _ h ↦ h, fun _ h ↦ h, fun _ h ↦ h, fun _ ↦ mem_or⟩

theorem evidence_afterDispatch (payload : EmailDispatchObserved) (a : Attempt) :
    (a.afterDispatch payload).evidence = payload.evidence := by
  simp [evidence, afterDispatch, resolved, EmailDispatchObserved.evidence, Option.map_map,
    Function.comp_def]

theorem evidence_absorbed (payload : EmailDispatchObserved) (h : a.evidence = .none) :
    (a.absorbed payload).evidence = payload.evidence := by
  simp only [evidence, DispatchEvidence.none, DispatchEvidence.mk.injEq] at h
  obtain ⟨h₁, h₂, h₃, h₄, h₅, h₆⟩ := h
  simp only [evidence, absorbed, EmailDispatchObserved.evidence, h₁, h₂, h₃, h₄, h₅, h₆,
    Option.none_or]

theorem evidence_afterReceipt (payload : EmailReceiptObserved) (a : Attempt) :
    (a.afterReceipt payload).evidence = a.evidence := rfl

end Attempt

/-! ## One course

The attempt that a delivery waits for is blank, so the statement that overwrites the columns finds
nothing in them. The other two fill what is null. -/

namespace Course

variable {X : Externals} {c c' : Course} {e : Event} {a : Attempt}

/-- The attempt an attempting delivery waits for is blank. -/
def Unwritten (c : Course) : Prop :=
  c.delivery.status = .attempting → ∀ a ∈ c.attempts, a.status = .dispatching → a.Blank

theorem Step.unwritten (hsound : c.Sound X) (hsound' : c'.Sound X) (h : Step X c e c') :
    c'.Unwritten := by
  intro hs b hb hdispatching
  cases h with
  | @claim d as now =>
    rcases List.mem_append.mp hb with hold | hnew
    · -- an older attempt is closed
      have hle := (hsound.sequence_le hold).2
      exact absurd hdispatching (hsound'.closed b hb (Nat.lt_succ_of_le hle))
    · rw [List.mem_singleton.mp hnew]
      exact ⟨rfl, rfl⟩
  | resolve => exact absurd hs (Delivery.afterDispatch_ne _ _).2
  | absorb _ _ hlate =>
    rcases hlate with ⟨hfinal, -⟩ | ⟨hfinal, -⟩ <;> cases hfinal.symm.trans hs
  | settle =>
    rw [Delivery.afterReceipt_status] at hs
    split at hs <;> cases hs
  | cancel => cases hs
  | reschedule hscheduled => cases hscheduled.symm.trans hs

theorem unwritten_of_reachable (h : (machine X).Reachable (some c)) : c.Unwritten := by
  refine Lts.Reachable.invariant (S := machine X) (I := fun o ↦ ∀ c ∈ o, c.Unwritten) ?_ ?_ h c rfl
  · rintro o rfl c hc
    cases hc
  · intro o e o' hreach _ hstep c hc
    have hreach' := hreach.step hstep
    cases hstep with
    | opened =>
      cases hc
      intro hs
      cases hs
    | step hstep =>
      cases hc
      exact hstep.unwritten (sound_of_reachable hreach) (sound_of_reachable hreach')

/-- **One step keeps what is written** in an attempt. -/
theorem Step.retains (hsound : c.Sound X) (hunwritten : c.Unwritten) (h : Step X c e c')
    (ha : a ∈ c.attempts) : ∃ a' ∈ c'.attempts, a'.id = a.id ∧ a.Retains a' := by
  cases h with
  | claim => exact ⟨a, List.mem_append_left _ ha, rfl, .refl a⟩
  | @resolve d as payload b hattempting _ hb hid hdispatching =>
    refine ⟨_, mem_rewrite.mpr ⟨a, ha, rfl⟩, ?_⟩
    split
    · next haid =>
      have hab : a = b := hsound.eq_of_id ha hb (haid.trans hid.symm)
      exact ⟨rfl, (hunwritten hattempting a ha (hab ▸ hdispatching)).retains _⟩
    · exact ⟨rfl, .refl a⟩
  | absorb =>
    refine ⟨_, mem_rewrite.mpr ⟨a, ha, rfl⟩, ?_⟩
    split
    · exact ⟨rfl, Attempt.retains_absorbed _ a⟩
    · exact ⟨rfl, .refl a⟩
  | settle =>
    refine ⟨_, mem_rewrite.mpr ⟨a, ha, rfl⟩, ?_⟩
    split
    · exact ⟨rfl, Attempt.retains_afterReceipt _ a⟩
    · exact ⟨rfl, .refl a⟩
  | cancel | reschedule => exact ⟨a, ha, rfl, .refl a⟩

/-- **Where the evidence of an attempt comes from**: from before, or from the observation of the
step, which fills an attempt that had none. -/
theorem Step.evidence (h : Step X c e c') (ha : a ∈ c'.attempts) :
    a.evidence = .none ∨
      ∃ b ∈ c.attempts, b.id = a.id ∧ (a.evidence = b.evidence ∨
        ∃ payload, e = .dispatchObserved payload ∧ payload.attemptId = a.id ∧
          (b.evidence = .none → a.evidence = payload.evidence)) := by
  cases h with
  | claim =>
    rcases List.mem_append.mp ha with hold | hnew
    · exact Or.inr ⟨a, hold, rfl, Or.inl rfl⟩
    · rw [List.mem_singleton.mp hnew]
      exact Or.inl rfl
  | @resolve d as payload =>
    obtain ⟨b, hb, rfl⟩ := mem_rewrite.mp ha
    refine Or.inr ⟨b, hb, ?_⟩
    split
    · next hid =>
      exact ⟨rfl, Or.inr ⟨payload, rfl, hid.symm, fun _ ↦ Attempt.evidence_afterDispatch _ b⟩⟩
    · exact ⟨rfl, Or.inl rfl⟩
  | @absorb d as payload =>
    obtain ⟨b, hb, rfl⟩ := mem_rewrite.mp ha
    refine Or.inr ⟨b, hb, ?_⟩
    split
    · next hid => exact ⟨rfl, Or.inr ⟨payload, rfl, hid.symm, Attempt.evidence_absorbed _⟩⟩
    · exact ⟨rfl, Or.inl rfl⟩
  | settle =>
    obtain ⟨b, hb, rfl⟩ := mem_rewrite.mp ha
    refine Or.inr ⟨b, hb, ?_⟩
    split
    · exact ⟨rfl, Or.inl (Attempt.evidence_afterReceipt _ b)⟩
    · exact ⟨rfl, Or.inl rfl⟩
  | cancel | reschedule => exact Or.inr ⟨a, ha, rfl, Or.inl rfl⟩

end Course

/-! ## Runs

The answers to one attempt are one. The evidence of the attempt is that of this answer, from the
step that records it on. -/

/-- The step is the provider's answer to an attempt, recorded as this observation. -/
def Answers (S : Setting) (payload : EmailDispatchObserved) (l : Command × Reply) : Prop :=
  ∃ i result claim now,
    l = (.advance i (.answered result), .dispatched claim (Plugin.dispatchReply S claim result)) ∧
      payload = Plugin.observedOf S claim now result

section Runs

variable {S : Setting} {ls ms : List (Command × Reply)} {s s' : System}
  {l : Command × Reply} {a : Attempt}

theorem Answers.answeredAttempt {payload : EmailDispatchObserved} (h : Answers S payload l) :
    answeredAttempt? l = some payload.attemptId := by
  obtain ⟨i, result, claim, now, rfl, rfl⟩ := h
  rw [(Plugin.observedOf_claim S claim now result).2.1]
  rfl

/-- An attempt that is answered now was not answered before. -/
theorem not_answered_of_snoc (h : (system S).History (ls ++ [l]) s) {attemptId : String}
    (hl : answeredAttempt? l = some attemptId) :
    ∀ l' ∈ ls, answeredAttempt? l' ≠ some attemptId := by
  intro l' hl' hanswered
  have honce := (List.nodup_append.mp (answered_custody h).once).1
  rw [List.filterMap_append, List.nodup_append] at honce
  exact honce.2.2 attemptId (List.mem_filterMap.mpr ⟨l', hl', hanswered⟩) attemptId
    (List.mem_filterMap.mpr ⟨l, List.mem_singleton_self l, hl⟩) rfl

/-- One step of the system keeps what is written. -/
theorem retains_of_step (hreach : (system S).Reachable s) (hstep : (system S).Step s l s')
    (ha : a ∈ s.ledger.attempts.rows) :
    ∃ a' ∈ s'.ledger.attempts.rows, a'.id = a.id ∧ a.Retains a' := by
  have hledger := reachable_ledger hreach
  obtain ⟨d, hd, hdid⟩ := (linked_of_reachable hledger).attempts a ha
  have hc := Ledger.course_of_mem hd
  have hmem : a ∈ s.ledger.attemptsOf d.id := Ledger.mem_attemptsOf.mpr ⟨ha, hdid.symm⟩
  rcases course_of_step d.id hreach hstep with hsame | ⟨t, e, -, -, hmachine⟩
  · rw [hc] at hsame
    exact ⟨a, ((Ledger.mem_course hsame).mp hmem).1, rfl, .refl a⟩
  have hcourse := reachable_course hledger d.id
  rw [hc] at hmachine hcourse
  generalize hc' : s'.ledger.course d.id = after at hmachine
  cases hmachine with
  | step hmachine =>
    obtain ⟨a', ha', hkept⟩ := hmachine.retains (Course.sound_of_reachable hcourse)
      (Course.unwritten_of_reachable hcourse) hmem
    exact ⟨a', ((Ledger.mem_course hc').mp ha').1, hkept⟩

/-- **A run keeps what is written.** -/
theorem retains_of_run (hreach : (system S).Reachable s) (hrun : (system S).Run s ms s')
    (ha : a ∈ s.ledger.attempts.rows) :
    ∃ a' ∈ s'.ledger.attempts.rows, a'.id = a.id ∧ a.Retains a' := by
  refine (hrun.preserves
    (I := fun t ↦ ∃ a' ∈ t.ledger.attempts.rows, a'.id = a.id ∧ a.Retains a') ?_ hreach
    ⟨a, ha, rfl, .refl a⟩).2
  rintro t l t' ht ⟨b, hb, hid, hkept⟩ hstep
  obtain ⟨a', ha', hid', hkept'⟩ := retains_of_step ht hstep hb
  exact ⟨a', ha', hid'.trans hid, hkept.trans hkept'⟩

/-- **The evidence of an attempt has its answer in the history.** -/
theorem answered_of_history (h : (system S).History ls s) :
    ∀ a ∈ s.ledger.attempts.rows, a.evidence = .none ∨
      ∃ l ∈ ls, ∃ payload, Answers S payload l ∧ payload.attemptId = a.id ∧
        a.evidence = payload.evidence := by
  refine Lts.History.invariant (S := system S)
    (I := fun ls s ↦ ∀ a ∈ s.ledger.attempts.rows, a.evidence = .none ∨
      ∃ l ∈ ls, ∃ payload, Answers S payload l ∧ payload.attemptId = a.id ∧
        a.evidence = payload.evidence) ?_ ?_ h
  · rintro s rfl a ha
    cases ha
  · rintro ls s ⟨command, reply⟩ s' hls ih hstep a ha
    have hlater : ∀ b ∈ s.ledger.attempts.rows, b.id = a.id → a.evidence = b.evidence →
        a.evidence = .none ∨ ∃ l ∈ ls ++ [(command, reply)], ∃ payload, Answers S payload l ∧
          payload.attemptId = a.id ∧ a.evidence = payload.evidence := by
      intro b hb hid hsame
      rw [hsame, ← hid]
      refine (ih b hb).imp_right ?_
      rintro ⟨l, hl, hanswer⟩
      exact ⟨l, List.mem_append_left _ hl, hanswer⟩
    rcases shown_of_stepped ⟨ls, hls⟩ hstep ha with
      hold | ⟨t, e, c, c', hissues, hshows, hmachine, hc, -, hmem⟩
    · exact hlater a hold rfl rfl
    rcases hmachine.evidence hmem with hnone | ⟨b, hb, hid, hsame | ⟨payload, rfl, hattempt, hfill⟩⟩
    · exact Or.inl hnone
    · exact hlater b ((Ledger.mem_course hc).mp hb).1 hid hsame
    obtain ⟨i, now, work, result, rfl, rfl, -, rfl⟩ := answer_of_shows hissues hshows
    have hanswer : Answers S (Plugin.observedOf S work.claim now result)
        (.advance i (.answered result),
          .dispatched work.claim (Plugin.dispatchReply S work.claim result)) :=
      ⟨i, result, work.claim, now, rfl, rfl⟩
    refine Or.inr ⟨_, List.mem_append_right _ (List.mem_singleton_self _), _, hanswer, hattempt,
      hfill ?_⟩
    -- evidence from before would be a second answer
    refine (ih b ((Ledger.mem_course hc).mp hb).1).resolve_right ?_
    rintro ⟨l, hl, payload, hearlier, hpayload, -⟩
    refine not_answered_of_snoc (hls.snoc hstep) hanswer.answeredAttempt l hl ?_
    rw [hearlier.answeredAttempt, hpayload, hid, hattempt]

end Runs

/-- **The evidence of an attempt is written once.** In every later state each of its columns that
had a value has the same value, and what an observation filled comes from the one answer to the
attempt in the history. -/
theorem attempt_evidence_once {S : Setting} {ls : List (Command × Reply)} {s : System}
    (h : (system S).History ls s) {a : Attempt} (ha : a ∈ s.ledger.attempts.rows) :
    (∀ ms s', (system S).Run s ms s' →
        ∃ a' ∈ s'.ledger.attempts.rows, a'.id = a.id ∧ a.Retains a') ∧
      (a.evidence = .none ∨
        ∃ pre l post payload, ls = pre ++ l :: post ∧ Answers S payload l ∧
          payload.attemptId = a.id ∧ a.evidence = payload.evidence ∧
          ∀ l' ∈ pre ++ post, answeredAttempt? l' ≠ some a.id) := by
  refine ⟨fun ms s' hrun ↦ retains_of_run ⟨ls, h⟩ hrun ha, ?_⟩
  refine (answered_of_history h a ha).imp_right ?_
  rintro ⟨l, hl, payload, hanswer, hattempt, hevidence⟩
  obtain ⟨pre, post, rfl⟩ := List.append_of_mem hl
  refine ⟨pre, l, post, payload, rfl, hanswer, hattempt, hevidence, fun l' hl' hanswered ↦ ?_⟩
  have honce := (List.nodup_append.mp (answered_custody h).once).1
  have hcurrent : answeredAttempt? l = some a.id := hattempt ▸ hanswer.answeredAttempt
  rw [List.filterMap_append, List.filterMap_cons, hcurrent, List.nodup_middle] at honce
  refine (List.nodup_cons.mp honce).1 ?_
  rw [← List.filterMap_append]
  exact List.mem_filterMap.mpr ⟨l', hl', hanswered⟩

/-- The refused attempt, and what the refusal left. -/
theorem attempt_evidence_once_retrying :
    ∃ ls, (system Deployment.setting).History ls Deployment.retrying ∧
      ∃ a ∈ Deployment.retrying.ledger.attempts.rows, a.evidence ≠ .none ∧
        ∃ l ∈ ls, ∃ payload, Answers Deployment.setting payload l ∧ payload.attemptId = a.id ∧
          a.evidence = payload.evidence := by
  obtain ⟨ls, hls, -⟩ := Deployment.exists_history_retrying
  have hwritten : Deployment.refusedAttempt.evidence ≠ .none := by decide
  have hmem : Deployment.refusedAttempt ∈ Deployment.retrying.ledger.attempts.rows :=
    List.mem_cons_self
  obtain ⟨-, hnone | ⟨pre, l, post, payload, rfl, hanswer, hattempt, hevidence, -⟩⟩ :=
    attempt_evidence_once hls hmem
  · exact absurd hnone hwritten
  · exact ⟨_, hls, _, hmem, hwritten, l, by simp, payload, hanswer, hattempt, hevidence⟩

end NotificationLedger

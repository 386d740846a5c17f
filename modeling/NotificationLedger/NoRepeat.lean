import NotificationLedger.Admission
import NotificationLedger.Workers
import NotificationLedger.Deployment

/-!
# No effect is repeated after an ambiguous result

A second attempt is only ever claimed after the attempt before it was closed by a valid response of
the provider with outcome `temporary_failure`. The argument follows the attempts of one delivery
through the history: a delivery is claimable again only from `retry_scheduled`, there its newest
attempt is a temporary failure, and an attempt becomes one in a single way
(`Step.temporaryFailure`). Since an attempt is answered at most once, no other answer to it can
occur in the history at all.

## From a claim back to an answer

The attempt before the newest one is closed when the newest is claimed. A receipt would have
finalized the delivery and a cancellation as well, so it was closed by an observation; the only
observations that leave a delivery claimable are temporary failures, and the history holds the
answer that brought this one.
-/

namespace NotificationLedger

open Outcome

/-! ## Two facts about one course

An attempt becomes a temporary failure by one event, and a claimable delivery with attempts has a
temporary failure as its newest. -/

namespace Course

variable {X : Externals} {c c' : Course} {e : Event} {a : Attempt}

/-- An attempt becomes a temporary failure only by the observation it was waiting for. -/
theorem Step.temporaryFailure (h : Step X c e c') (ha : a ∈ c'.attempts)
    (hs : a.status = .temporaryFailure) :
    (∃ b ∈ c.attempts, b.id = a.id ∧ b.status = .temporaryFailure) ∨
      ∃ payload, e = .dispatchObserved payload ∧ payload.outcome = .temporaryFailure ∧
        payload.attemptId = a.id ∧ ∃ b ∈ c.attempts, b.id = a.id ∧ b.status = .dispatching := by
  cases h with
  | claim =>
    rcases List.mem_append.mp ha with ha | ha
    · exact Or.inl ⟨a, ha, rfl, hs⟩
    · rw [List.mem_singleton.mp ha] at hs
      cases hs
  | @resolve d as payload b₀ _ _ hb₀ hid hdispatching =>
    obtain ⟨b, hb, rfl⟩ := mem_rewrite.mp ha
    split at hs
    · next hbid =>
      rw [if_pos hbid]
      have houtcome : payload.outcome = .temporaryFailure := by
        change payload.outcome.attemptStatus = .temporaryFailure at hs
        cases ho : payload.outcome <;> rw [ho] at hs <;> first | rfl | cases hs
      exact Or.inr ⟨payload, rfl, houtcome, hbid.symm, b₀, hb₀, hid.trans hbid.symm, hdispatching⟩
    · next hbid =>
      rw [if_neg hbid]
      exact Or.inl ⟨b, hb, rfl, hs⟩
  | absorb =>
    obtain ⟨b, hb, rfl⟩ := mem_rewrite.mp ha
    refine Or.inl ⟨b, hb, ?_, ?_⟩
    · split <;> rfl
    · split at hs <;> exact hs
  | @settle d as payload =>
    obtain ⟨b, hb, rfl⟩ := mem_rewrite.mp ha
    split at hs
    · change payload.kind.attemptStatus = .temporaryFailure at hs
      cases hk : payload.kind <;> rw [hk] at hs <;> cases hs
    · next hbid =>
      rw [if_neg hbid]
      exact Or.inl ⟨b, hb, rfl, hs⟩
  | cancel | reschedule => exact Or.inl ⟨a, ha, rfl, hs⟩

/-- Only a claim adds an attempt. -/
theorem Step.exists_id (h : Step X c e c') (ha : a ∈ c'.attempts) :
    (∃ b ∈ c.attempts, b.id = a.id) ∨ ∃ now, e = .claimed now := by
  cases h with
  | @claim _ _ now => exact Or.inr ⟨now, rfl⟩
  | resolve | absorb | settle =>
    obtain ⟨b, hb, rfl⟩ := mem_rewrite.mp ha
    refine Or.inl ⟨b, hb, ?_⟩
    split <;> rfl
  | cancel | reschedule => exact Or.inl ⟨a, ha, rfl⟩

/-- A claimable delivery with attempts failed temporarily at the newest of them. -/
theorem Sound.newest_of_claimable (h : Sound X c)
    (hclaimable : c.delivery.status.isClaimable = true) (hpos : 0 < c.delivery.attemptCount) :
    ∃ b ∈ c.attempts, b.sequence = c.delivery.attemptCount ∧ b.status = .temporaryFailure := by
  obtain ⟨b, hb, hseq⟩ := h.exists_newest hpos
  refine ⟨b, hb, hseq, ?_⟩
  cases hs : c.delivery.status with
  | queued =>
    rw [h.queued hs] at hpos
    exact absurd hpos (lt_irrefl 0)
  | retryScheduled =>
    exact h.newest b hb hseq _ (by rw [hs]; rfl)
  | attempting | accepted | delivered | failed | deliveryUnknown =>
    rw [hs] at hclaimable
    cases hclaimable

end Course

/-! ## Where an attempt comes from

An attempt that a step adds was claimed by it, and the event that closes an attempt temporarily is
an answer of the provider. -/

section Origin

variable {S : Setting} {s s' : System} {command : Command} {reply : Reply}

/-- The event a step shows of the course of one stored attempt. -/
theorem shown_of_stepped (hreach : (system S).Reachable s)
    (hstep : (system S).Step s (command, reply) s') {a : Attempt}
    (ha : a ∈ s'.ledger.attempts.rows) :
    (a ∈ s.ledger.attempts.rows) ∨
      ∃ t e c c', System.Issues S s command reply t ∧ t.Shows S.externals s.ledger e ∧
        Course.Step S.externals c e c' ∧ s.ledger.course a.deliveryId = some c ∧
        s'.ledger.course a.deliveryId = some c' ∧ a ∈ c'.attempts := by
  have hlinked := linked_of_reachable (reachable_ledger (hreach.step hstep))
  obtain ⟨d, hd, hid⟩ := hlinked.attempts a ha
  obtain ⟨c', hcourse, hmem⟩ : ∃ c', s'.ledger.course a.deliveryId = some c' ∧ a ∈ c'.attempts :=
    ⟨⟨d, s'.ledger.attemptsOf a.deliveryId⟩, by rw [← hid]; exact Ledger.course_of_mem hd,
      Ledger.mem_attemptsOf.mpr ⟨ha, rfl⟩⟩
  rcases course_of_step a.deliveryId hreach hstep with hsame | ⟨t, e, hissues, hshows, hmachine⟩
  · rw [hsame] at hcourse
    exact Or.inl ((Ledger.mem_course hcourse).mp hmem).1
  · right
    rw [hcourse] at hmachine
    generalize hbefore : s.ledger.course a.deliveryId = before at hmachine
    cases hmachine with
    | opened => cases hmem
    | @step c _ _ h => exact ⟨t, e, c, c', hissues, hshows, h, rfl, hcourse, hmem⟩

/-- A dispatch event of a course is shown by the worker that waited for the answer. -/
theorem answer_of_shows {t : Transaction} {payload : EmailDispatchObserved}
    (hissues : System.Issues S s command reply t)
    (hshows : t.Shows S.externals s.ledger (.dispatchObserved payload)) :
    ∃ i now work result, command = .advance i (.answered result) ∧
      reply = .dispatched work.claim (Plugin.dispatchReply S work.claim result) ∧
      s.calls[i]? = some (.dispatch now (.awaiting work)) ∧
      payload = Plugin.observedOf S work.claim now result := by
  cases hshows with
  | dispatch _ hpayload =>
    cases hissues with
    | receipt henvelope =>
      obtain ⟨_, _, -, h⟩ := Plugin.receipt_of_receiptEnvelope henvelope hpayload
      cases h
    | lifecycle henvelope =>
      obtain ⟨_, h⟩ := Plugin.lifecycle_of_lifecycleEnvelope henvelope hpayload
      cases h
    | answer hc =>
      cases Plugin.dispatch_of_dispatchEnvelope hpayload
      exact ⟨_, _, _, _, rfl, rfl, hc, rfl⟩

/-- **A new attempt is the one a worker claims.** -/
theorem claimed_of_new (hreach : (system S).Reachable s)
    (hstep : (system S).Step s (command, reply) s') {a : Attempt}
    (ha : a ∈ s'.ledger.attempts.rows) (hnew : ∀ b ∈ s.ledger.attempts.rows, b.id ≠ a.id) :
    ∃ i work d, command = .advance i .proceed ∧ reply = .claimed work ∧
      work.claim.attemptId = a.id ∧ work.claim.deliveryId = a.deliveryId ∧
      s.ledger.deliveries.get? a.deliveryId = some d ∧ d.status.isClaimable = true ∧
      a.sequence = d.attemptCount + 1 := by
  have hreply : ∃ work, reply = .claimed work := by
    rcases shown_of_stepped hreach hstep ha with
      hold | ⟨t, e, c, c', hissues, hshows, h, hc, -, hmem⟩
    · exact absurd rfl (hnew a hold)
    rcases h.exists_id hmem with ⟨b, hb, hid⟩ | ⟨now, rfl⟩
    · exact absurd hid (hnew b ((Ledger.mem_course hc).mp hb).1)
    · cases hshows
      cases hissues
      exact ⟨_, rfl⟩
  obtain ⟨work, rfl⟩ := hreply
  cases System.stepped_of_exec hstep with
  | advanced hi hadvance =>
    cases hadvance with
    | @claimed now row L' work h =>
      obtain ⟨hget, hdue, -⟩ := System.holds_of_reachable hreach _ _ (List.mem_of_getElem? hi)
      have hclaimable := (Runtime.isDue_iff.mp hdue).1
      obtain ⟨-, -, -, hclaim, L₁, hins, rfl⟩ := (Runtime.claimRow_eq_ok hget hclaimable).mp h
      obtain ⟨-, T, hT, rfl⟩ := Ledger.insertAttempt_eq_some.mp hins
      rcases (Table.mem_insert? hT).mp ha with hold | rfl
      · exact absurd rfl (hnew a hold)
      · refine ⟨_, work, row.delivery, rfl, rfl, ?_, ?_, hget, hclaimable, rfl⟩
        · rw [hclaim]
          rfl
        · rw [hclaim]
          rfl

end Origin

/-! ## Temporary failures in a history

Along a history every temporary failure has its answer in it. An attempt has one answer, so no other
outcome was ever reported for it. -/

/-- The step records a valid response of the provider that refuses this attempt temporarily. -/
structure TemporarilyFailed (S : Setting) (a : Attempt) (l : Command × Reply) : Prop where
  answer : ∃ i response claim observed,
    l = (.advance i (.answered (.response response)), .dispatched claim (.ok observed)) ∧
      claim.attemptId = a.id ∧ claim.deliveryId = a.deliveryId ∧
      Plugin.validDispatchResponse S response = true ∧ response.outcome = .temporaryFailure ∧
      response.provider = S.emailProviderInstance ∧ response.remoteReceipt = none ∧
      ∃ failure ∈ response.failure, failure.classification = "temporary_failure" ∧
        ∀ delay ∈ failure.retryAfterMs, 0 ≤ delay ∧ delay ≤ 86400000

/-- In the history the attempt, until then in flight, is closed as a temporary failure. -/
def Refused (S : Setting) (ls : List (Command × Reply)) (a : Attempt) : Prop :=
  ∃ pre l post t t', ls = pre ++ l :: post ∧ (system S).History pre t ∧ (system S).Step t l t' ∧
    TemporarilyFailed S a l ∧
    (t.ledger.attempts.get? a.id).map Attempt.status = some .dispatching ∧
    (t'.ledger.attempts.get? a.id).map Attempt.status = some .temporaryFailure

section History

variable {S : Setting} {ls : List (Command × Reply)} {s s' : System}

theorem Refused.append {a : Attempt} (h : Refused S ls a) (ms : List (Command × Reply)) :
    Refused S (ls ++ ms) a := by
  obtain ⟨pre, l, post, t, t', rfl, h⟩ := h
  refine ⟨pre, l, post ++ ms, t, t', ?_, h⟩
  rw [List.append_assoc, List.cons_append]

theorem Refused.congr {a b : Attempt} (h : Refused S ls a) (hid : a.id = b.id)
    (hdelivery : a.deliveryId = b.deliveryId) : Refused S ls b := by
  obtain ⟨pre, l, post, t, t', hls, hpre, hstep, ⟨hfailed⟩, hbefore, hafter⟩ := h
  rw [hid] at hfailed hbefore hafter
  rw [hdelivery] at hfailed
  exact ⟨pre, l, post, t, t', hls, hpre, hstep, ⟨hfailed⟩, hbefore, hafter⟩

/-- What a valid temporary failure looks like. -/
theorem temporaryFailure_of_valid {response : Plugin.DispatchResponse}
    (h : Plugin.validDispatchResponse S response = true)
    (houtcome : response.outcome = .temporaryFailure) :
    response.provider = S.emailProviderInstance ∧ response.remoteReceipt = none ∧
      ∃ failure ∈ response.failure, failure.classification = "temporary_failure" ∧
        ∀ delay ∈ failure.retryAfterMs, 0 ≤ delay ∧ delay ≤ 86400000 := by
  simp only [Plugin.validDispatchResponse, Plugin.validOutcome, houtcome, Bool.and_eq_true,
    decide_eq_true_eq, Option.isNone_iff_eq_none] at h
  obtain ⟨⟨⟨hprovider, -⟩, -⟩, hreceipt, hany⟩ := h
  obtain ⟨failure, hfailure, hany⟩ := (Option.any_eq_true _ _).mp hany
  simp only [Plugin.validDispatchFailure, Bool.and_eq_true, decide_eq_true_eq,
    Option.all_eq_true] at hany
  exact ⟨hprovider, hreceipt, failure, hfailure, hany.1.2, hany.2⟩

/-- A step that closes an attempt as a temporary failure records such an answer. -/
private theorem temporarilyFailed_of_shown {command : Command} {reply : Reply} {t : Transaction}
    {payload : EmailDispatchObserved} {a : Attempt} (hreach : (system S).Reachable s)
    (hissues : System.Issues S s command reply t)
    (hshows : t.Shows S.externals s.ledger (.dispatchObserved payload))
    (houtcome : payload.outcome = .temporaryFailure) (hid : payload.attemptId = a.id)
    {b : Attempt} (hb : b ∈ s.ledger.attempts.rows) (hbid : b.id = a.id)
    (hdelivery : b.deliveryId = a.deliveryId) : TemporarilyFailed S a (command, reply) := by
  obtain ⟨i, now, work, result, rfl, rfl, hc, rfl⟩ := answer_of_shows hissues hshows
  obtain ⟨response, rfl, hvalid, hresponse, hobserved⟩ :=
    Plugin.valid_of_observedOf (Or.inr houtcome)
  have hattempt : work.claim.attemptId = a.id :=
    (Plugin.observedOf_claim _ _ _ _).2.1.symm.trans hid
  -- the worker's claim is backed by this very attempt
  obtain ⟨c, hcmem, hcid, hcdelivery, -⟩ :=
    (backed_of_reachable hreach _ (List.mem_of_getElem? hc) work rfl).attempt
  have hcb : c = b := Table.eq_of_key hcmem hb (hcid.trans (hattempt.trans hbid.symm))
  have hreply : Plugin.dispatchReply S work.claim (.response response) =
      .ok (Plugin.observedOf S work.claim now (.response response)) := by
    rw [Plugin.dispatchReply, hobserved]
    rfl
  refine ⟨i, response, work.claim, _, by rw [hreply], hattempt, ?_, hvalid,
    hresponse.trans houtcome, temporaryFailure_of_valid hvalid (hresponse.trans houtcome)⟩
  rw [← hcdelivery, hcb, hdelivery]

/-- **Every temporary failure has its answer in the history.** -/
theorem refused_of_history (h : (system S).History ls s) :
    ∀ a ∈ s.ledger.attempts.rows, a.status = .temporaryFailure → Refused S ls a := by
  refine Lts.History.invariant (S := system S)
    (I := fun ls s ↦ ∀ a ∈ s.ledger.attempts.rows, a.status = .temporaryFailure →
      Refused S ls a) ?_ ?_ h
  · rintro s rfl a ha
    cases ha
  · rintro ls s ⟨command, reply⟩ s' hls ih hstep a ha hs
    have hreach : (system S).Reachable s := ⟨ls, hls⟩
    rcases shown_of_stepped hreach hstep ha with
      hold | ⟨t, e, c, c', hissues, hshows, h, hc, hc', hmem⟩
    · exact (ih a hold hs).append _
    rcases h.temporaryFailure hmem hs with
      ⟨b, hb, hid, hbs⟩ | ⟨payload, rfl, houtcome, hid, b, hb, hbid, hdispatching⟩
    · obtain ⟨hbmem, hbd⟩ := (Ledger.mem_course hc).mp hb
      exact ((ih b hbmem hbs).congr hid hbd).append _
    · obtain ⟨hbmem, hbd⟩ := (Ledger.mem_course hc).mp hb
      have hget : s'.ledger.attempts.get? a.id = some a := Table.get?_of_mem ha
      refine ⟨ls, (command, reply), [], s, s', rfl, hls, hstep,
        temporarilyFailed_of_shown hreach hissues hshows houtcome hid hbmem hbid hbd, ?_, ?_⟩
      · rw [Table.get?_eq_some.mpr ⟨hbmem, hbid⟩, Option.map_some, hdispatching]
      · rw [hget, Option.map_some, hs]

/-- Every stored attempt was new after some step of the history. -/
theorem exists_claim (h : (system S).History ls s) :
    ∀ a ∈ s.ledger.attempts.rows, ∃ pre l post t t', ls = pre ++ l :: post ∧
      (system S).History pre t ∧ (system S).Step t l t' ∧ (system S).Run t' post s ∧
      (∀ b ∈ t.ledger.attempts.rows, b.id ≠ a.id) ∧
      ∃ a' ∈ t'.ledger.attempts.rows, a'.identity = a.identity := by
  refine Lts.History.invariant (S := system S)
    (I := fun ls s ↦ ∀ a ∈ s.ledger.attempts.rows, ∃ pre l post t t', ls = pre ++ l :: post ∧
      (system S).History pre t ∧ (system S).Step t l t' ∧ (system S).Run t' post s ∧
      (∀ b ∈ t.ledger.attempts.rows, b.id ≠ a.id) ∧
      ∃ a' ∈ t'.ledger.attempts.rows, a'.identity = a.identity) ?_ ?_ h
  · rintro s rfl a ha
    cases ha
  · intro ls s l s' hls ih hstep a ha
    by_cases hold : ∃ b ∈ s.ledger.attempts.rows, b.id = a.id
    · obtain ⟨b, hb, hid⟩ := hold
      have hident : b.identity = a.identity := by
        obtain ⟨b', hb', hident⟩ := (extends_of_step ⟨ls, hls⟩ hstep).exists_attempt hb
        have hba : b' = a := Table.eq_of_key hb' ha ((congrArg Prod.fst hident).trans hid)
        rw [← hident, hba]
      obtain ⟨pre, l', post, t, t', rfl, hpre, hclaim, hpost, hfresh, a', ha', hident'⟩ := ih b hb
      refine ⟨pre, l', post ++ [l], t, t', ?_, hpre, hclaim, hpost.snoc hstep, ?_, a', ha',
        hident'.trans hident⟩
      · rw [List.append_assoc, List.cons_append]
      · exact hid ▸ hfresh
    · refine ⟨ls, l, [], s, s', rfl, hls, hstep, .nil, fun b hb hid ↦ ?_, a, ha, rfl⟩
      exact hold ⟨b, hb, hid⟩

/-- No two steps of a history answer one attempt. -/
theorem eq_of_answeredAttempt {l l' : Command × Reply} {attemptId : String}
    (h : (system S).History ls s) (hl : l ∈ ls) (hl' : l' ∈ ls)
    (ha : answeredAttempt? l = some attemptId) (ha' : answeredAttempt? l' = some attemptId) :
    l = l' := by
  have honce := (List.nodup_append.mp (answered_custody h).once).1
  rw [List.Nodup, List.pairwise_filterMap] at honce
  by_contra hne
  have hsymm : Std.Symm fun l l' : Command × Reply ↦
      ∀ x, answeredAttempt? l = some x → ∀ y, answeredAttempt? l' = some y → x ≠ y :=
    ⟨fun _ _ h x hx y hy heq ↦ h y hy x hx heq.symm⟩
  exact honce.forall hl hl' hne attemptId ha attemptId ha' rfl

end History

/-! ## The main result -/

/-- Attempt `a` was claimed after attempt `n` of its delivery was refused temporarily, and no other
answer to attempt `n` was ever recorded or lost. -/
def ClaimedAfterRefusal (S : Setting) (ls : List (Command × Reply)) (s : System) (n : ℕ)
    (a : Attempt) : Prop :=
  ∃ pre i work post, ls = pre ++ (.advance i .proceed, .claimed work) :: post ∧
    work.claim.attemptId = a.id ∧ work.claim.deliveryId = a.deliveryId ∧
    ∃ b ∈ s.ledger.attempts.rows, b.deliveryId = a.deliveryId ∧ b.sequence = n ∧
      Refused S pre b ∧ ∀ l ∈ ls, answeredAttempt? l = some b.id → TemporarilyFailed S b l

/-- **No effect is repeated after an ambiguous or rejected result.** -/
theorem claimedAfterRefusal_of_history {S : Setting} {ls : List (Command × Reply)} {s : System}
    (h : (system S).History ls s) {a : Attempt} (ha : a ∈ s.ledger.attempts.rows) {n : ℕ}
    (hn : 1 ≤ n) (hseq : a.sequence = n + 1) : ClaimedAfterRefusal S ls s n a := by
  obtain ⟨pre, ⟨command, reply⟩, post, t, t', rfl, hpre, hstep, hpost, hnew, a', ha', hident⟩ :=
    exists_claim h a ha
  simp only [Attempt.identity, Prod.mk.injEq] at hident
  obtain ⟨i, work, d, rfl, rfl, hattempt, hdelivery, hd, hclaimable, hsequence⟩ :=
    claimed_of_new ⟨pre, hpre⟩ hstep ha' (hident.1 ▸ hnew)
  -- the attempt before it is the newest one of a claimable delivery
  have hcourse : t.ledger.course a'.deliveryId = some ⟨d, t.ledger.attemptsOf a'.deliveryId⟩ :=
    Ledger.course_eq_some.mpr ⟨hd, rfl⟩
  have hsound := sound_course (reachable_ledger ⟨pre, hpre⟩) hcourse
  have hcount : d.attemptCount = n := by
    rw [hident.2.2.1, hseq] at hsequence
    omega
  obtain ⟨b, hb, hbseq, hbs⟩ := hsound.newest_of_claimable hclaimable (by rw [hcount]; exact hn)
  obtain ⟨hbmem, hbd⟩ := Ledger.mem_attemptsOf.mp hb
  have hrefused := refused_of_history hpre b hbmem hbs
  -- the row it has at the end
  have hext := (extends_of_step ⟨pre, hpre⟩ hstep).trans
    (extends_of_systemRun ⟨_, hpre.snoc hstep⟩ hpost)
  obtain ⟨c, hc, hcident⟩ := hext.exists_attempt hbmem
  simp only [Attempt.identity, Prod.mk.injEq] at hcident
  have hrefused' : Refused S pre c := hrefused.congr hcident.1.symm hcident.2.1.symm
  refine ⟨pre, i, work, post, rfl, hattempt.trans hident.1, hdelivery.trans hident.2.1, c, hc,
    ?_, ?_, hrefused', ?_⟩
  · exact hcident.2.1.trans (hbd.trans hident.2.1)
  · exact hcident.2.2.1.trans (hbseq.trans hcount)
  · obtain ⟨pre', l', post', _, _, rfl, -, -, hfailed, -, -⟩ := hrefused'
    intro l hl hanswered
    have hl' : l' ∈ pre' ++ l' :: post' ++ (.advance i .proceed, .claimed work) :: post := by simp
    have hanswered' : answeredAttempt? l' = some c.id := by
      obtain ⟨_, _, claim, _, rfl, hid, -⟩ := hfailed.answer
      exact congrArg some hid
    rw [eq_of_answeredAttempt h hl hl' hanswered hanswered']
    exact hfailed

/-- The second attempt of a delivery whose first one was refused. -/
theorem claimedAfterRefusal_retrying :
    ∃ ls, (system Deployment.setting).History ls Deployment.retrying ∧
      ClaimedAfterRefusal Deployment.setting ls Deployment.retrying 1
        Deployment.secondAttempt := by
  obtain ⟨ls, hls⟩ := Deployment.reachable_retrying
  have hmem : Deployment.secondAttempt ∈ Deployment.retrying.ledger.attempts.rows :=
    List.mem_cons_of_mem _ List.mem_cons_self
  exact ⟨ls, hls, claimedAfterRefusal_of_history hls hmem le_rfl rfl⟩

end NotificationLedger

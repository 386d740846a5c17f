import NotificationLedger.Workers
import NotificationLedger.Deployment

/-!
# The log of attempts

The attempts of a delivery are numbered without gaps from one to its count, never more than four,
and at most one of them is in flight. What the email provider is handed is backed by exactly one of
these rows, committed before the hand-over, and no row is handed over twice.
-/

namespace NotificationLedger

/-- The attempts as an exclusive log, with the hand-overs of the history `ls`. -/
structure AttemptLog (S : Setting) (ls : List (Command × Reply)) (s : System) : Prop where
  count : ∀ d ∈ s.ledger.deliveries.rows, d.attemptCount = (s.ledger.attemptsOf d.id).length
  sequences : ∀ d ∈ s.ledger.deliveries.rows,
    (s.ledger.attemptsOf d.id).map Attempt.sequence = List.range' 1 d.attemptCount
  bounded : ∀ d ∈ s.ledger.deliveries.rows, d.attemptCount ≤ d.maxAttempts ∧ d.maxAttempts = 4
  exclusive : ∀ d ∈ s.ledger.deliveries.rows, ∀ a ∈ s.ledger.attemptsOf d.id,
    ∀ b ∈ s.ledger.attemptsOf d.id, a.status = .dispatching → b.status = .dispatching → a = b
  owned : ∀ a ∈ s.ledger.attempts.rows, ∃ d ∈ s.ledger.deliveries.rows, d.id = a.deliveryId
  /-- The row of a hand-over is unique and stands before the hand-over. -/
  committed : ∀ pre l post request, ls = pre ++ l :: post → handedOver? l = some request →
    ∃ t t', (system S).History pre t ∧ (system S).Step t l t' ∧ (system S).Run t' post s ∧
      ∃! a, a ∈ t.ledger.attempts.rows ∧ a.id = request.attemptId ∧
        a.deliveryId = request.deliveryId ∧ a.functionRunId = request.runId ∧
        a.id = request.idempotencyKey
  handedOverOnce : ((ls.filterMap handedOver?).map DispatchRequest.attemptId).Nodup
  idempotencyKeys : ((ls.filterMap handedOver?).map DispatchRequest.idempotencyKey).Nodup
  attemptIds : (s.ledger.attempts.rows.map Attempt.id).Nodup
  runIds : (s.ledger.attempts.rows.map Attempt.functionRunId).Nodup

variable {S : Setting} {ls : List (Command × Reply)} {s : System}

/-- A request is stored with one attempt only. -/
theorem Stored.existsUnique {L : Ledger} {request : DispatchRequest} (h : Stored L request) :
    ∃! a, a ∈ L.attempts.rows ∧ a.id = request.attemptId ∧ a.deliveryId = request.deliveryId ∧
      a.functionRunId = request.runId ∧ a.id = request.idempotencyKey := by
  obtain ⟨a, ha, hrest⟩ := h
  refine ⟨a, ⟨ha, hrest⟩, ?_⟩
  rintro b ⟨hb, hid, -⟩
  exact Table.eq_of_key hb ha (hid.trans hrest.1.symm)

theorem runIds_nodup (L : Ledger) : (L.attempts.rows.map Attempt.functionRunId).Nodup := by
  rw [List.Nodup, List.pairwise_map]
  exact L.attempts.distinct.imp fun h hrun ↦ h (Or.inr (Or.inl hrun))

/-- The step of a hand-over hands over a stored request. -/
private theorem stored_of_handedOver {t t' : System} {l : Command × Reply}
    {request : DispatchRequest} (hreach : (system S).Reachable t)
    (hstep : (system S).Step t l t') (hl : handedOver? l = some request) :
    Stored t.ledger request := by
  obtain ⟨command, reply⟩ := l
  cases System.stepped_of_exec hstep with
  | advanced hi hadvance =>
    cases hadvance with
    | handedOver =>
      cases hl
      exact (backed_of_reachable hreach _ (List.mem_of_getElem? hi) _ rfl).stored
    | _ => cases hl
  | _ => cases hl

/-- **The attempts are an exclusive, bounded log.** -/
theorem attemptLog_of_history (h : (system S).History ls s) : AttemptLog S ls s := by
  have hreach : (system S).Reachable s := ⟨ls, h⟩
  have hledger := reachable_ledger hreach
  have hstored := stored_of_history h
  have hsound : ∀ d ∈ s.ledger.deliveries.rows,
      Course.Sound S.externals ⟨d, s.ledger.attemptsOf d.id⟩ :=
    fun d hd ↦ sound_course hledger (Ledger.course_of_mem hd)
  have honce : ((ls.filterMap handedOver?).map DispatchRequest.attemptId).Nodup := by
    rw [List.map_filterMap]
    exact (List.nodup_append.mp (handedOver_custody h).once).1
  -- the idempotency key of a hand-over is the id of its attempt
  have hkeys : (ls.filterMap handedOver?).map DispatchRequest.idempotencyKey =
      (ls.filterMap handedOver?).map DispatchRequest.attemptId := by
    refine List.map_congr_left fun r hr ↦ ?_
    obtain ⟨a, -, hid, -, -, hkey⟩ := hstored r hr
    exact hkey.symm.trans hid
  exact {
    count := fun d hd ↦ (hsound d hd).length_eq.symm
    sequences := fun d hd ↦ (hsound d hd).sequences
    bounded := fun d hd ↦ ⟨(hsound d hd).maxAttempts ▸ (hsound d hd).budget,
      (hsound d hd).maxAttempts⟩
    exclusive := by
      intro d hd a ha b hb hda hdb
      refine (hsound d hd).eq_of_sequence ha hb ?_
      rw [(hsound d hd).sequence_eq ha hda, (hsound d hd).sequence_eq hb hdb]
    owned := (linked_of_reachable hledger).attempts
    committed := by
      rintro pre l post request rfl hl
      obtain ⟨t, t', hpre, hstep, hpost⟩ := h.of_append_cons
      exact ⟨t, t', hpre, hstep, hpost,
        (stored_of_handedOver ⟨pre, hpre⟩ hstep hl).existsUnique⟩
    handedOverOnce := honce
    idempotencyKeys := hkeys ▸ honce
    attemptIds := s.ledger.attempts.nodup_keys
    runIds := runIds_nodup s.ledger }

/-- The log when the first worker waits for the provider. -/
theorem attemptLog_awaiting :
    ∃ ls, (system Deployment.setting).History ls Deployment.awaiting ∧
      AttemptLog Deployment.setting ls Deployment.awaiting := by
  obtain ⟨ls, hls⟩ := Deployment.reachable_awaiting
  exact ⟨ls, hls, attemptLog_of_history hls⟩

end NotificationLedger

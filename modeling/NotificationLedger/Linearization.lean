import NotificationLedger.Creation
import NotificationLedger.Replayability

/-!
# A create call takes effect at one moment

A create call reads for a replay, waits for its render and then writes under an advisory lock, and
any number of other calls may run between its steps. Its answer is nevertheless the answer of the
whole operation run at once on the ledger of a single moment of the call: a successful call acts on
the ledger it returns from, and so does every call that fails after its lock, while a call whose
render fails acts on the ledger of its replay read. Nothing else of the call touches the ledger.

The second check is the first one again (`recheckIntent_eq_findReplay`), and between it and the
write the lock keeps the key free; the interleaved call therefore loses nothing against the
uninterrupted one.

## The moments

Every branch of a call's step is one branch of the uninterrupted operation, on the ledger of that
step. What a call takes along is a fact of the history, which cannot become false: nothing was
stored at its first read (`Asked`), and its render was given and accepted (`Prepared`). That the
intent is still missing is no such fact, and is looked up again before anything is written.
-/

namespace NotificationLedger

open Outcome Public

/-- Either create operation at once: the replay read, the render it receives, its transaction. -/
def Plugin.createAtOnce (S : Setting) (L : Ledger) (request : IntentRequest)
    (render : Except RuntimeFailure RenderedTemplate) (nonces : Nonces) (now : DateTime) :
    Except (PluginError CreateError) (Ledger × CreateResponse) := do
  let replay ← (findReplay S.externals L request now).mapError mapCreateError
  match replay with
  | some receipt => pure (L, { receipt.response with idempotentReplay := true })
  | none => do
    let rendered ← render.mapError .runtime
    let (L', receipt) ←
      (createInTx S.externals S.protector L request rendered nonces now).mapError mapCreateError
    pure (L', receipt.response)

/-- An operation that writes nothing takes no nonces. -/
def noNonces : Nonces := ⟨[], [], [], []⟩

/-! ## The branches of the operation

The uninterrupted operation, run on one ledger: one equation for each way it can end. The last one
has the check under the lock replaced by the first check, which gives the same. -/

section Branches

variable {S : Setting} {L L' : Ledger} {request : IntentRequest} {rendered : RenderedTemplate}
  {render : Except RuntimeFailure RenderedTemplate} {nonces : Nonces} {now : DateTime}
  {intent : IntentPersistence} {receipt : TransactionalIntentReceipt} {e : NotificationError}

theorem Plugin.createAtOnce_of_error (h : findReplay S.externals L request now = .error e) :
    createAtOnce S L request render nonces now = .error (mapCreateError e) := by
  rw [createAtOnce, h]
  rfl

theorem Plugin.createAtOnce_of_replay
    (h : findReplay S.externals L request now = .ok (some receipt)) :
    createAtOnce S L request render nonces now =
      .ok (L, { receipt.response with idempotentReplay := true }) := by
  rw [createAtOnce, h]
  rfl

theorem Plugin.createAtOnce_of_failure {failure : RuntimeFailure}
    (h : findReplay S.externals L request now = .ok none) :
    createAtOnce S L request (.error failure) nonces now = .error (.runtime failure) := by
  rw [createAtOnce, h]
  rfl

/-- Under an unknown key the operation is its transaction. -/
theorem Plugin.createAtOnce_of_unknown (h : findReplay S.externals L request now = .ok none) :
    createAtOnce S L request (.ok rendered) nonces now =
      ((createInTx S.externals S.protector L request rendered nonces now).mapError
        mapCreateError).map fun p ↦ (p.1, p.2.response) := by
  rw [createAtOnce, h]
  simp only [Except.mapError, ok_bind]
  cases createInTx S.externals S.protector L request rendered nonces now <;> rfl

/-- The check under the lock is the replay read again. -/
theorem recheckIntent_eq_findReplay
    (h : prepareIntent S.externals request rendered now = .ok intent) :
    recheckIntent L intent = findReplay S.externals L request now := by
  obtain ⟨hvalidate, -, rfl⟩ := prepareIntent_eq_ok.mp h
  rw [recheckIntent, findReplay, hvalidate, ok_bind]
  change (do
    ensure (Storable [lockText request.source.moduleId request.idempotencyKey]) mapSqlError
    findIdempotentIntent L request.source.moduleId request.idempotencyKey
      (request.digest S.externals)) = _
  by_cases htexts : Storable [request.source.moduleId, request.idempotencyKey]
  · have hlock : storable (lockText request.source.moduleId request.idempotencyKey) = true :=
      storable_lockText (htexts _ (by simp)) (htexts _ (by simp))
    rw [ensure_of (by simp [Storable, hlock]), ok_bind]
  · -- what the lock cannot be taken on, the read cannot ask for either
    have hlock : ¬Storable [lockText request.source.moduleId request.idempotencyKey] := by
      intro hlock
      refine htexts ?_
      simp only [Storable, List.forall_mem_cons, List.not_mem_nil, false_implies, implies_true,
        and_true, lockText, storable_append, Bool.and_eq_true] at hlock ⊢
      exact ⟨hlock.1.1.2, hlock.2⟩
    rw [ensure_of_not hlock, findIdempotentIntent, ensure_of_not htexts]
    rfl

/-- A key no stored intent carries is unknown to the read. -/
theorem findReplay_eq_none (h : findReplay S.externals L request now = .ok none)
    (hfree : ∀ i ∈ L'.intents.rows,
      ¬(i.sourceModule = request.source.moduleId ∧ i.idempotencyKey = request.idempotencyKey)) :
    findReplay S.externals L' request now = .ok none := by
  obtain ⟨⟨⟩, hvalidate, hfind⟩ := bind_eq_ok.mp h
  obtain ⟨htexts, -⟩ := ensure_bind_eq_ok.mp hfind
  rw [findReplay, hvalidate, ok_bind]
  exact findIdempotentIntent_eq_none (htexts _ (by simp)) (htexts _ (by simp))
    (storedIntent_eq_none hfree)

/-- What a prepared call is told under its lock is what the operation would tell. -/
theorem Plugin.createAtOnce_of_prepared
    (hprepare : prepareIntent S.externals request rendered now = .ok intent)
    (hrecheck : recheckIntent L intent = .ok none) :
    createAtOnce S L request (.ok rendered) nonces now =
      ((writeIntent S.externals S.protector L intent nonces now).mapError mapCreateError).map
        fun p ↦ (p.1, p.2.response) := by
  have hreplay := (recheckIntent_eq_findReplay hprepare).symm.trans hrecheck
  rw [createAtOnce_of_unknown hreplay, createInTx, hprepare, ok_bind, persistIntent, hrecheck,
    ok_bind]

end Branches

/-! ## What a call in progress has been told

A call that ends has come through its phases on ledgers of the past. What it was told there is kept
as a statement about the history, which longer histories keep. -/

section History

variable {S : Setting} {s s' : System} {ls : List (Command × Reply)} {n : ℕ}
  {request : IntentRequest} {now : DateTime} {phase : CreatePhase}

/-- At an earlier moment of the history the call was about to read, and nothing was stored. -/
def Asked (S : Setting) (ls : List (Command × Reply)) (s : System) (n : ℕ)
    (request : IntentRequest) (now : DateTime) : Prop :=
  ∃ pre post u, ls = pre ++ post ∧ (system S).History pre u ∧ (system S).Run u post s ∧
    u.calls[n]? = some (.create request now .reading) ∧
    findReplay S.externals u.ledger request now = .ok none

/-- The call prepared its intent from the render it received. -/
def Prepared (S : Setting) (ls : List (Command × Reply)) (n : ℕ) (request : IntentRequest)
    (now : DateTime) (intent : IntentPersistence) : Prop :=
  ∃ rendered, (.advance n (.rendered (.ok rendered)), .pending) ∈ ls ∧
    prepareIntent S.externals request rendered now = .ok intent

theorem Asked.snoc (h : Asked S ls s n request now) {l : Command × Reply}
    (hstep : (system S).Step s l s') : Asked S (ls ++ [l]) s' n request now := by
  obtain ⟨pre, post, u, rfl, hpre, hpost, h⟩ := h
  exact ⟨pre, post ++ [l], u, List.append_assoc _ _ _, hpre, hpost.snoc hstep, h⟩

theorem Prepared.append {intent : IntentPersistence} (h : Prepared S ls n request now intent)
    (ms : List (Command × Reply)) : Prepared S (ls ++ ms) n request now intent := by
  obtain ⟨rendered, hmem, h⟩ := h
  exact ⟨rendered, List.mem_append_left _ hmem, h⟩

/-- Where a create call stands after a step. -/
inductive Reached (S : Setting) (s : System) (l : Command × Reply) (n : ℕ)
    (request : IntentRequest) (now : DateTime) : CreatePhase → Prop
  | started : Reached S s l n request now .reading
  | same {phase phase' : CreatePhase} (hc : s.calls[n]? = some (.create request now phase))
      (hreading : phase = .reading → phase' = .reading) (hintent : phase.intent? = phase'.intent?) :
      Reached S s l n request now phase'
  | unknown (hc : s.calls[n]? = some (.create request now .reading))
      (h : findReplay S.externals s.ledger request now = .ok none) :
      Reached S s l n request now .rendering
  | prepared {rendered : RenderedTemplate} {intent : IntentPersistence}
      (hc : s.calls[n]? = some (.create request now .rendering))
      (hl : l = (.advance n (.rendered (.ok rendered)), .pending))
      (h : prepareIntent S.externals request rendered now = .ok intent) :
      Reached S s l n request now (.prepared intent)

theorem reached_of_step {l : Command × Reply} (hstep : (system S).Step s l s')
    (hc : s'.calls[n]? = some (.create request now phase)) :
    Reached S s l n request now phase := by
  have hsame : s.calls[n]? = some (.create request now phase) → Reached S s l n request now phase :=
    fun h ↦ .same h id rfl
  obtain ⟨command, reply⟩ := l
  cases System.stepped_of_exec hstep with
  | createRefused | dispatchRefused | receiptRefused | lifecycleRefused | retryRefused
  | receiptRecorded | lifecycleRecorded | retryScheduled => exact hsame hc
  | createStarted =>
    rw [List.getElem?_append] at hc
    split at hc
    · exact hsame hc
    · cases List.mem_singleton.mp (List.mem_of_getElem? hc)
      exact .started
  | dispatchStarted =>
    rw [List.getElem?_append] at hc
    split at hc
    · exact hsame hc
    · cases List.mem_singleton.mp (List.mem_of_getElem? hc)
  | abandoned hi =>
    simp only [List.getElem?_set] at hc
    split at hc
    · split at hc <;> cases hc
    · exact hsame hc
  | @advanced i input c c' L reply hi hadvance =>
    simp only [List.getElem?_set] at hc
    split at hc
    · next hin =>
      subst hin
      split at hc
      · cases hc
        cases hadvance with
        | unknown h => exact .unknown hi h
        | prepared h => exact .prepared hi rfl h
        | locked | absent => exact .same hi (fun h ↦ by cases h) rfl
      · cases hc
    · exact hsame hc

/-- **A call past its read was told that nothing is stored**, and one with an intent prepared it
from the render it received. -/
theorem asked_of_history (h : (system S).History ls s)
    (hc : s.calls[n]? = some (.create request now phase)) (hphase : phase ≠ .reading) :
    Asked S ls s n request now ∧
      ∀ intent ∈ phase.intent?, Prepared S ls n request now intent := by
  refine Lts.History.invariant (S := system S)
    (I := fun ls s ↦ ∀ phase, s.calls[n]? = some (.create request now phase) → phase ≠ .reading →
      Asked S ls s n request now ∧
        ∀ intent ∈ phase.intent?, Prepared S ls n request now intent) ?_ ?_ h phase hc hphase
  · rintro s rfl phase hc
    cases hc
  · intro ls s l s' hls ih hstep phase hc hphase
    cases reached_of_step hstep hc with
    | started => exact absurd rfl hphase
    | same hold hreading hintent =>
      obtain ⟨hasked, hprepared⟩ := ih _ hold fun h ↦ hphase (hreading h)
      refine ⟨hasked.snoc hstep, fun intent hmem ↦ ?_⟩
      exact (hprepared intent (hintent ▸ hmem)).append _
    | unknown hold hnone =>
      refine ⟨⟨ls, [l], s, rfl, hls, Lts.Run.single hstep, hold, hnone⟩, fun _ hmem ↦ ?_⟩
      cases hmem
    | @prepared rendered intent hold hl hprepare =>
      obtain ⟨hasked, -⟩ := ih _ hold fun h ↦ by cases h
      refine ⟨hasked.snoc hstep, fun intent' hmem ↦ ?_⟩
      cases hmem
      exact ⟨rendered, by simp [hl], hprepare⟩

/-! ## The main result -/

/-- The answer of a create call, given by the step `l` out of `s`, is that of the whole operation
run at once on the ledger of the moment `u`, at which the call was in progress. -/
structure TakesEffectAt (S : Setting) (ls : List (Command × Reply)) (s : System)
    (l : Command × Reply) (s' : System) (n : ℕ) (request : IntentRequest)
    (result : Except (PluginError CreateError) CreateResponse) (u : System) : Prop where
  moment : ∃ pre post, ls = pre ++ post ∧ (system S).History pre u ∧ (system S).Run u post s
  answer : ∃ now phase render nonces, u.calls[n]? = some (.create request now phase) ∧
    (findReplay S.externals u.ledger request now = .ok none →
      .advance n (.rendered render) ∈ (ls ++ [l]).map Prod.fst) ∧
    match result with
    | .error e => Plugin.createAtOnce S u.ledger request render nonces now = .error e ∧
        s'.ledger = s.ledger
    | .ok response => u = s ∧
        (response.idempotentReplay = false → l.1 = .advance n (.nonces nonces)) ∧
        Plugin.createAtOnce S s.ledger request render nonces now = .ok (s'.ledger, response)

/-- The moment of the answer itself. -/
private theorem moment_now (h : (system S).History ls s) :
    ∃ pre post, ls = pre ++ post ∧ (system S).History pre s ∧ (system S).Run s post s :=
  ⟨ls, [], (List.append_nil ls).symm, h, .nil⟩

/-- **Create calls are linearizable.** -/
theorem takesEffect_of_history {command : Command}
    {result : Except (PluginError CreateError) CreateResponse} (h : (system S).History ls s)
    (hstep : (system S).Step s (command, .created request result) s') :
    ∃ n input u, command = .advance n input ∧
      TakesEffectAt S ls s (command, .created request result) s' n request result u := by
  cases System.stepped_of_exec hstep with
  | @advanced n input c c' L reply hc hadvance =>
    -- a render that the call received before belongs to the history
    have hrender : ∀ {render}, (.advance n (.rendered (.ok render)), .pending) ∈ ls →
        .advance n (.rendered (.ok render)) ∈
          (ls ++ [(Command.advance n input, Reply.created request result)]).map Prod.fst :=
      fun hmem ↦ List.mem_map.mpr ⟨_, List.mem_append_left _ hmem, rfl⟩
    have hlast : Command.advance n input ∈
        (ls ++ [(Command.advance n input, Reply.created request result)]).map Prod.fst :=
      List.mem_map.mpr ⟨_, List.mem_append_right _ List.mem_cons_self, rfl⟩
    have hnow := moment_now h
    refine ⟨n, input, ?_⟩
    cases hadvance with
    | @replayFailed _ now e hfailed =>
      refine ⟨s, rfl, hnow, now, _, .error (.foreign ""), noNonces, hc, fun hnone ↦ ?_, ?_, rfl⟩
      · rw [hfailed] at hnone
        cases hnone
      · exact Plugin.createAtOnce_of_error hfailed
    | @replayed _ now receipt hreplay =>
      refine ⟨s, rfl, hnow, now, _, .error (.foreign ""), noNonces, hc, fun hnone ↦ ?_, rfl,
        fun hnew ↦ ?_, ?_⟩
      · rw [hreplay] at hnone
        cases hnone
      · cases hnew
      · exact Plugin.createAtOnce_of_replay hreplay
    | @renderFailed _ now failure =>
      obtain ⟨⟨pre, post, u, hls, hpre, hpost, hu, hnone⟩, -⟩ :=
        asked_of_history h hc fun hreading ↦ by cases hreading
      exact ⟨u, rfl, ⟨pre, post, hls, hpre, hpost⟩, now, _, .error failure, noNonces, hu,
        fun _ ↦ hlast, Plugin.createAtOnce_of_failure hnone, rfl⟩
    | @renderRefused _ now rendered e hrefused =>
      obtain ⟨⟨pre, post, u, hls, hpre, hpost, hu, hnone⟩, -⟩ :=
        asked_of_history h hc fun hreading ↦ by cases hreading
      refine ⟨u, rfl, ⟨pre, post, hls, hpre, hpost⟩, now, _, .ok rendered, noNonces, hu,
        fun _ ↦ hlast, ?_, rfl⟩
      rw [Plugin.createAtOnce_of_unknown hnone, createInTx, hrefused]
      rfl
    | @recheckFailed _ now intent e hfailed =>
      obtain ⟨-, hprepared⟩ := asked_of_history h hc fun hreading ↦ by cases hreading
      obtain ⟨rendered, hmem, hprepare⟩ := hprepared intent rfl
      refine ⟨s, rfl, hnow, now, _, .ok rendered, noNonces, hc, fun _ ↦ hrender hmem, ?_, rfl⟩
      exact Plugin.createAtOnce_of_error ((recheckIntent_eq_findReplay hprepare).symm.trans hfailed)
    | @rechecked _ now intent receipt hreplay =>
      obtain ⟨-, hprepared⟩ := asked_of_history h hc fun hreading ↦ by cases hreading
      obtain ⟨rendered, hmem, hprepare⟩ := hprepared intent rfl
      obtain ⟨i, d, -, -, rfl⟩ := replay_of_recheckIntent hreplay
      refine ⟨s, rfl, hnow, now, _, .ok rendered, noNonces, hc, fun _ ↦ hrender hmem, rfl,
        fun hnew ↦ ?_, ?_⟩
      · cases hnew
      · exact Plugin.createAtOnce_of_replay
          ((recheckIntent_eq_findReplay hprepare).symm.trans hreplay)
    | @writeFailed _ now intent nonces e hfailed =>
      obtain ⟨⟨_, _, _, _, _, _, _, hnone⟩, hprepared⟩ :=
        asked_of_history h hc fun hreading ↦ by cases hreading
      obtain ⟨rendered, hmem, hprepare⟩ := hprepared intent rfl
      -- the lock has kept the key free since the second check
      have hfree := (locking_of_reachable ⟨ls, h⟩).absent _ _ _ (List.mem_of_getElem? hc)
      obtain ⟨-, -, rfl⟩ := prepareIntent_eq_ok.mp hprepare
      have hrecheck := (recheckIntent_eq_findReplay hprepare).trans
        (findReplay_eq_none hnone hfree)
      refine ⟨s, rfl, hnow, now, _, .ok rendered, nonces, hc, fun _ ↦ hrender hmem, ?_, rfl⟩
      rw [Plugin.createAtOnce_of_prepared hprepare hrecheck, hfailed]
      rfl
    | @written _ now intent nonces L' receipt hwritten =>
      obtain ⟨-, hprepared⟩ := asked_of_history h hc fun hreading ↦ by cases hreading
      obtain ⟨rendered, hmem, hprepare⟩ := hprepared intent rfl
      refine ⟨s, rfl, hnow, now, _, .ok rendered, nonces, hc, fun _ ↦ hrender hmem, rfl,
        fun _ ↦ rfl, ?_⟩
      rw [Plugin.createAtOnce_of_prepared hprepare (recheckIntent_of_writeIntent hwritten),
        hwritten]
      rfl

end History

/-- The call that created the first invitation. -/
theorem takesEffect_of_history_created :
    ∃ ls s command response s' n input u, command = .advance n input ∧
      TakesEffectAt Deployment.setting ls s
        (command, .created Deployment.intentRequest (.ok response)) s' n
        Deployment.intentRequest (.ok response) u := by
  obtain ⟨ls, ⟨command, reply⟩, response, hls, hl, hcreated⟩ := Deployment.exists_history_created
  obtain ⟨pre, post, rfl⟩ := List.append_of_mem hl
  obtain ⟨s, s', hpre, hstep, -⟩ := hls.of_append_cons
  obtain rfl : reply = .created Deployment.intentRequest (.ok response) := by
    unfold created? at hcreated
    split at hcreated
    · next heq =>
      cases hcreated
      exact congrArg Prod.snd heq
    · cases hcreated
  obtain ⟨n, input, u, hcommand, heffect⟩ := takesEffect_of_history hpre hstep
  exact ⟨pre, s, command, response, s', n, input, u, hcommand, heffect⟩

end NotificationLedger

import NotificationLedger.Deployment
import NotificationLedger.Intents
import NotificationLedger.Workers

/-!
# Intent creation under concurrency

Any number of create calls contend for the pair of a caller and an idempotency key. The unique
constraint admits one intent; what the two checks add is that every other call learns of it, with
the stored ids if it brought the same request and with a conflict otherwise. The second check can
be trusted because it is made under the advisory lock, which no other call for the pair can hold
until the write has happened.

## The lock

`Locking` says that no two calls past the lock share its text, and that nothing is stored under the
pair of a call between its second check and its write: whoever else would write there is past the
lock too. An answer is then read off the intent that is stored when it is given (`Names`), and
stored intents stay.
-/

namespace NotificationLedger

open Outcome Public

/-! ## The stored intent of a key

The pair is unique in the table, so the stored intent is a function of the pair. A lookup finds it
under any digest and compares the digest afterwards. -/

namespace Public

variable {S : Setting} {L : Ledger} {module key digest : String}

theorem of_storedIntent {i : Intent} {d : Delivery}
    (h : storedIntent L module key = some (i, d)) :
    i ∈ L.intents.rows ∧ i.sourceModule = module ∧ i.idempotencyKey = key ∧
      d ∈ L.deliveries.rows ∧ d.intentId = i.id := by
  simp only [storedIntent, bind, Option.bind_eq_some_iff, pure, Option.some_inj,
    Prod.mk.injEq] at h
  obtain ⟨i', hi, d', hd, rfl, rfl⟩ := h
  have hkey := List.find?_some hi
  have hintent := List.find?_some hd
  rw [Bool.and_eq_true, decide_eq_true_eq, decide_eq_true_eq] at hkey
  exact ⟨List.mem_of_find?_eq_some hi, hkey.1, hkey.2, List.mem_of_find?_eq_some hd,
    of_decide_eq_true hintent⟩

/-- The intent of a key is found, with its delivery. -/
theorem exists_storedIntent (hprovenance : Provenance S L) {i : Intent}
    (hi : i ∈ L.intents.rows) (hmodule : i.sourceModule = module)
    (hkey : i.idempotencyKey = key) :
    ∃ d ∈ L.deliveries.rows, d.intentId = i.id ∧ storedIntent L module key = some (i, d) := by
  obtain ⟨request, -, d, hd, hintent⟩ := hprovenance.intents i hi
  cases hstored : storedIntent L module key with
  | none =>
    have hfound : (L.intents.rows.find? fun i ↦ decide (i.sourceModule = module) &&
        decide (i.idempotencyKey = key)).isSome := by
      rw [List.find?_isSome]
      exact ⟨i, hi, by simp [hmodule, hkey]⟩
    obtain ⟨j, hj⟩ := Option.isSome_iff_exists.mp hfound
    have hmatch := List.find?_some hj
    rw [Bool.and_eq_true, decide_eq_true_eq, decide_eq_true_eq] at hmatch
    have hsame : j = i := Table.eq_of_clash (List.mem_of_find?_eq_some hj) hi
      (Or.inr ⟨hmatch.1.trans hmodule.symm, hmatch.2.trans hkey.symm⟩)
    have hdelivery : (L.deliveries.rows.find? fun d ↦ decide (d.intentId = j.id)).isSome := by
      rw [List.find?_isSome]
      exact ⟨d, hd, by simp [hintent, hsame]⟩
    obtain ⟨e, he⟩ := Option.isSome_iff_exists.mp hdelivery
    rw [storedIntent, hj] at hstored
    simp only [bind, Option.bind_some, he] at hstored
    cases hstored
  | some pair =>
    obtain ⟨j, e⟩ := pair
    obtain ⟨hj, hjmodule, hjkey, he, heintent⟩ := of_storedIntent hstored
    have hsame : j = i := Table.eq_of_clash hj hi
      (Or.inr ⟨hjmodule.trans hmodule.symm, hjkey.trans hkey.symm⟩)
    subst hsame
    exact ⟨e, he, heintent, rfl⟩

theorem findIdempotentIntent_eq_ok_some {receipt : TransactionalIntentReceipt}
    (h : findIdempotentIntent L module key digest = .ok (some receipt)) :
    ∃ i d, storedIntent L module key = some (i, d) ∧ i.requestDigest = digest ∧
      receipt = ⟨i.id, d.id, d.status, true⟩ := by
  obtain ⟨-, h⟩ := ensure_bind_eq_ok.mp h
  cases hstored : storedIntent L module key with
  | none =>
    rw [hstored, projectIdempotentIntent, pure_eq_ok] at h
    cases h
  | some pair =>
    rw [hstored] at h
    obtain ⟨hdigest, h⟩ := ensure_bind_eq_ok.mp h
    rw [pure_eq_ok, Option.some_inj] at h
    exact ⟨pair.1, pair.2, rfl, hdigest, h.symm⟩

theorem storedIntent_of_findIdempotentIntent
    (h : findIdempotentIntent L module key digest = .ok none) :
    storedIntent L module key = none := by
  obtain ⟨-, h⟩ := ensure_bind_eq_ok.mp h
  cases hstored : storedIntent L module key with
  | none => rfl
  | some pair =>
    rw [hstored] at h
    obtain ⟨-, h⟩ := ensure_bind_eq_ok.mp h
    rw [pure_eq_ok] at h
    cases h

/-- The failure of a key that was used for another request. -/
def keyConflict : NotificationError :=
  ⟨.conflict, "Notification idempotency key was used with different input"⟩

/-- A key with another digest conflicts. -/
theorem findIdempotentIntent_eq_conflict (hprovenance : Provenance S L) (hchecked : L.Checked)
    {i : Intent} (hi : i ∈ L.intents.rows) (hmodule : i.sourceModule = module)
    (hkey : i.idempotencyKey = key) (hdigest : i.requestDigest ≠ digest) :
    findIdempotentIntent L module key digest = .error keyConflict := by
  obtain ⟨d, -, -, hstored⟩ := exists_storedIntent hprovenance hi hmodule hkey
  have htexts := (hchecked.intents i hi).1.1
  have hstorable : Storable [module, key] := by
    rw [← hmodule, ← hkey]
    exact Storable.cons_iff.mpr ⟨htexts _ (by simp), Storable.cons_iff.mpr
      ⟨htexts _ (by simp), fun _ hnone ↦ absurd hnone List.not_mem_nil⟩⟩
  rw [findIdempotentIntent, ensure_of hstorable, ok_bind, hstored, projectIdempotentIntent,
    ensure_of_not hdigest]
  rfl

theorem recheckIntent_eq_conflict (hprovenance : Provenance S L) (hchecked : L.Checked)
    {intent : IntentPersistence} {i : Intent} (hi : i ∈ L.intents.rows)
    (hmodule : i.sourceModule = intent.source.moduleId)
    (hkey : i.idempotencyKey = intent.idempotencyKey)
    (hdigest : i.requestDigest ≠ intent.requestDigest) :
    recheckIntent L intent = .error keyConflict := by
  have htexts := (hchecked.intents i hi).1.1
  have hlock : storable (lockText intent.source.moduleId intent.idempotencyKey) = true := by
    rw [← hmodule, ← hkey]
    exact storable_lockText (htexts _ (by simp)) (htexts _ (by simp))
  rw [recheckIntent, ensure_of (by simp [Storable, hlock]), ok_bind]
  exact findIdempotentIntent_eq_conflict hprovenance hchecked hi hmodule hkey hdigest

end Public

/-! ## The advisory lock

Two calls for one pair have one text, and no two calls past the lock share a text; so the call that
writes is alone with its pair. What a step does to the stored intents is said once (`Admits`). -/

/-- No two calls hold one lock, and whoever is about to write holds the lock of a key that no
stored intent carries. -/
structure Locking (s : System) : Prop where
  exclusive : (s.calls.filterMap Call.lockText?).Nodup
  absent : ∀ request now intent, Call.create request now (.writing intent) ∈ s.calls →
    ∀ i ∈ s.ledger.intents.rows,
      ¬(i.sourceModule = intent.source.moduleId ∧ i.idempotencyKey = intent.idempotencyKey)

section Locking

variable {S : Setting} {s s' : System} {command : Command} {reply : Reply}

/-- What a step does to the stored intents. -/
inductive Admits (S : Setting) (s s' : System) : Command → Reply → Prop
  | none {command : Command} {reply : Reply} (hintents : s'.ledger.intents = s.ledger.intents)
      (hreply : ∀ request response, reply = .created request (.ok response) →
        response.idempotentReplay = true) :
      Admits S s s' command reply
  | one {n : ℕ} {nonces : Nonces} {request : IntentRequest} {now : DateTime}
      {intent : IntentPersistence} {response : CreateResponse} {i : Intent}
      (hc : s.calls[n]? = some (.create request now (.writing intent)))
      (hcalls : s'.calls = s.calls.set n .returned)
      (hrows : s'.ledger.intents.rows = s.ledger.intents.rows ++ [i])
      (hmodule : i.sourceModule = intent.source.moduleId)
      (hkey : i.idempotencyKey = intent.idempotencyKey)
      (hresponse : response.idempotentReplay = false) :
      Admits S s s' (.advance n (.nonces nonces)) (.created request (.ok response))

theorem replay_of_recheckIntent {L : Ledger} {intent : IntentPersistence}
    {receipt : TransactionalIntentReceipt} (h : recheckIntent L intent = .ok (some receipt)) :
    ∃ i d, storedIntent L intent.source.moduleId intent.idempotencyKey = some (i, d) ∧
      i.requestDigest = intent.requestDigest ∧ receipt = ⟨i.id, d.id, d.status, true⟩ := by
  obtain ⟨-, h⟩ := ensure_bind_eq_ok.mp h
  exact findIdempotentIntent_eq_ok_some h

theorem admits_of_step (hreach : (system S).Reachable s)
    (hstep : (system S).Step s (command, reply) s') : Admits S s s' command reply := by
  have hframe : ∀ {t : Transaction} {L : Ledger},
      t.run S.externals S.protector s.ledger = .ok L →
      (∀ intent nonces now, t ≠ .create intent nonces now) → L.intents = s.ledger.intents :=
    fun hrun hother ↦ (Transaction.frame_of_not_create hrun hother).2.2
  have hobserved : ∀ {event : ObservationEnvelope} {L : Ledger},
      Transaction.run S.externals S.protector s.ledger (.observe event) = .ok L →
      L.intents = s.ledger.intents := fun hrun ↦ hframe hrun fun _ _ _ h ↦ by cases h
  cases System.stepped_of_exec hstep with
  | createRefused | createStarted | dispatchRefused | dispatchStarted | receiptRefused
  | lifecycleRefused | retryRefused | abandoned => exact .none rfl (fun _ _ h ↦ by cases h)
  | receiptRecorded henvelope h | lifecycleRecorded henvelope h =>
    exact .none (hobserved h) (fun _ _ h ↦ by cases h)
  | retryScheduled hcaller h =>
    have hrun := fst_map_eq_ok.mpr ⟨_, h⟩
    exact .none (hframe (t := .retry _ _ _ _ _) hrun fun _ _ _ h ↦ by cases h)
      (fun _ _ h ↦ by cases h)
  | advanced hc hadvance =>
    cases hadvance with
    | replayed h =>
      refine .none rfl fun _ _ hreply ↦ ?_
      cases hreply
      rfl
    | rechecked h =>
      refine .none rfl fun _ _ hreply ↦ ?_
      obtain ⟨i, d, -, -, rfl⟩ := replay_of_recheckIntent h
      cases hreply
      rfl
    | written h =>
      obtain ⟨e, -, hwrote, rfl⟩ := wrote_of_writeIntent h
      exact .one hc rfl (Table.insert?_eq_some.mp hwrote.intents).2 rfl rfl rfl
    | claimed h =>
      have hrun := (System.holds_of_reachable hreach).run_claim (List.mem_of_getElem? hc) h
      exact .none (hframe hrun fun _ _ _ h ↦ by cases h) (fun _ _ h ↦ by cases h)
    | recorded h => exact .none (hobserved h) (fun _ _ h ↦ by cases h)
    | replayFailed | unknown | renderFailed | renderRefused | prepared | locked | recheckFailed
    | absent | writeFailed | nothingDue | selected | claimFailed | handedOver | lost =>
      exact .none rfl (fun _ _ h ↦ by cases h)

/-- The locks after a call has taken a step. -/
theorem lockTexts_set {calls : List Call} {c c' : Call} {n : ℕ} (hc : calls[n]? = some c)
    (h : c'.lockText? = none ∨ c'.lockText? = c.lockText? ∨
      ∃ t, c'.lockText? = some t ∧ t ∉ calls.filterMap Call.lockText?)
    (hnodup : (calls.filterMap Call.lockText?).Nodup) :
    ((calls.set n c').filterMap Call.lockText?).Nodup := by
  rcases h with hnone | hsame | ⟨t, htext, hfree⟩
  · exact (held_set_sublist hc (Or.inl hnone)).nodup hnodup
  · exact (held_set_sublist hc (Or.inr hsame)).nodup hnodup
  · obtain ⟨pre, post, hsplit, hset⟩ := split_set hc c'
    rw [hset, List.filterMap_append, List.filterMap_cons_some htext]
    have hsub : (pre.filterMap Call.lockText? ++ post.filterMap Call.lockText?).Sublist
        (calls.filterMap Call.lockText?) := by
      rw [hsplit, List.filterMap_append]
      exact (List.Sublist.refl _).append ((List.sublist_cons_self c post).filterMap _)
    refine List.nodup_middle.mpr (List.nodup_cons.mpr ⟨fun hmem ↦ ?_, hsub.nodup hnodup⟩)
    exact hfree (hsub.subset hmem)

/-- Nobody takes a lock that is held. -/
theorem Locking.exclusive_step (h : (s.calls.filterMap Call.lockText?).Nodup)
    (hstep : (system S).Step s (command, reply) s') :
    (s'.calls.filterMap Call.lockText?).Nodup := by
  cases System.stepped_of_exec hstep with
  | createRefused | dispatchRefused | receiptRefused | lifecycleRefused | retryRefused
  | receiptRecorded | lifecycleRecorded | retryScheduled => exact h
  | createStarted | dispatchStarted => exact (held_append_sublist rfl).nodup h
  | abandoned hc => exact lockTexts_set hc (Or.inl rfl) h
  | advanced hc hadvance =>
    cases hadvance with
    | locked hfree => exact lockTexts_set hc (Or.inr (Or.inr ⟨_, rfl, hfree⟩)) h
    | absent => exact lockTexts_set hc (Or.inr (Or.inl rfl)) h
    | _ => exact lockTexts_set hc (Or.inl rfl) h

/-- A call that is about to write has just been told that nothing is stored, or still is. -/
theorem writing_of_step {request : IntentRequest} {now : DateTime} {intent : IntentPersistence}
    (hstep : (system S).Step s (command, reply) s')
    (hmem : Call.create request now (.writing intent) ∈ s'.calls) :
    Call.create request now (.writing intent) ∈ s.calls ∨
      (s'.ledger = s.ledger ∧ recheckIntent s.ledger intent = .ok none) := by
  cases System.stepped_of_exec hstep with
  | createRefused | dispatchRefused | receiptRefused | lifecycleRefused | retryRefused
  | receiptRecorded | lifecycleRecorded | retryScheduled => exact Or.inl hmem
  | createStarted | dispatchStarted =>
    rcases List.mem_append.mp hmem with hmem | hmem
    · exact Or.inl hmem
    · cases List.mem_singleton.mp hmem
  | abandoned =>
    rcases List.mem_or_eq_of_mem_set hmem with hmem | hmem
    · exact Or.inl hmem
    · cases hmem
  | advanced hc hadvance =>
    rcases List.mem_or_eq_of_mem_set hmem with hmem | rfl
    · exact Or.inl hmem
    · cases hadvance with
      | absent hrecheck => exact Or.inr ⟨rfl, hrecheck⟩

theorem storedIntent_of_recheckIntent {L : Ledger} {intent : IntentPersistence}
    (h : recheckIntent L intent = .ok none) :
    storedIntent L intent.source.moduleId intent.idempotencyKey = none := by
  obtain ⟨-, h⟩ := ensure_bind_eq_ok.mp h
  exact storedIntent_of_findIdempotentIntent h

/-- A key nothing was found for is free. -/
theorem fresh_of_storedIntent {L : Ledger} {module key : String} (hprovenance : Provenance S L)
    (h : storedIntent L module key = none) :
    ∀ i ∈ L.intents.rows, ¬(i.sourceModule = module ∧ i.idempotencyKey = key) := by
  rintro i hi ⟨hmodule, hkey⟩
  obtain ⟨d, -, -, hstored⟩ := exists_storedIntent hprovenance hi hmodule hkey
  rw [h] at hstored
  cases hstored

theorem Locking.step (hreach : (system S).Reachable s) (h : Locking s)
    (hstep : (system S).Step s (command, reply) s') : Locking s' := by
  refine ⟨Locking.exclusive_step h.exclusive hstep, fun request now intent hmem ↦ ?_⟩
  have hadmits := admits_of_step hreach hstep
  rcases writing_of_step hstep hmem with hold | ⟨hsame, hrecheck⟩
  · cases hadmits with
    | none hintents =>
      rw [hintents]
      exact h.absent request now intent hold
    | @one n nonces request' now' intent' response i hc hcalls hrows hmodule hkey =>
      intro j hj hmatch
      rw [hrows, List.mem_append, List.mem_singleton] at hj
      rcases hj with hj | rfl
      · exact h.absent request now intent hold j hj hmatch
      -- the writer of the new intent would hold the same lock
      obtain ⟨pre, post, hsplit, hset⟩ := split_set hc .returned
      have hlock : (Call.create request' now' (.writing intent')).lockText? =
          (Call.create request now (.writing intent)).lockText? := by
        simp only [Call.lockText?, ← hmodule, ← hkey, hmatch.1, hmatch.2]
      have hother : Call.create request now (.writing intent) ∈ pre ++ post := by
        rw [hcalls, hset] at hmem
        rcases List.mem_append.mp hmem with hpre | hpost
        · exact List.mem_append_left _ hpre
        · rcases List.mem_cons.mp hpost with heq | hpost
          · cases heq
          · exact List.mem_append_right _ hpost
      have hnodup := h.exclusive
      have hheld : (Call.create request' now' (.writing intent')).lockText? =
          some (lockText intent'.source.moduleId intent'.idempotencyKey) := rfl
      rw [hsplit, List.filterMap_append, List.filterMap_cons_some hheld, List.nodup_middle,
        List.nodup_cons, ← List.filterMap_append] at hnodup
      exact hnodup.1 (List.mem_filterMap.mpr ⟨_, hother, hlock.symm⟩)
  · rw [hsame]
    exact fresh_of_storedIntent (provenance_of_reachable hreach)
      (storedIntent_of_recheckIntent hrecheck)

/-- **The advisory lock protects the second check.** -/
theorem locking_of_reachable (h : (system S).Reachable s) : Locking s := by
  refine Lts.Reachable.invariant (S := system S) (I := Locking) ?_ ?_ h
  · rintro s rfl
    exact ⟨List.nodup_nil, fun _ _ _ hmem ↦ absurd hmem List.not_mem_nil⟩
  · rintro s ⟨command, reply⟩ s' hreach hlocking hstep
    exact hlocking.step hreach hstep

end Locking

/-! ## Answers

Every successful answer names the intent that is stored under its pair, and with it the one snapshot
and the one delivery of that intent. The names stay right, as rows stay. -/

/-- The successful answer of a create call. -/
def created? : Command × Reply → Option (IntentRequest × CreateResponse)
  | (_, .created request (.ok response)) => some (request, response)
  | _ => none

/-- The request belongs to the key. -/
def Public.IntentRequest.isFor (module key : String) (request : IntentRequest) : Bool :=
  decide (request.source.moduleId = module) && decide (request.idempotencyKey = key)

theorem Public.IntentRequest.isFor_iff {module key : String} {request : IntentRequest} :
    request.isFor module key = true ↔
      request.source.moduleId = module ∧ request.idempotencyKey = key := by
  rw [IntentRequest.isFor, Bool.and_eq_true, decide_eq_true_eq, decide_eq_true_eq]

/-- A successful answer for the key, and one that is no replay. -/
def answersKey (module key : String) (l : Command × Reply) : Bool :=
  (created? l).any fun p ↦ p.1.isFor module key

def createsKey (module key : String) (l : Command × Reply) : Bool :=
  (created? l).any fun p ↦ p.1.isFor module key && !p.2.idempotentReplay

namespace Ledger

variable (L : Ledger) (module key : String)

def intentsOf : List Intent :=
  L.intents.rows.filter fun i ↦ decide (i.sourceModule = module) && decide (i.idempotencyKey = key)

def snapshotsOf : List RenderSnapshot :=
  L.renderSnapshots.rows.filter fun s ↦
    (L.intentsOf module key).any fun i ↦ decide (i.snapshotId = s.id)

def deliveriesOf : List Delivery :=
  L.deliveries.rows.filter fun d ↦ (L.intentsOf module key).any fun i ↦ decide (d.intentId = i.id)

variable {L module key}

theorem mem_intentsOf {i : Intent} :
    i ∈ L.intentsOf module key ↔
      i ∈ L.intents.rows ∧ i.sourceModule = module ∧ i.idempotencyKey = key := by
  rw [intentsOf, List.mem_filter, Bool.and_eq_true, decide_eq_true_eq, decide_eq_true_eq]

theorem length_intentsOf_le : (L.intentsOf module key).length ≤ 1 := by
  refine Table.length_filter_le_one fun i _ j _ hi hj ↦ ?_
  rw [Bool.and_eq_true, decide_eq_true_eq, decide_eq_true_eq] at hi hj
  exact Or.inr ⟨hi.1.trans hj.1.symm, hi.2.trans hj.2.symm⟩

theorem eq_of_mem_intentsOf {i j : Intent} (hi : i ∈ L.intentsOf module key)
    (hj : j ∈ L.intentsOf module key) : i = j := by
  rw [mem_intentsOf] at hi hj
  exact Table.eq_of_clash hi.1 hj.1
    (Or.inr ⟨hi.2.1.trans hj.2.1.symm, hi.2.2.trans hj.2.2.symm⟩)

theorem length_snapshotsOf_le : (L.snapshotsOf module key).length ≤ 1 := by
  refine Table.length_filter_le_one fun s _ t _ hs ht ↦ ?_
  obtain ⟨i, hi, hsid⟩ := List.any_eq_true.mp hs
  obtain ⟨j, hj, htid⟩ := List.any_eq_true.mp ht
  rw [decide_eq_true_eq] at hsid htid
  rw [eq_of_mem_intentsOf hi hj] at hsid
  exact hsid.symm.trans htid

theorem length_deliveriesOf_le : (L.deliveriesOf module key).length ≤ 1 := by
  refine Table.length_filter_le_one fun d _ e _ hd he ↦ ?_
  obtain ⟨i, hi, hdid⟩ := List.any_eq_true.mp hd
  obtain ⟨j, hj, heid⟩ := List.any_eq_true.mp he
  rw [decide_eq_true_eq] at hdid heid
  rw [eq_of_mem_intentsOf hi hj] at hdid
  exact Or.inr (hdid.trans heid.symm)

end Ledger

/-- The answer names the stored intent of its key, and its delivery. -/
structure Names (L : Ledger) (request : IntentRequest) (response : CreateResponse) : Prop where
  stored : ∃ i ∈ L.intentsOf request.source.moduleId request.idempotencyKey,
    ∃ d ∈ L.deliveries.rows, d.intentId = i.id ∧ response.intentId = i.id ∧
      response.deliveryId = d.id

section Answers

variable {S : Setting} {ls : List (Command × Reply)} {s s' : System}
  {request : IntentRequest} {response : CreateResponse}

/-- The answer names the stored intent of its very request. -/
structure NamesRequest (S : Setting) (L : Ledger) (request : IntentRequest)
    (response : CreateResponse) : Prop where
  stored : ∃ i ∈ L.intentsOf request.source.moduleId request.idempotencyKey,
    i.requestDigest = request.digest S.externals ∧ ∃ d ∈ L.deliveries.rows, d.intentId = i.id ∧
      response.intentId = i.id ∧ response.deliveryId = d.id

theorem NamesRequest.names {L : Ledger} (h : NamesRequest S L request response) :
    Names L request response := by
  obtain ⟨i, hi, -, hrest⟩ := h.stored
  exact ⟨i, hi, hrest⟩

theorem NamesRequest.extends {L L' : Ledger} (h : NamesRequest S L request response)
    (hext : L.Extends L') : NamesRequest S L' request response := by
  obtain ⟨i, hi, hdigest, d, hd, hintent, hids⟩ := h.stored
  rw [Ledger.mem_intentsOf] at hi
  obtain ⟨d', hd', hident⟩ := hext.exists_delivery hd
  simp only [Delivery.identity, Prod.mk.injEq] at hident
  exact ⟨i, Ledger.mem_intentsOf.mpr ⟨hext.intents.subset hi.1, hi.2⟩, hdigest, d', hd',
    hident.2.1.trans hintent, hids.1, hids.2.trans hident.1.symm⟩

theorem namesRequest_of_storedIntent {L : Ledger} {i : Intent} {d : Delivery}
    (h : storedIntent L request.source.moduleId request.idempotencyKey = some (i, d))
    (hdigest : i.requestDigest = request.digest S.externals)
    (hintent : response.intentId = i.id) (hdelivery : response.deliveryId = d.id) :
    NamesRequest S L request response := by
  obtain ⟨hi, hmodule, hkey, hd, hid⟩ := of_storedIntent h
  exact ⟨i, Ledger.mem_intentsOf.mpr ⟨hi, hmodule, hkey⟩, hdigest, d, hd, hid, hintent, hdelivery⟩

/-- A prepared intent belongs to the key of its call's request. -/
theorem source_of_remembered (hreach : (system S).Reachable s) {now : DateTime}
    {phase : CreatePhase} (hmem : Call.create request now phase ∈ s.calls)
    {intent : IntentPersistence} (hintent : intent ∈ phase.intent?) :
    intent.source = request.source ∧ intent.idempotencyKey = request.idempotencyKey ∧
      intent.requestDigest = request.digest S.externals := by
  obtain ⟨rendered, -, rfl⟩ := (remembered_of_reachable hreach hmem).prepared intent hintent
  exact ⟨rfl, rfl, rfl⟩

/-- The answer of one step names what is stored after it. -/
theorem namesRequest_of_step (hreach : (system S).Reachable s) {command : Command}
    (hstep : (system S).Step s (command, .created request (.ok response)) s') :
    NamesRequest S s'.ledger request response := by
  cases System.stepped_of_exec hstep with
  | advanced hc hadvance =>
    have hmem := List.mem_of_getElem? hc
    cases hadvance with
    | replayed h =>
      obtain ⟨-, -, h⟩ := bind_eq_ok.mp h
      obtain ⟨i, d, hstored, hdigest, rfl⟩ := findIdempotentIntent_eq_ok_some h
      exact namesRequest_of_storedIntent hstored hdigest rfl rfl
    | rechecked h =>
      obtain ⟨i, d, hstored, hdigest, rfl⟩ := replay_of_recheckIntent h
      obtain ⟨hsource, hkey, hsame⟩ := source_of_remembered hreach hmem rfl
      rw [hsource, hkey] at hstored
      exact namesRequest_of_storedIntent hstored (hdigest.trans hsame) rfl rfl
    | written h =>
      obtain ⟨e, -, hwrote, rfl⟩ := wrote_of_writeIntent h
      obtain ⟨hsource, hkey, hsame⟩ := source_of_remembered hreach hmem rfl
      refine ⟨_, Ledger.mem_intentsOf.mpr ⟨?_, ?_, ?_⟩, hsame, _,
        (Table.mem_insert? hwrote.deliveries).mpr (Or.inr rfl), rfl, rfl, rfl⟩
      · exact (Table.mem_insert? hwrote.intents).mpr (Or.inr rfl)
      · exact congrArg IntentSource.moduleId hsource
      · exact hkey

/-- **Every answer names the stored rows** of its request. -/
theorem namesRequest_of_history (h : (system S).History ls s) :
    ∀ l ∈ ls, ∀ request response, created? l = some (request, response) →
      NamesRequest S s.ledger request response := by
  refine Lts.History.invariant (S := system S)
    (I := fun ls s ↦ ∀ l ∈ ls, ∀ request response, created? l = some (request, response) →
      NamesRequest S s.ledger request response) ?_ ?_ h
  · exact fun s _ l hl ↦ absurd hl List.not_mem_nil
  · rintro ls s ⟨command, reply⟩ s' hls ih hstep l hl request response hcreated
    have hreach : (system S).Reachable s := ⟨ls, hls⟩
    rcases List.mem_append.mp hl with hl | hl
    · exact (ih l hl request response hcreated).extends (extends_of_step hreach hstep)
    · rw [List.mem_singleton.mp hl] at hcreated
      unfold created? at hcreated
      split at hcreated
      · next heq =>
        cases hcreated
        cases heq
        exact namesRequest_of_step hreach hstep
      · cases hcreated

theorem names_of_history (h : (system S).History ls s) :
    ∀ l ∈ ls, ∀ request response, created? l = some (request, response) →
      Names s.ledger request response :=
  fun l hl _ _ hcreated ↦ (namesRequest_of_history h l hl _ _ hcreated).names

/-- **One creation for each stored intent.** -/
theorem creations_of_history (h : (system S).History ls s) (module key : String) :
    (ls.filter (createsKey module key)).length = (s.ledger.intentsOf module key).length := by
  refine Lts.History.invariant (S := system S)
    (I := fun ls s ↦ (ls.filter (createsKey module key)).length =
      (s.ledger.intentsOf module key).length) ?_ ?_ h
  · rintro s rfl
    rfl
  · rintro ls s ⟨command, reply⟩ s' hls ih hstep
    have hreach : (system S).Reachable s := ⟨ls, hls⟩
    rw [List.filter_append, List.length_append, ih]
    cases admits_of_step hreach hstep with
    | none hintents hreply =>
      have hno : createsKey module key (command, reply) = false := by
        unfold createsKey created?
        split
        · next heq =>
          cases heq
          rw [Option.any_some, hreply _ _ rfl, Bool.not_true, Bool.and_false]
        · rfl
      rw [Ledger.intentsOf, Ledger.intentsOf, hintents, List.filter_cons_of_neg (by simp [hno])]
      simp
    | @one n nonces request now intent response i hc hcalls hrows hmodule hkey hresponse =>
      obtain ⟨hsource, hintentKey, -⟩ :=
        source_of_remembered hreach (List.mem_of_getElem? hc) rfl
      rw [Ledger.intentsOf, Ledger.intentsOf, hrows, List.filter_append, List.length_append]
      have hsame : createsKey module key
          (.advance n (.nonces nonces), .created request (.ok response)) =
            (decide (i.sourceModule = module) && decide (i.idempotencyKey = key)) := by
        rw [createsKey, created?, Option.any_some, hresponse, Bool.not_false, Bool.and_true,
          IntentRequest.isFor, hmodule, hkey, hsource, hintentKey]
      simp only [List.filter_cons, hsame, List.filter_nil]
      split <;> rfl

end Answers

/-! ## Conflicts

A call with another digest under a taken pair is told so by the first of its checks that runs after
the intent was stored. -/

/-- The conflict a caller sees. -/
def conflictReply (request : IntentRequest) : Reply :=
  .created request (.error (.domain .idempotencyConflict))

/-- What becomes of a call whose key was used for another request: it is past no check, no step of
it touches the ledger, and the next check it comes to answers with a conflict. -/
structure Conflicting (S : Setting) (s : System) (n : ℕ) (request : IntentRequest) (now : DateTime)
    (phase : CreatePhase) : Prop where
  unwritten : ∀ intent, phase ≠ .writing intent
  unchanged : ∀ input reply s', (system S).Step s (.advance n input, reply) s' →
    s'.ledger = s.ledger
  refused : ∀ input reply s', (system S).Step s (.advance n input, reply) s' →
    reply = .pending ∨ reply = conflictReply request ∨
      (∃ failure, input = .rendered (.error failure)) ∨
      ∃ rendered e, input = .rendered (.ok rendered) ∧
        prepareIntent S.externals request rendered now = .error e
  checked : phase = .reading ∨ (∃ intent, phase = .locked intent) →
    ∃ s', (system S).Step s (.advance n .proceed, conflictReply request) s' ∧
      s'.ledger = s.ledger

section Conflicts

variable {S : Setting} {s s' : System} {n : ℕ} {request : IntentRequest} {now : DateTime}
  {phase : CreatePhase} {i : Intent}

/-- **A used key conflicts on both paths.** -/
theorem conflicting_of_stored (hreach : (system S).Reachable s)
    (hc : s.calls[n]? = some (.create request now phase))
    (hi : i ∈ s.ledger.intentsOf request.source.moduleId request.idempotencyKey)
    (hdigest : i.requestDigest ≠ request.digest S.externals) :
    Conflicting S s n request now phase := by
  have hprovenance := provenance_of_reachable hreach
  have hchecked := checked_of_reachable (reachable_ledger hreach)
  have hmem := List.mem_of_getElem? hc
  obtain ⟨hrow, hmodule, hkey⟩ := Ledger.mem_intentsOf.mp hi
  obtain ⟨caller, raw, hadmitted⟩ := (remembered_of_reachable hreach hmem).admitted
  have hvalidate := Plugin.validate_of_intentRequestOf hadmitted
  have hread : findReplay S.externals s.ledger request now = .error keyConflict := by
    rw [findReplay, hvalidate, ok_bind]
    exact findIdempotentIntent_eq_conflict hprovenance hchecked hrow hmodule hkey hdigest
  have hrecheck : ∀ intent ∈ phase.intent?, recheckIntent s.ledger intent = .error keyConflict := by
    intro intent hintent
    obtain ⟨hsource, hintentKey, hintentDigest⟩ := source_of_remembered hreach hmem hintent
    refine recheckIntent_eq_conflict hprovenance hchecked hrow ?_ ?_ ?_
    · rw [hsource]
      exact hmodule
    · rw [hintentKey]
      exact hkey
    · rw [hintentDigest]
      exact hdigest
  have hunwritten : ∀ intent, phase ≠ .writing intent := by
    rintro intent rfl
    obtain ⟨hsource, hintentKey, -⟩ := source_of_remembered hreach hmem rfl
    refine (locking_of_reachable hreach).absent request now intent hmem i hrow ⟨?_, ?_⟩
    · rw [hsource]
      exact hmodule
    · rw [hintentKey]
      exact hkey
  -- both follow from the branches of one step
  have hsteps : ∀ input reply s', (system S).Step s (.advance n input, reply) s' →
      s'.ledger = s.ledger ∧ (reply = .pending ∨ reply = conflictReply request ∨
        (∃ failure, input = .rendered (.error failure)) ∨
        ∃ rendered e, input = .rendered (.ok rendered) ∧
          prepareIntent S.externals request rendered now = .error e) := by
    intro input reply s' hstep
    cases System.stepped_of_exec hstep with
    | advanced hc' hadvance =>
      cases hc.symm.trans hc'
      cases hadvance with
      | replayFailed h =>
        cases hread.symm.trans h
        exact ⟨rfl, Or.inr (Or.inl rfl)⟩
      | replayed h => cases hread.symm.trans h
      | unknown h => cases hread.symm.trans h
      | renderFailed => exact ⟨rfl, Or.inr (Or.inr (Or.inl ⟨_, rfl⟩))⟩
      | renderRefused h => exact ⟨rfl, Or.inr (Or.inr (Or.inr ⟨_, _, rfl, h⟩))⟩
      | prepared | locked => exact ⟨rfl, Or.inl rfl⟩
      | recheckFailed h =>
        cases (hrecheck _ rfl).symm.trans h
        exact ⟨rfl, Or.inr (Or.inl rfl)⟩
      | rechecked h => cases (hrecheck _ rfl).symm.trans h
      | absent h => cases (hrecheck _ rfl).symm.trans h
      | writeFailed | written => exact absurd rfl (hunwritten _)
  refine ⟨hunwritten, fun input reply s' hstep ↦ (hsteps input reply s' hstep).1,
    fun input reply s' hstep ↦ (hsteps input reply s' hstep).2, ?_⟩
  rintro (rfl | ⟨intent, rfl⟩)
  · have hstep : Call.step S s.ledger s.calls (.create request now .reading) .proceed =
        some (s.ledger, .returned, conflictReply request) := by
      simp only [Call.step, Call.stepCreate, hread]
      rfl
    exact ⟨_, step_of_unchanged hc hstep, rfl⟩
  · have hstep : Call.step S s.ledger s.calls (.create request now (.locked intent)) .proceed =
        some (s.ledger, .returned, conflictReply request) := by
      simp only [Call.step, Call.stepCreate, hrecheck intent rfl]
      rfl
    exact ⟨_, step_of_unchanged hc hstep, rfl⟩

end Conflicts

/-! ## The main result -/

/-- Creation is idempotent for one caller and key. -/
structure Idempotent (S : Setting) (ls : List (Command × Reply)) (s : System)
    (module key : String) : Prop where
  atMostOne : (s.ledger.intentsOf module key).length ≤ 1 ∧
    (s.ledger.snapshotsOf module key).length ≤ 1 ∧
    (s.ledger.deliveriesOf module key).length ≤ 1
  /-- All successful answers carry the same ids. -/
  same : ∀ l ∈ ls, ∀ m ∈ ls, ∀ request response request' response',
    created? l = some (request, response) → created? m = some (request', response') →
    request.isFor module key = true → request'.isFor module key = true →
      response.intentId = response'.intentId ∧ response.deliveryId = response'.deliveryId
  /-- Exactly one of them is no replay. -/
  once : (∃ l ∈ ls, answersKey module key l = true) →
    (ls.filter (createsKey module key)).length = 1
  /-- A different request under the key conflicts, wherever its call is. -/
  conflict : ∀ n request now phase i stored, s.calls[n]? = some (.create request now phase) →
    request.isFor module key = true → i ∈ s.ledger.intentsOf module key →
    Written S s.ledger stored i → request ≠ stored →
    CollisionFree S.externals {request.encode S.externals, stored.encode S.externals} →
      Conflicting S s n request now phase

/-- **Intent creation is idempotent under concurrency.** -/
theorem idempotent_of_history {S : Setting} {ls : List (Command × Reply)} {s : System}
    (h : (system S).History ls s) (module key : String) : Idempotent S ls s module key := by
  have hreach : (system S).Reachable s := ⟨ls, h⟩
  refine ⟨⟨Ledger.length_intentsOf_le, Ledger.length_snapshotsOf_le,
    Ledger.length_deliveriesOf_le⟩, ?_, ?_, ?_⟩
  · intro l hl m hm request response request' response' hcreated hcreated' hfor hfor'
    obtain ⟨i, hi, d, hd, hintent, hid, hdid⟩ :=
      (names_of_history h l hl request response hcreated).stored
    obtain ⟨j, hj, e, he, hintent', hid', hdid'⟩ :=
      (names_of_history h m hm request' response' hcreated').stored
    obtain ⟨hmodule, hkey⟩ := IntentRequest.isFor_iff.mp hfor
    obtain ⟨hmodule', hkey'⟩ := IntentRequest.isFor_iff.mp hfor'
    rw [hmodule, hkey] at hi
    rw [hmodule', hkey'] at hj
    have hij : i = j := Ledger.eq_of_mem_intentsOf hi hj
    subst hij
    have hde : d = e := Table.eq_of_clash hd he (Or.inr (hintent.trans hintent'.symm))
    exact ⟨hid.trans hid'.symm, hdid.trans (hde ▸ hdid'.symm)⟩
  · rintro ⟨l, hl, hanswers⟩
    obtain ⟨⟨request, response⟩, hcreated, hfor⟩ := (Option.any_eq_true _ _).mp hanswers
    obtain ⟨i, hi, -⟩ := (names_of_history h l hl request response hcreated).stored
    obtain ⟨hmodule, hkey⟩ := IntentRequest.isFor_iff.mp hfor
    rw [hmodule, hkey] at hi
    have hpos := List.length_pos_of_mem hi
    have hle : (s.ledger.intentsOf module key).length ≤ 1 := Ledger.length_intentsOf_le
    rw [creations_of_history h module key]
    omega
  · intro n request now phase i stored hc hfor hi hwritten hne hfree
    obtain ⟨hmodule, hkey⟩ := IntentRequest.isFor_iff.mp hfor
    rw [← hmodule, ← hkey] at hi
    refine conflicting_of_stored hreach hc hi fun hdigest ↦ hne ?_
    obtain ⟨-, -, -, hstored, -⟩ := hwritten.fields
    have hencode : request.encode S.externals = stored.encode S.externals :=
      hfree.eq_of_digestText _ (by simp) (by simp) (hdigest.symm.trans hstored)
    exact IntentRequest.encode_injective S.externals hencode

/-- Another request under the key of the first invitation. -/
private def otherInvitation : CreateRequest :=
  .organizationInvitation { Deployment.request with correlationId := "c2" }

/-- The first invitation is stored and repeated, and a call with another request under its key is
still reading. -/
theorem idempotent_of_history_repeated :
    ∃ ls s, (system Deployment.setting).History ls s ∧
      (∃ l ∈ ls, answersKey "org" "k1" l = true ∧ createsKey "org" "k1" l = false) ∧
      (∃ c ∈ s.calls, ∃ request, c = .create request Deployment.midnight .reading ∧
        request.isFor "org" "k1" = true ∧ request ≠ Deployment.intentRequest) ∧
      Idempotent Deployment.setting ls s "org" "k1" := by
  obtain ⟨ls, hls⟩ := Deployment.exists_history_queued
  obtain ⟨ms, s, hms, -, hP⟩ := exists_labels_of_execAll
    (Deployment.repeatCreate 1 ++ [.create (some "org") otherInvitation Deployment.midnight])
    (fun ms s ↦ (ms.any fun l ↦ answersKey "org" "k1" l && !createsKey "org" "k1" l) &&
      (Plugin.intentRequestOf Deployment.setting (some "org") otherInvitation
        Deployment.midnight).toOption.any fun request ↦
          decide (.create request Deployment.midnight .reading ∈ s.calls) &&
            (request.isFor "org" "k1" && decide (request ≠ Deployment.intentRequest)))
    hls (by decide +kernel)
  rw [Bool.and_eq_true, List.any_eq_true, Option.any_eq_true] at hP
  obtain ⟨⟨l, hl, hreplays⟩, request, -, hother⟩ := hP
  rw [Bool.and_eq_true, Bool.not_eq_true'] at hreplays
  rw [Bool.and_eq_true, Bool.and_eq_true, decide_eq_true_eq, decide_eq_true_eq] at hother
  obtain ⟨hreading, hfor, hne⟩ := hother
  exact ⟨_, s, hms, ⟨l, List.mem_append_right _ hl, hreplays⟩,
    ⟨_, hreading, request, rfl, hfor, hne⟩, idempotent_of_history hms "org" "k1"⟩

end NotificationLedger

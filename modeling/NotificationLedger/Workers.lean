import NotificationLedger.Interleaving

/-!
# Dispatch workers

A worker holds the work it claimed until it hands the request over, and then waits for the answer.
Its work is always backed by a committed attempt (`backed_of_reachable`), and across any
interleaving no attempt is handed over or answered twice: its id is fresh when it is claimed, is in
the custody of one worker, and leaves that worker once.

## Custody

An attempt passes through three hands: the ledger has it when it is claimed, a worker has it until
the request leaves, and the provider has it until the worker is answered. The invariant says that an
id is in one of these hands and in no other. A claim appends an attempt whose id no row had, so
nobody carries it yet; every other step moves it on or lets go of it.
-/

namespace NotificationLedger

open Outcome

/-- The work a dispatch call carries. -/
def Call.work? : Call → Option DispatchWork
  | .dispatch _ (.claimed work) | .dispatch _ (.awaiting work) => some work
  | _ => none

/-- The attempt a dispatch call has claimed and not handed over. -/
def Call.pending? : Call → Option String
  | .dispatch _ (.claimed work) => some work.claim.attemptId
  | _ => none

/-- The request a step hands to the email provider. -/
def handedOver? : Command × Reply → Option DispatchRequest
  | (_, .handedOver request) => some request
  | _ => none

/-- A work belongs to a stored attempt and its request carries that attempt's ids. -/
structure Backed (L : Ledger) (work : DispatchWork) : Prop where
  attempt : ∃ a ∈ L.attempts.rows, a.id = work.claim.attemptId ∧
    a.deliveryId = work.claim.deliveryId ∧ a.functionRunId = work.claim.runId
  request : work.request.deliveryId = work.claim.deliveryId ∧
    work.request.attemptId = work.claim.attemptId ∧ work.request.runId = work.claim.runId ∧
    work.request.idempotencyKey = work.claim.attemptId

/-- A request carries the ids of a stored attempt. -/
def Stored (L : Ledger) (request : DispatchRequest) : Prop :=
  ∃ a ∈ L.attempts.rows, a.id = request.attemptId ∧ a.deliveryId = request.deliveryId ∧
    a.functionRunId = request.runId ∧ a.id = request.idempotencyKey

variable {S : Setting} {s s' : System} {command : Command} {reply : Reply} {L L' : Ledger}
  {work : DispatchWork}

theorem Stored.extends {request : DispatchRequest} (h : Stored L request)
    (hext : L.Extends L') : Stored L' request := by
  obtain ⟨a, ha, hid, hdelivery, hrun, hkey⟩ := h
  obtain ⟨b, hb, hident⟩ := hext.exists_attempt ha
  simp only [Attempt.identity, Prod.mk.injEq] at hident
  exact ⟨b, hb, hident.1.trans hid, hident.2.1.trans hdelivery, hident.2.2.2.1.trans hrun,
    hident.1.trans hkey⟩

theorem Backed.stored (h : Backed L work) : Stored L work.request := by
  obtain ⟨a, ha, hid, hdelivery, hrun⟩ := h.attempt
  obtain ⟨hd, ha', hr, hk⟩ := h.request
  exact ⟨a, ha, hid.trans ha'.symm, hdelivery.trans hd.symm, hrun.trans hr.symm,
    hid.trans hk.symm⟩

theorem Backed.extends (h : Backed L work) (hext : L.Extends L') : Backed L' work := by
  obtain ⟨a, ha, hid, hdelivery, hrun⟩ := h.attempt
  obtain ⟨b, hb, hident⟩ := hext.exists_attempt ha
  simp only [Attempt.identity, Prod.mk.injEq] at hident
  refine ⟨⟨b, hb, hident.1.trans hid, hident.2.1.trans hdelivery, ?_⟩, h.request⟩
  exact hident.2.2.2.1.trans hrun

theorem Runtime.of_requestOf {protector : SnapshotProtector} {row : Runtime.DueRow}
    {claim : DispatchClaim} {request : DispatchRequest}
    (h : Runtime.requestOf protector row claim = .ok request) :
    request.deliveryId = claim.deliveryId ∧ request.attemptId = claim.attemptId ∧
      request.runId = claim.runId ∧ request.idempotencyKey = claim.attemptId := by
  simp only [Runtime.requestOf] at h
  obtain ⟨_, -, h⟩ := bind_eq_ok.mp h
  obtain ⟨_, -, h⟩ := bind_eq_ok.mp h
  obtain ⟨_, -, h⟩ := bind_eq_ok.mp h
  obtain ⟨_, -, h⟩ := bind_eq_ok.mp h
  rw [pure_eq_ok] at h
  subst h
  exact ⟨rfl, rfl, rfl, rfl⟩

/-- A claim stores a fresh attempt that backs its work. -/
theorem backed_of_claimRow {X : Externals} {protector : SnapshotProtector} {row : Runtime.DueRow}
    {now : DateTime} (hd : L.deliveries.get? row.delivery.id = some row.delivery)
    (hclaimable : row.delivery.status.isClaimable = true)
    (h : Runtime.claimRow X protector L row now = .ok (L', work)) :
    Backed L' work ∧ ∀ a ∈ L.attempts.rows, a.id ≠ work.claim.attemptId := by
  obtain ⟨-, -, hrequest, hclaim, L₁, hins, rfl⟩ :=
    (Runtime.claimRow_eq_ok hd hclaimable).mp h
  obtain ⟨-, T, hT, rfl⟩ := Ledger.insertAttempt_eq_some.mp hins
  obtain ⟨hfresh, hrows⟩ := Table.insert?_eq_some.mp hT
  rw [hclaim]
  refine ⟨⟨⟨_, (Table.mem_insert? hT).mpr (Or.inr rfl), ?_⟩, ?_⟩, ?_⟩
  · rw [hclaim]
    exact ⟨rfl, rfl, rfl⟩
  · rw [hclaim]
    exact Runtime.of_requestOf hrequest
  · exact fun a ha hid ↦ hfresh a ha (Or.inl hid)

/-! ## Work is backed

The work a call carries was claimed, and its attempt is stored with the ids and the run of the
claim. -/

/-- A work carried after a step was carried before it, or is claimed by it. -/
theorem work_of_stepped (hholds : s.Holds) (h : System.Stepped S s command s' reply) {c : Call}
    (hc : c ∈ s'.calls) (hwork : c.work? = some work) :
    (∃ c₀ ∈ s.calls, c₀.work? = some work) ∨ Backed s'.ledger work := by
  cases h with
  | createRefused | dispatchRefused | receiptRefused | lifecycleRefused | retryRefused
  | receiptRecorded | lifecycleRecorded | retryScheduled => exact Or.inl ⟨c, hc, hwork⟩
  | createStarted | dispatchStarted =>
    rcases List.mem_append.mp hc with hc | hc
    · exact Or.inl ⟨c, hc, hwork⟩
    · rw [List.mem_singleton.mp hc] at hwork
      cases hwork
  | abandoned =>
    rcases List.mem_or_eq_of_mem_set hc with hc | rfl
    · exact Or.inl ⟨c, hc, hwork⟩
    · cases hwork
  | advanced hi h =>
    rcases List.mem_or_eq_of_mem_set hc with hc | rfl
    · exact Or.inl ⟨c, hc, hwork⟩
    have hmem := List.mem_of_getElem? hi
    cases h with
    | claimed h =>
      obtain ⟨hget, hdue, -⟩ := hholds _ _ hmem
      cases hwork
      exact Or.inr (backed_of_claimRow hget (Runtime.isDue_iff.mp hdue).1 h).1
    | handedOver => exact Or.inl ⟨_, hmem, hwork⟩
    | _ => cases hwork

/-- **Every work in progress is backed.** -/
theorem backed_of_reachable (h : (system S).Reachable s) :
    ∀ c ∈ s.calls, ∀ work, c.work? = some work → Backed s.ledger work := by
  refine Lts.Reachable.invariant (S := system S)
    (I := fun s ↦ ∀ c ∈ s.calls, ∀ work, c.work? = some work → Backed s.ledger work) ?_ ?_ h
  · rintro s rfl c hc
    cases hc
  · intro s l s' hreach hbacked hstep c hc work hwork
    rcases work_of_stepped (System.holds_of_reachable hreach) (System.stepped_of_exec hstep) hc
      hwork with ⟨c₀, hc₀, hwork₀⟩ | hnew
    · exact (hbacked c₀ hc₀ work hwork₀).extends (extends_of_step hreach hstep)
    · exact hnew

/-! ## Custody -/

/-- The attempts that `left` reads off the history are out of the hands of every call, and no two
calls hold one attempt; `held` is the attempt a call holds. -/
structure Custody (left : Command × Reply → Option String) (held : Call → Option String)
    (ls : List (Command × Reply)) (s : System) : Prop where
  once : (ls.filterMap left ++ s.calls.filterMap held).Nodup
  stored : ∀ id ∈ ls.filterMap left ++ s.calls.filterMap held,
    ∃ a ∈ s.ledger.attempts.rows, a.id = id

section Custody

variable {left : Command × Reply → Option String} {held : Call → Option String}
  {ls : List (Command × Reply)} {l : Command × Reply} {i : ℕ} {c c' : Call}

/-- A call in a list, and the list after it is replaced. -/
theorem split_set {calls : List Call} (h : calls[i]? = some c) (c' : Call) :
    ∃ pre post, calls = pre ++ c :: post ∧ calls.set i c' = pre ++ c' :: post := by
  obtain ⟨hlt, hget⟩ := List.getElem?_eq_some_iff.mp h
  have hset : ∃ pre post, calls = pre ++ calls[i] :: post ∧ pre.length = i ∧
      calls.set i c' = pre ++ c' :: post := List.exists_of_set hlt
  obtain ⟨pre, post, hsplit, -, hset⟩ := hset
  exact ⟨pre, post, hget ▸ hsplit, hset⟩

private theorem filterMap_snoc (h : left l = none) :
    (ls ++ [l]).filterMap left = ls.filterMap left := by
  rw [List.filterMap_append, List.filterMap_cons_none h, List.filterMap_nil, List.append_nil]

/-- A call that lets go of its attempt, or keeps it, adds none. -/
theorem held_set_sublist {calls : List Call} (hi : calls[i]? = some c)
    (hheld : held c' = none ∨ held c' = held c) :
    ((calls.set i c').filterMap held).Sublist (calls.filterMap held) := by
  obtain ⟨pre, post, hsplit, hset⟩ := split_set hi c'
  rw [hset, hsplit, List.filterMap_append, List.filterMap_append]
  refine (List.Sublist.refl _).append ?_
  rcases hheld with hnone | hsame
  · rw [List.filterMap_cons_none hnone]
    exact (List.sublist_cons_self c post).filterMap _
  · rw [List.filterMap_cons, List.filterMap_cons, hsame]

theorem held_append_sublist {calls : List Call} (hheld : held c = none) :
    ((calls ++ [c]).filterMap held).Sublist (calls.filterMap held) := by
  rw [List.filterMap_append, List.filterMap_cons_none hheld, List.filterMap_nil, List.append_nil]

private theorem exists_stored {id : String} (hext : s.ledger.Extends s'.ledger)
    (h : ∃ a ∈ s.ledger.attempts.rows, a.id = id) :
    ∃ a ∈ s'.ledger.attempts.rows, a.id = id := by
  obtain ⟨a, ha, hid⟩ := h
  obtain ⟨b, hb, hident⟩ := hext.exists_attempt ha
  exact ⟨b, hb, (congrArg Prod.fst hident).trans hid⟩

/-- A step that takes no attempt into custody. -/
private theorem Custody.keep (h : Custody left held ls s) (hl : left l = none)
    (hsub : (s'.calls.filterMap held).Sublist (s.calls.filterMap held))
    (hext : s.ledger.Extends s'.ledger) : Custody left held (ls ++ [l]) s' := by
  have hboth := (List.Sublist.refl (ls.filterMap left)).append hsub
  refine ⟨?_, ?_⟩
  · rw [filterMap_snoc hl]
    exact hboth.nodup h.once
  · rw [filterMap_snoc hl]
    exact fun id hid ↦ exists_stored hext (h.stored id (hboth.subset hid))

/-- A step that takes a fresh attempt into custody. -/
private theorem Custody.take (h : Custody left held ls s) (hl : left l = none)
    (hi : s.calls[i]? = some c) (hc : held c = none) {id : String} (hc' : held c' = some id)
    (hfresh : ∀ a ∈ s.ledger.attempts.rows, a.id ≠ id) (hext : s.ledger.Extends L)
    (hnew : ∃ a ∈ L.attempts.rows, a.id = id) :
    Custody left held (ls ++ [l]) { ledger := L, calls := s.calls.set i c' } := by
  obtain ⟨pre, post, hsplit, hset⟩ := split_set hi c'
  have hperm : ((ls ++ [l]).filterMap left ++ (s.calls.set i c').filterMap held).Perm
      (id :: (ls.filterMap left ++ s.calls.filterMap held)) := by
    rw [filterMap_snoc hl, hset, hsplit, List.filterMap_append, List.filterMap_append,
      List.filterMap_cons_some hc', List.filterMap_cons_none hc, ← List.append_assoc,
      ← List.append_assoc]
    exact List.perm_middle
  refine ⟨?_, ?_⟩
  · rw [hperm.nodup_iff, List.nodup_cons]
    refine ⟨fun hmem ↦ ?_, h.once⟩
    obtain ⟨a, ha, hid⟩ := h.stored id hmem
    exact hfresh a ha hid
  · intro x hx
    rcases List.mem_cons.mp (hperm.mem_iff.mp hx) with rfl | hx
    · exact hnew
    · obtain ⟨a, ha, hid⟩ := h.stored x hx
      obtain ⟨b, hb, hident⟩ := hext.exists_attempt ha
      exact ⟨b, hb, (congrArg Prod.fst hident).trans hid⟩

/-- A step in which an attempt leaves the hands of its call. -/
private theorem Custody.leave (h : Custody left held ls s) {id : String} (hl : left l = some id)
    (hi : s.calls[i]? = some c) (hc : held c = some id) (hc' : held c' = none)
    (hext : s.ledger.Extends L) :
    Custody left held (ls ++ [l]) { ledger := L, calls := s.calls.set i c' } := by
  obtain ⟨pre, post, hsplit, hset⟩ := split_set hi c'
  have hperm : ((ls ++ [l]).filterMap left ++ (s.calls.set i c').filterMap held).Perm
      (ls.filterMap left ++ s.calls.filterMap held) := by
    rw [hset, hsplit, List.filterMap_append, List.filterMap_append, List.filterMap_append,
      List.filterMap_cons_none hc', List.filterMap_cons_some hc, List.filterMap_cons_some hl,
      List.filterMap_nil, List.append_assoc, List.singleton_append]
    exact List.perm_middle.symm.append_left _
  refine ⟨hperm.nodup_iff.mpr h.once, ?_⟩
  intro x hx
  obtain ⟨a, ha, hid⟩ := h.stored x (hperm.mem_iff.mp hx)
  obtain ⟨b, hb, hident⟩ := hext.exists_attempt ha
  exact ⟨b, hb, (congrArg Prod.fst hident).trans hid⟩

end Custody

/-! ## No attempt is handed over or answered twice

Custody twice over: of what is not handed over yet, and of what is not answered yet. An id that has
left is never taken in again, since a claim takes a fresh one. -/

def handedOverAttempt? (l : Command × Reply) : Option String :=
  (handedOver? l).map DispatchRequest.attemptId

/-- The attempt whose answer a step records or loses. -/
def answeredAttempt? : Command × Reply → Option String
  | (_, .dispatched claim _) => some claim.attemptId
  | _ => none

/-- The attempt of the work a call carries. -/
def Call.carried? (c : Call) : Option String := c.work?.map fun work ↦ work.claim.attemptId

section Invariants

variable {ls : List (Command × Reply)}

/-- The two custodies differ only in when an attempt leaves: when it is handed over, or answered. -/
private theorem custody_step {left : Command × Reply → Option String}
    {held : Call → Option String} {l : Command × Reply} (hreach : (system S).Reachable s)
    (h : Custody left held ls s) (hstep : (system S).Step s l s')
    (hleft : ∀ command reply, (∀ request, reply ≠ .handedOver request) →
      (∀ claim result, reply ≠ .dispatched claim result) → left (command, reply) = none)
    (hidle : ∀ c : Call, c.work? = none → held c = none)
    (hclaimed : ∀ now work, held (.dispatch now (.claimed work)) = some work.claim.attemptId)
    (hhanded : ∀ now work command, Backed s.ledger work →
      (left (command, .handedOver work.request) = some work.claim.attemptId ∧
        held (.dispatch now (.awaiting work)) = none) ∨
      (left (command, .handedOver work.request) = none ∧
        held (.dispatch now (.awaiting work)) = held (.dispatch now (.claimed work))))
    (hanswered : ∀ now work command result,
      left (command, .dispatched work.claim result) = held (.dispatch now (.awaiting work)) ∧
        (held (.dispatch now (.awaiting work)) = none ∨
          held (.dispatch now (.awaiting work)) = some work.claim.attemptId)) :
    Custody left held (ls ++ [l]) s' := by
  obtain ⟨command, reply⟩ := l
  have hext : s.ledger.Extends s'.ledger := extends_of_step hreach hstep
  have hbacked := backed_of_reachable hreach
  cases System.stepped_of_exec hstep with
  | createRefused | dispatchRefused | receiptRefused | lifecycleRefused | retryRefused
  | receiptRecorded | lifecycleRecorded | retryScheduled =>
    exact h.keep (hleft _ _ (by simp) (by simp)) (List.Sublist.refl _) hext
  | createStarted | dispatchStarted =>
    exact h.keep (hleft _ _ (by simp) (by simp)) (held_append_sublist (hidle _ rfl)) hext
  | abandoned hi =>
    exact h.keep (hleft _ _ (by simp) (by simp))
      (held_set_sublist hi (Or.inl (hidle _ rfl))) hext
  | advanced hi hadvance =>
    have hmem := List.mem_of_getElem? hi
    cases hadvance with
    | claimed hclaim =>
      obtain ⟨hget, hdue, -⟩ := System.holds_of_reachable hreach _ _ hmem
      obtain ⟨hnew, hfresh⟩ := backed_of_claimRow hget (Runtime.isDue_iff.mp hdue).1 hclaim
      obtain ⟨a, ha, hid, -⟩ := hnew.attempt
      exact h.take (hleft _ _ (by simp) (by simp)) hi (hidle _ rfl) (hclaimed _ _) hfresh hext
        ⟨a, ha, hid⟩
    | @handedOver now work =>
      rcases hhanded now work _ (hbacked _ hmem work rfl) with ⟨hl, hc'⟩ | ⟨hl, hc'⟩
      · exact h.leave hl hi (hclaimed now work) hc' hext
      · exact h.keep hl (held_set_sublist hi (Or.inr hc')) hext
    | @lost now work result =>
      obtain ⟨hl, hnone | hsome⟩ := hanswered now work (.advance _ (.answered result)) _
      · exact h.keep (hl.trans hnone) (held_set_sublist hi (Or.inl (hidle _ rfl))) hext
      · exact h.leave (hl.trans hsome) hi hsome (hidle _ rfl) hext
    | @recorded now work result =>
      obtain ⟨hl, hnone | hsome⟩ := hanswered now work (.advance _ (.answered result)) _
      · exact h.keep (hl.trans hnone) (held_set_sublist hi (Or.inl (hidle _ rfl))) hext
      · exact h.leave (hl.trans hsome) hi hsome (hidle _ rfl) hext
    | _ =>
      exact h.keep (hleft _ _ (by simp) (by simp))
        (held_set_sublist hi (Or.inl (hidle _ rfl))) hext

private theorem custody_empty {left : Command × Reply → Option String}
    {held : Call → Option String} : Custody left held [] System.empty :=
  ⟨List.nodup_nil, fun id hid ↦ by cases hid⟩

/-- **No attempt is handed over twice.** -/
theorem handedOver_custody (h : (system S).History ls s) :
    Custody handedOverAttempt? Call.pending? ls s := by
  refine Lts.History.invariant (S := system S) ?_ ?_ h
  · rintro s rfl
    exact custody_empty
  · intro ls s l s' hls hcustody hstep
    refine custody_step ⟨ls, hls⟩ hcustody hstep ?_ ?_ (fun _ _ ↦ rfl) ?_ ?_
    · intro command reply hreply _
      cases reply with
      | handedOver request => exact absurd rfl (hreply request)
      | _ => rfl
    · intro c hc
      unfold Call.pending?
      split
      · cases hc
      · rfl
    · intro now work command hbacked
      exact Or.inl ⟨congrArg some hbacked.request.2.1, rfl⟩
    · exact fun _ _ _ _ ↦ ⟨rfl, Or.inl rfl⟩

/-- **No attempt is answered twice.** -/
theorem answered_custody (h : (system S).History ls s) :
    Custody answeredAttempt? Call.carried? ls s := by
  refine Lts.History.invariant (S := system S) ?_ ?_ h
  · rintro s rfl
    exact custody_empty
  · intro ls s l s' hls hcustody hstep
    refine custody_step ⟨ls, hls⟩ hcustody hstep ?_ ?_ (fun _ _ ↦ rfl) ?_ ?_
    · intro command reply _ hreply
      cases reply with
      | dispatched claim result => exact absurd rfl (hreply claim result)
      | _ => rfl
    · intro c hc
      rw [Call.carried?, hc]
      rfl
    · exact fun _ _ _ _ ↦ Or.inr ⟨rfl, rfl⟩
    · exact fun _ _ _ _ ↦ ⟨rfl, Or.inr rfl⟩

/-- Every request that was handed over is stored. -/
theorem stored_of_history (h : (system S).History ls s) :
    ∀ r ∈ ls.filterMap handedOver?, Stored s.ledger r := by
  refine Lts.History.invariant (S := system S)
    (I := fun ls s ↦ ∀ r ∈ ls.filterMap handedOver?, Stored s.ledger r) ?_ ?_ h
  · rintro s rfl r hr
    cases hr
  · rintro ls s ⟨command, reply⟩ s' hls hstored hstep r hr
    have hreach : (system S).Reachable s := ⟨ls, hls⟩
    rw [List.filterMap_append, List.mem_append] at hr
    rcases hr with hr | hr
    · exact (hstored r hr).extends (extends_of_step hreach hstep)
    · obtain ⟨l, hl, hreq⟩ := List.mem_filterMap.mp hr
      rw [List.mem_singleton] at hl
      subst hl
      cases System.stepped_of_exec hstep with
      | advanced hi hadvance =>
        cases hadvance with
        | handedOver =>
          cases hreq
          exact (backed_of_reachable hreach _ (List.mem_of_getElem? hi) _ rfl).stored
        | _ => cases hreq
      | _ => cases hreq

end Invariants

end NotificationLedger

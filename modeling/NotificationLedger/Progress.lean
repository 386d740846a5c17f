import Mathlib
import NotificationLedger.Locks
import NotificationLedger.Retries
import NotificationLedger.Foundation.Progress

/-!
# No call is stuck

Calls wait for each other in two ways only: a prepared create call for the advisory lock of its key,
and an operation of one transaction for a row that a dispatch call has selected. A receipt, a
lifecycle observation and a manual retry all select their delivery before they test it, so they wait
also where they will be refused.

## Why nothing waits forever

A call that another one waits for never waits itself: the holder of an advisory lock has its recheck
and its write before it, the holder of a row its claim, and the answer of a provider finds its rows
unlocked (`unlocked_of_awaiting`). So there is no cycle of waits. Each step of a call lowers the
number of steps before it (`System.remaining`), and every schedule of the calls in progress ends
with all of them answered.

A call takes its next step whatever its environment gives it: any render, any nonces, any result of
the provider.
-/

namespace NotificationLedger

open Outcome Public

/-! ## What a call waits for

The inputs that fit a phase, the lock a call takes next, and the number of steps before it. -/

/-- The input fits the phase of the call. -/
inductive Call.Accepts : Call → Input → Prop
  | reading {request : IntentRequest} {now : DateTime} :
      Accepts (.create request now .reading) .proceed
  | rendering {request : IntentRequest} {now : DateTime}
      (result : Except RuntimeFailure RenderedTemplate) :
      Accepts (.create request now .rendering) (.rendered result)
  | prepared {request : IntentRequest} {now : DateTime} {intent : IntentPersistence} :
      Accepts (.create request now (.prepared intent)) .proceed
  | locked {request : IntentRequest} {now : DateTime} {intent : IntentPersistence} :
      Accepts (.create request now (.locked intent)) .proceed
  | writing {request : IntentRequest} {now : DateTime} {intent : IntentPersistence}
      (nonces : Nonces) : Accepts (.create request now (.writing intent)) (.nonces nonces)
  | selecting {now : DateTime} : Accepts (.dispatch now .selecting) .proceed
  | selected {now : DateTime} {row : Runtime.DueRow} :
      Accepts (.dispatch now (.selected row)) .proceed
  | claimed {now : DateTime} {work : DispatchWork} :
      Accepts (.dispatch now (.claimed work)) .proceed
  | awaiting {now : DateTime} {work : DispatchWork} (result : Plugin.DispatchResult) :
      Accepts (.dispatch now (.awaiting work)) (.answered result)

/-- The text of the advisory lock a call takes next. -/
def Call.wanted? : Call → Option String
  | .create _ _ (.prepared intent) => some (lockText intent.source.moduleId intent.idempotencyKey)
  | _ => none

/-- The steps a call still has before it at most. -/
def Call.remaining : Call → ℕ
  | .create _ _ .reading => 5
  | .create _ _ .rendering => 4
  | .create _ _ (.prepared _) => 3
  | .create _ _ (.locked _) => 2
  | .create _ _ (.writing _) => 1
  | .dispatch _ .selecting => 4
  | .dispatch _ (.selected _) => 3
  | .dispatch _ (.claimed _) => 2
  | .dispatch _ (.awaiting _) => 1
  | .returned => 0

def System.remaining (s : System) : ℕ := (s.calls.map Call.remaining).sum

/-- The next step of a call in progress. -/
def isAdvance (l : Command × Reply) : Prop := ∃ n input, l.1 = .advance n input

variable {S : Setting} {s s' : System} {n : ℕ} {c : Call} {input : Input}

/-- A call that moves on to a phase without a row lock leaves no new lock behind. -/
theorem rowLock_of_set {c' : Call} (hlock : c'.rowLock? = none) {id : String}
    (hid : id ∈ (s.calls.set n c').filterMap Call.rowLock?) :
    ∃ j now row, s.calls[j]? = some (.dispatch now (.selected row)) ∧ j ≠ n ∧
      row.delivery.id = id := by
  obtain ⟨d, hd, hdlock⟩ := List.mem_filterMap.mp hid
  obtain ⟨now, row, rfl, rfl⟩ := of_rowLock hdlock
  obtain ⟨j, hj⟩ := List.mem_iff_getElem?.mp hd
  rw [List.getElem?_set] at hj
  split at hj
  · split at hj
    · cases hj
      cases hlock
    · cases hj
  · next hne => exact ⟨j, now, row, hj, fun h ↦ hne h.symm, rfl⟩

/-! ## The next step of a call

Each phase in turn, for whatever the environment gives it. A step that commits must not change a row
another call has locked, which a new intent cannot and the answer of a provider does not. -/

section Advancing

variable {c' : Call} {L' : Ledger} {reply : Reply}

/-- A step of a call is taken when it changes no row that another call has locked. -/
theorem exists_step_of_step (hc : s.calls[n]? = some c)
    (h : c.step S s.ledger s.calls input = some (L', c', reply))
    (hlocks : ∀ id ∈ (s.calls.set n c').filterMap Call.rowLock?,
      L'.deliveries.get? id = s.ledger.deliveries.get? id) :
    (system S).Step s (.advance n input, reply) { ledger := L', calls := s.calls.set n c' } := by
  have hcommit := commit_eq (s := s) hlocks
  change s.exec S (.advance n input) = some (_, _)
  simp only [System.exec, hc, h, bind, Option.bind_some, hcommit, pure]

/-- Writing a new intent changes no delivery that exists. -/
theorem get?_of_writeIntent {X : Externals} {protector : SnapshotProtector} {L : Ledger}
    {intent : IntentPersistence} {nonces : Nonces} {now : DateTime}
    {receipt : TransactionalIntentReceipt} {id : String} {d : Delivery}
    (hd : L.deliveries.get? id = some d)
    (h : writeIntent X protector L intent nonces now = .ok (L', receipt)) :
    L'.deliveries.get? id = some d := by
  rcases (frame_of_persistIntent (persistIntent_of_writeIntent h)).2 with hsame | ⟨intentId, hins⟩
  · rw [hsame, hd]
  · rw [Table.get?_insert? hins, if_neg, hd]
    obtain ⟨hmem, hid⟩ := Table.get?_eq_some.mp hd
    intro hclash
    exact (Table.insert?_eq_some.mp hins).1 d hmem (Or.inl (hid.trans hclash.symm))

/-- A call whose lock is free takes its next step, whatever the environment gives it. -/
theorem exists_step_of_free (hreach : (system S).Reachable s) (hc : s.calls[n]? = some c)
    (haccepts : c.Accepts input)
    (hfree : ∀ t ∈ c.wanted?, t ∉ s.calls.filterMap Call.lockText?) :
    ∃ reply s', (system S).Step s (.advance n input, reply) s' := by
  have hunchanged : ∀ {c' : Call} {reply : Reply},
      c.step S s.ledger s.calls input = some (s.ledger, c', reply) →
      ∃ reply s', (system S).Step s (.advance n input, reply) s' :=
    fun h ↦ ⟨_, _, step_of_unchanged hc h⟩
  cases haccepts with
  | @reading request now =>
    cases h : findReplay S.externals s.ledger request now with
    | error e => exact hunchanged (by simp only [Call.step, Call.stepCreate, h]; rfl)
    | ok found =>
      cases found <;> exact hunchanged (by simp only [Call.step, Call.stepCreate, h]; rfl)
  | @rendering request now result =>
    cases result with
    | error failure => exact hunchanged rfl
    | ok rendered =>
      cases h : prepareIntent S.externals request rendered now <;>
        exact hunchanged (by simp only [Call.step, Call.stepCreate, h]; rfl)
  | @prepared request now intent =>
    exact hunchanged (by simp only [Call.step, Call.stepCreate, if_neg (hfree _ rfl)]; rfl)
  | @locked request now intent =>
    cases h : recheckIntent s.ledger intent with
    | error e => exact hunchanged (by simp only [Call.step, Call.stepCreate, h]; rfl)
    | ok found =>
      cases found <;> exact hunchanged (by simp only [Call.step, Call.stepCreate, h]; rfl)
  | @writing request now intent nonces =>
    cases h : writeIntent S.externals S.protector s.ledger intent nonces now with
    | error e => exact hunchanged (by simp only [Call.step, Call.stepCreate, h]; rfl)
    | ok written =>
      refine ⟨_, _, exists_step_of_step hc
        (by simp only [Call.step, Call.stepCreate, h]; rfl) fun id hid ↦ ?_⟩
      obtain ⟨j, now', row, hj, -, rfl⟩ := rowLock_of_set rfl hid
      obtain ⟨hget, -⟩ := System.holds_of_reachable hreach _ _ (List.mem_of_getElem? hj)
      rw [hget, get?_of_writeIntent hget h]
  | @selecting now =>
    cases h : Runtime.selectDue s.ledger
        (fun id ↦ decide (id ∈ s.calls.filterMap Call.rowLock?)) now <;>
      exact hunchanged (by simp only [Call.step, Call.stepDispatch, h]; rfl)
  | @selected now row =>
    cases h : Runtime.claimRow S.externals S.protector s.ledger row now with
    | error e => exact hunchanged (by simp only [Call.step, Call.stepDispatch, h]; rfl)
    | ok claimed =>
      obtain ⟨L', work⟩ := claimed
      refine ⟨_, _, exists_step_of_step hc
        (by simp only [Call.step, Call.stepDispatch, h]; rfl) fun id hid ↦ ?_⟩
      obtain ⟨j, now', row', hj, hjn, rfl⟩ := rowLock_of_set rfl hid
      obtain ⟨hget, hdue, -⟩ := System.holds_of_reachable hreach _ _ (List.mem_of_getElem? hc)
      obtain ⟨-, -, -, -, L₁, -, rfl⟩ :=
        (Runtime.claimRow_eq_ok hget (Runtime.isDue_iff.mp hdue).1).mp h
      refine Table.get?_update_of_not (Delivery.keeps_claimed _ _) fun b hb ↦
        decide_eq_false fun hbid ↦ hjn ?_
      -- the other call would have locked the same row
      have hsame : row'.delivery.id = row.delivery.id :=
        (Table.get?_eq_some.mp hb).2.symm.trans hbid
      exact eq_of_filterMap_nodup (rowLocks_nodup hreach) hj hc (congrArg some hsame) rfl
  | claimed => exact hunchanged rfl
  | @awaiting now work result =>
    cases h : Plugin.applyDispatch S s.ledger work.claim
        (Plugin.observedOf S work.claim now result) with
    | error e => exact hunchanged (by simp only [Call.step, Call.stepDispatch, h]; rfl)
    | ok L' =>
      refine ⟨_, _, exists_step_of_step hc
        (by simp only [Call.step, Call.stepDispatch, h]; rfl) fun id hid ↦ ?_⟩
      obtain ⟨j, now', row, hj, -, rfl⟩ := rowLock_of_set rfl hid
      have hheld : row.delivery.id ∈ s.calls.filterMap Call.rowLock? :=
        List.mem_filterMap.mpr ⟨_, List.mem_of_getElem? hj, rfl⟩
      exact Events.get?_of_apply h (unlocked_of_awaiting hreach hc result _ hheld)

/-- **Only a prepared create call waits**, for the lock of its key; every other call in progress
takes its next step, whatever the environment gives it. -/
theorem advances_iff (hreach : (system S).Reachable s) (hc : s.calls[n]? = some c)
    (haccepts : c.Accepts input) :
    (∃ reply s', (system S).Step s (.advance n input, reply) s') ↔
      ∀ t ∈ c.wanted?, t ∉ s.calls.filterMap Call.lockText? := by
  refine ⟨?_, exists_step_of_free hreach hc haccepts⟩
  rintro ⟨reply, s', hstep⟩ t ht
  cases haccepts with
  | @prepared request now intent =>
    cases ht
    cases System.stepped_of_exec hstep with
    | advanced hc' hadvance =>
      cases hc.symm.trans hc'
      cases hadvance with
      | locked h => exact h
  | _ => cases ht

end Advancing

/-- The worker that waits for the provider takes any answer. -/
theorem advances_iff_awaiting : ∃ reply s', (system Deployment.setting).Step Deployment.awaiting
    (.advance 1 (.answered Deployment.acceptance), reply) s' :=
  (advances_iff Deployment.reachable_awaiting
    (c := .dispatch Deployment.midnight (.awaiting Deployment.work)) rfl (.awaiting _)).mpr
    fun t ht ↦ by cases ht

/-! ## Operations of one transaction

Waiting is a relation between a command and a call: the call has selected a delivery that the
command selects too. The step relation of the system decides the same by the list of locks. -/

theorem Call.exists_accepts (h : c ≠ .returned) : ∃ input, c.Accepts input := by
  cases c with
  | returned => exact absurd rfl h
  | create request now phase =>
    cases phase with
    | reading => exact ⟨_, .reading⟩
    | rendering => exact ⟨_, .rendering (.error (.foreign ""))⟩
    | prepared => exact ⟨_, .prepared⟩
    | locked => exact ⟨_, .locked⟩
    | writing => exact ⟨_, .writing ⟨[], [], [], []⟩⟩
  | dispatch now phase =>
    cases phase with
    | selecting => exact ⟨_, .selecting⟩
    | selected => exact ⟨_, .selected⟩
    | claimed => exact ⟨_, .claimed⟩
    | awaiting => exact ⟨_, .awaiting .unsupportedMessage⟩

/-- A step of a call brings it closer to its answer. -/
theorem Call.Advance.remaining_lt {L L' : Ledger} {calls : List Call} {c' : Call} {reply : Reply}
    (h : Call.Advance S L calls c input L' c' reply) : c'.remaining < c.remaining := by
  cases h <;> simp only [Call.remaining] <;> decide

theorem sum_remaining_set {calls : List Call} {c' : Call} (hc : calls[n]? = some c)
    (h : c'.remaining < c.remaining) :
    ((calls.set n c').map Call.remaining).sum < (calls.map Call.remaining).sum := by
  obtain ⟨pre, post, hsplit, hset⟩ := split_set hc c'
  rw [hset, hsplit]
  simp only [List.map_append, List.map_cons, List.sum_append, List.sum_cons]
  omega

theorem advances_lower : (system S).Lowers isAdvance System.remaining := by
  rintro s ⟨command, reply⟩ s' - ⟨n, input, rfl⟩ hstep
  cases System.stepped_of_exec hstep with
  | advanced hc hadvance => exact sum_remaining_set hc hadvance.remaining_lt

/-- **There is no deadlock.** While a call has not returned, some call takes a step. -/
theorem advances_progress :
    (system S).Progresses isAdvance fun s ↦ ∀ c ∈ s.calls, c = .returned := by
  intro s hreach hopen
  have hstep : ∀ {n : ℕ} {c : Call}, s.calls[n]? = some c → c ≠ .returned →
      (∀ t ∈ c.wanted?, t ∉ s.calls.filterMap Call.lockText?) →
      ∃ l t, isAdvance l ∧ (system S).Step s l t := by
    intro n c hc hreturned hfree
    obtain ⟨input, haccepts⟩ := Call.exists_accepts hreturned
    obtain ⟨reply, s', hstep⟩ := exists_step_of_free hreach hc haccepts hfree
    exact ⟨_, s', ⟨n, input, rfl⟩, hstep⟩
  by_cases hwanted : ∃ c ∈ s.calls, c ≠ .returned ∧ c.wanted? = none
  · obtain ⟨c, hc, hreturned, hnone⟩ := hwanted
    obtain ⟨n, hn⟩ := List.mem_iff_getElem?.mp hc
    exact hstep hn hreturned fun t ht ↦ by rw [hnone] at ht; cases ht
  · -- whoever holds a lock has not returned and wants none
    simp only [not_forall] at hopen
    obtain ⟨c, hc, hreturned⟩ := hopen
    obtain ⟨n, hn⟩ := List.mem_iff_getElem?.mp hc
    refine hstep hn hreturned fun t _ hmem ↦ hwanted ?_
    obtain ⟨c', hc', hlock⟩ := List.mem_filterMap.mp hmem
    refine ⟨c', hc', fun h ↦ ?_, ?_⟩
    · rw [h] at hlock
      cases hlock
    · unfold Call.lockText? at hlock
      split at hlock
      · rfl
      · rfl
      · cases hlock

/-- **Every schedule ends with all calls answered.** However the calls in progress have been
scheduled, their schedule can be continued until each of them has returned, and no schedule is
longer than the steps they had before them. -/
theorem completes_within {ms : List (Command × Reply)} (hreach : (system S).Reachable s)
    (hrun : (system S).Run s ms s') (hadvance : ∀ l ∈ ms, isAdvance l) :
    ∃ ks t, (system S).Run s' ks t ∧ (∀ l ∈ ks, isAdvance l) ∧ (∀ c ∈ t.calls, c = .returned) ∧
      ms.length + ks.length ≤ s.remaining := by
  have hreach' := hreach.run hrun
  obtain ⟨ks, t, hks, hadvance', hreturned⟩ := advances_progress.exists_run advances_lower hreach'
  refine ⟨ks, t, hks, hadvance', hreturned, ?_⟩
  have hfirst := hrun.length_add_le advances_lower hreach hadvance
  have hsecond := hks.length_add_le advances_lower hreach' hadvance'
  omega

/-- Two steps of a create call have been taken, to its lock and past the recheck; the write is
left. -/
theorem completes_within_writing :
    ∃ s', (system Deployment.setting).Run Deployment.prepared
        ((Deployment.storing.take 2).zip [.pending, .pending]) s' ∧
      (∃ c ∈ s'.calls, c ≠ .returned) ∧
      ∃ ks t, (system Deployment.setting).Run s' ks t ∧ (∀ l ∈ ks, isAdvance l) ∧
        (∀ c ∈ t.calls, c = .returned) ∧
        ((Deployment.storing.take 2).zip [Reply.pending, .pending]).length + ks.length ≤
          Deployment.prepared.remaining := by
  have hrun : (system Deployment.setting).Run Deployment.prepared
      ((Deployment.storing.take 2).zip [.pending, .pending])
      { Deployment.prepared with
        calls := [.create Deployment.intentRequest Deployment.midnight
          (.writing Deployment.persistence)] } := run_of_execAll rfl
  refine ⟨_, hrun, ⟨_, List.mem_singleton_self _, fun h ↦ by cases h⟩, ?_⟩
  refine completes_within Deployment.reachable_prepared hrun fun l hl ↦ ?_
  rcases List.mem_cons.mp hl with rfl | hl
  · exact ⟨0, .proceed, rfl⟩
  · rw [List.mem_singleton.mp hl]
    exact ⟨0, .proceed, rfl⟩

end NotificationLedger

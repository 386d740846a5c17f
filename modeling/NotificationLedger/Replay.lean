import NotificationLedger.Observations
import NotificationLedger.Deployment

/-!
# Observations are applied exactly once

An observation consumes its id when it is applied, and a consumed id is never given back. Applying
the same observation again therefore finds its own digest and stops before any handler runs,
whatever has happened to the delivery since. A different observation under the same id finds a
digest that is not its own.
-/

namespace NotificationLedger

open Outcome Events

/-! ## Content -/

/-- The part of an envelope that its digest covers, apart from the id and the version. -/
def ObservationEnvelope.content (event : ObservationEnvelope) : String × String × String × Json :=
  (event.eventName, event.sourceModule, event.aggregateId, event.payload)

/-- The digest covers the content. -/
theorem content_eq_of_digestInput {event event' : ObservationEnvelope}
    (h : digestInput event = digestInput event') : event.content = event'.content := by
  simp only [digestInput, Json.obj.injEq, List.cons.injEq, Prod.mk.injEq, Json.str.injEq,
    true_and, and_true] at h
  obtain ⟨-, hname, -, hsource, haggregate, hpayload⟩ := h
  rw [ObservationEnvelope.content, ObservationEnvelope.content, haggregate, hname, hpayload,
    hsource]

/-- Two transactions record observations under one id. -/
def Repeats (t u : Transaction) : Prop :=
  ∃ event event', t = .observe event ∧ u = .observe event' ∧ event'.id = event.id

section Runs

variable {X : Externals} {protector : SnapshotProtector} {L L' M M' : Ledger}
  {event event' : ObservationEnvelope} {ts : List Transaction}

/-- A consumed id stays consumed by the content that consumed it. -/
theorem consumed_of_run (h : apply X L event = .ok L')
    (hrun : (transactions X protector).Run L' ts M) :
    ∃ c, M.consumedEvents.get? event.id = some c ∧ c.eventDigest = eventDigest X event := by
  obtain ⟨c, hc, hdigest⟩ := consumed_of_apply h
  exact ⟨c, (extends_of_run hrun).consumed hc, hdigest⟩

/-- What can still be applied under a consumed id changes nothing. -/
theorem eq_of_apply_repeated (h : apply X L event = .ok L')
    (hrun : (transactions X protector).Run L' ts M) (hid : event'.id = event.id)
    (h' : apply X M event' = .ok M') : M' = M := by
  obtain ⟨c, hc, -⟩ := consumed_of_run h hrun
  obtain ⟨-, -, ⟨_, -, -, hsame⟩ | ⟨hnone, -⟩⟩ := of_apply h'
  · exact hsame
  · rw [hid, hc] at hnone
    cases hnone

/-- **The same observation is accepted again**, without effect. -/
theorem apply_again (h : apply X L event = .ok L')
    (hrun : (transactions X protector).Run L' ts M) : apply X M event = .ok M := by
  obtain ⟨c, hc, hdigest⟩ := consumed_of_run h hrun
  obtain ⟨o, ho, -⟩ := of_apply h
  rw [apply_of_consumed ho hc (storable_of_apply h), if_pos hdigest]

/-- **Another observation under the same id is a conflict.** -/
theorem apply_conflicting {o : Observation} (h : apply X L event = .ok L')
    (hrun : (transactions X protector).Run L' ts M) (hid : event'.id = event.id)
    (hadmitted : observationOf X event' = .ok o) (hcontent : event'.content ≠ event.content)
    (hfree : CollisionFree X {digestInput event, digestInput event'}) :
    apply X M event' = .error replayedWithDifferentContent := by
  obtain ⟨c, hc, hdigest⟩ := consumed_of_run h hrun
  rw [← hid] at hc
  rw [apply_of_consumed hadmitted hc (hid ▸ storable_of_apply h), hdigest]
  refine if_neg fun heq ↦ hcontent (content_eq_of_digestInput ?_)
  exact (hfree.eq_of_digestText X (Set.mem_insert _ _) (Set.mem_insert_of_mem _ rfl) heq).symm

/-- The same observation, any number of times. -/
theorem run_replicate (h : apply X L event = .ok L')
    (hrun : (transactions X protector).Run L' ts M) (n : ℕ) :
    (transactions X protector).Run M (List.replicate n (.observe event)) M' ↔ M' = M := by
  induction n generalizing M' with
  | zero =>
    rw [List.replicate_zero]
    constructor
    · exact Lts.Run.eq_of_nil
    · rintro rfl
      exact .nil
  | succ n ih =>
    rw [List.replicate_succ']
    constructor
    · intro hreplay
      obtain ⟨K, hpre, hlast⟩ := hreplay.of_append
      rw [ih.mp hpre] at hlast
      exact eq_of_apply_repeated h hrun rfl hlast.of_singleton
    · rintro rfl
      exact (ih.mpr rfl).snoc (apply_again h hrun)

end Runs

/-! ## The main result -/

/-- How often an observation counts, over the runs of a deployment. -/
structure AppliedOnce (S : Setting) : Prop where
  /-- The same observation, applied again at any later time and any number of times. -/
  replayed : ∀ L L' M event ts, apply S.externals L event = .ok L' →
    (transactions S.externals S.protector).Run L' ts M → ∀ n M',
      (transactions S.externals S.protector).Run M (List.replicate n (.observe event)) M' ↔ M' = M
  /-- A run without some, or all, of its repeated observations. -/
  thinned : ∀ L M ts us, (transactions S.externals S.protector).Run L ts M →
    Lts.Thinned Repeats ts us → (transactions S.externals S.protector).Run L us M
  /-- Another observation under a consumed id. -/
  conflicting : ∀ L L' M event ts, apply S.externals L event = .ok L' →
    (transactions S.externals S.protector).Run L' ts M → ∀ event' o, event'.id = event.id →
      observationOf S.externals event' = .ok o → event'.content ≠ event.content →
      CollisionFree S.externals {digestInput event, digestInput event'} →
      apply S.externals M event' = .error replayedWithDifferentContent
  /-- A call whose observation cannot be applied. -/
  failed : ∀ s s' command reply event e, (system S).Step s (command, reply) s' →
    s.observation? S command = some event → apply S.externals s.ledger event = .error e →
    s'.ledger = s.ledger

/-- **Observations are applied exactly once.** -/
theorem appliedOnce (S : Setting) : AppliedOnce S where
  replayed L L' M event ts h hrun n M' := run_replicate h hrun n
  thinned L M ts us hrun hthinned := by
    refine hrun.thinned ?_ hthinned
    rintro _ _ ⟨event, event', rfl, rfl, hid⟩ t u v w ks hfirst hbetween hagain
    exact eq_of_apply_repeated hfirst hbetween hid hagain
  conflicting L L' M event ts h hrun event' o hid hadmitted hcontent hfree :=
    apply_conflicting h hrun hid hadmitted hcontent hfree
  failed s s' command reply event e hstep hevent herror := by
    rcases System.of_observation? hstep hevent with hok | ⟨hsame, -⟩
    · rw [herror] at hok
      cases hok
    · exact hsame

/-- A revocation, and another one under its id. -/
theorem appliedOnce_revoked :
    ∃ L, apply Deployment.setting.externals L (Deployment.revoked "o1") = .ok L ∧
      apply Deployment.setting.externals L { Deployment.revoked "o1" with aggregateId := "i2" } =
        .error replayedWithDifferentContent := by
  have hok : (apply Deployment.setting.externals Deployment.awaiting.ledger
      (Deployment.revoked "o1")).isOk = true := by decide +kernel
  obtain ⟨L, hL⟩ := exists_of_isOk hok
  have honce := appliedOnce Deployment.setting
  refine ⟨L, ?_, ?_⟩
  · exact ((honce.replayed _ _ _ _ _ hL .nil 1 L).mpr rfl).of_singleton
  · refine honce.conflicting _ _ _ _ _ hL .nil _ (.lifecycle ?_) rfl ?_ ?_ ?_
    · exact { invitationId := "i1", organizationId := "o1", observedAt := Deployment.midnight }
    · exact observationOf_eq_ok.mpr ⟨⟨rfl, by decide, by decide⟩, by decide,
        OrganizationInvitationLifecycle.decode_encode _ _⟩
    · intro h
      exact absurd (congrArg (fun c ↦ c.2.2.1) h) (by decide)
    · have hdigest : eventDigest Deployment.setting.externals (Deployment.revoked "o1") ≠
          eventDigest Deployment.setting.externals
            { Deployment.revoked "o1" with aggregateId := "i2" } := by decide +kernel
      exact CollisionFree.pair _ hdigest

end NotificationLedger

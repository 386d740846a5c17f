import NotificationLedger.Deployment

/-!
# Terminal deliveries are frozen

Once a delivery is delivered, failed or of unknown fate, no transaction changes its row or appends
an attempt to it. A late dispatch observation may still fill in columns of an old attempt.
-/

namespace NotificationLedger

open Outcome

/-- No event moves a final delivery. -/
theorem Course.Step.frozen {X : Externals} {c c' : Course} {e : Course.Event}
    (h : Course.Step X c e c') (hfinal : c.delivery.status.isFinal = true) :
    c'.delivery = c.delivery ∧
      c'.attempts.map Attempt.identity = c.attempts.map Attempt.identity := by
  cases h with
  | claim hclaimable =>
    rw [DeliveryStatus.isFinal_of_isClaimable hclaimable] at hfinal
    cases hfinal
  | resolve hattempting =>
    rw [hattempting] at hfinal
    cases hfinal
  | absorb => exact ⟨rfl, Course.map_rewrite _ fun _ ↦ rfl⟩
  | settle hopen =>
    rcases hopen with hs | hs <;> rw [hs] at hfinal <;> cases hfinal
  | cancel hclaimable =>
    rw [DeliveryStatus.isFinal_of_isClaimable hclaimable] at hfinal
    cases hfinal
  | reschedule hscheduled =>
    rw [hscheduled] at hfinal
    cases hfinal

variable {X : Externals} {protector : SnapshotProtector} {L L' : Ledger}

/-- The delivery row and the identities of its attempts are these. -/
def Ledger.Shows (L : Ledger) (d : Delivery)
    (attempts : List (String × String × ℕ × String × String)) : Prop :=
  L.deliveries.get? d.id = some d ∧ (L.attemptsOf d.id).map Attempt.identity = attempts

/-- **One transaction leaves a final delivery alone.** -/
theorem Ledger.Shows.transaction {d : Delivery}
    {attempts : List (String × String × ℕ × String × String)} {t : Transaction}
    (hlinked : Linked X L) (hfinal : d.status.isFinal = true) (h : L.Shows d attempts)
    (hrun : t.run X protector L = .ok L') : L'.Shows d attempts := by
  obtain ⟨hget, hattempts⟩ := h
  have hcourse : L.course d.id = some ⟨d, L.attemptsOf d.id⟩ :=
    Ledger.course_eq_some.mpr ⟨hget, rfl⟩
  rcases course_step d.id hlinked hrun with hsame | ⟨e, -, hstep⟩
  · obtain ⟨hget', hattempts'⟩ := Ledger.course_eq_some.mp (hsame.trans hcourse)
    exact ⟨hget', hattempts' ▸ hattempts⟩
  · rw [hcourse] at hstep
    generalize hafter : L'.course d.id = after at hstep
    cases hstep with
    | step hstep =>
      obtain ⟨hsame, hidentity⟩ := hstep.frozen hfinal
      obtain ⟨hget', hattempts'⟩ := Ledger.course_eq_some.mp hafter
      refine ⟨hget'.trans (congrArg some hsame), ?_⟩
      rw [← hattempts', hidentity]
      exact hattempts

/-- **Terminal deliveries are frozen.** Whatever transactions follow, every column of a terminal
delivery stays as it is, and no attempt is appended to it. -/
theorem terminal_delivery_frozen {ts : List Transaction} {d : Delivery}
    (hreach : (transactions X protector).Reachable L) (hd : d ∈ L.deliveries.rows)
    (hterminal : d.status = .delivered ∨ d.status = .failed ∨ d.status = .deliveryUnknown)
    (hrun : (transactions X protector).Run L ts L') :
    L'.deliveries.get? d.id = some d ∧
      (L'.attemptsOf d.id).map Attempt.identity = (L.attemptsOf d.id).map Attempt.identity := by
  have hfinal : d.status.isFinal = true := by
    rcases hterminal with hs | hs | hs <;> rw [hs] <;> rfl
  have hpreserved := hrun.preserves
    (I := fun L' ↦ L'.Shows d ((L.attemptsOf d.id).map Attempt.identity))
    (fun L t L' hreach hshows hstep ↦
      hshows.transaction (linked_of_reachable hreach) hfinal hstep)
    hreach ⟨Table.get?_of_mem hd, rfl⟩
  exact hpreserved.2

/-- The provider rejects the message, then the organization revokes the invitation. -/
theorem terminal_delivery_frozen_revoked :
    ∃ L L' d, d ∈ L.deliveries.rows ∧ d.status = .failed ∧
      (transactions Deployment.setting.externals Deployment.setting.protector).Run L
        [.observe (Deployment.revoked "o1")] L' ∧
      L'.deliveries.get? d.id = some d ∧
      (L'.attemptsOf d.id).map Attempt.identity = (L.attemptsOf d.id).map Attempt.identity := by
  obtain ⟨L, hreach, hL⟩ := Deployment.exists_ledger [.advance 1 (.answered .invalidDispatch)]
    (fun L ↦ (L.deliveries.rows.any fun d ↦ decide (d.status = .failed)) &&
      (Events.apply Deployment.setting.externals L (Deployment.revoked "o1")).isOk)
    (by decide +kernel)
  rw [Bool.and_eq_true, List.any_eq_true] at hL
  obtain ⟨⟨d, hd, hfailed⟩, hok⟩ := hL
  obtain ⟨L', hL'⟩ := exists_of_isOk hok
  have hrun : (transactions Deployment.setting.externals Deployment.setting.protector).Run L
      [.observe (Deployment.revoked "o1")] L' := Lts.Run.single hL'
  have hstatus : d.status = .failed := of_decide_eq_true hfailed
  exact ⟨L, L', d, hd, hstatus, hrun,
    terminal_delivery_frozen hreach hd (Or.inr (Or.inl hstatus)) hrun⟩

end NotificationLedger

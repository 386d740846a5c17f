import NotificationLedger.Foundation.Run

/-!
# Runs that end

A measure that the steps of some kind lower bounds every run of that kind. If in addition a step of
that kind is possible wherever the goal has not been reached, then every such run can be continued
to the goal within the bound, and one that cannot be continued has reached it.
-/

universe u v

namespace Lts

variable {σ : Type u} {α : Type v} {S : Lts σ α} {Kind : α → Prop} {measure : σ → ℕ}

/-- The steps of this kind lower the measure. -/
def Lowers (S : Lts σ α) (Kind : α → Prop) (measure : σ → ℕ) : Prop :=
  ∀ s l t, S.Reachable s → Kind l → S.Step s l t → measure t < measure s

/-- Wherever the goal has not been reached, a step of this kind is possible. -/
def Progresses (S : Lts σ α) (Kind : α → Prop) (Goal : σ → Prop) : Prop :=
  ∀ s, S.Reachable s → ¬Goal s → ∃ l t, Kind l ∧ S.Step s l t

/-- **The bound rule.** -/
theorem Run.length_add_le (hlowers : S.Lowers Kind measure) {s t : σ} {ls : List α}
    (hs : S.Reachable s) (h : S.Run s ls t) (hkind : ∀ l ∈ ls, Kind l) :
    ls.length + measure t ≤ measure s := by
  induction h with
  | nil => exact Nat.le_of_eq (Nat.zero_add _)
  | snoc hrun hstep ih =>
    rw [List.forall_mem_append, List.forall_mem_singleton] at hkind
    have hsofar := ih hkind.1
    have hlower := hlowers _ _ _ (hs.run hrun) hkind.2 hstep
    rw [List.length_append, List.length_singleton]
    omega

/-- **The completion rule.** -/
theorem Progresses.exists_run {Goal : σ → Prop} (hlowers : S.Lowers Kind measure)
    (hprogresses : S.Progresses Kind Goal) {s : σ} (hs : S.Reachable s) :
    ∃ ls t, S.Run s ls t ∧ (∀ l ∈ ls, Kind l) ∧ Goal t := by
  generalize hn : measure s = n
  induction n using Nat.strongRecOn generalizing s with
  | ind n ih =>
    by_cases hgoal : Goal s
    · exact ⟨[], s, .nil, fun l hl ↦ absurd hl List.not_mem_nil, hgoal⟩
    · obtain ⟨l, t, hl, hstep⟩ := hprogresses s hs hgoal
      have hlower := hlowers s l t hs hl hstep
      obtain ⟨ls, u, hrun, hkind, hu⟩ := ih (measure t) (hn ▸ hlower) (hs.step hstep) rfl
      refine ⟨[l] ++ ls, u, (Run.single hstep).append hrun, ?_, hu⟩
      rw [List.forall_mem_append, List.forall_mem_singleton]
      exact ⟨hl, hkind⟩

end Lts

import Mathlib.Data.List.Induction

/-!
# Labelled transition systems and their runs

A transition system here is a set of start states and a labelled step relation. A *history* is the
list of labels taken from a start state, oldest first, so that a statement about "an earlier step"
is a statement about a prefix of a list and needs no ghost state inside the system itself.

Three rules carry every induction over runs: `History.invariant` for a property of the state and
the labels so far, `Reachable.invariant` for a property of the state alone, and `Run.preserves`
for a property that, once true, later steps cannot break. `Simulation` transports reachability
from a concrete system to an abstract one, allowing concrete steps the abstraction does not see.
-/

universe u v w x

/-- A labelled transition system with a set of start states. -/
structure Lts (σ : Type u) (α : Type v) where
  /-- The states a run may begin in. -/
  Start : σ → Prop
  /-- The labelled steps. -/
  Step : σ → α → σ → Prop

namespace Lts

variable {σ : Type u} {α : Type v} {S : Lts σ α}

/-- `Run S s ls t`: taking the steps `ls` in order leads from `s` to `t`. -/
inductive Run (S : Lts σ α) (s : σ) : List α → σ → Prop
  | nil : Run S s [] s
  | snoc {ls : List α} {l : α} {t u : σ} : Run S s ls t → S.Step t l u → Run S s (ls ++ [l]) u

/-- The labels `ls` lead from some start state to `s`. -/
def History (S : Lts σ α) (ls : List α) (s : σ) : Prop := ∃ s₀, S.Start s₀ ∧ S.Run s₀ ls s

/-- Some history leads to `s`. -/
def Reachable (S : Lts σ α) (s : σ) : Prop := ∃ ls, S.History ls s

/-! ## Composing and splitting runs -/

theorem Run.single {s t : σ} {l : α} (h : S.Step s l t) : S.Run s [l] t := by
  have hrun : S.Run s ([] ++ [l]) t := Run.nil.snoc h
  rwa [List.nil_append] at hrun

theorem Run.append {s t u : σ} {ls ms : List α} (h : S.Run s ls t) (h' : S.Run t ms u) :
    S.Run s (ls ++ ms) u := by
  induction h' with
  | nil => rwa [List.append_nil]
  | snoc _ hstep ih =>
    rw [← List.append_assoc]
    exact ih.snoc hstep

/-- A run over a concatenation passes through an intermediate state. -/
theorem Run.of_append {s u : σ} {ls : List α} : ∀ {ms : List α}, S.Run s (ls ++ ms) u →
    ∃ t, S.Run s ls t ∧ S.Run t ms u := by
  intro ms
  induction ms using List.reverseRecOn generalizing u with
  | nil =>
    intro h
    rw [List.append_nil] at h
    exact ⟨u, h, Run.nil⟩
  | append_singleton ms m ih =>
    intro h
    rw [← List.append_assoc] at h
    generalize hls : ls ++ ms ++ [m] = ks at h
    cases h with
    | nil => simp at hls
    | snoc hrun hstep =>
      obtain ⟨hpre, hm⟩ := List.append_inj' hls rfl
      rw [List.singleton_inj] at hm
      subst hpre hm
      obtain ⟨t, hl, hr⟩ := ih hrun
      exact ⟨t, hl, hr.snoc hstep⟩

theorem Run.eq_of_nil {s t : σ} (h : S.Run s [] t) : t = s := by
  generalize hnil : ([] : List α) = ks at h
  cases h with
  | nil => rfl
  | snoc _ _ => simp at hnil

theorem Run.of_singleton {s t : σ} {l : α} (h : S.Run s [l] t) : S.Step s l t := by
  generalize hls : [l] = ks at h
  cases h with
  | nil => simp at hls
  | @snoc ls l' t' _ hrun hstep =>
    have hlen : ls = [] := by
      have := congrArg List.length hls
      simp only [List.length_cons, List.length_nil, List.length_append] at this
      exact List.eq_nil_of_length_eq_zero (by omega)
    subst hlen
    rw [List.nil_append, List.singleton_inj] at hls
    subst hls
    exact hrun.eq_of_nil ▸ hstep

/-- A run whose labels contain `l` takes an `l`-step somewhere in the middle. -/
theorem Run.of_append_cons {s u : σ} {ls ms : List α} {l : α} (h : S.Run s (ls ++ l :: ms) u) :
    ∃ t t', S.Run s ls t ∧ S.Step t l t' ∧ S.Run t' ms u := by
  rw [← List.singleton_append] at h
  obtain ⟨t, hpre, hrest⟩ := h.of_append
  obtain ⟨t', hone, hpost⟩ := hrest.of_append
  exact ⟨t, t', hpre, hone.of_singleton, hpost⟩

theorem History.nil {s : σ} (h : S.Start s) : S.History [] s := ⟨s, h, Run.nil⟩

theorem History.append {s t : σ} {ls ms : List α} (h : S.History ls s) (h' : S.Run s ms t) :
    S.History (ls ++ ms) t := by
  obtain ⟨s₀, hs₀, hrun⟩ := h
  exact ⟨s₀, hs₀, hrun.append h'⟩

theorem History.snoc {s t : σ} {ls : List α} {l : α} (h : S.History ls s) (h' : S.Step s l t) :
    S.History (ls ++ [l]) t := h.append (Run.single h')

/-- A history that contains `l` takes an `l`-step out of a reachable state. -/
theorem History.of_append_cons {s : σ} {ls ms : List α} {l : α}
    (h : S.History (ls ++ l :: ms) s) :
    ∃ t t', S.History ls t ∧ S.Step t l t' ∧ S.Run t' ms s := by
  obtain ⟨s₀, hs₀, hrun⟩ := h
  obtain ⟨t, t', hpre, hstep, hpost⟩ := hrun.of_append_cons
  exact ⟨t, t', ⟨s₀, hs₀, hpre⟩, hstep, hpost⟩

theorem Reachable.step {s t : σ} {l : α} (h : S.Reachable s) (h' : S.Step s l t) :
    S.Reachable t := by
  obtain ⟨ls, hls⟩ := h
  exact ⟨ls ++ [l], hls.snoc h'⟩

theorem Reachable.run {s t : σ} {ms : List α} (h : S.Reachable s) (h' : S.Run s ms t) :
    S.Reachable t := by
  obtain ⟨ls, hls⟩ := h
  exact ⟨ls ++ ms, hls.append h'⟩

/-! ## Invariants -/

/-- **The history rule.** A property of the labels so far and the current state that holds at the
start and survives one step holds along every history. -/
theorem History.invariant {I : List α → σ → Prop} (hstart : ∀ s, S.Start s → I [] s)
    (hstep : ∀ ls s l t, S.History ls s → I ls s → S.Step s l t → I (ls ++ [l]) t)
    {ls : List α} {s : σ} (h : S.History ls s) : I ls s := by
  obtain ⟨s₀, hs₀, hrun⟩ := h
  induction hrun with
  | nil => exact hstart s₀ hs₀
  | snoc hpre hl ih => exact hstep _ _ _ _ ⟨s₀, hs₀, hpre⟩ ih hl

/-- **The state rule.** -/
theorem Reachable.invariant {I : σ → Prop} (hstart : ∀ s, S.Start s → I s)
    (hstep : ∀ s l t, S.Reachable s → I s → S.Step s l t → I t) {s : σ} (h : S.Reachable s) :
    I s := by
  obtain ⟨ls, hls⟩ := h
  exact hls.invariant (I := fun _ s ↦ I s) hstart
    fun ls s l t hh hi hl ↦ hstep s l t ⟨ls, hh⟩ hi hl

/-- **The stability rule.** What holds in a reachable state and survives one step still holds after
any further steps. -/
theorem Run.preserves {I : σ → Prop} (hstep : ∀ s l t, S.Reachable s → I s → S.Step s l t → I t)
    {s t : σ} {ls : List α} (h : S.Run s ls t) (hs : S.Reachable s) (hi : I s) :
    S.Reachable t ∧ I t := by
  induction h with
  | nil => exact ⟨hs, hi⟩
  | snoc _ hl ih => exact ⟨ih.1.step hl, hstep _ _ _ ih.1 ih.2 hl⟩

/-! ## Restriction -/

/-- The system without the steps that violate `C`, a condition on the label and the state before. -/
def restrict (S : Lts σ α) (C : σ → α → Prop) : Lts σ α where
  Start := S.Start
  Step s l t := S.Step s l t ∧ C s l

section Restrict

variable {C : σ → α → Prop} {s t : σ} {ls : List α}

/-- A run whose labels all satisfy the condition. -/
theorem Run.restrict (h : S.Run s ls t) (hC : ∀ l ∈ ls, ∀ s, C s l) :
    (S.restrict C).Run s ls t := by
  induction h with
  | nil => exact .nil
  | snoc _ hstep ih =>
    rw [List.forall_mem_append, List.forall_mem_singleton] at hC
    exact (ih hC.1).snoc ⟨hstep, hC.2 _⟩

theorem Run.of_restrict (h : (S.restrict C).Run s ls t) : S.Run s ls t := by
  induction h with
  | nil => exact .nil
  | snoc _ hstep ih => exact ih.snoc hstep.1

theorem History.of_restrict (h : (S.restrict C).History ls s) : S.History ls s := by
  obtain ⟨s₀, hs₀, hrun⟩ := h
  exact ⟨s₀, hs₀, hrun.of_restrict⟩

theorem Reachable.of_restrict (h : (S.restrict C).Reachable s) : S.Reachable s := by
  obtain ⟨ls, hls⟩ := h
  exact ⟨ls, hls.of_restrict⟩

end Restrict

/-! ## Repeated labels -/

/-- `Thinned R ls ms`: the labels `ms` are `ls` without some of the labels that repeat an earlier
one in the sense of `R`. -/
inductive Thinned (R : α → α → Prop) : List α → List α → Prop
  | nil : Thinned R [] []
  | keep {ls ms : List α} (l : α) (h : Thinned R ls ms) : Thinned R (ls ++ [l]) (ms ++ [l])
  | drop {ls ms : List α} {k l : α} (h : Thinned R ls ms) (hk : k ∈ ls) (hR : R k l) :
      Thinned R (ls ++ [l]) ms

/-- **The repetition rule.** When a repeated step changes nothing, a run leads to the same state
without its repeated steps. -/
theorem Run.thinned {R : α → α → Prop} (hrepeat : ∀ k l, R k l → ∀ t u v w ks, S.Step t k u →
    S.Run u ks v → S.Step v l w → w = v) {s t : σ} {ls ms : List α} (h : S.Run s ls t)
    (hthinned : Thinned R ls ms) : S.Run s ms t := by
  induction hthinned generalizing t with
  | nil => exact h
  | keep l _ ih =>
    obtain ⟨u, hpre, hlast⟩ := h.of_append
    exact (ih hpre).snoc hlast.of_singleton
  | drop _ hk hR ih =>
    obtain ⟨u, hpre, hlast⟩ := h.of_append
    obtain ⟨before, after, rfl⟩ := List.append_of_mem hk
    obtain ⟨v, w, -, hfirst, hbetween⟩ := hpre.of_append_cons
    rw [hrepeat _ _ hR v w u t after hfirst hbetween hlast.of_singleton]
    exact ih hpre

/-! ## Simulation -/

/-- `T` simulates `S` through `R`: every step out of a reachable `S`-state is matched by one
`T`-step, or by none when the abstraction does not see it. -/
structure Simulation {τ : Type w} {β : Type x} (S : Lts σ α) (T : Lts τ β)
    (R : σ → τ → Prop) : Prop where
  /-- Start states are related to start states. -/
  start : ∀ s, S.Start s → ∃ t, T.Start t ∧ R s t
  /-- One step is matched by at most one. -/
  step : ∀ s l s' t, S.Reachable s → R s t → S.Step s l s' →
    R s' t ∨ ∃ m t', T.Step t m t' ∧ R s' t'

/-- Every reachable state is related to a reachable state of the simulating system. -/
theorem Simulation.reachable {τ : Type w} {β : Type x} {T : Lts τ β} {R : σ → τ → Prop}
    (sim : Simulation S T R) {s : σ} (h : S.Reachable s) : ∃ t, T.Reachable t ∧ R s t := by
  refine Reachable.invariant (I := fun s ↦ ∃ t, T.Reachable t ∧ R s t) ?_ ?_ h
  · intro s hs
    obtain ⟨t, ht, hr⟩ := sim.start s hs
    exact ⟨t, ⟨[], History.nil ht⟩, hr⟩
  · rintro s l s' hs ⟨t, ht, hr⟩ hl
    rcases sim.step s l s' t hs hr hl with hr' | ⟨m, t', hm, hr'⟩
    · exact ⟨t, ht, hr'⟩
    · exact ⟨t', ht.step hm, hr'⟩

end Lts

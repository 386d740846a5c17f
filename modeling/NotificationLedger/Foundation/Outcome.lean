import Mathlib.Data.List.Forall2
import Mathlib.Tactic.Common

/-!
# Fallible computations

Rules for computations in `Except ε`. Programs are written with two guards, `ensure` for a
condition and `require` for a value that must exist, so that a success can be read backwards as a
conjunction (`bind_eq_ok`, `ensure_eq_ok`, `require_eq_ok`) and a failure can be bounded
compositionally (`Raises`).
-/

universe u v w

namespace Outcome

variable {ε : Type u} {α : Type v} {β : Type v}

/-- Fails with `e` unless `c` holds. -/
def ensure (c : Prop) [Decidable c] (e : ε) : Except ε PUnit.{v + 1} :=
  if c then .ok ⟨⟩ else .error e

/-- The value of `o`, or the failure `e`. -/
def require (o : Option α) (e : ε) : Except ε α :=
  match o with
  | some a => .ok a
  | none => .error e

/-! ## Reading a success backwards -/

theorem bind_eq_ok {m : Except ε α} {f : α → Except ε β} {b : β} :
    (m >>= f) = .ok b ↔ ∃ a, m = .ok a ∧ f a = .ok b := by
  cases m with
  | error e => simp [bind, Except.bind]
  | ok a => simp [bind, Except.bind]

theorem pure_eq_ok {a b : α} : (pure a : Except ε α) = .ok b ↔ a = b := by
  simp [pure, Except.pure]

theorem ok_bind {a : α} {f : α → Except ε β} : ((.ok a : Except ε α) >>= f) = f a := rfl

theorem error_bind {e : ε} {f : α → Except ε β} :
    ((.error e : Except ε α) >>= f) = .error e := rfl

theorem ensure_eq_ok {c : Prop} [Decidable c] {e : ε} {x : PUnit.{v + 1}} :
    ensure c e = .ok x ↔ c := by
  unfold ensure
  split <;> simp [*]

theorem require_eq_ok {o : Option α} {e : ε} {a : α} : require o e = .ok a ↔ o = some a := by
  cases o <;> simp [require]

/-- The guard lets the continuation run exactly when its condition holds. -/
theorem ensure_bind_eq_ok {c : Prop} [Decidable c] {e : ε} {f : PUnit.{v + 1} → Except ε β}
    {b : β} : (ensure c e >>= f) = .ok b ↔ c ∧ f ⟨⟩ = .ok b := by
  rw [bind_eq_ok]
  constructor
  · rintro ⟨⟨⟩, hc, hf⟩
    exact ⟨ensure_eq_ok.mp hc, hf⟩
  · rintro ⟨hc, hf⟩
    exact ⟨⟨⟩, ensure_eq_ok.mpr hc, hf⟩

theorem ensure_of {c : Prop} [Decidable c] {e : ε} (h : c) :
    ensure c e = (.ok ⟨⟩ : Except ε PUnit.{v + 1}) := if_pos h

theorem ensure_of_not {c : Prop} [Decidable c] {e : ε} (h : ¬c) :
    ensure c e = (.error e : Except ε PUnit.{v + 1}) := if_neg h

theorem require_some {a : α} {e : ε} : require (some a) e = .ok a := rfl

theorem mapError_eq_ok {δ : Type w} {g : ε → δ} {m : Except ε α} {a : α} :
    m.mapError g = .ok a ↔ m = .ok a := by
  cases m <;> simp [Except.mapError]

theorem toOption_eq_some {m : Except ε α} {a : α} : m.toOption = some a ↔ m = .ok a := by
  cases m <;> simp [Except.toOption]

/-- The computation fails, and with `e`. -/
def failsWith [DecidableEq ε] (m : Except ε α) (e : ε) : Bool :=
  match m with
  | .error e' => decide (e' = e)
  | .ok _ => false

theorem failsWith_iff [DecidableEq ε] {m : Except ε α} {e : ε} :
    failsWith m e = true ↔ m = .error e := by
  cases m <;> simp [failsWith]

theorem exists_of_isOk {m : Except ε α} (h : m.isOk = true) : ∃ a, m = .ok a := by
  cases m with
  | error e => cases h
  | ok a => exact ⟨a, rfl⟩

/-- A traversal succeeds when it succeeds at every element. -/
theorem exists_mapM {f : α → Except ε β} {as : List α} (h : ∀ a ∈ as, ∃ b, f a = .ok b) :
    ∃ bs, as.mapM f = .ok bs := by
  induction as with
  | nil => exact ⟨[], rfl⟩
  | cons a as ih =>
    rw [List.forall_mem_cons] at h
    obtain ⟨b, hb⟩ := h.1
    obtain ⟨bs, hbs⟩ := ih h.2
    refine ⟨b :: bs, ?_⟩
    rw [List.mapM_cons, hb, ok_bind, hbs]
    rfl

/-- A traversal that succeeds has succeeded at every element, in order. -/
theorem forall₂_of_mapM {f : α → Except ε β} {as : List α} {bs : List β}
    (h : as.mapM f = .ok bs) : List.Forall₂ (fun a b ↦ f a = .ok b) as bs := by
  induction as generalizing bs with
  | nil =>
    cases h
    exact .nil
  | cons a as ih =>
    rw [List.mapM_cons] at h
    obtain ⟨b, hb, h⟩ := bind_eq_ok.mp h
    obtain ⟨rest, hrest, h⟩ := bind_eq_ok.mp h
    rw [← pure_eq_ok.mp h]
    exact .cons hb (ih hrest)

/-- What related elements agree on, related lists agree on throughout. -/
theorem map_eq_of_forall₂ {γ : Type*} {R : α → β → Prop} {f : α → γ} {g : β → γ}
    (hR : ∀ a b, R a b → f a = g b) {as : List α} {bs : List β} (h : List.Forall₂ R as bs) :
    as.map f = bs.map g := by
  rw [← List.forall₂_eq_eq_eq, List.forall₂_map_left_iff, List.forall₂_map_right_iff]
  exact h.imp hR

/-! ## Bounding a failure -/

/-- Every failure of `m` satisfies `P`. -/
def Raises (m : Except ε α) (P : ε → Prop) : Prop := ∀ e, m = .error e → P e

variable {P : ε → Prop}

theorem raises_ok {a : α} : Raises (.ok a : Except ε α) P := by
  intro e h
  cases h

theorem raises_pure {a : α} : Raises (pure a : Except ε α) P := raises_ok

theorem raises_error {e : ε} (h : P e) : Raises (.error e : Except ε α) P := by
  intro e' he
  cases he
  exact h

theorem raises_ensure {c : Prop} [Decidable c] {e : ε} (h : P e) :
    Raises (ensure c e : Except ε PUnit.{v + 1}) P := by
  unfold ensure
  split
  · exact raises_ok
  · exact raises_error h

theorem raises_require {o : Option α} {e : ε} (h : P e) : Raises (require o e) P := by
  cases o with
  | none => exact raises_error h
  | some a => exact raises_ok

/-- **The sequence rule for failures.** -/
theorem raises_bind {m : Except ε α} {f : α → Except ε β} (hm : Raises m P)
    (hf : ∀ a, Raises (f a) P) : Raises (m >>= f) P := by
  intro e h
  cases m with
  | error e' => exact hm e (by simpa [error_bind] using h)
  | ok a => exact hf a e h

end Outcome

import Mathlib.Data.List.Pairwise
import Mathlib.Data.Set.Defs
import Mathlib.Tactic.Common

/-!
# Tables with unique constraints

A relational table modelled as the list of its rows in insertion order, together with the proof
that no two rows violate a primary-key or unique constraint. A value of `Table` therefore *is* a
table the database could hold: insertion fails instead of producing a clash, and an update must be
given as a function that leaves every constrained column alone.

`Clash` is the disjunction of all constraints of a row type, so that one relation covers a primary
key, a unique column and a unique group of columns alike.

## Updates by key

An update maps the rows and must keep every constrained column, which is its only proof obligation;
the lookups of an updated table are then those of the table, mapped (`Table.get?_update`). No
operation deletes rows, so there is none here.
-/

universe u v

/-- A row type with a primary key and its unique constraints. -/
class Keyed (α : Type u) (κ : outParam (Type v)) where
  /-- The primary key. -/
  key : α → κ
  /-- The two rows agree on all the columns of some constraint. -/
  Clash : α → α → Prop
  clash_symm : ∀ {a b : α}, Clash a b → Clash b a
  clash_of_key : ∀ {a b : α}, key a = key b → Clash a b
  decidableClash : ∀ a b : α, Decidable (Clash a b)

namespace Keyed

variable {α : Type u} {κ : Type v} [Keyed α κ]

instance (a b : α) : Decidable (Clash a b) := decidableClash a b

/-- An update that touches no constrained column. -/
def Keeps (f : α → α) : Prop := ∀ a, key (f a) = key a ∧ ∀ b, Clash (f a) b ↔ Clash a b

end Keyed

open Keyed

/-- The rows of a table, no two of which violate a constraint. -/
structure Table (α : Type u) {κ : Type v} [Keyed α κ] where
  /-- The rows in insertion order. -/
  rows : List α
  /-- No two rows violate a constraint. -/
  distinct : rows.Pairwise fun a b ↦ ¬Clash a b

namespace Table

variable {α : Type u} {κ : Type v} [Keyed α κ] {T : Table α}

/-- The table without rows. -/
def empty : Table α where
  rows := []
  distinct := List.Pairwise.nil

@[simp] theorem rows_empty : (empty : Table α).rows = [] := rfl

@[ext] theorem ext {T U : Table α} (h : T.rows = U.rows) : T = U := by
  cases T
  cases U
  cases h
  rfl

instance [DecidableEq α] : DecidableEq (Table α) := fun T U ↦
  decidable_of_iff (T.rows = U.rows) ⟨ext, congrArg rows⟩

/-- Two rows of one table that clash are the same row. -/
theorem eq_of_clash {a b : α} (ha : a ∈ T.rows) (hb : b ∈ T.rows) (h : Clash a b) : a = b := by
  by_contra hne
  have : Std.Symm fun a b : α ↦ ¬Clash a b := ⟨fun _ _ hab hba ↦ hab (clash_symm hba)⟩
  exact T.distinct.forall ha hb hne h

theorem eq_of_key {a b : α} (ha : a ∈ T.rows) (hb : b ∈ T.rows) (h : key a = key b) : a = b :=
  eq_of_clash ha hb (clash_of_key h)

theorem nodup_keys (T : Table α) : (T.rows.map key).Nodup := by
  rw [List.Nodup, List.pairwise_map]
  exact T.distinct.imp fun h hk ↦ h (clash_of_key hk)

/-- A filter that keeps clashing rows only keeps one. -/
theorem length_filter_le_one {p : α → Bool}
    (h : ∀ a ∈ T.rows, ∀ b ∈ T.rows, p a = true → p b = true → Clash a b) :
    (T.rows.filter p).length ≤ 1 := by
  have hdistinct : (T.rows.filter p).Pairwise fun a b ↦ ¬Clash a b := T.distinct.filter _
  cases hrows : T.rows.filter p with
  | nil => exact Nat.zero_le _
  | cons a rest =>
    cases rest with
    | nil => exact Nat.le_refl 1
    | cons b rest =>
      rw [hrows, List.pairwise_cons] at hdistinct
      have ha : a ∈ T.rows.filter p := hrows ▸ List.mem_cons_self
      have hb : b ∈ T.rows.filter p := hrows ▸ List.mem_cons_of_mem _ List.mem_cons_self
      rw [List.mem_filter] at ha hb
      exact absurd (h a ha.1 b hb.1 ha.2 hb.2) (hdistinct.1 b List.mem_cons_self)

/-! ## Insertion -/

/-- Inserts a row, unless it violates a constraint. -/
def insert? (T : Table α) (r : α) : Option (Table α) :=
  if h : ∀ a ∈ T.rows, ¬Clash a r then
    some
      { rows := T.rows ++ [r]
        distinct := by
          refine List.pairwise_append.mpr ⟨T.distinct, List.pairwise_singleton _ _, ?_⟩
          intro a ha b hb
          rw [List.mem_singleton] at hb
          exact hb ▸ h a ha }
  else none

theorem insert?_eq_some {r : α} {U : Table α} :
    T.insert? r = some U ↔ (∀ a ∈ T.rows, ¬Clash a r) ∧ U.rows = T.rows ++ [r] := by
  unfold insert?
  split
  · next h =>
    rw [Option.some_inj]
    constructor
    · rintro rfl
      exact ⟨h, rfl⟩
    · rintro ⟨-, hrows⟩
      exact ext hrows.symm
  · next h => simp [h]

theorem exists_insert? {r : α} (h : ∀ a ∈ T.rows, ¬Clash a r) : ∃ U, T.insert? r = some U := by
  unfold insert?
  rw [dif_pos h]
  exact ⟨_, rfl⟩

/-! ## Update -/

/-- Applies `f` to the rows satisfying `p`. -/
def update (T : Table α) (p : α → Bool) (f : α → α) (hf : Keeps f) : Table α where
  rows := T.rows.map fun a ↦ if p a then f a else a
  distinct := by
    refine List.pairwise_map.mpr (T.distinct.imp ?_)
    intro a b hab
    have hb : ∀ c : α, Clash c (if p b then f b else b) ↔ Clash c b := by
      intro c
      split
      · exact ⟨fun h ↦ clash_symm (((hf b).2 c).mp (clash_symm h)),
          fun h ↦ clash_symm (((hf b).2 c).mpr (clash_symm h))⟩
      · exact Iff.rfl
    rw [hb]
    split
    · rwa [(hf a).2]
    · exact hab

variable {p : α → Bool} {f : α → α} {hf : Keeps f}

@[simp] theorem rows_update : (T.update p f hf).rows = T.rows.map fun a ↦ if p a then f a else a :=
  rfl

/-- A projection the update leaves alone. -/
theorem map_rows_update {β : Type v} (hf : Keeps f) {g : α → β} (hg : ∀ a, g (f a) = g a) :
    (T.update p f hf).rows.map g = T.rows.map g := by
  rw [rows_update, List.map_map]
  refine List.map_congr_left fun a _ ↦ ?_
  rw [Function.comp_apply]
  split
  · exact hg a
  · rfl

theorem insert?_prefix {r : α} {U : Table α} (h : T.insert? r = some U) : T.rows <+: U.rows :=
  (insert?_eq_some.mp h).2 ▸ List.prefix_append _ _

theorem mem_insert? {r : α} {U : Table α} (h : T.insert? r = some U) {a : α} :
    a ∈ U.rows ↔ a ∈ T.rows ∨ a = r := by
  rw [(insert?_eq_some.mp h).2, List.mem_append, List.mem_singleton]

theorem mem_update {b : α} :
    b ∈ (T.update p f hf).rows ↔ ∃ a ∈ T.rows, (if p a then f a else a) = b := List.mem_map

/-- Two updates that agree on the stored rows are the same. -/
theorem update_congr {q : α → Bool} {g : α → α} (hf : Keeps f) (hg : Keeps g)
    (h : ∀ a ∈ T.rows, (if p a then f a else a) = if q a then g a else a) :
    T.update p f hf = T.update q g hg := by
  refine ext ?_
  rw [rows_update, rows_update]
  exact List.map_congr_left h

/-- A selection by columns the update leaves alone commutes with the update. -/
theorem filter_rows_update {q : α → Bool} (hq : ∀ a, q (f a) = q a) :
    (T.update p f hf).rows.filter q = (T.rows.filter q).map fun a ↦ if p a then f a else a := by
  rw [rows_update, List.filter_map]
  congr 1
  refine List.filter_congr fun a _ ↦ ?_
  simp only [Function.comp_apply]
  split
  · exact hq a
  · rfl

/-- The number of rows an update with guard `p` affects. -/
def affected (T : Table α) (p : α → Bool) : ℕ := T.rows.countP p

section Lookup

variable [DecidableEq κ]

/-! ## Lookup by primary key -/

/-- The row with primary key `k`. -/
def get? (T : Table α) (k : κ) : Option α := T.rows.find? fun a ↦ decide (key a = k)

theorem get?_eq_some {k : κ} {a : α} : T.get? k = some a ↔ a ∈ T.rows ∧ key a = k := by
  constructor
  · intro h
    exact ⟨List.mem_of_find?_eq_some h, by simpa using List.find?_some h⟩
  · rintro ⟨hmem, hk⟩
    cases hfind : T.get? k with
    | none =>
      have hnone := List.find?_eq_none.mp hfind a hmem
      simp [hk] at hnone
    | some b =>
      have hkey : key b = key a := by simpa [hk] using List.find?_some hfind
      rw [eq_of_key (List.mem_of_find?_eq_some hfind) hmem hkey]

theorem get?_eq_none {k : κ} : T.get? k = none ↔ ∀ a ∈ T.rows, key a ≠ k := by
  simp [get?, List.find?_eq_none]

theorem get?_of_mem {a : α} (h : a ∈ T.rows) : T.get? (key a) = some a :=
  get?_eq_some.mpr ⟨h, rfl⟩

/-- Inserting a row answers for its own key and leaves every other lookup alone. -/
theorem get?_insert? {r : α} {U : Table α} (h : T.insert? r = some U) (k : κ) :
    U.get? k = if key r = k then some r else T.get? k := by
  obtain ⟨hfresh, hrows⟩ := insert?_eq_some.mp h
  split
  · next hk => exact get?_eq_some.mpr ⟨by simp [hrows], hk⟩
  · next hk => simp [get?, hrows, hk]

theorem get?_update (k : κ) :
    (T.update p f hf).get? k = (T.get? k).map fun a ↦ if p a then f a else a := by
  have hkey : ∀ a : α, key (if p a then f a else a) = key a := by
    intro a
    split
    · exact (hf a).1
    · rfl
  rw [get?, rows_update, List.find?_map]
  congr 1
  exact congrArg (fun q ↦ List.find? q T.rows) (funext fun a ↦ by simp [hkey])

/-- The row under a key after an update that applies to it. -/
theorem get?_update_self {k : κ} {a : α} (hf : Keeps f) (h : T.get? k = some a)
    (hp : p a = true) : (T.update p f hf).get? k = some (f a) := by
  rw [get?_update, h, Option.map_some, if_pos hp]

/-- The row under a key after an update that does not apply to it. -/
theorem get?_update_of_not {k : κ} (hf : Keeps f) (h : ∀ a, T.get? k = some a → p a = false) :
    (T.update p f hf).get? k = T.get? k := by
  rw [get?_update]
  cases hk : T.get? k with
  | none => rfl
  | some a => rw [Option.map_some, h a hk, if_neg Bool.false_ne_true]

/-- The table without the row under a key. -/
def remove (T : Table α) (k : κ) : Table α where
  rows := T.rows.filter fun a ↦ decide (key a ≠ k)
  distinct := T.distinct.filter _

theorem remove_eq_self {k : κ} (h : T.get? k = none) : T.remove k = T := by
  refine ext (List.filter_eq_self.mpr fun a ha ↦ ?_)
  exact decide_eq_true (get?_eq_none.mp h a ha)

/-- A guard that fixes the primary key affects one row exactly when the keyed row satisfies it. -/
theorem affected_eq_one_iff {k : κ} (hp : ∀ a, p a = true → key a = k) :
    T.affected p = 1 ↔ ∃ a, T.get? k = some a ∧ p a = true := by
  constructor
  · intro h
    have hpos : 0 < T.rows.countP p := by
      rw [affected] at h
      omega
    obtain ⟨a, ha, hpa⟩ := List.countP_pos_iff.mp hpos
    exact ⟨a, get?_eq_some.mpr ⟨ha, hp a hpa⟩, hpa⟩
  · rintro ⟨a, hget, hpa⟩
    obtain ⟨hmem, hk⟩ := get?_eq_some.mp hget
    obtain ⟨pre, post, hsplit⟩ := List.append_of_mem hmem
    have hother : ∀ b ∈ pre ++ post, p b = false := by
      intro b hb
      by_contra hne
      have hdistinct := T.distinct
      rw [hsplit, List.pairwise_append, List.pairwise_cons] at hdistinct
      have hclash : Clash b a := clash_of_key ((hp b (by simpa using hne)).trans hk.symm)
      rcases List.mem_append.mp hb with hb | hb
      · exact hdistinct.2.2 b hb a List.mem_cons_self hclash
      · exact hdistinct.2.1.1 b hb (clash_symm hclash)
    have hzero : ∀ l : List α, (∀ b ∈ l, p b = false) → l.countP p = 0 := by
      intro l hl
      exact List.countP_eq_zero.mpr fun b hb ↦ by simp [hl b hb]
    rw [affected, hsplit, List.countP_append, List.countP_cons,
      hzero pre fun b hb ↦ hother b (List.mem_append_left _ hb),
      hzero post fun b hb ↦ hother b (List.mem_append_right _ hb), if_pos hpa]

end Lookup

end Table

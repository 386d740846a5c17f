import NotificationLedger.Foundation.Run

/-!
# Steps that do nothing

A label is *idle* when its steps leave every state as it is, and are possible in every state. The
idle labels can be struck from a run, and put into it anywhere.
-/

universe u v

namespace Lts

variable {σ : Type u} {α : Type v} {S : Lts σ α} {keeps : α → Bool} {Admits : α → Prop}

/-- A label that is not kept is taken without effect, in every state, provided that it is
admitted. -/
def Idles (S : Lts σ α) (keeps : α → Bool) (Admits : α → Prop) : Prop :=
  ∀ s l t, keeps l = false → (S.Step s l t ↔ t = s ∧ Admits l)

/-- **The stuttering rule.** -/
theorem Idles.run_iff (hidles : S.Idles keeps Admits) {s t : σ} {ls : List α} :
    S.Run s ls t ↔ S.Run s (ls.filter keeps) t ∧ ∀ l ∈ ls, keeps l = false → Admits l := by
  induction ls using List.reverseRecOn generalizing t with
  | nil => simp
  | append_singleton ls l ih =>
    rw [List.filter_append, List.forall_mem_append, List.forall_mem_singleton]
    cases hkeeps : keeps l with
    | true =>
      rw [List.filter_cons_of_pos hkeeps, List.filter_nil]
      constructor
      · intro h
        obtain ⟨u, hu, hlast⟩ := h.of_append
        obtain ⟨hrun, hadmits⟩ := ih.mp hu
        exact ⟨hrun.append hlast, hadmits, fun h ↦ by cases h⟩
      · rintro ⟨h, hadmits, -⟩
        obtain ⟨u, hu, hlast⟩ := h.of_append
        exact (ih.mpr ⟨hu, hadmits⟩).append hlast
    | false =>
      rw [List.filter_cons_of_neg (by simp [hkeeps]), List.filter_nil, List.append_nil]
      constructor
      · intro h
        obtain ⟨u, hu, hlast⟩ := h.of_append
        obtain ⟨rfl, hlabel⟩ := (hidles u l t hkeeps).mp hlast.of_singleton
        obtain ⟨hrun, hadmits⟩ := ih.mp hu
        exact ⟨hrun, hadmits, fun _ ↦ hlabel⟩
      · rintro ⟨h, hadmits, hlabel⟩
        exact (ih.mpr ⟨h, hadmits⟩).snoc ((hidles t l t hkeeps).mpr ⟨rfl, hlabel rfl⟩)

end Lts

import Mathlib.Data.Set.Function
import Mathlib.Tactic.Common

/-!
# Parts behind their lengths

A part is written as a header of fixed width, which depends on the part's length only, and then the
part itself. A concatenation of such frames can be read back, whatever the parts hold: the header in
front decides where the part ends, so bytes inside a part are never taken for a header.
-/

universe u

variable {α : Type u}

/-- A part behind the header of its length. -/
def frame (header : ℕ → List α) (part : List α) : List α := header part.length ++ part

section Frames

variable {header : ℕ → List α} {lengths : Set ℕ} {width : ℕ} {part part' rest rest' : List α}

/-- **The first frame of a text is determined by the text.** -/
theorem frame_append_inj (hwidth : ∀ n, (header n).length = width)
    (hheader : Set.InjOn header lengths) (hpart : part.length ∈ lengths)
    (hpart' : part'.length ∈ lengths)
    (h : frame header part ++ rest = frame header part' ++ rest') :
    part = part' ∧ rest = rest' := by
  rw [frame, frame, List.append_assoc, List.append_assoc] at h
  obtain ⟨hhead, htail⟩ := List.append_inj h ((hwidth _).trans (hwidth _).symm)
  exact List.append_inj htail (hheader hpart hpart' hhead)

theorem frame_ne_nil (hwidth : ∀ n, (header n).length = width) (hpos : 0 < width) :
    frame header part ≠ [] := by
  intro h
  have hlength := congrArg List.length h
  rw [frame, List.length_append, hwidth, List.length_nil] at hlength
  omega

/-- **Framing is injective** on lists of parts of the lengths the headers tell apart. -/
theorem flatMap_frame_injOn (hwidth : ∀ n, (header n).length = width) (hpos : 0 < width)
    (hheader : Set.InjOn header lengths) :
    Set.InjOn (fun parts : List (List α) ↦ parts.flatMap (frame header))
      {parts | ∀ part ∈ parts, part.length ∈ lengths} := by
  intro parts
  induction parts with
  | nil =>
    intro _ others _ h
    cases others with
    | nil => rfl
    | cons other others =>
      simp only [List.flatMap_nil, List.flatMap_cons] at h
      exact absurd (List.append_eq_nil_iff.mp h.symm).1 (frame_ne_nil hwidth hpos)
  | cons part parts ih =>
    intro hparts others hothers h
    cases others with
    | nil =>
      simp only [List.flatMap_nil, List.flatMap_cons] at h
      exact absurd (List.append_eq_nil_iff.mp h).1 (frame_ne_nil hwidth hpos)
    | cons other others =>
      simp only [List.flatMap_cons] at h
      obtain ⟨rfl, hrest⟩ := frame_append_inj hwidth hheader (hparts _ List.mem_cons_self)
        (hothers _ List.mem_cons_self) h
      rw [ih (fun p hp ↦ hparts p (List.mem_cons_of_mem _ hp))
        (fun p hp ↦ hothers p (List.mem_cons_of_mem _ hp)) hrest]

end Frames

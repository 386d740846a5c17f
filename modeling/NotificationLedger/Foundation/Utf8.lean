import Mathlib.Data.List.Infix
import Mathlib.Tactic.Common

/-!
# Texts addressed by bytes

A text is a list of characters and an index into it a number of bytes of its UTF-8 form. A slice
exists only where the index lies between two characters; `sliceFrom` and `sliceTo` are `none`
elsewhere. A byte below 128 is a character of its own, so that the bytes in front of a position say
which ASCII character stands there.
-/

namespace Utf8

/-- The UTF-8 form. -/
def bytes (text : List Char) : List UInt8 := text.flatMap String.utf8EncodeChar

/-- The length in bytes. -/
def byteLen (text : List Char) : ℕ := (bytes text).length

/-- The text from a byte index on. -/
def sliceFrom : List Char → ℕ → Option (List Char)
  | text, 0 => some text
  | [], _ + 1 => none
  | c :: text, i + 1 => if c.utf8Size ≤ i + 1 then sliceFrom text (i + 1 - c.utf8Size) else none

/-- The text before a byte index. -/
def sliceTo : List Char → ℕ → Option (List Char)
  | _, 0 => some []
  | [], _ + 1 => none
  | c :: text, i + 1 =>
    if c.utf8Size ≤ i + 1 then (sliceTo text (i + 1 - c.utf8Size)).map (c :: ·) else none

/-- The index lies between two characters of the text, or at one of its ends. -/
def IsCharBoundary (text : List Char) (i : ℕ) : Prop :=
  ∃ before rest, text = before ++ rest ∧ i = byteLen before

variable {text before rest : List Char} {c : Char} {i : ℕ}

@[simp] theorem bytes_nil : bytes [] = [] := rfl

@[simp] theorem bytes_cons : bytes (c :: text) = String.utf8EncodeChar c ++ bytes text := rfl

@[simp] theorem bytes_append : bytes (before ++ rest) = bytes before ++ bytes rest :=
  List.flatMap_append

@[simp] theorem byteLen_nil : byteLen [] = 0 := rfl

@[simp] theorem byteLen_cons : byteLen (c :: text) = c.utf8Size + byteLen text := by
  rw [byteLen, byteLen, bytes_cons, List.length_append, String.length_utf8EncodeChar]

@[simp] theorem byteLen_append : byteLen (before ++ rest) = byteLen before + byteLen rest := by
  rw [byteLen, byteLen, byteLen, bytes_append, List.length_append]

theorem byteLen_pos (h : text ≠ []) : 0 < byteLen text := by
  obtain ⟨c, text, rfl⟩ := List.exists_cons_of_ne_nil h
  have hsize := Char.utf8Size_pos c
  rw [byteLen_cons]
  omega

theorem length_le_byteLen (text : List Char) : text.length ≤ byteLen text := by
  induction text with
  | nil => exact Nat.le_refl 0
  | cons c text ih =>
    have hsize := Char.utf8Size_pos c
    rw [List.length_cons, byteLen_cons]
    omega

/-! ## Slices -/

@[simp] theorem sliceFrom_append : sliceFrom (before ++ rest) (byteLen before) = some rest := by
  induction before with
  | nil => cases rest <;> rfl
  | cons c before ih =>
    have hsize := Char.utf8Size_pos c
    obtain ⟨n, hn⟩ : ∃ n, byteLen (c :: before) = n + 1 :=
      ⟨byteLen (c :: before) - 1, by rw [byteLen_cons]; omega⟩
    rw [byteLen_cons] at hn
    rw [List.cons_append, byteLen_cons, hn, sliceFrom, if_pos (by omega), ← hn,
      Nat.add_sub_cancel_left]
    exact ih

@[simp] theorem sliceTo_append : sliceTo (before ++ rest) (byteLen before) = some before := by
  induction before with
  | nil => cases rest <;> rfl
  | cons c before ih =>
    have hsize := Char.utf8Size_pos c
    obtain ⟨n, hn⟩ : ∃ n, byteLen (c :: before) = n + 1 :=
      ⟨byteLen (c :: before) - 1, by rw [byteLen_cons]; omega⟩
    rw [byteLen_cons] at hn
    rw [List.cons_append, byteLen_cons, hn, sliceTo, if_pos (by omega), ← hn,
      Nat.add_sub_cancel_left, ih]
    rfl

/-- A slice exists exactly where the index is between two characters. -/
theorem sliceFrom_eq_some :
    sliceFrom text i = some rest ↔ ∃ before, text = before ++ rest ∧ i = byteLen before := by
  constructor
  · intro h
    induction text generalizing i with
    | nil =>
      cases i with
      | zero => exact ⟨[], by simpa [sliceFrom] using h, rfl⟩
      | succ i => simp [sliceFrom] at h
    | cons c text ih =>
      cases i with
      | zero => exact ⟨[], by simpa [sliceFrom] using h, rfl⟩
      | succ i =>
        rw [sliceFrom] at h
        split at h
        · obtain ⟨before, rfl, hi⟩ := ih h
          refine ⟨c :: before, rfl, ?_⟩
          rw [byteLen_cons]
          omega
        · simp at h
  · rintro ⟨before, rfl, rfl⟩
    exact sliceFrom_append

/-! ## Letters and digits -/

theorem isAlpha_iff : c.isAlpha = true ↔
    (97 ≤ c.toNat ∧ c.toNat ≤ 122) ∨ (65 ≤ c.toNat ∧ c.toNat ≤ 90) := by
  have hn : c.val.toNat = c.toNat := rfl
  have halpha : c.isAlpha = (decide ('A'.val ≤ c.val ∧ c.val ≤ 'Z'.val) ||
      (decide ('a'.val ≤ c.val) && decide (c.val ≤ 'z'.val))) := rfl
  simp [halpha, UInt32.le_iff_toNat_le, hn, or_comm]

theorem isDigit_iff : c.isDigit = true ↔ 48 ≤ c.toNat ∧ c.toNat ≤ 57 := by
  have hn : c.val.toNat = c.toNat := rfl
  simp [Char.isDigit, UInt32.le_iff_toNat_le, hn]

theorem isAlphanum_iff : c.isAlphanum = true ↔
    ((97 ≤ c.toNat ∧ c.toNat ≤ 122) ∨ (65 ≤ c.toNat ∧ c.toNat ≤ 90)) ∨
      (48 ≤ c.toNat ∧ c.toNat ≤ 57) := by
  rw [Char.isAlphanum, Bool.or_eq_true, isAlpha_iff, isDigit_iff]

/-! ## ASCII -/

/-- A character is one byte below 128, or all its bytes are above. -/
theorem utf8EncodeChar_cases (c : Char) :
    (c.toNat < 128 ∧ String.utf8EncodeChar c = [UInt8.ofNat c.toNat]) ∨
      (128 ≤ c.toNat ∧ ∀ b ∈ String.utf8EncodeChar c, 128 ≤ b.toNat) := by
  have hn : c.val.toNat = c.toNat := rfl
  unfold String.utf8EncodeChar
  simp only [hn]
  by_cases hone : c.toNat ≤ 0x7f
  · rw [if_pos hone]
    exact Or.inl ⟨by omega, rfl⟩
  rw [if_neg hone]
  refine Or.inr ⟨by omega, ?_⟩
  -- every byte of a longer form carries a mark in its highest bit
  split
  · simp only [List.mem_cons, List.not_mem_nil, or_false]
    rintro b (rfl | rfl) <;> rw [UInt8.toNat_ofNat'] <;> omega
  · split
    · simp only [List.mem_cons, List.not_mem_nil, or_false]
      rintro b (rfl | rfl | rfl) <;> rw [UInt8.toNat_ofNat'] <;> omega
    · simp only [List.mem_cons, List.not_mem_nil, or_false]
      rintro b (rfl | rfl | rfl | rfl) <;> rw [UInt8.toNat_ofNat'] <;> omega

theorem utf8Size_of_ascii (h : c.toNat < 128) : c.utf8Size = 1 := by
  rw [← String.length_utf8EncodeChar]
  rcases utf8EncodeChar_cases c with ⟨-, hone⟩ | ⟨hlarge, -⟩
  · rw [hone]
    rfl
  · omega

/-- A predicate on bytes that holds of ASCII only, and the one on characters it comes from. -/
structure Ascii (p : UInt8 → Bool) (q : Char → Bool) : Prop where
  byte : ∀ b, p b = true → b.toNat < 128
  char : ∀ c, q c = true → c.toNat < 128
  agree : ∀ c, c.toNat < 128 → p (UInt8.ofNat c.toNat) = q c

variable {p : UInt8 → Bool} {q : Char → Bool}

theorem Ascii.not_of_mem (h : Ascii p q) (hc : 128 ≤ c.toNat) {b : UInt8}
    (hb : b ∈ String.utf8EncodeChar c) : p b = false := by
  rcases utf8EncodeChar_cases c with ⟨hsmall, -⟩ | ⟨-, hall⟩
  · omega
  · rw [Bool.eq_false_iff]
    intro hp
    have hlow := h.byte b hp
    have hhigh := hall b hb
    omega

theorem Ascii.eq_false (h : Ascii p q) (hc : 128 ≤ c.toNat) : q c = false := by
  rw [Bool.eq_false_iff]
  intro hq
  have hlow := h.char c hq
  omega

theorem Ascii.or {p' : UInt8 → Bool} {q' : Char → Bool} (h : Ascii p q) (h' : Ascii p' q') :
    Ascii (fun b ↦ p b || p' b) (fun c ↦ q c || q' c) where
  byte b hb := by
    rw [Bool.or_eq_true] at hb
    exact hb.elim (h.byte b) (h'.byte b)
  char c hc := by
    rw [Bool.or_eq_true] at hc
    exact hc.elim (h.char c) (h'.char c)
  agree c hc := by
    rw [h.agree c hc, h'.agree c hc]

theorem Ascii.eq (d : Char) (hd : d.toNat < 128) :
    Ascii (fun b ↦ decide (b.toNat = d.toNat)) (fun c ↦ decide (c = d)) where
  byte b hb := by
    rw [decide_eq_true_eq] at hb
    omega
  char c hc := by
    rw [decide_eq_true_eq] at hc
    rwa [hc]
  agree c hc := by
    rw [UInt8.toNat_ofNat', decide_eq_decide, Nat.mod_eq_of_lt (by omega), Char.toNat_inj]

/-- The last byte of a text tells whether its last character is one of these. -/
theorem Ascii.last (h : Ascii p q) (before : List Char) (c : Char) (rest : List Char) :
    ∃ b, (bytes (before ++ c :: rest))[byteLen (before ++ [c]) - 1]? = some b ∧ p b = q c := by
  have hsize := Char.utf8Size_pos c
  have hindex : byteLen (before ++ [c]) - 1 = (bytes before).length + (c.utf8Size - 1) := by
    rw [byteLen_append, byteLen_cons, byteLen_nil, byteLen]
    omega
  have hlt : c.utf8Size - 1 < (String.utf8EncodeChar c).length := by
    rw [String.length_utf8EncodeChar]
    omega
  rw [hindex, bytes_append, List.getElem?_append_right (Nat.le_add_right _ _),
    Nat.add_sub_cancel_left, bytes_cons, List.getElem?_append_left hlt,
    List.getElem?_eq_getElem hlt]
  refine ⟨_, rfl, ?_⟩
  rcases utf8EncodeChar_cases c with ⟨hsmall, hone⟩ | ⟨hlarge, -⟩
  · simp only [hone, utf8Size_of_ascii hsmall]
    exact h.agree c hsmall
  · rw [h.not_of_mem hlarge (List.getElem_mem hlt), h.eq_false hlarge]

/-- Searching the bytes is searching the characters. -/
theorem Ascii.findIdx? (h : Ascii p q) (text : List Char) :
    (bytes text).findIdx? p =
      if text.any q then some (byteLen (text.takeWhile fun c ↦ !q c)) else none := by
  induction text with
  | nil => rfl
  | cons c text ih =>
    rw [bytes_cons, List.findIdx?_append, ih, List.any_cons]
    rcases utf8EncodeChar_cases c with ⟨hsmall, hone⟩ | ⟨hlarge, -⟩
    · rw [hone, List.findIdx?_singleton, h.agree c hsmall]
      by_cases hc : q c = true
      · simp [hc]
      · rw [Bool.not_eq_true] at hc
        rw [List.takeWhile_cons_of_pos (by simp [hc]), byteLen_cons, utf8Size_of_ascii hsmall]
        by_cases hany : text.any q = true <;> simp [hc, hany, Nat.add_comm]
    · have hnone : (String.utf8EncodeChar c).findIdx? p = none :=
        List.findIdx?_eq_none_iff.mpr fun b hb ↦ h.not_of_mem hlarge hb
      have hc := h.eq_false hlarge
      rw [hnone, Option.none_or, List.takeWhile_cons_of_pos (by simp [hc]), byteLen_cons,
        String.length_utf8EncodeChar]
      by_cases hany : text.any q = true <;> simp [hc, hany, Nat.add_comm]

/-- So is asking it of all of them. -/
theorem Ascii.all (h : Ascii p q) (text : List Char) : (bytes text).all p = text.all q := by
  induction text with
  | nil => rfl
  | cons c text ih =>
    rw [bytes_cons, List.all_append, ih, List.all_cons]
    congr 1
    rcases utf8EncodeChar_cases c with ⟨hsmall, hone⟩ | ⟨hlarge, -⟩
    · rw [hone, List.all_cons, List.all_nil, Bool.and_true]
      exact h.agree c hsmall
    · rw [h.eq_false hlarge, Bool.eq_false_iff]
      intro hall
      obtain ⟨b, hb⟩ := List.exists_mem_of_ne_nil _ (String.utf8EncodeChar_ne_nil (c := c))
      have hp := List.all_eq_true.mp hall b hb
      rw [h.not_of_mem hlarge hb] at hp
      cases hp

/-- And asking it of the first one. -/
theorem Ascii.head (h : Ascii p q) (c : Char) (text : List Char) :
    ∃ b, (bytes (c :: text)).head? = some b ∧ p b = q c := by
  rcases utf8EncodeChar_cases c with ⟨hsmall, hone⟩ | ⟨hlarge, -⟩
  · rw [bytes_cons, hone]
    exact ⟨_, rfl, h.agree c hsmall⟩
  · obtain ⟨b, rest, hcons⟩ := List.exists_cons_of_ne_nil (String.utf8EncodeChar_ne_nil (c := c))
    rw [bytes_cons, hcons]
    refine ⟨b, rfl, ?_⟩
    rw [h.not_of_mem hlarge (hcons ▸ List.mem_cons_self), h.eq_false hlarge]

end Utf8

import Mathlib.Tactic.Common

/-!
# Text columns and their validators

Rust strings are modelled by `String`; a length is a number of characters, as `chars().count()` is.
`isBlank` is `trim().is_empty()` and follows the Unicode `White_Space` property, which is what
`str::trim` strips. A PostgreSQL text value cannot hold the NUL character: `storable` is the
condition under which a bound parameter is accepted.
-/

namespace NotificationLedger

/-- The characters with the Unicode property `White_Space`. -/
def isWhitespace (c : Char) : Bool :=
  let n := c.toNat
  decide (9 ≤ n ∧ n ≤ 13) || n == 0x20 || n == 0x85 || n == 0xA0 || n == 0x1680 ||
    decide (0x2000 ≤ n ∧ n ≤ 0x200A) || n == 0x2028 || n == 0x2029 || n == 0x202F ||
    n == 0x205F || n == 0x3000

/-- `value.trim().is_empty()`. -/
def isBlank (value : String) : Bool := value.toList.all isWhitespace

/-- A non-blank text of `minimum` to `maximum` characters. -/
def requiredBounded (value : String) (minimum maximum : ℕ) : Bool :=
  !isBlank value && decide (minimum ≤ value.length ∧ value.length ≤ maximum)

/-- An absent text, or one of at most `maximum` characters. -/
def optionalBounded (value : Option String) (maximum : ℕ) : Bool :=
  value.all fun v ↦ decide (v.length ≤ maximum)

/-- The first `limit` characters. -/
def bounded (value : String) (limit : ℕ) : String := String.ofList (value.toList.take limit)

/-- A text PostgreSQL can store: it holds no NUL. -/
def storable (value : String) : Bool := value.toList.all fun c ↦ c != '\x00'

/-- A lower-case hexadecimal digit. -/
def isLowerHex (c : Char) : Bool := c.isDigit || decide ('a' ≤ c ∧ c ≤ 'f')

/-- The shape `sha256:` followed by 64 lower-case hexadecimal digits. The source has three
recognisers of it (`valid_digest`, `validate_digest`, `valid_sha256_digest`) and the schema a
fourth (`^sha256:[0-9a-f]{64}$`); each admits only ASCII after the prefix, so that its byte length
is a number of characters. -/
def isDigest (value : String) : Bool :=
  decide (value.toList.take 7 = "sha256:".toList) &&
    decide ((value.toList.drop 7).length = 64) && (value.toList.drop 7).all isLowerHex

/-! ## Facts used throughout -/

theorem bounded_eq_self {value : String} {limit : ℕ} (h : value.length ≤ limit) :
    bounded value limit = value := by
  rw [bounded, List.take_of_length_le (by rwa [String.length_toList]), String.ofList_toList]

theorem length_le_of_requiredBounded {value : String} {minimum maximum : ℕ}
    (h : requiredBounded value minimum maximum = true) : value.length ≤ maximum := by
  simp only [requiredBounded, Bool.and_eq_true, decide_eq_true_eq] at h
  exact h.2.2

theorem not_isBlank_of_requiredBounded {value : String} {minimum maximum : ℕ}
    (h : requiredBounded value minimum maximum = true) : isBlank value = false := by
  simp only [requiredBounded, Bool.and_eq_true, Bool.not_eq_true'] at h
  exact h.1

theorem storable_append {a b : String} : storable (a ++ b) = (storable a && storable b) := by
  simp [storable, String.toList_append]

theorem storable_bounded {value : String} (h : storable value = true) (limit : ℕ) :
    storable (bounded value limit) = true := by
  simp only [storable, bounded, List.all_eq_true, String.toList_ofList] at h ⊢
  exact fun c hc ↦ h c (List.mem_of_mem_take hc)

theorem storable_of_isLowerHex {l : List Char} (h : l.all isLowerHex = true) :
    storable (String.ofList l) = true := by
  simp only [storable, List.all_eq_true, String.toList_ofList] at h ⊢
  intro c hc
  have hhex := h c hc
  by_contra hne
  have hnul : c = '\x00' := by simpa using hne
  subst hnul
  exact absurd hhex (by decide)

/-- A digest is plain ASCII and therefore storable. -/
theorem storable_of_isDigest {value : String} (h : isDigest value = true) :
    storable value = true := by
  simp only [isDigest, Bool.and_eq_true, decide_eq_true_eq] at h
  obtain ⟨⟨hseven, -⟩, hhex⟩ := h
  have hdigest := storable_of_isLowerHex hhex
  simp only [storable, String.toList_ofList] at hdigest
  rw [storable, ← List.take_append_drop 7 value.toList, List.all_append, hdigest, hseven]
  decide

end NotificationLedger

import NotificationLedger.Protection
import NotificationLedger.Deployment
import NotificationLedger.Foundation.Framing

/-!
# What the content digest identifies

The subject, the text and the html are fed to the hasher as three frames, each behind its length in
eight bytes. The bytes that are hashed determine the three texts, so that the digest which a render
is checked against, and which its message is checked against again when it is stored, can only agree
for different content where SHA-256 itself collides.
-/

namespace NotificationLedger

namespace Snapshot

variable {X : Externals}

/-! ## The bytes that are hashed -/

theorem length_toBeBytes (n : ℕ) : (toBeBytes n).length = 8 := rfl

/-- Eight bytes hold every number below `2 ^ 64`. -/
theorem toBeBytes_injOn : Set.InjOn toBeBytes {n | n < 2 ^ 64} := by
  intro m hm n hn h
  simp only [toBeBytes, List.map_cons, List.map_nil, List.cons.injEq, and_true,
    ← UInt8.toNat_inj, UInt8.toNat_ofNat', Nat.shiftRight_eq_div_pow] at h
  obtain ⟨h₇, h₆, h₅, h₄, h₃, h₂, h₁, h₀⟩ := h
  change m < 2 ^ 64 at hm
  change n < 2 ^ 64 at hn
  -- the quotient by a power follows from the one by the next power and the byte between them
  have step : ∀ k, m / 2 ^ (k + 8) = n / 2 ^ (k + 8) → m / 2 ^ k % 2 ^ 8 = n / 2 ^ k % 2 ^ 8 →
      m / 2 ^ k = n / 2 ^ k := by
    intro k hhigh hlow
    rw [Nat.pow_add, ← Nat.div_div_eq_div_mul, ← Nat.div_div_eq_div_mul] at hhigh
    rw [← Nat.div_add_mod (m / 2 ^ k) (2 ^ 8), hhigh, hlow, Nat.div_add_mod]
  have htop : m / 2 ^ 64 = n / 2 ^ 64 := by
    rw [Nat.div_eq_of_lt hm, Nat.div_eq_of_lt hn]
  have hall := step 0 (step 8 (step 16 (step 24 (step 32 (step 40 (step 48 (step 56 htop h₇) h₆)
    h₅) h₄) h₃) h₂) h₁) h₀
  rwa [Nat.pow_zero, Nat.div_one, Nat.div_one] at hall

/-- A part shorter than `2 ^ 64` bytes is framed by its length. -/
theorem contentPart_eq_frame {part : String} (h : (utf8 part).length < 2 ^ 64) :
    contentPart part = frame toBeBytes (utf8 part) := by
  rw [contentPart, frame, Nat.min_eq_left (by omega)]

/-- What `content_digest` feeds to the hasher. -/
def contentBytes (subject text html : String) : List UInt8 :=
  contentPart subject ++ contentPart text ++ contentPart html

theorem contentDigest_eq (subject text html : String) :
    contentDigest X subject text html = digestText X (contentBytes subject text html) := rfl

theorem utf8_injective : Function.Injective utf8 := by
  intro s t h
  have hdecoded := congrArg fromUtf8 h
  rwa [fromUtf8_utf8, fromUtf8_utf8, Option.some_inj] at hdecoded

/-- The bytes of a text fit the eight bytes of its length. -/
def Measurable (part : String) : Prop := (utf8 part).length < 2 ^ 64
  deriving Decidable

theorem contentBytes_eq_flatMap {subject text html : String} (hsubject : Measurable subject)
    (htext : Measurable text) (hhtml : Measurable html) :
    contentBytes subject text html =
      ([subject, text, html].map utf8).flatMap (frame toBeBytes) := by
  rw [contentBytes, contentPart_eq_frame hsubject, contentPart_eq_frame htext,
    contentPart_eq_frame hhtml]
  simp

/-- **The digest identifies the content.** The hashed bytes are equal exactly when the contents are,
and where SHA-256 does not take two such inputs to one digest, neither are the digests. -/
theorem contentDigest_identifies {subject text html subject' text' html' : String}
    (hsubject : Measurable subject) (htext : Measurable text) (hhtml : Measurable html)
    (hsubject' : Measurable subject') (htext' : Measurable text') (hhtml' : Measurable html') :
    (contentBytes subject text html = contentBytes subject' text' html' ↔
        (subject, text, html) = (subject', text', html')) ∧
      (Set.InjOn X.sha256 {contentBytes subject text html, contentBytes subject' text' html'} →
        (contentDigest X subject text html = contentDigest X subject' text' html' ↔
          (subject, text, html) = (subject', text', html'))) := by
  have hbytes : contentBytes subject text html = contentBytes subject' text' html' ↔
      (subject, text, html) = (subject', text', html') := by
    constructor
    · intro h
      rw [contentBytes_eq_flatMap hsubject htext hhtml,
        contentBytes_eq_flatMap hsubject' htext' hhtml'] at h
      have hparts := flatMap_frame_injOn length_toBeBytes (by decide) toBeBytes_injOn
        (by simpa using ⟨hsubject, htext, hhtml⟩) (by simpa using ⟨hsubject', htext', hhtml'⟩) h
      have hlist := List.map_injective_iff.mpr utf8_injective hparts
      simpa using hlist
    · rintro h
      cases h
      rfl
  refine ⟨hbytes, fun hcollision ↦ ?_⟩
  rw [← hbytes]
  constructor
  · intro h
    exact hcollision (by simp) (by simp) (sha256_eq_of_digestText X h)
  · intro h
    rw [contentDigest_eq, contentDigest_eq, h]

/-- A letter moved from the text to the subject changes the bytes and the digest. -/
theorem contentDigest_identifies_moved :
    contentBytes "ab" "c" "d" ≠ contentBytes "a" "bc" "d" ∧
      contentDigest Deployment.setting.externals "ab" "c" "d" ≠
        contentDigest Deployment.setting.externals "a" "bc" "d" := by
  have hcontent : ("ab", "c", "d") ≠ ("a", "bc", "d") := by decide
  have hsha : Deployment.setting.externals.sha256 (contentBytes "ab" "c" "d") ≠
      Deployment.setting.externals.sha256 (contentBytes "a" "bc" "d") := by decide +kernel
  have hmeasurable : ∀ part ∈ ["a", "ab", "bc", "c", "d"], Measurable part := by decide
  obtain ⟨hbytes, hdigest⟩ := @contentDigest_identifies Deployment.setting.externals "ab" "c" "d"
    "a" "bc" "d" (hmeasurable _ (by simp)) (hmeasurable _ (by simp)) (hmeasurable _ (by simp))
    (hmeasurable _ (by simp)) (hmeasurable _ (by simp)) (hmeasurable _ (by simp))
  refine ⟨fun h ↦ hcontent (hbytes.mp h), fun h ↦ hcontent ((hdigest ?_).mp h)⟩
  rw [Set.injOn_pair]
  exact fun heq ↦ absurd heq hsha

end Snapshot

end NotificationLedger

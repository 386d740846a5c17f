import NotificationLedger.Foundation.Outcome
import NotificationLedger.Snapshot

/-!
# The production protector

`AeadSnapshotProtector` writes an envelope: twelve random bytes and the ciphertext under them, in
base64, behind a version mark. AES-256-GCM and base64 are third-party; what is assumed of them is
that they invert their own output (`Cryptography.Inverts`). It follows that the protector reveals
what it has protected.
-/

namespace NotificationLedger

open Outcome

/-- `Aes256Gcm` and the standard base64 engine. -/
structure Cryptography where
  encrypt : List UInt8 → Nonce → List UInt8 → Option (List UInt8)
  decrypt : List UInt8 → Nonce → List UInt8 → Option (List UInt8)
  encode : List UInt8 → String
  decode : String → Option (List UInt8)

/-- The libraries invert their own output, and a ciphertext ends in its tag of 16 bytes. -/
structure Cryptography.Inverts (C : Cryptography) : Prop where
  decrypt_encrypt : ∀ key nonce plaintext ciphertext,
    C.encrypt key nonce plaintext = some ciphertext →
      C.decrypt key nonce ciphertext = some plaintext
  length_encrypt : ∀ key nonce plaintext ciphertext,
    C.encrypt key nonce plaintext = some ciphertext → ciphertext.length = plaintext.length + 16
  decode_encode : ∀ bytes, C.decode (C.encode bytes) = some bytes

/-- `String::from_utf8`. -/
def fromUtf8 (bytes : List UInt8) : Option String := String.fromUTF8? bytes.toByteArray

theorem fromUtf8_utf8 (text : String) : fromUtf8 (utf8 text) = some text := by
  have hbytes : (utf8 text).toByteArray = text.toByteArray := by
    conv_rhs => rw [← String.ofList_toList (s := text)]
    rw [String.toByteArray_ofList]
    rfl
  rw [fromUtf8, hbytes, String.fromUTF8?, dif_pos text.isValidUTF8]
  rfl

/-- The key has 32 bytes. -/
structure AeadSnapshotProtector where
  key : { bytes : List UInt8 // bytes.length = 32 }
  keyReference : String

namespace AeadSnapshotProtector

variable (C : Cryptography)

private def invalid (message : String) : NotificationError := ⟨.validation, message⟩

def fromBase64Key (encoded keyReference : String) : NotificationResult AeadSnapshotProtector := do
  let bytes ← require (C.decode encoded) (invalid "Notification snapshot key must be base64")
  if h : bytes.length = 32 then pure ⟨⟨bytes, h⟩, keyReference⟩
  else .error (invalid "Notification snapshot key must contain exactly 32 bytes")

variable (p : AeadSnapshotProtector)

/-- The version mark of an envelope. -/
def envelopeVersion : String := "v1:"

/-- A draw of fewer than twelve bytes stands for a failure of the random source. -/
def protect (nonce : Nonce) (plaintext : String) : NotificationResult ProtectedValue := do
  ensure (12 ≤ nonce.length) ⟨.internal, "Notification snapshot nonce generation failed"⟩
  let nonceBytes := nonce.take 12
  let ciphertext ← require (C.encrypt p.key.val nonceBytes (utf8 plaintext))
    ⟨.internal, "Notification snapshot encryption failed"⟩
  pure {
    ciphertext := envelopeVersion ++ C.encode (nonceBytes ++ ciphertext)
    keyReference := p.keyReference }

/-- `strip_prefix("v1:")`. -/
def stripVersion (ciphertext : String) : Option String :=
  if envelopeVersion.toList.isPrefixOf ciphertext.toList then
    some (String.ofList (ciphertext.toList.drop envelopeVersion.length))
  else none

def reveal (protected' : ProtectedValue) : NotificationResult String := do
  ensure (protected'.keyReference = p.keyReference)
    (invalid "Notification snapshot key reference does not match")
  let encoded ← require (stripVersion protected'.ciphertext)
    (invalid "Notification snapshot envelope version is unsupported")
  let envelope ← require (C.decode encoded) (invalid "invalid protected snapshot")
  ensure (12 < envelope.length) (invalid "invalid protected snapshot envelope")
  let plaintext ← require (C.decrypt p.key.val (envelope.take 12) (envelope.drop 12))
    (invalid "Notification snapshot authentication failed")
  require (fromUtf8 plaintext) (invalid "invalid protected snapshot encoding")

def protector : SnapshotProtector where
  protect := p.protect C
  reveal := p.reveal C

variable {C p}

theorem stripVersion_append (text : String) :
    stripVersion (envelopeVersion ++ text) = some text := by
  rw [stripVersion, String.toList_append]
  have hmark : envelopeVersion.toList.isPrefixOf (envelopeVersion.toList ++ text.toList) = true :=
    List.isPrefixOf_iff_prefix.mpr (List.prefix_append _ _)
  rw [if_pos hmark, ← String.length_toList, List.drop_left, String.ofList_toList]

/-- **The protector reveals what it has protected.** -/
theorem reveal_protect (hC : C.Inverts) {nonce : Nonce} {plaintext : String} {v : ProtectedValue}
    (h : (p.protector C).protect nonce plaintext = .ok v) :
    (p.protector C).reveal v = .ok plaintext := by
  obtain ⟨hnonce, h⟩ := ensure_bind_eq_ok.mp h
  obtain ⟨ciphertext, hencrypt, h⟩ := bind_eq_ok.mp h
  rw [require_eq_ok] at hencrypt
  rw [pure_eq_ok] at h
  subst h
  have htwelve : (nonce.take 12).length = 12 := by
    rw [List.length_take]
    omega
  have hlength := hC.length_encrypt _ _ _ _ hencrypt
  have hlong : 12 < (nonce.take 12 ++ ciphertext).length := by
    rw [List.length_append]
    omega
  change reveal C p _ = _
  rw [reveal, ensure_of rfl, ok_bind, stripVersion_append, require_some, ok_bind,
    hC.decode_encode, require_some, ok_bind, ensure_of hlong, ok_bind,
    List.take_left' htwelve, List.drop_left' htwelve, hC.decrypt_encrypt _ _ _ _ hencrypt,
    require_some, ok_bind, fromUtf8_utf8, require_some]

end AeadSnapshotProtector

end NotificationLedger

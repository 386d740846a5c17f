import NotificationLedger.Domain

/-!
# Protected snapshots, digests and redaction

The protector is a trait object in the source, and its production implementation rests on
third-party cryptography and randomness; here it is a pair of functions with the nonce made
explicit. The two redaction patterns are matched by hand with the leftmost-greedy semantics of the
regex library.
-/

namespace NotificationLedger

structure ProtectedValue where
  ciphertext : String
  keyReference : String
  deriving DecidableEq, Repr

/-- The random bytes one encryption draws. -/
abbrev Nonce := List UInt8

structure SnapshotProtector where
  protect : Nonce → String → NotificationResult ProtectedValue
  reveal : ProtectedValue → NotificationResult String

namespace Snapshot

variable (X : Externals)

/-! ## Digests -/

/-- `u64::to_be_bytes`. -/
def toBeBytes (n : ℕ) : List UInt8 :=
  [56, 48, 40, 32, 24, 16, 8, 0].map fun shift ↦ UInt8.ofNat (n >>> shift)

/-- One part as it is fed to the hasher: its byte length, then its bytes. -/
def contentPart (part : String) : List UInt8 :=
  toBeBytes (min (utf8 part).length (2 ^ 64 - 1)) ++ utf8 part

def contentDigest (subject text html : String) : String :=
  digestText X (contentPart subject ++ contentPart text ++ contentPart html)

def requestDigest (serializable : Json) : String := digestText X (X.jsonToVec serializable)

/-! ## Masking and redaction -/

/-- The first character of the local part, split off at the last `@`, and the domain. -/
def maskEmail (address : String) : String :=
  let reversed := address.toList.reverse
  match reversed.dropWhile fun c ↦ c != '@' with
  | [] => "***"
  | _ :: localReversed =>
    String.ofList <| localReversed.getLast?.getD '*' :: "***@".toList ++
      (reversed.takeWhile fun c ↦ c != '@').reverse

/-- What follows a match of `https?://\S+` at the head of the text. -/
def matchUrl (text : List Char) : Option (List Char) :=
  let body :=
    if "https://".toList.isPrefixOf text then text.drop 8
    else if "http://".toList.isPrefixOf text then text.drop 7
    else []
  if (body.takeWhile fun c ↦ !isWhitespace c) = [] then none
  else some (body.dropWhile fun c ↦ !isWhitespace c)

/-- `[A-Za-z0-9._%+-]`. -/
def isLocalChar (c : Char) : Bool := c.isAlphanum || c ∈ ['.', '_', '%', '+', '-']

/-- `[A-Za-z0-9.-]`. -/
def isDomainChar (c : Char) : Bool := c.isAlphanum || c ∈ ['.', '-']

/-- The letters after position `k` when a dot stands there, not at the start, with two letters
behind it. -/
def topLevelAt (domain : List Char) (k : ℕ) : Option ℕ :=
  let letters := ((domain.drop (k + 1)).takeWhile Char.isAlpha).length
  if 0 < k ∧ domain[k]? = some '.' ∧ 2 ≤ letters then some letters else none

/-- What follows a match of `[A-Za-z0-9.-]+\.[A-Za-z]{2,}`: the repetition is greedy, so the last
position that serves is taken. -/
def matchDomain (text : List Char) : Option (List Char) :=
  let domain := text.takeWhile isDomainChar
  (List.range domain.length).reverse.findSome? fun k ↦
    (topLevelAt domain k).map fun letters ↦ text.drop (k + 1 + letters)

/-- What follows a match of the email pattern at the head of the text. The local class has no `@`,
so a match takes the whole run of local characters. -/
def matchEmail (text : List Char) : Option (List Char) :=
  if (text.takeWhile isLocalChar) = [] then none
  else
    match text.dropWhile isLocalChar with
    | '@' :: rest => matchDomain rest
    | _ => none

/-- `replace_all` with leftmost, non-overlapping matches; `fuel` bounds the characters left. -/
def replaceAll (pattern : List Char → Option (List Char)) (replacement : List Char) :
    ℕ → List Char → List Char
  | 0, text => text
  | _ + 1, [] => []
  | fuel + 1, c :: text =>
    match pattern (c :: text) with
    | some rest => replacement ++ replaceAll pattern replacement fuel rest
    | none => c :: replaceAll pattern replacement fuel text

def redactPreview (text : String) : String :=
  let text := text.toList
  let withoutUrls := replaceAll matchUrl "[link redacted]".toList text.length text
  let withoutEmails :=
    replaceAll matchEmail "[recipient redacted]".toList withoutUrls.length withoutUrls
  String.ofList (withoutEmails.take 160)

example : redactPreview "Join at https://a.test/x for al@b.co." =
    "Join at [link redacted] for [recipient redacted]." := by decide

end Snapshot

end NotificationLedger

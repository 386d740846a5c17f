import NotificationLedger.Foundation.Json
import NotificationLedger.Text
import Mathlib.Data.Set.Function

/-!
# Errors, statuses, the retry policy, and what lies outside the plugin

Status columns are inductive types rather than texts: the schema's `CHECK` constraints admit exactly
these values.

Time has two precisions. `DateTime` counts nanoseconds from 2000-01-01T00:00:00Z, the epoch of the
PostgreSQL wire format, and is what the plugin computes with; `Timestamp` counts microseconds and is
what a `timestamptz` column holds. `DateTime.stored` is the truncation a bound parameter undergoes.
-/

namespace NotificationLedger

/-! ## Errors -/

/-- Stable classification of Notification failures. -/
inductive ErrorCode
  | validation
  | notFound
  | conflict
  | evidenceOverflow
  | internal
  deriving DecidableEq, Repr

/-- One private Notification implementation failure. The chained source of the error is dropped: no
caller reads it. -/
structure NotificationError where
  code : ErrorCode
  message : String
  deriving DecidableEq, Repr

abbrev NotificationResult := Except NotificationError

/-! ## Statuses -/

inductive DeliveryStatus
  | queued
  | attempting
  | accepted
  | retryScheduled
  | delivered
  | failed
  | deliveryUnknown
  deriving DecidableEq, Repr

/-- The statuses the schema pairs with a non-null `final_at`. -/
def DeliveryStatus.isFinal : DeliveryStatus → Bool
  | .delivered | .failed | .deliveryUnknown => true
  | _ => false

/-- The statuses `claim_one_due` selects. -/
def DeliveryStatus.isClaimable : DeliveryStatus → Bool
  | .queued | .retryScheduled => true
  | _ => false

theorem DeliveryStatus.isFinal_of_isClaimable {s : DeliveryStatus} (h : s.isClaimable = true) :
    s.isFinal = false := by
  cases s <;> first | rfl | cases h

inductive AttemptStatus
  | dispatching
  | accepted
  | temporaryFailure
  | permanentFailure
  | deliveryUnknown
  deriving DecidableEq, Repr

/-! ## Time -/

/-- Nanoseconds from 2000-01-01T00:00:00Z. -/
abbrev DateTime := ℤ

/-- Microseconds from 2000-01-01T00:00:00Z, as a `timestamptz` column holds them. -/
abbrev Timestamp := ℤ

/-- The value a `timestamptz` parameter is bound to: `num_microseconds` truncates towards zero. -/
def DateTime.stored (t : DateTime) : Timestamp := Int.tdiv t 1000

/-- `now + chrono::Duration::seconds(n)`. -/
def DateTime.addSeconds (t : DateTime) (seconds : ℤ) : DateTime := t + seconds * 1000000000

/-- `now + chrono::Duration::milliseconds(n)`. -/
def DateTime.addMilliseconds (t : DateTime) (milliseconds : ℤ) : DateTime :=
  t + milliseconds * 1000000

/-! ## The retry policy -/

/-- The largest integer a portable wire value may carry. -/
def maxSafeWireInteger : ℕ := 9007199254740991

structure RetryPolicy where
  maxAttempts : ℤ
  delaysSeconds : List ℤ

def RetryPolicy.default : RetryPolicy where
  maxAttempts := 4
  delaysSeconds := [60, 300, 1800]

/-- When the attempt after `completedAttempt` may start, if there may be one. -/
def RetryPolicy.nextAt (policy : RetryPolicy) (completedAttempt : ℤ) (now : DateTime) :
    Option DateTime :=
  if policy.maxAttempts ≤ completedAttempt then none
  else
    let index := completedAttempt - 1
    if index < 0 then none
    else policy.delaysSeconds[index.toNat]?.map fun seconds ↦ now.addSeconds seconds

/-- With the default delays the policy schedules a retry exactly while the budget of at most four
attempts has room. -/
theorem RetryPolicy.nextAt_isSome_iff {maxAttempts completed : ℕ} {now : DateTime}
    (hpos : 0 < completed) (hle : maxAttempts ≤ 4) :
    (RetryPolicy.nextAt { RetryPolicy.default with maxAttempts := maxAttempts } completed
      now).isSome = true ↔ completed < maxAttempts := by
  unfold RetryPolicy.nextAt
  by_cases hlt : completed < maxAttempts
  · have hindex : ((completed : ℤ) - 1).toNat < RetryPolicy.default.delaysSeconds.length := by
      simp only [RetryPolicy.default, List.length_cons, List.length_nil]
      omega
    rw [if_neg (by simp only; omega), if_neg (by omega), Option.isSome_map,
      List.getElem?_eq_getElem hindex]
    simp [hlt]
  · rw [if_pos (by simp only; omega)]
    simp [hlt]

/-! ## What lies outside the plugin -/

/-- The third-party functions the ledger relies on: `sha2`, `serde_json::to_vec`, and chrono's
parsing and serde formats. The one law is the documented round trip of chrono's serde format; that
digests do not collide is never assumed here and is a named hypothesis where a result needs it. -/
structure Externals where
  /-- `Sha256::digest`. -/
  sha256 : List UInt8 → { digest : List UInt8 // digest.length = 32 }
  /-- `serde_json::to_vec` of a value. -/
  jsonToVec : Json → List UInt8
  /-- `DateTime::parse_from_rfc3339`, converted to UTC. -/
  parseFromRfc3339 : String → Option DateTime
  /-- `DateTime::to_rfc3339_opts` with millisecond precision and the `Z` suffix. -/
  toRfc3339Millis : DateTime → String
  /-- The serde form of a time. -/
  serializeTime : DateTime → String
  /-- Reading a time back from its serde form. -/
  deserializeTime : String → Option DateTime
  deserialize_serialize : ∀ t, deserializeTime (serializeTime t) = some t

/-- The two lower-case digits of a byte. -/
def hexByte (b : UInt8) : List Char :=
  [Nat.digitChar (b.toNat / 16), Nat.digitChar (b.toNat % 16)]

/-- `hex::encode`. -/
def hexEncode (bytes : List UInt8) : List Char := bytes.flatMap hexByte

/-- `as_bytes` of a text. -/
def utf8 (text : String) : List UInt8 := text.toList.flatMap String.utf8EncodeChar

variable (X : Externals)

/-- `format!("sha256:{}", hex::encode(Sha256::digest(bytes)))`. -/
def digestText (bytes : List UInt8) : String :=
  "sha256:" ++ String.ofList (hexEncode (X.sha256 bytes).val)

/-- `stable_id`, which every source file defines alike. -/
def stableId (pfx input : String) : String :=
  pfx ++ "_" ++ String.ofList ((hexEncode (X.sha256 (utf8 input)).val).take 32)

/-! ## Shape of digests and ids

A digest is 64 digits behind its mark, an id 32 behind its prefix. That equal digests come from
equal values is assumed where it is needed, on the values that occur. -/

theorem isLowerHex_digitChar : ∀ n < 16, isLowerHex (Nat.digitChar n) = true := by decide

theorem all_isLowerHex_hexEncode (bytes : List UInt8) :
    (hexEncode bytes).all isLowerHex = true := by
  rw [List.all_eq_true]
  intro c hc
  obtain ⟨b, -, hb⟩ := List.mem_flatMap.mp hc
  have hlt : b.toNat < 256 := b.toNat_lt
  rw [hexByte, List.mem_cons, List.mem_singleton] at hb
  rcases hb with rfl | rfl
  · exact isLowerHex_digitChar _ (by omega)
  · exact isLowerHex_digitChar _ (Nat.mod_lt _ (by omega))

theorem length_hexEncode (bytes : List UInt8) : (hexEncode bytes).length = 2 * bytes.length := by
  induction bytes with
  | nil => rfl
  | cons b bytes ih =>
    rw [hexEncode, List.flatMap_cons, List.length_append, ← hexEncode, ih]
    simp only [hexByte, List.length_cons, List.length_nil]
    omega

theorem digitChar_injOn : ∀ m < 16, ∀ n < 16, Nat.digitChar m = Nat.digitChar n → m = n := by
  decide

theorem hexByte_injective : Function.Injective hexByte := by
  intro b c h
  have hb : b.toNat < 256 := b.toNat_lt
  have hc : c.toNat < 256 := c.toNat_lt
  simp only [hexByte, List.cons.injEq, and_true] at h
  have hhigh := digitChar_injOn _ (by omega) _ (by omega) h.1
  have hlow := digitChar_injOn _ (Nat.mod_lt _ (by omega)) _ (Nat.mod_lt _ (by omega)) h.2
  exact UInt8.toNat_inj.mp (by omega)

theorem hexEncode_injective : Function.Injective hexEncode := by
  intro bytes
  induction bytes with
  | nil =>
    intro other h
    cases other with
    | nil => rfl
    | cons c other => simp [hexEncode, hexByte] at h
  | cons b bytes ih =>
    intro other h
    cases other with
    | nil => simp [hexEncode, hexByte] at h
    | cons c other =>
      rw [hexEncode, hexEncode, List.flatMap_cons, List.flatMap_cons] at h
      obtain ⟨hbyte, hrest⟩ := List.append_inj h rfl
      rw [hexByte_injective hbyte, ih hrest]

/-- Equal digest texts are equal digests. -/
theorem sha256_eq_of_digestText {bytes bytes' : List UInt8}
    (h : digestText X bytes = digestText X bytes') : X.sha256 bytes = X.sha256 bytes' := by
  have hchars := congrArg String.toList h
  simp only [digestText, String.toList_append, String.toList_ofList,
    List.append_cancel_left_eq] at hchars
  exact Subtype.ext (hexEncode_injective hchars)

/-- Neither the serializer nor SHA-256 takes two of these values to one result. -/
structure CollisionFree (values : Set Json) : Prop where
  serialize : Set.InjOn X.jsonToVec values
  digest : Set.InjOn X.sha256 (X.jsonToVec '' values)

/-- Values among these with one digest are equal. -/
theorem CollisionFree.eq_of_digestText {values : Set Json} (h : CollisionFree X values)
    {v w : Json} (hv : v ∈ values) (hw : w ∈ values)
    (heq : digestText X (X.jsonToVec v) = digestText X (X.jsonToVec w)) : v = w :=
  h.serialize hv hw (h.digest (Set.mem_image_of_mem _ hv) (Set.mem_image_of_mem _ hw)
    (sha256_eq_of_digestText X heq))

/-- Two values with different digests. -/
theorem CollisionFree.pair {v w : Json}
    (h : digestText X (X.jsonToVec v) ≠ digestText X (X.jsonToVec w)) :
    CollisionFree X {v, w} := by
  have hbytes : X.jsonToVec v ≠ X.jsonToVec w := fun heq ↦ h (by rw [heq])
  have hsha : X.sha256 (X.jsonToVec v) ≠ X.sha256 (X.jsonToVec w) :=
    fun heq ↦ h (by rw [digestText, digestText, heq])
  refine ⟨?_, ?_⟩
  · rw [Set.injOn_pair]
    exact fun heq ↦ absurd heq hbytes
  · rw [Set.image_pair, Set.injOn_pair]
    exact fun heq ↦ absurd heq hsha

/-- Every computed digest has the shape the schema checks. -/
theorem isDigest_digestText (bytes : List UInt8) : isDigest (digestText X bytes) = true := by
  have htake : (digestText X bytes).toList.take 7 = "sha256:".toList := by
    rw [digestText, String.toList_append]
    exact List.take_left' rfl
  have hdrop : (digestText X bytes).toList.drop 7 = hexEncode (X.sha256 bytes).val := by
    simp only [digestText, String.toList_append, String.toList_ofList]
    exact List.drop_left' rfl
  rw [isDigest, htake, hdrop, length_hexEncode, (X.sha256 bytes).property,
    all_isLowerHex_hexEncode]
  rfl

theorem storable_stableId {pfx input : String} (h : storable pfx = true) :
    storable (stableId X pfx input) = true := by
  have hhex : ((hexEncode (X.sha256 (utf8 input)).val).take 32).all isLowerHex = true := by
    have hall := all_isLowerHex_hexEncode (X.sha256 (utf8 input)).val
    rw [List.all_eq_true] at hall ⊢
    exact fun c hc ↦ hall c (List.mem_of_mem_take hc)
  rw [stableId, storable_append, storable_append, h, storable_of_isLowerHex hhex]
  rfl

theorem length_stableId (pfx input : String) :
    (stableId X pfx input).length = pfx.length + 33 := by
  have hlen : (hexEncode (X.sha256 (utf8 input)).val).length = 64 := by
    rw [length_hexEncode, (X.sha256 (utf8 input)).property]
  have htake : ((hexEncode (X.sha256 (utf8 input)).val).take 32).length = 32 := by
    rw [List.length_take, hlen]
    rfl
  have hsep : "_".length = 1 := rfl
  rw [stableId, String.length_append, String.length_append, hsep, String.length_ofList, htake]

/-- A stable id is never blank: it contains the separator. -/
theorem isBlank_stableId (pfx input : String) : isBlank (stableId X pfx input) = false := by
  rw [isBlank, stableId, String.toList_append, String.toList_append, List.all_append,
    List.all_append]
  have hsep : ("_".toList.all isWhitespace) = false := by decide
  rw [hsep, Bool.and_false, Bool.false_and]

/-- A stable id passes every bound the validators put on an id. -/
theorem requiredBounded_stableId {pfx input : String} {maximum : ℕ}
    (h : pfx.length + 33 ≤ maximum) :
    requiredBounded (stableId X pfx input) 1 maximum = true := by
  rw [requiredBounded, isBlank_stableId, length_stableId]
  simp only [Bool.not_false, Bool.true_and, decide_eq_true_eq]
  omega

end NotificationLedger

import NotificationLedger.Plugin
import NotificationLedger.Foundation.Utf8
import Mathlib.Data.List.Nodup
import Mathlib.Order.Interval.Set.Defs

/-!
# The configuration

`NotificationConfig::new` accepts a configuration once and for all: what it has accepted carries the
validity of its roles, and everything else assumes it. It also compares the references to the two
secrets as texts. A reference is a path below a root of the secret store, and a path has many
spellings; an accepted reference is the only accepted spelling of its path, so that the comparison
tells the two secrets apart. What it accepts conforms to the published schema, which measures texts
in characters where the code measures bytes.
-/

namespace NotificationLedger

open Outcome

/-! ## Secret references

A reference is a list of segments, none of them empty or one that walks up or stays. Walking along
it leads to the path it spells, so equal paths have equal references. -/

def isReferenceChar (c : Char) : Bool := c.isAlphanum || c ∈ ['.', '_', '-']

/-- The segments of a reference. -/
def segments (reference : String) : List (List Char) := reference.toList.splitOn '/'

def validSegment (segment : List Char) : Bool :=
  decide (segment ≠ []) && decide (segment ≠ ['.']) && decide (segment ≠ ['.', '.']) &&
    segment.all isReferenceChar

/-- The admitted bytes are ASCII, so they are characters. -/
def validSecretReference (value : String) : Bool :=
  decide (value ≠ "") && decide (Utf8.byteLen value.toList ≤ 256) &&
    decide (value.toList.head? ≠ some '/') && decide (value.toList.getLast? ≠ some '/') &&
    (segments value).all validSegment

/-- One segment of a path, from a directory: `.` stays, `..` goes up. -/
def walk (path : List (List Char)) (segment : List Char) : List (List Char) :=
  if segment = [] ∨ segment = ['.'] then path
  else if segment = ['.', '.'] then path.dropLast
  else path ++ [segment]

/-- Where a reference leads from a root. -/
def resolve (root : List (List Char)) (reference : String) : List (List Char) :=
  (segments reference).foldl walk root

theorem walk_of_validSegment {path : List (List Char)} {segment : List Char}
    (h : validSegment segment = true) : walk path segment = path ++ [segment] := by
  simp only [validSegment, Bool.and_eq_true, decide_eq_true_eq] at h
  obtain ⟨⟨⟨hempty, hdot⟩, hup⟩, -⟩ := h
  rw [walk, if_neg (by rintro (h | h) <;> contradiction), if_neg hup]

theorem foldl_walk {path : List (List Char)} {steps : List (List Char)}
    (h : ∀ segment ∈ steps, validSegment segment = true) :
    steps.foldl walk path = path ++ steps := by
  induction steps generalizing path with
  | nil => rw [List.foldl_nil, List.append_nil]
  | cons segment steps ih =>
    rw [List.foldl_cons, walk_of_validSegment (h segment List.mem_cons_self),
      ih fun s hs ↦ h s (List.mem_cons_of_mem _ hs), List.append_assoc, List.singleton_append]

/-- An accepted reference leads down, one step for each of its segments. -/
theorem resolve_of_valid {reference : String} (h : validSecretReference reference = true)
    (root : List (List Char)) : resolve root reference = root ++ segments reference := by
  simp only [validSecretReference, Bool.and_eq_true] at h
  exact foldl_walk (List.all_eq_true.mp h.2)

/-- The segments spell the reference. -/
theorem segments_injective : Function.Injective segments := by
  intro a b h
  have hchars := congrArg (List.intercalate ['/']) h
  rw [segments, segments, List.intercalate_splitOn, List.intercalate_splitOn] at hchars
  exact String.toList_inj.mp hchars

theorem segments_ne_nil (reference : String) : segments reference ≠ [] :=
  List.splitOn_ne_nil _ _

theorem length_pos_of_ne {value : String} (h : value ≠ "") : 0 < value.length := by
  rw [← String.length_toList]
  exact List.length_pos_iff.mpr fun hnil ↦ h (String.toList_eq_nil_iff.mp hnil)

/-- No character is less than a byte. -/
theorem length_of_validSecretReference {reference : String}
    (h : validSecretReference reference = true) : reference.length ∈ Set.Icc 1 256 := by
  simp only [validSecretReference, Bool.and_eq_true, decide_eq_true_eq] at h
  obtain ⟨⟨⟨⟨hne, hbytes⟩, -⟩, -⟩, -⟩ := h
  have hle := Utf8.length_le_byteLen reference.toList
  rw [String.length_toList] at hle
  exact ⟨length_pos_of_ne hne, hle.trans hbytes⟩

theorem length_of_validInstance {value : String} (h : validInstance value = true) :
    value.length ∈ Set.Icc 1 160 := by
  simp only [validInstance, Bool.and_eq_true, decide_eq_true_eq] at h
  exact ⟨length_pos_of_ne h.1.1, h.1.2⟩

/-! ## What is accepted

The checks in the order of the source, and then what an accepted configuration satisfies. -/

inductive NotificationConfigError
  | invalidSchema
  | invalidSecretReference
  | invalidCallers
  deriving DecidableEq, Repr

def NotificationConfigError.text : NotificationConfigError → String
  | .invalidSchema => "the legacy Notification schema identity must remain `notification`"
  | .invalidSecretReference =>
    "database and snapshot keys require distinct valid secret references"
  | .invalidCallers => "each authority role requires unique valid caller Instance keys"

/-- The fields of a configuration before it is validated. -/
structure RawConfig where
  schema : String
  databaseUrlSecret : String
  snapshotKeySecret : String
  transactionalCallers : List String
  dispatchCallers : List String
  receiptCallers : List String
  adminCallers : List String

/-- The checks of one role. A caller is a duplicate when it is among those before it. -/
def invalidCallers (callers : List String) : Bool :=
  callers.isEmpty || decide (64 < callers.length) || callers.any (fun c ↦ !validInstance c) ||
    (callers.zipIdx.any fun p ↦ decide (p.1 ∈ callers.take p.2))

namespace RawConfig

/-- The four authority roles. -/
def roles (config : RawConfig) : List (List String) :=
  [config.transactionalCallers, config.dispatchCallers, config.receiptCallers, config.adminCallers]

def validate (config : RawConfig) : Except NotificationConfigError Unit := do
  ensure (config.schema = "notification") .invalidSchema
  ensure
    (validSecretReference config.databaseUrlSecret = true ∧
      validSecretReference config.snapshotKeySecret = true ∧
      config.databaseUrlSecret ≠ config.snapshotKeySecret)
    .invalidSecretReference
  ensure
    (∀ callers ∈ config.roles, invalidCallers callers = false) .invalidCallers

end RawConfig

def validateConfig (config : RawConfig) : Except RuntimeFailure Unit :=
  config.validate.mapError fun e ↦ .invalidResolvedPlan e.text

/-- The index check is for duplicates. -/
theorem any_mem_take_eq_false {callers : List String} :
    (callers.zipIdx.any fun p ↦ decide (p.1 ∈ callers.take p.2)) = false ↔ callers.Nodup := by
  rw [List.any_eq_false, List.nodup_iff_getElem?_ne_getElem?]
  constructor
  · intro h i j hij hj heq
    obtain ⟨c, hc⟩ : ∃ c, callers[j]? = some c := ⟨_, List.getElem?_eq_getElem hj⟩
    refine h (c, j) (List.mk_mem_zipIdx_iff_getElem?.mpr hc) (decide_eq_true ?_)
    refine List.mem_of_getElem? (i := i) ?_
    rw [List.getElem?_take_of_lt hij, heq, hc]
  · rintro h ⟨c, j⟩ hmem hdup
    have hc := List.mk_mem_zipIdx_iff_getElem?.mp hmem
    obtain ⟨i, hi⟩ := List.mem_iff_getElem?.mp (of_decide_eq_true hdup)
    have hij : i < j := by
      have hlt := (List.getElem?_eq_some_iff.mp hi).1
      rw [List.length_take] at hlt
      omega
    rw [List.getElem?_take_of_lt hij] at hi
    exact h i j hij (List.getElem?_eq_some_iff.mp hc).1 (hi.trans hc.symm)

theorem invalidCallers_eq_false {callers : List String} :
    invalidCallers callers = false ↔ ValidCallers callers := by
  rw [invalidCallers, Bool.or_eq_false_iff, any_mem_take_eq_false]
  simp only [ValidCallers, Bool.or_eq_false_iff, List.isEmpty_eq_false_iff,
    decide_eq_false_iff_not, Nat.not_lt, List.any_eq_false, Bool.not_eq_true', Bool.not_eq_false,
    and_assoc]

namespace RawConfig

variable {config : RawConfig}

theorem validate_eq_ok : config.validate = .ok () ↔
    config.schema = "notification" ∧
      (validSecretReference config.databaseUrlSecret = true ∧
        validSecretReference config.snapshotKeySecret = true ∧
        config.databaseUrlSecret ≠ config.snapshotKeySecret) ∧
      ∀ callers ∈ config.roles, ValidCallers callers := by
  rw [validate, ensure_bind_eq_ok, ensure_bind_eq_ok, ensure_eq_ok]
  simp only [invalidCallers_eq_false]

theorem forall_mem_roles {P : List String → Prop} : (∀ callers ∈ config.roles, P callers) ↔
    P config.transactionalCallers ∧ P config.dispatchCallers ∧ P config.receiptCallers ∧
      P config.adminCallers := by
  simp only [roles, List.forall_mem_cons, List.not_mem_nil, false_imp_iff, implies_true, and_true]

/-- The published schema, `configuration.schema.json`. -/
structure Conforms (config : RawConfig) : Prop where
  schema : config.schema = "notification"
  databaseUrlSecret : config.databaseUrlSecret.length ∈ Set.Icc 1 256
  snapshotKeySecret : config.snapshotKeySecret.length ∈ Set.Icc 1 256
  items : ∀ callers ∈ config.roles, callers.length ∈ Set.Icc 1 64
  uniqueItems : ∀ callers ∈ config.roles, callers.Nodup
  item : ∀ callers ∈ config.roles, ∀ caller ∈ callers, caller.length ∈ Set.Icc 1 160

theorem conforms_of_validate (h : config.validate = .ok ()) : config.Conforms := by
  obtain ⟨hschema, ⟨hdatabase, hsnapshot, -⟩, hroles⟩ := validate_eq_ok.mp h
  exact {
    schema := hschema
    databaseUrlSecret := length_of_validSecretReference hdatabase
    snapshotKeySecret := length_of_validSecretReference hsnapshot
    items := fun callers hmem ↦
      ⟨List.length_pos_iff.mpr (hroles callers hmem).1, (hroles callers hmem).2.1⟩
    uniqueItems := fun callers hmem ↦ (hroles callers hmem).2.2.2
    item := fun callers hmem caller hcaller ↦
      length_of_validInstance ((hroles callers hmem).2.2.1 caller hcaller) }

/-- **An accepted configuration names two secrets.** It conforms to the published schema; its two
references, read as paths from a root, lead strictly below it and to different places; and its roles
are valid as the system assumes them. -/
theorem secrets_apart (h : validateConfig config = .ok ()) (root : List (List Char)) :
    config.Conforms ∧
      (∃ p q, p ≠ [] ∧ q ≠ [] ∧ p ≠ q ∧ resolve root config.databaseUrlSecret = root ++ p ∧
        resolve root config.snapshotKeySecret = root ++ q) ∧
      ∃ accepted : NotificationConfig,
        accepted.transactionalCallers = config.transactionalCallers ∧
          accepted.dispatchCallers = config.dispatchCallers ∧
          accepted.receiptCallers = config.receiptCallers ∧
          accepted.adminCallers = config.adminCallers := by
  have hvalid := mapError_eq_ok.mp h
  obtain ⟨-, ⟨hdatabase, hsnapshot, hne⟩, hroles⟩ := validate_eq_ok.mp hvalid
  refine ⟨conforms_of_validate hvalid, ?_,
    ⟨_, _, _, _, forall_mem_roles.mp hroles⟩, rfl, rfl, rfl, rfl⟩
  exact ⟨_, _, segments_ne_nil _, segments_ne_nil _, segments_injective.ne hne,
    resolve_of_valid hdatabase root, resolve_of_valid hsnapshot root⟩

/-- The configuration of a deployment with one instance for each role. -/
def deployed : RawConfig where
  schema := "notification"
  databaseUrlSecret := "notification/database-url"
  snapshotKeySecret := "notification/snapshot-key"
  transactionalCallers := ["org"]
  dispatchCallers := ["jobs"]
  receiptCallers := ["receipts"]
  adminCallers := ["admin"]

theorem deployed_accepted : validateConfig deployed = .ok () :=
  mapError_eq_ok.mpr (validate_eq_ok.mpr (by decide +kernel))

theorem secrets_apart_deployed :
    ∃ p q, p ≠ q ∧ resolve [] deployed.databaseUrlSecret = p ∧
      resolve [] deployed.snapshotKeySecret = q := by
  obtain ⟨-, ⟨p, q, -, -, hne, hp, hq⟩, -⟩ := secrets_apart deployed_accepted []
  exact ⟨p, q, hne, hp, hq⟩

end RawConfig

end NotificationLedger

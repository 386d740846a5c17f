import NotificationLedger.Qualifying

/-!
# What the comparison of two fingerprints sees

Before a legacy schema is adopted, and whenever a managed one is verified, its fingerprint is
compared with that of a reference schema that the compiled migrations have just built under a
temporary name. Both are normalized first. Where the catalog answers with arrays and nothing in
their SQL misleads the scanner, the comparison forgets two things and no others: the qualifiers
among the tokens of the SQL, and which of the two schemas a table inherits from.

## Rows

A fingerprint is a list of texts for each catalog query, and a text is a JSON array. Normalization
changes an array at the fields that hold SQL, and at two fields that hold the schema of a relation.
For the first the scanner's result is known token by token; for the second the name of the schema
itself is replaced by a mark. What two normalized arrays have in common is read off field by field.
-/

namespace NotificationLedger

/-- What the catalog holds of a schema, one row of JSON for each object. -/
structure LegacySchemaFingerprint where
  schema : String
  relations : List String
  columns : List String
  constraints : List String
  indexes : List String
  triggers : List String
  types : List String
  routines : List String
  policies : List String
  inheritance : List String
  rules : List String
  securityLabels : List String
  publicationMemberships : List String
  deriving DecidableEq

namespace Operator

/-- What stands for the name of the schema itself. -/
def ownedSchema : String := "__lenso_owned_schema__"

/-- One field of a row that names a schema. -/
def normalizeNameField (schema : String) (values : List Json) (field : ℕ) : List Json :=
  match values[field]? with
  | some (.str name) => if name = schema then values.set field (.str ownedSchema) else values
  | _ => values

section Serde

variable (fromStr : String → Option Json) (toStr : Json → Option String)

def normalizeNameRow (fields : List ℕ) (schema row : String) : String :=
  match fromStr row with
  | some (.arr values) =>
    (toStr (.arr (fields.foldl (normalizeNameField schema) values))).getD row
  | _ => row

def normalizeSchemaNameFields (rows : List String) (fields : List ℕ) (schema : String) :
    List String :=
  rows.map (normalizeNameRow fromStr toStr fields schema)

end Serde

end Operator

open Operator

namespace LegacySchemaFingerprint

/-- The fingerprint without the name of its schema, or `none` where the scanner panics. -/
def normalized (fromStr : String → Option Json) (toStr : Json → Option String)
    (f : LegacySchemaFingerprint) (schema : String) : Option LegacySchemaFingerprint := do
  let columns ← normalizeSqlFields fromStr toStr f.columns [3, 5] schema
  let constraints ← normalizeSqlFields fromStr toStr f.constraints [7] schema
  let indexes ← normalizeSqlFields fromStr toStr f.indexes [18] schema
  let triggers ← normalizeSqlFields fromStr toStr f.triggers [3] schema
  let routines ← normalizeSqlFields fromStr toStr f.routines [1, 10] schema
  let policies ← normalizeSqlFields fromStr toStr f.policies [5, 6] schema
  let inheritance := normalizeSchemaNameFields fromStr toStr f.inheritance [0, 2] schema
  let rules ← normalizeSqlFields fromStr toStr f.rules [3] schema
  let publicationMemberships ←
    normalizeSqlFields fromStr toStr f.publicationMemberships [2] schema
  pure { f with
    columns, constraints, indexes, triggers, routines, policies, inheritance, rules,
    publicationMemberships }

end LegacySchemaFingerprint

namespace Operator

variable {fromStr : String → Option Json} {toStr : Json → Option String} {schema row : String}
  {rows : List String} {fields : List ℕ} {values : List Json}

/-! ## Rows of SQL

A row is legible if its fields are texts the scanner can read and the serializer reads back what it
has written. Two legible rows are normalized to one text exactly when their views agree. -/

/-- `to_string` and `from_str` agree on the value. -/
def ReadsBack (fromStr : String → Option Json) (toStr : Json → Option String) (v : Json) : Prop :=
  (toStr v).bind fromStr = some v

/-- The row is an array, and nothing in its SQL misleads the scanner. -/
def LegibleRow (fromStr : String → Option Json) (toStr : Json → Option String) (schema : String)
    (fields : List ℕ) (row : String) : Prop :=
  ∃ values, fromStr row = some (.arr values) ∧
    (∀ i ∈ fields, ∀ sql, values[i]? = some (.str sql) → HarmlessText schema sql) ∧
    ReadsBack fromStr toStr (.arr (stripFields schema fields values))

/-- What is read in a row of SQL. -/
def sqlView (fromStr : String → Option Json) (schema : String) (fields : List ℕ) (row : String) :
    Option Json :=
  (fromStr row).map (stripRow schema fields)

/-- What is written for the value of a row. -/
def written (toStr : Json → Option String) (v : Option Json) : String := (v.bind toStr).getD ""

/-- The normalized row is written for what was read in it, and read back. -/
theorem normalizeRow_of_legible (hname : IsName schema.toList) (hnodup : fields.Nodup)
    (h : LegibleRow fromStr toStr schema fields row) :
    normalizeRow fromStr toStr fields schema row =
        some (written toStr (sqlView fromStr schema fields row)) ∧
      fromStr (written toStr (sqlView fromStr schema fields row)) =
        sqlView fromStr schema fields row := by
  obtain ⟨values, hrow, hharmless, hreads⟩ := h
  obtain ⟨text, htext, hread⟩ := Option.bind_eq_some_iff.mp hreads
  have hview : sqlView fromStr schema fields row =
      some (.arr (stripFields schema fields values)) := by
    rw [sqlView, hrow]
    rfl
  have hwritten : written toStr (sqlView fromStr schema fields row) = text := by
    rw [hview, written, Option.bind_some, htext, Option.getD_some]
  refine ⟨?_, by rw [hwritten, hview, hread]⟩
  rw [hwritten, normalizeRow, hrow]
  simp only [normalizeFields_of_harmless hname hnodup hharmless, Option.map_some, htext,
    Option.getD_some]

theorem normalizeSqlFields_of_legible (hname : IsName schema.toList) (hnodup : fields.Nodup)
    (h : ∀ row ∈ rows, LegibleRow fromStr toStr schema fields row) :
    normalizeSqlFields fromStr toStr rows fields schema =
      some (rows.map fun row ↦ written toStr (sqlView fromStr schema fields row)) := by
  induction rows with
  | nil => rfl
  | cons row rows ih =>
    have hrows := ih fun row hrow ↦ h row (List.mem_cons_of_mem _ hrow)
    rw [normalizeSqlFields] at hrows ⊢
    rw [List.mapM_cons, (normalizeRow_of_legible hname hnodup (h row List.mem_cons_self)).1, hrows]
    rfl

/-- Rows that are read back are written alike exactly when they are read alike. -/
theorem map_written_iff {view view' : String → Option Json} {rows rows' : List String}
    (h : ∀ row ∈ rows, fromStr (written toStr (view row)) = view row)
    (h' : ∀ row ∈ rows', fromStr (written toStr (view' row)) = view' row) :
    (rows.map fun row ↦ written toStr (view row)) =
        (rows'.map fun row ↦ written toStr (view' row)) ↔ rows.map view = rows'.map view' := by
  constructor
  · intro heq
    have hread := congrArg (List.map fromStr) heq
    rw [List.map_map, List.map_map] at hread
    calc rows.map view = rows.map (fromStr ∘ fun row ↦ written toStr (view row)) :=
          (List.map_congr_left h).symm
      _ = rows'.map (fromStr ∘ fun row ↦ written toStr (view' row)) := hread
      _ = rows'.map view' := List.map_congr_left h'
  · intro heq
    have hwritten := congrArg (List.map (written toStr)) heq
    rwa [List.map_map, List.map_map] at hwritten

/-- The rows agree once the qualifiers among the tokens of their SQL are deleted. -/
def SameSql (fromStr : String → Option Json) (schema reference : String) (fields : List ℕ)
    (rows rows' : List String) : Prop :=
  rows.map (sqlView fromStr schema fields) = rows'.map (sqlView fromStr reference fields)

theorem sameSql_iff {reference : String} {rows' : List String} (hname : IsName schema.toList)
    (hreference : IsName reference.toList) (hnodup : fields.Nodup)
    (h : ∀ row ∈ rows, LegibleRow fromStr toStr schema fields row)
    (h' : ∀ row ∈ rows', LegibleRow fromStr toStr reference fields row) :
    normalizeSqlFields fromStr toStr rows fields schema =
        normalizeSqlFields fromStr toStr rows' fields reference ↔
      SameSql fromStr schema reference fields rows rows' := by
  rw [normalizeSqlFields_of_legible hname hnodup h,
    normalizeSqlFields_of_legible hreference hnodup h', Option.some_inj]
  exact map_written_iff
    (fun row hrow ↦ (normalizeRow_of_legible hname hnodup (h row hrow)).2)
    (fun row hrow ↦ (normalizeRow_of_legible hreference hnodup (h' row hrow)).2)

/-! ## Rows of names

The name of the schema itself becomes a mark, every other name stays. Two rows agree if they agree
in all other fields and in whether a relation is of the schema. -/

def renameValue (schema : String) : Json → Json
  | .str name => .str (if name = schema then ownedSchema else name)
  | v => v

/-- The values with the name of the schema replaced in the fields. -/
def renameFields (schema : String) (fields : List ℕ) (values : List Json) : List Json :=
  values.mapIdx fun i v ↦ if i ∈ fields then renameValue schema v else v

theorem getElem?_renameFields (schema : String) (fields : List ℕ) (values : List Json) (i : ℕ) :
    (renameFields schema fields values)[i]? =
      values[i]?.map fun v ↦ if i ∈ fields then renameValue schema v else v := by
  rw [renameFields, List.getElem?_mapIdx]

theorem getElem?_normalizeNameField (schema : String) (values : List Json) (field i : ℕ) :
    (normalizeNameField schema values field)[i]? =
      values[i]?.map fun v ↦ if i = field then renameValue schema v else v := by
  rw [normalizeNameField]
  split
  · rename_i name hname
    obtain ⟨hlt, hget⟩ := List.getElem?_eq_some_iff.mp hname
    by_cases hi : i = field
    · subst hi
      by_cases hown : name = schema <;> simp [hlt, hget, renameValue, hown]
    · by_cases hown : name = schema <;> simp [hi, hown, Ne.symm hi]
  · rename_i hother
    by_cases hi : i = field
    · subst hi
      cases hv : values[i]? with
      | none => rfl
      | some v =>
        cases v with
        | str name => exact absurd hv (hother name)
        | _ => simp [renameValue]
    · simp [hi]

theorem foldl_normalizeNameField (hnodup : fields.Nodup) :
    fields.foldl (normalizeNameField schema) values = renameFields schema fields values := by
  induction fields generalizing values with
  | nil =>
    refine List.ext_getElem? fun i ↦ ?_
    rw [getElem?_renameFields]
    simp
  | cons field fields ih =>
    obtain ⟨hnotMem, hnodup⟩ := List.nodup_cons.mp hnodup
    rw [List.foldl_cons, ih hnodup]
    refine List.ext_getElem? fun i ↦ ?_
    rw [getElem?_renameFields, getElem?_renameFields, getElem?_normalizeNameField,
      Option.map_map]
    congr 1
    funext v
    by_cases hi : i = field
    · subst hi
      simp [hnotMem]
    · simp [hi]

/-- The row is an array, and names no schema by the replacement. -/
def NamedRow (fromStr : String → Option Json) (toStr : Json → Option String) (schema : String)
    (fields : List ℕ) (row : String) : Prop :=
  ∃ values, fromStr row = some (.arr values) ∧
    (∀ i ∈ fields, values[i]? ≠ some (.str ownedSchema)) ∧
    ReadsBack fromStr toStr (.arr (renameFields schema fields values))

/-- A value that may name a schema, `none` for the schema itself. -/
def ownValue (schema : String) : Json → Option Json
  | .str name => if name = schema then none else some (.str name)
  | v => some v

/-- The values, `none` where one of the fields names the schema itself. -/
def ownFields (schema : String) (fields : List ℕ) (values : List Json) : List (Option Json) :=
  values.mapIdx fun i v ↦ if i ∈ fields then ownValue schema v else some v

theorem getElem?_ownFields (schema : String) (fields : List ℕ) (values : List Json) (i : ℕ) :
    (ownFields schema fields values)[i]? =
      values[i]?.map fun v ↦ if i ∈ fields then ownValue schema v else some v := by
  rw [ownFields, List.getElem?_mapIdx]

/-- What is read in a row of names. -/
def nameView (fromStr : String → Option Json) (schema : String) (fields : List ℕ) (row : String) :
    Option (List (Option Json)) :=
  match fromStr row with
  | some (.arr values) => some (ownFields schema fields values)
  | _ => none

/-- Where nothing is named by the replacement, it stands for the schema alone. -/
theorem renameValue_eq_iff {reference : String} {v v' : Json} (h : v ≠ .str ownedSchema)
    (h' : v' ≠ .str ownedSchema) :
    renameValue schema v = renameValue reference v' ↔
      ownValue schema v = ownValue reference v' := by
  cases v with
  | str name =>
    cases v' with
    | str name' =>
      have hname : name ≠ ownedSchema := fun heq ↦ h (heq ▸ rfl)
      have hname' : name' ≠ ownedSchema := fun heq ↦ h' (heq ▸ rfl)
      by_cases hown : name = schema <;> by_cases hown' : name' = reference <;>
        simp [renameValue, ownValue, hown, hown', hname, Ne.symm hname']
    | _ => by_cases hown : name = schema <;> simp [renameValue, ownValue, hown]
  | _ =>
    cases v' with
    | str name' => by_cases hown' : name' = reference <;> simp [renameValue, ownValue, hown']
    | _ => simp [renameValue, ownValue]

theorem renameFields_eq_iff {reference : String} {values' : List Json}
    (h : ∀ i ∈ fields, values[i]? ≠ some (.str ownedSchema))
    (h' : ∀ i ∈ fields, values'[i]? ≠ some (.str ownedSchema)) :
    renameFields schema fields values = renameFields reference fields values' ↔
      ownFields schema fields values = ownFields reference fields values' := by
  simp only [List.ext_getElem?_iff, getElem?_renameFields, getElem?_ownFields]
  refine forall_congr' fun i ↦ ?_
  cases hv : values[i]? with
  | none => cases hv' : values'[i]? <;> simp
  | some v =>
    cases hv' : values'[i]? with
    | none => simp
    | some v' =>
      by_cases hi : i ∈ fields
      · simp only [hi, if_true, Option.map_some, Option.some_inj]
        exact renameValue_eq_iff (fun heq ↦ h i hi (heq ▸ hv)) (fun heq ↦ h' i hi (heq ▸ hv'))
      · simp [hi]

/-- The row with the name of the schema replaced, as a value. -/
def renameRow (fromStr : String → Option Json) (schema : String) (fields : List ℕ)
    (row : String) : Option Json :=
  match fromStr row with
  | some (.arr values) => some (.arr (renameFields schema fields values))
  | _ => none

theorem normalizeNameRow_of_named (hnodup : fields.Nodup)
    (h : NamedRow fromStr toStr schema fields row) :
    normalizeNameRow fromStr toStr fields schema row =
        written toStr (renameRow fromStr schema fields row) ∧
      fromStr (written toStr (renameRow fromStr schema fields row)) =
        renameRow fromStr schema fields row := by
  obtain ⟨values, hrow, -, hreads⟩ := h
  obtain ⟨text, htext, hread⟩ := Option.bind_eq_some_iff.mp hreads
  have hrename : renameRow fromStr schema fields row =
      some (.arr (renameFields schema fields values)) := by
    rw [renameRow, hrow]
  have hwritten : written toStr (renameRow fromStr schema fields row) = text := by
    rw [hrename, written, Option.bind_some, htext, Option.getD_some]
  refine ⟨?_, by rw [hwritten, hrename, hread]⟩
  rw [hwritten, normalizeNameRow, hrow]
  simp only [foldl_normalizeNameField hnodup, htext, Option.getD_some]

/-- The rows agree up to which of their fields name the schema itself. -/
def SameNames (fromStr : String → Option Json) (schema reference : String) (fields : List ℕ)
    (rows rows' : List String) : Prop :=
  rows.map (nameView fromStr schema fields) = rows'.map (nameView fromStr reference fields)

theorem map_renameRow_iff {reference : String} {rows' : List String}
    (h : ∀ row ∈ rows, NamedRow fromStr toStr schema fields row)
    (h' : ∀ row ∈ rows', NamedRow fromStr toStr reference fields row) :
    rows.map (renameRow fromStr schema fields) = rows'.map (renameRow fromStr reference fields) ↔
      SameNames fromStr schema reference fields rows rows' := by
  rw [SameNames]
  induction rows generalizing rows' with
  | nil => cases rows' <;> simp
  | cons row rows ih =>
    cases rows' with
    | nil => simp
    | cons row' rows' =>
      obtain ⟨values, hrow, hother, -⟩ := h row List.mem_cons_self
      obtain ⟨values', hrow', hother', -⟩ := h' row' List.mem_cons_self
      rw [List.map_cons, List.map_cons, List.map_cons, List.map_cons, List.cons.injEq,
        List.cons.injEq, ih (fun row hrow ↦ h row (List.mem_cons_of_mem _ hrow))
          (fun row hrow ↦ h' row (List.mem_cons_of_mem _ hrow))]
      simp only [renameRow, nameView, hrow, hrow', Option.some_inj, Json.arr.injEq,
        renameFields_eq_iff hother hother']

theorem sameNames_iff {reference : String} {rows' : List String} (hnodup : fields.Nodup)
    (h : ∀ row ∈ rows, NamedRow fromStr toStr schema fields row)
    (h' : ∀ row ∈ rows', NamedRow fromStr toStr reference fields row) :
    normalizeSchemaNameFields fromStr toStr rows fields schema =
        normalizeSchemaNameFields fromStr toStr rows' fields reference ↔
      SameNames fromStr schema reference fields rows rows' := by
  have hrows : normalizeSchemaNameFields fromStr toStr rows fields schema =
      rows.map fun row ↦ written toStr (renameRow fromStr schema fields row) :=
    List.map_congr_left fun row hrow ↦ (normalizeNameRow_of_named hnodup (h row hrow)).1
  have hrows' : normalizeSchemaNameFields fromStr toStr rows' fields reference =
      rows'.map fun row ↦ written toStr (renameRow fromStr reference fields row) :=
    List.map_congr_left fun row hrow ↦ (normalizeNameRow_of_named hnodup (h' row hrow)).1
  rw [hrows, hrows', ← map_renameRow_iff h h']
  exact map_written_iff
    (fun row hrow ↦ (normalizeNameRow_of_named hnodup (h row hrow)).2)
    (fun row hrow ↦ (normalizeNameRow_of_named hnodup (h' row hrow)).2)

end Operator

namespace LegacySchemaFingerprint

variable {fromStr : String → Option Json} {toStr : Json → Option String}
  {f f' g g' : LegacySchemaFingerprint} {managed reference : String}

/-! ## The fingerprints

The parts are compared one by one; each equivalence is that of its rows. The catalog at the end is
one the code can be given, with a relation that inherits within its schema. -/

/-- The catalog answered with arrays, whose SQL does not mislead the scanner. -/
structure Legible (fromStr : String → Option Json) (toStr : Json → Option String)
    (f : LegacySchemaFingerprint) (name : String) : Prop where
  columns : ∀ row ∈ f.columns, LegibleRow fromStr toStr name [3, 5] row
  constraints : ∀ row ∈ f.constraints, LegibleRow fromStr toStr name [7] row
  indexes : ∀ row ∈ f.indexes, LegibleRow fromStr toStr name [18] row
  triggers : ∀ row ∈ f.triggers, LegibleRow fromStr toStr name [3] row
  routines : ∀ row ∈ f.routines, LegibleRow fromStr toStr name [1, 10] row
  policies : ∀ row ∈ f.policies, LegibleRow fromStr toStr name [5, 6] row
  inheritance : ∀ row ∈ f.inheritance, NamedRow fromStr toStr name [0, 2] row
  rules : ∀ row ∈ f.rules, LegibleRow fromStr toStr name [3] row
  publicationMemberships :
    ∀ row ∈ f.publicationMemberships, LegibleRow fromStr toStr name [2] row

/-- The two schemas are the same but for their names. -/
structure Agrees (fromStr : String → Option Json) (managed reference : String)
    (f g : LegacySchemaFingerprint) : Prop where
  schema : f.schema = g.schema
  relations : f.relations = g.relations
  columns : SameSql fromStr managed reference [3, 5] f.columns g.columns
  constraints : SameSql fromStr managed reference [7] f.constraints g.constraints
  indexes : SameSql fromStr managed reference [18] f.indexes g.indexes
  triggers : SameSql fromStr managed reference [3] f.triggers g.triggers
  types : f.types = g.types
  routines : SameSql fromStr managed reference [1, 10] f.routines g.routines
  policies : SameSql fromStr managed reference [5, 6] f.policies g.policies
  inheritance : SameNames fromStr managed reference [0, 2] f.inheritance g.inheritance
  rules : SameSql fromStr managed reference [3] f.rules g.rules
  securityLabels : f.securityLabels = g.securityLabels
  publicationMemberships :
    SameSql fromStr managed reference [2] f.publicationMemberships g.publicationMemberships

/-- What normalizing does to each of the parts. -/
structure Normalizes (fromStr : String → Option Json) (toStr : Json → Option String)
    (name : String) (f f' : LegacySchemaFingerprint) : Prop where
  schema : f'.schema = f.schema
  relations : f'.relations = f.relations
  columns : normalizeSqlFields fromStr toStr f.columns [3, 5] name = some f'.columns
  constraints : normalizeSqlFields fromStr toStr f.constraints [7] name = some f'.constraints
  indexes : normalizeSqlFields fromStr toStr f.indexes [18] name = some f'.indexes
  triggers : normalizeSqlFields fromStr toStr f.triggers [3] name = some f'.triggers
  types : f'.types = f.types
  routines : normalizeSqlFields fromStr toStr f.routines [1, 10] name = some f'.routines
  policies : normalizeSqlFields fromStr toStr f.policies [5, 6] name = some f'.policies
  inheritance :
    normalizeSchemaNameFields fromStr toStr f.inheritance [0, 2] name = f'.inheritance
  rules : normalizeSqlFields fromStr toStr f.rules [3] name = some f'.rules
  securityLabels : f'.securityLabels = f.securityLabels
  publicationMemberships :
    normalizeSqlFields fromStr toStr f.publicationMemberships [2] name =
      some f'.publicationMemberships

theorem exists_normalizes (hname : IsName managed.toList) (h : f.Legible fromStr toStr managed) :
    ∃ f', f.normalized fromStr toStr managed = some f' ∧
      Normalizes fromStr toStr managed f f' := by
  have hsql : ∀ {rows : List String} {fields : List ℕ}, fields.Nodup →
      (∀ row ∈ rows, LegibleRow fromStr toStr managed fields row) →
      ∃ out, normalizeSqlFields fromStr toStr rows fields managed = some out :=
    fun hnodup hrows ↦ ⟨_, normalizeSqlFields_of_legible hname hnodup hrows⟩
  obtain ⟨columns, hcolumns⟩ := hsql (by decide) h.columns
  obtain ⟨constraints, hconstraints⟩ := hsql (by decide) h.constraints
  obtain ⟨indexes, hindexes⟩ := hsql (by decide) h.indexes
  obtain ⟨triggers, htriggers⟩ := hsql (by decide) h.triggers
  obtain ⟨routines, hroutines⟩ := hsql (by decide) h.routines
  obtain ⟨policies, hpolicies⟩ := hsql (by decide) h.policies
  obtain ⟨rules, hrules⟩ := hsql (by decide) h.rules
  obtain ⟨memberships, hmemberships⟩ := hsql (by decide) h.publicationMemberships
  have hnormalized : f.normalized fromStr toStr managed = some { f with
      columns, constraints, indexes, triggers, routines, policies, rules
      inheritance := normalizeSchemaNameFields fromStr toStr f.inheritance [0, 2] managed
      publicationMemberships := memberships } := by
    simp only [normalized, hcolumns, hconstraints, hindexes, htriggers, hroutines, hpolicies,
      hrules, hmemberships, Option.bind_eq_bind, Option.bind_some]
    rfl
  exact ⟨_, hnormalized, ⟨rfl, rfl, hcolumns, hconstraints, hindexes, htriggers, rfl, hroutines,
    hpolicies, rfl, hrules, rfl, hmemberships⟩⟩

theorem Normalizes.eq_iff (hname : IsName managed.toList) (hreference : IsName reference.toList)
    (hf : f.Legible fromStr toStr managed) (hg : g.Legible fromStr toStr reference)
    (hf' : Normalizes fromStr toStr managed f f')
    (hg' : Normalizes fromStr toStr reference g g') :
    f' = g' ↔ f.Agrees fromStr managed reference g := by
  have hsql : ∀ {rows rows' : List String} {fields : List ℕ} {out out' : List String},
      fields.Nodup → (∀ row ∈ rows, LegibleRow fromStr toStr managed fields row) →
      (∀ row ∈ rows', LegibleRow fromStr toStr reference fields row) →
      normalizeSqlFields fromStr toStr rows fields managed = some out →
      normalizeSqlFields fromStr toStr rows' fields reference = some out' →
      (out = out' ↔ SameSql fromStr managed reference fields rows rows') := by
    intro rows rows' fields out out' hnodup hrows hrows' hout hout'
    rw [← sameSql_iff hname hreference hnodup hrows hrows', hout, hout', Option.some_inj]
  have hcolumns := hsql (by decide) hf.columns hg.columns hf'.columns hg'.columns
  have hconstraints :=
    hsql (by decide) hf.constraints hg.constraints hf'.constraints hg'.constraints
  have hindexes := hsql (by decide) hf.indexes hg.indexes hf'.indexes hg'.indexes
  have htriggers := hsql (by decide) hf.triggers hg.triggers hf'.triggers hg'.triggers
  have hroutines := hsql (by decide) hf.routines hg.routines hf'.routines hg'.routines
  have hpolicies := hsql (by decide) hf.policies hg.policies hf'.policies hg'.policies
  have hrules := hsql (by decide) hf.rules hg.rules hf'.rules hg'.rules
  have hmemberships := hsql (by decide) hf.publicationMemberships hg.publicationMemberships
    hf'.publicationMemberships hg'.publicationMemberships
  have hinheritance := sameNames_iff (by decide) hf.inheritance hg.inheritance
  rw [hf'.inheritance, hg'.inheritance] at hinheritance
  constructor
  · rintro rfl
    exact {
      schema := hf'.schema.symm.trans hg'.schema
      relations := hf'.relations.symm.trans hg'.relations
      columns := hcolumns.mp rfl
      constraints := hconstraints.mp rfl
      indexes := hindexes.mp rfl
      triggers := htriggers.mp rfl
      types := hf'.types.symm.trans hg'.types
      routines := hroutines.mp rfl
      policies := hpolicies.mp rfl
      inheritance := hinheritance.mp rfl
      rules := hrules.mp rfl
      securityLabels := hf'.securityLabels.symm.trans hg'.securityLabels
      publicationMemberships := hmemberships.mp rfl }
  · intro h
    have hschema := (hf'.schema.trans h.schema).trans hg'.schema.symm
    have hrelations := (hf'.relations.trans h.relations).trans hg'.relations.symm
    have htypes := (hf'.types.trans h.types).trans hg'.types.symm
    have hlabels := (hf'.securityLabels.trans h.securityLabels).trans hg'.securityLabels.symm
    have hcolumns := hcolumns.mpr h.columns
    have hconstraints := hconstraints.mpr h.constraints
    have hindexes := hindexes.mpr h.indexes
    have htriggers := htriggers.mpr h.triggers
    have hroutines := hroutines.mpr h.routines
    have hpolicies := hpolicies.mpr h.policies
    have hinheritance := hinheritance.mpr h.inheritance
    have hrules := hrules.mpr h.rules
    have hmemberships := hmemberships.mpr h.publicationMemberships
    cases f'
    cases g'
    subst hschema hrelations htypes hlabels hcolumns hconstraints hindexes htriggers hroutines
      hpolicies hinheritance hrules hmemberships
    rfl

/-- **The comparison forgets the names of the schemas and nothing else.** Two legible fingerprints
are equal once they are normalized exactly when they agree: in every value but the SQL, in the SQL
without the qualifiers among its tokens, and in which tables inherit within the schema. -/
theorem normalized_eq_iff (hname : IsName managed.toList) (hreference : IsName reference.toList)
    (hf : f.Legible fromStr toStr managed) (hg : g.Legible fromStr toStr reference) :
    ∃ f' g', f.normalized fromStr toStr managed = some f' ∧
      g.normalized fromStr toStr reference = some g' ∧
      (f' = g' ↔ f.Agrees fromStr managed reference g) := by
  obtain ⟨f', hf', hnormalizes⟩ := exists_normalizes hname hf
  obtain ⟨g', hg', hnormalizes'⟩ := exists_normalizes hreference hg
  exact ⟨f', g', hf', hg', hnormalizes.eq_iff hname hreference hf hg hnormalizes'⟩

/-! A table that is published in part, and one that inherits from another. -/

def published (condition : String) : Json := .arr [.str "all", .str "attempts", .str condition]

def inherits (child parent : String) : Json :=
  .arr [.str child, .str "attempts", .str parent, .str "intents", .num 1, .bool false]

/-- The rows of the two schemas, and what is written for them. -/
def catalog : List Json :=
  [published "notification.status <> 'notification.'", inherits "notification" "notification",
    published "pg_temp.status <> 'notification.'", inherits "pg_temp_3" "pg_temp_3",
    published "status <> 'notification.'", inherits ownedSchema ownedSchema]

def printRow (v : Json) : String := String.ofList (v.print fun _ ↦ [])

def readCatalog (row : String) : Option Json := catalog.find? fun v ↦ printRow v = row

def fingerprintOf (publication inheritance : Json) : LegacySchemaFingerprint where
  schema := "[\"notification\",\"\",\"\"]"
  relations := []
  columns := []
  constraints := []
  indexes := []
  triggers := []
  types := []
  routines := []
  policies := []
  inheritance := [printRow inheritance]
  rules := []
  securityLabels := []
  publicationMemberships := [printRow publication]

theorem readCatalog_printRow : ∀ i, (h : i < catalog.length) →
    readCatalog (printRow catalog[i]) = some catalog[i] := by
  intro i h
  have hnodup : (catalog.map printRow).Nodup := by decide +kernel
  rw [readCatalog, List.find?_eq_some_iff_getElem]
  refine ⟨by simp, i, h, rfl, fun j hj ↦ ?_⟩
  simp only [Bool.not_eq_eq_eq_not, Bool.not_true, decide_eq_false_iff_not]
  intro heq
  exact absurd (List.pairwise_iff_getElem.mp hnodup j i (by simpa using hj.trans h) (by simpa) hj)
    (by simpa using heq)

/-- A row of the catalog is read back where it is in it. -/
theorem readsBack_of_mem {v : Json} (i : ℕ) (h : i < catalog.length) (hv : catalog[i] = v) :
    ReadsBack readCatalog (some ∘ printRow) v := by
  rw [ReadsBack, Function.comp_apply, Option.bind_some, ← hv]
  exact readCatalog_printRow i h

theorem legible_fingerprintOf {name condition result : String}
    (hpublished : readCatalog (printRow (published condition)) = some (published condition))
    (hinherits : readCatalog (printRow (inherits name name)) = some (inherits name name))
    (hother : name ≠ ownedSchema) (hharmless : HarmlessText name condition)
    (hstripped : stripped name condition = result)
    (hresult : ReadsBack readCatalog (some ∘ printRow) (published result)) :
    (fingerprintOf (published condition) (inherits name name)).Legible readCatalog
      (some ∘ printRow) name := by
  constructor <;> simp only [fingerprintOf, List.mem_singleton, forall_eq, List.not_mem_nil,
    IsEmpty.forall_iff, implies_true]
  · refine ⟨_, hinherits, ?_, ?_⟩
    · simp [hother]
    · have hfields : renameFields name [0, 2] [.str name, .str "attempts", .str name,
          .str "intents", .num 1, .bool false] = [.str ownedSchema, .str "attempts",
          .str ownedSchema, .str "intents", .num 1, .bool false] := by
        simp [renameFields, renameValue]
      rw [hfields]
      exact readsBack_of_mem 5 (by decide) rfl
  · refine ⟨_, hpublished, ?_, ?_⟩
    · simpa using hharmless
    · have hfields : stripFields name [2] [.str "all", .str "attempts", .str condition] =
          [.str "all", .str "attempts", .str result] := by
        simp [stripFields, stripValue, hstripped]
      rw [hfields]
      exact hresult

/-- The alias for one schema is deleted as the name of the other is. -/
theorem normalized_eq_iff_attempts :
    ∃ f' g',
      (fingerprintOf (published "notification.status <> 'notification.'")
          (inherits "notification" "notification")).normalized readCatalog (some ∘ printRow)
        "notification" = some f' ∧
      (fingerprintOf (published "pg_temp.status <> 'notification.'")
          (inherits "pg_temp_3" "pg_temp_3")).normalized readCatalog (some ∘ printRow)
        "pg_temp_3" = some g' ∧ f' = g' := by
  have hpublished : readCatalog (printRow (published "notification.status <> 'notification.'")) =
      some (published "notification.status <> 'notification.'") :=
    readCatalog_printRow 0 (by decide)
  have hinherits : readCatalog (printRow (inherits "notification" "notification")) =
      some (inherits "notification" "notification") := readCatalog_printRow 1 (by decide)
  have hpublished' : readCatalog (printRow (published "pg_temp.status <> 'notification.'")) =
      some (published "pg_temp.status <> 'notification.'") := readCatalog_printRow 2 (by decide)
  have hinherits' : readCatalog (printRow (inherits "pg_temp_3" "pg_temp_3")) =
      some (inherits "pg_temp_3" "pg_temp_3") := readCatalog_printRow 3 (by decide)
  have hstripped : stripped "notification" "notification.status <> 'notification.'" =
      "status <> 'notification.'" := by decide +kernel
  have hstripped' : stripped "pg_temp_3" "pg_temp.status <> 'notification.'" =
      "status <> 'notification.'" := by decide +kernel
  have hresult := @readsBack_of_mem (published "status <> 'notification.'") 4 (by decide) rfl
  obtain ⟨f', g', hf', hg', hiff⟩ := normalized_eq_iff (by decide) (by decide)
    (legible_fingerprintOf hpublished hinherits (by decide) (by decide +kernel) hstripped hresult)
    (legible_fingerprintOf hpublished' hinherits' (by decide) (by decide +kernel) hstripped'
      hresult)
  have hinheritance : SameNames readCatalog "notification" "pg_temp_3" [0, 2]
      [printRow (inherits "notification" "notification")]
      [printRow (inherits "pg_temp_3" "pg_temp_3")] := by
    simp only [SameNames, List.map_cons, List.map_nil, nameView, hinherits, hinherits']
    simp [inherits, ownFields, ownValue]
  have hmemberships : SameSql readCatalog "notification" "pg_temp_3" [2]
      [printRow (published "notification.status <> 'notification.'")]
      [printRow (published "pg_temp.status <> 'notification.'")] := by
    simp only [SameSql, List.map_cons, List.map_nil, sqlView, hpublished, hpublished']
    simp [published, stripRow, stripFields, stripValue, hstripped, hstripped']
  have hnone : ∀ fields, SameSql readCatalog "notification" "pg_temp_3" fields [] [] := by
    intro fields
    rw [SameSql, List.map_nil, List.map_nil]
  exact ⟨f', g', hf', hg', hiff.mpr ⟨rfl, rfl, hnone _, hnone _, hnone _, hnone _, rfl, hnone _,
    hnone _, hinheritance, hnone _, rfl, hmemberships⟩⟩

end LegacySchemaFingerprint

end NotificationLedger

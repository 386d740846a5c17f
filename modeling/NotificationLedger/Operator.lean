import NotificationLedger.Foundation.Json
import NotificationLedger.Foundation.Utf8

/-!
# Normalizing the catalog

The operator compares the installed schema with a reference that was built under another schema
name. Before the comparison the qualifiers of the schema are deleted from the SQL texts of the
catalog rows, by a scanner that walks over the bytes of a text and copies everything else.

A slice that is not at a character boundary, an index out of range and an `expect` without a
character are panics: here they are `none`. The loop takes fuel, which `normalizeSqlQualifiers` sets
to the length of the text.
-/

namespace NotificationLedger

namespace Operator

open Utf8

/-! ## Bytes

The source works on `as_bytes`, where a character beyond ASCII is several bytes of 128 and more. -/

/-- `u8::is_ascii_alphabetic`. -/
def isAsciiAlphabetic (b : UInt8) : Bool :=
  decide (97 ≤ b.toNat ∧ b.toNat ≤ 122) || decide (65 ≤ b.toNat ∧ b.toNat ≤ 90)

/-- `u8::is_ascii_alphanumeric`. -/
def isAsciiAlphanumeric (b : UInt8) : Bool :=
  isAsciiAlphabetic b || decide (48 ≤ b.toNat ∧ b.toNat ≤ 57)

/-- The bytes after which no token starts. -/
def isIdentifierByte (b : UInt8) : Bool :=
  isAsciiAlphanumeric b || decide (b.toNat = 95) || decide (b.toNat = 36)

/-- `&bytes[start..stop]`. -/
def slice (bytes : List UInt8) (start stop : ℕ) : Option (List UInt8) :=
  if start ≤ stop ∧ stop ≤ bytes.length then some ((bytes.take stop).drop start) else none

/-! ## Dollar quotes

A delimiter goes from one dollar sign to the next. The search and the test of the tag are on bytes;
the delimiter itself is a slice of the text. -/

/-- The condition on the tag between the two dollar signs. -/
def validTag (tag : List UInt8) : Option Bool :=
  if tag.isEmpty then some true
  else do
    let first ← tag[0]?
    if isAsciiAlphabetic first || decide (first.toNat = 95) then do
      let others ← slice tag 1 tag.length
      pure (others.all fun b ↦ isAsciiAlphanumeric b || decide (b.toNat = 95))
    else pure false

/-- The delimiter of a dollar quote at the head of the text. -/
def dollarQuoteDelimiter (value : List Char) : Option (Option (List Char)) := do
  let bytes := bytes value
  match bytes.head? with
  | none => pure none
  | some first =>
    if first.toNat ≠ 36 then pure none
    else do
      let others ← slice bytes 1 bytes.length
      match others.findIdx? fun b ↦ decide (b.toNat = 36) with
      | none => pure none
      | some position => do
        let stop := position + 1
        let tag ← slice bytes 1 stop
        if ← validTag tag then some <$> sliceTo value (stop + 1) else pure none

/-! ## The scanner

One iteration of the loop at a time, with the quote that is open as its state. The order of the
tests is that of the source. -/

/-- The texts the scanner deletes. -/
def qualifiers (schema : List Char) : List (List Char) :=
  [schema ++ ['.'], '"' :: schema ++ ['"', '.']] ++
    if "pg_temp_".toList.isPrefixOf schema then ["pg_temp.".toList, "\"pg_temp\".".toList] else []

/-- The local variables of the loop. -/
structure Scanner where
  index : ℕ
  quote : Option (List Char)
  normalized : List Char
  deriving DecidableEq

variable (sql : List Char)

/-- An iteration inside a quote. -/
def insideQuote (delimiter : List Char) (s : Scanner) : Option Scanner := do
  let rest ← sliceFrom sql s.index
  if delimiter = ['\''] then do
    let character ← rest.head?
    let index := s.index + character.utf8Size
    let normalized := s.normalized ++ [character]
    if character = '\\' ∧ index < byteLen sql then do
      let escaped ← (← sliceFrom sql index).head?
      pure { s with index := index + escaped.utf8Size, normalized := normalized ++ [escaped] }
    else if character = '\'' then do
      let rest ← sliceFrom sql index
      if ['\''].isPrefixOf rest then
        pure { s with index := index + 1, normalized := normalized ++ ['\''] }
      else pure { index, quote := none, normalized }
    else pure { s with index, normalized }
  else if delimiter.isPrefixOf rest then
    pure {
      index := s.index + byteLen delimiter
      quote := none
      normalized := s.normalized ++ delimiter }
  else do
    let character ← rest.head?
    pure { s with
      index := s.index + character.utf8Size
      normalized := s.normalized ++ [character] }

/-- No identifier reaches up to the index. -/
def tokenBoundary (index : ℕ) : Option Bool :=
  if index = 0 then some true
  else (bytes sql)[index - 1]?.map fun b ↦ !isIdentifierByte b

/-- An iteration outside of every quote. -/
def outsideQuote (qualifiers : List (List Char)) (s : Scanner) : Option Scanner := do
  let rest ← sliceFrom sql s.index
  if ['\''].isPrefixOf rest then
    pure { index := s.index + 1, quote := some ['\''], normalized := s.normalized ++ ['\''] }
  else
    match ← dollarQuoteDelimiter rest with
    | some delimiter =>
      pure {
        index := s.index + byteLen delimiter
        quote := some delimiter
        normalized := s.normalized ++ delimiter }
    | none =>
      let boundary ← tokenBoundary sql s.index
      match if boundary then qualifiers.find? (·.isPrefixOf rest) else none with
      | some qualifier => pure { s with index := s.index + byteLen qualifier }
      | none =>
        if ['"'].isPrefixOf rest then
          pure { index := s.index + 1, quote := some ['"'], normalized := s.normalized ++ ['"'] }
        else do
          let character ← rest.head?
          pure { s with
            index := s.index + character.utf8Size
            normalized := s.normalized ++ [character] }

def iteration (qualifiers : List (List Char)) (s : Scanner) : Option Scanner :=
  match s.quote with
  | some delimiter => insideQuote sql delimiter s
  | none => outsideQuote sql qualifiers s

/-- `while index < bytes.len()`. -/
def scan (qualifiers : List (List Char)) : ℕ → Scanner → Option Scanner
  | fuel, s =>
    if s.index < byteLen sql then
      match fuel with
      | 0 => none
      | fuel + 1 => (iteration sql qualifiers s).bind (scan qualifiers fuel)
    else some s

/-- The scanner before the loop. -/
def Scanner.start : Scanner := { index := 0, quote := none, normalized := [] }

end Operator

open Operator in
def normalizeSqlQualifiers (sql schema : String) : Option String :=
  (scan sql.toList (qualifiers schema.toList) (Utf8.byteLen sql.toList) .start).map fun s ↦
    String.ofList s.normalized

namespace Operator

/-! ## The rows of the catalog

A row is a JSON array as text. `fromStr` and `toStr` are `serde_json::from_str` and
`serde_json::to_string`, with `none` for an error. -/

/-- One field of a row. -/
def normalizeField (schema : String) (values : List Json) (field : ℕ) : Option (List Json) :=
  match values[field]? with
  | some (.str sql) => (normalizeSqlQualifiers sql schema).map fun sql ↦ values.set field (.str sql)
  | _ => some values

variable (fromStr : String → Option Json) (toStr : Json → Option String)

def normalizeRow (fields : List ℕ) (schema row : String) : Option String :=
  match fromStr row with
  | some (.arr values) =>
    (fields.foldlM (normalizeField schema) values).map fun values ↦
      (toStr (.arr values)).getD row
  | _ => some row

def normalizeSqlFields (rows : List String) (fields : List ℕ) (schema : String) :
    Option (List String) :=
  rows.mapM (normalizeRow fromStr toStr fields schema)

end Operator

end NotificationLedger

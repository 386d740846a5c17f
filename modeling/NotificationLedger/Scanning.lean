import NotificationLedger.Operator
import NotificationLedger.Foundation.Run
import Mathlib.Data.List.TakeWhile

/-!
# The scanner is total

The scanner reads the bytes of a text, but every position it stops at is between two characters.
Here an iteration is described by the characters in front of it: which of them it takes, whether it
copies them, and which quote it leaves open. A text is then scanned to its end whatever it contains,
and a quote that nothing closes copies the rest of the text.

## Readings

`reading` describes an iteration by the characters it sees: how many it takes, what it writes, and
the quote that is open afterwards. The bytes of the source and the characters here agree since every
byte it compares with is below 128 (`Utf8`). An iteration takes at least one character, which is
progress; totality and the treatment of open quotes follow by induction on the characters left.
-/

namespace NotificationLedger

namespace Operator

open Utf8

variable {c : Char} {before rest sql : List Char} {quals : List (List Char)}

/-! ## Characters

The classes of characters the scanner tells apart, all of them ASCII, and their bytes. -/

def isTagStart (c : Char) : Bool := c.isAlpha || decide (c = '_')

def isTagChar (c : Char) : Bool := c.isAlphanum || decide (c = '_')

/-- The characters after which no token starts. -/
def isIdentifierChar (c : Char) : Bool := isTagChar c || decide (c = '$')

theorem ascii_isAlpha : Ascii isAsciiAlphabetic Char.isAlpha where
  byte b h := by
    simp only [isAsciiAlphabetic, Bool.or_eq_true, decide_eq_true_eq] at h
    omega
  char c h := by
    rw [isAlpha_iff] at h
    omega
  agree c h := by
    rw [Bool.eq_iff_iff, isAlpha_iff, isAsciiAlphabetic, UInt8.toNat_ofNat',
      Nat.mod_eq_of_lt (by omega)]
    simp

theorem ascii_isDigit : Ascii (fun b ↦ decide (48 ≤ b.toNat ∧ b.toNat ≤ 57)) Char.isDigit where
  byte b h := by
    rw [decide_eq_true_eq] at h
    omega
  char c h := by
    rw [isDigit_iff] at h
    omega
  agree c h := by
    rw [Bool.eq_iff_iff, isDigit_iff, UInt8.toNat_ofNat', Nat.mod_eq_of_lt (by omega)]
    simp

theorem ascii_isTagStart :
    Ascii (fun b ↦ isAsciiAlphabetic b || decide (b.toNat = 95)) isTagStart :=
  ascii_isAlpha.or (Ascii.eq '_' (by decide))

theorem ascii_isTagChar :
    Ascii (fun b ↦ isAsciiAlphanumeric b || decide (b.toNat = 95)) isTagChar :=
  (ascii_isAlpha.or ascii_isDigit).or (Ascii.eq '_' (by decide))

theorem ascii_isIdentifierChar : Ascii isIdentifierByte isIdentifierChar :=
  ascii_isTagChar.or (Ascii.eq '$' (by decide))

/-! ## Dollar quotes

The delimiter in terms of characters: a dollar sign, a tag, and the next dollar sign. -/

def isTag : List Char → Bool
  | [] => true
  | c :: tag => isTagStart c && tag.all isTagChar

/-- The characters before the first dollar sign. -/
def beforeDollar (text : List Char) : List Char := text.takeWhile fun c ↦ !decide (c = '$')

/-- The delimiter of a dollar quote at the head of a text. -/
def dollarQuote : List Char → Option (List Char)
  | [] => none
  | c :: text =>
    if c = '$' ∧ '$' ∈ text ∧ isTag (beforeDollar text) then
      some ('$' :: beforeDollar text ++ ['$'])
    else none

theorem exists_eq_beforeDollar {text : List Char} (h : '$' ∈ text) :
    ∃ tail, text = beforeDollar text ++ '$' :: tail := by
  induction text with
  | nil => simp at h
  | cons c text ih =>
    by_cases hc : c = '$'
    · exact ⟨text, by simp [beforeDollar, hc]⟩
    · obtain ⟨tail, htail⟩ := ih ((List.mem_cons.mp h).resolve_left (Ne.symm hc))
      refine ⟨tail, ?_⟩
      rw [beforeDollar, List.takeWhile_cons_of_pos (by simpa using hc), List.cons_append]
      exact congrArg (c :: ·) htail

theorem validTag_bytes (tag : List Char) : validTag (bytes tag) = some (isTag tag) := by
  cases tag with
  | nil => rfl
  | cons c tag =>
    obtain ⟨b, hb, hstart⟩ := ascii_isTagStart.head c tag
    have hsize := Char.utf8Size_pos c
    have hne : (bytes (c :: tag)).isEmpty = false := by
      cases hbytes : bytes (c :: tag) with
      | nil => simp [hbytes] at hb
      | cons => rfl
    rw [List.head?_eq_getElem?] at hb
    have hslice : slice (bytes (c :: tag)) 1 (bytes (c :: tag)).length =
        some ((bytes (c :: tag)).drop 1) := by
      have hlen : 1 ≤ (bytes (c :: tag)).length := by
        change 1 ≤ byteLen (c :: tag)
        rw [byteLen_cons]
        omega
      rw [slice, if_pos ⟨hlen, le_rfl⟩, List.take_length]
    have hstart' : (isAsciiAlphabetic b || decide (b.toNat = 95)) = isTagStart c := hstart
    simp only [validTag, hne, hb, hslice, hstart', Option.bind_eq_bind, Option.bind_some, isTag]
    cases hc : isTagStart c with
    | false => rfl
    | true =>
      have hascii := ascii_isTagStart.char c hc
      rcases utf8EncodeChar_cases c with ⟨-, hone⟩ | ⟨hlarge, -⟩
      · rw [bytes_cons, hone]
        exact congrArg some (ascii_isTagChar.all tag)
      · omega

/-- The two slices of `dollar_quote_delimiter` exist, and so does every byte it asks for. -/
theorem dollarQuoteDelimiter_eq (value : List Char) :
    dollarQuoteDelimiter value = some (dollarQuote value) := by
  cases value with
  | nil => rfl
  | cons c text =>
    obtain ⟨b, hb, hdollar⟩ := (Ascii.eq '$' (by decide)).head c text
    have hdollar' : decide (b.toNat = 36) = decide (c = '$') := hdollar
    rw [dollarQuoteDelimiter, hb]
    by_cases hc : c = '$'
    · have hb36 : b.toNat = 36 := by simpa [hc] using hdollar'
      subst hc
      have hbytes : bytes ('$' :: text) = 36 :: bytes text := rfl
      have hrest : slice (bytes ('$' :: text)) 1 (bytes ('$' :: text)).length =
          some (bytes text) := by
        rw [slice, if_pos ⟨by rw [hbytes, List.length_cons]; omega, le_rfl⟩, List.take_length,
          hbytes, List.drop_one, List.tail_cons]
      have hsearch : (bytes text).findIdx? (fun b ↦ decide (b.toNat = 36)) =
          if '$' ∈ text then some (byteLen (beforeDollar text)) else none := by
        have h := (Ascii.eq '$' (by decide)).findIdx? text
        simpa [beforeDollar] using h
      simp only [hb36, hrest, hsearch, Option.bind_eq_bind, Option.bind_some, dollarQuote,
        not_true_eq_false, if_false, ne_eq, true_and]
      by_cases hmem : '$' ∈ text
      · obtain ⟨tail, htail⟩ := exists_eq_beforeDollar hmem
        have htag : slice (bytes ('$' :: text)) 1 (byteLen (beforeDollar text) + 1) =
            some (bytes (beforeDollar text)) := by
          have htext : bytes text = bytes (beforeDollar text) ++ bytes ('$' :: tail) := by
            rw [← bytes_append, ← htail]
          rw [slice, hbytes, htext, if_pos (by simp [byteLen])]
          exact congrArg some List.take_left
        have hwhole : sliceTo ('$' :: text) (byteLen (beforeDollar text) + 1 + 1) =
            some ('$' :: beforeDollar text ++ ['$']) := by
          have hlen : byteLen ('$' :: beforeDollar text ++ ['$']) =
              byteLen (beforeDollar text) + 1 + 1 := by
            rw [byteLen_append, byteLen_cons, byteLen_cons, byteLen_nil,
              utf8Size_of_ascii (by decide)]
            omega
          have hcut : '$' :: text = ('$' :: beforeDollar text ++ ['$']) ++ tail := by
            rw [List.append_assoc, List.cons_append, List.singleton_append, ← htail]
          rw [← hlen, hcut, sliceTo_append]
        simp only [if_pos hmem, Option.bind_some, htag, validTag_bytes, hwhole]
        by_cases hvalid : isTag (beforeDollar text) = true <;> simp [hvalid, hmem]
      · simp [hmem]
    · have hb36 : ¬ b.toNat = 36 := by simpa [hc] using hdollar'
      simp [hb36, dollarQuote, hc]

/-- A delimiter is not empty and stands at the head of its text. -/
theorem dollarQuote_eq_some {text delimiter : List Char} (h : dollarQuote text = some delimiter) :
    ∃ tag tail, isTag tag ∧ '$' ∉ tag ∧ delimiter = '$' :: tag ++ ['$'] ∧
      text = delimiter ++ tail := by
  cases text with
  | nil => simp [dollarQuote] at h
  | cons c text =>
    rw [dollarQuote] at h
    split at h
    · rename_i hc
      obtain ⟨rfl, hmem, htag⟩ := hc
      obtain ⟨tail, htail⟩ := exists_eq_beforeDollar hmem
      have hfree : '$' ∉ beforeDollar text := by
        intro hin
        simpa using List.mem_takeWhile_imp hin
      refine ⟨beforeDollar text, tail, htag, hfree, (Option.some_inj.mp h).symm, ?_⟩
      rw [← Option.some_inj.mp h, List.append_assoc, List.cons_append, List.singleton_append,
        ← htail]
    · simp at h

/-! ## One iteration

What the loop does at a place between two characters, with the text before it split off. The
equation with the source's iteration is proved for each branch. -/

/-- No identifier reaches up to the end of the text. -/
def endsToken (before : List Char) : Bool :=
  match before.getLast? with
  | none => true
  | some c => !isIdentifierChar c

/-- What an iteration takes from the text, whether it copies it, and the quote it leaves open. -/
structure Reading where
  taken : List Char
  copied : Bool
  quote : Option (List Char)

def Reading.written (r : Reading) : List Char := if r.copied then r.taken else []

/-- Inside a literal. -/
def readLiteral (c : Char) (rest : List Char) : Reading :=
  if c = '\\' ∧ rest ≠ [] then ⟨c :: rest.take 1, true, some ['\'']⟩
  else if c = '\'' then
    if ['\''].isPrefixOf rest then ⟨[c, '\''], true, some ['\'']⟩ else ⟨[c], true, none⟩
  else ⟨[c], true, some ['\'']⟩

def readInside (delimiter : List Char) (c : Char) (rest : List Char) : Reading :=
  if delimiter = ['\''] then readLiteral c rest
  else if delimiter.isPrefixOf (c :: rest) then ⟨delimiter, true, none⟩
  else ⟨[c], true, some delimiter⟩

def readOutside (quals : List (List Char)) (boundary : Bool) (c : Char) (rest : List Char) :
    Reading :=
  if c = '\'' then ⟨[c], true, some ['\'']⟩
  else
    match dollarQuote (c :: rest) with
    | some delimiter => ⟨delimiter, true, some delimiter⟩
    | none =>
      match if boundary then quals.find? (·.isPrefixOf (c :: rest)) else none with
      | some qualifier => ⟨qualifier, false, none⟩
      | none => ⟨[c], true, if c = '"' then some ['"'] else none⟩

/-- What an iteration reads at the head of a text. -/
def reading (quals : List (List Char)) (boundary : Bool) (quote : Option (List Char)) (c : Char)
    (rest : List Char) : Reading :=
  match quote with
  | some delimiter => readInside delimiter c rest
  | none => readOutside quals boundary c rest

theorem tokenBoundary_eq (before rest : List Char) :
    tokenBoundary (before ++ rest) (byteLen before) = some (endsToken before) := by
  induction before using List.reverseRecOn with
  | nil => rfl
  | append_singleton before c =>
    obtain ⟨b, hb, hident⟩ := ascii_isIdentifierChar.last before c rest
    have hpos : 0 < byteLen (before ++ [c]) := byteLen_pos (by simp)
    rw [List.append_assoc, List.singleton_append, tokenBoundary, if_neg (by omega), hb,
      Option.map_some, hident, endsToken, List.getLast?_concat]

theorem isPrefixOf_cons_singleton (d c : Char) (rest : List Char) :
    [d].isPrefixOf (c :: rest) = decide (c = d) := by
  rw [List.isPrefixOf, List.isPrefixOf, Bool.and_true, Bool.beq_eq_decide_eq]
  exact decide_eq_decide.mpr eq_comm

/-- The scanner after a reading. -/
def Reading.scanner (r : Reading) (before normalized : List Char) : Scanner :=
  ⟨byteLen (before ++ r.taken), r.quote, normalized ++ r.written⟩

theorem insideQuote_eq (delimiter normalized : List Char) :
    insideQuote (before ++ c :: rest) delimiter ⟨byteLen before, some delimiter, normalized⟩ =
      some ((readInside delimiter c rest).scanner before normalized) := by
  have hnext : sliceFrom (before ++ c :: rest) (byteLen before + c.utf8Size) = some rest := by
    have h : sliceFrom ((before ++ [c]) ++ rest) (byteLen (before ++ [c])) = some rest :=
      sliceFrom_append
    rwa [List.append_assoc, List.singleton_append, byteLen_append, byteLen_cons, byteLen_nil,
      Nat.add_zero] at h
  simp only [insideQuote, readInside, sliceFrom_append, Option.bind_eq_bind, Option.bind_some,
    List.head?_cons, hnext]
  by_cases hliteral : delimiter = ['\'']
  · rw [if_pos hliteral, if_pos hliteral, readLiteral, hliteral]
    by_cases hslash : c = '\\'
    · cases rest with
      | nil => simp [hslash, Reading.scanner, Reading.written]
      | cons escaped rest =>
        have hsize := Char.utf8Size_pos escaped
        simp [hslash, Reading.scanner, Reading.written, Nat.add_assoc]
        omega
    · by_cases hclose : c = '\''
      · have hone : ('\'' : Char).utf8Size = 1 := utf8Size_of_ascii (by decide)
        by_cases hdouble : ['\''].isPrefixOf rest = true <;>
          simp [hclose, hdouble, hone, Reading.scanner, Reading.written]
      · simp [hslash, hclose, Reading.scanner, Reading.written]
  · rw [if_neg hliteral, if_neg hliteral]
    by_cases hclose : delimiter.isPrefixOf (c :: rest) = true <;>
      simp [hclose, Reading.scanner, Reading.written]

theorem outsideQuote_eq (normalized : List Char) :
    outsideQuote (before ++ c :: rest) quals ⟨byteLen before, none, normalized⟩ =
      some ((readOutside quals (endsToken before) c rest).scanner before normalized) := by
  simp only [outsideQuote, readOutside, sliceFrom_append, Option.bind_eq_bind, Option.bind_some,
    List.head?_cons, dollarQuoteDelimiter_eq, tokenBoundary_eq, isPrefixOf_cons_singleton]
  by_cases hliteral : c = '\''
  · have hone : ('\'' : Char).utf8Size = 1 := utf8Size_of_ascii (by decide)
    simp [hliteral, hone, Reading.scanner, Reading.written]
  · rw [if_neg (by simpa using hliteral), if_neg hliteral]
    cases dollarQuote (c :: rest) with
    | some delimiter => simp [Reading.scanner, Reading.written]
    | none =>
      cases if endsToken before then quals.find? (·.isPrefixOf (c :: rest)) else none with
      | some qualifier => simp [Reading.scanner, Reading.written]
      | none =>
        have hone : ('"' : Char).utf8Size = 1 := utf8Size_of_ascii (by decide)
        by_cases hident : c = '"' <;> simp [hident, hone, Reading.scanner, Reading.written]

/-- An iteration of the loop, in the characters of the text. -/
theorem iteration_eq (quote : Option (List Char)) (normalized : List Char) :
    iteration (before ++ c :: rest) quals ⟨byteLen before, quote, normalized⟩ =
      some ((reading quals (endsToken before) quote c rest).scanner before normalized) := by
  cases quote with
  | some delimiter => exact insideQuote_eq delimiter normalized
  | none => exact outsideQuote_eq normalized

/-! ## What a reading takes

At least one character is taken, and what is written is what was taken or nothing. -/

theorem readLiteral_taken (c : Char) (rest : List Char) :
    ∃ tail, c :: rest = (readLiteral c rest).taken ++ tail ∧ (readLiteral c rest).taken ≠ [] := by
  rw [readLiteral]
  split
  · refine ⟨rest.drop 1, ?_, by simp⟩
    change c :: rest = c :: rest.take 1 ++ rest.drop 1
    rw [List.cons_append, List.take_append_drop]
  · split
    · split
      · rename_i hdouble
        obtain ⟨tail, rfl⟩ := List.isPrefixOf_iff_prefix.mp hdouble
        exact ⟨tail, rfl, by simp⟩
      · exact ⟨rest, rfl, by simp⟩
    · exact ⟨rest, rfl, by simp⟩

theorem readInside_taken {delimiter : List Char} (h : delimiter ≠ []) (c : Char)
    (rest : List Char) : ∃ tail, c :: rest = (readInside delimiter c rest).taken ++ tail ∧
      (readInside delimiter c rest).taken ≠ [] := by
  rw [readInside]
  split
  · exact readLiteral_taken c rest
  · split
    · rename_i hclose
      obtain ⟨tail, htail⟩ := List.isPrefixOf_iff_prefix.mp hclose
      exact ⟨tail, htail.symm, h⟩
    · exact ⟨rest, rfl, by simp⟩

theorem readOutside_taken (hquals : [] ∉ quals) (boundary : Bool) (c : Char) (rest : List Char) :
    ∃ tail, c :: rest = (readOutside quals boundary c rest).taken ++ tail ∧
      (readOutside quals boundary c rest).taken ≠ [] := by
  rw [readOutside]
  split
  · exact ⟨rest, rfl, by simp⟩
  · split
    · rename_i delimiter hdollar
      obtain ⟨tag, tail, -, -, rfl, htail⟩ := dollarQuote_eq_some hdollar
      exact ⟨tail, htail, by simp⟩
    · split
      · rename_i qualifier hfind
        split at hfind
        · have hhead := List.find?_some (p := fun q ↦ List.isPrefixOf q (c :: rest)) hfind
          obtain ⟨tail, htail⟩ := List.isPrefixOf_iff_prefix.mp hhead
          exact ⟨tail, htail.symm, fun hnil ↦ hquals (hnil ▸ List.mem_of_find?_eq_some hfind)⟩
        · simp at hfind
      · exact ⟨rest, rfl, by simp⟩

/-- A reading takes some characters from the head of the text. -/
theorem reading_taken (hquals : [] ∉ quals) {quote : Option (List Char)} (hquote : quote ≠ some [])
    (boundary : Bool) (c : Char) (rest : List Char) :
    ∃ tail, c :: rest = (reading quals boundary quote c rest).taken ++ tail ∧
      (reading quals boundary quote c rest).taken ≠ [] := by
  cases quote with
  | some delimiter => exact readInside_taken (fun hnil ↦ hquote (hnil ▸ rfl)) c rest
  | none => exact readOutside_taken hquals boundary c rest

/-- No quote is open behind an empty delimiter. -/
theorem reading_quote {quote : Option (List Char)} (hquote : quote ≠ some [])
    (boundary : Bool) (c : Char) (rest : List Char) :
    (reading quals boundary quote c rest).quote ≠ some [] := by
  cases quote with
  | some delimiter =>
    rw [reading, readInside, readLiteral]
    repeat' split
    all_goals simp [hquote]
  | none =>
    rw [reading, readOutside]
    split
    · simp
    · split
      · rename_i delimiter hdollar
        obtain ⟨tag, tail, -, -, rfl, -⟩ := dollarQuote_eq_some hdollar
        simp
      · split
        · simp
        · split <;> simp

/-! ## Scanning to the end

`Scans` relates a text to what the scanner writes for it, from any quote. It exists for every text,
and the loop computes it with the fuel it has. -/

/-- `Scans quals boundary quote rest out`: with `rest` in front of it the scanner reads to the end
of the text and writes `out`. -/
inductive Scans (quals : List (List Char)) :
    Bool → Option (List Char) → List Char → List Char → Prop
  | done {boundary : Bool} {quote : Option (List Char)} : Scans quals boundary quote [] []
  | step {boundary : Bool} {quote : Option (List Char)} {c : Char} {rest tail out : List Char} :
      c :: rest = (reading quals boundary quote c rest).taken ++ tail →
      Scans quals (endsToken (reading quals boundary quote c rest).taken)
        (reading quals boundary quote c rest).quote tail out →
      Scans quals boundary quote (c :: rest) ((reading quals boundary quote c rest).written ++ out)

theorem exists_scans (hquals : [] ∉ quals) {quote : Option (List Char)} (hquote : quote ≠ some [])
    (boundary : Bool) (rest : List Char) : ∃ out, Scans quals boundary quote rest out := by
  induction hn : rest.length using Nat.strong_induction_on generalizing boundary quote rest with
  | _ n ih =>
    cases rest with
    | nil => exact ⟨[], .done⟩
    | cons c rest =>
      obtain ⟨tail, htail, htaken⟩ := reading_taken hquals hquote boundary c rest
      have hlt : tail.length < n := by
        have hlength := congrArg List.length htail
        have hpos := List.length_pos_iff.mpr htaken
        rw [List.length_append] at hlength
        omega
      obtain ⟨out, hout⟩ := ih _ hlt (reading_quote hquote boundary c rest)
        (endsToken (reading quals boundary quote c rest).taken) tail rfl
      exact ⟨_, .step htail hout⟩

theorem endsToken_append (before : List Char) {taken : List Char} (h : taken ≠ []) :
    endsToken (before ++ taken) = endsToken taken := by
  rw [endsToken, endsToken, List.getLast?_append_of_ne_nil _ h]

theorem scan_done {s : Scanner} (h : ¬ s.index < byteLen sql) (fuel : ℕ) :
    scan sql quals fuel s = some s := by
  cases fuel <;> rw [scan, if_neg h]

theorem scan_succ {s : Scanner} (h : s.index < byteLen sql) (fuel : ℕ) :
    scan sql quals (fuel + 1) s = (iteration sql quals s).bind (scan sql quals fuel) := by
  rw [scan, if_pos h]

theorem index_lt_byteLen (before : List Char) (c : Char) (rest : List Char) :
    byteLen before < byteLen (before ++ c :: rest) := by
  have hpos : 0 < byteLen (c :: rest) := byteLen_pos (by simp)
  rw [byteLen_append]
  omega

/-- The loop reads what `Scans` reads. -/
theorem scan_eq (hquals : [] ∉ quals) {boundary : Bool} {quote : Option (List Char)}
    {out : List Char} (h : Scans quals boundary quote rest out) (hquote : quote ≠ some [])
    (hboundary : endsToken before = boundary) (normalized : List Char) {fuel : ℕ}
    (hfuel : byteLen rest ≤ fuel) :
    ∃ quote', scan (before ++ rest) quals fuel ⟨byteLen before, quote, normalized⟩ =
      some ⟨byteLen (before ++ rest), quote', normalized ++ out⟩ := by
  induction h generalizing before normalized fuel with
  | @done boundary quote =>
    refine ⟨quote, ?_⟩
    rw [List.append_nil, List.append_nil, scan_done (lt_irrefl _)]
  | @step boundary quote c rest tail out htail _ ih =>
    obtain ⟨-, -, htaken⟩ := reading_taken hquals hquote boundary c rest
    have hpos := byteLen_pos htaken
    have hbytes : byteLen (c :: rest) =
        byteLen (reading quals boundary quote c rest).taken + byteLen tail := by
      rw [← byteLen_append, ← htail]
    obtain ⟨fuel, rfl⟩ : ∃ n, fuel = n + 1 := ⟨fuel - 1, by omega⟩
    obtain ⟨quote', hscan⟩ := ih (reading_quote hquote boundary c rest)
      (endsToken_append before htaken)
      (normalized ++ (reading quals boundary quote c rest).written)
      (show byteLen tail ≤ fuel by omega)
    refine ⟨quote', ?_⟩
    rw [scan_succ (index_lt_byteLen before c rest), iteration_eq, hboundary, Option.bind_some]
    rw [List.append_assoc, ← htail, List.append_assoc] at hscan
    exact hscan

/-! ## Quotes that are never closed

An open quote copies everything up to its end; without one it copies the rest. -/

/-- A literal ends at the first quote that is neither escaped nor doubled. -/
def closesLiteral : List Char → Bool
  | [] => false
  | [c] => decide (c = '\'')
  | c :: d :: rest =>
    if c = '\\' then closesLiteral rest
    else if c = '\'' then if d = '\'' then closesLiteral rest else true
    else closesLiteral (d :: rest)

/-- The rest of the text contains the end of the quote. -/
def closes (delimiter rest : List Char) : Bool :=
  if delimiter = ['\''] then closesLiteral rest else decide (delimiter <:+: rest)

/-- In a literal an iteration closes the quote, or leaves it as closed or open as it was. -/
theorem readLiteral_closes (c : Char) (rest : List Char) :
    ((readLiteral c rest).quote = none ∧ closesLiteral (c :: rest) = true) ∨
      ((readLiteral c rest).quote = some ['\''] ∧ (readLiteral c rest).copied = true ∧
        ∀ tail, c :: rest = (readLiteral c rest).taken ++ tail →
          closesLiteral tail = closesLiteral (c :: rest)) := by
  cases rest with
  | nil =>
    by_cases hquote : c = '\''
    · left
      simp [readLiteral, hquote, closesLiteral]
    · right
      simp [readLiteral, hquote, closesLiteral]
  | cons d rest =>
    rw [closesLiteral]
    by_cases hslash : c = '\\'
    · right
      simp [readLiteral, hslash]
    · rw [if_neg hslash]
      by_cases hquote : c = '\''
      · rw [if_pos hquote]
        by_cases hdouble : d = '\''
        · right
          simp [readLiteral, hquote, hdouble]
        · left
          simp [readLiteral, hquote, hdouble, Ne.symm hdouble]
      · right
        simp [readLiteral, hslash, hquote]

theorem readInside_closes (delimiter : List Char) (c : Char) (rest : List Char) :
    ((readInside delimiter c rest).quote = none ∧ closes delimiter (c :: rest) = true) ∨
      ((readInside delimiter c rest).quote = some delimiter ∧
        (readInside delimiter c rest).copied = true ∧
        ∀ tail, c :: rest = (readInside delimiter c rest).taken ++ tail →
          closes delimiter tail = closes delimiter (c :: rest)) := by
  rw [readInside]
  by_cases hliteral : delimiter = ['\'']
  · simp only [closes, if_pos hliteral]
    rw [hliteral]
    exact readLiteral_closes c rest
  · simp only [closes, if_neg hliteral, decide_eq_true_eq, decide_eq_decide]
    by_cases hhead : delimiter.isPrefixOf (c :: rest) = true
    · rw [if_pos hhead]
      exact Or.inl ⟨rfl, (List.isPrefixOf_iff_prefix.mp hhead).isInfix⟩
    · rw [if_neg hhead]
      refine Or.inr ⟨rfl, rfl, ?_⟩
      intro tail htail
      obtain rfl : rest = tail := by simpa using htail
      rw [List.infix_cons_iff, ← List.isPrefixOf_iff_prefix, or_iff_right hhead]

theorem closes_nil {delimiter : List Char} (hne : delimiter ≠ []) :
    closes delimiter [] = false := by
  rw [closes]
  split
  · rfl
  · simpa using hne

/-- A quote that is never closed copies what is left. -/
theorem scans_of_not_closes {delimiter : List Char} (hne : delimiter ≠ []) (boundary : Bool)
    (h : closes delimiter rest = false) :
    Scans quals boundary (some delimiter) rest rest := by
  induction hn : rest.length using Nat.strong_induction_on generalizing boundary rest with
  | _ n ih =>
    cases rest with
    | nil => exact .done
    | cons c rest =>
      obtain ⟨-, hcloses⟩ | ⟨hquote, hcopied, hrest⟩ := readInside_closes delimiter c rest
      · rw [h] at hcloses
        cases hcloses
      · obtain ⟨tail, htail, htaken⟩ := readInside_taken hne c rest
        have hlt : tail.length < n := by
          have hlength := congrArg List.length htail
          have hpos := List.length_pos_iff.mpr htaken
          rw [List.length_append] at hlength
          omega
        have hscans := ih _ hlt (endsToken (readInside delimiter c rest).taken)
          ((hrest tail htail).trans h) rfl
        rw [← hquote] at hscans
        have hstep := @Scans.step quals boundary (some delimiter) c rest tail tail htail hscans
        rwa [Reading.written, reading, if_pos hcopied, ← htail] at hstep

/-! ## The loop as a transition system

The states of the loop and what holds of all of them: the index lies between two characters, and
what was written belongs to what was read. -/

/-- The loop: an iteration from every state whose index is in front of the end. -/
def loop (sql : List Char) (quals : List (List Char)) : Lts Scanner Unit where
  Start s := s = .start
  Step s _ t := s.index < byteLen sql ∧ iteration sql quals s = some t

/-- What holds of the local variables before every iteration. -/
structure Placed (sql : List Char) (s : Scanner) : Prop where
  isCharBoundary : IsCharBoundary sql s.index
  quote : s.quote ≠ some []

theorem Placed.start : Placed sql .start := ⟨⟨[], sql, rfl, rfl⟩, by simp [Scanner.start]⟩

theorem Placed.index_le {s : Scanner} (h : Placed sql s) : s.index ≤ byteLen sql := by
  obtain ⟨before, rest, rfl, hindex⟩ := h.isCharBoundary
  rw [hindex, byteLen_append]
  omega

/-- An iteration goes on to a later boundary. -/
theorem Placed.exists_iteration {s : Scanner} (h : Placed sql s) (hquals : [] ∉ quals)
    (hindex : s.index < byteLen sql) :
    ∃ t, iteration sql quals s = some t ∧ s.index < t.index ∧ Placed sql t := by
  obtain ⟨⟨before, rest, rfl, hbefore⟩, hquote⟩ := h
  obtain ⟨index, quote, normalized⟩ := s
  obtain rfl : index = byteLen before := hbefore
  cases rest with
  | nil => simp at hindex
  | cons c rest =>
    obtain ⟨tail, htail, htaken⟩ := reading_taken hquals hquote (endsToken before) c rest
    refine ⟨_, iteration_eq quote normalized, ?_, ⟨_, tail, ?_, rfl⟩,
      reading_quote hquote (endsToken before) c rest⟩
    · have hpos := byteLen_pos htaken
      change byteLen before < byteLen (before ++ _)
      rw [byteLen_append]
      exact Nat.lt_add_of_pos_right hpos
    · rw [List.append_assoc, ← htail]

theorem Placed.step {s t : Scanner} (h : Placed sql s) (hquals : [] ∉ quals)
    (hstep : (loop sql quals).Step s () t) : s.index < t.index ∧ Placed sql t := by
  obtain ⟨hindex, hiter⟩ := hstep
  obtain ⟨t', hiter', hlt, hplaced⟩ := h.exists_iteration hquals hindex
  rw [hiter, Option.some_inj] at hiter'
  exact hiter' ▸ ⟨hlt, hplaced⟩

theorem Placed.of_history (hquals : [] ∉ quals) {s : Scanner} {ls : List Unit}
    (h : (loop sql quals).History ls s) : Placed sql s ∧ ls.length ≤ s.index := by
  refine h.invariant (I := fun ls s ↦ Placed sql s ∧ ls.length ≤ s.index) ?_ ?_
  · rintro s rfl
    exact ⟨.start, le_rfl⟩
  · intro ls s l t _ hs hstep
    obtain ⟨hlt, ht⟩ := hs.1.step hquals hstep
    have hlength := hs.2
    refine ⟨ht, ?_⟩
    rw [List.length_append, List.length_singleton]
    omega

/-- **A quote is left exactly where it is closed**: from inside a quote the loop reaches a state in
which no quote is open if and only if the rest of the text closes that quote. -/
theorem closes_iff {delimiter : List Char} (hne : delimiter ≠ []) (before rest : List Char)
    (normalized : List Char) : closes delimiter rest = true ↔
      ∃ ls t, (loop (before ++ rest) quals).Run ⟨byteLen before, some delimiter, normalized⟩ ls t ∧
        t.quote = none := by
  induction hn : rest.length using Nat.strong_induction_on generalizing before rest normalized with
  | _ n ih =>
    cases rest with
    | nil =>
      rw [closes_nil hne]
      constructor
      · intro h
        cases h
      · rintro ⟨ls, t, hrun, hquote⟩
        cases ls with
        | nil =>
          rw [hrun.eq_of_nil] at hquote
          cases hquote
        | cons l ls =>
          obtain ⟨u, hstep, -⟩ :=
            Lts.Run.of_append (show (loop _ _).Run _ ([l] ++ ls) t from hrun)
          have hindex := hstep.of_singleton.1
          rw [List.append_nil] at hindex
          exact absurd hindex (lt_irrefl _)
    | cons c rest =>
      have hiter : iteration (before ++ c :: rest) quals _ = some _ :=
        iteration_eq (some delimiter) normalized
      obtain ⟨hquote, hcloses⟩ | ⟨hquote, -, hrest⟩ := readInside_closes delimiter c rest
      · rw [hcloses]
        exact ⟨fun _ ↦ ⟨[()], _, .single ⟨index_lt_byteLen before c rest, hiter⟩, hquote⟩,
          fun _ ↦ rfl⟩
      · obtain ⟨tail, htail, htaken⟩ := readInside_taken hne c rest
        have hlt : tail.length < n := by
          have hlength := congrArg List.length htail
          have hpos := List.length_pos_iff.mpr htaken
          rw [List.length_append] at hlength
          omega
        -- the quote stays open, so the next state is again one of the induction hypothesis
        have hnext : (reading quals (endsToken before) (some delimiter) c rest).scanner before
            normalized = ⟨byteLen (before ++ (readInside delimiter c rest).taken), some delimiter,
              normalized ++ (readInside delimiter c rest).written⟩ := by
          change (⟨_, (readInside delimiter c rest).quote, _⟩ : Scanner) = _
          rw [hquote]
          rfl
        rw [hnext] at hiter
        have hstep : (loop (before ++ c :: rest) quals).Step _ () _ :=
          ⟨index_lt_byteLen before c rest, hiter⟩
        rw [← hrest tail htail, ih _ hlt (before ++ (readInside delimiter c rest).taken) tail
          (normalized ++ (readInside delimiter c rest).written) rfl, List.append_assoc, ← htail]
        constructor
        · rintro ⟨ls, t, hrun, ht⟩
          exact ⟨[()] ++ ls, t, (Lts.Run.single hstep).append hrun, ht⟩
        · rintro ⟨ls, t, hrun, ht⟩
          cases ls with
          | nil =>
            rw [hrun.eq_of_nil] at ht
            cases ht
          | cons l ls =>
            obtain ⟨u, hfirst, hrun⟩ :=
              Lts.Run.of_append (show (loop _ _).Run _ ([l] ++ ls) t from hrun)
            obtain rfl := Option.some_inj.mp (hiter.symm.trans hfirst.of_singleton.2)
            exact ⟨ls, t, hrun, ht⟩

/-- Scanning on from a state of the loop is scanning from its start. -/
theorem scan_of_run {s t : Scanner} {ls : List Unit} (h : (loop sql quals).Run s ls t)
    (fuel : ℕ) : scan sql quals (ls.length + fuel) s = scan sql quals fuel t := by
  induction h generalizing fuel with
  | nil => rw [List.length_nil, Nat.zero_add]
  | snoc _ hstep ih =>
    rw [List.length_append, List.length_singleton, Nat.add_assoc, Nat.add_comm 1 fuel, ih,
      scan_succ hstep.1, hstep.2, Option.bind_some]

theorem nil_notMem_qualifiers (schema : List Char) : [] ∉ qualifiers schema := by
  rw [qualifiers]
  split <;> simp

/-- From a state of the loop the scan goes to the end of the text, and writes what `Scans` says. -/
theorem normalizeSqlQualifiers_of_history {sql schema : String} {s : Scanner} {ls : List Unit}
    {rest out : List Char}
    (h : (loop sql.toList (qualifiers schema.toList)).History ls s)
    (hrest : sliceFrom sql.toList s.index = some rest)
    (hscans : ∀ boundary, Scans (qualifiers schema.toList) boundary s.quote rest out) :
    normalizeSqlQualifiers sql schema = some (String.ofList (s.normalized ++ out)) := by
  have hquals := nil_notMem_qualifiers schema.toList
  obtain ⟨hplaced, hlength⟩ := Placed.of_history hquals h
  have hle := hplaced.index_le
  obtain ⟨start, rfl, hrun⟩ := h
  obtain ⟨before, htext, hindex⟩ := sliceFrom_eq_some.mp hrest
  obtain ⟨index, quote, normalized⟩ := s
  obtain rfl : index = byteLen before := hindex
  have hfuel : byteLen rest ≤ byteLen sql.toList - ls.length := by
    rw [htext, byteLen_append]
    simp only at hlength
    omega
  obtain ⟨quote', hscan⟩ := scan_eq hquals (hscans (endsToken before)) hplaced.quote rfl
    normalized hfuel
  have hsplit := scan_of_run hrun (byteLen sql.toList - ls.length)
  rw [Nat.add_sub_cancel' (hlength.trans hle)] at hsplit
  rw [← htext] at hscan
  rw [normalizeSqlQualifiers, hsplit, hscan]
  rfl

theorem normalizeSqlQualifiers_of_scans {text out : List Char} {schema : String}
    (h : Scans (qualifiers schema.toList) true none text out) :
    normalizeSqlQualifiers (String.ofList text) schema = some (String.ofList out) := by
  obtain ⟨quote, hscan⟩ := scan_eq (nil_notMem_qualifiers schema.toList) h (by simp)
    (rfl : endsToken [] = true) [] le_rfl
  rw [normalizeSqlQualifiers, String.toList_ofList]
  exact congrArg (Option.map fun s : Scanner ↦ String.ofList s.normalized) hscan

end Operator

open Operator Utf8

/-- **The scanner is total.** Every iteration starts between two characters of the text and goes on
to a later such place, so that the loop ends and none of its slices fails; where a quote is open
that the loop never leaves, the rest of the text is copied. -/
theorem normalizeSqlQualifiers_total (sql schema : String) :
    (∀ s, (loop sql.toList (qualifiers schema.toList)).Reachable s →
      IsCharBoundary sql.toList s.index ∧ s.index ≤ byteLen sql.toList ∧
      (s.index < byteLen sql.toList → ∃ t,
        iteration sql.toList (qualifiers schema.toList) s = some t ∧ s.index < t.index) ∧
      ∀ delimiter rest, s.quote = some delimiter → sliceFrom sql.toList s.index = some rest →
        (closes delimiter rest = true ↔ ∃ ls t,
          (loop sql.toList (qualifiers schema.toList)).Run s ls t ∧ t.quote = none) ∧
        (closes delimiter rest = false →
          normalizeSqlQualifiers sql schema = some (String.ofList (s.normalized ++ rest)))) ∧
    (∀ value, (dollarQuoteDelimiter value).isSome) ∧
    (normalizeSqlQualifiers sql schema).isSome := by
  have hquals := nil_notMem_qualifiers schema.toList
  refine ⟨?_, ?_, ?_⟩
  · rintro s ⟨ls, hls⟩
    obtain ⟨hplaced, -⟩ := Placed.of_history hquals hls
    refine ⟨hplaced.isCharBoundary, hplaced.index_le, ?_, ?_⟩
    · intro hindex
      obtain ⟨t, hiter, hlt, -⟩ := hplaced.exists_iteration hquals hindex
      exact ⟨t, hiter, hlt⟩
    · intro delimiter rest hquote hrest
      have hne : delimiter ≠ [] := fun hnil ↦ hplaced.quote (hnil ▸ hquote)
      refine ⟨?_, fun hcloses ↦ ?_⟩
      · obtain ⟨before, htext, hindex⟩ := sliceFrom_eq_some.mp hrest
        obtain ⟨index, quote, normalized⟩ := s
        obtain rfl : index = byteLen before := hindex
        obtain rfl : quote = some delimiter := hquote
        rw [htext]
        exact closes_iff hne before rest normalized
      · refine normalizeSqlQualifiers_of_history hls hrest fun boundary ↦ ?_
        rw [hquote]
        exact scans_of_not_closes hne boundary hcloses
  · intro value
    rw [dollarQuoteDelimiter_eq, Option.isSome_some]
  · have hclosed : (none : Option (List Char)) ≠ some [] := by simp
    obtain ⟨out, hout⟩ := exists_scans hquals hclosed true sql.toList
    have hresult := normalizeSqlQualifiers_of_scans hout
    rw [String.ofList_toList] at hresult
    exact Option.isSome_of_eq_some hresult

end NotificationLedger

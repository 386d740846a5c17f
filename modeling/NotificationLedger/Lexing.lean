import NotificationLedger.Renaming

/-!
# Texts as PostgreSQL reads them

The lexical structure of PostgreSQL with `standard_conforming_strings` on, as far as it decides what
is quoted and where an identifier, a qualifying dot or a number begins and ends.

## Quotes

In a plain literal a quote is doubled and nothing is escaped; a backslash escapes a quote only
behind an `E`. A literal goes on in the next one if nothing but blanks and line comments stand
between them and a line ends there, and then in the same manner, so behind an `E` the lexer
remembers (`continued`) whether the next quote would go on with escapes. A dollar sign inside of an
identifier opens nothing. What is left open goes to the end of the text.

## Names, dots and numbers

Every character beyond ASCII is a letter. Two dots are one token, and a dot in front of a digit
begins a number; an identifier directly behind the digits of a number or of a parameter belongs to
its token, which is then an error. The letter of a `B`, `X` or `N` literal counts as a word of its
own: no quote is escaped in these, and their doubled quotes end them where they end a plain one.
-/

namespace NotificationLedger

namespace Operator

variable {c : Char} {rest tail : List Char}

inductive TokenKind where
  /-- An identifier or a keyword. -/
  | word
  | number
  | parameter
  | literal
  | escapedLiteral
  | unicodeLiteral
  /-- A quoted identifier. -/
  | identifier
  | unicodeIdentifier
  | dollarQuoted
  | comment
  /-- Two dots, or any other character, blanks included. -/
  | symbol
  deriving DecidableEq

structure Token where
  kind : TokenKind
  text : List Char
  deriving DecidableEq

def isWordStart (c : Char) : Bool := isTagStart c || decide (128 ≤ c.toNat)

def isWordChar (c : Char) : Bool := isIdentifierChar c || decide (128 ≤ c.toNat)

/-- Up to the first quote that is not doubled. -/
def quotedText (quote : Char) : List Char → List Char
  | [] => []
  | [c] => [c]
  | c :: d :: rest =>
    if c = quote then if d = quote then c :: d :: quotedText quote rest else [c]
    else c :: quotedText quote (d :: rest)

/-- Up to the first quote that is neither doubled nor escaped. -/
def escapedText : List Char → List Char
  | [] => []
  | [c] => [c]
  | c :: d :: rest =>
    if c = '\\' then c :: d :: escapedText rest
    else if c = '\'' then if d = '\'' then c :: d :: escapedText rest else [c]
    else c :: escapedText (d :: rest)

/-- Up to the end of the first delimiter. -/
def delimitedText (delimiter : List Char) : List Char → List Char
  | [] => []
  | c :: rest =>
    if delimiter.isPrefixOf (c :: rest) then delimiter else c :: delimitedText delimiter rest

/-- Up to the end of a comment, inside of `depth` others. -/
def commentText : ℕ → List Char → List Char
  | _, [] => []
  | _, [c] => [c]
  | depth, c :: d :: rest =>
    if c = '/' ∧ d = '*' then c :: d :: commentText (depth + 1) rest
    else if c = '*' ∧ d = '/' then
      match depth with
      | 0 => [c, d]
      | depth + 1 => c :: d :: commentText depth rest
    else c :: commentText depth (d :: rest)

/-- The delimiter of a dollar quote at the head of a text. -/
def dollarDelimiter : List Char → Option (List Char)
  | [] => none
  | c :: rest =>
    if c = '$' ∧ '$' ∈ rest ∧ isDollarTag (beforeDollar rest) then
      some (delimiterOf (beforeDollar rest))
    else none

/-- Digits, in front of each an underscore or none. -/
def digitsText : List Char → List Char
  | [] => []
  | [c] => if c.isDigit then [c] else []
  | c :: d :: rest =>
    if c.isDigit then c :: digitsText (d :: rest)
    else if c = '_' ∧ d.isDigit then c :: d :: digitsText rest
    else []

def startsDigit (text : List Char) : Bool := text.head?.any Char.isDigit

def integerText (text : List Char) : List Char := if startsDigit text then digitsText text else []

/-- A dot, unless there are two, and the digits behind it. -/
def fractionText : List Char → List Char
  | [] => []
  | c :: rest => if c = '.' ∧ rest.head? ≠ some '.' then c :: integerText rest else []

def exponentText : List Char → List Char
  | c :: d :: rest =>
    if (c = 'e' ∨ c = 'E') ∧ startsDigit (d :: rest) then c :: integerText (d :: rest)
    else if (c = 'e' ∨ c = 'E') ∧ (d = '+' ∨ d = '-') ∧ startsDigit rest then
      c :: d :: integerText rest
    else []
  | _ => []

/-- An identifier directly behind a number. -/
def junkText (text : List Char) : List Char :=
  if text.head?.any isWordStart then text.takeWhile isWordChar else []

/-- What each part takes of the text that those before it have left. -/
def inTurn : List (List Char → List Char) → List Char → List Char
  | [], _ => []
  | part :: parts, text => part text ++ inTurn parts (text.drop (part text).length)

def numberText : List Char → List Char :=
  inTurn [integerText, fractionText, exponentText, junkText]

def parameterText : List Char → List Char := inTurn [integerText, junkText]

/-- The token of a literal or of a quoted identifier. `continued` tells of a literal behind an `E`:
whether a line has ended since. -/
def quotedToken? (continued : Option Bool) (c : Char) (rest : List Char) : Option Token :=
  if c = '\'' then
    if continued = some true then some ⟨.escapedLiteral, c :: escapedText rest⟩
    else some ⟨.literal, c :: quotedText c rest⟩
  else if c = '"' then some ⟨.identifier, c :: quotedText c rest⟩
  else if (c = 'E' ∨ c = 'e') ∧ rest.head? = some '\'' then
    some ⟨.escapedLiteral, c :: '\'' :: escapedText rest.tail⟩
  else if (c = 'U' ∨ c = 'u') ∧ ['&', '\''].isPrefixOf rest then
    some ⟨.unicodeLiteral, c :: '&' :: '\'' :: quotedText '\'' (rest.drop 2)⟩
  else if (c = 'U' ∨ c = 'u') ∧ ['&', '"'].isPrefixOf rest then
    some ⟨.unicodeIdentifier, c :: '&' :: '"' :: quotedText '"' (rest.drop 2)⟩
  else none

/-- The token at the head of a text that begins with no other quote than a dollar sign. -/
def plainToken (c : Char) (rest : List Char) : Token :=
  if isWordStart c then ⟨.word, c :: rest.takeWhile isWordChar⟩
  else if c.isDigit ∨ c = '.' ∧ startsDigit rest then ⟨.number, numberText (c :: rest)⟩
  else if c = '.' ∧ rest.head? = some '.' then ⟨.symbol, ['.', '.']⟩
  else if c = '-' ∧ rest.head? = some '-' then
    ⟨.comment, c :: rest.takeWhile fun c ↦ !decide (c = '\n' ∨ c = '\r')⟩
  else if c = '/' ∧ rest.head? = some '*' then ⟨.comment, c :: '*' :: commentText 0 rest.tail⟩
  else if c = '$' ∧ startsDigit rest then ⟨.parameter, c :: parameterText rest⟩
  else
    match dollarDelimiter (c :: rest) with
    | some delimiter =>
      ⟨.dollarQuoted, delimiter ++ delimitedText delimiter ((c :: rest).drop delimiter.length)⟩
    | none => ⟨.symbol, [c]⟩

/-- The first token of a text. -/
def nextToken (continued : Option Bool) (c : Char) (rest : List Char) : Token :=
  (quotedToken? continued c rest).getD (plainToken c rest)

def newlines : List Char := ['\n', '\r']

def blanks : List Char := newlines ++ [' ', '\t', Char.ofNat 11, Char.ofNat 12]

/-- What is still known behind the token. -/
def Token.continues (continued : Option Bool) (t : Token) : Option Bool :=
  match t.kind with
  | .escapedLiteral => some false
  | .comment => if ['-', '-'].isPrefixOf t.text then continued else none
  | .symbol =>
    if t.text.all fun c ↦ decide (c ∈ blanks) then
      continued.map (· || t.text.any fun c ↦ decide (c ∈ newlines))
    else none
  | _ => none

/-- Token by token, for a text of at most `fuel` characters. -/
def lex : ℕ → Option Bool → List Char → List Token
  | 0, _, _ => []
  | _ + 1, _, [] => []
  | fuel + 1, continued, c :: rest =>
    nextToken continued c rest ::
      lex fuel ((nextToken continued c rest).continues continued)
        ((c :: rest).drop (nextToken continued c rest).text.length)

def tokens (text : List Char) : List Token := lex text.length none text

/-! ## Tokens cover the text

Every part of a token is a prefix of what the lexer has before it, and a token takes at least one
character. `Lexes` is the outcome: the tokens in order, and the text they leave, which is none. -/

theorem quotedText_prefix (quote : Char) (text : List Char) : quotedText quote text <+: text := by
  fun_induction quotedText quote text with
  | case1 => exact List.prefix_rfl
  | case2 => exact List.prefix_rfl
  | case3 rest ih => simpa using ih
  | case4 d rest _ => simp
  | case5 c d rest _ ih => simpa using ih

theorem quotedText_cons {quote : Char} (hc : c ≠ quote) (text : List Char) :
    quotedText quote (c :: text) = c :: quotedText quote text := by
  cases text with
  | nil => rfl
  | cons d text => rw [quotedText, if_neg hc]

theorem escapedText_prefix (text : List Char) : escapedText text <+: text := by
  fun_induction escapedText text <;> simp_all

theorem delimitedText_prefix (delimiter text : List Char) :
    delimitedText delimiter text <+: text := by
  fun_induction delimitedText delimiter text with
  | case1 => exact List.prefix_rfl
  | case2 c rest h => exact List.isPrefixOf_iff_prefix.mp h
  | case3 c rest _ ih => simpa using ih

theorem commentText_prefix (depth : ℕ) (text : List Char) : commentText depth text <+: text := by
  fun_induction commentText depth text <;> simp_all

theorem dollarDelimiter_eq_some {delimiter : List Char}
    (h : dollarDelimiter (c :: rest) = some delimiter) :
    c = '$' ∧ '$' ∈ rest ∧ isDollarTag (beforeDollar rest) ∧
      delimiter = delimiterOf (beforeDollar rest) ∧ delimiter <+: c :: rest := by
  rw [dollarDelimiter] at h
  split at h
  · rename_i hc
    obtain ⟨rfl, hmem, htag⟩ := hc
    obtain ⟨tail, htail⟩ := exists_eq_beforeDollar hmem
    refine ⟨rfl, hmem, htag, (Option.some_inj.mp h).symm, tail, ?_⟩
    rw [← Option.some_inj.mp h, delimiterOf, List.append_assoc, List.cons_append,
      List.singleton_append, ← htail]
  · simp at h

theorem digitsText_prefix (text : List Char) : digitsText text <+: text := by
  fun_induction digitsText text <;> simp_all

theorem integerText_prefix (text : List Char) : integerText text <+: text := by
  rw [integerText]
  split
  · exact digitsText_prefix text
  · exact List.nil_prefix

theorem fractionText_prefix (text : List Char) : fractionText text <+: text := by
  cases text with
  | nil => exact List.nil_prefix
  | cons c rest =>
    rw [fractionText]
    split
    · simpa using integerText_prefix rest
    · exact List.nil_prefix

theorem exponentText_prefix (text : List Char) : exponentText text <+: text := by
  match text with
  | [] | [_] => exact List.nil_prefix
  | c :: d :: rest =>
    rw [exponentText]
    split
    · simpa using integerText_prefix (d :: rest)
    split
    · simpa using integerText_prefix rest
    · exact List.nil_prefix

theorem junkText_prefix (text : List Char) : junkText text <+: text := by
  rw [junkText]
  split
  · exact List.takeWhile_prefix isWordChar
  · exact List.nil_prefix

theorem inTurn_prefix {parts : List (List Char → List Char)}
    (h : ∀ part ∈ parts, ∀ text, part text <+: text) (text : List Char) :
    inTurn parts text <+: text := by
  induction parts generalizing text with
  | nil => exact List.nil_prefix
  | cons part parts ih =>
    obtain ⟨tail, htail⟩ := h part List.mem_cons_self text
    have hrest := ih (fun p hp ↦ h p (List.mem_cons_of_mem part hp)) tail
    rw [inTurn]
    generalize part text = taken at htail ⊢
    subst htail
    rw [List.drop_left]
    exact (List.prefix_append_right_inj taken).mpr hrest

theorem numberText_prefix (text : List Char) : numberText text <+: text := by
  refine inTurn_prefix (fun part hpart ↦ ?_) text
  simp only [List.mem_cons, List.not_mem_nil, or_false] at hpart
  rcases hpart with rfl | rfl | rfl | rfl
  · exact integerText_prefix
  · exact fractionText_prefix
  · exact exponentText_prefix
  · exact junkText_prefix

theorem parameterText_prefix (text : List Char) : parameterText text <+: text := by
  refine inTurn_prefix (fun part hpart ↦ ?_) text
  simp only [List.mem_cons, List.not_mem_nil, or_false] at hpart
  rcases hpart with rfl | rfl
  · exact integerText_prefix
  · exact junkText_prefix

/-- The digit or the dot that a number begins with is not all of what is behind it. -/
theorem numberText_cons (h : c.isDigit = true ∨ c = '.' ∧ startsDigit rest = true) :
    ∃ text, numberText (c :: rest) = c :: text ∧ (c = '.' → text ≠ []) := by
  have hfirst : ∀ {d : Char} (text : List Char), d.isDigit = true →
      ∃ others, integerText (d :: text) = d :: others := by
    intro d text hd
    rw [integerText, if_pos (by simpa [startsDigit] using hd)]
    cases text with
    | nil => exact ⟨[], by rw [digitsText, if_pos hd]⟩
    | cons e text => exact ⟨_, by rw [digitsText, if_pos hd]⟩
  rcases h with hdigit | ⟨rfl, hdigit⟩
  · obtain ⟨others, hothers⟩ := hfirst rest hdigit
    refine ⟨_, by rw [numberText, inTurn, hothers]; rfl, ?_⟩
    rintro rfl
    cases hdigit
  · cases rest with
    | nil => cases hdigit
    | cons d rest =>
      have hd : d.isDigit = true := by simpa [startsDigit] using hdigit
      obtain ⟨others, hothers⟩ := hfirst rest hd
      have hdot : d ≠ '.' := by
        rintro rfl
        cases hdigit
      have hfraction : fractionText ('.' :: d :: rest) = '.' :: d :: others := by
        rw [fractionText, if_pos ⟨rfl, by simpa using hdot⟩, hothers]
      have hinteger : integerText ('.' :: d :: rest) = [] := rfl
      refine ⟨_, by rw [numberText, inTurn, hinteger, inTurn, List.nil_append, List.length_nil,
        List.drop_zero, hfraction, List.cons_append], fun _ ↦ by simp⟩

theorem quotedToken_text {continued : Option Bool} {t : Token}
    (h : quotedToken? continued c rest = some t) : t.text ≠ [] ∧ t.text <+: c :: rest := by
  rw [quotedToken?] at h
  split at h
  · split at h <;> cases h
    · exact ⟨by simp, by simpa using escapedText_prefix rest⟩
    · exact ⟨by simp, by simpa using quotedText_prefix c rest⟩
  split at h
  · cases h
    exact ⟨by simp, by simpa using quotedText_prefix c rest⟩
  split at h
  · rename_i hhead
    cases h
    obtain ⟨tail, rfl⟩ := List.head?_eq_some_iff.mp hhead.2
    exact ⟨by simp, by simpa using escapedText_prefix tail⟩
  split at h
  · rename_i hhead
    cases h
    obtain ⟨tail, rfl⟩ := List.isPrefixOf_iff_prefix.mp hhead.2
    exact ⟨by simp, by simpa using quotedText_prefix '\'' tail⟩
  split at h
  · rename_i hhead
    cases h
    obtain ⟨tail, rfl⟩ := List.isPrefixOf_iff_prefix.mp hhead.2
    exact ⟨by simp, by simpa using quotedText_prefix '"' tail⟩
  · cases h

theorem plainToken_text (c : Char) (rest : List Char) :
    (plainToken c rest).text ≠ [] ∧ (plainToken c rest).text <+: c :: rest := by
  rw [plainToken]
  split
  · exact ⟨by simp, by simpa using List.takeWhile_prefix isWordChar⟩
  split
  · rename_i h
    obtain ⟨text, htext, -⟩ := numberText_cons h
    exact ⟨by simp [htext], numberText_prefix _⟩
  split
  · rename_i h
    obtain ⟨tail, rfl⟩ := List.head?_eq_some_iff.mp h.2
    exact ⟨by simp, by simp [h.1]⟩
  split
  · exact ⟨by simp, by simpa using List.takeWhile_prefix _⟩
  split
  · rename_i h
    obtain ⟨tail, rfl⟩ := List.head?_eq_some_iff.mp h.2
    exact ⟨by simp, by simpa using commentText_prefix 0 tail⟩
  split
  · exact ⟨by simp, by simpa using parameterText_prefix rest⟩
  split
  · rename_i delimiter h
    obtain ⟨-, -, -, hdelimiter, tail, htail⟩ := dollarDelimiter_eq_some h
    refine ⟨by simp [hdelimiter, delimiterOf], ?_⟩
    rw [← htail, List.drop_left]
    simpa using delimitedText_prefix delimiter tail
  · simp

/-- A token is not empty, and stands at the head of its text. -/
theorem nextToken_text (continued : Option Bool) (c : Char) (rest : List Char) :
    (nextToken continued c rest).text ≠ [] ∧ (nextToken continued c rest).text <+: c :: rest := by
  rw [nextToken]
  cases h : quotedToken? continued c rest with
  | none => exact plainToken_text c rest
  | some t => exact quotedToken_text h

/-- A text and its tokens. -/
inductive Lexes : Option Bool → List Char → List Token → Prop
  | nil {continued : Option Bool} : Lexes continued [] []
  | cons {continued : Option Bool} {c : Char} {rest tail : List Char} {ts : List Token} :
      c :: rest = (nextToken continued c rest).text ++ tail →
      Lexes ((nextToken continued c rest).continues continued) tail ts →
      Lexes continued (c :: rest) (nextToken continued c rest :: ts)

theorem lexes_lex {fuel : ℕ} {text : List Char} (continued : Option Bool)
    (h : text.length ≤ fuel) : Lexes continued text (lex fuel continued text) := by
  induction fuel generalizing text continued with
  | zero =>
    rw [List.length_eq_zero_iff.mp (Nat.le_zero.mp h)]
    exact .nil
  | succ fuel ih =>
    cases text with
    | nil => exact .nil
    | cons c rest =>
      obtain ⟨hne, tail, htail⟩ := nextToken_text continued c rest
      have hdrop : (c :: rest).drop (nextToken continued c rest).text.length = tail := by
        rw [← htail, List.drop_left]
      have hlength := congrArg List.length htail
      have hpos := List.length_pos_iff.mpr hne
      rw [List.length_append, List.length_cons] at hlength
      rw [List.length_cons] at h
      rw [lex, hdrop]
      exact .cons htail.symm (ih _ (by omega))

theorem lexes_tokens (text : List Char) : Lexes none text (tokens text) := lexes_lex none le_rfl

/-- The tokens of a text make up the text. -/
theorem Lexes.flatMap_text {continued : Option Bool} {text : List Char} {ts : List Token}
    (h : Lexes continued text ts) : ts.flatMap Token.text = text := by
  induction h with
  | nil => rfl
  | cons htail _ ih => rw [List.flatMap_cons, ih, htail]

/-- A dot of its own is a symbol. -/
theorem kind_of_text_dot {continued : Option Bool}
    (h : (nextToken continued c rest).text = ['.']) :
    (nextToken continued c rest).kind = .symbol := by
  obtain ⟨-, tail, htail⟩ := nextToken_text continued c rest
  rw [h] at htail
  obtain ⟨rfl, -⟩ := List.cons.inj htail
  have hquoted : quotedToken? continued '.' rest = none := by simp [quotedToken?]
  rw [nextToken, hquoted, Option.getD_none, plainToken, if_neg (by decide)] at h ⊢
  split at h
  · rename_i hnumber
    obtain ⟨text, htext, hne⟩ := numberText_cons hnumber
    rw [htext, List.cons.injEq] at h
    exact absurd h.2 (hne rfl)
  · rename_i hnumber
    rw [if_neg hnumber]
    split
    · rfl
    · simp [dollarDelimiter]

end Operator

end NotificationLedger

import NotificationLedger.Lexing

/-!
# What normalization deletes

Against the tokens of a text: where the scanner is not misled, it deletes the qualifiers that stand
as tokens of their own and nothing else.

## What misleads it

A backslash in front of a quote in a plain literal; a dollar delimiter inside of an identifier, or
with a letter beyond ASCII in its tag; a qualifier that seems to begin within a token, or that
begins directly behind an ASCII identifier character; the name of a qualifier in front of two dots
or of a number that begins with one; and a quote in a comment. `Harmless` excludes these token by
token. Each of them does mislead the scanner (`misleading`), but not every text with one of them
comes out wrong: a quote that is taken for an escaped one shows only if a qualifier or another quote
comes behind it.

## How the proof goes

`Scans` follows the scanner from any place in the text. For each kind of token there is a lemma that
it copies a harmless one and is then outside of all quotes, and `scans_tokens` puts them together
along the tokens, where a qualifier and its dot are skipped.
-/

namespace NotificationLedger

namespace Operator

variable {quals : List (List Char)} {boundary : Bool} {c : Char} {rest tail out : List Char}

/-! ## The qualifiers among the tokens -/

/-- The two tokens are a qualifier and its dot. -/
def IsQualifier (quals : List (List Char)) (t dot : Token) : Prop :=
  t.text ++ ['.'] ∈ quals ∧ dot.text = ['.']

instance (t dot : Token) : Decidable (IsQualifier quals t dot) :=
  inferInstanceAs (Decidable (_ ∧ _))

/-- The tokens without the qualifiers. -/
def kept (quals : List (List Char)) : List Token → List Token
  | t :: dot :: ts => if IsQualifier quals t dot then kept quals ts else t :: kept quals (dot :: ts)
  | ts => ts

/-! ## What misleads the scanner -/

/-- A backslash, not itself behind one, stands in front of a quote. -/
def escapesQuote : List Char → Bool
  | c :: d :: rest =>
    if c = '\\' then decide (d = '\'') || escapesQuote rest else escapesQuote (d :: rest)
  | _ => false

/-- Behind the first half of a doubled quote the text goes on with a qualifier. -/
def hidesQualifier (quals : List (List Char)) (rest : List Char) : List Char → Bool
  | c :: d :: text =>
    if c = '"' ∧ d = '"' then
      quals.any (·.isPrefixOf (d :: text ++ rest)) || hidesQualifier quals rest text
    else hidesQualifier quals rest (d :: text)
  | _ => false

/-- Nothing in the text seems to open a quote or to be a qualifier. -/
def Quiet (quals : List (List Char)) (rest : List Char) : Bool → List Char → Prop
  | _, [] => True
  | boundary, c :: text =>
    (c ≠ '\'' ∧ c ≠ '"' ∧ dollarQuote (c :: text ++ rest) = none ∧
        (boundary = true → ∀ q ∈ quals, ¬ q <+: c :: text ++ rest)) ∧
      Quiet quals rest (!isIdentifierChar c) text

instance decidableQuiet : ∀ boundary text, Decidable (Quiet quals rest boundary text)
  | _, [] => inferInstanceAs (Decidable True)
  | _, c :: text =>
    have := decidableQuiet (!isIdentifierChar c) text
    inferInstanceAs (Decidable (_ ∧ _))

/-- Nothing in a token misleads the scanner, which reads `rest` behind it. -/
def HarmlessToken (quals : List (List Char)) (boundary : Bool) (t : Token) (rest : List Char) :
    Prop :=
  match t.kind with
  | .literal => escapesQuote t.text.tail = false
  | .unicodeLiteral => escapesQuote (t.text.drop 3) = false
  | .identifier => hidesQualifier quals rest t.text.tail = false
  | .unicodeIdentifier =>
    (∀ q ∈ quals, ¬ q <+: t.text.drop 2 ++ rest) ∧
      hidesQualifier quals rest (t.text.drop 3) = false
  | .word => Quiet quals rest (endsToken (t.text.take 1)) t.text.tail
  | .comment | .number | .parameter => Quiet quals rest boundary t.text
  | .dollarQuoted => dollarQuote t.text ≠ none
  | .escapedLiteral | .symbol => True

instance : ∀ t, Decidable (HarmlessToken quals boundary t rest)
  | ⟨.literal, _⟩ | ⟨.unicodeLiteral, _⟩ | ⟨.identifier, _⟩ =>
    inferInstanceAs (Decidable (_ = false))
  | ⟨.unicodeIdentifier, _⟩ => inferInstanceAs (Decidable (_ ∧ _ = false))
  | ⟨.word, _⟩ | ⟨.comment, _⟩ | ⟨.number, _⟩ | ⟨.parameter, _⟩ =>
    inferInstanceAs (Decidable (Quiet _ _ _ _))
  | ⟨.dollarQuoted, _⟩ => inferInstanceAs (Decidable (_ ≠ none))
  | ⟨.escapedLiteral, _⟩ | ⟨.symbol, _⟩ => inferInstanceAs (Decidable True)

/-- The tokens begin with a dot of its own. -/
def startsDot (ts : List Token) : Bool := ts.head?.any fun t ↦ decide (t.text = ['.'])

/-- Nothing in the tokens misleads the scanner. Behind the name of a qualifier it takes every dot
for the qualifier's, if a token can begin in front of the name; PostgreSQL takes a dot of its own,
and one only. -/
def Harmless (quals : List (List Char)) : Bool → List Token → Prop
  | _, [] => True
  | boundary, t :: ts =>
    HarmlessToken quals boundary t (ts.flatMap Token.text) ∧
      (t.text ++ ['.'] ∈ quals → (ts.flatMap Token.text).head? = some '.' →
        boundary = startsDot ts) ∧
      Harmless quals (endsToken t.text) ts

instance decidableHarmless : ∀ boundary ts, Decidable (Harmless quals boundary ts)
  | _, [] => inferInstanceAs (Decidable True)
  | _, t :: ts =>
    have := decidableHarmless (endsToken t.text) ts
    inferInstanceAs (Decidable (_ ∧ _ ∧ _))

/-! ## Scanning a token -/

theorem Scans.eq_nil {quote : Option (List Char)} (h : Scans quals boundary quote [] out) :
    out = [] := by
  cases h
  rfl

theorem escapesQuote_cons (hc : c ≠ '\\') (text : List Char) :
    escapesQuote (c :: text) = escapesQuote text := by
  cases text with
  | nil => rfl
  | cons d text => rw [escapesQuote, if_neg hc]

theorem reading_literal {text : List Char} (hslash : c ≠ '\\') (hquote : c ≠ '\'') :
    reading quals boundary (some ['\'']) c text = ⟨[c], true, some ['\'']⟩ := by
  simp [reading, readInside, readLiteral, hslash, hquote]

theorem reading_escape (d : Char) (text : List Char) :
    reading quals boundary (some ['\'']) '\\' (d :: text) =
      ⟨['\\', d], true, some ['\'']⟩ := by
  simp [reading, readInside, readLiteral]

/-- A backslash at the end of the text escapes nothing. -/
theorem scans_slash : Scans quals boundary (some ['\'']) ['\\'] ['\\'] := by
  have hread : reading quals boundary (some ['\'']) '\\' [] = ⟨['\\'], true, some ['\'']⟩ := by
    simp [reading, readInside, readLiteral]
  exact .copy hread .done

theorem ne_quote_of_not_escapesQuote {d : Char} {text : List Char}
    (h : escapesQuote ('\\' :: quotedText '\'' (d :: text)) = false) : d ≠ '\'' := by
  intro hd
  subst hd
  cases text with
  | nil => simp [quotedText, escapesQuote] at h
  | cons e text => by_cases he : e = '\'' <;> simp [quotedText, escapesQuote, he] at h

/-- A literal is read as PostgreSQL reads it. -/
theorem scans_quotedText {text : List Char} (htext : text = quotedText '\'' text ++ rest)
    (hescapes : escapesQuote (quotedText '\'' text) = false) (h : Scans quals true none rest out) :
    Scans quals boundary (some ['\'']) text (quotedText '\'' text ++ out) := by
  induction hn : text.length using Nat.strong_induction_on generalizing boundary text with
  | _ n ih =>
    cases text with
    | nil =>
      obtain rfl : rest = [] := by simpa [quotedText] using htext
      rw [h.eq_nil]
      exact .done
    | cons c text =>
      rw [List.length_cons] at hn
      by_cases hquote : c = '\''
      · subst hquote
        cases text with
        | nil =>
          obtain rfl : rest = [] := by simpa [quotedText] using htext
          exact scans_close h
        | cons d text =>
          rw [List.length_cons] at hn
          by_cases hd : d = '\''
          · subst hd
            simp only [quotedText, if_true] at htext hescapes ⊢
            rw [escapesQuote_cons (by decide), escapesQuote_cons (by decide)] at hescapes
            have hrest : text = quotedText '\'' text ++ rest := by simpa using htext
            exact scans_double (ih text.length (by omega) hrest hescapes rfl)
          · simp only [quotedText, if_true, if_neg hd] at htext ⊢
            obtain rfl : d :: text = rest := by simpa using htext
            exact scans_close h
      · rw [quotedText_cons hquote] at htext hescapes ⊢
        have hrest : text = quotedText '\'' text ++ rest := by simpa using htext
        by_cases hslash : c = '\\'
        · subst hslash
          cases text with
          | nil =>
            obtain rfl : rest = [] := by simpa [quotedText] using hrest
            rw [h.eq_nil]
            exact scans_slash
          | cons d text =>
            rw [List.length_cons] at hn
            have hd := ne_quote_of_not_escapesQuote hescapes
            rw [quotedText_cons hd] at hrest hescapes ⊢
            have hrest : text = quotedText '\'' text ++ rest := by simpa using hrest
            rw [escapesQuote, if_pos rfl, Bool.or_eq_false_iff] at hescapes
            exact Scans.of_reading (reading_escape d text) rfl
              (ih text.length (by omega) hrest hescapes.2 rfl)
        · rw [escapesQuote_cons hslash] at hescapes
          exact .copy (reading_literal hslash hquote) (ih text.length (by omega) hrest hescapes rfl)

/-- Behind an `E` the two agree on backslashes too. -/
theorem scans_escapedText {text : List Char} (htext : text = escapedText text ++ rest)
    (h : Scans quals true none rest out) :
    Scans quals boundary (some ['\'']) text (escapedText text ++ out) := by
  induction hn : text.length using Nat.strong_induction_on generalizing boundary text with
  | _ n ih =>
    match text with
    | [] =>
      obtain rfl : rest = [] := by simpa [escapedText] using htext
      rw [h.eq_nil]
      exact .done
    | [c] =>
      obtain rfl : rest = [] := by simpa [escapedText] using htext
      obtain rfl := h.eq_nil
      by_cases hquote : c = '\''
      · subst hquote
        exact scans_close h
      · by_cases hslash : c = '\\'
        · subst hslash
          exact scans_slash
        · exact .copy (reading_literal hslash hquote) .done
    | c :: d :: text =>
      rw [List.length_cons, List.length_cons] at hn
      by_cases hslash : c = '\\'
      · subst hslash
        simp only [escapedText, if_true] at htext ⊢
        have hrest : text = escapedText text ++ rest := by simpa using htext
        exact Scans.of_reading (reading_escape d text) rfl (ih text.length (by omega) hrest rfl)
      · by_cases hquote : c = '\''
        · subst hquote
          by_cases hd : d = '\''
          · subst hd
            simp only [escapedText, if_neg hslash, if_true] at htext ⊢
            have hrest : text = escapedText text ++ rest := by simpa using htext
            exact scans_double (ih text.length (by omega) hrest rfl)
          · simp only [escapedText, if_neg hslash, if_true, if_neg hd] at htext ⊢
            obtain rfl : d :: text = rest := by simpa using htext
            exact scans_close h
        · simp only [escapedText, if_neg hslash, if_neg hquote] at htext ⊢
          have hrest : d :: text = escapedText (d :: text) ++ rest := by simpa using htext
          exact .copy (reading_literal hslash hquote)
            (ih (d :: text).length (by rw [List.length_cons]; omega) hrest rfl)

theorem hidesQualifier_cons (hc : c ≠ '"') (text : List Char) :
    hidesQualifier quals rest (c :: text) = hidesQualifier quals rest text := by
  cases text with
  | nil => rfl
  | cons d text => rw [hidesQualifier, if_neg fun h ↦ hc h.1]

theorem reading_close (text : List Char) :
    reading quals boundary (some ['"']) '"' text = ⟨['"'], true, none⟩ := by
  simp [reading, readInside, List.isPrefixOf]

/-- A doubled quote in an identifier closes it and opens it again. -/
theorem scans_identifierText {text : List Char} (htext : text = quotedText '"' text ++ rest)
    (hhides : hidesQualifier quals rest (quotedText '"' text) = false)
    (h : Scans quals true none rest out) :
    Scans quals boundary (some ['"']) text (quotedText '"' text ++ out) := by
  induction hn : text.length using Nat.strong_induction_on generalizing boundary text with
  | _ n ih =>
    cases text with
    | nil =>
      obtain rfl : rest = [] := by simpa [quotedText] using htext
      rw [h.eq_nil]
      exact .done
    | cons c text =>
      rw [List.length_cons] at hn
      by_cases hquote : c = '"'
      · subst hquote
        cases text with
        | nil =>
          obtain rfl : rest = [] := by simpa [quotedText] using htext
          exact .copy (reading_close _) h
        | cons d text =>
          rw [List.length_cons] at hn
          by_cases hd : d = '"'
          · subst hd
            simp only [quotedText, if_true] at htext hhides ⊢
            have hrest : text = quotedText '"' text ++ rest := by simpa using htext
            rw [hidesQualifier, if_pos ⟨rfl, rfl⟩, List.cons_append, ← hrest,
              Bool.or_eq_false_iff] at hhides
            obtain ⟨hnone, hhides⟩ := hhides
            have hopen : (true = true → ∀ q ∈ quals, ¬ q <+: '"' :: text) := by
              intro _ q hq hp
              rw [List.any_eq_false] at hnone
              exact hnone q hq (List.isPrefixOf_iff_prefix.mpr hp)
            exact .copy (reading_close _)
              (.copy (reading_open hopen) (ih text.length (by omega) hrest hhides rfl))
          · simp only [quotedText, if_true, if_neg hd] at htext ⊢
            obtain rfl : d :: text = rest := by simpa using htext
            exact .copy (reading_close _) h
      · rw [quotedText_cons hquote] at htext hhides ⊢
        rw [hidesQualifier_cons hquote] at hhides
        have hrest : text = quotedText '"' text ++ rest := by simpa using htext
        refine .copy ?_ (ih text.length (by omega) hrest hhides rfl)
        simp [reading, readInside, List.isPrefixOf, Ne.symm hquote]

theorem scans_delimitedText {delimiter text : List Char} (hliteral : delimiter ≠ ['\''])
    (htext : text = delimitedText delimiter text ++ rest)
    (h : Scans quals (endsToken delimiter) none rest out) :
    Scans quals boundary (some delimiter) text (delimitedText delimiter text ++ out) := by
  induction text generalizing boundary with
  | nil =>
    obtain rfl : rest = [] := by simpa [delimitedText] using htext
    rw [h.eq_nil]
    exact .done
  | cons c text ih =>
    by_cases hhead : delimiter.isPrefixOf (c :: text) = true
    · rw [delimitedText, if_pos hhead] at htext ⊢
      have hread : reading quals boundary (some delimiter) c text = ⟨delimiter, true, none⟩ := by
        rw [reading, readInside, if_neg hliteral, if_pos hhead]
      exact Scans.of_reading hread htext h
    · rw [delimitedText, if_neg hhead] at htext ⊢
      have hread : reading quals boundary (some delimiter) c text =
          ⟨[c], true, some delimiter⟩ := by
        rw [reading, readInside, if_neg hliteral, if_neg hhead]
      exact .copy hread (ih (by simpa using htext))

theorem endsToken_cons_cons (c d : Char) (text : List Char) :
    endsToken (c :: d :: text) = endsToken (d :: text) := by
  rw [endsToken, endsToken, List.getLast?_cons_cons]

/-- Where nothing opens and nothing is deleted, the text is copied. -/
theorem scans_quiet {text : List Char} (hne : text ≠ []) (hquiet : Quiet quals rest boundary text)
    (h : Scans quals (endsToken text) none rest out) :
    Scans quals boundary none (text ++ rest) (text ++ out) := by
  induction text generalizing boundary with
  | nil => exact absurd rfl hne
  | cons c text ih =>
    obtain ⟨⟨hliteral, hident, hdollar, hquals⟩, hquiet⟩ := hquiet
    have hread : reading quals boundary none c (text ++ rest) = ⟨[c], true, none⟩ :=
      reading_ordinary hliteral hident hdollar hquals
    cases text with
    | nil => exact .copy hread h
    | cons d text =>
      rw [endsToken_cons_cons] at h
      exact .copy hread (ih (by simp) hquiet h)

variable {schema : List Char}

/-! ## Where tokens end -/

theorem Scans.mono {boundary' : Bool} (h : Scans quals boundary none rest out)
    (hb : rest = [] ∨ boundary = boundary') : Scans quals boundary' none rest out := by
  rcases hb with rfl | rfl
  · rw [h.eq_nil]
    exact .done
  · exact h

theorem quotedText_ends {quote : Char} {text : List Char}
    (h : text = quotedText quote text ++ rest) :
    rest = [] ∨ ∃ body, quotedText quote text = body ++ [quote] := by
  fun_induction quotedText quote text with
  | case1 => exact .inl (by simpa using h)
  | case2 c => exact .inl (by simpa using h)
  | case3 text ih =>
    refine (ih (by simpa using h)).imp_right ?_
    rintro ⟨body, hbody⟩
    exact ⟨quote :: quote :: body, by rw [hbody]; rfl⟩
  | case4 d text _ => exact .inr ⟨[], rfl⟩
  | case5 c d text _ ih =>
    refine (ih (by simpa using h)).imp_right ?_
    rintro ⟨body, hbody⟩
    exact ⟨c :: body, by rw [hbody]; rfl⟩

theorem escapedText_ends {text : List Char} (h : text = escapedText text ++ rest) :
    rest = [] ∨ ∃ body, escapedText text = body ++ ['\''] := by
  fun_induction escapedText text with
  | case1 => exact .inl (by simpa using h)
  | case2 c => exact .inl (by simpa using h)
  | case3 d text ih =>
    refine (ih (by simpa using h)).imp_right ?_
    rintro ⟨body, hbody⟩
    exact ⟨'\\' :: d :: body, by rw [hbody]; rfl⟩
  | case4 text _ ih =>
    refine (ih (by simpa using h)).imp_right ?_
    rintro ⟨body, hbody⟩
    exact ⟨'\'' :: '\'' :: body, by rw [hbody]; rfl⟩
  | case5 d text _ _ => exact .inr ⟨[], rfl⟩
  | case6 c d text _ _ ih =>
    refine (ih (by simpa using h)).imp_right ?_
    rintro ⟨body, hbody⟩
    exact ⟨c :: body, by rw [hbody]; rfl⟩

theorem delimitedText_ends {delimiter text : List Char}
    (h : text = delimitedText delimiter text ++ rest) :
    rest = [] ∨ ∃ body, delimitedText delimiter text = body ++ delimiter := by
  fun_induction delimitedText delimiter text with
  | case1 => exact .inl (by simpa using h)
  | case2 c text _ => exact .inr ⟨[], rfl⟩
  | case3 c text _ ih =>
    refine (ih (by simpa using h)).imp_right ?_
    rintro ⟨body, hbody⟩
    exact ⟨c :: body, by rw [hbody]; rfl⟩

/-- Behind a token that ends in a quote, or at the end of the text, a token can start. -/
theorem Scans.behind_quote (first : List Char) {text : List Char} {quote : Char}
    (h : Scans quals (endsToken (first ++ text)) none rest out)
    (hquote : isIdentifierChar quote = false)
    (hends : rest = [] ∨ ∃ body, text = body ++ [quote]) : Scans quals true none rest out := by
  refine h.mono (hends.imp_right ?_)
  rintro ⟨body, rfl⟩
  rw [← List.append_assoc, endsToken_concat, hquote]
  rfl

/-! ## Tokens that are copied -/

theorem scans_literalToken {text : List Char} (htext : text = quotedText '\'' text ++ rest)
    (hescapes : escapesQuote (quotedText '\'' text) = false)
    (h : Scans quals (endsToken ('\'' :: quotedText '\'' text)) none rest out) :
    Scans quals boundary none ('\'' :: text) ('\'' :: quotedText '\'' text ++ out) := by
  have h : Scans quals true none rest out :=
    Scans.behind_quote ['\''] h (by decide) (quotedText_ends htext)
  exact .copy rfl (scans_quotedText htext hescapes h)

/-- A qualifier goes on with a character of its name, or with its dot. -/
theorem not_prefix_of_second (hname : IsName schema) {d : Char} {text : List Char}
    (hident : c ≠ '"') (hd : isTagChar d = false) (hdot : d ≠ '.') :
    ∀ q ∈ qualifiers schema, ¬ q <+: c :: d :: text := by
  rintro q hq ⟨tail, htail⟩
  obtain ⟨name, hname, rfl | rfl⟩ := exists_name hname hq
  · match name, hname with
    | [e], _ => exact hdot (by simpa using (List.cons.inj (List.cons.inj htail).2).1.symm)
    | e :: e' :: others, hname =>
      obtain rfl : e' = d := (List.cons.inj (List.cons.inj htail).2).1
      simp [hname.all e' (by simp)] at hd
  · exact hident (List.cons.inj htail).1.symm

/-- The letter in front of a literal or an identifier is copied. -/
theorem scans_marked (hname : IsName schema) {d : Char} {text : List Char}
    (hc : (c = 'E' ∨ c = 'e') ∨ c = 'U' ∨ c = 'u') (hd : d = '\'' ∨ d = '&')
    (h : Scans (qualifiers schema) false none (d :: text) out) :
    Scans (qualifiers schema) boundary none (c :: d :: text) (c :: out) := by
  have hletter : c ≠ '\'' ∧ c ≠ '"' ∧ c ≠ '$' ∧ endsToken [c] = false := by
    rcases hc with (rfl | rfl) | rfl | rfl <;> decide
  obtain ⟨hliteral, hident, hdollar, hends⟩ := hletter
  have hsecond : isTagChar d = false ∧ d ≠ '.' := by
    rcases hd with rfl | rfl <;> decide
  refine .copy (reading_ordinary hliteral hident (dollarQuote_of_ne hdollar _) ?_) (hends ▸ h)
  exact fun _ ↦ not_prefix_of_second hname hident hsecond.1 hsecond.2

theorem scans_ampersand (hname : IsName schema) {text : List Char}
    (h : Scans (qualifiers schema) true none text out) :
    Scans (qualifiers schema) boundary none ('&' :: text) ('&' :: out) := by
  refine .copy (reading_ordinary (by decide) (by decide) (dollarQuote_of_ne (by decide) _) ?_) h
  exact fun _ ↦ not_prefix_of_head hname (by decide) (by decide)

theorem scans_escapedToken {text : List Char} (htext : text = escapedText text ++ rest)
    (h : Scans quals (endsToken ('\'' :: escapedText text)) none rest out) :
    Scans quals boundary none ('\'' :: text) ('\'' :: escapedText text ++ out) := by
  have h : Scans quals true none rest out :=
    Scans.behind_quote ['\''] h (by decide) (escapedText_ends htext)
  exact .copy rfl (scans_escapedText htext h)

theorem scans_identifierToken {text : List Char} (htext : text = quotedText '"' text ++ rest)
    (hhides : hidesQualifier quals rest (quotedText '"' text) = false)
    (hquals : boundary = true → ∀ q ∈ quals, ¬ q <+: '"' :: text)
    (h : Scans quals (endsToken ('"' :: quotedText '"' text)) none rest out) :
    Scans quals boundary none ('"' :: text) ('"' :: quotedText '"' text ++ out) := by
  have h : Scans quals true none rest out :=
    Scans.behind_quote ['"'] h (by decide) (quotedText_ends htext)
  exact .copy (reading_open hquals) (scans_identifierText htext hhides h)

theorem scans_dollarToken {tag text : List Char} (htag : isTag tag = true)
    (htext : text = delimitedText (delimiterOf tag) text ++ rest)
    (h : Scans quals (endsToken (delimiterOf tag ++ delimitedText (delimiterOf tag) text)) none
      rest out) :
    Scans quals boundary none (delimiterOf tag ++ text)
      (delimiterOf tag ++ delimitedText (delimiterOf tag) text ++ out) := by
  have h : Scans quals (endsToken (delimiterOf tag)) none rest out := by
    refine h.mono ((delimitedText_ends htext).imp_right ?_)
    rintro ⟨body, hbody⟩
    rw [hbody, ← List.append_assoc, endsToken_append _ (by simp [delimiterOf])]
  have hread : reading quals boundary none '$' (tag ++ '$' :: text) =
      ⟨delimiterOf tag, true, some (delimiterOf tag)⟩ := reading_dollar htag text
  have hstep := Scans.of_reading hread (by simp [delimiterOf])
    (scans_delimitedText (by simp [delimiterOf]) htext h)
  simpa [delimiterOf] using hstep

theorem dollar_notMem_beforeDollar (text : List Char) : '$' ∉ beforeDollar text := by
  intro hmem
  simpa using List.mem_takeWhile_imp hmem

/-- The scanner knows a tag where it finds its delimiter. -/
theorem isTag_of_dollarQuote {text : List Char}
    (h : dollarQuote (delimiterOf (beforeDollar text) ++ rest) ≠ none) :
    isTag (beforeDollar text) = true := by
  by_contra htag
  refine h ?_
  have hhead : delimiterOf (beforeDollar text) ++ rest =
      '$' :: (beforeDollar text ++ '$' :: rest) := by simp [delimiterOf]
  rw [hhead, dollarQuote, beforeDollar_append (dollar_notMem_beforeDollar text),
    if_neg fun hopen ↦ htag hopen.2.2]

/-- A dollar sign opens a quote at most where PostgreSQL sees one. -/
theorem dollarQuote_of_dollarDelimiter (h : dollarDelimiter (c :: rest) = none) :
    dollarQuote (c :: rest) = none := by
  rw [dollarDelimiter] at h
  split at h
  · simp at h
  · rename_i hnone
    rw [dollarQuote, if_neg]
    rintro ⟨hc, hmem, htag⟩
    refine hnone ⟨hc, hmem, ?_⟩
    cases htext : beforeDollar rest with
    | nil => rfl
    | cons d tag =>
      rw [htext, isTag, Bool.and_eq_true, List.all_eq_true] at htag
      rw [isDollarTag, Bool.and_eq_true, List.all_eq_true]
      exact ⟨by simp [htag.1], fun e he ↦ by simp [htag.2 e he]⟩

/-- What begins with a word begins with a qualifier only if the word is one. -/
theorem not_prefix_of_word (hname : IsName schema) {text : List Char}
    (htext : text = text.takeWhile isWordChar ++ rest) (hident : c ≠ '"')
    (hplain : c :: text.takeWhile isWordChar ++ ['.'] ∈ qualifiers schema →
      rest.head? ≠ some '.') :
    ∀ q ∈ qualifiers schema, ¬ q <+: c :: text := by
  rintro q hq ⟨tail, htail⟩
  obtain ⟨name, hname, rfl | rfl⟩ := exists_name hname hq
  · obtain ⟨d, others, rfl⟩ := List.exists_cons_of_ne_nil hname.1
    rw [List.cons_append, List.cons_append, List.append_assoc] at htail
    obtain ⟨rfl, hothers⟩ := List.cons.inj htail
    have hword : text.takeWhile isWordChar = others := by
      rw [← hothers, List.takeWhile_append_of_pos, List.singleton_append,
        List.takeWhile_cons_of_neg (by decide), List.append_nil]
      intro e he
      have htagChar := hname.all e (List.mem_cons_of_mem _ he)
      simp [isWordChar, isIdentifierChar, htagChar]
    rw [hword] at hplain htext
    rw [htext] at hothers
    have hrest := List.append_cancel_left hothers
    exact hplain hq (by rw [← hrest]; rfl)
  · exact hident (List.cons.inj htail).1.symm

theorem not_prefix_of_identifier (hname : IsName schema) {text : List Char}
    (htext : text = quotedText '"' text ++ rest)
    (hplain : '"' :: quotedText '"' text ++ ['.'] ∈ qualifiers schema → rest.head? ≠ some '.') :
    ∀ q ∈ qualifiers schema, ¬ q <+: '"' :: text := by
  rintro q hq ⟨tail, htail⟩
  obtain ⟨name, hname, rfl | rfl⟩ := exists_name hname hq
  · obtain ⟨d, others, rfl⟩ := List.exists_cons_of_ne_nil hname.1
    obtain rfl : d = '"' := (List.cons.inj htail).1
    exact absurd (hname.all '"' List.mem_cons_self) (by decide)
  · rw [List.cons_append, List.cons_append, List.append_assoc] at htail
    obtain htail := (List.cons.inj htail).2
    have hquote : ∀ others : List Char, '"' ∉ others →
        quotedText '"' (others ++ ['"', '.'] ++ tail) = others ++ ['"'] := by
      intro others hothers
      induction others with
      | nil => rfl
      | cons e others ih =>
        have he : e ≠ '"' := fun he ↦ hothers (he ▸ List.mem_cons_self)
        rw [List.cons_append, List.cons_append, quotedText_cons he,
          ih fun hmem ↦ hothers (List.mem_cons_of_mem e hmem)]
        rfl
    have hfree : '"' ∉ name := fun hmem ↦ absurd (hname.all '"' hmem) (by decide)
    have hword := hquote name hfree
    rw [List.append_assoc, htail] at hword
    rw [hword] at hplain htext
    rw [htext, List.append_assoc] at htail
    have hrest := List.append_cancel_left htail
    refine hplain (by simpa using hq) ?_
    simp at hrest
    rw [← hrest]
    rfl

theorem scans_escapedLiteralToken (hname : IsName schema) {text : List Char}
    (hc : c = 'E' ∨ c = 'e') (htext : text = escapedText text ++ rest)
    (h : Scans (qualifiers schema) (endsToken (c :: '\'' :: escapedText text)) none rest out) :
    Scans (qualifiers schema) boundary none (c :: '\'' :: text)
      (c :: '\'' :: escapedText text ++ out) := by
  rw [endsToken_cons_cons] at h
  exact scans_marked hname (.inl hc) (.inl rfl) (scans_escapedToken htext h)

theorem scans_unicodeLiteralToken (hname : IsName schema) {text : List Char}
    (hc : c = 'U' ∨ c = 'u') (htext : text = quotedText '\'' text ++ rest)
    (hescapes : escapesQuote (quotedText '\'' text) = false)
    (h : Scans (qualifiers schema) (endsToken (c :: '&' :: '\'' :: quotedText '\'' text)) none
      rest out) :
    Scans (qualifiers schema) boundary none (c :: '&' :: '\'' :: text)
      (c :: '&' :: '\'' :: quotedText '\'' text ++ out) := by
  rw [endsToken_cons_cons, endsToken_cons_cons] at h
  exact scans_marked hname (.inr hc) (.inr rfl)
    (scans_ampersand hname (scans_literalToken htext hescapes h))

theorem scans_unicodeIdentifierToken (hname : IsName schema) {text : List Char}
    (hc : c = 'U' ∨ c = 'u') (htext : text = quotedText '"' text ++ rest)
    (hquals : ∀ q ∈ qualifiers schema, ¬ q <+: '"' :: text)
    (hhides : hidesQualifier (qualifiers schema) rest (quotedText '"' text) = false)
    (h : Scans (qualifiers schema) (endsToken (c :: '&' :: '"' :: quotedText '"' text)) none
      rest out) :
    Scans (qualifiers schema) boundary none (c :: '&' :: '"' :: text)
      (c :: '&' :: '"' :: quotedText '"' text ++ out) := by
  rw [endsToken_cons_cons, endsToken_cons_cons] at h
  exact scans_marked hname (.inr hc) (.inr rfl)
    (scans_ampersand hname (scans_identifierToken htext hhides (fun _ ↦ hquals) h))

theorem scans_wordToken (hname : IsName schema) {text : List Char} (hliteral : c ≠ '\'')
    (hident : c ≠ '"') (hstart : isWordStart c = true)
    (htext : text = text.takeWhile isWordChar ++ rest)
    (hquiet : Quiet (qualifiers schema) rest (endsToken [c]) (text.takeWhile isWordChar))
    (hplain : boundary = true → c :: text.takeWhile isWordChar ++ ['.'] ∈ qualifiers schema →
      rest.head? ≠ some '.')
    (h : Scans (qualifiers schema) (endsToken (c :: text.takeWhile isWordChar)) none rest out) :
    Scans (qualifiers schema) boundary none (c :: text.takeWhile isWordChar ++ rest)
      (c :: text.takeWhile isWordChar ++ out) := by
  have hdollar : c ≠ '$' := by
    rintro rfl
    exact absurd hstart (by decide)
  refine scans_quiet (by simp) ⟨⟨hliteral, hident, dollarQuote_of_ne hdollar _, fun hstarts ↦ ?_⟩,
    hquiet⟩ h
  rw [List.cons_append, ← htext]
  exact not_prefix_of_word hname htext hident (hplain hstarts)

theorem scans_symbol (hliteral : c ≠ '\'') (hident : c ≠ '"')
    (hdollar : dollarDelimiter (c :: rest) = none) (hquals : ∀ q ∈ quals, ¬ q <+: c :: rest)
    (h : Scans quals (endsToken [c]) none rest out) :
    Scans quals boundary none ([c] ++ rest) ([c] ++ out) :=
  scans_quiet (by simp)
    ⟨⟨hliteral, hident, dollarQuote_of_dollarDelimiter hdollar, fun _ ↦ hquals⟩, trivial⟩ h

/-- Two dots are copied one by one. -/
theorem scans_dots (hname : IsName schema) (h : Scans (qualifiers schema) true none rest out) :
    Scans (qualifiers schema) boundary none (['.', '.'] ++ rest) (['.', '.'] ++ out) := by
  have hdot : ∀ rest, ∀ q ∈ qualifiers schema, ¬ q <+: '.' :: rest :=
    fun rest ↦ not_prefix_of_head hname (by decide) (by decide)
  have hdollar : ∀ rest, dollarQuote ('.' :: rest) = none := dollarQuote_of_ne (by decide)
  exact scans_quiet (by simp) ⟨⟨by decide, by decide, hdollar _, fun _ ↦ hdot _⟩,
    ⟨by decide, by decide, hdollar _, fun _ ↦ hdot _⟩, trivial⟩ h

theorem scans_quotedToken (hname : IsName schema) {continued : Option Bool} {text : List Char}
    {t : Token} (ht : quotedToken? continued c text = some t) (htext : c :: text = t.text ++ rest)
    (hharmless : HarmlessToken (qualifiers schema) boundary t rest)
    (hplain : boundary = true → t.text ++ ['.'] ∈ qualifiers schema → rest.head? ≠ some '.')
    (h : Scans (qualifiers schema) (endsToken t.text) none rest out) :
    Scans (qualifiers schema) boundary none (c :: text) (t.text ++ out) := by
  rw [quotedToken?] at ht
  split at ht
  · rename_i hc
    subst hc
    split at ht <;> cases ht
    · exact scans_escapedToken (by simpa using htext) h
    · exact scans_literalToken (by simpa using htext) hharmless h
  split at ht
  · rename_i hc
    subst hc
    cases ht
    have hrest : text = quotedText '"' text ++ rest := by simpa using htext
    exact scans_identifierToken hrest hharmless
      (fun hstarts ↦ not_prefix_of_identifier hname hrest (hplain hstarts)) h
  split at ht
  · rename_i hc
    cases ht
    obtain ⟨tail, rfl⟩ := List.head?_eq_some_iff.mp hc.2
    exact scans_escapedLiteralToken hname hc.1 (by simpa using htext) h
  split at ht
  · rename_i hc
    cases ht
    obtain ⟨tail, rfl⟩ := List.isPrefixOf_iff_prefix.mp hc.2
    exact scans_unicodeLiteralToken hname hc.1 (by simpa using htext) hharmless h
  split at ht
  · rename_i hc
    cases ht
    obtain ⟨tail, rfl⟩ := List.isPrefixOf_iff_prefix.mp hc.2
    have hrest : tail = quotedText '"' tail ++ rest := by simpa using htext
    have hquals : ∀ q ∈ qualifiers schema, ¬ q <+: '"' :: tail := by
      rw [hrest]
      exact hharmless.1
    exact scans_unicodeIdentifierToken hname hc.1 hrest hquals hharmless.2 h
  · cases ht

theorem scans_plainToken (hname : IsName schema) {text : List Char} (hliteral : c ≠ '\'')
    (hident : c ≠ '"') (htext : c :: text = (plainToken c text).text ++ rest)
    (hharmless : HarmlessToken (qualifiers schema) boundary (plainToken c text) rest)
    (hplain : boundary = true → (plainToken c text).text ++ ['.'] ∈ qualifiers schema →
      rest.head? ≠ some '.')
    (h : Scans (qualifiers schema) (endsToken (plainToken c text).text) none rest out) :
    Scans (qualifiers schema) boundary none (c :: text) ((plainToken c text).text ++ out) := by
  generalize ht : plainToken c text = t at htext hharmless hplain h ⊢
  rw [plainToken] at ht
  split at ht
  · rename_i hstart
    subst ht
    rw [htext]
    exact scans_wordToken hname hliteral hident hstart (by simpa using htext) hharmless hplain h
  rename_i hstart
  -- no qualifier begins with what begins no word
  have htagStart : isTagStart c = false := by
    rw [isWordStart, Bool.or_eq_true, not_or] at hstart
    simpa using hstart.1
  have hquals : ∀ rest, ∀ q ∈ qualifiers schema, ¬ q <+: c :: rest :=
    fun rest ↦ not_prefix_of_head hname htagStart hident
  split at ht
  · rename_i hnumber
    subst ht
    obtain ⟨others, hothers, -⟩ := numberText_cons hnumber
    have hcopied := scans_quiet (by simp [hothers]) hharmless h
    rwa [← htext] at hcopied
  split at ht
  · subst ht
    rw [htext]
    exact scans_dots hname h
  split at ht
  · subst ht
    rw [htext]
    exact scans_quiet (by simp) hharmless h
  split at ht
  · subst ht
    rw [htext]
    exact scans_quiet (by simp) hharmless h
  split at ht
  · subst ht
    rw [htext]
    exact scans_quiet (by simp) hharmless h
  split at ht
  · rename_i delimiter hdelimiter
    subst ht
    obtain ⟨rfl, hmem, -, rfl, tail, htail⟩ := dollarDelimiter_eq_some hdelimiter
    rw [← htail, List.drop_left] at htext hharmless h ⊢
    exact scans_dollarToken (isTag_of_dollarQuote hharmless) (by simpa using htext) h
  · rename_i hnone
    subst ht
    obtain rfl : text = rest := by simpa using htext
    exact scans_symbol hliteral hident hnone (hquals _) h

/-- A token that does not mislead the scanner and is no qualifier is copied. -/
theorem scans_token (hname : IsName schema) {continued : Option Bool} {text : List Char}
    (htext : c :: text = (nextToken continued c text).text ++ rest)
    (hharmless : HarmlessToken (qualifiers schema) boundary (nextToken continued c text) rest)
    (hplain : boundary = true → (nextToken continued c text).text ++ ['.'] ∈ qualifiers schema →
      rest.head? ≠ some '.')
    (h : Scans (qualifiers schema) (endsToken (nextToken continued c text).text) none rest out) :
    Scans (qualifiers schema) boundary none (c :: text)
      ((nextToken continued c text).text ++ out) := by
  cases hquoted : quotedToken? continued c text with
  | some t =>
    rw [nextToken, hquoted, Option.getD_some] at htext hharmless hplain h ⊢
    exact scans_quotedToken hname hquoted htext hharmless hplain h
  | none =>
    have hquotes : c ≠ '\'' ∧ c ≠ '"' := by
      constructor
      · rintro rfl
        rw [quotedToken?, if_pos rfl] at hquoted
        split at hquoted <;> cases hquoted
      · rintro rfl
        cases hquoted
    rw [nextToken, hquoted, Option.getD_none] at htext hharmless hplain h ⊢
    exact scans_plainToken hname hquotes.1 hquotes.2 htext hharmless hplain h

/-! ## Scanning the tokens -/

/-- The scanner deletes the qualifiers among the tokens and copies the others. -/
theorem scans_tokens (hname : IsName schema) {continued : Option Bool} {text : List Char}
    {ts : List Token} (hlexes : Lexes continued text ts)
    (hharmless : Harmless (qualifiers schema) boundary ts) :
    Scans (qualifiers schema) boundary none text
      ((kept (qualifiers schema) ts).flatMap Token.text) := by
  fun_induction kept (qualifiers schema) ts generalizing continued text boundary with
  | case1 t dot ts hqualifier ih =>
    obtain ⟨hmem, hdot⟩ := hqualifier
    obtain ⟨-, hboundary, -, -, hharmless⟩ := hharmless
    cases hlexes with
    | @cons _ c rest tail _ htail hlexes =>
      have htext := hlexes.flatMap_text
      cases hlexes with
      | @cons _ d rest' tail' _ htail' hlexes' =>
        have hstarts : startsDot (nextToken ((nextToken continued c rest).continues continued)
            d rest' :: ts) = true := decide_eq_true hdot
        rw [hdot] at htail' hharmless
        have hhead : (nextToken continued c rest).text ++ ['.'] ∈ qualifiers schema := hmem
        rw [htext, htail', hstarts] at hboundary
        obtain rfl := hboundary hmem rfl
        rw [htail, htail', ← List.append_assoc]
        exact scans_placeholder (distinct_of_isName hname) hhead (ih hlexes' hharmless)
  | case2 t dot ts hnot ih =>
    obtain ⟨htoken, hboundary, hharmless⟩ := hharmless
    cases hlexes with
    | @cons _ c rest tail _ htail hlexes =>
      rw [hlexes.flatMap_text] at htoken hboundary
      rw [List.flatMap_cons]
      refine scans_token hname htail htoken ?_ (ih hlexes hharmless)
      rintro rfl hmem hdot
      exact hnot ⟨hmem, of_decide_eq_true (hboundary hmem hdot).symm⟩
  | case3 ts hshort =>
    cases hlexes with
    | nil => exact .done
    | @cons _ c rest tail ts' htail hlexes =>
      cases hlexes with
      | nil =>
        obtain ⟨htoken, -, -⟩ := hharmless
        rw [List.flatMap_cons]
        exact scans_token hname htail htoken (by simp) .done
      | cons htail' hlexes' => exact absurd rfl (hshort _ _ _)

/-- What is quoted and names no qualifier. -/
def IsOpaque (quals : List (List Char)) (t : Token) : Prop :=
  t.kind ∈ [.literal, .escapedLiteral, .unicodeLiteral, .dollarQuoted, .identifier,
      .unicodeIdentifier] ∧
    t.text ++ ['.'] ∉ quals

instance (t : Token) : Decidable (IsOpaque quals t) := inferInstanceAs (Decidable (_ ∧ _))

/-- Deleting qualifiers leaves everything quoted in its order. -/
theorem filter_kept {continued : Option Bool} {text : List Char} {ts : List Token}
    (h : Lexes continued text ts) :
    (kept quals ts).filter (IsOpaque quals) = ts.filter (IsOpaque quals) := by
  fun_induction kept quals ts generalizing continued text with
  | case1 t dot ts hqualifier ih =>
    cases h with
    | cons _ h =>
      cases h with
      | cons _ h =>
        have hkind := kind_of_text_dot hqualifier.2
        rw [ih h, List.filter_cons_of_neg, List.filter_cons_of_neg]
        · simp [IsOpaque, hkind]
        · rw [decide_eq_true_eq]
          exact fun hopaque ↦ hopaque.2 hqualifier.1
  | case2 t dot ts _ ih =>
    cases h with
    | cons _ h => rw [List.filter_cons, List.filter_cons, ih h]
  | case3 ts _ => rfl

/-! ## The fields of a row -/

/-- The text without its qualifiers. -/
def stripped (schema sql : String) : String :=
  String.ofList ((kept (qualifiers schema.toList) (tokens sql.toList)).flatMap Token.text)

/-- Nothing in the text misleads the scanner. -/
def HarmlessText (schema sql : String) : Prop :=
  Harmless (qualifiers schema.toList) true (tokens sql.toList)

instance (schema sql : String) : Decidable (HarmlessText schema sql) :=
  inferInstanceAs (Decidable (Harmless _ _ _))

def stripValue (schema : String) : Json → Json
  | .str sql => .str (stripped schema sql)
  | v => v

/-- The values with their qualifiers deleted in the fields, and as they are elsewhere. -/
def stripFields (schema : String) (fields : List ℕ) (values : List Json) : List Json :=
  values.mapIdx fun i v ↦ if i ∈ fields then stripValue schema v else v

def stripRow (schema : String) (fields : List ℕ) : Json → Json
  | .arr values => .arr (stripFields schema fields values)
  | v => v

theorem normalizeSqlQualifiers_of_harmless {schema sql : String} (hname : IsName schema.toList)
    (h : HarmlessText schema sql) :
    normalizeSqlQualifiers sql schema = some (stripped schema sql) := by
  have hresult := normalizeSqlQualifiers_of_scans (scans_tokens hname (lexes_tokens _) h)
  rwa [String.ofList_toList] at hresult

theorem getElem?_stripFields (schema : String) (fields : List ℕ) (values : List Json) (i : ℕ) :
    (stripFields schema fields values)[i]? =
      values[i]?.map fun v ↦ if i ∈ fields then stripValue schema v else v := by
  rw [stripFields, List.getElem?_mapIdx]

theorem normalizeField_of_harmless {schema : String} (hname : IsName schema.toList)
    {values : List Json} {field : ℕ}
    (h : ∀ sql, values[field]? = some (.str sql) → HarmlessText schema sql) :
    normalizeField schema values field = some (stripFields schema [field] values) := by
  rw [normalizeField]
  split
  · rename_i sql hsql
    rw [normalizeSqlQualifiers_of_harmless hname (h sql hsql), Option.map_some, Option.some_inj]
    refine List.ext_getElem? fun i ↦ ?_
    rw [getElem?_stripFields, List.getElem?_set]
    by_cases hi : field = i
    · subst hi
      obtain ⟨hlt, hget⟩ := List.getElem?_eq_some_iff.mp hsql
      simp [hlt, hget, stripValue]
    · simp [hi, Ne.symm hi]
  · rename_i hother
    rw [Option.some_inj]
    refine List.ext_getElem? fun i ↦ ?_
    rw [getElem?_stripFields]
    by_cases hi : i = field
    · subst hi
      cases hv : values[i]? with
      | none => rfl
      | some v =>
        cases v with
        | str sql => exact absurd hv (hother sql)
        | _ => simp [stripValue]
    · simp [hi]

theorem normalizeFields_of_harmless {schema : String} (hname : IsName schema.toList)
    {values : List Json} {fields : List ℕ} (hnodup : fields.Nodup)
    (h : ∀ i ∈ fields, ∀ sql, values[i]? = some (.str sql) → HarmlessText schema sql) :
    fields.foldlM (normalizeField schema) values = some (stripFields schema fields values) := by
  induction fields generalizing values with
  | nil =>
    refine congrArg some (List.ext_getElem? fun i ↦ ?_)
    rw [getElem?_stripFields]
    simp
  | cons field fields ih =>
    obtain ⟨hnotMem, hnodup⟩ := List.nodup_cons.mp hnodup
    have hfirst := normalizeField_of_harmless hname (h field List.mem_cons_self)
    have hothers : ∀ i ∈ fields, ∀ sql,
        (stripFields schema [field] values)[i]? = some (.str sql) → HarmlessText schema sql := by
      intro i hi sql hsql
      have hne : i ≠ field := fun heq ↦ hnotMem (heq ▸ hi)
      rw [getElem?_stripFields] at hsql
      exact h i (List.mem_cons_of_mem field hi) sql (by simpa [hne] using hsql)
    rw [List.foldlM_cons, hfirst, Option.bind_eq_bind, Option.bind_some, ih hnodup hothers,
      Option.some_inj]
    refine List.ext_getElem? fun i ↦ ?_
    simp only [getElem?_stripFields, Option.map_map]
    congr 1
    funext v
    by_cases hi : i = field
    · subst hi
      simp [hnotMem]
    · simp [hi]

/-- A row keeps every value that is not a text in one of the fields. -/
theorem normalizeRow_of_harmless {fromStr : String → Option Json} {toStr : Json → Option String}
    {schema row : String} (hname : IsName schema.toList) {fields : List ℕ} (hnodup : fields.Nodup)
    (h : ∀ values, fromStr row = some (.arr values) →
      (∀ i ∈ fields, ∀ sql, values[i]? = some (.str sql) → HarmlessText schema sql) ∧
      (toStr (.arr (stripFields schema fields values))).bind fromStr =
        some (.arr (stripFields schema fields values))) :
    ∃ row', normalizeRow fromStr toStr fields schema row = some row' ∧
      fromStr row' = (fromStr row).map (stripRow schema fields) := by
  rw [normalizeRow]
  split
  · rename_i values hrow
    obtain ⟨hharmless, hserde⟩ := h values hrow
    obtain ⟨text, htext, hread⟩ := Option.bind_eq_some_iff.mp hserde
    rw [normalizeFields_of_harmless hname hnodup hharmless, Option.map_some, htext]
    exact ⟨text, rfl, by rw [hread, hrow]; rfl⟩
  · rename_i hother
    refine ⟨row, rfl, ?_⟩
    cases hrow : fromStr row with
    | none => rfl
    | some v =>
      cases v with
      | arr values => exact absurd hrow (hother values)
      | _ => rfl

end Operator

open Operator

/-- **Normalization deletes the qualifiers and nothing else.** Where nothing in a text misleads the
scanner, the result is the text without the qualifiers among its tokens, and everything quoted is
kept in its order; a row of the catalog changes in no other value. -/
theorem normalizeSqlQualifiers_tokens {schema : String} (hname : IsName schema.toList) :
    (∀ sql, HarmlessText schema sql →
      normalizeSqlQualifiers sql schema = some (stripped schema sql) ∧
      (kept (qualifiers schema.toList) (tokens sql.toList)).filter
          (IsOpaque (qualifiers schema.toList)) =
        (tokens sql.toList).filter (IsOpaque (qualifiers schema.toList))) ∧
    ∀ (fromStr : String → Option Json) (toStr : Json → Option String) (rows : List String)
      (fields : List ℕ), fields.Nodup →
      (∀ row ∈ rows, ∀ values, fromStr row = some (.arr values) →
        (∀ i ∈ fields, ∀ sql, values[i]? = some (.str sql) → HarmlessText schema sql) ∧
        (toStr (.arr (stripFields schema fields values))).bind fromStr =
          some (.arr (stripFields schema fields values))) →
      ∃ rows', normalizeSqlFields fromStr toStr rows fields schema = some rows' ∧
        rows'.map fromStr = rows.map fun row ↦ (fromStr row).map (stripRow schema fields) := by
  refine ⟨?_, ?_⟩
  · intro sql h
    exact ⟨normalizeSqlQualifiers_of_harmless hname h, filter_kept (lexes_tokens sql.toList)⟩
  · intro fromStr toStr rows fields hnodup h
    induction rows with
    | nil => exact ⟨[], rfl, rfl⟩
    | cons row rows ih =>
      obtain ⟨row', hrow', hread⟩ :=
        normalizeRow_of_harmless hname hnodup (h row List.mem_cons_self)
      obtain ⟨rows', hrows', hreads⟩ := ih fun row hrow ↦ h row (List.mem_cons_of_mem _ hrow)
      rw [normalizeSqlFields] at hrows'
      refine ⟨row' :: rows', ?_, ?_⟩
      · rw [normalizeSqlFields, List.mapM_cons, hrow', hrows']
        rfl
      · rw [List.map_cons, List.map_cons, hread, hreads]

/-- The texts of a row of the catalog, before and after. -/
def conditionRow : String := "[\"CHECK (notification.a > 'notification.b')\",\"notification.\"]"

def strippedRow : String := "[\"CHECK (a > 'notification.b')\",\"notification.\"]"

def readRow (row : String) : Option Json :=
  if row = conditionRow then
    some (.arr [.str "CHECK (notification.a > 'notification.b')", .str "notification."])
  else if row = strippedRow then
    some (.arr [.str "CHECK (a > 'notification.b')", .str "notification."])
  else none

theorem normalizeSqlQualifiers_tokens_condition :
    normalizeSqlQualifiers "CHECK (notification.a > 'notification.b')" "notification" =
        some "CHECK (a > 'notification.b')" ∧
      ∃ rows, normalizeSqlFields readRow
          (fun v ↦ some (String.ofList (v.print fun _ ↦ []))) [conditionRow] [0] "notification" =
            some rows ∧
        rows.map readRow =
          [some (.arr [.str "CHECK (a > 'notification.b')", .str "notification."])] := by
  have hharmless : HarmlessText "notification" "CHECK (notification.a > 'notification.b')" := by
    decide +kernel
  have hstripped : stripped "notification" "CHECK (notification.a > 'notification.b')" =
      "CHECK (a > 'notification.b')" := by
    decide +kernel
  obtain ⟨htexts, hrows⟩ := @normalizeSqlQualifiers_tokens "notification" (by decide)
  have hread : readRow conditionRow =
      some (.arr [.str "CHECK (notification.a > 'notification.b')", .str "notification."]) := rfl
  have hprint : String.ofList (Json.print (fun _ ↦ [])
      (.arr [.str "CHECK (a > 'notification.b')", .str "notification."])) = strippedRow := by
    decide +kernel
  have hfields : stripFields "notification" [0]
      [.str "CHECK (notification.a > 'notification.b')", .str "notification."] =
        [.str "CHECK (a > 'notification.b')", .str "notification."] := by
    simp [stripFields, stripValue, hstripped]
  refine ⟨by rw [(htexts _ hharmless).1, hstripped], ?_⟩
  obtain ⟨rows, hnormalized, hreads⟩ := hrows readRow
    (fun v ↦ some (String.ofList (v.print fun _ ↦ []))) [conditionRow] [0] (by decide) (by
      intro row hrow values hvalues
      rw [List.mem_singleton.mp hrow, hread, Option.some_inj, Json.arr.injEq] at hvalues
      subst hvalues
      refine ⟨?_, ?_⟩
      · simpa using hharmless
      · rw [hfields, Option.bind_some, hprint]
        rfl)
  refine ⟨rows, hnormalized, ?_⟩
  rw [hreads, List.map_singleton, hread, Option.map_some, stripRow, hfields]

/-- A literal behind an `E` goes on with escapes in the next line, and nothing misleads the
scanner. -/
example : HarmlessText "notification" "E'a'\n'b\\'c' || notification.x" := by decide +kernel

/-- Nine other ways to mislead the scanner. -/
def misleading : List String := [
  "notification..x",
  "notification.5",
  "a$b$ + notification.c + d$b$",
  "$é$ notification.a $é$",
  "énotification.a",
  "\"a\"\"notification\".b",
  "a IN\"notification\".b",
  "U&\"notification\".b",
  "-- it's\nnotification.a"]

/-- The literal of a backslash is complete, and the qualifier behind it is kept. -/
theorem not_only_qualifiers :
    normalizeSqlQualifiers "note <> '\\' AND notification.revision > 0" "notification" ≠
        some (stripped "notification" "note <> '\\' AND notification.revision > 0") ∧
      (misleading.all fun sql ↦ decide (normalizeSqlQualifiers sql "notification" ≠
        some (stripped "notification" sql))) = true := by
  decide +kernel

end NotificationLedger

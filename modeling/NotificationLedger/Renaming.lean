import NotificationLedger.Scanning

/-!
# Normalizing under another schema name

The catalog of an installed schema is compared with one that was built in a temporary schema, and
only the qualifiers tell the two apart. A text with places for qualifiers in it is filled for either
schema; the two scans stop at different bytes and still write the same, since between two pieces
both stand at the same place of the text with the same quote open.

## Places

The pieces are what PostgreSQL's lexer would find: literals, identifiers, dollar quotes and single
characters. A place stands in front of a token (`Placeable`), and nothing outside of the places
reads as a qualifier (`Unqualified`). The two scans are then related piece by piece, with the same
quote open on both sides; at a place each of them skips the qualifier of its own schema.
-/

namespace NotificationLedger

namespace Operator

variable {quals : List (List Char)} {boundary : Bool} {c : Char}
  {rest tail out schema : List Char}

/-! ## Texts with places for qualifiers -/

/-- A character of a literal, with a quote doubled. -/
def doubled (c : Char) : List Char := if c = '\'' then ['\'', '\''] else [c]

/-- The tags PostgreSQL accepts: identifiers without a dollar sign, in which every character beyond
ASCII is a letter. -/
def isDollarTag : List Char → Bool
  | [] => true
  | c :: tag =>
    (isTagStart c || decide (128 ≤ c.toNat)) &&
      tag.all fun c ↦ isTagChar c || decide (128 ≤ c.toNat)

def delimiterOf (tag : List Char) : List Char := '$' :: tag ++ ['$']

/-- A piece of a text with places for qualifiers in it. -/
inductive Piece where
  /-- The literal of a string without backslash. -/
  | literal (value : List Char) (h : '\\' ∉ value)
  /-- A quoted identifier without a quote inside. -/
  | identifier (name : List Char) (h : '"' ∉ name)
  /-- A dollar quote, which ends where its delimiter first comes again. -/
  | dollarQuoted (tag body : List Char) (htag : isDollarTag tag)
      (hbody : ¬ delimiterOf tag <:+: body ++ (delimiterOf tag).dropLast)
  /-- Any other character. -/
  | ordinary (c : Char) (h : c ∉ ['\'', '"', '$'])
  /-- A place for a qualifier. -/
  | placeholder

/-- The text of a piece; a place has none of its own. -/
def Piece.text : Piece → List Char
  | .literal value _ => '\'' :: value.flatMap doubled ++ ['\'']
  | .identifier name _ => '"' :: name ++ ['"']
  | .dollarQuoted tag body _ _ => delimiterOf tag ++ body ++ delimiterOf tag
  | .ordinary c _ => [c]
  | .placeholder => []

/-- The tag of a dollar quote is one the scanner knows. -/
def Piece.HasAsciiTag : Piece → Prop
  | .dollarQuoted tag _ _ _ => isTag tag = true
  | _ => True

/-- The text with its places filled, from left to right. -/
def fill : (ℕ → List Char) → List Piece → List Char
  | _, [] => []
  | choice, .placeholder :: pieces => choice 0 ++ fill (fun i ↦ choice (i + 1)) pieces
  | choice, p :: pieces => p.text ++ fill choice pieces

/-- No place comes directly after an ASCII letter, a digit, an underscore or a dollar sign. -/
def Placeable : Bool → List Piece → Prop
  | _, [] => True
  | boundary, .placeholder :: pieces => boundary = true ∧ Placeable true pieces
  | _, p :: pieces => Placeable (endsToken p.text) pieces

/-- Nothing outside of the places reads as one of the qualifiers. -/
def Unqualified (quals : List (List Char)) : Bool → (ℕ → List Char) → List Piece → Prop
  | _, _, [] => True
  | _, choice, .placeholder :: pieces => Unqualified quals true (fun i ↦ choice (i + 1)) pieces
  | boundary, choice, p :: pieces =>
    (boundary = true → ∀ q ∈ quals, ¬ q <+: p.text ++ fill choice pieces) ∧
      Unqualified quals (endsToken p.text) choice pieces

/-! ## Scanning a piece -/

theorem Scans.of_reading {quote quote' : Option (List Char)} {taken : List Char} {copied : Bool}
    (h : reading quals boundary quote c rest = ⟨taken, copied, quote'⟩)
    (htail : c :: rest = taken ++ tail) (hscans : Scans quals (endsToken taken) quote' tail out) :
    Scans quals boundary quote (c :: rest) ((if copied then taken else []) ++ out) := by
  have hstep := @Scans.step quals boundary quote c rest tail out (by rw [h]; exact htail)
    (by rw [h]; exact hscans)
  rwa [h] at hstep

/-- One character is copied. -/
theorem Scans.copy {quote quote' : Option (List Char)}
    (h : reading quals boundary quote c rest = ⟨[c], true, quote'⟩)
    (hscans : Scans quals (endsToken [c]) quote' rest out) :
    Scans quals boundary quote (c :: rest) (c :: out) :=
  Scans.of_reading h rfl hscans

theorem endsToken_concat (text : List Char) (c : Char) :
    endsToken (text ++ [c]) = !isIdentifierChar c := by
  rw [endsToken, List.getLast?_concat]

theorem scans_double (h : Scans quals true (some ['\'']) rest out) :
    Scans quals boundary (some ['\'']) ('\'' :: '\'' :: rest) ('\'' :: '\'' :: out) := by
  have hread : reading quals boundary (some ['\'']) '\'' ('\'' :: rest) =
      ⟨['\'', '\''], true, some ['\'']⟩ := by
    simp [reading, readInside, readLiteral, List.isPrefixOf]
  exact Scans.of_reading hread rfl h

/-- A literal can be closed and opened again, or go on behind a doubled quote: it is the same. -/
theorem scans_close (h : Scans quals true none rest out) :
    Scans quals boundary (some ['\'']) ('\'' :: rest) ('\'' :: out) := by
  cases h with
  | done => exact .copy rfl .done
  | @step _ _ c rest tail out htail hscans =>
    by_cases hc : c = '\''
    · subst hc
      have hopen : reading quals true none '\'' rest = ⟨['\''], true, some ['\'']⟩ := rfl
      rw [hopen] at htail hscans ⊢
      obtain rfl : rest = tail := by simpa using htail
      exact scans_double hscans
    · have hclose : reading quals boundary (some ['\'']) '\'' (c :: rest) =
          ⟨['\''], true, none⟩ := by
        simp [reading, readInside, readLiteral, List.isPrefixOf, Ne.symm hc]
      exact .copy hclose (.step htail hscans)

theorem scans_literal {value : List Char} (hvalue : '\\' ∉ value)
    (h : Scans quals true none rest out) :
    Scans quals boundary none ('\'' :: value.flatMap doubled ++ ['\''] ++ rest)
      ('\'' :: value.flatMap doubled ++ ['\''] ++ out) := by
  have hinside : ∀ boundary, Scans quals boundary (some ['\''])
      (value.flatMap doubled ++ ['\''] ++ rest) (value.flatMap doubled ++ ['\''] ++ out) := by
    induction value with
    | nil => exact fun boundary ↦ scans_close h
    | cons c value ih =>
      intro boundary
      have ih := ih fun hmem ↦ hvalue (List.mem_cons_of_mem c hmem)
      have hslash : c ≠ '\\' := fun hc ↦ hvalue (hc ▸ List.mem_cons_self)
      rw [List.flatMap_cons, List.append_assoc, List.append_assoc, List.append_assoc,
        List.append_assoc]
      rw [List.append_assoc, List.append_assoc] at ih
      by_cases hc : c = '\''
      · rw [doubled, if_pos hc]
        exact scans_double (ih _)
      · rw [doubled, if_neg hc]
        refine .copy ?_ (ih _)
        simp [reading, readInside, readLiteral, hslash, hc]
  exact .copy rfl (hinside _)

theorem dollarQuote_of_ne (hc : c ≠ '$') (rest : List Char) : dollarQuote (c :: rest) = none := by
  rw [dollarQuote, if_neg fun h ↦ hc h.1]

theorem find?_eq_none (h : boundary = true → ∀ q ∈ quals, ¬ q <+: c :: rest) :
    (if boundary then quals.find? (·.isPrefixOf (c :: rest)) else none) = none := by
  cases boundary with
  | false => rfl
  | true =>
    rw [if_pos rfl, List.find?_eq_none]
    intro q hq hp
    exact h rfl q hq (List.isPrefixOf_iff_prefix.mp hp)

theorem reading_open (h : boundary = true → ∀ q ∈ quals, ¬ q <+: '"' :: rest) :
    reading quals boundary none '"' rest = ⟨['"'], true, some ['"']⟩ := by
  rw [reading, readOutside, if_neg (by decide), dollarQuote_of_ne (by decide), find?_eq_none h]
  rfl

/-- Text inside a quote of another kind is copied up to the delimiter. -/
theorem scans_inside {delimiter body : List Char} (hliteral : delimiter ≠ ['\''])
    (hne : delimiter ≠ []) (hbody : ¬ delimiter <:+: body ++ delimiter.dropLast)
    (h : Scans quals (endsToken delimiter) none rest out) :
    Scans quals boundary (some delimiter) (body ++ delimiter ++ rest)
      (body ++ delimiter ++ out) := by
  induction body generalizing boundary with
  | nil =>
    obtain ⟨c, others, rfl⟩ := List.exists_cons_of_ne_nil hne
    have hhead : (c :: others).isPrefixOf (c :: (others ++ rest)) = true :=
      List.isPrefixOf_iff_prefix.mpr (List.prefix_append (c :: others) rest)
    have hread : reading quals boundary (some (c :: others)) c (others ++ rest) =
        ⟨c :: others, true, none⟩ := by
      rw [reading, readInside, if_neg hliteral, if_pos hhead]
    exact Scans.of_reading hread rfl h
  | cons c body ih =>
    have hhead : ¬ delimiter.isPrefixOf (c :: (body ++ delimiter ++ rest)) = true := by
      rw [List.isPrefixOf_iff_prefix]
      intro hp
      -- a delimiter that starts in the body ends before the real one does
      have hlen : delimiter.length ≤ (c :: body ++ delimiter.dropLast).length := by
        rw [List.length_append, List.length_cons, List.length_dropLast]
        omega
      have hcut : c :: body ++ delimiter.dropLast <+: c :: (body ++ delimiter ++ rest) := by
        rw [List.append_assoc, ← List.cons_append, List.prefix_append_right_inj]
        exact (List.dropLast_prefix delimiter).trans (List.prefix_append _ _)
      exact hbody (List.prefix_of_prefix_length_le hp hcut hlen).isInfix
    have hread : reading quals boundary (some delimiter) c (body ++ delimiter ++ rest) =
        ⟨[c], true, some delimiter⟩ := by
      rw [reading, readInside, if_neg hliteral, if_neg hhead]
    refine .copy hread (ih fun hwithin ↦ hbody (hwithin.trans ?_))
    exact (List.suffix_cons c _).isInfix

theorem scans_identifier {name : List Char} (hname : '"' ∉ name)
    (hquals : boundary = true → ∀ q ∈ quals, ¬ q <+: '"' :: (name ++ ['"'] ++ rest))
    (h : Scans quals true none rest out) :
    Scans quals boundary none ('"' :: name ++ ['"'] ++ rest) ('"' :: name ++ ['"'] ++ out) := by
  refine .copy (reading_open hquals) (scans_inside (by decide) (by decide) ?_ h)
  intro hwithin
  refine hname ?_
  rw [List.dropLast_singleton, List.append_nil] at hwithin
  exact hwithin.subset List.mem_cons_self

theorem beforeDollar_append {tag : List Char} (h : '$' ∉ tag) (rest : List Char) :
    beforeDollar (tag ++ '$' :: rest) = tag := by
  rw [beforeDollar, List.takeWhile_append_of_pos]
  · simp
  · intro c hc
    simpa using fun heq : c = '$' ↦ h (heq ▸ hc)

theorem dollar_notMem_of_isTag {tag : List Char} (h : isTag tag = true) : '$' ∉ tag := by
  cases tag with
  | nil => simp
  | cons c tag =>
    rw [isTag, Bool.and_eq_true, List.all_eq_true] at h
    intro hmem
    rcases List.mem_cons.mp hmem with rfl | hmem
    · exact absurd h.1 (by decide)
    · exact absurd (h.2 '$' hmem) (by decide)

theorem reading_dollar {tag : List Char} (htag : isTag tag = true) (rest : List Char) :
    reading quals boundary none '$' (tag ++ '$' :: rest) =
      ⟨delimiterOf tag, true, some (delimiterOf tag)⟩ := by
  rw [reading, readOutside, if_neg (by decide), dollarQuote,
    beforeDollar_append (dollar_notMem_of_isTag htag), if_pos ⟨rfl, by simp, htag⟩]
  rfl

theorem scans_dollarQuoted {tag body : List Char} (htag : isTag tag = true)
    (hbody : ¬ delimiterOf tag <:+: body ++ (delimiterOf tag).dropLast)
    (h : Scans quals false none rest out) :
    Scans quals boundary none (delimiterOf tag ++ body ++ delimiterOf tag ++ rest)
      (delimiterOf tag ++ body ++ delimiterOf tag ++ out) := by
  have hends : endsToken (delimiterOf tag) = false := endsToken_concat ('$' :: tag) '$'
  have hread := @reading_dollar quals boundary tag htag (body ++ delimiterOf tag ++ rest)
  have hinside : Scans quals false (some (delimiterOf tag)) (body ++ delimiterOf tag ++ rest)
      (body ++ delimiterOf tag ++ out) :=
    scans_inside (by simp [delimiterOf]) (by simp [delimiterOf]) hbody (hends ▸ h)
  have hstep := Scans.of_reading hread (by simp [delimiterOf]) (hends ▸ hinside)
  simpa [delimiterOf] using hstep

/-- A character that opens nothing and begins no qualifier. -/
theorem reading_ordinary (hliteral : c ≠ '\'') (hident : c ≠ '"')
    (hdollar : dollarQuote (c :: rest) = none)
    (hquals : boundary = true → ∀ q ∈ quals, ¬ q <+: c :: rest) :
    reading quals boundary none c rest = ⟨[c], true, none⟩ := by
  rw [reading, readOutside, if_neg hliteral, hdollar, find?_eq_none hquals, if_neg hident]

theorem scans_ordinary (hc : c ∉ ['\'', '"', '$'])
    (hquals : boundary = true → ∀ q ∈ quals, ¬ q <+: c :: rest)
    (h : Scans quals (endsToken [c]) none rest out) :
    Scans quals boundary none (c :: rest) (c :: out) := by
  simp only [List.mem_cons, List.not_mem_nil, or_false, not_or] at hc
  obtain ⟨hliteral, hident, hdollar⟩ := hc
  exact .copy (reading_ordinary hliteral hident (dollarQuote_of_ne hdollar rest) hquals) h

/-! ## Scanning a text with places -/

/-- What the scans rest on: a qualifier opens no literal and no dollar quote, a token can start
behind it, and no other one stands where it does. -/
structure Distinct (quals : List (List Char)) : Prop where
  head : ∀ q ∈ quals, ∃ c q', q = c :: q' ∧ c ≠ '\'' ∧ c ≠ '$'
  endsToken : ∀ q ∈ quals, endsToken q = true
  unique : ∀ q ∈ quals, ∀ q' ∈ quals, ∀ rest, q' <+: q ++ rest → q' = q

theorem scans_placeholder (hdistinct : Distinct quals) {q : List Char} (hq : q ∈ quals)
    (h : Scans quals true none rest out) : Scans quals true none (q ++ rest) out := by
  obtain ⟨c, q', rfl, hliteral, hdollar⟩ := hdistinct.head q hq
  have hfind : quals.find? (·.isPrefixOf (c :: (q' ++ rest))) = some (c :: q') := by
    cases hfound : quals.find? (·.isPrefixOf (c :: (q' ++ rest))) with
    | none =>
      rw [List.find?_eq_none] at hfound
      exact absurd (List.isPrefixOf_iff_prefix.mpr (List.prefix_append (c :: q') rest))
        (hfound _ hq)
    | some found =>
      have hp := List.find?_some (p := fun q ↦ List.isPrefixOf q (c :: (q' ++ rest))) hfound
      rw [hdistinct.unique _ hq found (List.mem_of_find?_eq_some hfound) rest
        (List.isPrefixOf_iff_prefix.mp hp)]
  have hread : reading quals true none c (q' ++ rest) = ⟨c :: q', false, none⟩ := by
    rw [reading, readOutside, if_neg hliteral, dollarQuote_of_ne hdollar, if_pos rfl, hfind]
  exact Scans.of_reading hread rfl (hdistinct.endsToken _ hq ▸ h)

/-- Every piece is copied, and every filled place is deleted. -/
theorem scans_fill (hdistinct : Distinct quals) {choice : ℕ → List Char}
    (hchoice : ∀ i, choice i ∈ quals) {pieces : List Piece}
    (htags : ∀ p ∈ pieces, p.HasAsciiTag) (hplaces : Placeable boundary pieces)
    (hothers : Unqualified quals boundary choice pieces) :
    Scans quals boundary none (fill choice pieces) (pieces.flatMap Piece.text) := by
  induction pieces generalizing boundary choice with
  | nil => exact .done
  | cons p pieces ih =>
    have htags' := fun p hp ↦ htags p (List.mem_cons_of_mem _ hp)
    rw [List.flatMap_cons]
    cases p with
    | literal value h =>
      have hends : endsToken (Piece.literal value h).text = true := endsToken_concat _ _
      have hrest := ih hchoice htags' hplaces hothers.2
      rw [hends] at hrest
      exact scans_literal h hrest
    | identifier name h =>
      have hends : endsToken (Piece.identifier name h).text = true := endsToken_concat _ _
      have hrest := ih hchoice htags' hplaces hothers.2
      rw [hends] at hrest
      exact scans_identifier h hothers.1 hrest
    | dollarQuoted tag body htag hbody =>
      have hends : endsToken (Piece.dollarQuoted tag body htag hbody).text = false := by
        rw [Piece.text, delimiterOf, ← List.append_assoc]
        exact endsToken_concat _ _
      have hrest := ih hchoice htags' hplaces hothers.2
      rw [hends] at hrest
      exact scans_dollarQuoted (htags _ List.mem_cons_self) hbody hrest
    | ordinary c h =>
      exact scans_ordinary h hothers.1 (ih hchoice htags' hplaces hothers.2)
    | placeholder =>
      obtain ⟨rfl, hplaces⟩ := hplaces
      exact scans_placeholder hdistinct (hchoice 0)
        (ih (fun i ↦ hchoice (i + 1)) htags' hplaces hothers)

/-! ## Qualifiers made of names -/

/-- An identifier of ASCII letters, digits and underscores. -/
def IsName (name : List Char) : Prop := name ≠ [] ∧ isTag name = true

instance (name : List Char) : Decidable (IsName name) := inferInstanceAs (Decidable (_ ∧ _))

theorem isTagChar_of_isTagStart (h : isTagStart c = true) : isTagChar c = true := by
  rw [isTagStart, Bool.or_eq_true] at h
  rw [isTagChar, Char.isAlphanum, Bool.or_eq_true, Bool.or_eq_true]
  exact h.imp_left Or.inl

theorem IsName.all {name : List Char} (h : IsName name) : ∀ c ∈ name, isTagChar c = true := by
  obtain ⟨hne, htag⟩ := h
  obtain ⟨c, name, rfl⟩ := List.exists_cons_of_ne_nil hne
  rw [isTag, Bool.and_eq_true, List.all_eq_true] at htag
  intro d hd
  rcases List.mem_cons.mp hd with rfl | hd
  · exact isTagChar_of_isTagStart htag.1
  · exact htag.2 d hd

/-- The first character that is not of a name ends it. -/
theorem IsName.eq_of_append {name name' rest rest' : List Char} {d d' : Char} (h : IsName name)
    (h' : IsName name') (hd : isTagChar d = false) (hd' : isTagChar d' = false)
    (heq : name ++ d :: rest = name' ++ d' :: rest') : name = name' ∧ d :: rest = d' :: rest' := by
  have htake := congrArg (List.takeWhile isTagChar) heq
  rw [List.takeWhile_append_of_pos h.all, List.takeWhile_append_of_pos h'.all,
    List.takeWhile_cons_of_neg (by simp [hd]), List.takeWhile_cons_of_neg (by simp [hd']),
    List.append_nil, List.append_nil] at htake
  subst htake
  exact ⟨rfl, List.append_cancel_left heq⟩

theorem exists_name (h : IsName schema) {q : List Char} (hq : q ∈ qualifiers schema) :
    ∃ name, IsName name ∧ (q = name ++ ['.'] ∨ q = '"' :: name ++ ['"', '.']) := by
  rw [qualifiers, List.mem_append] at hq
  rcases hq with hq | hq
  · simp only [List.mem_cons, List.not_mem_nil, or_false] at hq
    exact ⟨schema, h, hq⟩
  · split at hq
    · simp only [List.mem_cons, List.not_mem_nil, or_false] at hq
      exact ⟨"pg_temp".toList, by decide, hq⟩
    · simp at hq

/-- A qualifier begins with a letter, an underscore or a quote. -/
theorem head_of_mem_qualifiers (h : IsName schema) {q : List Char} (hq : q ∈ qualifiers schema) :
    ∃ c q', q = c :: q' ∧ (isTagStart c = true ∨ c = '"') := by
  obtain ⟨name, ⟨hne, htag⟩, rfl | rfl⟩ := exists_name h hq
  · obtain ⟨c, name, rfl⟩ := List.exists_cons_of_ne_nil hne
    rw [isTag, Bool.and_eq_true] at htag
    exact ⟨c, name ++ ['.'], rfl, .inl htag.1⟩
  · exact ⟨'"', name ++ ['"', '.'], rfl, .inr rfl⟩

theorem not_prefix_of_head (h : IsName schema) (hstart : isTagStart c = false) (hident : c ≠ '"') :
    ∀ q ∈ qualifiers schema, ¬ q <+: c :: rest := by
  intro q hq hp
  obtain ⟨d, q', rfl, hd⟩ := head_of_mem_qualifiers h hq
  obtain ⟨rfl, -⟩ := List.cons_prefix_cons.mp hp
  rcases hd with hd | hd
  · simp [hd] at hstart
  · exact hident hd

theorem distinct_of_isName (h : IsName schema) : Distinct (qualifiers schema) where
  head q hq := by
    obtain ⟨c, q', rfl, hc⟩ := head_of_mem_qualifiers h hq
    refine ⟨c, q', rfl, ?_, ?_⟩ <;> rintro rfl <;> exact absurd hc (by decide)
  endsToken q hq := by
    obtain ⟨name, -, rfl | rfl⟩ := exists_name h hq
    · exact endsToken_concat name '.'
    · have hcut : '"' :: name ++ ['"', '.'] = ('"' :: name ++ ['"']) ++ ['.'] := by simp
      rw [hcut]
      exact endsToken_concat _ '.'
  unique q hq q' hq' rest hp := by
    obtain ⟨tail, htail⟩ := hp
    obtain ⟨name, hname, rfl | rfl⟩ := exists_name h hq <;>
      obtain ⟨name', hname', rfl | rfl⟩ := exists_name h hq'
    · rw [List.append_assoc, List.append_assoc] at htail
      rw [(hname'.eq_of_append hname (by decide) (by decide) htail).1]
    · obtain ⟨c, others, rfl⟩ := List.exists_cons_of_ne_nil hname.1
      obtain rfl : '"' = c := by simpa using (List.cons.inj htail).1
      exact absurd (hname.all '"' List.mem_cons_self) (by decide)
    · obtain ⟨c, others, rfl⟩ := List.exists_cons_of_ne_nil hname'.1
      obtain rfl : c = '"' := by simpa using (List.cons.inj htail).1
      exact absurd (hname'.all '"' List.mem_cons_self) (by decide)
    · rw [List.cons_append, List.cons_append, List.append_assoc, List.cons_append,
        List.cons_append, List.append_assoc] at htail
      rw [(hname'.eq_of_append hname (by decide) (by decide) (List.cons.inj htail).2).1]

/-! ## The two schemas -/

/-- The qualifiers of a temporary schema: its own, and those of the alias. -/
theorem mem_qualifiers_pgTemp {number q : List Char} :
    q ∈ qualifiers ("pg_temp_".toList ++ number) ↔
      q = "pg_temp_".toList ++ (number ++ ['.']) ∨
        q = '"' :: "pg_temp_".toList ++ (number ++ ['"', '.']) ∨
        q = "pg_temp.".toList ∨ q = "\"pg_temp\".".toList := by
  have hname : "pg_temp_".toList.isPrefixOf ("pg_temp_".toList ++ number) = true :=
    List.isPrefixOf_iff_prefix.mpr (List.prefix_append _ _)
  rw [qualifiers, if_pos hname]
  simp only [List.cons_append, List.nil_append, List.append_assoc, List.mem_cons,
    List.not_mem_nil, or_false]

theorem distinct_pgTemp (number : List Char) :
    Distinct (qualifiers ("pg_temp_".toList ++ number)) where
  head q hq := by
    rcases mem_qualifiers_pgTemp.mp hq with rfl | rfl | rfl | rfl
    all_goals exact ⟨_, _, rfl, by decide, by decide⟩
  endsToken q hq := by
    rcases mem_qualifiers_pgTemp.mp hq with rfl | rfl | rfl | rfl
    · rw [← List.append_assoc]
      exact endsToken_concat _ '.'
    · have hcut : '"' :: "pg_temp_".toList ++ (number ++ ['"', '.']) =
          ('"' :: "pg_temp_".toList ++ (number ++ ['"'])) ++ ['.'] := by simp
      rw [hcut]
      exact endsToken_concat _ '.'
    · rfl
    · rfl
  unique q hq q' hq' rest hp := by
    rcases mem_qualifiers_pgTemp.mp hq with rfl | rfl | rfl | rfl <;>
      rcases mem_qualifiers_pgTemp.mp hq' with rfl | rfl | rfl | rfl <;>
      simp at hp ⊢

end Operator

open Operator

/-- **Normalizing forgets the name of the schema.** However the places of a text are filled with
the qualifiers of the managed schema and with those of a temporary one, the two normalized texts
are the same. -/
theorem normalizeSqlQualifiers_renamed (N : String) {pieces : List Piece}
    {managed reference : ℕ → List Char}
    (hmanaged : ∀ i, managed i ∈ qualifiers "notification".toList)
    (hreference : ∀ i, reference i ∈ qualifiers ("pg_temp_" ++ N).toList)
    (htags : ∀ p ∈ pieces, p.HasAsciiTag) (hplaces : Placeable true pieces)
    (hothers : Unqualified (qualifiers "notification".toList) true managed pieces)
    (hothers' : Unqualified (qualifiers ("pg_temp_" ++ N).toList) true reference pieces) :
    normalizeSqlQualifiers (String.ofList (fill managed pieces)) "notification" =
      normalizeSqlQualifiers (String.ofList (fill reference pieces)) ("pg_temp_" ++ N) := by
  have hpgTemp := distinct_pgTemp N.toList
  rw [← String.toList_append] at hpgTemp
  rw [normalizeSqlQualifiers_of_scans
      (scans_fill (distinct_of_isName (by decide)) hmanaged htags hplaces hothers),
    normalizeSqlQualifiers_of_scans (scans_fill hpgTemp hreference htags hplaces hothers')]

/-- The text `n='it''s'_a _"b.c"=$$notification.$$`, with a place at each underscore. -/
def conditionPieces : List Piece :=
  [.ordinary 'n' (by decide), .ordinary '=' (by decide), .literal "it's".toList (by decide),
    .placeholder, .ordinary 'a' (by decide), .ordinary ' ' (by decide), .placeholder,
    .identifier "b.c".toList (by decide), .ordinary '=' (by decide),
    .dollarQuoted [] "notification.".toList (by decide) (by decide)]

/-- The alias for the first place, the name of the schema for the others. -/
theorem normalizeSqlQualifiers_renamed_condition :
    normalizeSqlQualifiers (String.ofList (fill (fun _ ↦ "notification.".toList) conditionPieces))
        "notification" =
      normalizeSqlQualifiers (String.ofList
        (fill (fun i ↦ if i = 0 then "\"pg_temp\".".toList else "pg_temp_3.".toList)
          conditionPieces)) ("pg_temp_" ++ "3") := by
  refine normalizeSqlQualifiers_renamed "3" (fun _ ↦ by decide) ?_ ?_ ?_ ?_ ?_
  · intro i
    split <;> decide
  · simp [conditionPieces, Piece.HasAsciiTag, isTag]
  · simp only [conditionPieces, Placeable]
    decide
  · simp only [conditionPieces, Unqualified]
    decide
  · simp only [conditionPieces, Unqualified]
    decide

/-- A dollar quote whose tag is a letter beyond ASCII, with a quote in its body. -/
def foreignTagPieces : List Piece :=
  [.dollarQuoted ['é'] ['\''] (by decide) (by decide), .ordinary ' ' (by decide), .placeholder,
    .ordinary 'x' (by decide)]

/-- The scanner does not know the tag, opens a literal at the quote in the body, and keeps the
qualifier behind it, whichever it is. -/
theorem not_renamed_foreignTag :
    Placeable true foreignTagPieces ∧
      Unqualified (qualifiers "notification".toList) true (fun _ ↦ "notification.".toList)
        foreignTagPieces ∧
      Unqualified (qualifiers ("pg_temp_" ++ "3").toList) true (fun _ ↦ "pg_temp_3.".toList)
        foreignTagPieces ∧
      normalizeSqlQualifiers
          (String.ofList (fill (fun _ ↦ "notification.".toList) foreignTagPieces)) "notification" ≠
        normalizeSqlQualifiers
          (String.ofList (fill (fun _ ↦ "pg_temp_3.".toList) foreignTagPieces))
          ("pg_temp_" ++ "3") := by
  refine ⟨?_, ?_, ?_, ?_⟩
  · simp only [foreignTagPieces, Placeable]
    decide
  · simp only [foreignTagPieces, Unqualified]
    decide
  · simp only [foreignTagPieces, Unqualified]
    decide
  · decide +kernel

end NotificationLedger

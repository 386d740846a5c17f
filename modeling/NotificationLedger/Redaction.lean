import NotificationLedger.Snapshot
import NotificationLedger.Foundation.Utf8
import Mathlib.Data.List.Infix

/-!
# What redaction leaves

The two patterns as languages, and what a replacement does to a text: no word of a pattern is left,
and none is put together from what is left. A text without such words is returned as it came.

## Languages

A pattern is a function from a text to what follows the match at its head. All that is used of it
is that it matches exactly where a word of its language stands, and that a match takes a character
at least (`Recognizes`); the patterns for links and for addresses are two instances. Links are
replaced first, and what is left of a text around a replacement is never completed to a word by it,
so that no word of either language remains.
-/

namespace NotificationLedger

namespace Snapshot

/-! ## Replacing the words of a language -/

/-- A word of the language stands somewhere in the text. -/
def Contains (language : List Char → Prop) (text : List Char) : Prop :=
  ∃ word, language word ∧ word <:+: text

/-- The pattern matches at the head of a text exactly when a word of the language stands there. -/
structure Recognizes (pattern : List Char → Option (List Char)) (language : List Char → Prop) :
    Prop where
  isSome_iff : ∀ text, (pattern text).isSome ↔ ∃ word, language word ∧ word <+: text
  shorter : ∀ text rest, pattern text = some rest → rest <:+ text ∧ rest.length < text.length

theorem Contains.mono {language : List Char → Prop} {text text' : List Char}
    (h : Contains language text) (hwithin : text <:+: text') : Contains language text' := by
  obtain ⟨word, hword, hin⟩ := h
  exact ⟨word, hword, hin.trans hwithin⟩

section Replacement

variable {pattern : List Char → Option (List Char)} {language other : List Char → Prop}
  {replacement text : List Char}

theorem Recognizes.contains_iff (h : Recognizes pattern language) :
    Contains language text ↔ ∃ rest, rest <:+ text ∧ (pattern rest).isSome := by
  constructor
  · rintro ⟨word, hword, hin⟩
    obtain ⟨rest, hstart, hsuffix⟩ := List.infix_iff_prefix_suffix.mp hin
    exact ⟨rest, hsuffix, (h.isSome_iff rest).mpr ⟨word, hword, hstart⟩⟩
  · rintro ⟨rest, hsuffix, hsome⟩
    obtain ⟨word, hword, hstart⟩ := (h.isSome_iff rest).mp hsome
    exact ⟨word, hword, List.infix_iff_prefix_suffix.mpr ⟨rest, hstart, hsuffix⟩⟩

theorem Recognizes.not_prefix (h : Recognizes pattern language) (hnone : pattern text = none)
    {word : List Char} (hword : language word) : ¬word <+: text := by
  intro hstart
  have hsome := (h.isSome_iff text).mpr ⟨word, hword, hstart⟩
  rw [hnone] at hsome
  cases hsome

/-- A text without matches is left alone. -/
theorem replaceAll_of_not_contains (h : Recognizes pattern language) (fuel : ℕ)
    (hfree : ¬Contains language text) : replaceAll pattern replacement fuel text = text := by
  rw [h.contains_iff] at hfree
  fun_induction replaceAll pattern replacement fuel text with
  | case1 | case2 => rfl
  | case3 fuel c text rest hmatch => exact absurd ⟨_, List.suffix_rfl, by simp [hmatch]⟩ hfree
  | case4 fuel c text hnone ih =>
    rw [ih fun ⟨rest, hsuffix, hsome⟩ ↦
      hfree ⟨rest, hsuffix.trans (List.suffix_cons c text), hsome⟩]

/-- Up to the first match the text stays as it is. -/
theorem replaceAll_cases (pattern : List Char → Option (List Char)) (replacement : List Char)
    (fuel : ℕ) (text : List Char) :
    replaceAll pattern replacement fuel text = text ∨
      ∃ before rest after, text = before ++ rest ∧ (pattern rest).isSome ∧
        replaceAll pattern replacement fuel text = before ++ replacement ++ after := by
  fun_induction replaceAll pattern replacement fuel text with
  | case1 | case2 => exact Or.inl rfl
  | case3 fuel c text rest hmatch =>
    exact Or.inr ⟨[], c :: text, _, rfl, by rw [hmatch]; rfl, rfl⟩
  | case4 fuel c text hnone ih =>
    rcases ih with hsame | ⟨before, rest, after, htext, hsome, heq⟩
    · exact Or.inl (by rw [hsame])
    · exact Or.inr ⟨c :: before, rest, after, by rw [htext]; rfl, hsome, by rw [heq]; rfl⟩

/-- **A replacement leaves no word behind**, when none starts inside the replacement text and one
that reaches a replacement from the left was there before. -/
theorem not_contains_replaceAll (h : Recognizes pattern language)
    (hnil : ¬other [])
    (hinside : ∀ part after word, part ≠ [] → part <:+ replacement → other word →
      ¬word <+: part ++ after)
    (hcarry : ∀ before rest after word, (pattern rest).isSome → other word →
      word <+: before ++ replacement ++ after → ∃ word', other word' ∧ word' <+: before ++ rest)
    (fuel : ℕ) (hfuel : text.length ≤ fuel)
    (hsource : ∀ rest, rest <:+ text → pattern rest = none →
      ∀ word, other word → ¬word <+: rest) :
    ¬Contains other (replaceAll pattern replacement fuel text) := by
  fun_induction replaceAll pattern replacement fuel text with
  | case1 text =>
    rintro ⟨word, hword, hin⟩
    rw [List.length_eq_zero_iff.mp (Nat.le_zero.mp hfuel), List.infix_nil] at hin
    exact hnil (hin ▸ hword)
  | case2 =>
    rintro ⟨word, hword, hin⟩
    rw [List.infix_nil] at hin
    exact hnil (hin ▸ hword)
  | case3 fuel c text rest hmatch ih =>
    obtain ⟨hsuffix, hlength⟩ := h.shorter _ _ hmatch
    simp only [List.length_cons] at hlength hfuel
    have hrest := ih (by omega) fun rest' hrest' ↦ hsource rest' (hrest'.trans hsuffix)
    rintro ⟨word, hword, hin⟩
    obtain ⟨tail, hstart, skipped, htail⟩ := List.infix_iff_prefix_suffix.mp hin
    -- the word starts inside the replacement, or after it
    rcases List.append_eq_append_iff.mp htail with ⟨part, hpart, rfl⟩ | ⟨later, -, hlater⟩
    · by_cases hempty : part = []
      · rw [hempty, List.nil_append] at hstart
        exact hrest ⟨word, hword, hstart.isInfix⟩
      · exact hinside part _ word hempty ⟨skipped, hpart.symm⟩ hword hstart
    · exact hrest ⟨word, hword,
        List.infix_iff_prefix_suffix.mpr ⟨tail, hstart, later, hlater.symm⟩⟩
  | case4 fuel c text hnone ih =>
    rintro ⟨word, hword, hin⟩
    obtain ⟨tail, hstart, htail⟩ := List.infix_iff_prefix_suffix.mp hin
    rcases List.suffix_cons_iff.mp htail with rfl | hlater
    · -- the word starts at an unmatched character, where the source text has none
      rcases replaceAll_cases pattern replacement fuel text
        with hsame | ⟨before, rest, after, htext, hsome, heq⟩
      · rw [hsame] at hstart
        exact hsource _ List.suffix_rfl hnone word hword hstart
      · rw [heq] at hstart
        obtain ⟨word', hword', hstart'⟩ :=
          hcarry (c :: before) rest after word hsome hword hstart
        rw [htext] at hsource hnone
        exact hsource _ List.suffix_rfl hnone word' hword' hstart'
    · exact ih (by simp only [List.length_cons] at hfuel; omega)
        (fun rest' hrest' ↦ hsource rest' (hrest'.trans (List.suffix_cons c text)))
        ⟨word, hword, List.infix_iff_prefix_suffix.mpr ⟨tail, hstart, hlater⟩⟩

end Replacement

/-! ## The two languages -/

/-- A word of `https?://\S+`. -/
def IsLink (word : List Char) : Prop :=
  ∃ scheme ∈ ["https://".toList, "http://".toList], ∃ tail ≠ [],
    (∀ c ∈ tail, isWhitespace c = false) ∧ word = scheme ++ tail

/-- A word of `[A-Za-z0-9._%+-]+@[A-Za-z0-9.-]+\.[A-Za-z]{2,}`. -/
def IsMailbox (word : List Char) : Prop :=
  ∃ name ≠ [], ∃ host ≠ [], ∃ top, 2 ≤ top.length ∧ (∀ c ∈ name, isLocalChar c = true) ∧
    (∀ c ∈ host, isDomainChar c = true) ∧ (∀ c ∈ top, Char.isAlpha c = true) ∧
    word = name ++ '@' :: host ++ '.' :: top

section Languages

variable {text : List Char}

/-- One character after the scheme is enough for a link. -/
theorem exists_link_iff :
    (∃ word, IsLink word ∧ word <+: text) ↔
      ∃ scheme ∈ ["https://".toList, "http://".toList], ∃ c rest, isWhitespace c = false ∧
        text = scheme ++ c :: rest := by
  constructor
  · rintro ⟨word, ⟨scheme, hscheme, tail, hne, htail, rfl⟩, rest, rfl⟩
    obtain ⟨c, tail, rfl⟩ := List.exists_cons_of_ne_nil hne
    exact ⟨scheme, hscheme, c, tail ++ rest, htail c List.mem_cons_self, by simp⟩
  · rintro ⟨scheme, hscheme, c, rest, hc, rfl⟩
    exact ⟨scheme ++ [c], ⟨scheme, hscheme, [c], List.cons_ne_nil _ _, by simpa using hc, rfl⟩,
      rest, by simp⟩

theorem exists_cons_of_scheme {scheme : List Char}
    (h : scheme ∈ ["https://".toList, "http://".toList]) : ∃ tail, scheme = 'h' :: tail := by
  simp only [List.mem_cons, List.not_mem_nil, or_false] at h
  rcases h with rfl | rfl <;> exact ⟨_, rfl⟩

/-- Two letters after the last dot are enough for an address. -/
theorem exists_mailbox_iff :
    (∃ word, IsMailbox word ∧ word <+: text) ↔
      ∃ name ≠ [], ∃ host ≠ [], ∃ a b rest, (∀ c ∈ name, isLocalChar c = true) ∧
        (∀ c ∈ host, isDomainChar c = true) ∧ Char.isAlpha a = true ∧ Char.isAlpha b = true ∧
        text = name ++ '@' :: (host ++ '.' :: a :: b :: rest) := by
  constructor
  · rintro ⟨word, ⟨name, hname, host, hhost, top, hlength, hlocal, hdomain, halpha, rfl⟩, rest,
      rfl⟩
    obtain ⟨a, b, top, rfl⟩ : ∃ a b rest, top = a :: b :: rest := by
      match top, hlength with
      | a :: b :: rest, _ => exact ⟨a, b, rest, rfl⟩
    exact ⟨name, hname, host, hhost, a, b, top ++ rest, hlocal, hdomain, halpha a (by simp),
      halpha b (by simp), by simp⟩
  · rintro ⟨name, hname, host, hhost, a, b, rest, hlocal, hdomain, ha, hb, rfl⟩
    exact ⟨name ++ '@' :: host ++ '.' :: [a, b], ⟨name, hname, host, hhost, [a, b], le_rfl, hlocal,
      hdomain, by simp [ha, hb], rfl⟩, rest, by simp⟩

/-- The rest of a link, when one character of it is there. -/
theorem takeWhile_ne_nil_iff {p : Char → Bool} :
    text.takeWhile p ≠ [] ↔ ∃ c rest, p c = true ∧ text = c :: rest := by
  cases text with
  | nil => simp
  | cons c rest =>
    by_cases hc : p c = true
    · simp [List.takeWhile_cons_of_pos hc, hc]
    · simp [List.takeWhile_cons_of_neg hc, hc]

theorem matchUrl_eq_some {rest : List Char} :
    matchUrl text = some rest ↔ ∃ scheme ∈ ["https://".toList, "http://".toList], ∃ body,
      text = scheme ++ body ∧ (body.takeWhile fun c ↦ !isWhitespace c) ≠ [] ∧
        rest = body.dropWhile fun c ↦ !isWhitespace c := by
  have hsecure : "https://".toList = ['h', 't', 't', 'p', 's', ':', '/', '/'] := by decide
  have hplain : "http://".toList = ['h', 't', 't', 'p', ':', '/', '/'] := by decide
  rw [matchUrl, Option.ite_none_left_eq_some, Option.some_inj]
  constructor
  · rintro ⟨hne, rfl⟩
    by_cases hs : "https://".toList.isPrefixOf text = true
    · obtain ⟨body, rfl⟩ := List.isPrefixOf_iff_prefix.mp hs
      rw [if_pos hs] at hne ⊢
      exact ⟨_, List.mem_cons_self, body, rfl, hne, rfl⟩
    rw [if_neg hs] at hne ⊢
    by_cases hp : "http://".toList.isPrefixOf text = true
    · obtain ⟨body, rfl⟩ := List.isPrefixOf_iff_prefix.mp hp
      rw [if_pos hp] at hne ⊢
      exact ⟨_, List.mem_cons_of_mem _ List.mem_cons_self, body, rfl, hne, rfl⟩
    · rw [if_neg hp] at hne
      exact absurd rfl hne
  · rintro ⟨scheme, hscheme, body, rfl, hne, rfl⟩
    simp only [List.mem_cons, List.not_mem_nil, or_false] at hscheme
    rcases hscheme with rfl | rfl
    · rw [if_pos (List.isPrefixOf_iff_prefix.mpr (List.prefix_append _ _)), hsecure]
      exact ⟨hne, rfl⟩
    · rw [if_neg (by rw [hsecure, hplain]; simp [List.isPrefixOf]),
        if_pos (List.isPrefixOf_iff_prefix.mpr (List.prefix_append _ _)), hplain]
      exact ⟨hne, rfl⟩

theorem recognizes_matchUrl : Recognizes matchUrl IsLink where
  isSome_iff text := by
    rw [exists_link_iff, Option.isSome_iff_exists]
    constructor
    · rintro ⟨rest, h⟩
      obtain ⟨scheme, hscheme, body, htext, hne, -⟩ := matchUrl_eq_some.mp h
      obtain ⟨c, tail, hc, rfl⟩ := takeWhile_ne_nil_iff.mp hne
      exact ⟨scheme, hscheme, c, tail, by simpa using hc, htext⟩
    · rintro ⟨scheme, hscheme, c, tail, hc, htext⟩
      exact ⟨_, matchUrl_eq_some.mpr ⟨scheme, hscheme, c :: tail, htext,
        takeWhile_ne_nil_iff.mpr ⟨c, tail, by simpa using hc, rfl⟩, rfl⟩⟩
  shorter text rest h := by
    obtain ⟨scheme, hscheme, body, rfl, -, rfl⟩ := matchUrl_eq_some.mp h
    have hlong : ∀ scheme ∈ ["https://".toList, "http://".toList], 0 < scheme.length := by decide
    have hrest := List.dropWhile_suffix (l := body) fun c ↦ !isWhitespace c
    refine ⟨hrest.trans (List.suffix_append _ _), ?_⟩
    have hpos := hlong scheme hscheme
    have hle := hrest.length_le
    rw [List.length_append]
    omega

theorem matchDomain_eq_some_suffix {rest : List Char} (h : matchDomain text = some rest) :
    rest <:+ text := by
  obtain ⟨k, -, hk⟩ := List.exists_of_findSome?_eq_some h
  obtain ⟨letters, -, rfl⟩ := Option.map_eq_some_iff.mp hk
  exact List.drop_suffix _ _

theorem isDomainChar_of_isAlpha {c : Char} (h : c.isAlpha = true) : isDomainChar c = true := by
  simp [isDomainChar, Char.isAlphanum, h]

theorem two_le_takeWhile_iff {p : Char → Bool} :
    2 ≤ (text.takeWhile p).length ↔
      ∃ a b rest, p a = true ∧ p b = true ∧ text = a :: b :: rest := by
  match text with
  | [] => simp
  | [a] => by_cases ha : p a = true <;> simp [ha]
  | a :: b :: rest =>
    by_cases ha : p a = true
    · by_cases hb : p b = true <;> simp [ha, hb]
    · simp [ha]

theorem isSome_topLevelAt {domain : List Char} {k : ℕ} :
    (topLevelAt domain k).isSome ↔ ∃ host ≠ [], ∃ a b rest, host.length = k ∧
      Char.isAlpha a = true ∧ Char.isAlpha b = true ∧
      domain = host ++ '.' :: a :: b :: rest := by
  rw [topLevelAt]
  constructor
  · intro h
    split at h
    case isFalse => cases h
    case isTrue hk =>
      obtain ⟨hpos, hdot, htwo⟩ := hk
      obtain ⟨hlt, hget⟩ := List.getElem?_eq_some_iff.mp hdot
      obtain ⟨a, b, rest, ha, hb, hrest⟩ := two_le_takeWhile_iff.mp htwo
      have hlength : (domain.take k).length = k := List.length_take_of_le hlt.le
      refine ⟨domain.take k, List.length_pos_iff.mp (by rwa [hlength]), a, b, rest, hlength, ha, hb,
        ?_⟩
      rw [← hrest, ← hget, List.getElem_cons_drop, List.take_append_drop]
  · rintro ⟨host, hhost, a, b, rest, rfl, ha, hb, rfl⟩
    have hdrop : (host ++ '.' :: a :: b :: rest).drop (host.length + 1) = a :: b :: rest := by
      rw [← List.drop_drop, List.drop_left]
      rfl
    rw [if_pos ⟨List.length_pos_iff.mpr hhost, by simp,
      two_le_takeWhile_iff.mpr ⟨a, b, rest, ha, hb, hdrop⟩⟩]
    rfl

theorem isSome_matchDomain :
    (matchDomain text).isSome ↔ ∃ host ≠ [], ∃ a b rest, (∀ c ∈ host, isDomainChar c = true) ∧
      Char.isAlpha a = true ∧ Char.isAlpha b = true ∧ text = host ++ '.' :: a :: b :: rest := by
  simp only [matchDomain, List.findSome?_isSome_iff, Option.isSome_map, isSome_topLevelAt]
  constructor
  · rintro ⟨k, -, host, hhost, a, b, rest, -, ha, hb, hdomain⟩
    have hall : ∀ c ∈ host, isDomainChar c = true := by
      intro c hc
      have hmem : c ∈ text.takeWhile isDomainChar := by
        rw [hdomain]
        exact List.mem_append_left _ hc
      exact List.all_eq_true.mp List.all_takeWhile c hmem
    refine ⟨host, hhost, a, b, rest ++ text.dropWhile isDomainChar, hall, ha, hb, ?_⟩
    conv_lhs => rw [← List.takeWhile_append_dropWhile (p := isDomainChar) (l := text), hdomain]
    simp
  · rintro ⟨host, hhost, a, b, rest, hall, ha, hb, rfl⟩
    have hword : ∀ c ∈ host ++ ['.', a, b], isDomainChar c = true := by
      intro c hc
      rcases List.mem_append.mp hc with hc | hc
      · exact hall c hc
      · simp only [List.mem_cons, List.not_mem_nil, or_false] at hc
        rcases hc with rfl | rfl | rfl
        · decide
        · exact isDomainChar_of_isAlpha ha
        · exact isDomainChar_of_isAlpha hb
    have hdomain : (host ++ '.' :: a :: b :: rest).takeWhile isDomainChar =
        host ++ '.' :: a :: b :: rest.takeWhile isDomainChar := by
      have hsplit : host ++ '.' :: a :: b :: rest = host ++ ['.', a, b] ++ rest := by simp
      rw [hsplit, List.takeWhile_append_of_pos hword]
      simp
    refine ⟨host.length, ?_, host, hhost, a, b, _, rfl, ha, hb, hdomain⟩
    rw [hdomain]
    simp

theorem matchEmail_eq_some {rest : List Char} :
    matchEmail text = some rest ↔ ∃ name ≠ [], ∃ domain, (∀ c ∈ name, isLocalChar c = true) ∧
      text = name ++ '@' :: domain ∧ matchDomain domain = some rest := by
  have hat : isLocalChar '@' = false := by decide
  rw [matchEmail, Option.ite_none_left_eq_some]
  constructor
  · rintro ⟨hne, h⟩
    split at h
    case h_2 => cases h
    case h_1 domain hdomain =>
      refine ⟨_, hne, domain, List.all_eq_true.mp List.all_takeWhile, ?_, h⟩
      rw [← hdomain, List.takeWhile_append_dropWhile]
  · rintro ⟨name, hname, domain, hall, rfl, h⟩
    rw [List.takeWhile_append_of_pos hall, List.dropWhile_append_of_pos hall]
    simp [hat, hname, h]

theorem recognizes_matchEmail : Recognizes matchEmail IsMailbox where
  isSome_iff text := by
    rw [exists_mailbox_iff, Option.isSome_iff_exists]
    constructor
    · rintro ⟨rest, h⟩
      obtain ⟨name, hname, domain, hlocal, rfl, hdomain⟩ := matchEmail_eq_some.mp h
      obtain ⟨host, hhost, a, b, tail, hall, ha, hb, rfl⟩ :=
        isSome_matchDomain.mp (Option.isSome_of_eq_some hdomain)
      exact ⟨name, hname, host, hhost, a, b, tail, hlocal, hall, ha, hb, rfl⟩
    · rintro ⟨name, hname, host, hhost, a, b, tail, hlocal, hall, ha, hb, rfl⟩
      obtain ⟨rest, hrest⟩ := Option.isSome_iff_exists.mp
        (isSome_matchDomain.mpr ⟨host, hhost, a, b, tail, hall, ha, hb, rfl⟩)
      exact ⟨rest, matchEmail_eq_some.mpr ⟨name, hname, _, hlocal, rfl, hrest⟩⟩
  shorter text rest h := by
    obtain ⟨name, hname, domain, -, rfl, hdomain⟩ := matchEmail_eq_some.mp h
    have hrest := matchDomain_eq_some_suffix hdomain
    have hle := hrest.length_le
    refine ⟨(hrest.trans (List.suffix_cons _ _)).trans (List.suffix_append _ _), ?_⟩
    rw [List.length_append, List.length_cons]
    omega

end Languages

/-! ## The replacement texts -/

/-- A text in brackets that neither starts a link nor holds an `@`. -/
structure Bracketed (replacement : List Char) : Prop where
  shape : ∃ inner, replacement = '[' :: inner ++ [']']
  noLink : 'h' ∉ replacement
  noAt : '@' ∉ replacement

theorem bracketed_link : Bracketed "[link redacted]".toList :=
  ⟨⟨"link redacted".toList, by decide⟩, by decide, by decide⟩

theorem bracketed_recipient : Bracketed "[recipient redacted]".toList :=
  ⟨⟨"recipient redacted".toList, by decide⟩, by decide, by decide⟩

/-- What is read before a character it does not hold lies before it. -/
theorem exists_eq_append_of_not_mem {read tail before after : List Char} {c : Char}
    (h : read ++ tail = before ++ c :: after) (hc : c ∉ read) : ∃ rest, before = read ++ rest := by
  rcases List.append_eq_append_iff.mp h with ⟨rest, hbefore, -⟩ | ⟨rest, hread, hrest⟩
  · exact ⟨rest, hbefore⟩
  · cases rest with
    | nil => exact ⟨[], by rw [hread, List.append_nil, List.append_nil]⟩
    | cons d rest =>
      rw [List.cons_append, List.cons.injEq] at hrest
      rw [hread, hrest.1] at hc
      exact absurd (List.mem_append_right _ List.mem_cons_self) hc

section Bracketed

variable {replacement before rest after word : List Char}

/-- A link that reaches a replacement was one before, when what was replaced starts with no
space. -/
theorem Bracketed.link_carry (h : Bracketed replacement)
    (hrest : ∃ c tail, isWhitespace c = false ∧ rest = c :: tail) (hword : IsLink word)
    (hstart : word <+: before ++ replacement ++ after) :
    ∃ word', IsLink word' ∧ word' <+: before ++ rest := by
  obtain ⟨inner, rfl⟩ := h.shape
  obtain ⟨x, t, hx, rfl⟩ := hrest
  obtain ⟨scheme, hscheme, c, tail, hc, heq⟩ := exists_link_iff.mp ⟨word, hword, hstart⟩
  have hbracket : ∀ scheme ∈ ["https://".toList, "http://".toList], '[' ∉ scheme := by decide
  rw [List.append_assoc, List.cons_append, List.cons_append] at heq
  obtain ⟨more, rfl⟩ := exists_eq_append_of_not_mem heq.symm (hbracket scheme hscheme)
  -- only the character after the scheme can be the bracket
  refine exists_link_iff.mpr ⟨scheme, hscheme, ?_⟩
  cases more with
  | nil => exact ⟨x, t, hx, by rw [List.append_nil]⟩
  | cons d more =>
    rw [List.append_assoc, List.append_cancel_left_eq, List.cons_append, List.cons.injEq] at heq
    exact ⟨d, more ++ x :: t, heq.1 ▸ hc, by simp⟩

/-- No link starts inside a replacement. -/
theorem Bracketed.link_inside (h : Bracketed replacement) {part : List Char} (hne : part ≠ [])
    (hpart : part <:+ replacement) (hword : IsLink word) : ¬word <+: part ++ after := by
  intro hstart
  obtain ⟨scheme, hscheme, c, tail, -, heq⟩ := exists_link_iff.mp ⟨word, hword, hstart⟩
  obtain ⟨rest, rfl⟩ := exists_cons_of_scheme hscheme
  obtain ⟨d, part, rfl⟩ := List.exists_cons_of_ne_nil hne
  rw [List.cons_append, List.cons_append, List.cons.injEq] at heq
  exact h.noLink (hpart.subset (heq.1 ▸ List.mem_cons_self))

/-- No bracket stands in the part of an address that decides. -/
theorem not_mem_mailbox {name host : List Char} {a b c : Char}
    (hname : ∀ c ∈ name, isLocalChar c = true) (hhost : ∀ c ∈ host, isDomainChar c = true)
    (ha : Char.isAlpha a = true) (hb : Char.isAlpha b = true) (hc : c = '[' ∨ c = ']') :
    c ∉ name ++ '@' :: (host ++ ['.', a, b]) := by
  have hno : isLocalChar c = false ∧ isDomainChar c = false ∧ Char.isAlpha c = false ∧ c ≠ '@' ∧
      c ≠ '.' := by
    rcases hc with rfl | rfl <;> decide
  obtain ⟨hlocal, hdomain, halpha, hat, hdot⟩ := hno
  intro hmem
  simp only [List.mem_append, List.mem_cons, List.not_mem_nil, or_false] at hmem
  rcases hmem with h | h | h | h | rfl | rfl
  · exact absurd (hname c h) (by simp [hlocal])
  · exact hat h
  · exact absurd (hhost c h) (by simp [hdomain])
  · exact hdot h
  · exact absurd ha (by simp [halpha])
  · exact absurd hb (by simp [halpha])

/-- An address that reaches a replacement ends before it. -/
theorem Bracketed.mailbox_carry (h : Bracketed replacement) (hword : IsMailbox word)
    (hstart : word <+: before ++ replacement ++ after) :
    ∃ word', IsMailbox word' ∧ word' <+: before ++ rest := by
  obtain ⟨inner, rfl⟩ := h.shape
  obtain ⟨name, hname, host, hhost, a, b, tail, hlocal, hdomain, ha, hb, heq⟩ :=
    exists_mailbox_iff.mp ⟨word, hword, hstart⟩
  have hread : name ++ '@' :: (host ++ ['.', a, b]) ++ tail =
      before ++ '[' :: (inner ++ [']'] ++ after) := by
    simpa using heq.symm
  obtain ⟨more, rfl⟩ := exists_eq_append_of_not_mem hread
    (not_mem_mailbox hlocal hdomain ha hb (Or.inl rfl))
  exact exists_mailbox_iff.mpr
    ⟨name, hname, host, hhost, a, b, more ++ rest, hlocal, hdomain, ha, hb, by simp⟩

/-- No address starts inside a replacement. -/
theorem Bracketed.mailbox_inside (h : Bracketed replacement) {part : List Char} (hne : part ≠ [])
    (hpart : part <:+ replacement) (hword : IsMailbox word) : ¬word <+: part ++ after := by
  intro hstart
  obtain ⟨name, hname, host, hhost, a, b, tail, hlocal, hdomain, ha, hb, heq⟩ :=
    exists_mailbox_iff.mp ⟨word, hword, hstart⟩
  obtain ⟨before, hbefore⟩ : ∃ before, part = before ++ [']'] := by
    obtain ⟨inner, rfl⟩ := h.shape
    rcases List.suffix_concat_iff.mp hpart with hnil | ⟨before, heq, -⟩
    · exact absurd hnil hne
    · exact ⟨before, heq⟩
  have hread : name ++ '@' :: (host ++ ['.', a, b]) ++ tail = before ++ ']' :: after := by
    simpa [hbefore] using heq.symm
  obtain ⟨more, rfl⟩ := exists_eq_append_of_not_mem hread
    (not_mem_mailbox hlocal hdomain ha hb (Or.inr rfl))
  exact h.noAt (hpart.subset (by simp [hbefore]))

end Bracketed

/-! ## The preview -/

theorem isWhitespace_of_isLocalChar {c : Char} (h : isLocalChar c = true) :
    isWhitespace c = false := by
  simp only [isLocalChar, Bool.or_eq_true, Utf8.isAlphanum_iff, decide_eq_true_eq, List.mem_cons,
    List.not_mem_nil, or_false] at h
  rcases h with hrange | hrange
  · rw [Bool.eq_false_iff]
    intro hspace
    simp only [isWhitespace, Bool.or_eq_true, decide_eq_true_eq, beq_iff_eq] at hspace
    omega
  · rcases hrange with rfl | rfl | rfl | rfl | rfl <;> decide

theorem not_isLink_nil : ¬IsLink [] := by
  rintro ⟨scheme, hscheme, tail, hne, -, heq⟩
  exact hne (List.append_eq_nil_iff.mp heq.symm).2

theorem not_isMailbox_nil : ¬IsMailbox [] := by
  rintro ⟨name, hname, host, -, top, -, -, -, -, heq⟩
  simp at heq

/-- A match starts with a character that is no space. -/
theorem exists_cons_of_matchUrl {text : List Char} (h : (matchUrl text).isSome) :
    ∃ c tail, isWhitespace c = false ∧ text = c :: tail := by
  obtain ⟨scheme, hscheme, c, rest, -, rfl⟩ :=
    exists_link_iff.mp ((recognizes_matchUrl.isSome_iff text).mp h)
  obtain ⟨tail, rfl⟩ := exists_cons_of_scheme hscheme
  exact ⟨'h', _, by decide, rfl⟩

theorem exists_cons_of_matchEmail {text : List Char} (h : (matchEmail text).isSome) :
    ∃ c tail, isWhitespace c = false ∧ text = c :: tail := by
  obtain ⟨rest, hrest⟩ := Option.isSome_iff_exists.mp h
  obtain ⟨name, hname, domain, hlocal, rfl, -⟩ := matchEmail_eq_some.mp hrest
  obtain ⟨c, name, rfl⟩ := List.exists_cons_of_ne_nil hname
  exact ⟨c, _, isWhitespace_of_isLocalChar (hlocal c List.mem_cons_self), rfl⟩

/-- **No link and no address is left in a preview.** -/
theorem not_contains_redactPreview (text : String) :
    ¬Contains IsLink (redactPreview text).toList ∧
      ¬Contains IsMailbox (redactPreview text).toList := by
  let urls := replaceAll matchUrl "[link redacted]".toList text.toList.length text.toList
  have hcut : (redactPreview text).toList <:+:
      replaceAll matchEmail "[recipient redacted]".toList urls.length urls := by
    rw [redactPreview, String.toList_ofList]
    exact (List.take_prefix _ _).isInfix
  have hlinks : ¬Contains IsLink urls :=
    not_contains_replaceAll recognizes_matchUrl not_isLink_nil
      (fun _ _ _ hne hpart ↦ bracketed_link.link_inside hne hpart)
      (fun _ _ _ _ hsome ↦ bracketed_link.link_carry (exists_cons_of_matchUrl hsome)) _ le_rfl
      fun _ _ hnone _ hword ↦ recognizes_matchUrl.not_prefix hnone hword
  -- the second replacement puts no link together, and leaves no address
  constructor
  · refine fun hleft ↦ not_contains_replaceAll recognizes_matchEmail not_isLink_nil
      (fun _ _ _ hne hpart ↦ bracketed_recipient.link_inside hne hpart)
      (fun _ _ _ _ hsome ↦ bracketed_recipient.link_carry (exists_cons_of_matchEmail hsome)) _
      le_rfl ?_ (hleft.mono hcut)
    exact fun rest hrest _ word hword hstart ↦
      hlinks ⟨word, hword, List.infix_iff_prefix_suffix.mpr ⟨rest, hstart, hrest⟩⟩
  · refine fun hleft ↦ not_contains_replaceAll recognizes_matchEmail not_isMailbox_nil
      (fun _ _ _ hne hpart ↦ bracketed_recipient.mailbox_inside hne hpart)
      (fun _ _ _ _ _ ↦ bracketed_recipient.mailbox_carry) _ le_rfl ?_ (hleft.mono hcut)
    exact fun _ _ hnone _ hword ↦ recognizes_matchEmail.not_prefix hnone hword

/-- A text with neither comes out cut, and otherwise as it is. -/
theorem redactPreview_of_not_contains {text : String} (hlink : ¬Contains IsLink text.toList)
    (hmailbox : ¬Contains IsMailbox text.toList) :
    redactPreview text = String.ofList (text.toList.take 160) := by
  rw [redactPreview, replaceAll_of_not_contains recognizes_matchUrl _ hlink,
    replaceAll_of_not_contains recognizes_matchEmail _ hmailbox]

theorem length_redactPreview_le (text : String) : (redactPreview text).length ≤ 160 := by
  rw [redactPreview, String.length_ofList, List.length_take]
  exact Nat.min_le_left _ _

/-- **A preview is short, clean and final**: neither pattern matches in it any more, and redacting
it again changes nothing. -/
theorem redactPreview_clean (text : String) :
    (redactPreview text).length ≤ 160 ∧ ¬Contains IsLink (redactPreview text).toList ∧
      ¬Contains IsMailbox (redactPreview text).toList ∧
      redactPreview (redactPreview text) = redactPreview text := by
  obtain ⟨hlink, hmailbox⟩ := not_contains_redactPreview text
  have hlength := length_redactPreview_le text
  refine ⟨hlength, hlink, hmailbox, ?_⟩
  rw [redactPreview_of_not_contains hlink hmailbox,
    List.take_of_length_le (by rwa [String.length_toList]), String.ofList_toList]

/-! ## What no preview shows -/

/-- The value is too long for a preview, or no column can hold it, or one of the patterns matches
in it. -/
def Covered (value : String) : Prop :=
  160 < value.length ∨ storable value = false ∨ Contains IsLink value.toList ∨
    Contains IsMailbox value.toList

instance (value : String) : Decidable (Covered value) :=
  decidable_of_iff (160 < value.length ∨ storable value = false ∨
      (∃ rest ∈ value.toList.tails, (matchUrl rest).isSome) ∨
      ∃ rest ∈ value.toList.tails, (matchEmail rest).isSome) <| by
    simp only [Covered, recognizes_matchUrl.contains_iff, recognizes_matchEmail.contains_iff,
      List.mem_tails]

/-- A covered value is in no stored preview, whatever the text. -/
theorem not_infix_of_covered {value text : String} (h : Covered value)
    (hstorable : storable (redactPreview text) = true) :
    ¬value.toList <:+: (redactPreview text).toList := by
  intro hin
  obtain ⟨hlinks, hmailboxes⟩ := not_contains_redactPreview text
  rcases h with hlong | hnul | hlink | hmailbox
  · have hle := hin.length_le
    have hcut := length_redactPreview_le text
    rw [String.length_toList, String.length_toList] at hle
    omega
  · rw [storable, List.all_eq_true] at hstorable
    have hvalue : storable value = true :=
      List.all_eq_true.mpr fun c hc ↦ hstorable c (hin.subset hc)
    rw [hnul] at hvalue
    cases hvalue
  · exact hlinks (hlink.mono hin)
  · exact hmailboxes (hmailbox.mono hin)

/-- Any other value is its own preview. -/
theorem redactPreview_of_not_covered {value : String} (h : ¬Covered value) :
    redactPreview value = value ∧ storable value = true := by
  rw [Covered, not_or, not_or, not_or, not_lt, Bool.not_eq_false] at h
  obtain ⟨hlength, hstorable, hlink, hmailbox⟩ := h
  refine ⟨?_, hstorable⟩
  rw [redactPreview_of_not_contains hlink hmailbox, List.take_of_length_le, String.ofList_toList]
  rwa [String.length_toList]

end Snapshot

end NotificationLedger

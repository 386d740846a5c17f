import Mathlib.Data.Finset.Card
import Mathlib.Data.List.Nodup
import Mathlib.Order.Lattice

/-!
# Walking through pages

A page of a keyed collection holds its greatest keys below a cursor, in descending order, and names
its least key as the next cursor when there are more. A walk asks for one page after the other; the
collection may be another one each time. Nothing is assumed of how it changes: the keys come in
strictly descending order whatever happens, and a key that is there at every page is not skipped.
-/

universe u

namespace Paging

variable {κ : Type u}

/-- The keys of all pages, in order. -/
def keysOf (ps : List (Set κ × List κ)) : List κ := ps.flatMap Prod.snd

theorem keysOf_snoc {ps : List (Set κ × List κ)} {p : Set κ × List κ} :
    keysOf (ps ++ [p]) = keysOf ps ++ p.2 := by
  simp [keysOf]

variable [LinearOrder κ]

/-- The key comes after the cursor, if there is one. -/
def Below (cursor : Option κ) (k : κ) : Prop := ∀ c ∈ cursor, k < c

/-- The page of `keys` behind the cursor, and the cursor it names. -/
structure IsPage (keys : Set κ) (cursor : Option κ) (page : List κ) (next : Option κ) : Prop where
  sorted : page.Pairwise (· > ·)
  stored : ∀ k ∈ page, k ∈ keys ∧ Below cursor k
  last : ∀ c ∈ next, page.getLast? = some c
  covers : ∀ k ∈ keys, Below cursor k → k ∈ page ∨ ∃ c ∈ next, k < c
  more : next.isSome → ∃ k ∈ keys, Below cursor k ∧ ∀ l ∈ page, k < l

/-! ## One page -/

section Page

variable {keys : Set κ} {cursor next : Option κ} {page : List κ}

theorem IsPage.mem_of_next (h : IsPage keys cursor page next) {c : κ} (hc : c ∈ next) :
    c ∈ page := List.mem_of_getLast? (h.last c hc)

/-- The next cursor is the least key of the page. -/
theorem IsPage.next_le (h : IsPage keys cursor page next) {c k : κ} (hc : c ∈ next)
    (hk : k ∈ page) : c ≤ k := by
  obtain ⟨pre, rfl⟩ := List.getLast?_eq_some_iff.mp (h.last c hc)
  rcases List.mem_append.mp hk with hk | hk
  · exact le_of_lt ((List.pairwise_append.mp h.sorted).2.2 k hk c (List.mem_singleton_self c))
  · exact (List.mem_singleton.mp hk).ge

/-- **No next cursor** means that no key below the cursor is left out. -/
theorem IsPage.next_eq_none_iff (h : IsPage keys cursor page next) :
    next = none ↔ ¬∃ k ∈ keys, Below cursor k ∧ ∀ l ∈ page, k < l := by
  constructor
  · rintro rfl ⟨k, hk, hbelow, hless⟩
    rcases h.covers k hk hbelow with hpage | ⟨c, hc, -⟩
    · exact lt_irrefl k (hless k hpage)
    · cases hc
  · intro hnone
    rw [← Option.not_isSome_iff_eq_none]
    exact fun hsome ↦ hnone (h.more hsome)

/-- The first `n` of a descending list are a page, with one more asked for to see whether there are
more. -/
theorem isPage_take {ks : List κ} {n : ℕ} (hn : 0 < n) (hsorted : ks.Pairwise (· > ·))
    (hmem : ∀ k, k ∈ ks ↔ k ∈ keys ∧ Below cursor k) :
    IsPage keys cursor (ks.take n) (if n < ks.length then (ks.take n).getLast? else none) where
  sorted := hsorted.sublist (List.take_sublist n ks)
  stored k hk := (hmem k).mp (List.mem_of_mem_take hk)
  last c hc := by
    split at hc
    · exact hc
    · cases hc
  covers k hk hbelow := by
    have hks : k ∈ ks := (hmem k).mpr ⟨hk, hbelow⟩
    rw [← List.take_append_drop n ks] at hks
    refine (List.mem_append.mp hks).imp_right fun hdrop ↦ ?_
    have hlength : n < ks.length := by
      by_contra hle
      rw [List.drop_eq_nil_of_le (not_lt.mp hle)] at hdrop
      cases hdrop
    have hne : ks.take n ≠ [] := by
      rw [Ne, List.take_eq_nil_iff]
      rintro (rfl | rfl)
      · exact lt_irrefl 0 hn
      · cases hlength
    rw [if_pos hlength, List.getLast?_eq_some_getLast hne]
    refine ⟨_, rfl, ?_⟩
    rw [← List.take_append_drop n ks, List.pairwise_append] at hsorted
    exact hsorted.2.2 _ (List.getLast_mem hne) k hdrop
  more hsome := by
    have hlength : n < ks.length := by
      by_contra hle
      rw [if_neg hle] at hsome
      cases hsome
    have hdrop : ks[n] ∈ ks.drop n := by
      rw [List.drop_eq_getElem_cons hlength]
      exact List.mem_cons_self
    obtain ⟨hkeys, hbelow⟩ := (hmem _).mp (List.mem_of_mem_drop hdrop)
    rw [← List.take_append_drop n ks, List.pairwise_append] at hsorted
    exact ⟨ks[n], hkeys, hbelow, fun l hl ↦ hsorted.2.2 l hl _ hdrop⟩

end Page

/-! ## Walks -/

/-- Pages asked for in order, each behind the cursor the one before has named. The walk goes on
behind `some cursor` and is over at `none`. -/
inductive Walk : List (Set κ × List κ) → Option (Option κ) → Prop
  | start : Walk [] (some none)
  | page {ps : List (Set κ × List κ)} {cursor next : Option κ} {keys : Set κ} {page : List κ}
      (h : Walk ps (some cursor)) (hpage : IsPage keys cursor page next) :
      Walk (ps ++ [(keys, page)]) (next.map some)

section Walk

variable {ps : List (Set κ × List κ)} {next : Option (Option κ)}

/-- What lies behind the cursor is less than what was seen. -/
theorem Walk.lt_of_below (h : Walk ps next) {cursor : Option κ} (hnext : next = some cursor)
    {k : κ} (hk : Below cursor k) : ∀ l ∈ keysOf ps, k < l := by
  induction h generalizing cursor k with
  | start => exact fun l hl ↦ absurd hl List.not_mem_nil
  | @page ps previous next keys page h hpage ih =>
    obtain ⟨c, hc, rfl⟩ := Option.map_eq_some_iff.mp hnext
    have hkc : k < c := hk c rfl
    rw [keysOf_snoc]
    intro l hl
    rcases List.mem_append.mp hl with hl | hl
    · exact hkc.trans (ih rfl (hpage.stored c (hpage.mem_of_next hc)).2 l hl)
    · exact hkc.trans_le (hpage.next_le hc hl)

/-- **The keys come in strictly descending order.** -/
theorem Walk.sorted (h : Walk ps next) : (keysOf ps).Pairwise (· > ·) := by
  induction h with
  | start => exact List.Pairwise.nil
  | page h hpage ih =>
    rw [keysOf_snoc, List.pairwise_append]
    exact ⟨ih, hpage.sorted, fun a ha b hb ↦ h.lt_of_below rfl (hpage.stored b hb).2 a ha⟩

theorem Walk.nodup (h : Walk ps next) : (keysOf ps).Nodup := h.sorted.imp fun hab ↦ ne_of_gt hab

/-- **A key that is there at every page** was seen, or lies behind the cursor. -/
theorem Walk.covers (h : Walk ps next) {k : κ} (hk : ∀ p ∈ ps, k ∈ p.1) :
    k ∈ keysOf ps ∨ ∃ cursor, next = some cursor ∧ Below cursor k := by
  induction h with
  | start => exact Or.inr ⟨none, rfl, nofun⟩
  | @page ps cursor next keys page h hpage ih =>
    rw [keysOf_snoc, List.mem_append]
    rcases ih fun p hp ↦ hk p (List.mem_append_left _ hp) with hseen | ⟨_, hsame, hbelow⟩
    · exact Or.inl (Or.inl hseen)
    cases hsame
    have hkeys : k ∈ keys := hk (keys, page) (by simp)
    rcases hpage.covers k hkeys hbelow with hmem | ⟨c, hc, hlt⟩
    · exact Or.inl (Or.inr hmem)
    · refine Or.inr ⟨some c, by rw [hc]; rfl, fun c' hc' ↦ ?_⟩
      cases hc'
      exact hlt

/-- Every page but the last has a key. -/
theorem Walk.length_le (h : Walk ps next) :
    ps.length ≤ (keysOf ps).length + 1 ∧ (next.isSome → ps.length ≤ (keysOf ps).length) := by
  induction h with
  | start => exact ⟨Nat.zero_le _, fun _ ↦ le_rfl⟩
  | @page ps cursor next keys page h hpage ih =>
    have hbefore := ih.2 rfl
    rw [keysOf_snoc, List.length_append, List.length_append, List.length_singleton]
    refine ⟨by omega, fun hsome ↦ ?_⟩
    obtain ⟨c, hc⟩ := Option.isSome_iff_exists.mp (by simpa using hsome)
    have hpos : 0 < (keys, page).2.length := List.length_pos_of_mem (hpage.mem_of_next hc)
    omega

/-- **A walk ends**: while its keys stay within a finite set, it has no more pages than keys, and
one. -/
theorem Walk.length_le_card (h : Walk ps next) {F : Finset κ} (hF : ∀ k ∈ keysOf ps, k ∈ F) :
    ps.length ≤ F.card + 1 := by
  have hcard : (keysOf ps).length ≤ F.card := by
    rw [← List.toFinset_card_of_nodup h.nodup]
    exact Finset.card_le_card fun k hk ↦ hF k (List.mem_toFinset.mp hk)
  exact h.length_le.1.trans (Nat.succ_le_succ hcard)

end Walk

end Paging

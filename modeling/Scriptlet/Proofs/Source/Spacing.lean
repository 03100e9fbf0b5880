import Scriptlet.Proofs.Source.Layout
/-!
# Tokens in another layout

Written out again with separators between them, the tokens of a source are cut into the
same tokens: the text of each ends at the separator behind it, and by itself it is cut into
the token that it came from.  Only the lines of the tokens are others.
-/

namespace Scriptlet

def Token.Stands (t : Token) : Prop :=
  ∃ lexeme : Lexeme, lexeme.Means t ∧ Rule.first? lexeme.text = some (lexeme.rule, lexeme.text)

namespace Lexeme.Means

variable {lexeme : Lexeme} {t : Token}

theorem not_mem_silent (h : lexeme.Means t) :
    lexeme.rule ∉ [.blanks, .newline, .comment, .openQuote] := by
  cases h with
  | word h | numeral h | string h | mark h => simp [h]

theorem agrees (h : lexeme.Means t) (place : Place) :
    ∃ u, token? ⟨lexeme.rule, lexeme.text, place⟩ = some u ∧ t.Agrees u := by
  cases h with
  | word h | numeral h | string h | mark h =>
    rw [h]
    exact ⟨_, rfl, rfl, rfl, rfl⟩

end Lexeme.Means

theorem Source.stands_of_tokens {source : Source} {tokens : List Token} {t : Token}
    (h : source.tokens = .ok tokens) (ht : t ∈ tokens) (hkind : t.kind ≠ .eof) : t.Stands := by
  rcases mem_tokens h ht with ⟨lexeme, hmem, hmeans⟩ | rfl
  · obtain ⟨_, _, _, _, hfirst⟩ := exists_split_of_mem_lexemes hmem
    exact ⟨lexeme, hmeans, Rule.first?_self hfirst⟩
  · exact absurd rfl hkind

/-! ## Separators in front of a text -/

theorem Rule.first?_of_isGap {c : Char} (h : isGap c = true) (cs : List Char) :
    first? (c :: cs) = some (.blanks, c :: cs.takeWhile isGap) := by
  obtain ⟨hc, hne⟩ := isGap_iff.1 h
  rcases mem_separators.1 hc with rfl | rfl | rfl | rfl <;> first | rfl | exact absurd rfl hne

theorem cut_of_isGap {c : Char} (h : Rule.isGap c = true) (place : Place) (cs : List Char) :
    cut place (c :: cs) =
      (cut (place.past (c :: cs.takeWhile Rule.isGap)) (cs.dropWhile Rule.isGap)).after
        [⟨.blanks, c :: cs.takeWhile Rule.isGap, place⟩] := by
  have hsplit : c :: cs.takeWhile Rule.isGap ++ cs.dropWhile Rule.isGap = c :: cs := by
    rw [List.cons_append, List.takeWhile_append_dropWhile]
  have hcut := cut_append place (hsplit ▸ Rule.first?_of_isGap h cs) (by decide)
  rwa [hsplit] at hcut

theorem cut_separator {w : Char} (hw : w ∈ Rule.separators) (place : Place) (cs : List Char) :
    (cut place (w :: cs)).tokens = (cut (place.past [w]) cs).tokens ∧
      (cut place (w :: cs)).rest = (cut (place.past [w]) cs).rest := by
  by_cases hnewline : w = '\n'
  · rw [hnewline, cut_newline]
    exact ⟨rfl, rfl⟩
  have hgap := Rule.isGap_iff.2 ⟨hw, hnewline⟩
  -- the separators that stand next to it are cut off together with it
  rw [cut_of_isGap hgap]
  cases cs with
  | nil => exact ⟨rfl, rfl⟩
  | cons v cs =>
    by_cases hv : Rule.isGap v = true
    · rw [cut_of_isGap hv, ← Place.past_append, List.takeWhile_cons_of_pos hv,
        List.dropWhile_cons_of_pos hv]
      exact ⟨rfl, rfl⟩
    · rw [List.takeWhile_cons_of_neg hv, List.dropWhile_cons_of_neg hv]
      exact ⟨rfl, rfl⟩

theorem cut_separators {gap : List Char} (hgap : ∀ w ∈ gap, w ∈ Rule.separators) (place : Place)
    (cs : List Char) :
    (cut place (gap ++ cs)).tokens = (cut (place.past gap) cs).tokens ∧
      (cut place (gap ++ cs)).rest = (cut (place.past gap) cs).rest := by
  induction gap generalizing place with
  | nil => exact ⟨rfl, rfl⟩
  | cons w gap ih =>
    rw [List.forall_mem_cons] at hgap
    obtain ⟨htokens, hrest⟩ := cut_separator hgap.1 place (gap ++ cs)
    obtain ⟨htokens', hrest'⟩ := ih hgap.2 (place.past [w])
    rw [← Place.past_append] at htokens' hrest'
    exact ⟨htokens.trans htokens', hrest.trans hrest'⟩

/-! ## Tokens with separators between them -/

/-- The text of a token is cut off in front of a separator, and at the end. -/
theorem Token.Stands.cut_append {t : Token} (h : t.Stands) (place : Place) {rest : List Char}
    (hrest : ∀ w ∈ rest.head?, w ∈ Rule.separators) :
    ∃ u, t.Agrees u ∧
      (cut place (t.lexeme.toList ++ rest)).tokens =
        u :: (cut (place.past t.lexeme.toList) rest).tokens ∧
      (cut place (t.lexeme.toList ++ rest)).rest =
        (cut (place.past t.lexeme.toList) rest).rest := by
  obtain ⟨lexeme, hmeans, hfirst⟩ := h
  have hsilent := hmeans.not_mem_silent
  simp only [List.mem_cons, List.not_mem_nil, or_false, not_or] at hsilent
  have hfirst' : Rule.first? (lexeme.text ++ rest) = some (lexeme.rule, lexeme.text) := by
    cases rest with
    | nil => rwa [List.append_nil]
    | cons w rest =>
      exact Rule.first?_append_separator hfirst hsilent.2.2.2 (hrest w rfl)
        (.inr (by simp [hsilent])) rest
  obtain ⟨u, htoken, hagrees⟩ := hmeans.agrees place
  refine ⟨u, hagrees, ?_⟩
  rw [hmeans.lexeme_eq, String.toList_ofList, Scriptlet.cut_append place hfirst' hsilent.2.2.2,
    Cut.tokens_after, List.filterMap_cons_some htoken]
  exact ⟨rfl, rfl⟩

/-- A token is cut off with the separators behind it, of which there are some unless it is
the last. -/
theorem Token.Stands.cut_gap {t : Token} (h : t.Stands) (place : Place) {gap rest : List Char}
    (hgap : ∀ w ∈ gap, w ∈ Rule.separators) (hlast : gap = [] → rest = []) :
    ∃ u, t.Agrees u ∧
      (cut place (t.lexeme.toList ++ gap ++ rest)).tokens =
        u :: (cut ((place.past t.lexeme.toList).past gap) rest).tokens ∧
      (cut place (t.lexeme.toList ++ gap ++ rest)).rest =
        (cut ((place.past t.lexeme.toList).past gap) rest).rest := by
  have hhead : ∀ w ∈ (gap ++ rest).head?, w ∈ Rule.separators := by
    cases gap with
    | nil =>
      rw [hlast rfl]
      exact nofun
    | cons v gap =>
      rintro w ⟨⟩
      exact hgap v List.mem_cons_self
  obtain ⟨u, hagrees, htokens, hrest⟩ := h.cut_append place hhead
  obtain ⟨htokens', hrest'⟩ := cut_separators hgap (place.past t.lexeme.toList) rest
  rw [List.append_assoc, htokens, hrest, htokens', hrest']
  exact ⟨u, hagrees, rfl, rfl⟩

/-- Tokens with separators between them are cut into tokens that agree with them. -/
theorem cut_spread {pairs : List (Token × List Char)}
    (hstands : ∀ pair ∈ pairs, pair.1.Stands)
    (hgaps : ∀ pair ∈ pairs, ∀ w ∈ pair.2, w ∈ Rule.separators)
    (hne : ∀ pair ∈ pairs.dropLast, pair.2 ≠ []) (place : Place) :
    List.Forall₂ Token.Agrees (pairs.map Prod.fst) (cut place (Token.spread pairs)).tokens ∧
      (cut place (Token.spread pairs)).rest = [] := by
  induction pairs generalizing place with
  | nil =>
    rw [Token.spread, List.flatMap_nil, cut_nil]
    exact ⟨.nil, rfl⟩
  | cons pair pairs ih =>
    obtain ⟨t, gap⟩ := pair
    rw [List.forall_mem_cons] at hstands hgaps
    have hlast : gap = [] → Token.spread pairs = [] := by
      intro hgap
      cases pairs with
      | nil => rfl
      | cons next pairs => exact absurd hgap (hne (t, gap) List.mem_cons_self)
    have hne' : ∀ pair ∈ pairs.dropLast, pair.2 ≠ [] := by
      intro pair hpair
      cases pairs with
      | nil => cases hpair
      | cons next pairs => exact hne pair (List.mem_cons_of_mem _ hpair)
    obtain ⟨u, hagrees, htokens, hrest⟩ := hstands.1.cut_gap place hgaps.1 hlast
    obtain ⟨hall, hend⟩ := ih hstands.2 hgaps.2 hne'
      ((place.past t.lexeme.toList).past gap)
    rw [Token.spread_cons, htokens, hrest]
    exact ⟨.cons hagrees hall, hend⟩

def Token.spaced : List Token → List Char
  | [] => []
  | [t] => t.lexeme.toList
  | t :: next :: tokens => t.lexeme.toList ++ [' '] ++ spaced (next :: tokens)

theorem cut_spaced {tokens : List Token} (hstands : ∀ t ∈ tokens, t.Stands) (place : Place) :
    List.Forall₂ Token.Agrees tokens (cut place (Token.spaced tokens)).tokens ∧
      (cut place (Token.spaced tokens)).rest = [] := by
  induction tokens using Token.spaced.induct generalizing place with
  | case1 =>
    rw [Token.spaced, cut_nil]
    exact ⟨.nil, rfl⟩
  | case2 t =>
    rw [List.forall_mem_singleton] at hstands
    obtain ⟨u, hagrees, htokens, hrest⟩ := @Token.Stands.cut_gap t hstands place [] [] nofun id
    rw [List.append_nil, List.append_nil, cut_nil] at htokens hrest
    rw [Token.spaced, htokens]
    exact ⟨.cons hagrees .nil, hrest⟩
  | case3 t next tokens ih =>
    rw [List.forall_mem_cons] at hstands
    have hblank : ∀ w ∈ [' '], w ∈ Rule.separators := List.forall_mem_singleton.2 (by decide)
    obtain ⟨u, hagrees, htokens, hrest⟩ := hstands.1.cut_gap place hblank nofun
    obtain ⟨hall, hend⟩ := ih hstands.2 ((place.past t.lexeme.toList).past [' '])
    rw [Token.spaced, htokens, hrest]
    exact ⟨.cons hagrees hall, hend⟩

/-- The tokens of a source, written out again with separators between them, are the tokens
of the new source but for their lines. -/
theorem Source.tokens_spread {source : Source} {front : List Char}
    {pairs : List (Token × List Char)} {last : Token} (file : String)
    (h : source.tokens = .ok (pairs.map Prod.fst ++ [last]))
    (hfront : ∀ w ∈ front, w ∈ Rule.separators)
    (hgaps : ∀ pair ∈ pairs, ∀ w ∈ pair.2, w ∈ Rule.separators)
    (hne : ∀ pair ∈ pairs.dropLast, pair.2 ≠ []) :
    ∃ tokens, Source.tokens ⟨String.ofList (front ++ Token.spread pairs), file⟩ = .ok tokens ∧
      List.Forall₂ Token.Agrees (pairs.map Prod.fst ++ [last]) tokens := by
  have hstands : ∀ pair ∈ pairs, pair.1.Stands := by
    intro pair hpair
    have hmem : pair.1 ∈ pairs.map Prod.fst := List.mem_map_of_mem hpair
    exact stands_of_tokens h (List.mem_append_left _ hmem) ((shaped_tokens h).kind_ne_eof hmem)
  have hlast : last.Agrees (Token.eof 1) := by
    have hends := List.append_inj_right' (tokens_eq_ok_iff.1 h).2 rfl
    rw [List.singleton_inj.1 hends]
    exact ⟨rfl, rfl, rfl⟩
  obtain ⟨hall, hend⟩ := cut_spread hstands hgaps hne (Place.start.past front)
  obtain ⟨htokens, hrest⟩ := cut_separators hfront Place.start (Token.spread pairs)
  rw [← htokens] at hall
  refine ⟨_, tokens_eq_ok_iff.2 ⟨?_, rfl⟩, ?_⟩
  · rw [cut, String.toList_ofList, hrest, hend]
  · rw [cut, String.toList_ofList]
    exact List.rel_append hall (.cons ⟨hlast.kind, hlast.lexeme, hlast.literal⟩ .nil)

end Scriptlet

import Scriptlet.Proofs.Number.Nearest
import Scriptlet.Proofs.Source.Extents
/-!
# The layout of a source

A source is the text of its tokens with gaps in front, between and behind them, and a gap
holds nothing but separators and comments.  Every token stands on the line on which its
text ends, and its literal is what its text denotes.
-/

namespace Scriptlet

def Token.spread (pairs : List (Token × List Char)) : List Char :=
  pairs.flatMap fun (t, gap) => t.lexeme.toList ++ gap

/-- A text of separators and comments, with what follows it.  A comment goes on to the end
of its line, so a newline or nothing stands behind it. -/
inductive Gap (rest : List Char) : List Char → Prop where
  | nil : Gap rest []
  | separator {c : Char} {cs : List Char} (hc : c ∈ Rule.separators) (h : Gap rest cs) :
      Gap rest (c :: cs)
  | comment {text cs : List Char} (htext : '\n' ∉ text)
      (hend : ∀ c, (cs ++ rest).head? = some c → c = '\n') (h : Gap rest cs) :
      Gap rest ('/' :: '/' :: (text ++ cs))

/-- The literal of a token is what its text denotes: a string that of its quotes, a numeral
its number, and all others none. -/
structure Token.Denoted (t : Token) : Prop where
  string : t.kind = .string → ∃ text, t.lexeme.toList = '"' :: (text ++ ['"']) ∧
    t.literal = some (.string (String.ofList text))
  number : t.kind = .number → ∃ x, t.literal = some (.number x) ∧
    Number.Denotes t.lexeme.toList x
  others : t.kind ∉ [.string, .number] → t.literal = none

namespace Token

variable {pairs : List (Token × List Char)} {line : Nat}

theorem spread_cons (t : Token) (gap : List Char) (pairs : List (Token × List Char)) :
    spread ((t, gap) :: pairs) = t.lexeme.toList ++ gap ++ spread pairs := List.flatMap_cons

/-- Tokens with gaps behind them, from a line on. -/
def Laid : Nat → List (Token × List Char) → Prop
  | _, [] => True
  | line, (t, gap) :: pairs =>
    t.line = line + Text.newlines t.lexeme.toList ∧ t.Denoted ∧ Gap (spread pairs) gap ∧
      Laid (t.line + Text.newlines gap) pairs

theorem Laid.split {before after : List (Token × List Char)} {t : Token} {gap : List Char}
    (h : Laid line (before ++ (t, gap) :: after)) :
    t.line = line + Text.newlines (spread before ++ t.lexeme.toList) ∧ t.Denoted ∧
      Gap (spread after) gap := by
  induction before generalizing line with
  | nil => exact ⟨h.1, h.2.1, h.2.2.1⟩
  | cons first before ih =>
    obtain ⟨u, between⟩ := first
    obtain ⟨hline, _, _, hlaid⟩ := h
    obtain ⟨hline', hdenoted, hgap⟩ := ih hlaid
    refine ⟨?_, hdenoted, hgap⟩
    rw [hline', hline, spread_cons]
    simp only [Text.newlines_append]
    omega

end Token

/-! ## Gaps -/

theorem Gap.append_separators {rest gap cs : List Char} (hgap : ∀ c ∈ gap, c ∈ Rule.separators)
    (h : Gap rest cs) : Gap rest (gap ++ cs) := by
  induction gap with
  | nil => exact h
  | cons c gap ih =>
    exact .separator (hgap c List.mem_cons_self) (ih fun d hd => hgap d (List.mem_cons_of_mem c hd))

theorem Rule.Takes.gap {rule : Rule} {front rest text : List Char}
    (h : rule.Takes (text ++ (front ++ rest)) text) (hrule : rule ∈ [.blanks, .newline, .comment])
    (hfront : Gap rest front) : Gap rest (text ++ front) := by
  simp only [List.mem_cons, List.not_mem_nil, or_false] at hrule
  rcases hrule with rfl | rfl | rfl
  · exact hfront.append_separators fun c hc => (isGap_iff.1 (h.of_blanks c hc)).1
  · obtain rfl := h.eq_newline
    exact .separator (by decide) hfront
  · obtain ⟨body, rfl, hbody, hstop⟩ := h.of_comment
    exact .comment hbody hstop hfront

/-! ## Tokens -/

theorem Token.denoted_of_none {t : Token} (hkind : t.kind ∉ [.eof, .number, .string])
    (hliteral : t.literal = none) : t.Denoted := by
  simp only [List.mem_cons, List.not_mem_nil, or_false, not_or] at hkind
  exact ⟨fun h => absurd h hkind.2.2, fun h => absurd h hkind.2.1, fun _ => hliteral⟩

theorem Lexeme.Means.denoted {lexeme : Lexeme} {t : Token} {cs : List Char} (h : lexeme.Means t)
    (hrule : lexeme.rule ∈ Rule.table) (htakes : lexeme.rule.Takes cs lexeme.text) :
    t.Denoted := by
  cases h with
  | word _ => exact Token.denoted_of_none (Kind.not_mem_valued_ofWord _) rfl
  | numeral _ =>
    refine ⟨nofun, fun _ => ⟨_, rfl, ?_⟩, fun hkind => absurd (by simp) hkind⟩
    rw [String.toList_ofList]
    exact Number.denotes_iff.2 rfl
  | string hstring =>
    refine ⟨fun _ => ?_, nofun, fun hkind => absurd (by simp) hkind⟩
    rw [hstring] at htakes
    generalize lexeme.text = text at htakes
    cases htakes with
    | @string cs _ =>
      refine ⟨cs.takeWhile (· ≠ '"'), by rw [String.toList_ofList], ?_⟩
      rw [List.tail_cons, List.dropLast_concat]
  | mark hmark =>
    have hmem := Rule.mem_marks (hmark ▸ hrule)
    exact Token.denoted_of_none (Rule.not_mem_valued_of_mem_marks hmem) rfl

theorem Lexeme.rule_of_token?_none {lexeme : Lexeme} (h : lexeme.token? = none)
    (hquote : lexeme.rule ≠ .openQuote) : lexeme.rule ∈ [.blanks, .newline, .comment] := by
  obtain ⟨rule, text, start⟩ := lexeme
  cases rule with
  | blanks | newline | comment => simp
  | openQuote => exact absurd rfl hquote
  | _ => cases h

theorem exists_laid {place : Place} {cs : List Char} (h : (cut place cs).rest = []) :
    ∃ front pairs, cs = front ++ Token.spread pairs ∧ Gap (Token.spread pairs) front ∧
      (cut place cs).tokens = pairs.map Prod.fst ∧
      Token.Laid (place.line + Text.newlines front) pairs := by
  induction place, cs using cut_induction with
  | uncut place cs hnone =>
    rw [cut_of_none hnone] at h ⊢
    obtain rfl : cs = [] := h
    exact ⟨[], [], rfl, .nil, rfl, trivial⟩
  | lexeme place rule text rest hrule hquote ih =>
    rw [cut_append place hrule hquote] at h ⊢
    obtain ⟨front, pairs, rfl, hfront, htokens, hlaid⟩ := ih h
    have htakes := Rule.takes_of_first? hrule
    rw [Cut.tokens_after, htokens]
    cases htoken : Lexeme.token? ⟨rule, text, place⟩ with
    | none =>
      have hgap := htakes.gap (Lexeme.rule_of_token?_none htoken hquote) hfront
      refine ⟨text ++ front, pairs, by rw [List.append_assoc], hgap, ?_, ?_⟩
      · rw [List.filterMap_cons_none htoken]
        rfl
      · rw [Text.newlines_append, ← Nat.add_assoc]
        exact hlaid
    | some t =>
      have hmeans := Lexeme.token?_eq_some_iff.1 htoken
      have hlexeme : t.lexeme.toList = text := by rw [hmeans.lexeme_eq, String.toList_ofList]
      have hline : t.line = place.line + Text.newlines text := hmeans.line_eq
      refine ⟨[], (t, front) :: pairs, ?_, .nil, ?_, ?_⟩
      · rw [Token.spread_cons, hlexeme, List.append_assoc, List.nil_append]
      · rw [List.filterMap_cons_some htoken]
        rfl
      · refine ⟨by rw [hlexeme]; exact hline, ?_, hfront, by rw [hline]; exact hlaid⟩
        exact hmeans.denoted (Rule.mem_table_of_first? hrule) htakes

/-- **Scanning loses nothing and numbers every token's line.**  The text of a source that
has tokens is that of the tokens, with gaps in front of them and behind each; the last token
is the only end token, and stands on the last line.  Each of the others carries what its
text denotes and stands on the line on which its text ends. -/
theorem Source.tokens_layout (source : Source) (tokens : List Token)
    (h : source.tokens = .ok tokens) :
    ∃ front pairs,
      tokens = pairs.map Prod.fst ++ [Token.eof (1 + Text.newlines source.text.toList)] ∧
      (∀ t ∈ pairs.map Prod.fst, t.kind ≠ .eof) ∧
      source.text.toList = front ++ Token.spread pairs ∧ Gap (Token.spread pairs) front ∧
      ∀ before t gap after, pairs = before ++ (t, gap) :: after →
        Gap (Token.spread after) gap ∧ t.Denoted ∧
          t.line = 1 + Text.newlines (front ++ Token.spread before ++ t.lexeme.toList) := by
  obtain ⟨front, pairs, htext, hfront, hpairs, hlaid⟩ := exists_laid (tokens_eq_ok_iff.1 h).1
  have hends := (shaped_tokens h).eq_beforeEnd
  rw [endOf_tokens h, beforeEnd_of_tokens h, Source.cut, hpairs] at hends
  refine ⟨front, pairs, hends, ?_, htext, hfront, ?_⟩
  · intro t ht
    rw [hends] at h
    exact (shaped_tokens h).kind_ne_eof ht
  · rintro before t gap after rfl
    obtain ⟨hline, hdenoted, hgap⟩ := hlaid.split
    refine ⟨hgap, hdenoted, ?_⟩
    rw [hline, Place.start]
    simp only [Text.newlines_append]
    omega

theorem Source.tokens_layout_comment :
    Source.tokens ⟨"a // b\r\n\"c\nd\"", "laid"⟩ = .ok
      [⟨.identifier, "a", none, 1⟩, ⟨.string, "\"c\nd\"", some (.string "c\nd"), 3⟩,
        Token.eof 3] ∧
    ∃ front pairs, pairs.map Prod.fst =
        [⟨.identifier, "a", none, 1⟩, ⟨.string, "\"c\nd\"", some (.string "c\nd"), 3⟩] ∧
      "a // b\r\n\"c\nd\"".toList = front ++ Token.spread pairs ∧
      Gap (Token.spread pairs) front := by
  have htokens : Source.tokens ⟨"a // b\r\n\"c\nd\"", "laid"⟩ = .ok
      [⟨.identifier, "a", none, 1⟩, ⟨.string, "\"c\nd\"", some (.string "c\nd"), 3⟩,
        Token.eof 3] := by
    decide +kernel
  obtain ⟨front, pairs, hpairs, _, htext, hfront, _⟩ := tokens_layout _ _ htokens
  exact ⟨htokens, front, pairs, (List.append_inj_left' hpairs rfl).symm, htext, hfront⟩

end Scriptlet

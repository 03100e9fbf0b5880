import Scriptlet.Proofs.Relining
import Scriptlet.Proofs.Source.Boundaries
import Scriptlet.Proofs.Source.Tokens
/-!
# Cutting one text behind another

The cut of a text is the same wherever the text begins, only moved to that place.  A text
that is cut to its end can stand before another one with a newline between the two: its
lexemes come first, then the newline, then those of the other text.
-/

namespace Scriptlet

def Place.shift (place : Place) (bytes lines : Nat) : Place :=
  ⟨place.offset + bytes, place.line + lines⟩

theorem Place.past_shift (place : Place) (bytes lines : Nat) (text : List Char) :
    (place.shift bytes lines).past text = (place.past text).shift bytes lines := by
  simp only [past, shift, Place.mk.injEq]
  omega

theorem Place.past_eq_shift (place : Place) (text : List Char) :
    place.past text = place.shift (Text.byteSize text) (Text.newlines text) := rfl

namespace Lexeme

def shift (bytes lines : Nat) (lexeme : Lexeme) : Lexeme :=
  { lexeme with start := lexeme.start.shift bytes lines }

theorem stop_shift (bytes lines : Nat) (lexeme : Lexeme) :
    (lexeme.shift bytes lines).stop = lexeme.stop.shift bytes lines :=
  lexeme.start.past_shift bytes lines lexeme.text

theorem token?_shift (bytes lines : Nat) (lexeme : Lexeme) :
    (lexeme.shift bytes lines).token? = lexeme.token?.map (Token.mapLine (· + lines)) := by
  rw [token?, token?, stop_shift]
  obtain ⟨rule, text, start⟩ := lexeme
  cases rule <;> rfl

theorem first?_shift (place : Place) (bytes lines : Nat) (cs : List Char) :
    first? (place.shift bytes lines) cs = (first? place cs).map (shift bytes lines) := by
  unfold first?
  split <;> rfl

theorem first?_of_rule {cs text : List Char} {rule : Rule} (place : Place)
    (h : Rule.first? cs = some (rule, text)) (hquote : rule ≠ .openQuote) :
    first? place cs = some ⟨rule, text, place⟩ := by
  unfold first?
  rw [h]
  cases rule <;> first | rfl | exact absurd rfl hquote

end Lexeme

/-! ## One lexeme, then the others -/

def Cut.tokens (c : Cut) : List Token := c.lexemes.filterMap Lexeme.token?

def Cut.shift (bytes lines : Nat) (c : Cut) : Cut :=
  ⟨c.lexemes.map (Lexeme.shift bytes lines), c.stop.shift bytes lines, c.rest⟩

def Cut.after (lexemes : List Lexeme) (c : Cut) : Cut := { c with lexemes := lexemes ++ c.lexemes }

theorem Cut.tokens_shift (bytes lines : Nat) (c : Cut) :
    (c.shift bytes lines).tokens = c.tokens.map (Token.mapLine (· + lines)) := by
  rw [tokens, tokens, shift, List.filterMap_map, List.map_filterMap]
  exact congrFun (congrArg List.filterMap (funext (Lexeme.token?_shift bytes lines))) _

theorem Cut.tokens_after (lexemes : List Lexeme) (c : Cut) :
    (c.after lexemes).tokens = lexemes.filterMap Lexeme.token? ++ c.tokens :=
  List.filterMap_append

theorem cut_of_none {place : Place} {cs : List Char} (h : Lexeme.first? place cs = none) :
    cut place cs = ⟨[], place, cs⟩ := by
  rw [cut]
  split
  · rfl
  · rename_i hsome
    rw [h] at hsome
    cases hsome

theorem cut_of_first? {place : Place} {cs : List Char} {lexeme : Lexeme}
    (h : Lexeme.first? place cs = some lexeme) :
    cut place cs = (cut lexeme.stop (cs.drop lexeme.text.length)).after [lexeme] := by
  rw [cut]
  split
  · rename_i hnone
    rw [h] at hnone
    cases hnone
  · rename_i other hsome
    rw [h] at hsome
    cases hsome
    rfl

theorem cut_nil (place : Place) : cut place [] = ⟨[], place, []⟩ := cut_of_none rfl

theorem cut_append {text rest : List Char} {rule : Rule} (place : Place)
    (h : Rule.first? (text ++ rest) = some (rule, text)) (hquote : rule ≠ .openQuote) :
    cut place (text ++ rest) = (cut (place.past text) rest).after [⟨rule, text, place⟩] := by
  rw [cut_of_first? (Lexeme.first?_of_rule place h hquote), List.drop_left]
  rfl

/-- What holds of a text that cannot be cut, and of a text whose first lexeme is cut off
when it holds of the others, holds of every text. -/
theorem cut_induction {P : Place → List Char → Prop}
    (uncut : ∀ place cs, Lexeme.first? place cs = none → P place cs)
    (lexeme : ∀ place rule text rest, Rule.first? (text ++ rest) = some (rule, text) →
      rule ≠ .openQuote → P (place.past text) rest → P place (text ++ rest))
    (place : Place) (cs : List Char) : P place cs := by
  fun_induction cut place cs with
  | case1 place cs h => exact uncut place cs h
  | case2 place cs first h further ih =>
    obtain ⟨hrule, rfl, hquote⟩ := Lexeme.rule_first? h
    obtain ⟨rest, rfl⟩ := (Lexeme.prefix_of_first? h).2
    rw [List.drop_left] at ih
    exact lexeme first.start first.rule first.text rest hrule hquote ih

theorem cut_shift (place : Place) (bytes lines : Nat) (cs : List Char) :
    cut (place.shift bytes lines) cs = (cut place cs).shift bytes lines := by
  induction place, cs using cut_induction with
  | uncut place cs h =>
    rw [cut_of_none h, cut_of_none (by rw [Lexeme.first?_shift, h]; rfl)]
    rfl
  | lexeme place rule text rest hrule hquote ih =>
    rw [cut_append _ hrule hquote, cut_append _ hrule hquote, Place.past_shift, ih]
    rfl

/-! ## A text in front of a newline -/

theorem cut_newline (place : Place) (cs : List Char) :
    cut place ('\n' :: cs) = (cut (place.past ['\n']) cs).after [⟨.newline, ['\n'], place⟩] :=
  @cut_append ['\n'] cs .newline place rfl (by decide)

/-- A text that is cut to its end is cut alike in front of a newline. -/
theorem cut_append_newline {place : Place} {as : List Char} (h : (cut place as).rest = [])
    (bs : List Char) :
    cut place (as ++ '\n' :: bs) =
      (cut (cut place as).stop ('\n' :: bs)).after (cut place as).lexemes := by
  induction place, as using cut_induction with
  | uncut place cs hnone =>
    rw [cut_of_none hnone] at h ⊢
    obtain rfl : cs = [] := h
    rfl
  | lexeme place rule text rest hrule hquote ih =>
    have hrule' := Rule.first?_append_separator hrule hquote (by decide) (.inl rfl) bs
    rw [List.append_assoc] at hrule' ⊢
    rw [cut_append place hrule hquote] at h ⊢
    rw [cut_append place hrule' hquote, ih h]
    rfl

namespace Source

variable {a b file : String} {tokens : List Token}

theorem cut_join (h : (cut ⟨a, file⟩).rest = []) (b : String) :
    ∃ bytes, ∃ newline : Lexeme, newline.token? = none ∧ cut ⟨a ++ "\n" ++ b, file⟩ =
      ((cut ⟨b, file⟩).shift bytes (1 + Text.newlines a.toList)).after
        ((cut ⟨a, file⟩).lexemes ++ [newline]) := by
  have htext : (a ++ "\n" ++ b).toList = a.toList ++ '\n' :: b.toList := by
    rw [String.toList_append, String.toList_append, List.append_assoc]
    rfl
  have hrest : (Scriptlet.cut Place.start a.toList).rest = [] := h
  have hall : (Scriptlet.cut Place.start a.toList).lexemes.flatMap Lexeme.text = a.toList :=
    flatMap_lexemes h
  have hstop : (Scriptlet.cut Place.start a.toList).stop.past ['\n'] =
      Place.start.shift (Text.byteSize (a.toList ++ ['\n'])) (1 + Text.newlines a.toList) := by
    rw [stop_cut, hall, ← Place.past_append, Place.past_eq_shift, Text.newlines_append,
      Nat.add_comm]
    rfl
  refine ⟨Text.byteSize (a.toList ++ ['\n']),
    ⟨.newline, ['\n'], (cut ⟨a, file⟩).stop⟩, rfl, ?_⟩
  rw [cut, htext, cut_append_newline hrest, cut_newline, hstop, cut_shift]
  simp only [Cut.after, cut, List.append_assoc]

theorem tokens_eq_error_iff {source : Source} {d : Diagnostic} :
    source.tokens = .error d ↔ ∃ c rest, source.cut.rest = c :: rest ∧
      d = ⟨.ofUncut c, ⟨source.cut.stop.line, source.file⟩⟩ := by
  unfold Source.tokens
  cases source.cut.rest <;> simp [eq_comm]

theorem beforeEnd_of_tokens {source : Source} (h : source.tokens = .ok tokens) :
    Token.beforeEnd tokens = source.cut.tokens := by
  have hends := (shaped_tokens h).eq_beforeEnd
  rw [(tokens_eq_ok_iff.1 h).2] at hends
  rw [(tokens_eq_ok_iff.1 h).2, ← List.append_inj_left' hends rfl]
  rfl

theorem endOf_tokens {source : Source} (h : source.tokens = .ok tokens) :
    Cursor.endOf tokens = Token.eof (1 + Text.newlines source.text.toList) := by
  obtain ⟨us, last, rfl, hlast, hus⟩ := (shaped_tokens h).ends
  obtain ⟨hrest, heq⟩ := tokens_eq_ok_iff.1 h
  rw [stop_line_of_rest hrest] at heq
  rw [Cursor.endOf_append hus hlast]
  exact List.singleton_inj.1 (List.append_inj_right' heq rfl)

/-- The tokens of two texts with a newline between them: those of the first but its end,
and those of the other, which stand as many lines further down as there are newlines in
front. -/
theorem tokens_join (h : Source.tokens ⟨a, file⟩ = .ok tokens) (b : String) :
    Source.tokens ⟨a ++ "\n" ++ b, file⟩ =
      ((Source.tokens ⟨b, file⟩).map fun others => Token.beforeEnd tokens ++
          others.map (Token.mapLine (· + (1 + Text.newlines a.toList)))).mapError
        (Diagnostic.mapLines (· + (1 + Text.newlines a.toList))) := by
  obtain ⟨bytes, newline, hnewline, hcut⟩ := cut_join (tokens_eq_ok_iff.1 h).1 b
  cases hb : Source.tokens ⟨b, file⟩ with
  | ok others =>
    obtain ⟨hrest, rfl⟩ := tokens_eq_ok_iff.1 hb
    have htokens : (cut ⟨a ++ "\n" ++ b, file⟩).tokens = Token.beforeEnd tokens ++
        (cut ⟨b, file⟩).tokens.map (Token.mapLine (· + (1 + Text.newlines a.toList))) := by
      rw [hcut, Cut.tokens_after, Cut.tokens_shift, List.filterMap_append,
        List.filterMap_cons_none hnewline, List.filterMap_nil, List.append_nil,
        beforeEnd_of_tokens h]
      rfl
    refine tokens_eq_ok_iff.2 ⟨by rw [hcut]; exact hrest, ?_⟩
    rw [← Cut.tokens, ← Cut.tokens, htokens, hcut, List.append_assoc]
    simp only [List.map_append]
    rfl
  | error d =>
    obtain ⟨c, rest, hrest, rfl⟩ := tokens_eq_error_iff.1 hb
    refine tokens_eq_error_iff.2 ⟨c, rest, by rw [hcut]; exact hrest, ?_⟩
    rw [hcut, Diagnostic.mapLines, Fault.mapLines_of_operator? (Fault.operator?_ofUncut c)]
    rfl

end Source

end Scriptlet

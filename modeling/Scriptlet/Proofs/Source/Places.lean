import Scriptlet.Proofs.Source.Scanning
/-!
# The places that a scan comes to

A scan goes from lexeme to lexeme.  It begins in front of the whole text, and each lexeme
brings it from one place to the next.  So what holds in front of the text and is kept by every
lexeme holds wherever the scan comes to, and also where it stops.
-/

namespace Scriptlet

/-- A lexeme of a text is what the rules find behind the lexemes before it. -/
theorem first?_of_lexemes {place : Place} {cs : List Char} {before after : List Lexeme}
    {lexeme : Lexeme} (h : (cut place cs).lexemes = before ++ lexeme :: after) :
    Lexeme.first? (place.past (before.flatMap Lexeme.text))
      ((lexeme :: after).flatMap Lexeme.text ++ (cut place cs).rest) = some lexeme := by
  induction place, cs using cut_induction generalizing before with
  | uncut place cs hnone =>
    rw [cut_of_none hnone] at h
    cases before <;> cases h
  | lexeme place rule text rest hrule hquote ih =>
    have hall := flatMap_cut place (text ++ rest)
    rw [cut_append place hrule hquote] at h hall ⊢
    cases before with
    | nil =>
      obtain ⟨hlexeme, hafter⟩ := List.cons.inj h
      rw [← hlexeme, ← hafter]
      exact (congrArg (Lexeme.first? place) hall).trans (Lexeme.first?_of_rule place hrule hquote)
    | cons first before =>
      obtain ⟨hfirst, hlater⟩ := List.cons.inj h
      have hfound := ih hlater
      rw [← hfirst, List.flatMap_cons, Place.past_append]
      exact hfound

namespace Source

variable {source : Source} {before rest : List Char}

/-- The scan of the source comes to a place: some of the lexemes stand before it, and the
others, with what is left over, behind. -/
def ComesTo (source : Source) (before rest : List Char) : Prop :=
  ∃ past future, source.cut.lexemes = past ++ future ∧ before = past.flatMap Lexeme.text ∧
    rest = future.flatMap Lexeme.text ++ source.cut.rest

theorem comesTo_stop (source : Source) :
    source.ComesTo (source.cut.lexemes.flatMap Lexeme.text) source.cut.rest :=
  ⟨source.cut.lexemes, [], (List.append_nil _).symm, rfl, rfl⟩

theorem ComesTo.append_eq (h : source.ComesTo before rest) :
    before ++ rest = source.text.toList := by
  obtain ⟨past, future, hsplit, rfl, rfl⟩ := h
  rw [← List.append_assoc, ← List.flatMap_append, ← hsplit]
  exact flatMap_cut Place.start source.text.toList

/-- What holds in front of a source, and behind each lexeme if it holds in front of that,
holds at every place that the scan comes to. -/
theorem ComesTo.induction {P : List Char → List Char → Prop} (start : P [] source.text.toList)
    (step : ∀ before rule text rest, P before (text ++ rest) →
      Rule.first? (text ++ rest) = some (rule, text) → rule ≠ .openQuote → P (before ++ text) rest)
    (h : source.ComesTo before rest) : P before rest := by
  obtain ⟨past, future, hsplit, rfl, rfl⟩ := h
  induction past using List.reverseRecOn generalizing future with
  | nil =>
    have htext := (flatMap_cut Place.start source.text.toList).symm
    rw [List.nil_append] at hsplit
    rw [← hsplit]
    exact htext ▸ start
  | append_singleton past lexeme ih =>
    rw [List.append_assoc] at hsplit
    have hfirst := first?_of_lexemes hsplit
    obtain ⟨hrule, _, hquote⟩ := Lexeme.rule_first? hfirst
    have hbefore := ih _ hsplit
    rw [List.singleton_append, List.flatMap_cons, List.append_assoc] at hbefore
    rw [List.flatMap_cons, List.append_assoc] at hrule
    rw [List.flatMap_append, List.flatMap_singleton]
    exact step _ _ _ _ hbefore hrule hquote

end Source

end Scriptlet

import Scriptlet.Lexeme.Rule
import Scriptlet.Source
/-!
# Cutting a text into lexemes

A text is cut from its front: the first rule that takes something yields the next
lexeme.  The cut stops where no rule applies, at a quote that is never closed, or at
the end of the text.  Lexemes, gaps and comments included, stand side by side, so
they and what is left make up the text.
-/

namespace Scriptlet

/-- A stretch of source text, the rule that took it and the place where it begins. -/
structure Lexeme where
  rule : Rule
  text : List Char
  start : Place
deriving DecidableEq, Repr

def Lexeme.stop (lexeme : Lexeme) : Place := lexeme.start.past lexeme.text

/-- What has been cut off a text, the place where the cut stopped, and what is left. -/
structure Cut where
  lexemes : List Lexeme
  stop : Place
  rest : List Char
deriving DecidableEq, Repr

def Lexeme.first? (place : Place) (cs : List Char) : Option Lexeme :=
  match Rule.first? cs with
  | none => none
  | some (.openQuote, _) => none
  | some (rule, text) => some ⟨rule, text, place⟩

theorem Lexeme.rule_first? {place : Place} {cs : List Char} {lexeme : Lexeme}
    (h : Lexeme.first? place cs = some lexeme) :
    Rule.first? cs = some (lexeme.rule, lexeme.text) ∧ lexeme.start = place ∧
      lexeme.rule ≠ .openQuote := by
  unfold first? at h
  split at h
  case h_1 => simp at h
  case h_2 => simp at h
  case h_3 rule text hquote heq =>
    cases h
    refine ⟨heq, rfl, ?_⟩
    rintro rfl
    exact hquote rfl

theorem Lexeme.prefix_of_first? {place : Place} {cs : List Char} {lexeme : Lexeme}
    (h : Lexeme.first? place cs = some lexeme) :
    lexeme.text ≠ [] ∧ lexeme.text <+: cs :=
  Rule.prefix_of_taken? (Rule.taken?_of_first? (Lexeme.rule_first? h).1)

def cut (place : Place) (cs : List Char) : Cut :=
  match _h : Lexeme.first? place cs with
  | none => ⟨[], place, cs⟩
  | some lexeme =>
    let further := cut lexeme.stop (cs.drop lexeme.text.length)
    { further with lexemes := lexeme :: further.lexemes }
termination_by cs.length
decreasing_by
  have ⟨hne, hp⟩ := Lexeme.prefix_of_first? _h
  have hpos := List.length_pos_iff.2 hne
  have hle := hp.length_le
  simp only [List.length_drop]
  omega

/-- Nothing is lost: the lexemes and the rest make up the text. -/
theorem flatMap_cut (place : Place) (cs : List Char) :
    (cut place cs).lexemes.flatMap Lexeme.text ++ (cut place cs).rest = cs := by
  fun_induction cut place cs with
  | case1 => rfl
  | case2 place cs lexeme h further ih =>
    obtain ⟨rest, rfl⟩ := (Lexeme.prefix_of_first? h).2
    simp only [List.flatMap_cons, List.append_assoc]
    rw [ih, List.drop_left]

theorem stop_cut (place : Place) (cs : List Char) :
    (cut place cs).stop = place.past ((cut place cs).lexemes.flatMap Lexeme.text) := by
  fun_induction cut place cs with
  | case1 => rfl
  | case2 place cs lexeme h further ih =>
    rw [List.flatMap_cons, Place.past_append, ← (Lexeme.rule_first? h).2.1]
    exact ih

end Scriptlet

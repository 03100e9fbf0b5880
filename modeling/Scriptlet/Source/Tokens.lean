import Scriptlet.Diagnostic
import Scriptlet.Lexeme.Cut
/-!
# The tokens of a source

The lexemes that mean something become tokens, and an end token follows the last.
A token stands on the line on which its text ends.  A source that cannot be cut to
its end has no tokens, only a diagnostic.
-/

namespace Scriptlet

/-- The token of a lexeme; blanks, newlines and comments have none. -/
def Lexeme.token? (lexeme : Lexeme) : Option Token :=
  let token (kind : Kind) (literal : Option Literal) : Option Token :=
    some ⟨kind, String.ofList lexeme.text, literal, lexeme.stop.line⟩
  match lexeme.rule with
  | .word => token (Kind.ofWord (String.ofList lexeme.text)) none
  | .numeral => token .number (some (.number (Number.ofText lexeme.text)))
  | .string => token .string (some (.string (String.ofList lexeme.text.tail.dropLast)))
  | .mark kind _ => token kind none
  | .blanks | .newline | .comment | .openQuote => none

/-- Why a text cannot be cut at a character: either it opens a string that is never
closed, or no lexeme begins with it. -/
def Fault.ofUncut (c : Char) : Fault :=
  if c = '"' then .unterminatedString else .unexpectedCharacter c

namespace Source

def cut (source : Source) : Cut := Scriptlet.cut Place.start source.text.toList

def tokens (source : Source) : Except Diagnostic (List Token) :=
  match source.cut.rest with
  | [] => .ok (source.cut.lexemes.filterMap Lexeme.token? ++ [Token.eof source.cut.stop.line])
  | c :: _ => .error ⟨Fault.ofUncut c, ⟨source.cut.stop.line, source.file⟩⟩

end Source

end Scriptlet

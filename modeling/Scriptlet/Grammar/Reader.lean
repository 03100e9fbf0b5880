import Scriptlet.Cursor
/-!
# Readers of tokens

A reader moves a cursor over the tokens that it takes, and yields a result or fails
with a diagnostic.  A reader that fails leaves the cursor at the token to blame, and
nothing is read twice.
-/

namespace Scriptlet

abbrev Reader := EStateM Diagnostic Cursor

namespace Reader

def blame {α : Type} (fault : Token → Fault) : Reader α := fun c =>
  .error ⟨fault c.current, c.position⟩ c

def current : Reader Token := fun c => .ok c.current c

def hasTokens : Reader Bool := fun c => .ok c.hasTokens c

def advance : Reader Token := fun c => .ok c.advance.previous c.advance

def accept? (kinds : List Kind) : Reader (Option Token) := fun c =>
  if c.current.kind ∈ kinds then .ok (some c.advance.previous) c.advance else .ok none c

def expect (kind : Kind) (message : String) : Reader Token := fun c =>
  if c.current.kind = kind then .ok c.advance.previous c.advance
  else .error ⟨.expectedToken message c.current.lexeme, c.position⟩ c

def onTokens {α : Type} (reader : Reader α) (tokens : List Token) (file : String) :
    Except Diagnostic α :=
  match reader (Cursor.ofTokens tokens file) with
  | .ok result _ => .ok result
  | .error d _ => .error d

end Reader

end Scriptlet

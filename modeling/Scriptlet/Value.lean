import Scriptlet.Number.Shortest
import Scriptlet.Text.Quoted
/-!
# Values

The values that expressions have.  Structural equality tells two values apart by
their bits; `equal` is the equality of the language, on which a number that is not
a number differs from itself and the two zeros agree.
-/

namespace Scriptlet

inductive Value where
  | number (x : Float)
  | string (text : String)
  | bool (b : Bool)
  | nil
deriving DecidableEq

namespace Value

/-- Everything but `nil` and `false` counts as true. -/
def truthy : Value → Bool
  | nil => false
  | bool b => b
  | number _ => true
  | string _ => true

/-- Values of different types are never equal. -/
def equal : Value → Value → Bool
  | number x, number y => x == y
  | string s, string t => s == t
  | bool a, bool b => a == b
  | nil, nil => true
  | _, _ => false

private def boolText (b : Bool) : String := if b then "true" else "false"

def text : Value → String
  | number x => Number.text x
  | string s => s
  | bool b => boolText b
  | nil => "nil"

/-- A value as it stands in the text of an expression: strings are quoted. -/
def literalText : Value → String
  | string s => Text.quoted s
  | v => v.text

end Value

end Scriptlet

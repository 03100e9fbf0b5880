import Scriptlet.Kind
import Scriptlet.Number.Shortest
/-!
# Tokens

A token is a stretch of source text with its kind, the line on which it ends, and
the value that it spells when it is a numeral or a string.
-/

namespace Scriptlet

inductive Literal where
  | number (x : Float)
  | string (text : String)
deriving DecidableEq

namespace Literal

/-- Numbers compare as numbers, not by their bits. -/
def equal : Literal → Literal → Bool
  | number x, number y => x == y
  | string s, string t => s == t
  | _, _ => false

def text : Literal → String
  | number x => Number.text x
  | string s => s

end Literal

structure Token where
  kind : Kind
  lexeme : String
  literal : Option Literal
  line : Nat
deriving DecidableEq

namespace Token

def eof (line : Nat) : Token := ⟨.eof, "", none, line⟩

def equal (a b : Token) : Bool :=
  a.kind == b.kind && a.lexeme == b.lexeme && a.line == b.line &&
    match a.literal, b.literal with
    | some x, some y => x.equal y
    | none, none => true
    | _, _ => false

def text (t : Token) : String :=
  match t.literal with
  | some value => t.kind.name ++ " " ++ t.lexeme ++ " " ++ value.text
  | none => t.kind.name ++ " " ++ t.lexeme

/-- The line of a token in a listing: only strings, names and numerals show their text. -/
def listing (t : Token) : String :=
  let shown := if t.kind ∈ [.string, .identifier, .number] then t.lexeme else ""
  "[" ++ toString t.line ++ "] " ++ t.kind.name ++ " (" ++ shown ++ ")"

@[simp] theorem kind_eof (line : Nat) : (eof line).kind = .eof := rfl

end Token

end Scriptlet

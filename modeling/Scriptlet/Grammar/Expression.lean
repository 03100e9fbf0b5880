import Scriptlet.Expr
import Scriptlet.Grammar.Reader
import Scriptlet.Level
/-!
# Reading expressions

On each level the operators are read from left to right between operands of the next
level.  Operators before an operand, and brackets, nest.

Every reader here takes a number that bounds how many tokens there are before the
end.  Each repetition and each nesting takes at least one token, so the bound never
cuts a reader short: at zero there is nothing left that it could take.
-/

namespace Scriptlet

def Token.value? (t : Token) : Option Value :=
  match t.kind, t.literal with
  | .trueWord, _ => some (.bool true)
  | .falseWord, _ => some (.bool false)
  | .nilWord, _ => some .nil
  | .number, some (.number x) => some (.number x)
  | .string, some (.string s) => some (.string s)
  | _, _ => none

namespace Grammar

open Reader

def expectedExpression {α : Type} : Reader α :=
  blame fun t => .expectedExpression t.lexeme

def literal : Reader Expr := do
  match (← current).value? with
  | some value =>
    let _ ← advance
    return .literal value
  | none => expectedExpression

/-- More operators with operands behind a left operand, which grows to the left. -/
def chainFrom (operators : List Kind) (operand : Reader Expr) : Nat → Expr → Reader Expr
  | 0, left => return left
  | bound + 1, left => do
    match ← accept? operators with
    | some operator =>
      let right ← operand
      chainFrom operators operand bound (.binary operator left right)
    | none => return left

def chain (operators : List Kind) (operand : Reader Expr) (bound : Nat) : Reader Expr := do
  let left ← operand
  chainFrom operators operand bound left

def prefixed (operand : Reader Expr) : Nat → Reader Expr
  | 0 => operand
  | bound + 1 => do
    match ← accept? Kind.unaryOperators with
    | some operator => return .unary operator (← prefixed operand bound)
    | none => operand

def atLevel (primary : Reader Expr) (bound : Nat) : Level → Reader Expr :=
  let unary := prefixed primary bound
  let factor := chain Level.factor.operators unary bound
  let term := chain Level.term.operators factor bound
  let comparison := chain Level.comparison.operators term bound
  let equality := chain Level.equality.operators comparison bound
  fun
  | .default => equality
  | .equality => equality
  | .comparison => comparison
  | .term => term
  | .factor => factor
  | .unary => unary
  | .primary => primary

/-- An expression in brackets; the token in place of the opening one is not looked at. -/
def bracketed (inner : Reader Expr) : Reader Expr := do
  let _ ← advance
  let e ← inner
  let _ ← expect .closeParen "expect ')' after expression."
  return .grouping e

def primary : Nat → Reader Expr
  | 0 => expectedExpression
  | bound + 1 => do
    let kind := (← current).kind
    if kind ∈ Kind.literals then literal
    else if kind = .openParen then bracketed (atLevel (primary bound) bound .default)
    else expectedExpression

def expression (level : Level) : Reader Expr := fun c =>
  atLevel (primary c.remaining) c.remaining level c

def binary (level : Level) : Reader Expr := fun c =>
  chain level.operators (atLevel (primary c.remaining) c.remaining level.next) c.remaining c

def grouping : Reader Expr := fun c =>
  bracketed (atLevel (primary c.remaining) c.remaining .default) c

theorem atLevel_of_operators {level : Level} (h : level.operators ≠ [])
    (primary : Reader Expr) (bound : Nat) :
    atLevel primary bound level =
      chain level.operators (atLevel primary bound level.next) bound := by
  cases level <;> simp_all [Level.operators] <;> rfl

end Grammar

def Expr.ofTokens (tokens : List Token) (file : String) : Except Diagnostic Expr :=
  Reader.onTokens
    (do
      let e ← Grammar.expression .default
      let _ ← Reader.expect .eof "expect end of input after expression."
      return e)
    tokens file

end Scriptlet

import Scriptlet.Diagnostic
import Scriptlet.Expr
/-!
# The value of an expression

Operands are evaluated from left to right, all of them before the operator looks at
any.  The first operator that cannot be applied stops the evaluation and is to blame.
-/

namespace Scriptlet

namespace Value

def unary (operator : Token) (operand : Value) : Except Fault Value :=
  match operator.kind, operand with
  | .dash, number x => .ok (.number (-x))
  | .dash, other => .error (.operandMustBeNumber operator other.text)
  | .not, v => .ok (.bool (!v.truthy))
  | _, _ => .error (.unsupportedOperator operator)

/-- Applies an operation on numbers; the first operand that is none is named. -/
def numeric (operator : Token) (operation : Float → Float → Value) :
    Value → Value → Except Fault Value
  | number x, number y => .ok (operation x y)
  | number _, right => .error (.operandsMustBeNumbers operator right.text)
  | left, _ => .error (.operandsMustBeNumbers operator left.text)

def sum (operator : Token) : Value → Value → Except Fault Value
  | number x, number y => .ok (.number (x + y))
  | string s, string t => .ok (.string (s ++ t))
  | _, _ => .error (.operandsMustBeNumbersOrStrings operator)

def binary (operator : Token) (left right : Value) : Except Fault Value :=
  match operator.kind with
  | .plus => sum operator left right
  | .dash => numeric operator (fun x y => .number (x - y)) left right
  | .star => numeric operator (fun x y => .number (x * y)) left right
  | .slash => numeric operator (fun x y => .number (x / y)) left right
  | .greater => numeric operator (fun x y => .bool (x > y)) left right
  | .greaterEquals => numeric operator (fun x y => .bool (x ≥ y)) left right
  | .less => numeric operator (fun x y => .bool (x < y)) left right
  | .lessEquals => numeric operator (fun x y => .bool (x ≤ y)) left right
  | .equals => .ok (.bool (left.equal right))
  | .notEquals => .ok (.bool (!left.equal right))
  | _ => .error (.unsupportedOperator operator)

end Value

def Token.blame {α : Type} (t : Token) (file : String) : Except Fault α → Except Diagnostic α
  | .ok a => .ok a
  | .error fault => .error ⟨fault, ⟨t.line, file⟩⟩

def Expr.eval (file : String) : Expr → Except Diagnostic Value
  | literal value => .ok value
  | grouping inner => inner.eval file
  | unary operator operand => do
    let v ← operand.eval file
    operator.blame file (Value.unary operator v)
  | binary operator left right => do
    let v ← left.eval file
    let w ← right.eval file
    operator.blame file (Value.binary operator v w)

/-- The text that a statement writes: the value on a line of its own, or nothing. -/
def Stmt.output (file : String) : Stmt → Except Diagnostic String
  | expression e => do
    let _ ← e.eval file
    return ""
  | print e => do
    let v ← e.eval file
    return v.text ++ "\n"

end Scriptlet

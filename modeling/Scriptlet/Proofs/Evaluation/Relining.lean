import Scriptlet.Evaluation
import Scriptlet.Proofs.Relining
/-!
# Evaluation does not look at lines

Whether an expression has a value, and which, does not depend on the lines of its
operators.  A diagnostic names the line of the operator that it blames, and so it moves
with that.
-/

namespace Scriptlet

variable (f : Nat → Nat)

namespace Value

theorem unary_mapLine (operator : Token) (operand : Value) :
    unary (operator.mapLine f) operand =
      (unary operator operand).mapError (Fault.mapLines f) := by
  unfold unary
  rw [Token.kind_mapLine]
  split <;> rfl

theorem numeric_mapLine (operator : Token) (operation : Float → Float → Value)
    (left right : Value) :
    numeric (operator.mapLine f) operation left right =
      (numeric operator operation left right).mapError (Fault.mapLines f) := by
  cases left <;> cases right <;> rfl

theorem sum_mapLine (operator : Token) (left right : Value) :
    sum (operator.mapLine f) left right =
      (sum operator left right).mapError (Fault.mapLines f) := by
  cases left <;> cases right <;> rfl

theorem binary_mapLine (operator : Token) (left right : Value) :
    binary (operator.mapLine f) left right =
      (binary operator left right).mapError (Fault.mapLines f) := by
  unfold binary
  rw [Token.kind_mapLine]
  split
  case h_1 => exact sum_mapLine f operator left right
  all_goals first | exact numeric_mapLine f operator _ left right | rfl

end Value

theorem Token.blame_mapLine {α : Type} (t : Token) (file : String) (result : Except Fault α) :
    (t.mapLine f).blame file (result.mapError (Fault.mapLines f)) =
      (t.blame file result).mapError (Diagnostic.mapLines f) := by
  cases result <;> rfl

/-- An expression with its operators on other lines has the same value, or fails on those
lines. -/
theorem Expr.eval_mapLines (file : String) (e : Expr) :
    (e.mapLines f).eval file = (e.eval file).mapError (Diagnostic.mapLines f) := by
  induction e with
  | literal value => rfl
  | grouping inner ih => exact ih
  | unary operator operand ih =>
    rw [mapLines, eval, eval, ih]
    cases operand.eval file with
    | error d => rfl
    | ok v =>
      change (operator.mapLine f).blame file _ = (operator.blame file _).mapError _
      rw [Value.unary_mapLine, Token.blame_mapLine]
  | binary operator left right ihl ihr =>
    rw [mapLines, eval, eval, ihl, ihr]
    cases left.eval file with
    | error d => rfl
    | ok v =>
      cases right.eval file with
      | error d => rfl
      | ok w =>
        change (operator.mapLine f).blame file _ = (operator.blame file _).mapError _
        rw [Value.binary_mapLine, Token.blame_mapLine]

theorem Stmt.output_mapLines (file : String) (statement : Stmt) :
    (statement.mapLines f).output file =
      (statement.output file).mapError (Diagnostic.mapLines f) := by
  cases statement with
  | expression e =>
    rw [mapLines, output, output, Expr.eval_mapLines]
    cases e.eval file <;> rfl
  | print e =>
    rw [mapLines, output, output, Expr.eval_mapLines]
    cases e.eval file <;> rfl

end Scriptlet

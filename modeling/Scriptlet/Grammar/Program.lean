import Scriptlet.Grammar.Expression
/-!
# Reading programs

A program is a sequence of statements, each closed by a semicolon.  A program that is
one expression without a semicolon prints that expression.
-/

namespace Scriptlet

namespace Grammar

open Reader

/-- An expression to print; the token in place of the word is not looked at. -/
def printStatement : Reader Stmt := do
  let _ ← advance
  let e ← expression .default
  let _ ← expect .semicolon "expect ';' after value."
  return .print e

def closeExpression (e : Expr) : Reader Stmt := do
  let _ ← expect .semicolon "expect ';' after expression."
  return .expression e

def expressionStatement : Reader Stmt := do
  closeExpression (← expression .default)

def statement : Reader Stmt := do
  if (← current).kind.beginsStatement then printStatement else expressionStatement

/-- The first statement: an expression with nothing behind it is printed. -/
def opening : Reader Stmt := do
  if (← current).kind.beginsStatement then statement
  else
    let e ← expression .default
    if ← hasTokens then closeExpression e else return .print e

/-- Statements up to the end; each takes a token, so the bound is never met first. -/
def statements : Nat → Reader (List Stmt)
  | 0 => return []
  | bound + 1 => do
    if ← hasTokens then
      let first ← statement
      let others ← statements bound
      return first :: others
    else return []

def program : Reader (List Stmt) := fun c =>
  (do
    if ← hasTokens then
      let first ← opening
      let others ← statements c.remaining
      return first :: others
    else return []) c

end Grammar

def Stmt.ofTokens (tokens : List Token) (file : String) : Except Diagnostic (List Stmt) :=
  Grammar.program.onTokens tokens file

end Scriptlet

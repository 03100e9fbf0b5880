import Scriptlet.Token
import Scriptlet.Value
/-!
# Expressions and statements

Expressions are trees whose operators are the tokens they were read from.  They are
written with the operator in front and brackets around every part.
-/

namespace Scriptlet

inductive Expr where
  | literal (value : Value)
  | grouping (inner : Expr)
  | unary (operator : Token) (operand : Expr)
  | binary (operator : Token) (left right : Expr)
deriving DecidableEq

namespace Expr

def text : Expr → String
  | literal value => value.literalText
  | grouping inner => "(group " ++ inner.text ++ ")"
  | unary operator operand => "(" ++ operator.lexeme ++ " " ++ operand.text ++ ")"
  | binary operator left right =>
    "(" ++ operator.lexeme ++ " " ++ left.text ++ " " ++ right.text ++ ")"

/-- The same tree, with the lines of the operators counted in and with numbers
compared as numbers. -/
def equal : Expr → Expr → Bool
  | literal u, literal v => u.equal v
  | grouping a, grouping b => a.equal b
  | unary o a, unary p b => o.equal p && a.equal b
  | binary o a b, binary p c d => a.equal c && o.equal p && b.equal d
  | _, _ => false

def parts : Expr → List Expr
  | literal value => [literal value]
  | grouping inner => grouping inner :: inner.parts
  | unary operator operand => unary operator operand :: operand.parts
  | binary operator left right => binary operator left right :: (left.parts ++ right.parts)

end Expr

inductive Stmt where
  | expression (e : Expr)
  | print (e : Expr)
deriving DecidableEq

namespace Stmt

def expr : Stmt → Expr
  | expression e => e
  | print e => e

def text : Stmt → String
  | expression e => "(expr " ++ e.text ++ ")"
  | print e => "(print " ++ e.text ++ ")"

def equal : Stmt → Stmt → Bool
  | expression a, expression b => a.equal b
  | print a, print b => a.equal b
  | _, _ => false

end Stmt

end Scriptlet

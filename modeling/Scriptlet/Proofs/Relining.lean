import Mathlib.Data.List.Forall2
import Scriptlet.Expr
import Scriptlet.Source.Tokens
/-!
# Changing lines

Tokens, the trees that have them as operators and the diagnostics that name them can be
moved to other lines and keep all the rest.  Two of them differ in their lines only when
they are the same after every line has been set to zero.
-/

namespace Scriptlet

def Token.mapLine (f : Nat → Nat) (t : Token) : Token := { t with line := f t.line }

def Expr.mapLines (f : Nat → Nat) : Expr → Expr
  | literal value => literal value
  | grouping inner => grouping (inner.mapLines f)
  | unary operator operand => unary (operator.mapLine f) (operand.mapLines f)
  | binary operator left right =>
    binary (operator.mapLine f) (left.mapLines f) (right.mapLines f)

def Stmt.mapLines (f : Nat → Nat) : Stmt → Stmt
  | expression e => expression (e.mapLines f)
  | print e => print (e.mapLines f)

def Fault.mapLines (f : Nat → Nat) : Fault → Fault
  | operandMustBeNumber operator operand => operandMustBeNumber (operator.mapLine f) operand
  | operandsMustBeNumbers operator operand => operandsMustBeNumbers (operator.mapLine f) operand
  | operandsMustBeNumbersOrStrings operator =>
    operandsMustBeNumbersOrStrings (operator.mapLine f)
  | unsupportedOperator operator => unsupportedOperator (operator.mapLine f)
  | fault => fault

def Diagnostic.mapLines (f : Nat → Nat) (d : Diagnostic) : Diagnostic :=
  ⟨d.fault.mapLines f, ⟨f d.position.line, d.position.file⟩⟩

def Diagnostic.unlined (d : Diagnostic) : Diagnostic := d.mapLines fun _ => 0

@[simp] theorem Token.kind_mapLine (f : Nat → Nat) (t : Token) : (t.mapLine f).kind = t.kind := rfl

theorem Fault.mapLines_of_operator? {fault : Fault} (h : fault.operator? = none)
    (f : Nat → Nat) : fault.mapLines f = fault := by
  cases fault <;> first | rfl | cases h

theorem Fault.operator?_ofUncut (c : Char) : (ofUncut c).operator? = none := by
  unfold ofUncut
  split <;> rfl

namespace Token

/-- Two tokens that can differ in their lines only. -/
structure Agrees (t u : Token) : Prop where
  kind : t.kind = u.kind
  lexeme : t.lexeme = u.lexeme
  literal : t.literal = u.literal

theorem Agrees.mapLine_eq {t u : Token} (h : t.Agrees u) (line : Nat) :
    t.mapLine (fun _ => line) = u.mapLine fun _ => line := by
  rw [mapLine, mapLine, h.kind, h.lexeme, h.literal]

theorem map_mapLine_eq_of_agrees {ts us : List Token} (h : List.Forall₂ Agrees ts us)
    (line : Nat) : ts.map (mapLine fun _ => line) = us.map (mapLine fun _ => line) := by
  induction h with
  | nil => rfl
  | cons hagrees _ ih => rw [List.map_cons, List.map_cons, hagrees.mapLine_eq, ih]

end Token

end Scriptlet

import Scriptlet.Proofs.Evaluation.Operators
/-!
# Evaluation by types

Whether an operator can be applied, and the type of what it yields, is a matter of the types
of its operands alone.  So an expression can be evaluated on types, and expressions that
differ in nothing but the values of their literals have values of one type, or fail alike at
the same operator.
-/

namespace Scriptlet

inductive ValueType where
  | number | string | bool | nil
deriving DecidableEq, Repr

def Value.type : Value → ValueType
  | number _ => .number
  | string _ => .string
  | bool _ => .bool
  | nil => .nil

/-- The fault without the text of the operand that it names. -/
def Fault.bare : Fault → Fault
  | operandMustBeNumber operator _ => operandMustBeNumber operator ""
  | operandsMustBeNumbers operator _ => operandsMustBeNumbers operator ""
  | fault => fault

theorem Fault.name_bare (fault : Fault) : fault.bare.name = fault.name := by
  cases fault <;> rfl

theorem Fault.operator?_bare (fault : Fault) : fault.bare.operator? = fault.operator? := by
  cases fault <;> rfl

def Diagnostic.bare (d : Diagnostic) : Diagnostic := { d with fault := d.fault.bare }

/-! ## Operators on types -/

namespace ValueType

def unary (operator : Token) (operand : ValueType) : Except Fault ValueType :=
  match operator.kind, operand with
  | .dash, number => .ok number
  | .dash, _ => .error (.operandMustBeNumber operator "")
  | .not, _ => .ok bool
  | _, _ => .error (.unsupportedOperator operator)

def numeric (operator : Token) (result : ValueType) : ValueType → ValueType →
    Except Fault ValueType
  | number, number => .ok result
  | _, _ => .error (.operandsMustBeNumbers operator "")

def sum (operator : Token) : ValueType → ValueType → Except Fault ValueType
  | number, number => .ok number
  | string, string => .ok string
  | _, _ => .error (.operandsMustBeNumbersOrStrings operator)

def binary (operator : Token) (left right : ValueType) : Except Fault ValueType :=
  match operator.kind with
  | .plus => sum operator left right
  | .dash | .star | .slash => numeric operator number left right
  | .greater | .greaterEquals | .less | .lessEquals => numeric operator bool left right
  | .equals | .notEquals => .ok bool
  | _ => .error (.unsupportedOperator operator)

end ValueType

namespace Value

theorem type_unary (operator : Token) (operand : Value) :
    ((unary operator operand).map type).mapError Fault.bare =
      ValueType.unary operator operand.type := by
  unfold unary ValueType.unary
  cases operator.kind <;> cases operand <;> rfl

theorem type_numeric {operation : Float → Float → Value} {result : ValueType}
    (hresult : ∀ x y, (operation x y).type = result) (operator : Token) (left right : Value) :
    ((numeric operator operation left right).map type).mapError Fault.bare =
      ValueType.numeric operator result left.type right.type := by
  cases left with
  | number x =>
    cases right with
    | number y => exact congrArg Except.ok (hresult x y)
    | _ => rfl
  | _ => rfl

theorem type_sum (operator : Token) (left right : Value) :
    ((sum operator left right).map type).mapError Fault.bare =
      ValueType.sum operator left.type right.type := by
  cases left <;> cases right <;> rfl

theorem type_binary (operator : Token) (left right : Value) :
    ((binary operator left right).map type).mapError Fault.bare =
      ValueType.binary operator left.type right.type := by
  unfold binary ValueType.binary
  cases operator.kind with
  | plus => exact type_sum operator left right
  | dash | star | slash | greater | greaterEquals | less | lessEquals =>
    refine type_numeric ?_ operator left right
    intro x y
    rfl
  | _ => rfl

end Value

/-! ## Expressions on types -/

/-- The type of the value of an expression, found without the values of its literals. -/
def Expr.type (file : String) : Expr → Except Diagnostic ValueType
  | literal value => .ok value.type
  | grouping inner => inner.type file
  | unary operator operand => do
    let v ← operand.type file
    operator.blame file (ValueType.unary operator v)
  | binary operator left right => do
    let v ← left.type file
    let w ← right.type file
    operator.blame file (ValueType.binary operator v w)

theorem Token.type_blame (t : Token) (file : String) (result : Except Fault Value) :
    ((t.blame file result).map Value.type).mapError Diagnostic.bare =
      t.blame file ((result.map Value.type).mapError Fault.bare) := by
  cases result <;> rfl

/-- Evaluation on types tells whether an expression has a value, the type of that, and the
failure but for the operand that it names. -/
theorem Expr.type_eval (file : String) (e : Expr) :
    ((e.eval file).map Value.type).mapError Diagnostic.bare = e.type file := by
  induction e with
  | literal value => rfl
  | grouping inner ih => exact ih
  | unary operator operand ih =>
    rw [eval, type, ← ih]
    cases operand.eval file with
    | error d => rfl
    | ok v =>
      change ((operator.blame file _).map _).mapError _ = operator.blame file _
      rw [Token.type_blame, Value.type_unary]
  | binary operator left right ihl ihr =>
    rw [eval, type, ← ihl, ← ihr]
    cases left.eval file with
    | error d => rfl
    | ok v =>
      cases right.eval file with
      | error d => rfl
      | ok w =>
        change ((operator.blame file _).map _).mapError _ = operator.blame file _
        rw [Token.type_blame, Value.type_binary]

/-- The trees have the same shape and operators, and literals of the same types. -/
inductive Expr.Alike : Expr → Expr → Prop where
  | literal {u v : Value} (h : u.type = v.type) : Alike (.literal u) (.literal v)
  | grouping {a b : Expr} (h : Alike a b) : Alike (.grouping a) (.grouping b)
  | unary {operator : Token} {a b : Expr} (h : Alike a b) :
      Alike (.unary operator a) (.unary operator b)
  | binary {operator : Token} {a b c d : Expr} (hleft : Alike a c) (hright : Alike b d) :
      Alike (.binary operator a b) (.binary operator c d)

theorem Expr.Alike.type_eq {file : String} {e e' : Expr} (h : e.Alike e') :
    e.type file = e'.type file := by
  induction h with
  | literal h => exact congrArg Except.ok h
  | grouping _ ih => exact ih
  | unary _ ih => rw [type, type, ih]
  | binary _ _ ihl ihr => rw [type, type, ihl, ihr]

/-- **Whether and where an evaluation fails does not depend on data.**  Expressions that
differ in the values of their literals alone, and in no type of one, have values of the same
type, or they fail in the same way at the same operator: all that can differ is the operand
that is named. -/
theorem failure_independent_of_data (file : String) {e e' : Expr} (h : e.Alike e') :
    (∃ v v', e.eval file = .ok v ∧ e'.eval file = .ok v' ∧ v.type = v'.type) ∨
      ∃ d d', e.eval file = .error d ∧ e'.eval file = .error d' ∧
        d.fault.name = d'.fault.name ∧ d.position = d'.position ∧
        (∃ operator ∈ e.operators, d.fault.operator? = some operator ∧
          d'.fault.operator? = some operator) ∧
        d.fault.bare = d'.fault.bare := by
  have heq : ((e.eval file).map Value.type).mapError Diagnostic.bare =
      ((e'.eval file).map Value.type).mapError Diagnostic.bare := by
    rw [Expr.type_eval, Expr.type_eval, h.type_eq]
  cases he : e.eval file with
  | ok v =>
    cases he' : e'.eval file with
    | ok v' =>
      rw [he, he'] at heq
      exact .inl ⟨v, v', rfl, rfl, Except.ok.inj heq⟩
    | error d' =>
      rw [he, he'] at heq
      cases heq
  | error d =>
    cases he' : e'.eval file with
    | ok v' =>
      rw [he, he'] at heq
      cases heq
    | error d' =>
      rw [he, he'] at heq
      have hbare : d.bare = d'.bare := Except.error.inj heq
      have hfault : d.bare.fault = d'.bare.fault := congrArg Diagnostic.fault hbare
      have hposition : d.bare.position = d'.bare.position := congrArg Diagnostic.position hbare
      obtain ⟨operator, hmem, hoperator, _⟩ := Expr.operator_of_eval_error he
      change d.fault.bare = d'.fault.bare at hfault
      refine .inr ⟨d, d', rfl, rfl, ?_, hposition, ⟨operator, hmem, hoperator, ?_⟩, hfault⟩
      · rw [← Fault.name_bare, hfault, Fault.name_bare]
      · rw [← Fault.operator?_bare, ← hfault, Fault.operator?_bare, hoperator]

theorem failure_independent_of_data_star :
    (let star : Token := ⟨.star, "*", none, 3⟩
    let dash : Token := ⟨.dash, "-", none, 2⟩
    let e : Expr := .binary star (.unary dash (.literal (.number (0 / 0))))
      (.grouping (.literal (.string "a")))
    let e' : Expr := .binary star (.unary dash (.literal (.number 1)))
      (.grouping (.literal (.string "\n")))
    e.Alike e' ∧ e.eval "shown" = .error ⟨.operandsMustBeNumbers star "a", ⟨3, "shown"⟩⟩ ∧
      ∃ d', e'.eval "shown" = .error d' ∧ d'.fault.name = "OperandsMustBeNumbers" ∧
        d'.fault.operator? = some star ∧ d'.position = ⟨3, "shown"⟩) := by
  intro star dash e e'
  have halike : e.Alike e' := .binary (.unary (.literal rfl)) (.grouping (.literal rfl))
  have he : e.eval "shown" = .error ⟨.operandsMustBeNumbers star "a", ⟨3, "shown"⟩⟩ := rfl
  refine ⟨halike, he, ?_⟩
  rcases failure_independent_of_data "shown" halike with
    ⟨v, v', hv, _⟩ | ⟨d, d', hd, hd', hname, hposition, ⟨operator, _, hoperator, hoperator'⟩, _⟩
  · cases he.symm.trans hv
  · cases he.symm.trans hd
    cases hoperator
    exact ⟨d', hd', hname.symm, hoperator', hposition.symm⟩

end Scriptlet

import Scriptlet.Kind
/-!
# Levels of precedence

Operators of a higher level bind more tightly.  The operands of one level are the
expressions of the next.
-/

namespace Scriptlet

inductive Level where
  | default | equality | comparison | term | factor | unary | primary
deriving DecidableEq, Repr

namespace Level

def name : Level → String
  | default => "Default"
  | equality => "Equality"
  | comparison => "Comparison"
  | term => "Term"
  | factor => "Factor"
  | unary => "Unary"
  | primary => "Primary"

def rank : Level → Nat
  | default => 0
  | equality => 1
  | comparison => 2
  | term => 3
  | factor => 4
  | unary => 5
  | primary => 6

def next : Level → Level
  | default => equality
  | equality => comparison
  | comparison => term
  | term => factor
  | factor => unary
  | unary => primary
  | primary => primary

def operators : Level → List Kind
  | equality => [.notEquals, .equals]
  | comparison => [.greater, .greaterEquals, .less, .lessEquals]
  | term => [.dash, .plus]
  | factor => [.slash, .star]
  | default | unary | primary => []

def all : List Level := [default, equality, comparison, term, factor, unary, primary]

def ofName? (name : String) : Option Level := all.find? fun level => level.name == name

theorem rank_injective {a b : Level} (h : a.rank = b.rank) : a = b := by
  cases a <;> cases b <;> simp_all [rank]

/-- No operator belongs to two levels. -/
theorem eq_of_mem_operators {kind : Kind} {a b : Level} (ha : kind ∈ a.operators)
    (hb : kind ∈ b.operators) : a = b := by
  cases a <;> simp only [operators, List.mem_cons, List.not_mem_nil, or_false] at ha <;>
    cases b <;> simp only [operators, List.mem_cons, List.not_mem_nil, or_false] at hb <;>
    grind

end Level

namespace Kind

def unaryOperators : List Kind := [.not, .dash]

/-- The kinds of token that are an expression by themselves. -/
def literals : List Kind := [.number, .string, .trueWord, .falseWord, .nilWord]

def beginsPrimary (kind : Kind) : Bool := kind ∈ literals || kind == .openParen

def beginsStatement (kind : Kind) : Bool := kind == .printWord

end Kind

end Scriptlet

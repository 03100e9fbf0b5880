import Scriptlet.Expr
import Scriptlet.Level
/-!
# The grammar of expressions and its trees

The grammar derives trees together with the tokens they are written with, level by
level.  The same trees can be told by their shape alone: an operator has no operand
that binds more loosely than it does, and only its left operand may bind as loosely.
Both descriptions agree, and neither mentions how a tree is read.
-/

namespace Scriptlet

namespace Level

def ofOperator? (kind : Kind) : Option Level := all.find? fun level => kind ∈ level.operators

theorem mem_all (level : Level) : level ∈ all := by
  cases level <;> decide

theorem ofOperator?_eq_some_iff {kind : Kind} {level : Level} :
    ofOperator? kind = some level ↔ kind ∈ level.operators := by
  constructor
  · intro h
    simpa using List.find?_some h
  · intro h
    have hsome : (ofOperator? kind).isSome := by
      rw [ofOperator?, List.find?_isSome]
      exact ⟨level, mem_all level, by simpa using h⟩
    obtain ⟨found, hfound⟩ := Option.isSome_iff_exists.1 hsome
    have hmem : kind ∈ found.operators := by simpa using List.find?_some hfound
    rw [hfound, eq_of_mem_operators hmem h]

theorem ofOperator?_eq_none_iff {kind : Kind} :
    ofOperator? kind = none ↔ ∀ level : Level, kind ∉ level.operators := by
  rw [← Option.not_isSome_iff_eq_none, Option.isSome_iff_exists]
  simp only [ofOperator?_eq_some_iff, not_exists]

theorem rank_le_rank_next (level : Level) : level.rank ≤ level.next.rank := by
  cases level <;> decide

theorem rank_next {level : Level} (h : level ≠ primary) : level.next.rank = level.rank + 1 := by
  cases level <;> simp_all [rank, next]

theorem ne_primary_of_mem_operators {kind : Kind} {level : Level} (h : kind ∈ level.operators) :
    level ≠ primary := by
  rintro rfl
  simp [operators] at h

theorem rank_le_primary (level : Level) : level.rank ≤ primary.rank := by
  cases level <;> decide

end Level

/-- A token that spells a value by itself: a word of the language, or a numeral or a
string with the value that it carries. -/
inductive Token.Spells (t : Token) : Value → Prop where
  | trueWord (h : t.kind = .trueWord) : t.Spells (.bool true)
  | falseWord (h : t.kind = .falseWord) : t.Spells (.bool false)
  | nilWord (h : t.kind = .nilWord) : t.Spells .nil
  | number {x : Float} (h : t.kind = .number) (hx : t.literal = some (.number x)) :
      t.Spells (.number x)
  | string {s : String} (h : t.kind = .string) (hs : t.literal = some (.string s)) :
      t.Spells (.string s)

namespace Expr

/-- How tightly the outermost part of an expression binds. -/
def level : Expr → Level
  | literal _ | grouping _ => .primary
  | unary _ _ => .unary
  | binary operator _ _ => (Level.ofOperator? operator.kind).getD .default

/-- Whether every operator stands where its level allows it: the left operand binds at
least as tightly and the right one more tightly than the operator between them. -/
def WellFormed : Expr → Prop
  | literal _ => True
  | grouping inner => inner.WellFormed
  | unary operator operand =>
    operator.kind ∈ Kind.unaryOperators ∧ Level.unary.rank ≤ operand.level.rank ∧
      operand.WellFormed
  | binary operator left right =>
    ∃ level : Level, operator.kind ∈ level.operators ∧
      level.rank ≤ left.level.rank ∧ level.rank < right.level.rank ∧
      left.WellFormed ∧ right.WellFormed

inductive Yields : Expr → List Token → Prop where
  | literal {t : Token} {value : Value} (h : t.Spells value) : Yields (.literal value) [t]
  | grouping {o c : Token} {inner : Expr} {us : List Token} (ho : o.kind = .openParen)
      (hc : c.kind = .closeParen) (h : Yields inner us) :
      Yields (.grouping inner) (o :: (us ++ [c]))
  | unary {operator : Token} {operand : Expr} {us : List Token} (h : Yields operand us) :
      Yields (.unary operator operand) (operator :: us)
  | binary {operator : Token} {left right : Expr} {us vs : List Token}
      (hl : Yields left us) (hr : Yields right vs) :
      Yields (.binary operator left right) (us ++ operator :: vs)

theorem level_binary {operator : Token} {left right : Expr} {level : Level}
    (h : operator.kind ∈ level.operators) : (binary operator left right).level = level := by
  rw [Expr.level, Level.ofOperator?_eq_some_iff.2 h, Option.getD_some]

end Expr

namespace Grammar

/-- The trees of each level of the grammar, with their tokens. -/
inductive Derives : Level → Expr → List Token → Prop where
  | next {level : Level} {e : Expr} {us : List Token} (h : Derives level.next e us) :
      Derives level e us
  | binary {level : Level} {operator : Token} {left right : Expr} {us vs : List Token}
      (ho : operator.kind ∈ level.operators) (hl : Derives level left us)
      (hr : Derives level.next right vs) :
      Derives level (.binary operator left right) (us ++ operator :: vs)
  | unary {operator : Token} {operand : Expr} {us : List Token}
      (ho : operator.kind ∈ Kind.unaryOperators) (h : Derives .unary operand us) :
      Derives .unary (.unary operator operand) (operator :: us)
  | literal {t : Token} {value : Value} (h : t.Spells value) :
      Derives .primary (.literal value) [t]
  | grouping {o c : Token} {inner : Expr} {us : List Token} (ho : o.kind = .openParen)
      (hc : c.kind = .closeParen) (h : Derives .default inner us) :
      Derives .primary (.grouping inner) (o :: (us ++ [c]))

namespace Derives

variable {level : Level} {e : Expr} {us : List Token}

theorem of_le {a b : Level} (hab : a.rank ≤ b.rank) (h : Derives b e us) :
    Derives a e us := by
  by_cases heq : a = b
  · exact heq ▸ h
  · have hne : a.rank ≠ b.rank := fun hr => heq (Level.rank_injective hr)
    have hprimary : a ≠ .primary := by
      rintro rfl
      have := b.rank_le_primary
      omega
    have hnext := Level.rank_next hprimary
    exact .next (of_le (by omega) h)
termination_by b.rank - a.rank

theorem yields (h : Derives level e us) : e.Yields us := by
  induction h with
  | next _ ih => exact ih
  | binary _ _ _ ihl ihr => exact .binary ihl ihr
  | unary _ _ ih => exact .unary ih
  | literal h => exact .literal h
  | grouping ho hc _ ih => exact .grouping ho hc ih

theorem wellFormed (h : Derives level e us) : e.WellFormed ∧ level.rank ≤ e.level.rank := by
  induction h with
  | @next level e us _ ih => exact ⟨ih.1, Nat.le_trans level.rank_le_rank_next ih.2⟩
  | @binary level operator left right us vs ho _ _ ihl ihr =>
    have hnext := Level.rank_next (Level.ne_primary_of_mem_operators ho)
    rw [Expr.level_binary ho]
    exact ⟨⟨level, ho, ihl.2, by omega, ihl.1, ihr.1⟩, Nat.le_refl _⟩
  | unary ho _ ih => exact ⟨⟨ho, ih.2, ih.1⟩, Nat.le_refl _⟩
  | literal _ => exact ⟨trivial, Nat.le_refl _⟩
  | grouping _ _ _ ih => exact ⟨ih.1, Nat.le_refl _⟩

end Derives

theorem derives_of_yields {e : Expr} {us : List Token} (hy : e.Yields us) (hw : e.WellFormed) :
    Derives e.level e us := by
  induction hy with
  | literal h => exact .literal h
  | grouping ho hc _ ih =>
    exact .grouping ho hc (Derives.of_le (Nat.zero_le _) (ih hw))
  | unary _ ih =>
    obtain ⟨ho, hle, hw⟩ := hw
    exact .unary ho (Derives.of_le hle (ih hw))
  | binary _ _ ihl ihr =>
    obtain ⟨level, ho, hleft, hright, hwl, hwr⟩ := hw
    have hnext := Level.rank_next (Level.ne_primary_of_mem_operators ho)
    rw [Expr.level_binary ho]
    exact .binary ho (Derives.of_le hleft (ihl hwl)) (Derives.of_le (by omega) (ihr hwr))

/-- The grammar derives exactly the well-formed trees, on every level up to their own. -/
theorem derives_iff {level : Level} {e : Expr} {us : List Token} :
    Derives level e us ↔ e.WellFormed ∧ level.rank ≤ e.level.rank ∧ e.Yields us := by
  constructor
  · intro h
    exact ⟨h.wellFormed.1, h.wellFormed.2, h.yields⟩
  · rintro ⟨hw, hle, hy⟩
    exact Derives.of_le hle (derives_of_yields hy hw)

end Grammar

end Scriptlet

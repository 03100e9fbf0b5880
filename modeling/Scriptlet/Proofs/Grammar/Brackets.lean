import Scriptlet.Evaluation
import Scriptlet.Proofs.Grammar.ExpressionLanguage
/-!
# Brackets around every operation

Any tree can be written so that it is read back, whatever binds more tightly: with brackets
around every operation.  The tree that is read has groupings where the brackets stand, and
is the same without them.  Groupings have no part in the value of a tree, nor in its failure.
-/

namespace Scriptlet

namespace Expr

/-- Whether every operator is one that can stand where it does, in front of an operand or
between two, however tightly it binds. -/
def Spellable : Expr → Prop
  | literal _ => True
  | grouping inner => inner.Spellable
  | unary operator operand => operator.kind ∈ Kind.unaryOperators ∧ operand.Spellable
  | binary operator left right =>
    (∃ level : Level, operator.kind ∈ level.operators) ∧ left.Spellable ∧ right.Spellable

/-- The tokens of an expression with brackets around every operation, and around what the
groupings hold. -/
inductive Renders : Expr → List Token → Prop where
  | literal {t : Token} {value : Value} (h : t.Spells value) : Renders (.literal value) [t]
  | grouping {o c : Token} {inner : Expr} {us : List Token} (ho : o.kind = .openParen)
      (hc : c.kind = .closeParen) (h : Renders inner us) :
      Renders (.grouping inner) (o :: (us ++ [c]))
  | unary {o c operator : Token} {operand : Expr} {us : List Token} (ho : o.kind = .openParen)
      (hc : c.kind = .closeParen) (h : Renders operand us) :
      Renders (.unary operator operand) (o :: (operator :: us ++ [c]))
  | binary {o c operator : Token} {left right : Expr} {us vs : List Token}
      (ho : o.kind = .openParen) (hc : c.kind = .closeParen) (hl : Renders left us)
      (hr : Renders right vs) :
      Renders (.binary operator left right) (o :: (us ++ operator :: vs ++ [c]))

def ungrouped : Expr → Expr
  | literal value => literal value
  | grouping inner => inner.ungrouped
  | unary operator operand => unary operator operand.ungrouped
  | binary operator left right => binary operator left.ungrouped right.ungrouped

def bracketed : Expr → Expr
  | literal value => literal value
  | grouping inner => grouping inner.bracketed
  | unary operator operand => grouping (unary operator operand.bracketed)
  | binary operator left right => grouping (binary operator left.bracketed right.bracketed)

theorem ungrouped_bracketed (e : Expr) : e.bracketed.ungrouped = e.ungrouped := by
  induction e with
  | literal _ => rfl
  | grouping _ ih => exact ih
  | unary operator _ ih => exact congrArg (unary operator) ih
  | binary operator _ _ ihl ihr => exact congrArg₂ (binary operator) ihl ihr

/-- Groupings make no difference to what an expression evaluates to. -/
theorem eval_ungrouped (file : String) (e : Expr) : e.ungrouped.eval file = e.eval file := by
  induction e with
  | literal _ => rfl
  | grouping _ ih => exact ih
  | unary operator operand ih => rw [ungrouped, eval, eval, ih]
  | binary operator left right ihl ihr => rw [ungrouped, eval, eval, ihl, ihr]

/-! ## Writing an expression and reading it back -/

theorem exists_spells (value : Value) : ∃ t : Token, t.Spells value := by
  cases value with
  | number x => exact ⟨⟨.number, Number.text x, some (.number x), 1⟩, .number rfl rfl⟩
  | string s => exact ⟨⟨.string, Text.quoted s, some (.string s), 1⟩, .string rfl rfl⟩
  | bool b =>
    cases b with
    | true => exact ⟨⟨.trueWord, "true", none, 1⟩, .trueWord rfl⟩
    | false => exact ⟨⟨.falseWord, "false", none, 1⟩, .falseWord rfl⟩
  | nil => exact ⟨⟨.nilWord, "nil", none, 1⟩, .nilWord rfl⟩

theorem exists_renders (e : Expr) : ∃ us, e.Renders us := by
  let o : Token := ⟨.openParen, "(", none, 1⟩
  let c : Token := ⟨.closeParen, ")", none, 1⟩
  induction e with
  | literal value =>
    obtain ⟨t, ht⟩ := exists_spells value
    exact ⟨_, .literal ht⟩
  | grouping _ ih =>
    obtain ⟨us, hus⟩ := ih
    exact ⟨_, .grouping (o := o) (c := c) rfl rfl hus⟩
  | unary _ _ ih =>
    obtain ⟨us, hus⟩ := ih
    exact ⟨_, .unary (o := o) (c := c) rfl rfl hus⟩
  | binary _ _ _ ihl ihr =>
    obtain ⟨us, hus⟩ := ihl
    obtain ⟨vs, hvs⟩ := ihr
    exact ⟨_, .binary (o := o) (c := c) rfl rfl hus hvs⟩

/-- Brackets make a primary expression of every operation, so its operands can stand on any
level. -/
theorem Renders.derives {e : Expr} {us : List Token} (h : e.Renders us) (he : e.Spellable) :
    Grammar.Derives .primary e.bracketed us := by
  induction h with
  | literal h => exact .literal h
  | grouping ho hc _ ih => exact .grouping ho hc ((ih he).of_le (Nat.zero_le _))
  | unary ho hc _ ih =>
    obtain ⟨hkind, hoperand⟩ := he
    have hunary := Grammar.Derives.unary hkind ((ih hoperand).of_le (Level.rank_le_primary _))
    exact .grouping ho hc (hunary.of_le (Nat.zero_le _))
  | binary ho hc _ _ ihl ihr =>
    obtain ⟨⟨level, hkind⟩, hleft, hright⟩ := he
    have hbinary := Grammar.Derives.binary hkind ((ihl hleft).of_le level.rank_le_primary)
      ((ihr hright).of_le level.next.rank_le_primary)
    exact .grouping ho hc (hbinary.of_le (Nat.zero_le _))

/-- **Brackets force any tree and mean nothing else.**  A tree of the operators of the
language, whatever stands in it as whose operand, can be written with brackets around every
operation.  The tokens are read as a tree that is the same without groupings, and that
evaluates to the same. -/
theorem brackets_force_tree (e : Expr) (he : e.Spellable) :
    (∃ us, e.Renders us) ∧
    ∀ us, e.Renders us → ∀ file, ∃ e', Expr.ofTokens us file = .ok e' ∧
      e'.ungrouped = e.ungrouped ∧ ∀ label, e'.eval label = e.eval label := by
  refine ⟨e.exists_renders, ?_⟩
  intro us hus file
  refine ⟨e.bracketed, ?_, e.ungrouped_bracketed, ?_⟩
  · exact ofTokens_of_derives file ((hus.derives he).of_le (Nat.zero_le _))
  · intro label
    rw [← eval_ungrouped, ungrouped_bracketed, eval_ungrouped]

theorem brackets_force_negated_sum :
    let o : Token := ⟨.openParen, "(", none, 1⟩
    let c : Token := ⟨.closeParen, ")", none, 3⟩
    let dash : Token := ⟨.dash, "-", none, 1⟩
    let plus : Token := ⟨.plus, "+", none, 2⟩
    let text (s : String) : Token := ⟨.string, s, some (.string s), 2⟩
    let e : Expr := .unary dash (.binary plus (.literal (.string "a")) (.literal (.string "b")))
    ∃ e', Expr.ofTokens [o, dash, o, text "a", plus, text "b", c, c] "bracketed" = .ok e' ∧
      e'.ungrouped = e ∧
      e'.eval "bracketed" = .error ⟨.operandMustBeNumber dash "ab", ⟨1, "bracketed"⟩⟩ := by
  intro o c dash plus text e
  have hspellable : e.Spellable := ⟨by decide, ⟨.term, by decide⟩, trivial, trivial⟩
  have hrenders : e.Renders [o, dash, o, text "a", plus, text "b", c, c] :=
    .unary rfl rfl (.binary rfl rfl (.literal (.string rfl rfl)) (.literal (.string rfl rfl)))
  obtain ⟨e', hread, hsame, heval⟩ :=
    (brackets_force_tree e hspellable).2 _ hrenders "bracketed"
  exact ⟨e', hread, hsame, (heval _).trans rfl⟩

end Expr

end Scriptlet

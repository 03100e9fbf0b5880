import Scriptlet.Proofs.Evaluation.Operators
import Scriptlet.Proofs.Session.Transcript
/-!
# What can go wrong in what was read

The operators of a tree that was read are ones that the evaluation knows, in front of an
operand and between two.  So none of them is unsupported: all that can go wrong is that
the values of the operands do not suit the operator, or that a text is refused.
-/

namespace Scriptlet

def Kind.numeric : List Kind :=
  [.dash, .star, .slash, .greater, .greaterEquals, .less, .lessEquals]

/-- What goes wrong at an operator that is applied to values that do not suit it. -/
inductive Fault.Misapplies : Fault → Token → Prop where
  | negation {operator : Token} {operand : String} (h : operator.kind = .dash) :
      Misapplies (.operandMustBeNumber operator operand) operator
  | arithmetic {operator : Token} {operand : String} (h : operator.kind ∈ Kind.numeric) :
      Misapplies (.operandsMustBeNumbers operator operand) operator
  | sum {operator : Token} (h : operator.kind = .plus) :
      Misapplies (.operandsMustBeNumbersOrStrings operator) operator

/-- The diagnostic is about a misapplied operator among some tokens, and on its line. -/
def Diagnostic.Misapplies (d : Diagnostic) (tokens : List Token) (file : String) : Prop :=
  ∃ operator ∈ tokens, d.fault.Misapplies operator ∧ d.position = ⟨operator.line, file⟩

theorem Diagnostic.Misapplies.supported {d : Diagnostic} {tokens : List Token} {file : String}
    (h : d.Misapplies tokens file) (operator : Token) :
    d.fault ≠ .unsupportedOperator operator := by
  obtain ⟨fault, position⟩ := d
  obtain ⟨other, _, hfault, _⟩ := h
  cases hfault <;> nofun

namespace Value

variable {operator : Token} {left right operand : Value} {fault : Fault}

theorem misapplies_of_unary (hkind : operator.kind ∈ Kind.unaryOperators)
    (h : unary operator operand = .error fault) : fault.Misapplies operator := by
  unfold unary at h
  split at h
  case h_1 => cases h
  case h_2 hdash _ =>
    cases h
    exact .negation hdash
  case h_3 => cases h
  case h_4 hdash hnot _ =>
    -- neither of the two operators is left over
    simp only [Kind.unaryOperators, List.mem_cons, List.not_mem_nil, or_false] at hkind
    rcases hkind with hkind | hkind
    · exact absurd hkind hnot
    · exact absurd hkind hdash

theorem misapplies_of_numeric {operation : Float → Float → Value}
    (hkind : operator.kind ∈ Kind.numeric)
    (h : numeric operator operation left right = .error fault) : fault.Misapplies operator := by
  unfold numeric at h
  split at h
  case h_1 => cases h
  all_goals
    cases h
    exact .arithmetic hkind

theorem misapplies_of_sum (hkind : operator.kind = .plus)
    (h : sum operator left right = .error fault) : fault.Misapplies operator := by
  unfold sum at h
  split at h <;> cases h
  exact .sum hkind

theorem misapplies_of_binary {level : Level} (hkind : operator.kind ∈ level.operators)
    (h : binary operator left right = .error fault) : fault.Misapplies operator := by
  unfold binary at h
  split at h
  case h_1 hplus => exact misapplies_of_sum hplus h
  case h_9 | h_10 => cases h
  case h_11 =>
    -- every operator of a level has a case of its own
    cases level <;> simp_all [Level.operators]
  all_goals
    rename_i hnumeric
    exact misapplies_of_numeric (by rw [hnumeric]; decide) h

end Value

namespace Expr

variable {file : String} {e part : Expr} {d : Diagnostic}

theorem WellFormed.of_mem_parts (h : e.WellFormed) (hpart : part ∈ e.parts) :
    part.WellFormed := by
  induction e with
  | literal _ =>
    rw [List.eq_of_mem_singleton hpart]
    exact h
  | grouping inner ih =>
    rcases List.mem_cons.1 hpart with rfl | hpart
    · exact h
    · exact ih h hpart
  | unary operator operand ih =>
    rcases List.mem_cons.1 hpart with rfl | hpart
    · exact h
    · exact ih h.2.2 hpart
  | binary operator left right ihl ihr =>
    rcases List.mem_cons.1 hpart with rfl | hpart
    · exact h
    obtain ⟨_, _, _, _, hleft, hright⟩ := h
    rcases List.mem_append.1 hpart with hpart | hpart
    · exact ihl hleft hpart
    · exact ihr hright hpart

theorem misapplies_of_eval_error (hw : e.WellFormed) (h : e.eval file = .error d) :
    d.Misapplies e.operators file := by
  obtain ⟨part, hmem, hfails⟩ := part_of_eval_error h
  have hsubset := operators_subset_of_mem_parts hmem
  have hpart := hw.of_mem_parts hmem
  cases hfails with
  | @unary operator _ _ _ _ hfault =>
    exact ⟨operator, hsubset List.mem_cons_self, Value.misapplies_of_unary hpart.1 hfault, rfl⟩
  | @binary operator _ _ _ _ _ _ _ hfault =>
    obtain ⟨_, hkind, _⟩ := hpart
    exact ⟨operator, hsubset (List.mem_append_right _ List.mem_cons_self),
      Value.misapplies_of_binary hkind hfault, rfl⟩

end Expr

theorem Diagnostic.Misapplies.of_yields {file : String} {e : Expr} {us tokens : List Token}
    {d : Diagnostic} (h : d.Misapplies e.operators file) (hy : e.Yields us) (hus : us ⊆ tokens) :
    d.Misapplies tokens file := by
  obtain ⟨operator, hmem, hblamed⟩ := h
  exact ⟨operator, hus (hy.mem_of_operators hmem), hblamed⟩

/-- **What was read holds no operator that the evaluation does not know.**  A program that
was read from some tokens fails only because a text is refused, or at one of those tokens,
which is an operator on the line of the diagnostic that its operands do not suit; and so
does an expression, which writes nothing. -/
theorem read_operators_are_supported (tokens : List Token) (origin file : String) :
    (∀ program sink sink' d, Stmt.ofTokens tokens origin = .ok program →
      Stmt.interpret file program sink = .error d sink' →
        (∀ operator, d.fault ≠ .unsupportedOperator operator) ∧
        ((∃ reason, d = ⟨.outputFailed reason, ⟨0, file⟩⟩) ∨ d.Misapplies tokens file)) ∧
    ∀ e d, Expr.ofTokens tokens origin = .ok e → e.eval file = .error d →
      (∀ operator, d.fault ≠ .unsupportedOperator operator) ∧ d.Misapplies tokens file := by
  constructor
  · intro program sink sink' d hread hrun
    rcases Stmt.interpret_error hrun with ⟨reason, rfl⟩ | ⟨statement, hmem, heval⟩
    · exact ⟨nofun, .inl ⟨reason, rfl⟩⟩
    · obtain ⟨us, hus, hw, hy⟩ := Stmt.expr_yields_of_ofTokens hread hmem
      have hmisapplies := (Expr.misapplies_of_eval_error hw heval).of_yields hy hus
      exact ⟨hmisapplies.supported, .inr hmisapplies⟩
  · intro e d hread heval
    obtain ⟨hw, hy⟩ := Grammar.derives_iff_yields.1 (Expr.ofTokens_eq_ok_iff.1 hread)
    have hbefore : Token.beforeEnd tokens ⊆ tokens := (List.takeWhile_prefix _).subset
    have hmisapplies := (Expr.misapplies_of_eval_error hw heval).of_yields hy hbefore
    exact ⟨hmisapplies.supported, hmisapplies⟩

theorem read_operators_are_supported_dash :
    (let d : Diagnostic := ⟨.operandMustBeNumber ⟨.dash, "-", none, 2⟩ "a", ⟨2, "shown"⟩⟩
    let program : List Stmt := [.print (.unary ⟨.dash, "-", none, 2⟩ (.literal (.string "a")))]
    let tokens : List Token := [⟨.printWord, "print", none, 1⟩, ⟨.dash, "-", none, 2⟩,
      ⟨.string, "\"a\"", some (.string "a"), 2⟩, ⟨.semicolon, ";", none, 3⟩]
    Stmt.ofTokens tokens "read" = .ok program ∧
      Stmt.interpret "shown" program Sink.unlimited = .error d Sink.unlimited ∧
      ((∃ reason, d = ⟨.outputFailed reason, ⟨0, "shown"⟩⟩) ∨ d.Misapplies tokens "shown")) ∧
    (let d : Diagnostic := ⟨.operandsMustBeNumbersOrStrings ⟨.plus, "+", none, 2⟩, ⟨2, "shown"⟩⟩
    let e : Expr := .binary ⟨.plus, "+", none, 2⟩ (.literal .nil) (.literal (.bool true))
    let tokens : List Token := [⟨.nilWord, "nil", none, 1⟩, ⟨.plus, "+", none, 2⟩,
      ⟨.trueWord, "true", none, 3⟩]
    Expr.ofTokens tokens "read" = .ok e ∧ e.eval "shown" = .error d ∧
      d.Misapplies tokens "shown") :=
  ⟨⟨rfl, rfl, ((read_operators_are_supported _ "read" "shown").1 _ Sink.unlimited Sink.unlimited _
      rfl rfl).2⟩,
    ⟨rfl, rfl, ((read_operators_are_supported _ "read" "shown").2 _ _ rfl rfl).2⟩⟩

end Scriptlet

import Scriptlet.Proofs.Grammar.ProgramLanguage
import Scriptlet.Session
/-!
# The operator to blame

An evaluation that fails names an operator of the expression, and its line.  A program
fails with one of its expressions or because a text is refused, and the operators of its
expressions are among the tokens it was read from.
-/

namespace Scriptlet

variable {file : String} {e : Expr} {us : List Token} {t : Token} {d : Diagnostic}

def Expr.operators : Expr → List Token
  | literal _ => []
  | grouping inner => inner.operators
  | unary operator operand => operator :: operand.operators
  | binary operator left right => left.operators ++ operator :: right.operators

theorem Expr.Yields.mem_of_operators (h : e.Yields us) (ht : t ∈ e.operators) : t ∈ us := by
  induction h with
  | literal _ => cases ht
  | grouping _ _ _ ih => exact List.mem_cons_of_mem _ (List.mem_append_left _ (ih ht))
  | unary _ ih =>
    rcases List.mem_cons.1 ht with rfl | ht
    · exact List.mem_cons_self
    · exact List.mem_cons_of_mem _ (ih ht)
  | binary _ _ ihl ihr =>
    rcases List.mem_append.1 ht with ht | ht
    · exact List.mem_append_left _ (ihl ht)
    · apply List.mem_append_right
      rcases List.mem_cons.1 ht with rfl | ht
      · exact List.mem_cons_self
      · exact List.mem_cons_of_mem _ (ihr ht)

theorem Expr.WellFormed.kind_of_operators (h : e.WellFormed) (ht : t ∈ e.operators) :
    t.kind ∈ Kind.unaryOperators ∨ ∃ level : Level, t.kind ∈ level.operators := by
  induction e with
  | literal _ => cases ht
  | grouping inner ih => exact ih h ht
  | unary operator operand ih =>
    rcases List.mem_cons.1 ht with rfl | ht
    · exact .inl h.1
    · exact ih h.2.2 ht
  | binary operator left right ihl ihr =>
    obtain ⟨level, hkind, _, _, hleft, hright⟩ := h
    rcases List.mem_append.1 ht with ht | ht
    · exact ihl hleft ht
    rcases List.mem_cons.1 ht with rfl | ht
    · exact .inr ⟨level, hkind⟩
    · exact ihr hright ht

/-! ## Failing evaluations -/

theorem Value.operator?_of_unary {operator : Token} {operand : Value} {fault : Fault}
    (h : unary operator operand = .error fault) : fault.operator? = some operator := by
  unfold unary at h
  split at h <;> cases h <;> rfl

theorem Value.operator?_of_numeric {operator : Token} {operation : Float → Float → Value}
    {left right : Value} {fault : Fault}
    (h : numeric operator operation left right = .error fault) :
    fault.operator? = some operator := by
  unfold numeric at h
  split at h <;> cases h <;> rfl

theorem Value.operator?_of_sum {operator : Token} {left right : Value} {fault : Fault}
    (h : sum operator left right = .error fault) : fault.operator? = some operator := by
  unfold sum at h
  split at h <;> cases h
  rfl

theorem Value.operator?_of_binary {operator : Token} {left right : Value} {fault : Fault}
    (h : binary operator left right = .error fault) : fault.operator? = some operator := by
  unfold binary at h
  split at h
  case h_1 => exact operator?_of_sum h
  all_goals first | exact operator?_of_numeric h | cases h <;> rfl

theorem Token.of_blame_error {α : Type} {result : Except Fault α}
    (h : t.blame file result = .error d) :
    result = .error d.fault ∧ d.position = ⟨t.line, file⟩ := by
  cases result <;> cases h
  exact ⟨rfl, rfl⟩

theorem Expr.eval_unary_of_ok {operator : Token} {operand : Expr} {v : Value}
    (hv : operand.eval file = .ok v) :
    (unary operator operand).eval file = operator.blame file (Value.unary operator v) := by
  rw [eval, hv]
  rfl

theorem Expr.eval_binary_of_ok {operator : Token} {left right : Expr} {v w : Value}
    (hv : left.eval file = .ok v) (hw : right.eval file = .ok w) :
    (binary operator left right).eval file =
      operator.blame file (Value.binary operator v w) := by
  rw [eval, hv, hw]
  rfl

/-- The operator at the top of an expression is the one that cannot be applied: its operands
have values, and it refuses those. -/
inductive Expr.Fails (file : String) : Expr → Diagnostic → Prop where
  | unary {operator : Token} {operand : Expr} {v : Value} {fault : Fault}
      (hv : operand.eval file = .ok v) (h : Value.unary operator v = .error fault) :
      Fails file (.unary operator operand) ⟨fault, ⟨operator.line, file⟩⟩
  | binary {operator : Token} {left right : Expr} {v w : Value} {fault : Fault}
      (hv : left.eval file = .ok v) (hw : right.eval file = .ok w)
      (h : Value.binary operator v w = .error fault) :
      Fails file (.binary operator left right) ⟨fault, ⟨operator.line, file⟩⟩

theorem Expr.fails_of_unary {operator : Token} {operand : Expr}
    (h : (unary operator operand).eval file = .error d) :
    operand.eval file = .error d ∨
      (∃ v, operand.eval file = .ok v) ∧ (unary operator operand).Fails file d := by
  rw [eval] at h
  cases hoperand : operand.eval file with
  | error d' =>
    rw [hoperand] at h
    cases h
    exact .inl rfl
  | ok v =>
    rw [hoperand] at h
    obtain ⟨hfault, hposition⟩ := Token.of_blame_error h
    obtain ⟨fault, position⟩ := d
    cases hposition
    exact .inr ⟨⟨v, rfl⟩, .unary hoperand hfault⟩

theorem Expr.fails_of_binary {operator : Token} {left right : Expr}
    (h : (binary operator left right).eval file = .error d) :
    left.eval file = .error d ∨ (∃ v, left.eval file = .ok v) ∧ (right.eval file = .error d ∨
      (∃ w, right.eval file = .ok w) ∧ (binary operator left right).Fails file d) := by
  rw [eval] at h
  cases hleft : left.eval file with
  | error d' =>
    rw [hleft] at h
    cases h
    exact .inl rfl
  | ok v =>
    rw [hleft] at h
    refine .inr ⟨⟨v, rfl⟩, ?_⟩
    cases hright : right.eval file with
    | error d' =>
      rw [hright] at h
      cases h
      exact .inl rfl
    | ok w =>
      rw [hright] at h
      obtain ⟨hfault, hposition⟩ := Token.of_blame_error h
      obtain ⟨fault, position⟩ := d
      cases hposition
      exact .inr ⟨⟨w, rfl⟩, .binary hleft hright hfault⟩

/-- A failing evaluation fails at the top of one part of the expression. -/
theorem Expr.part_of_eval_error (h : e.eval file = .error d) :
    ∃ part ∈ e.parts, part.Fails file d := by
  induction e with
  | literal _ => cases h
  | grouping inner ih =>
    obtain ⟨part, hmem, hfails⟩ := ih h
    exact ⟨part, List.mem_cons_of_mem _ hmem, hfails⟩
  | unary operator operand ih =>
    rcases fails_of_unary h with h | ⟨_, hfails⟩
    · obtain ⟨part, hmem, hfails⟩ := ih h
      exact ⟨part, List.mem_cons_of_mem _ hmem, hfails⟩
    · exact ⟨_, List.mem_cons_self, hfails⟩
  | binary operator left right ihl ihr =>
    rcases fails_of_binary h with h | ⟨_, h | ⟨_, hfails⟩⟩
    · obtain ⟨part, hmem, hfails⟩ := ihl h
      exact ⟨part, List.mem_cons_of_mem _ (List.mem_append_left _ hmem), hfails⟩
    · obtain ⟨part, hmem, hfails⟩ := ihr h
      exact ⟨part, List.mem_cons_of_mem _ (List.mem_append_right _ hmem), hfails⟩
    · exact ⟨_, List.mem_cons_self, hfails⟩

theorem Expr.operators_subset_of_mem_parts {part : Expr} (h : part ∈ e.parts) :
    part.operators ⊆ e.operators := by
  induction e with
  | literal value =>
    rw [List.eq_of_mem_singleton h]
    exact fun _ ht => ht
  | grouping inner ih =>
    rcases List.mem_cons.1 h with rfl | h
    · exact fun _ ht => ht
    · exact ih h
  | unary operator operand ih =>
    rcases List.mem_cons.1 h with rfl | h
    · exact fun _ ht => ht
    · exact fun t ht => List.mem_cons_of_mem _ (ih h ht)
  | binary operator left right ihl ihr =>
    rcases List.mem_cons.1 h with rfl | h
    · exact fun _ ht => ht
    rcases List.mem_append.1 h with h | h
    · exact fun t ht => List.mem_append_left _ (ihl h ht)
    · exact fun t ht => List.mem_append_right _ (List.mem_cons_of_mem _ (ihr h ht))

/-- A failing evaluation names an operator of the expression and stands on its line. -/
theorem Expr.operator_of_eval_error (h : e.eval file = .error d) :
    ∃ operator ∈ e.operators, d.fault.operator? = some operator ∧
      d.position = ⟨operator.line, file⟩ := by
  obtain ⟨part, hmem, hfails⟩ := part_of_eval_error h
  have hsubset := operators_subset_of_mem_parts hmem
  cases hfails with
  | @unary operator _ _ _ _ hfault =>
    exact ⟨operator, hsubset List.mem_cons_self, Value.operator?_of_unary hfault, rfl⟩
  | @binary operator _ _ _ _ _ _ _ hfault =>
    exact ⟨operator, hsubset (List.mem_append_right _ List.mem_cons_self),
      Value.operator?_of_binary hfault, rfl⟩

namespace Stmt

variable {program : List Stmt} {statement : Stmt} {sink sink' : Sink}

theorem output_eq_error_iff :
    statement.output file = .error d ↔ statement.expr.eval file = .error d := by
  cases statement with
  | expression e | print e =>
    rw [output, expr]
    cases e.eval file <;> simp [bind, Except.bind, pure, Except.pure]

theorem execute_error (h : statement.execute file sink = .error d sink') :
    (∃ reason, d = ⟨.outputFailed reason, ⟨0, file⟩⟩) ∨
      statement.expr.eval file = .error d := by
  unfold execute at h
  cases houtput : statement.output file with
  | error d' =>
    rw [houtput] at h
    cases h
    exact .inr (output_eq_error_iff.1 houtput)
  | ok text =>
    rw [houtput] at h
    dsimp only at h
    split at h <;> cases h
    exact .inl ⟨_, rfl⟩

theorem interpret_error (h : interpret file program sink = .error d sink') :
    (∃ reason, d = ⟨.outputFailed reason, ⟨0, file⟩⟩) ∨
      ∃ statement ∈ program, statement.expr.eval file = .error d := by
  induction program generalizing sink with
  | nil => cases h
  | cons first others ih =>
    change EStateM.bind (execute file first) (fun _ => interpret file others) sink = _ at h
    unfold EStateM.bind at h
    cases hfirst : execute file first sink with
    | error d' sink₁ =>
      rw [hfirst] at h
      cases h
      rcases execute_error hfirst with hrefused | heval
      · exact .inl hrefused
      · exact .inr ⟨first, List.mem_cons_self, heval⟩
    | ok _ sink₁ =>
      rw [hfirst] at h
      rcases ih h with hrefused | ⟨statement, hmem, heval⟩
      · exact .inl hrefused
      · exact .inr ⟨statement, List.mem_cons_of_mem _ hmem, heval⟩

theorem Yields.expr_yields (h : statement.Yields us) :
    ∃ vs, vs ⊆ us ∧ statement.expr.WellFormed ∧ statement.expr.Yields vs := by
  cases h with
  | @print w s e us _ _ he hy =>
    exact ⟨us, fun t ht => List.mem_cons_of_mem _ (List.mem_append_left _ ht), he, hy⟩
  | @expression s e us _ he hy => exact ⟨us, fun t ht => List.mem_append_left _ ht, he, hy⟩

theorem exists_yields_of_mem {segments : List (List Token)}
    (h : List.Forall₂ Yields program segments) (hmem : statement ∈ program) :
    ∃ us ∈ segments, statement.Yields us := by
  induction h with
  | nil => cases hmem
  | @cons first us program segments hyields _ ih =>
    rcases List.mem_cons.1 hmem with rfl | hmem
    · exact ⟨us, List.mem_cons_self, hyields⟩
    · obtain ⟨vs, hvs, hyields'⟩ := ih hmem
      exact ⟨vs, List.mem_cons_of_mem _ hvs, hyields'⟩

theorem expr_yields_of_ofTokens {tokens : List Token} (h : ofTokens tokens file = .ok program)
    (hmem : statement ∈ program) :
    ∃ us, us ⊆ tokens ∧ statement.expr.WellFormed ∧ statement.expr.Yields us := by
  have hbefore : Token.beforeEnd tokens ⊆ tokens := (List.takeWhile_prefix _).subset
  rw [ofTokens, Reader.onTokens_eq_ok_iff, Grammar.program_eq_ok_iff, Cursor.ahead_ofTokens] at h
  rcases h with ⟨_, rfl⟩ | ⟨e, hderives, rfl⟩ | ⟨_, segments, hflatten, hall⟩
  · cases hmem
  · obtain ⟨he, hy⟩ := Grammar.derives_iff_yields.1 hderives
    rw [List.eq_of_mem_singleton hmem]
    exact ⟨_, hbefore, he, hy⟩
  · obtain ⟨us, hus, hyields⟩ := exists_yields_of_mem hall hmem
    obtain ⟨vs, hvs, he, hy⟩ := hyields.expr_yields
    refine ⟨vs, fun t ht => hbefore ?_, he, hy⟩
    rw [hflatten]
    exact List.mem_flatten_of_mem hus (hvs ht)

end Stmt

end Scriptlet

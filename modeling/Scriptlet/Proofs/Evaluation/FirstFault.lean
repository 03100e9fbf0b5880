import Scriptlet.Proofs.Evaluation.Faults
import Scriptlet.Proofs.Evaluation.Types
/-!
# The first operator that fails

The operators of an expression are applied one after the other, each behind those of its
operands.  An evaluation fails just if one of them cannot be applied to the values of its
operands, and it fails as the first such one does: what comes before that has a value, its
operands too, and the diagnostic names it, its line, and what does not suit it.
-/

namespace Scriptlet

variable {file : String} {operator : Token} {v w : Value} {fault : Fault}

/-! ## What does not suit an operator -/

inductive Fault.OfOperand (operator : Token) (v : Value) : Fault → Prop where
  | negation (hkind : operator.kind = .dash) (hv : v.type ≠ .number) :
      OfOperand operator v (.operandMustBeNumber operator v.text)
  | unsupported (hkind : operator.kind ∉ Kind.unaryOperators) :
      OfOperand operator v (.unsupportedOperator operator)

inductive Fault.OfOperands (operator : Token) (v w : Value) : Fault → Prop where
  | left (hkind : operator.kind ∈ Kind.numeric) (hv : v.type ≠ .number) :
      OfOperands operator v w (.operandsMustBeNumbers operator v.text)
  | right (hkind : operator.kind ∈ Kind.numeric) (hv : v.type = .number)
      (hw : w.type ≠ .number) : OfOperands operator v w (.operandsMustBeNumbers operator w.text)
  | sum (hkind : operator.kind = .plus) (hnumbers : ¬ (v.type = .number ∧ w.type = .number))
      (hstrings : ¬ (v.type = .string ∧ w.type = .string)) :
      OfOperands operator v w (.operandsMustBeNumbersOrStrings operator)
  | unsupported (hkind : operator.kind ∉ .plus :: .equals :: .notEquals :: Kind.numeric) :
      OfOperands operator v w (.unsupportedOperator operator)

namespace Value

theorem unary_eq_error_iff :
    unary operator v = .error fault ↔ fault.OfOperand operator v := by
  constructor
  · intro h
    unfold unary at h
    cases hkind : operator.kind with
    | dash =>
      rw [hkind] at h
      cases v with
      | number x => cases h
      | _ =>
        cases h
        exact .negation hkind nofun
    | not =>
      rw [hkind] at h
      cases h
    | _ =>
      rw [hkind] at h
      cases h
      exact .unsupported (by rw [hkind]; decide)
  · intro h
    cases h with
    | negation hkind hv =>
      unfold unary
      rw [hkind]
      cases v with
      | number x => exact absurd rfl hv
      | _ => rfl
    | unsupported hkind =>
      unfold unary
      split
      case h_1 hdash => exact absurd (by rw [hdash]; decide) hkind
      case h_2 hdash _ => exact absurd (by rw [hdash]; decide) hkind
      case h_3 hnot => exact absurd (by rw [hnot]; decide) hkind
      case h_4 => rfl

theorem numeric_eq_error_iff {operation : Float → Float → Value} :
    numeric operator operation v w = .error fault ↔
      v.type ≠ .number ∧ fault = .operandsMustBeNumbers operator v.text ∨
        v.type = .number ∧ w.type ≠ .number ∧
          fault = .operandsMustBeNumbers operator w.text := by
  cases v <;> cases w <;> simp [numeric, type, eq_comm]

theorem sum_eq_error_iff :
    sum operator v w = .error fault ↔
      ¬ (v.type = .number ∧ w.type = .number) ∧ ¬ (v.type = .string ∧ w.type = .string) ∧
        fault = .operandsMustBeNumbersOrStrings operator := by
  cases v <;> cases w <;> simp [sum, type, eq_comm]

theorem binary_of_plus (hkind : operator.kind = .plus) :
    binary operator v w = sum operator v w := by
  rw [binary, hkind]

theorem binary_of_numeric (hkind : operator.kind ∈ Kind.numeric) :
    ∃ operation, binary operator v w = numeric operator operation v w := by
  simp only [Kind.numeric, List.mem_cons, List.not_mem_nil, or_false] at hkind
  rcases hkind with hkind | hkind | hkind | hkind | hkind | hkind | hkind <;>
    exact ⟨_, by rw [binary, hkind]⟩

theorem binary_of_equality (hkind : operator.kind ∈ [.equals, .notEquals]) :
    ∃ b, binary operator v w = .ok (.bool b) := by
  simp only [List.mem_cons, List.not_mem_nil, or_false] at hkind
  rcases hkind with hkind | hkind <;> exact ⟨_, by rw [binary, hkind]⟩

theorem binary_of_others (hkind : operator.kind ∉ .plus :: .equals :: .notEquals :: Kind.numeric) :
    binary operator v w = .error (.unsupportedOperator operator) := by
  unfold binary
  split
  case h_11 => rfl
  all_goals
    rename_i hother
    rw [hother] at hkind
    exact absurd (by decide) hkind

theorem binary_eq_error_iff :
    binary operator v w = .error fault ↔ fault.OfOperands operator v w := by
  constructor
  · intro h
    by_cases hplus : operator.kind = .plus
    · rw [binary_of_plus hplus] at h
      obtain ⟨hnumbers, hstrings, rfl⟩ := sum_eq_error_iff.1 h
      exact .sum hplus hnumbers hstrings
    by_cases hnumeric : operator.kind ∈ Kind.numeric
    · obtain ⟨operation, heq⟩ := binary_of_numeric (v := v) (w := w) hnumeric
      rw [heq] at h
      rcases numeric_eq_error_iff.1 h with ⟨hv, rfl⟩ | ⟨hv, hw, rfl⟩
      · exact .left hnumeric hv
      · exact .right hnumeric hv hw
    by_cases hequality : operator.kind ∈ [.equals, .notEquals]
    · obtain ⟨b, heq⟩ := binary_of_equality (v := v) (w := w) hequality
      rw [heq] at h
      cases h
    · have hothers : operator.kind ∉ .plus :: .equals :: .notEquals :: Kind.numeric := by
        simp_all
      rw [binary_of_others hothers] at h
      cases h
      exact .unsupported hothers
  · intro h
    cases h with
    | left hkind hv =>
      obtain ⟨operation, heq⟩ := binary_of_numeric (v := v) (w := w) hkind
      exact heq.trans (numeric_eq_error_iff.2 (.inl ⟨hv, rfl⟩))
    | right hkind hv hw =>
      obtain ⟨operation, heq⟩ := binary_of_numeric (v := v) (w := w) hkind
      exact heq.trans (numeric_eq_error_iff.2 (.inr ⟨hv, hw, rfl⟩))
    | sum hkind hnumbers hstrings =>
      rw [binary_of_plus hkind]
      exact sum_eq_error_iff.2 ⟨hnumbers, hstrings, rfl⟩
    | unsupported hkind => exact binary_of_others hkind

end Value

namespace Expr

variable {e : Expr} {d : Diagnostic}

/-! ## The operators in the order of evaluation -/

/-- The parts of an expression that apply an operator, each behind those of its operands, and
those of a left operand in front of those of a right one. -/
def applications : Expr → List Expr
  | literal _ => []
  | grouping inner => inner.applications
  | unary operator operand => operand.applications ++ [unary operator operand]
  | binary operator left right =>
    left.applications ++ (right.applications ++ [binary operator left right])

/-- The operator at the top cannot be applied to the values of its operands, and the
diagnostic says why. -/
inductive Refuses (file : String) : Expr → Diagnostic → Prop where
  | unary {operator : Token} {operand : Expr} {v : Value} {fault : Fault}
      (hv : operand.eval file = .ok v) (h : fault.OfOperand operator v) :
      Refuses file (.unary operator operand) ⟨fault, ⟨operator.line, file⟩⟩
  | binary {operator : Token} {left right : Expr} {v w : Value} {fault : Fault}
      (hv : left.eval file = .ok v) (hw : right.eval file = .ok w)
      (h : fault.OfOperands operator v w) :
      Refuses file (.binary operator left right) ⟨fault, ⟨operator.line, file⟩⟩

theorem refuses_iff_fails : e.Refuses file d ↔ e.Fails file d := by
  constructor
  · intro h
    cases h with
    | unary hv h => exact .unary hv (Value.unary_eq_error_iff.2 h)
    | binary hv hw h => exact .binary hv hw (Value.binary_eq_error_iff.2 h)
  · intro h
    cases h with
    | unary hv h => exact .unary hv (Value.unary_eq_error_iff.1 h)
    | binary hv hw h => exact .binary hv hw (Value.binary_eq_error_iff.1 h)

theorem exists_value_of_unary (h : (unary operator e).eval file = .ok v) :
    ∃ u, e.eval file = .ok u := by
  rw [eval] at h
  cases he : e.eval file with
  | error d =>
    rw [he] at h
    cases h
  | ok u => exact ⟨u, rfl⟩

theorem exists_values_of_binary {left right : Expr}
    (h : (binary operator left right).eval file = .ok v) :
    (∃ u, left.eval file = .ok u) ∧ ∃ u, right.eval file = .ok u := by
  rw [eval] at h
  cases hleft : left.eval file with
  | error d =>
    rw [hleft] at h
    cases h
  | ok u =>
    rw [hleft] at h
    cases hright : right.eval file with
    | error d =>
      rw [hright] at h
      cases h
    | ok u' => exact ⟨⟨u, rfl⟩, u', rfl⟩

theorem exists_value_of_mem_applications {part : Expr} (h : e.eval file = .ok v)
    (hpart : part ∈ e.applications) : ∃ u, part.eval file = .ok u := by
  induction e generalizing v with
  | literal _ => cases hpart
  | grouping inner ih => exact ih h hpart
  | unary operator operand ih =>
    obtain ⟨u, hu⟩ := exists_value_of_unary h
    rcases List.mem_append.1 hpart with hpart | hpart
    · exact ih hu hpart
    · rw [List.eq_of_mem_singleton hpart]
      exact ⟨v, h⟩
  | binary operator left right ihl ihr =>
    obtain ⟨⟨u, hu⟩, u', hu'⟩ := exists_values_of_binary h
    rcases List.mem_append.1 hpart with hpart | hpart
    · exact ihl hu hpart
    rcases List.mem_append.1 hpart with hpart | hpart
    · exact ihr hu' hpart
    · rw [List.eq_of_mem_singleton hpart]
      exact ⟨v, h⟩

theorem Fails.eval_eq (h : e.Fails file d) : e.eval file = .error d := by
  cases h with
  | unary hv h =>
    rw [eval_unary_of_ok hv, h]
    rfl
  | binary hv hw h =>
    rw [eval_binary_of_ok hv hw, h]
    rfl

/-! ## The first one that is refused -/

/-- The first of some expressions that has no value refuses the values of its operands. -/
def FailsFirst (file : String) (parts : List Expr) (d : Diagnostic) : Prop :=
  ∃ before part after, parts = before ++ part :: after ∧
    (∀ earlier ∈ before, ∃ v, earlier.eval file = .ok v) ∧ part.Fails file d

theorem failsFirst_singleton (h : e.Fails file d) : FailsFirst file [e] d :=
  ⟨[], e, [], rfl, nofun, h⟩

variable {parts others : List Expr}

theorem FailsFirst.append_left (h : FailsFirst file parts d) (others : List Expr) :
    FailsFirst file (parts ++ others) d := by
  obtain ⟨before, part, after, rfl, hbefore, hfails⟩ := h
  exact ⟨before, part, after ++ others, by simp, hbefore, hfails⟩

theorem FailsFirst.append_right (hparts : ∀ part ∈ parts, ∃ v, part.eval file = .ok v)
    (h : FailsFirst file others d) : FailsFirst file (parts ++ others) d := by
  obtain ⟨before, part, after, rfl, hbefore, hfails⟩ := h
  refine ⟨parts ++ before, part, after, by simp, ?_, hfails⟩
  exact List.forall_mem_append.2 ⟨hparts, hbefore⟩

theorem failsFirst_of_eval_error (h : e.eval file = .error d) :
    FailsFirst file e.applications d := by
  induction e with
  | literal _ => cases h
  | grouping inner ih => exact ih h
  | unary operator operand ih =>
    rcases fails_of_unary h with h | ⟨⟨v, hv⟩, hfails⟩
    · exact (ih h).append_left _
    · apply FailsFirst.append_right (fun _ => exists_value_of_mem_applications hv)
      exact failsFirst_singleton hfails
  | binary operator left right ihl ihr =>
    rcases fails_of_binary h with h | ⟨⟨v, hv⟩, h⟩
    · exact (ihl h).append_left _
    · apply FailsFirst.append_right (fun _ => exists_value_of_mem_applications hv)
      rcases h with h | ⟨⟨w, hw⟩, hfails⟩
      · exact (ihr h).append_left _
      · apply FailsFirst.append_right (fun _ => exists_value_of_mem_applications hw)
        exact failsFirst_singleton hfails

theorem exists_eval_error_iff :
    (∃ d, e.eval file = .error d) ↔ ∃ part ∈ e.applications, ∃ d, part.Fails file d := by
  constructor
  · rintro ⟨d, h⟩
    obtain ⟨before, part, after, hsplit, _, hfails⟩ := failsFirst_of_eval_error h
    exact ⟨part, by simp [hsplit], d, hfails⟩
  · rintro ⟨part, hpart, d, hfails⟩
    cases he : e.eval file with
    | error d' => exact ⟨d', rfl⟩
    | ok v =>
      obtain ⟨u, hu⟩ := exists_value_of_mem_applications he hpart
      cases hu.symm.trans hfails.eval_eq

end Expr

/-- **The first operator that fails is the one that is reported.**  An evaluation fails just
if an operator in the expression refuses the values of its operands, and what does not suit an
operator is told by its kind and the types of these.  Of the parts that apply an operator, in
the order of evaluation, there is then a first that has no value: it refuses the values of its
operands, and the whole fails as it does.  A negation of truth and a comparison for equality
refuse nothing. -/
theorem first_failing_operator (file : String) (e : Expr) :
    ((∃ d, e.eval file = .error d) ↔ ∃ part ∈ e.applications, ∃ d, part.Fails file d) ∧
      (∀ part d, part.Fails file d ↔ Expr.Refuses file part d) ∧
      (∀ d, e.eval file = .error d → ∃ before part after,
        e.applications = before ++ part :: after ∧
          (∀ earlier ∈ before, ∃ v, earlier.eval file = .ok v) ∧
          part.eval file = .error d ∧ part.Refuses file d) ∧
      (∀ operator operand d, operator.kind = .not →
        ¬ (Expr.unary operator operand).Fails file d) ∧
      ∀ operator left right d, operator.kind ∈ [.equals, .notEquals] →
        ¬ (Expr.binary operator left right).Fails file d := by
  refine ⟨Expr.exists_eval_error_iff, fun part d => Expr.refuses_iff_fails.symm, ?_, ?_, ?_⟩
  · intro d h
    obtain ⟨before, part, after, hsplit, hbefore, hfails⟩ := Expr.failsFirst_of_eval_error h
    exact ⟨before, part, after, hsplit, hbefore, hfails.eval_eq, Expr.refuses_iff_fails.2 hfails⟩
  · intro operator operand d hnot hfails
    cases Expr.refuses_iff_fails.2 hfails with
    | unary _ hfault =>
      cases hfault with
      | negation hdash _ => cases hnot.symm.trans hdash
      | unsupported hkind => exact hkind (by rw [hnot]; decide)
  · intro operator left right d hequality hfails
    cases hfails with
    | binary _ _ hfault =>
      obtain ⟨b, heq⟩ := Value.binary_of_equality hequality
      cases heq.symm.trans hfault

theorem first_failing_operator_dash :
    (let dash : Token := ⟨.dash, "-", none, 2⟩
    let plus : Token := ⟨.plus, "+", none, 1⟩
    let star : Token := ⟨.star, "*", none, 3⟩
    let d : Diagnostic := ⟨.operandMustBeNumber dash "a", ⟨2, "shown"⟩⟩
    let e : Expr := .binary plus (.unary dash (.grouping (.literal (.string "a"))))
      (.binary star (.literal .nil) (.unary plus (.literal (.bool true))))
    e.eval "shown" = .error d ∧ ∃ before part after, e.applications = before ++ part :: after ∧
      (∀ earlier ∈ before, ∃ v, earlier.eval "shown" = .ok v) ∧
      part.eval "shown" = .error d ∧ part.Refuses "shown" d) :=
  ⟨rfl, (first_failing_operator "shown" _).2.2.1 _ rfl⟩

end Scriptlet

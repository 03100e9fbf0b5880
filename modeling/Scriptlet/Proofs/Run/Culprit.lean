import Scriptlet.Proofs.Evaluation.Operators
import Scriptlet.Proofs.Grammar.FirstError
import Scriptlet.Proofs.Run.Report
import Scriptlet.Proofs.Source.Tokens
/-!
# A diagnostic shows its culprit

Whatever stage of a run fails, the diagnostic stands on a line of the source, and that line
holds the text to blame.  Only a refused text is nobody's line, and its report alone shows
none.
-/

namespace Scriptlet

/-- The text that a fault blames.  Of a token that reaches over several lines, it is what
stands on the last one. -/
def Fault.culprit : Fault → List Char
  | unexpectedCharacter c => [c]
  | unterminatedString => ['"']
  | malformedNumber numeral => numeral.toList
  | expectedToken _ found | expectedExpression found => Text.lastLine found.toList
  | operandMustBeNumber operator _ | operandsMustBeNumbers operator _
  | operandsMustBeNumbersOrStrings operator | unsupportedOperator operator =>
    operator.lexeme.toList
  | outputFailed _ => []

theorem Fault.culprit_ofUncut (c : Char) : (ofUncut c).culprit = [c] := by
  unfold ofUncut
  split_ifs with hc
  · rw [hc]
    rfl
  · rfl

theorem Fault.culprit_of_operator? {fault : Fault} {operator : Token}
    (h : fault.operator? = some operator) : fault.culprit = operator.lexeme.toList := by
  cases fault <;> cases h <;> rfl

theorem Grammar.Phase.culprit_fault (phase : Phase) (t : Token) :
    (phase.fault t).culprit = Text.lastLine t.lexeme.toList := by
  unfold fault
  split <;> rfl

/-- A diagnostic stands on a line of the source that shows its culprit. -/
structure Diagnostic.Located (d : Diagnostic) (source : Source) : Prop where
  file : d.position.file = source.file
  fault : ∀ reason, d.fault ≠ .outputFailed reason
  shows : source.Shows d.position.line d.fault.culprit

namespace Source

variable {source : Source} {tokens : List Token} {program : List Stmt} {d : Diagnostic}

theorem located_of_tokens (h : source.tokens = .error d) : d.Located source := by
  obtain ⟨c, hfault, hfile, hshows⟩ := shows_of_tokens_error h
  refine ⟨hfile, ?_, ?_⟩
  · intro reason hreason
    rw [hreason, Fault.ofUncut] at hfault
    split_ifs at hfault
  · rwa [hfault, Fault.culprit_ofUncut]

theorem located_of_ofTokens (htokens : source.tokens = .ok tokens)
    (h : Stmt.ofTokens tokens source.file = .error d) : d.Located source := by
  obtain ⟨c, hblames⟩ := Grammar.blames_of_ofTokens_stmt h
  obtain ⟨us, t, rest, phase, heq, _, _, rfl⟩ := hblames.split (shaped_tokens htokens)
  have ht : t ∈ tokens := by
    rw [heq]
    exact List.mem_append_right us List.mem_cons_self
  refine ⟨rfl, ?_, ?_⟩
  · intro reason
    unfold Grammar.Phase.fault
    dsimp only
    split <;> exact Fault.noConfusion
  · rw [phase.culprit_fault]
    exact shows_token htokens ht

theorem located_of_eval {statement : Stmt} (htokens : source.tokens = .ok tokens)
    (hprogram : Stmt.ofTokens tokens source.file = .ok program) (hmem : statement ∈ program)
    (h : statement.expr.eval source.file = .error d) : d.Located source := by
  obtain ⟨us, hus, hwellFormed, hyields⟩ := Stmt.expr_yields_of_ofTokens hprogram hmem
  obtain ⟨operator, hoperator, hfault, hposition⟩ := Expr.operator_of_eval_error h
  have ht : operator ∈ tokens := hus (hyields.mem_of_operators hoperator)
  -- only a string reaches over several lines, so the operator is all on its line
  have hkind : operator.kind ≠ .string := by
    intro hstring
    rcases hwellFormed.kind_of_operators hoperator with hunary | ⟨level, hlevel⟩
    · rw [hstring] at hunary
      exact absurd hunary (by decide)
    · rw [hstring] at hlevel
      exact Kind.not_mem_operators_of_mem_literals (by decide) hlevel
  refine ⟨by rw [hposition], ?_, ?_⟩
  · intro reason hreason
    rw [hreason] at hfault
    cases hfault
  · have hshows := shows_token htokens ht
    rw [Text.lastLine_eq_self (newline_not_mem_lexeme htokens ht hkind)] at hshows
    rwa [hposition, Fault.culprit_of_operator? hfault]

/-- A run fails because a text is refused or at a place that shows what is to blame. -/
theorem located_of_run {sink sink' : Sink} (h : source.run sink = .error d sink') :
    (∃ reason, d = ⟨.outputFailed reason, ⟨0, source.file⟩⟩) ∨ d.Located source := by
  unfold run Source.program at h
  cases htokens : source.tokens with
  | error d' =>
    rw [htokens] at h
    cases h
    exact .inr (located_of_tokens htokens)
  | ok tokens =>
    rw [htokens] at h
    cases hprogram : Stmt.ofTokens tokens source.file with
    | error d' =>
      have herror : (Except.ok tokens >>= fun ts => Stmt.ofTokens ts source.file) = .error d' :=
        hprogram
      rw [herror] at h
      cases h
      exact .inr (located_of_ofTokens htokens hprogram)
    | ok program =>
      have hok : (Except.ok tokens >>= fun ts => Stmt.ofTokens ts source.file) = .ok program :=
        hprogram
      rw [hok] at h
      rcases Stmt.interpret_error h with hrefused | ⟨statement, hmem, heval⟩
      · exact .inl hrefused
      · exact .inr (located_of_eval htokens hprogram hmem heval)

end Source

/-- **A diagnostic of a run shows its culprit.**  It stands on a line that the source has,
the line holds what is to blame, and the report prints that line.  The exception is the
diagnostic of a refused text, which has no line and whose report prints none. -/
theorem run_error_shows_culprit (source : Source) (sink sink' : Sink) (d : Diagnostic)
    (h : source.run sink = .error d sink') :
    ((∃ reason, d.fault = .outputFailed reason) ∧ d.position.line = 0 ∧
        d.report source = [d.heading, "-> " ++ source.file] ∨
      (∀ reason, d.fault ≠ .outputFailed reason) ∧
        1 ≤ d.position.line ∧ d.position.line ≤ 1 + Text.newlines source.text.toList ∧
        ∃ text, source.line? d.position.line = some text ∧
          d.fault.culprit <:+: text.toList ∧
          d.report source = [d.heading, "-> " ++ source.file] ++
            Diagnostic.excerpt d.position.line text) ∧
    d.writeReport source Sink.unlimited =
      .ok () ⟨none, .closed,
        (d.report source).flatMap fun line => Text.bytes (line ++ "\n")⟩ := by
  refine ⟨?_, d.writeReport_unlimited source⟩
  rcases source.located_of_run h with ⟨reason, rfl⟩ | hlocated
  · exact .inl ⟨⟨reason, rfl⟩, rfl, rfl⟩
  · obtain ⟨hfirst, hlast, text, hline, hculprit⟩ := hlocated.shows
    have hreport := Diagnostic.report_eq hline
    rw [hlocated.file] at hreport
    exact .inr ⟨hlocated.fault, hfirst, hlast, text, hline, hculprit, hreport⟩

theorem run_error_shows_dash :
    Source.run ⟨"nil;\n-\n\"a\";", "negated"⟩ Sink.unlimited =
      .error ⟨.operandMustBeNumber ⟨.dash, "-", none, 2⟩ "a", ⟨2, "negated"⟩⟩ Sink.unlimited ∧
    ∃ text, Source.line? ⟨"nil;\n-\n\"a\";", "negated"⟩ 2 = some text ∧
      ['-'] <:+: text.toList := by
  have herror : Source.run ⟨"nil;\n-\n\"a\";", "negated"⟩ Sink.unlimited =
      .error ⟨.operandMustBeNumber ⟨.dash, "-", none, 2⟩ "a", ⟨2, "negated"⟩⟩ Sink.unlimited := by
    have hprogram : Source.program ⟨"nil;\n-\n\"a\";", "negated"⟩ =
        .ok [.expression (.literal .nil),
          .expression (.unary ⟨.dash, "-", none, 2⟩ (.literal (.string "a")))] := by
      decide +kernel
    rw [Source.run, hprogram]
    rfl
  refine ⟨herror, ?_⟩
  rcases (run_error_shows_culprit _ _ _ _ herror).1 with
    ⟨⟨_, hrefused⟩, _⟩ | ⟨_, _, _, text, hline, hculprit, _⟩
  · cases hrefused
  · exact ⟨text, hline, hculprit⟩

end Scriptlet

import Scriptlet.Proofs.Run.Concatenation
import Scriptlet.Proofs.Source.Spacing
/-!
# Programs of one expression

A source that is one expression, with no semicolon behind it, is read as a program that
prints the expression.  It runs like the statement that prints the expression: what comes
out is the value on a line of its own, or the failure of the expression, on the same line.
-/

namespace Scriptlet

theorem Stmt.transcript_print (file : String) (e : Expr) :
    transcript file [.print e] =
      match e.eval file with
      | .ok v => (Text.bytes (v.text ++ "\n"), none)
      | .error d => ([], some d) := by
  rw [transcript, output]
  cases e.eval file with
  | error d => rfl
  | ok v => exact Prod.ext (List.append_nil _) rfl

namespace Source

open Grammar

variable {source : Source} {e : Expr} {tokens : List Token} {s file : String}

theorem expression_eq_ok_iff_derives :
    source.expression = .ok e ↔
      ∃ tokens, source.tokens = .ok tokens ∧ Derives .default e (Token.beforeEnd tokens) := by
  rw [expression]
  cases source.tokens with
  | error d =>
    constructor
    · exact nofun
    · rintro ⟨_, ⟨⟩, _⟩
  | ok tokens =>
    change Expr.ofTokens tokens source.file = .ok e ↔ _
    rw [Expr.ofTokens_eq_ok_iff]
    constructor
    · exact fun hderives => ⟨tokens, rfl, hderives⟩
    · rintro ⟨_, ⟨⟩, hderives⟩
      exact hderives

/-- A source is one expression just if it is read as a program that prints the expression,
and no semicolon stands at its end. -/
theorem expression_eq_ok_iff_echoes : source.expression = .ok e ↔ source.Echoes [.print e] := by
  rw [expression_eq_ok_iff_derives]
  constructor
  · rintro ⟨tokens, htokens, hderives⟩
    exact ⟨tokens, htokens, ofTokens_of_derives source.file hderives,
      not_closed_of_derives hderives⟩
  · rintro ⟨tokens, htokens, hprogram, hopen⟩
    obtain ⟨hclosed, _⟩ | ⟨_, _, hderives, ⟨⟩⟩ := closed_or_of_ofTokens hprogram
    · exact absurd hclosed hopen
    · exact ⟨tokens, htokens, hderives⟩

theorem program_of_expression (h : source.expression = .ok e) :
    source.program = .ok [.print e] := by
  obtain ⟨tokens, htokens, hprogram, _⟩ := expression_eq_ok_iff_echoes.1 h
  rw [program_of_tokens htokens, hprogram]

theorem outcome_run_of_print (h : source.program = .ok [.print e]) :
    Session.outcome source.run Sink.unlimited =
      match e.eval source.file with
      | .ok v => (none, ⟨none, .closed, Text.bytes (v.text ++ "\n")⟩)
      | .error d => (some d, Sink.unlimited) := by
  rw [outcome_run h, Stmt.transcript_print]
  cases e.eval source.file <;> rfl

theorem outcome_run_of_expression {v : Value} (h : source.expression = .ok e)
    (hv : e.eval source.file = .ok v) :
    Session.outcome source.run Sink.unlimited =
      (none, ⟨none, .closed, Text.bytes (v.text ++ "\n")⟩) := by
  rw [outcome_run_of_print (program_of_expression h), hv]

theorem expression_of_cut (hrest : source.cut.rest = [])
    (h : Derives .default e source.cut.tokens) : source.expression = .ok e := by
  have htokens := tokens_eq_ok_iff.2 ⟨hrest, rfl⟩
  exact expression_eq_ok_iff_derives.2 ⟨_, htokens, (beforeEnd_of_tokens htokens).symm ▸ h⟩

/-! ## The statement that prints an expression -/

/-- The word in front of a text is cut off, and what follows is cut as it is by itself. -/
theorem cut_print (s file : String) :
    (cut ⟨"print " ++ s, file⟩).tokens =
        ⟨.printWord, "print", none, 1⟩ :: (cut ⟨s, file⟩).tokens ∧
      (cut ⟨"print " ++ s, file⟩).rest = (cut ⟨s, file⟩).rest := by
  have htext : ("print " ++ s).toList = "print".toList ++ ' ' :: s.toList :=
    String.toList_append
  have hword : Rule.first? ("print".toList ++ ' ' :: s.toList) = some (.word, "print".toList) :=
    Rule.first?_append_separator rfl (by decide) (by decide) (.inr (by decide)) _
  have hplace : (Place.start.past "print".toList).past [' '] = Place.start.shift 6 0 := rfl
  obtain ⟨htokens, hrest⟩ := cut_separator (by decide : ' ' ∈ Rule.separators)
    (Place.start.past "print".toList) s.toList
  rw [hplace, cut_shift] at htokens hrest
  rw [cut, htext, cut_append Place.start hword (by decide), Cut.tokens_after, htokens,
    Cut.tokens_shift]
  exact ⟨congrArg _ (List.map_id _), hrest⟩

theorem tokens_print (h : Source.tokens ⟨s, file⟩ = .ok tokens) :
    Source.tokens ⟨"print " ++ s, file⟩ = .ok (⟨.printWord, "print", none, 1⟩ :: tokens) := by
  obtain ⟨hrest, hends⟩ := tokens_eq_ok_iff.1 h
  obtain ⟨htokens, hrest'⟩ := cut_print s file
  rw [hrest] at hrest'
  have hnewlines : Text.newlines ("print " ++ s).toList = Text.newlines s.toList := by
    rw [String.toList_append, Text.newlines_append]
    exact Nat.zero_add _
  refine tokens_eq_ok_iff.2 ⟨hrest', ?_⟩
  rw [← Cut.tokens, htokens, stop_line_of_rest hrest', hnewlines, hends, stop_line_of_rest hrest]
  rfl

theorem program_print (h : Source.expression ⟨s, file⟩ = .ok e) :
    Source.program ⟨"print " ++ s ++ "\n;", file⟩ = .ok [.print e] := by
  obtain ⟨tokens, htokens, hderives⟩ := expression_eq_ok_iff_derives.1 h
  obtain ⟨hwellFormed, hyields⟩ := derives_iff_yields.1 hderives
  have hsemicolon : Source.tokens ⟨";", file⟩ = .ok [⟨.semicolon, ";", none, 1⟩, Token.eof 1] :=
    tokens_renamed _ "" file (by decide +kernel)
  have hjoin := tokens_join (tokens_print htokens) ";"
  rw [hsemicolon] at hjoin
  rw [show "\n;" = "\n" ++ ";" from rfl, ← String.append_assoc, program_of_tokens hjoin]
  have hsegment : Stmt.Yields (.print e)
      (⟨.printWord, "print", none, 1⟩ :: (Token.beforeEnd tokens ++
        [⟨.semicolon, ";", none, 1 + (1 + Text.newlines ("print " ++ s).toList)⟩])) :=
    .print rfl rfl hwellFormed hyields
  refine ofTokens_of_segments file ?_ (.cons hsegment .nil)
  refine (Token.beforeEnd_append Cursor.kind_of_mem_takeWhile _).trans ?_
  rw [List.flatten_singleton]
  rfl

/-- **An echo program is a print of its expression.**  A source is one expression just if it
is a program that prints the expression and its last token is no semicolon.  It then has the
same outcome as the statement that prints it: the value on a line of its own, or nothing but
the diagnostic of the expression. -/
theorem echo_is_print (s file : String) (e : Expr) :
    let source : Source := ⟨s, file⟩
    (source.expression = .ok e ↔ source.Echoes [.print e]) ∧
    (source.expression = .ok e →
      let outcome := Session.outcome source.run Sink.unlimited
      outcome = Session.outcome (run ⟨"print " ++ s ++ "\n;", file⟩) Sink.unlimited ∧
      (∀ v, e.eval file = .ok v →
        outcome = (none, ⟨none, .closed, Text.bytes (v.text ++ "\n")⟩)) ∧
      ∀ d, e.eval file = .error d → outcome = (some d, Sink.unlimited)) := by
  intro source
  refine ⟨expression_eq_ok_iff_echoes, ?_⟩
  intro h outcome
  have hecho : outcome = _ := outcome_run_of_print (program_of_expression h)
  refine ⟨?_, ?_, ?_⟩
  · rw [hecho, outcome_run_of_print (program_print h)]
  · intro v hv
    rw [hecho, hv]
  · intro d hd
    rw [hecho, hd]

theorem echo_is_print_comment :
    let source : Source := ⟨"-\n\"a\" // \"b\";", "echoed"⟩
    let d : Diagnostic := ⟨.operandMustBeNumber ⟨.dash, "-", none, 1⟩ "a", ⟨1, "echoed"⟩⟩
    source.expression =
        .ok (.unary ⟨.dash, "-", none, 1⟩ (.literal (.string "a"))) ∧
      Session.outcome (run ⟨"print -\n\"a\" // \"b\";\n;", "echoed"⟩) Sink.unlimited =
        (some d, Sink.unlimited) := by
  intro source d
  have hexpression : source.expression =
      .ok (.unary ⟨.dash, "-", none, 1⟩ (.literal (.string "a"))) := by
    decide +kernel
  obtain ⟨hprint, _, hfails⟩ := (echo_is_print _ _ _).2 hexpression
  exact ⟨hexpression, hprint.symm.trans (hfails d (by decide +kernel))⟩

end Source

end Scriptlet

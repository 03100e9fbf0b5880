import Scriptlet.Proofs.Grammar.Relining
import Scriptlet.Proofs.Run.Outcome
/-!
# Running one source behind another

A source whose statements are all closed can stand in front of any other source, with a
newline between the two.  What follows is read and run as it is by itself, further down;
only an expression without a semicolon needs to stand alone.
-/

namespace Scriptlet

namespace Source

/-- The source is read as a program, from tokens of which the last, if any, is a semicolon. -/
def Closed (source : Source) (program : List Stmt) : Prop :=
  ∃ tokens, source.tokens = .ok tokens ∧ Stmt.ofTokens tokens source.file = .ok program ∧
    Token.Closed tokens

/-- The source is read as a program, but from tokens of which the last is no semicolon. -/
def Echoes (source : Source) (program : List Stmt) : Prop :=
  ∃ tokens, source.tokens = .ok tokens ∧ Stmt.ofTokens tokens source.file = .ok program ∧
    ¬ Token.Closed tokens

variable {a b file : String} {tokens : List Token} {program others : List Stmt} {d : Diagnostic}

/-- A source behind a closed one: the tokens of both, and what the first are read as. -/
theorem join_closed (ha : Closed ⟨a, file⟩ program)
    (hb : Source.tokens ⟨b, file⟩ = .ok tokens) :
    ∃ segments, List.Forall₂ Stmt.Yields program segments ∧
      Source.tokens ⟨a ++ "\n" ++ b, file⟩ = .ok (segments.flatten ++
        tokens.map (Token.mapLine (· + (1 + Text.newlines a.toList)))) := by
  obtain ⟨us, hus, hprogram, hclosed⟩ := ha
  obtain ⟨_, segments, hflatten, hall⟩ | ⟨hopen, _⟩ := Grammar.closed_or_of_ofTokens hprogram
  · refine ⟨segments, hall, ?_⟩
    rw [tokens_join hus, hb, hflatten]
    rfl
  · exact absurd hclosed hopen

theorem program_join_closed (ha : Closed ⟨a, file⟩ program) (hb : Closed ⟨b, file⟩ others) :
    Source.program ⟨a ++ "\n" ++ b, file⟩ =
      .ok (program ++ others.map (Stmt.mapLines (· + (1 + Text.newlines a.toList)))) := by
  obtain ⟨us, hus, hothers, hclosed⟩ := hb
  obtain ⟨segments, hall, hjoin⟩ := join_closed ha hus
  rw [program_of_tokens hjoin]
  refine Grammar.ofTokens_append_closed hall ?_ ((Grammar.closed_map_mapLine_iff _).2 hclosed)
  rw [Grammar.ofTokens_map_mapLine _ (shaped_tokens hus), hothers]
  rfl

theorem program_join_error (ha : Closed ⟨a, file⟩ program)
    (hb : Source.program ⟨b, file⟩ = .error d) :
    Source.program ⟨a ++ "\n" ++ b, file⟩ =
      .error (d.mapLines (· + (1 + Text.newlines a.toList))) := by
  cases hus : Source.tokens ⟨b, file⟩ with
  | ok us =>
    obtain ⟨segments, hall, hjoin⟩ := join_closed ha hus
    have hshaped := shaped_tokens hus
    rw [program_of_tokens hus] at hb
    rw [program_of_tokens hjoin]
    refine Grammar.ofTokens_append_error hall (hshaped.map_mapLine _) (shaped_tokens hjoin) ?_
    rw [Grammar.ofTokens_map_mapLine _ hshaped, hb]
    rfl
  | error d' =>
    rw [program_of_error hus] at hb
    cases hb
    obtain ⟨ts, hts, _, _⟩ := ha
    apply program_of_error
    rw [tokens_join hts, hus]
    rfl

theorem program_join_echo (ha : Closed ⟨a, file⟩ program) (hprogram : program ≠ [])
    (hb : Echoes ⟨b, file⟩ others) :
    Source.program ⟨a ++ "\n" ++ b, file⟩ =
      .error ⟨.expectedToken "expect ';' after expression." "",
        ⟨1 + Text.newlines (a ++ "\n" ++ b).toList, file⟩⟩ := by
  obtain ⟨us, hus, hothers, hopen⟩ := hb
  obtain ⟨segments, hall, hjoin⟩ := join_closed ha hus
  have hread : Stmt.ofTokens (us.map (Token.mapLine (· + (1 + Text.newlines a.toList)))) file =
      .ok (others.map (Stmt.mapLines (· + (1 + Text.newlines a.toList)))) := by
    rw [Grammar.ofTokens_map_mapLine _ (shaped_tokens hus), hothers]
    rfl
  rw [program_of_tokens hjoin, Grammar.ofTokens_append_echo hall hprogram (shaped_tokens hjoin)
    hread (fun h => hopen ((Grammar.closed_map_mapLine_iff _).1 h)), endOf_tokens hjoin]
  rfl

/-- **Running a source behind a closed one is running the two in sequence.**  When the other
is closed too, the statements of both are read, and its own stand further down: the outcome
is that of the first source if that fails, or else what both write and how the other one
ends.  When the other is refused, so is the whole, and an expression without a semicolon
is refused behind statements; then nothing is written. -/
theorem run_append_newline (a b file : String) (program : List Stmt)
    (ha : Closed ⟨a, file⟩ program) :
    let whole : Source := ⟨a ++ "\n" ++ b, file⟩
    let down := 1 + Text.newlines a.toList
    (∀ others, Closed ⟨b, file⟩ others →
      whole.program = .ok (program ++ others.map (Stmt.mapLines (· + down))) ∧
      let first := Session.outcome (run ⟨a, file⟩) Sink.unlimited
      let second := Session.outcome (run ⟨b, file⟩) Sink.unlimited
      Session.outcome whole.run Sink.unlimited =
        (first.1.or (second.1.map (Diagnostic.mapLines (· + down))),
          ⟨none, .closed,
            first.2.written ++ if first.1 = none then second.2.written else []⟩)) ∧
    (∀ d, Source.program ⟨b, file⟩ = .error d → ∀ sink,
      whole.run sink =
        .error ⟨d.fault, ⟨d.position.line + down, d.position.file⟩⟩ sink) ∧
    ∀ others, Echoes ⟨b, file⟩ others → program ≠ [] → ∀ sink,
      whole.run sink =
        .error ⟨.expectedToken "expect ';' after expression." "",
          ⟨1 + Text.newlines whole.text.toList, file⟩⟩ sink := by
  intro whole down
  refine ⟨?_, ?_, ?_⟩
  · intro others hb
    have hwhole := program_join_closed ha hb
    obtain ⟨us, hus, hprogram, _⟩ := ha
    obtain ⟨vs, hvs, hothers, _⟩ := hb
    refine ⟨hwhole, ?_⟩
    rw [outcome_run hwhole, outcome_run ((program_of_tokens hus).trans hprogram),
      outcome_run ((program_of_tokens hvs).trans hothers), Stmt.transcript_append,
      Stmt.transcript_mapLines]
    dsimp only
    cases (Stmt.transcript file program).2 <;> simp [down]
  · intro d hb sink
    rw [run_of_error (program_join_error ha hb), Diagnostic.mapLines,
      Fault.mapLines_of_operator? (operator?_of_program_error hb)]
  · intro others hb hprogram sink
    exact run_of_error (program_join_echo ha hprogram hb) sink

theorem run_append_newline_printing :
    Closed ⟨"print \"x\";\nnil;", "joined"⟩
      [.print (.literal (.string "x")), .expression (.literal .nil)] ∧
    Session.outcome (run ⟨"print \"x\";\nnil;" ++ "\n" ++ "print\n-nil;", "joined"⟩)
        Sink.unlimited =
      (some ⟨.operandMustBeNumber ⟨.dash, "-", none, 4⟩ "nil", ⟨4, "joined"⟩⟩,
        ⟨none, .closed, Text.bytes "x\n"⟩) ∧
    run ⟨"print \"x\";\nnil;" ++ "\n" ++ "nil)", "joined"⟩ Sink.unlimited =
      .error ⟨.expectedToken "expect ';' after expression." ")", ⟨3, "joined"⟩⟩
        Sink.unlimited ∧
    run ⟨"print \"x\";\nnil;" ++ "\n" ++ "nil\n", "joined"⟩ Sink.unlimited =
      .error ⟨.expectedToken "expect ';' after expression." "", ⟨4, "joined"⟩⟩
        Sink.unlimited := by
  have hfront : Closed ⟨"print \"x\";\nnil;", "joined"⟩
      [.print (.literal (.string "x")), .expression (.literal .nil)] := by
    refine ⟨[⟨.printWord, "print", none, 1⟩, ⟨.string, "\"x\"", some (.string "x"), 1⟩,
      ⟨.semicolon, ";", none, 1⟩, ⟨.nilWord, "nil", none, 2⟩, ⟨.semicolon, ";", none, 2⟩,
      Token.eof 2], by decide +kernel, by decide +kernel, ?_⟩
    rintro t ⟨⟩
    rfl
  have hclosed : Closed ⟨"print\n-nil;", "joined"⟩
      [.print (.unary ⟨.dash, "-", none, 2⟩ (.literal .nil))] := by
    refine ⟨[⟨.printWord, "print", none, 1⟩, ⟨.dash, "-", none, 2⟩, ⟨.nilWord, "nil", none, 2⟩,
      ⟨.semicolon, ";", none, 2⟩, Token.eof 2], by decide +kernel, by decide +kernel, ?_⟩
    rintro t ⟨⟩
    rfl
  have hecho : Echoes ⟨"nil\n", "joined"⟩ [.print (.literal .nil)] := by
    refine ⟨[⟨.nilWord, "nil", none, 1⟩, Token.eof 2], by decide +kernel, by decide +kernel, ?_⟩
    intro h
    cases h _ rfl
  refine ⟨hfront, ?_, ?_, ?_⟩
  · exact ((run_append_newline _ "print\n-nil;" _ _ hfront).1 _ hclosed).2.trans (by decide +kernel)
  · exact (run_append_newline _ "nil)" _ _ hfront).2.1
      ⟨.expectedToken "expect ';' after expression." ")", ⟨1, "joined"⟩⟩ (by decide +kernel) _
  · exact (run_append_newline _ "nil\n" _ _ hfront).2.2 _ hecho (by decide) _

end Source

end Scriptlet

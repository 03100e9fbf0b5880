import Scriptlet.Proofs.Grammar.Relining
import Scriptlet.Proofs.Run.Outcome
import Scriptlet.Proofs.Source.Spacing
/-!
# Running a source in another layout

Sources whose tokens differ in their lines only are read as programs that differ in the
lines of their operators only, so they write the same and fail for the same reason.
-/

namespace Scriptlet

namespace Source

variable {source other : Source} {tokens others : List Token}

/-- Sources with the same tokens on other lines have the same outcome on other lines. -/
theorem outcome_run_of_agrees (hfile : source.file = other.file)
    (h : source.tokens = .ok tokens) (hother : other.tokens = .ok others)
    (hagrees : List.Forall₂ Token.Agrees tokens others) :
    let first := Session.outcome source.run Sink.unlimited
    let second := Session.outcome other.run Sink.unlimited
    first.2 = second.2 ∧ first.1.map Diagnostic.unlined = second.1.map Diagnostic.unlined := by
  have hread := Grammar.ofTokens_map_mapLine (fun _ => 0) (shaped_tokens h) source.file
  rw [Token.map_mapLine_eq_of_agrees hagrees, hfile,
    Grammar.ofTokens_map_mapLine _ (shaped_tokens hother)] at hread
  have hprogram := program_of_tokens h
  have hprogram' := program_of_tokens hother
  rw [hfile] at hprogram
  cases hp : Stmt.ofTokens tokens other.file with
  | ok program =>
    cases hq : Stmt.ofTokens others other.file with
    | ok program' =>
      rw [hp, hq] at hread
      have htranscript := congrArg (Stmt.transcript other.file) (Except.ok.inj hread)
      rw [Stmt.transcript_mapLines, Stmt.transcript_mapLines] at htranscript
      obtain ⟨hwritten, hfailure⟩ := Prod.mk.inj htranscript
      rw [outcome_run (hprogram.trans hp), outcome_run (hprogram'.trans hq), hfile, hwritten]
      exact ⟨rfl, hfailure.symm⟩
    | error d =>
      rw [hp, hq] at hread
      cases hread
  | error d =>
    cases hq : Stmt.ofTokens others other.file with
    | ok program' =>
      rw [hp, hq] at hread
      cases hread
    | error d' =>
      rw [hp, hq] at hread
      rw [outcome_run_of_error (hprogram.trans hp), outcome_run_of_error (hprogram'.trans hq)]
      exact ⟨rfl, congrArg some (Except.error.inj hread).symm⟩

/-- **Layout does not change a program.**  When the tokens of a source are written out again
with separators in front, between and behind them, the new source has the same tokens but
for their lines; it writes the same, and it fails just if the first does, with a diagnostic
that differs in its lines only. -/
theorem run_respaced (source : Source) (front : List Char) (pairs : List (Token × List Char))
    (last : Token) (h : source.tokens = .ok (pairs.map Prod.fst ++ [last]))
    (hfront : ∀ w ∈ front, w ∈ Rule.separators)
    (hgaps : ∀ pair ∈ pairs, ∀ w ∈ pair.2, w ∈ Rule.separators)
    (hne : ∀ pair ∈ pairs.dropLast, pair.2 ≠ []) :
    let respaced : Source := ⟨String.ofList (front ++ Token.spread pairs), source.file⟩
    (∃ tokens, respaced.tokens = .ok tokens ∧
      List.Forall₂ Token.Agrees (pairs.map Prod.fst ++ [last]) tokens) ∧
    let first := Session.outcome source.run Sink.unlimited
    let second := Session.outcome respaced.run Sink.unlimited
    first.2 = second.2 ∧ first.1.map Diagnostic.unlined = second.1.map Diagnostic.unlined := by
  intro respaced
  obtain ⟨tokens, htokens, hagrees⟩ := tokens_spread source.file h hfront hgaps hne
  exact ⟨⟨tokens, htokens, hagrees⟩, outcome_run_of_agrees rfl h htokens hagrees⟩

theorem run_respaced_dash :
    Session.outcome (run ⟨"print\"a\";-nil;", "spaced"⟩) Sink.unlimited =
      (some ⟨.operandMustBeNumber ⟨.dash, "-", none, 1⟩ "nil", ⟨1, "spaced"⟩⟩,
        ⟨none, .closed, Text.bytes "a\n"⟩) ∧
    let respaced : Source := ⟨"\nprint \"a\"\t;\r\n-\nnil ;", "spaced"⟩
    (Session.outcome respaced.run Sink.unlimited).2 = ⟨none, .closed, Text.bytes "a\n"⟩ ∧
      (Session.outcome respaced.run Sink.unlimited).1.map Diagnostic.unlined =
        some ⟨.operandMustBeNumber ⟨.dash, "-", none, 0⟩ "nil", ⟨0, "spaced"⟩⟩ := by
  have hfirst : Session.outcome (run ⟨"print\"a\";-nil;", "spaced"⟩) Sink.unlimited =
      (some ⟨.operandMustBeNumber ⟨.dash, "-", none, 1⟩ "nil", ⟨1, "spaced"⟩⟩,
        ⟨none, .closed, Text.bytes "a\n"⟩) := by
    decide +kernel
  obtain ⟨hwritten, hfailure⟩ := (run_respaced ⟨"print\"a\";-nil;", "spaced"⟩ ['\n']
    [(⟨.printWord, "print", none, 1⟩, [' ']), (⟨.string, "\"a\"", some (.string "a"), 1⟩, ['\t']),
      (⟨.semicolon, ";", none, 1⟩, ['\r', '\n']), (⟨.dash, "-", none, 1⟩, ['\n']),
      (⟨.nilWord, "nil", none, 1⟩, [' ']), (⟨.semicolon, ";", none, 1⟩, [])]
    (Token.eof 1) (by decide +kernel) (by simp [Rule.separators]) (by simp [Rule.separators])
    (by simp)).2
  rw [hfirst] at hwritten hfailure
  exact ⟨hfirst, hwritten.symm, hfailure.symm⟩

end Source

end Scriptlet

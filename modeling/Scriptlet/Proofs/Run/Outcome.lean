import Scriptlet.Proofs.Grammar.Closed
import Scriptlet.Proofs.Session.Transcript
import Scriptlet.Proofs.Source.Scanning
import Scriptlet.Run
/-!
# The outcome of a run

A source that cannot be read fails as it is read, and its run writes nothing.  One that is
read as a program writes the transcript of that.
-/

namespace Scriptlet

theorem Stmt.outcome_interpret_unlimited (file : String) (program : List Stmt) :
    Session.outcome (interpret file program) Sink.unlimited =
      ((transcript file program).2, ⟨none, .closed, (transcript file program).1⟩) := by
  have hempty : Sink.unlimited = .holding none .closed [] := (Sink.holding_nil _ _).symm
  rw [hempty, outcome_interpret, if_neg (by simp [Sink.Refuses, Sink.overflows])]
  rfl

namespace Source

variable {source : Source} {tokens : List Token} {program : List Stmt} {d : Diagnostic}

theorem program_of_tokens (h : source.tokens = .ok tokens) :
    source.program = Stmt.ofTokens tokens source.file := by
  rw [Source.program, h]
  rfl

theorem program_of_error (h : source.tokens = .error d) : source.program = .error d := by
  rw [Source.program, h]
  rfl

theorem operator?_of_program_error (h : source.program = .error d) :
    d.fault.operator? = none := by
  cases htokens : source.tokens with
  | ok tokens =>
    rw [program_of_tokens htokens] at h
    exact Grammar.operator?_of_ofTokens_error (shaped_tokens htokens) h
  | error d' =>
    rw [program_of_error htokens] at h
    cases h
    obtain ⟨c, _, _, rfl⟩ := tokens_eq_error_iff.1 htokens
    exact Fault.operator?_ofUncut c

theorem run_of_program (h : source.program = .ok program) (sink : Sink) :
    source.run sink = Stmt.interpret source.file program sink := by
  rw [run, h]

theorem run_of_error (h : source.program = .error d) (sink : Sink) :
    source.run sink = .error d sink := by
  rw [run, h]

/-- What a source writes that is read as a program, and how it ends. -/
theorem outcome_run (h : source.program = .ok program) :
    Session.outcome source.run Sink.unlimited =
      ((Stmt.transcript source.file program).2,
        ⟨none, .closed, (Stmt.transcript source.file program).1⟩) := by
  rw [Session.outcome, run_of_program h]
  exact Stmt.outcome_interpret_unlimited source.file program

theorem outcome_run_of_error (h : source.program = .error d) :
    Session.outcome source.run Sink.unlimited = (some d, Sink.unlimited) := by
  rw [Session.outcome, run_of_error h]

end Source

end Scriptlet

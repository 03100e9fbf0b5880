import Scriptlet.Grammar.Program
import Scriptlet.Report
import Scriptlet.Session
import Scriptlet.Source.Tokens
/-!
# Running a source

A source is cut into tokens, read as a program and executed.  The first stage that
fails ends the run, so nothing is written unless the whole source can be read.
-/

namespace Scriptlet

namespace Source

def expression (source : Source) : Except Diagnostic Expr := do
  Expr.ofTokens (← source.tokens) source.file

def program (source : Source) : Except Diagnostic (List Stmt) := do
  Stmt.ofTokens (← source.tokens) source.file

def run (source : Source) : EStateM Diagnostic Sink Unit := fun sink =>
  match source.program with
  | .error d => .error d sink
  | .ok program => Stmt.interpret source.file program sink

end Source

/-- Writes the report of a diagnostic, line by line, up to the first refusal. -/
def Diagnostic.writeReport (d : Diagnostic) (source : Source) : EStateM Refusal Sink Unit :=
  (d.report source).forM fun line => Sink.write (line ++ "\n")

end Scriptlet

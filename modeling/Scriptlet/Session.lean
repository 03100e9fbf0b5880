import Scriptlet.Evaluation
import Scriptlet.Sink
/-!
# Sessions

A session runs statements from one file into one sink.  It keeps nothing else from
one step to the next.
-/

namespace Scriptlet

namespace Stmt

/-- Writes what a statement prints.  A refused text is nobody's line. -/
def execute (file : String) (statement : Stmt) : EStateM Diagnostic Sink Unit := fun sink =>
  match statement.output file with
  | .error d => .error d sink
  | .ok text =>
    match Sink.write text sink with
    | .ok () sink => .ok () sink
    | .error refusal sink => .error ⟨.outputFailed refusal.text, ⟨0, file⟩⟩ sink

def interpret (file : String) (program : List Stmt) : EStateM Diagnostic Sink Unit :=
  program.forM (execute file)

/-- Executes every statement, and yields the diagnostic of the last that failed. -/
def executeAll (file : String) (program : List Stmt) (sink : Sink) : Option Diagnostic × Sink :=
  program.foldl
    (fun (failure, sink) statement =>
      match statement.execute file sink with
      | .ok () sink => (failure, sink)
      | .error d sink => (some d, sink))
    (none, sink)

end Stmt

inductive Step where
  | evaluate (e : Expr)
  | interpret (program : List Stmt)
  | executeAll (program : List Stmt)
  | locate (t : Token)
  | put (bytes : List UInt8)

def Step.write (text : String) : Step := put (Text.bytes text)

inductive Answer where
  | value (result : Except Diagnostic Value)
  | failure (failure : Option Diagnostic)
  | positions (ofToken ofFile : Position)
  | refusal (refusal : Option Refusal)

structure Session where
  file : String
  sink : Sink
deriving DecidableEq, Repr

namespace Session

def outcome {ε : Type} (action : EStateM ε Sink Unit) (sink : Sink) : Option ε × Sink :=
  match action sink with
  | .ok () sink => (none, sink)
  | .error e sink => (some e, sink)

def step (session : Session) : Step → Answer × Session
  | .evaluate e => (.value (e.eval session.file), session)
  | .interpret program =>
    let (failure, sink) := outcome (Stmt.interpret session.file program) session.sink
    (.failure failure, { session with sink })
  | .executeAll program =>
    let (failure, sink) := Stmt.executeAll session.file program session.sink
    (.failure failure, { session with sink })
  | .locate t => (.positions ⟨t.line, session.file⟩ ⟨0, session.file⟩, session)
  | .put bytes =>
    let (refusal, sink) := outcome (Sink.put bytes) session.sink
    (.refusal refusal, { session with sink })

end Session

end Scriptlet

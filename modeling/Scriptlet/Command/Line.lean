import Scriptlet.Command.Elapsed
import Scriptlet.Command.Host
import Scriptlet.Run
/-!
# The command line

The command line runs one source: the standard input, or the file that its only
argument names.  Two variables of the environment ask for timings and for a listing of
the tokens, which go to the standard error together with the report of a failure.
-/

namespace Scriptlet.Command

structure Settings where
  timings : Bool
  listing : Bool
deriving DecidableEq, Repr

def isOn (value : String) : Bool := value.toLower ∈ ["1", "true", "yes"]

inductive Ending where
  | success | badUsage | unreadable
  | failure (stage : Stage)
deriving DecidableEq, Repr

def Ending.code : Ending → Nat
  | success => 0
  | badUsage => 64
  | unreadable => 66
  | failure .lex => 65
  | failure .parse => 65
  | failure .runtime => 70

variable {m : Type → Type} [Monad m]

def flag (host : Host m) (name : String) : m Bool := do
  return ((← host.environment name).map isOn).getD false

def settings (host : Host m) : m Settings := do
  let timings ← flag host "LOX_TIMINGS"
  let listing ← flag host "LOX_DUMP_TOKENS"
  return ⟨timings, listing⟩

def notice (host : Host m) (line : String) : m Unit := host.notify (line ++ "\n")

def timing (host : Host m) (settings : Settings) (label : String) (since : Nat) : m Unit := do
  if settings.timings then
    let now ← host.clock
    notice host (label ++ elapsedText (now - since))

/-- A result that takes no action on the host. -/
def settled {α : Type} (result : Except Diagnostic α) : ExceptT Diagnostic m α :=
  ExceptT.mk (pure result)

def execute (host : Host m) (file : String) (statement : Stmt) : ExceptT Diagnostic m Unit := do
  let text ← settled (statement.output file)
  match ← ExceptT.lift (host.write text) with
  | none => return
  | some reason => throw ⟨.outputFailed reason, ⟨0, file⟩⟩

def stages (host : Host m) (settings : Settings) (source : Source) :
    ExceptT Diagnostic m Unit := do
  let start ← ExceptT.lift host.clock
  let tokens ← settled source.tokens
  ExceptT.lift (timing host settings "Tokenized in " start)
  if settings.listing then
    ExceptT.lift (tokens.forM fun t => notice host t.listing)
  let read ← ExceptT.lift host.clock
  let program ← settled (Stmt.ofTokens tokens source.file)
  ExceptT.lift (timing host settings "Parsed in " read)
  let executed ← ExceptT.lift host.clock
  program.forM (execute host source.file)
  ExceptT.lift (timing host settings "Interpreted in " executed)
  ExceptT.lift (timing host settings "Total time: " start)

def run (host : Host m) (settings : Settings) (source : Source) : m Ending := do
  match ← (stages host settings source).run with
  | .ok () => return .success
  | .error d =>
    (d.report source).forM (notice host)
    return .failure d.fault.stage

def main (host : Host m) (arguments : List String) : m Ending := do
  let settings ← settings host
  match arguments with
  | [] =>
    match ← host.readInput with
    | .ok text => run host settings ⟨text, "stdin"⟩
    | .error failure =>
      notice host ("Failed to read standard input: " ++ failure.text)
      return .unreadable
  | [path] =>
    match ← host.readFile path with
    | .ok text => run host settings ⟨text, path⟩
    | .error failure =>
      notice host ("Failed to read file " ++ path ++ ": " ++ failure.text)
      return .unreadable
  | _ =>
    notice host "Usage: lox [script]"
    return .badUsage

end Scriptlet.Command

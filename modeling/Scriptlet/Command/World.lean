import Scriptlet.Command.Line
/-!
# A world of values

A host whose input, files and variables are given and whose output is kept, so that
what the command line does is a function of them.  What can be read under a path is
given by a function of the path; the input can be read once.
-/

namespace Scriptlet.Command

/-- What the command line finds around it and leaves there. -/
structure Scene where
  environment : String → Option String
  output : List UInt8
  notices : String

structure World extends Scene where
  input : List UInt8
  files : String → Except ReadFailure (List UInt8)

inductive Entry where
  | file (bytes : List UInt8)
  | directory
deriving DecidableEq, Repr

def Entry.read : Entry → Except ReadFailure (List UInt8)
  | file bytes => .ok bytes
  | directory => .error .isDirectory

namespace World

/-- A world in which only the listed paths can be read. -/
def new (input : List UInt8) (files : List (String × Entry))
    (environment : List (String × String)) : World where
  environment name := environment.lookup name
  output := []
  notices := ""
  input
  files path := ((files.lookup path).map Entry.read).getD (.error .missing)

def decode (bytes : List UInt8) : Except ReadFailure String :=
  match Text.ofBytes? bytes with
  | some text => .ok text
  | none => .error .notText

/-- The host that a world is.  Its clock stands still. -/
def host : Host (StateM World) where
  readInput := modifyGet fun world => (decode world.input, { world with input := [] })
  readFile path := do return (← get).files path >>= decode
  environment name := do return (← get).environment name
  clock := return 0
  write text := do
    modify fun world => { world with output := world.output ++ Text.bytes text }
    return none
  notify text := modify fun world => { world with notices := world.notices ++ text }

def run (world : World) (arguments : List String) : Ending × World :=
  (Command.main host arguments).run world

end World

end Scriptlet.Command

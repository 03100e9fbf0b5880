import Scriptlet.Command.Line
/-!
# The program

The command line on the machine itself.
-/

namespace Scriptlet

/-- The code of the error that a name is too long; some calls report it negated. -/
def isTooLongCode (code : UInt32) : Bool := code == 36 || code == -36

/-- Why an attempt to read failed.  A file that cannot be opened is named in the error;
one that can be opened but not read is not. -/
def ReadFailure.ofError : IO.Error → ReadFailure
  | .noFileOrDirectory .. => .missing
  | .inappropriateType (some _) .. => .notDirectory
  | .inappropriateType none .. => .isDirectory
  | e@(.invalidArgument _ code _) =>
    if isTooLongCode code then .nameTooLong else .other e.toString
  | e => .other e.toString

def decodeRead (read : IO ByteArray) : IO (Except ReadFailure String) := do
  match ← read.toBaseIO with
  | .error e => return .error (.ofError e)
  | .ok bytes =>
    match String.fromUTF8? bytes with
    | some text => return .ok text
    | none => return .error .notText

def machine : Host IO where
  readInput := do decodeRead (← IO.getStdin).readBinToEnd
  readFile path := decodeRead (IO.FS.readBinFile path)
  environment name := IO.getEnv name
  clock := IO.monoNanosNow
  write text := do
    let out ← IO.getStdout
    match ← (do out.putStr text; out.flush : IO Unit).toBaseIO with
    | .ok () => return none
    | .error e => return some e.toString
  notify text := do
    let err ← IO.getStderr
    err.putStr text

end Scriptlet

def main (arguments : List String) : IO UInt32 := do
  let ending ← Scriptlet.Command.main Scriptlet.machine arguments
  return ending.code.toUInt32

/-!
# Hosts

A host is what a command line needs of the machine it runs on: a standard input,
files, environment variables, a clock, and two channels to write to.
-/

namespace Scriptlet

inductive ReadFailure where
  | missing | notDirectory | isDirectory | nameTooLong | notText
  | other (reason : String)
deriving DecidableEq, Repr

def ReadFailure.text : ReadFailure → String
  | missing => "No such file or directory (os error 2)"
  | notDirectory => "Not a directory (os error 20)"
  | isDirectory => "Is a directory (os error 21)"
  | nameTooLong => "File name too long (os error 36)"
  | notText => "stream did not contain valid UTF-8"
  | other reason => reason

structure Host (m : Type → Type) where
  readInput : m (Except ReadFailure String)
  readFile (path : String) : m (Except ReadFailure String)
  environment (name : String) : m (Option String)
  /-- Nanoseconds since some moment in the past. -/
  clock : m Nat
  /-- Writes to the standard output; yields the reason when that fails. -/
  write (text : String) : m (Option String)
  /-- Writes to the standard error. -/
  notify (text : String) : m Unit

end Scriptlet

import Scriptlet.Text.Bytes
/-!
# Sinks

A sink takes the bytes that are written to it.  A limited sink takes no more than
its limit: it keeps the first part of what does not fit and reports that the rest was
refused, either with an error that has a text or by taking nothing.
-/

namespace Scriptlet

inductive Refusal where
  | failed (text : String)
  | nothingTaken
deriving DecidableEq, Repr

namespace Refusal

def closed : Refusal := failed "closed"

def text : Refusal → String
  | failed text => text
  | nothingTaken => "failed to write whole buffer"

end Refusal

structure Sink where
  limit : Option Nat
  refusal : Refusal
  written : List UInt8
deriving DecidableEq, Repr

namespace Sink

def new (limit : Option Nat) (refusal : Refusal) : Sink := ⟨limit, refusal, []⟩

def unlimited : Sink := new none .closed

def fitting (sink : Sink) (bytes : List UInt8) : List UInt8 :=
  match sink.limit with
  | none => bytes
  | some limit => bytes.take (limit - sink.written.length)

/-- Writes some bytes, or as many of them as fit. -/
def put (bytes : List UInt8) : EStateM Refusal Sink Unit := fun sink =>
  let taken := sink.fitting bytes
  let after := { sink with written := sink.written ++ taken }
  if taken.length = bytes.length then .ok () after else .error sink.refusal after

def write (text : String) : EStateM Refusal Sink Unit := put (Text.bytes text)

end Sink

end Scriptlet

import Scriptlet.Number.Decimal
/-!
# Spans of time

A span of time is written in the largest of four units of which it holds at least one.
-/

namespace Scriptlet

def elapsedText (nanoseconds : Nat) : String :=
  let inUnit (places : Nat) (unit : String) : String :=
    String.ofList (Number.Decimal.reduce nanoseconds places).text ++ unit
  if 1000000000 ≤ nanoseconds then inUnit 9 "s"
  else if 1000000 ≤ nanoseconds then inUnit 6 "ms"
  else if 1000 ≤ nanoseconds then inUnit 3 "µs"
  else inUnit 0 "ns"

end Scriptlet

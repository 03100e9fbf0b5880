import Scriptlet.Diagnostic
/-!
# Reports

A report shows a diagnostic to the reader of a source: what went wrong, in which
file, and the line to blame, trimmed, behind a gutter that is as wide as the number
of the line.
-/

namespace Scriptlet

namespace Diagnostic

def heading (d : Diagnostic) : String :=
  let note := match d.fault.tip? with
    | some tip => d.fault.message ++ "; " ++ tip
    | none => d.fault.message
  "Error: " ++ d.fault.stage.name ++ ": " ++ d.fault.name ++ " (" ++ note ++ ")"

def gutter (number : Nat) : String :=
  String.ofList (List.replicate ((toString number).length + 1) ' ' ++ ['|'])

def excerpt (number : Nat) (line : String) : List String :=
  [gutter number,
   toString number ++ " | " ++ String.ofList (Text.trim line.toList),
   gutter number]

/-- The lines of the report.  A diagnostic on a line that the source does not have is
shown without an excerpt. -/
def report (d : Diagnostic) (source : Source) : List String :=
  [d.heading, "-> " ++ d.position.file] ++
    match source.line? d.position.line with
    | some line => excerpt d.position.line line
    | none => []

end Diagnostic

end Scriptlet

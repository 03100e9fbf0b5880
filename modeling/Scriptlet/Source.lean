import Scriptlet.Text.Lines
import Scriptlet.Text.Offset
/-!
# Sources

A source is a text with the label of the file it came from.  A place in it is a
byte offset with the number of the line; a position is what a message names, a
line and a file.
-/

namespace Scriptlet

structure Source where
  text : String
  file : String
deriving DecidableEq, Repr

/-- The label of a source that came from no file. -/
def Source.unnamed : String := "shell"

/-- Line zero stands for no line at all. -/
structure Position where
  line : Nat
  file : String
deriving DecidableEq, Repr

def Position.nowhere : Position := ⟨0, "<null>"⟩

structure Place where
  offset : Nat
  line : Nat
deriving DecidableEq, Repr

namespace Place

def start : Place := ⟨0, 1⟩

def past (place : Place) (taken : List Char) : Place :=
  ⟨place.offset + Text.byteSize taken, place.line + Text.newlines taken⟩

def skip (place : Place) (bytes : Nat) : Place := { place with offset := place.offset + bytes }

@[simp] theorem past_nil (place : Place) : place.past [] = place := rfl

theorem past_append (place : Place) (as bs : List Char) :
    place.past (as ++ bs) = (place.past as).past bs := by
  simp [past, Nat.add_assoc]

end Place

namespace Source

def remainder? (source : Source) (place : Place) : Option String :=
  (Text.after? source.text.toList place.offset).map String.ofList

def atEnd (source : Source) (place : Place) : Bool :=
  Text.byteSize source.text.toList ≤ place.offset

def line? (source : Source) (number : Nat) : Option String :=
  (Text.line? source.text.toList number).map String.ofList

end Source

end Scriptlet

import Scriptlet.Text.Blank
/-!
# Lines of a text

A newline ends a line and starts the next one, so a text has one line more than
it has newlines.  Lines are counted from one.  Carriage returns at the end of a
line do not belong to it.
-/

namespace Scriptlet.Text

def stretches : List Char → List (List Char)
  | [] => [[]]
  | c :: cs =>
    if c = '\n' then [] :: stretches cs
    else match stretches cs with
      | [] => [[c]]
      | first :: others => (c :: first) :: others

def newlines (cs : List Char) : Nat := cs.count '\n'

/-- The line with the given number, or `none` when the text has no such line. -/
def line? (cs : List Char) : Nat → Option (List Char)
  | 0 => none
  | n + 1 => (stretches cs)[n]?.map (dropTrailing (· == '\r'))

@[simp] theorem newlines_nil : newlines [] = 0 := rfl

@[simp] theorem newlines_append (as bs : List Char) :
    newlines (as ++ bs) = newlines as + newlines bs :=
  List.count_append

theorem length_stretches (cs : List Char) : (stretches cs).length = newlines cs + 1 := by
  induction cs with
  | nil => rfl
  | cons c cs ih =>
    by_cases h : c = '\n'
    · simp [stretches, h, newlines, ih]
    · cases hs : stretches cs with
      | nil => simp [hs] at ih
      | cons first others => simp_all [stretches, newlines]

end Scriptlet.Text

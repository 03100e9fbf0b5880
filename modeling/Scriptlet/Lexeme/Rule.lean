import Scriptlet.Kind
/-!
# Lexical rules

Each rule takes a stretch of characters from the front of a text, as many as it
can, or nothing.  The rules stand in a table; the first one that takes something is
the one that applies, so a mark of two characters stands before the marks that begin
it.
-/

namespace Scriptlet

inductive Rule where
  | word | numeral | blanks | newline | string | openQuote | comment
  | mark (kind : Kind) (spelling : List Char)
deriving DecidableEq, Repr

namespace Rule

def isWordStart (c : Char) : Bool := c.isAlpha || c == '_'

def isWordChar (c : Char) : Bool := c.isAlphanum || c == '_'

def isGap (c : Char) : Bool := c == ' ' || c == '\r' || c == '\t'

/-- A point with the digits behind it; a point without digits is not taken. -/
def fraction : List Char → List Char
  | '.' :: cs =>
    let digits := cs.takeWhile Char.isDigit
    if digits = [] then [] else '.' :: digits
  | _ => []

def taken? : Rule → List Char → Option (List Char)
  | word, c :: cs =>
    if isWordStart c then some (c :: cs.takeWhile isWordChar) else none
  | numeral, c :: cs =>
    if c.isDigit then
      some (c :: (cs.takeWhile Char.isDigit ++ fraction (cs.dropWhile Char.isDigit)))
    else none
  | blanks, c :: cs => if isGap c then some (c :: cs.takeWhile isGap) else none
  | newline, '\n' :: _ => some ['\n']
  | string, '"' :: cs =>
    if '"' ∈ cs then some ('"' :: (cs.takeWhile (· ≠ '"') ++ ['"'])) else none
  | openQuote, '"' :: _ => some ['"']
  | comment, '/' :: '/' :: cs => some ('/' :: '/' :: cs.takeWhile (· ≠ '\n'))
  | mark _ (s :: spelling), cs =>
    if (s :: spelling).isPrefixOf cs then some (s :: spelling) else none
  | _, _ => none

def table : List Rule :=
  [word, numeral, blanks, newline, string, openQuote, comment,
   mark .openParen ['('], mark .closeParen [')'],
   mark .openCurly ['\x7b'], mark .closeCurly ['\x7d'],
   mark .comma [','], mark .dot ['.'], mark .dash ['-'], mark .plus ['+'],
   mark .semicolon [';'], mark .star ['*'], mark .slash ['/'],
   mark .notEquals ['!', '='], mark .not ['!'],
   mark .equals ['=', '='], mark .assignment ['='],
   mark .lessEquals ['<', '='], mark .less ['<'],
   mark .greaterEquals ['>', '='], mark .greater ['>']]

def first? (cs : List Char) : Option (Rule × List Char) :=
  table.findSome? fun rule => (rule.taken? cs).map (rule, ·)

theorem isPrefix_fraction (cs : List Char) : fraction cs <+: cs := by
  unfold fraction
  split
  · rename_i rest
    dsimp only
    split
    · exact List.nil_prefix
    · exact List.cons_prefix_cons.2 ⟨rfl, ( List.takeWhile_prefix _)⟩
  · exact List.nil_prefix

private theorem isPrefix_closed {cs : List Char} (h : '"' ∈ cs) :
    cs.takeWhile (· ≠ '"') ++ ['"'] <+: cs := by
  induction cs with
  | nil => simp at h
  | cons c cs ih =>
    by_cases hc : c = '"'
    · subst hc
      simp
    · have hmem : '"' ∈ cs := by
        rcases List.mem_cons.1 h with h | h
        · exact absurd h.symm hc
        · exact h
      simpa [hc] using ih hmem

theorem prefix_of_taken? {rule : Rule} {cs text : List Char} (h : rule.taken? cs = some text) :
    text ≠ [] ∧ text <+: cs := by
  unfold taken? at h
  split at h
  case h_2 c cs =>
    split at h <;> simp only [Option.some.injEq, reduceCtorEq] at h
    subst h
    refine ⟨by simp, List.cons_prefix_cons.2 ⟨rfl, ?_⟩⟩
    conv => rhs; rw [← List.takeWhile_append_dropWhile (p := Char.isDigit) (l := cs)]
    exact (List.prefix_append_right_inj _).2 (isPrefix_fraction _)
  case h_5 cs =>
    split at h <;> simp only [Option.some.injEq, reduceCtorEq] at h
    subst h
    rename_i hmem
    exact ⟨by simp, List.cons_prefix_cons.2 ⟨rfl, isPrefix_closed hmem⟩⟩
  case h_8 =>
    split at h <;> simp only [Option.some.injEq, reduceCtorEq] at h
    subst h
    rename_i hp
    exact ⟨by simp, List.isPrefixOf_iff_prefix.1 hp⟩
  all_goals
    try split at h
    all_goals simp only [Option.some.injEq, reduceCtorEq] at h
    all_goals subst h
    all_goals simp [ List.takeWhile_prefix]

theorem taken?_of_first? {rule : Rule} {cs text : List Char}
    (h : first? cs = some (rule, text)) : rule.taken? cs = some text := by
  obtain ⟨_, _, hrule⟩ := List.exists_of_findSome?_eq_some h
  obtain ⟨_, htaken, heq⟩ := Option.map_eq_some_iff.1 hrule
  cases heq
  exact htaken

end Rule

end Scriptlet

import Mathlib.Data.List.DropRight
import Scriptlet.Proofs.Grammar.Passing
import Scriptlet.Proofs.Grammar.Phases
/-!
# The shape of the tokens of a source

The tokens of a source end with the only end token among them, and its numerals and
strings carry their values.  Any of them from the first on tell by themselves how many
brackets are open and how the statement they are in began.
-/

namespace Scriptlet

namespace Token

/-- A numeral carries a number and a string its text. -/
def Carries (t : Token) : Prop :=
  (t.kind = .number → ∃ x, t.literal = some (.number x)) ∧
    (t.kind = .string → ∃ s, t.literal = some (.string s))

/-- The shape of the tokens of a source: one end token, behind all others. -/
structure Shaped (tokens : List Token) : Prop where
  ends : ∃ us last, tokens = us ++ [last] ∧ last.kind = .eof ∧ ∀ t ∈ us, t.kind ≠ .eof
  carries : ∀ t ∈ tokens, t.Carries

def brackets (depth : Nat) (t : Token) : Nat :=
  match t.kind with
  | .openParen => depth + 1
  | .closeParen => depth - 1
  | _ => depth

def unclosed (us : List Token) : Nat := us.foldl brackets 0

/-- The tokens of the last statement, as far as it has been read. -/
def currentStatement (us : List Token) : List Token := us.rtakeWhile (·.kind != .semicolon)

/-- What is missing behind some tokens of an expression, unless it is an operand. -/
def missingInExpression (us : List Token) : String :=
  if 0 < unclosed us then "expect ')' after expression."
  else "expect end of input after expression."

def missingInProgram (us : List Token) : String :=
  if 0 < unclosed us then "expect ')' after expression."
  else if (currentStatement us).head?.map kind = some .printWord then
    "expect ';' after value."
  else "expect ';' after expression."

theorem Spells.carries {t : Token} {value : Value} (h : t.Spells value) : t.Carries := by
  cases h <;> simp_all [Carries]

theorem brackets_of_inner {t : Token} (h : t.kind.Inner) (depth : Nat) :
    brackets depth t = depth := by
  unfold brackets
  split
  case h_1 hk => exact absurd (by rw [hk]; decide) h
  case h_2 hk => exact absurd (by rw [hk]; decide) h
  case h_3 => rfl

theorem unclosed_concat (us : List Token) (t : Token) :
    unclosed (us ++ [t]) = brackets (unclosed us) t := by
  rw [unclosed, List.foldl_concat, unclosed]

theorem currentStatement_concat {t : Token} (h : t.kind ≠ .semicolon) (us : List Token) :
    currentStatement (us ++ [t]) = currentStatement us ++ [t] :=
  List.rtakeWhile_concat_pos _ us t (by simpa using h)

theorem currentStatement_semicolon {t : Token} (h : t.kind = .semicolon) (us : List Token) :
    currentStatement (us ++ [t]) = [] :=
  List.rtakeWhile_concat_neg _ us t (by simp [h])

theorem Shaped.eq_beforeEnd {tokens : List Token} (h : Shaped tokens) :
    tokens = beforeEnd tokens ++ [Cursor.endOf tokens] := by
  obtain ⟨us, last, rfl, hlast, hus⟩ := h.ends
  have hend : beforeEnd [last] = [] := List.takeWhile_cons_of_neg (by simp [hlast])
  rw [beforeEnd_append hus, hend, List.append_nil, Cursor.endOf_append hus hlast]

theorem Shaped.kind_ne_eof {us rest : List Token} {t u : Token}
    (h : Shaped (us ++ t :: rest)) (hu : u ∈ us) : u.kind ≠ .eof := by
  obtain ⟨vs, last, heq, _, hvs⟩ := h.ends
  apply hvs
  have hinit := congrArg List.dropLast heq
  rw [List.dropLast_concat, List.dropLast_append_of_ne_nil (List.cons_ne_nil t rest)] at hinit
  rw [← hinit]
  exact List.mem_append_left _ hu

end Token

end Scriptlet

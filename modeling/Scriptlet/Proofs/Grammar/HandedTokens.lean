import Scriptlet.Proofs.Grammar.CursorSafety
/-!
# The tokens that steps hand back

A step over a token hands back that token.  In front of the end there is nothing to step over:
the cursor stays where it is and hands back the token that was read last, also when the end
token is the one that was expected.
-/

namespace Scriptlet

namespace Cursor

/-- A cursor hands back the token that it stands at, when it moves on and when a token of that
kind is expected, and it refuses that token where another kind is expected. -/
structure HandsBack (c : Cursor) : Prop where
  advance : ∃ c', Reader.advance c = .ok c.current c'
  expect : ∀ kind message t,
    (∃ c', Reader.expect kind message c = .ok t c') ↔ c.current.kind = kind ∧ t = c.current
  refuse : ∀ kind message, c.current.kind ≠ kind → Reader.expect kind message c =
    .error ⟨.expectedToken message c.current.lexeme, ⟨c.current.line, c.file⟩⟩ c

/-- The token that a step hands back: the current one, or at the end the one read last. -/
def handed (c : Cursor) : Token := if c.current.kind = .eof then c.previous else c.current

variable {c : Cursor}

theorem advance_of_eof (h : c.current.kind = .eof) : c.advance = c := by
  apply advance_of_ahead_nil
  rw [← hasTokens_eq_false_iff, Bool.eq_false_iff]
  exact fun htokens => hasTokens_iff.1 htokens h

theorem previous_advance_eq (c : Cursor) : c.advance.previous = c.handed := by
  rw [handed]
  by_cases hend : c.current.kind = .eof
  · rw [if_pos hend, advance_of_eof hend]
  · rw [if_neg hend, previous_advance (hasTokens_iff.2 hend)]

theorem advance_eq_handed (c : Cursor) : Reader.advance c = .ok c.handed c.advance := by
  rw [Reader.advance, previous_advance_eq]

theorem expect_eq_handed (c : Cursor) (kind : Kind) (message : String) :
    Reader.expect kind message c =
      if c.current.kind = kind then .ok c.handed c.advance
      else .error ⟨.expectedToken message c.current.lexeme, ⟨c.current.line, c.file⟩⟩ c := by
  rw [Reader.expect, previous_advance_eq]
  rfl

theorem handsBack_iff (c : Cursor) : c.HandsBack ↔ c.handed = c.current := by
  constructor
  · intro h
    obtain ⟨c', hadvance⟩ := h.advance
    exact (EStateM.Result.ok.inj (c.advance_eq_handed.symm.trans hadvance)).1
  · intro hhanded
    refine ⟨⟨c.advance, by rw [advance_eq_handed, hhanded]⟩, ?_, ?_⟩
    · intro kind message t
      rw [expect_eq_handed, hhanded]
      by_cases hkind : c.current.kind = kind
      · simp [hkind, eq_comm]
      · simp [hkind]
    · intro kind message hkind
      rw [expect_eq_handed, if_neg hkind]

theorem Passes.kind_previous {c₀ : Cursor} {us : List Token} (h : c₀.Passes us c)
    (hfirst : c₀.behind = []) (hne : c.behind ≠ []) : c.previous.kind ≠ .eof := by
  obtain ⟨t, behind, hbehind⟩ := List.exists_cons_of_ne_nil hne
  have hprevious : c.previous = t := by
    rw [previous, hbehind]
    rfl
  rw [hprevious]
  apply h.kind_ne_eof
  rw [← List.mem_reverse, ← List.append_nil us.reverse, ← hfirst, ← h.behind, hbehind]
  exact List.mem_cons_self

end Cursor

namespace Grammar

open Cursor

/-- **A step hands back the token that it goes over.**  After any operations on any list of
tokens, moving on and expecting a kind hand back the current token unless that is the end
token; at the end the cursor stays and hands back the token read last, which is another one
unless nothing has been read.  A token of another kind than expected is refused, with its text
and its line, where the cursor stands. -/
theorem hands_back_unless_at_end (tokens : List Token) (file : String)
    (operations : List Operation) :
    let c := Operation.afterAll (Cursor.ofTokens tokens file) operations
    (c.HandsBack ↔ c.current.kind ≠ .eof ∨ c.behind = []) ∧
    Reader.advance c = .ok c.handed c.advance ∧
    (∀ kind message, Reader.expect kind message c =
      if c.current.kind = kind then .ok c.handed c.advance
      else .error ⟨.expectedToken message c.current.lexeme, ⟨c.current.line, c.file⟩⟩ c) ∧
    (c.current.kind = .eof → c.advance = c) := by
  intro c
  obtain ⟨us, hpasses⟩ := Operation.exists_passes_afterAll (Cursor.ofTokens tokens file) operations
  refine ⟨?_, c.advance_eq_handed, c.expect_eq_handed, advance_of_eof⟩
  rw [handsBack_iff, handed]
  by_cases hend : c.current.kind = .eof
  · rw [if_pos hend, or_iff_right (not_not.2 hend)]
    constructor
    · -- the token read last is no end token, and the current one is
      intro hprevious
      by_contra hne
      exact hpasses.kind_previous rfl hne (hprevious ▸ hend)
    · intro hbehind
      rw [previous, hbehind]
      rfl
  · rw [if_neg hend]
    exact iff_of_true rfl (.inl hend)

/-- Behind the only token of a list, the end token is expected and that token is handed back. -/
theorem not_handsBack_at_end :
    let one : Token := ⟨.number, "1", some (.number (Number.ofText ['1'])), 1⟩
    let c := Operation.afterAll (Cursor.ofTokens [one, Token.eof 1] "shell") [.advance]
    c.current = Token.eof 1 ∧ Reader.expect .eof "m" c = .ok one c ∧
      Reader.advance c = .ok one c ∧ ¬ c.HandsBack := by
  intro one c
  have hexpect : Reader.expect .eof "m" c = .ok one c := rfl
  refine ⟨rfl, hexpect, rfl, ?_⟩
  intro h
  have hkind := ((h.expect .eof "m" one).1 ⟨c, hexpect⟩).2
  cases congrArg Token.kind hkind

end Grammar

end Scriptlet

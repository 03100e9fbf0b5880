import Scriptlet.Diagnostic
/-!
# Cursors over tokens

A cursor stands between the tokens that have been read and those that have not.
Reading ends at the first end token, which the cursor never passes; a list without
one gets one on its last line.
-/

namespace Scriptlet

/-- The tokens already read, the last one first, those still to be read, and the end
token behind them. -/
structure Cursor where
  behind : List Token
  ahead : List Token
  last : Token
  file : String
  kind_ahead : ∀ t ∈ ahead, t.kind ≠ .eof
  kind_last : last.kind = .eof

namespace Cursor

/-- The end token of a list: its first one, or one on the line of its last token. -/
def endOf (tokens : List Token) : Token :=
  (tokens.find? (·.kind == .eof)).getD (Token.eof ((tokens.getLast?.map Token.line).getD 1))

theorem kind_endOf (tokens : List Token) : (endOf tokens).kind = .eof := by
  unfold endOf
  cases h : tokens.find? (·.kind == .eof) with
  | none => rfl
  | some t => simpa using List.find?_some h

theorem kind_of_mem_takeWhile {tokens : List Token} :
    ∀ t ∈ tokens.takeWhile (·.kind != .eof), t.kind ≠ .eof := by
  intro t ht
  have hall := List.all_takeWhile (p := fun t : Token => t.kind != .eof) (l := tokens)
  simpa using List.all_eq_true.1 hall t ht

def ofTokens (tokens : List Token) (file : String) : Cursor where
  behind := []
  ahead := tokens.takeWhile (·.kind != .eof)
  last := endOf tokens
  file := file
  kind_ahead := kind_of_mem_takeWhile
  kind_last := kind_endOf tokens

def current (c : Cursor) : Token := c.ahead.head?.getD c.last

/-- The token read last; before the first step, the current one. -/
def previous (c : Cursor) : Token := c.behind.head?.getD c.current

def hasTokens (c : Cursor) : Bool := !c.ahead.isEmpty

def remaining (c : Cursor) : Nat := c.ahead.length

def position (c : Cursor) : Position := ⟨c.current.line, c.file⟩

/-- The cursor behind the current token; at the end it stays where it is. -/
def advance (c : Cursor) : Cursor :=
  match h : c.ahead with
  | [] => c
  | t :: rest =>
    { c with
      behind := t :: c.behind
      ahead := rest
      kind_ahead := fun u hu => c.kind_ahead u (h ▸ List.mem_cons_of_mem t hu) }

theorem advance_of_ahead_nil {c : Cursor} (h : c.ahead = []) : c.advance = c := by
  unfold advance
  split
  · rfl
  · simp_all

theorem ahead_advance (c : Cursor) : c.advance.ahead = c.ahead.tail := by
  unfold advance
  split <;> simp_all

theorem last_advance (c : Cursor) : c.advance.last = c.last := by
  unfold advance
  split <;> rfl

theorem file_advance (c : Cursor) : c.advance.file = c.file := by
  unfold advance
  split <;> rfl

/-- Moving on changes neither the tokens nor their order. -/
theorem tokens_advance (c : Cursor) :
    c.advance.behind.reverse ++ c.advance.ahead = c.behind.reverse ++ c.ahead := by
  unfold advance
  split <;> simp_all

theorem hasTokens_eq_true_iff {c : Cursor} : c.hasTokens = true ↔ c.ahead ≠ [] := by
  simp [hasTokens]

theorem hasTokens_eq_false_iff {c : Cursor} : c.hasTokens = false ↔ c.ahead = [] := by
  simp [hasTokens]

theorem hasTokens_iff {c : Cursor} : c.hasTokens = true ↔ c.current.kind ≠ .eof := by
  cases h : c.ahead with
  | nil => simp [hasTokens, current, h, c.kind_last]
  | cons t rest =>
    have ht := c.kind_ahead t (by simp [h])
    simp [hasTokens, current, h, ht]

theorem previous_advance {c : Cursor} (h : c.hasTokens = true) :
    c.advance.previous = c.current := by
  unfold advance
  split <;> simp_all [hasTokens, previous, current]

end Cursor

end Scriptlet

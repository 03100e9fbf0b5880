import Scriptlet.Proofs.Grammar.Calls
/-!
# What any use of a cursor keeps

A cursor is a view of a list of tokens at a position.  Whatever is done to it, in whatever
order and with whatever outcome, it stays a view of the same list; the position never goes
back and never passes the first end token, so there is always a current token and a
previous one.
-/

namespace Scriptlet

/-- The list that a cursor is a view of: an end token is put behind the last one, on its
line, unless the list ends with one. -/
def Token.ended (tokens : List Token) : List Token :=
  if tokens.getLast?.map Token.kind = some .eof then tokens
  else tokens ++ [Token.eof ((tokens.getLast?.map Token.line).getD 1)]

theorem Token.exists_ended_eq (tokens : List Token) :
    ∃ beyond, ended tokens = beforeEnd tokens ++ Cursor.endOf tokens :: beyond := by
  have hsplit : tokens = beforeEnd tokens ++ tokens.dropWhile (·.kind != .eof) :=
    (List.takeWhile_append_dropWhile).symm
  have hbefore : ∀ t ∈ beforeEnd tokens, t.kind ≠ .eof := Cursor.kind_of_mem_takeWhile
  cases hrest : tokens.dropWhile (·.kind != .eof) with
  | nil =>
    -- no end token at all, so one is added
    rw [hrest, List.append_nil] at hsplit
    rw [← hsplit] at hbefore
    have hlast : tokens.getLast?.map Token.kind ≠ some .eof := by
      intro hlast
      obtain ⟨t, ht, hkind⟩ := Option.map_eq_some_iff.1 hlast
      exact hbefore t (List.mem_of_getLast? ht) hkind
    have hnone : tokens.find? (·.kind == .eof) = none := by simpa using hbefore
    refine ⟨[], ?_⟩
    rw [ended, if_neg hlast, Cursor.endOf, hnone, ← hsplit, Option.getD_none]
  | cons t rest =>
    rw [hrest] at hsplit
    have hkind : t.kind = .eof := by
      have hhead := List.head?_dropWhile_not (·.kind != .eof) tokens
      rw [hrest] at hhead
      simpa using hhead
    have hend : Cursor.endOf tokens = t := by
      rw [hsplit]
      exact Cursor.endOf_append hbefore hkind rest
    rw [ended]
    split_ifs
    · exact ⟨rest, by rw [hend, ← hsplit]⟩
    · refine ⟨rest ++ [Token.eof ((tokens.getLast?.map Token.line).getD 1)], ?_⟩
      rw [hend, ← List.cons_append, ← List.append_assoc, ← hsplit]

/-- The cursor is a view of a list of tokens at a position before the first end token or at
it: it holds the tokens of the list, those before the position as the ones that were read. -/
structure Cursor.Stands (c : Cursor) (vector : List Token) (position : Nat) : Prop where
  unchanged : ∃ beyond, vector = c.behind.reverse ++ c.ahead ++ c.last :: beyond
  length_behind : c.behind.length = position
  kind_passed : ∀ t ∈ vector.take position, t.kind ≠ .eof
  current : vector[position]? = some c.current
  previous : vector[position - 1]? = some c.previous

theorem Cursor.Passes.stands {tokens us : List Token} {file : String} {c : Cursor}
    (h : (ofTokens tokens file).Passes us c) : c.Stands (Token.ended tokens) us.length := by
  obtain ⟨beyond, hended⟩ := Token.exists_ended_eq tokens
  have hbehind : c.behind = us.reverse := by
    rw [h.behind]
    exact List.append_nil _
  have hvector : Token.ended tokens = us ++ (c.ahead ++ c.last :: beyond) := by
    rw [hended, ← ahead_ofTokens tokens file, h.ahead, h.last, List.append_assoc]
    rfl
  have hcurrent : (c.ahead ++ c.last :: beyond)[0]? = some c.current := by
    rw [current]
    cases c.ahead <;> rfl
  refine ⟨⟨beyond, ?_⟩, ?_, ?_, ?_, ?_⟩
  · rw [hvector, hbehind, List.reverse_reverse, List.append_assoc]
  · rw [hbehind, List.length_reverse]
  · rw [hvector, List.take_left]
    exact fun t ht => h.kind_ne_eof ht
  · rw [hvector, List.getElem?_append_right (Nat.le_refl _), Nat.sub_self, hcurrent]
  · -- before the first step the current token counts as the previous one
    rw [previous, hbehind, hvector, List.head?_reverse]
    rcases List.eq_nil_or_concat us with rfl | ⟨vs, t, rfl⟩
    · exact hcurrent
    · simp

namespace Grammar

open Reader

inductive Operation where
  | advance
  | check (kind : Kind)
  | accept (kinds : List Kind)
  | expect (kind : Kind) (message : String)
  | expression (level : Level)
  | binary (level : Level)
  | literal
  | grouping
  | statement
  | opening
  | expressionStatement
  | printStatement

inductive Given where
  | token (t : Token)
  | verdict (b : Bool)
  | tree (e : Expr)
  | statement (s : Stmt)

namespace Operation

def Reads : Operation → Prop
  | advance | check _ | accept _ | expect _ _ => False
  | _ => True

def run : Operation → Reader Given
  | advance => do return .token (← Reader.advance)
  | check kind => do return .verdict ((← Reader.current).kind == kind)
  | accept kinds => do return .verdict (← accept? kinds).isSome
  | expect kind message => do return .token (← Reader.expect kind message)
  | expression level => do return .tree (← Grammar.expression level)
  | binary level => do return .tree (← Grammar.binary level)
  | literal => do return .tree (← Grammar.literal)
  | grouping => do return .tree (← Grammar.grouping)
  | statement => do return .statement (← Grammar.statement)
  | opening => do return .statement (← Grammar.opening)
  | expressionStatement => do return .statement (← Grammar.expressionStatement)
  | printStatement => do return .statement (← Grammar.printStatement)

theorem forward_run (operation : Operation) : Forward operation.run := by
  cases operation with
  | advance => exact forward_advance.map _
  | check kind => exact forward_current.map _
  | accept kinds => exact (forward_accept? kinds).map _
  | expect kind message => exact (forward_expect kind message).map _
  | expression level => exact (forward_expression level).map _
  | binary level => exact (forward_binary level).map _
  | literal => exact forward_literal.map _
  | grouping => exact forward_grouping.map _
  | statement => exact forward_statement.map _
  | opening => exact forward_opening.map _
  | expressionStatement => exact forward_expressionStatement.map _
  | printStatement => exact forward_printStatement.map _

theorem advances_run {operation : Operation} (h : operation.Reads) : Advances operation.run := by
  cases operation with
  | advance | check | accept | expect => exact h.elim
  | expression level => exact (advances_expression level).bind fun _ => forward_pure _
  | binary level => exact (advances_binary level).bind fun _ => forward_pure _
  | literal => exact advances_literal.bind fun _ => forward_pure _
  | grouping => exact advances_grouping.bind fun _ => forward_pure _
  | statement => exact advances_statement.bind fun _ => forward_pure _
  | opening => exact advances_opening.bind fun _ => forward_pure _
  | expressionStatement => exact advances_expressionStatement.bind fun _ => forward_pure _
  | printStatement => exact advances_printStatement.bind fun _ => forward_pure _

/-- The cursor after some operations, whichever of them fail. -/
def afterAll (c : Cursor) (operations : List Operation) : Cursor :=
  operations.foldl (fun c operation => operation.run.after c) c

theorem exists_passes_afterAll (c : Cursor) (operations : List Operation) :
    ∃ us, c.Passes us (afterAll c operations) := by
  induction operations generalizing c with
  | nil => exact ⟨[], .refl c⟩
  | cons operation operations ih =>
    obtain ⟨us, hpasses⟩ := operation.forward_run c
    obtain ⟨vs, hpasses'⟩ := ih (operation.run.after c)
    exact ⟨us ++ vs, hpasses.trans hpasses'⟩

end Operation

/-- **A cursor is safe under every use.**  After any operations it is a view of the list
that it was made for, at a position up to the first end token.  A further operation leaves
it a view of the same list at a position that is no smaller, and at a larger one when it
reads an expression or a statement and succeeds.  Every call that reading makes there comes
to one result, without any bound on the calls that it makes in turn, and so does reading
statements up to the end. -/
theorem cursor_safe_under_every_use (tokens : List Token) (file : String)
    (operations : List Operation) :
    let vector := Token.ended tokens
    let c := Operation.afterAll (Cursor.ofTokens tokens file) operations
    ∃ position, c.Stands vector position ∧
      (∀ operation : Operation, ∃ further, position ≤ further ∧
        (operation.run.after c).Stands vector further ∧
        (operation.Reads → ∀ given d, operation.run c = .ok given d → position < further)) ∧
      (∀ task r, Returns task c r ↔ task.read c = r) ∧
      ∀ r, Repeats c r ↔ statements c.remaining c = r := by
  intro vector c
  obtain ⟨us, hpasses⟩ := Operation.exists_passes_afterAll (Cursor.ofTokens tokens file) operations
  refine ⟨us.length, hpasses.stands, ?_, fun _ _ => returns_iff, fun _ => repeats_iff⟩
  intro operation
  obtain ⟨vs, hpasses'⟩ := operation.forward_run c
  refine ⟨(us ++ vs).length, by simp, (hpasses.trans hpasses').stands, ?_⟩
  intro hreads given d hrun
  have hlt := Operation.advances_run hreads hrun
  rw [after_of_ok hrun] at hpasses'
  have hremaining := hpasses'.remaining_eq
  rw [List.length_append]
  omega

end Grammar

end Scriptlet

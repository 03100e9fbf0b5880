import Scriptlet.Proofs.Grammar.Progress
/-!
# Reading without a bound

The readers of expressions call each other, and one of them repeats a step for as long as
it finds an operator.  The rules below say what such a call comes to when nothing bounds
it; a call has a result only by finitely many of them.  Every call has exactly one, and it
is the one that the bounded reader yields, so the bound ends nothing that would have gone
on.  The same is said of the statements of a program.
-/

namespace Scriptlet

namespace Grammar

open Reader

/-- What an expression is read by: all of a level, the operands of a level with operators
between them, more of those behind a left operand, a literal, or an expression in brackets. -/
inductive Task where
  | expression (level : Level)
  | binary (level : Level)
  | chain (level : Level) (left : Expr)
  | literal
  | grouping
deriving DecidableEq

def Task.read : Task → Reader Expr
  | expression level => Grammar.expression level
  | binary level => Grammar.binary level
  | chain level left => fun c =>
    chainFrom level.operators (atLevel (primary c.remaining) c.remaining level.next)
      c.remaining left c
  | literal => Grammar.literal
  | grouping => Grammar.grouping

/-- What a task comes to at a place, without a bound on its calls. -/
inductive Returns : Task → Cursor → EStateM.Result Diagnostic Cursor Expr → Prop where
  | default {c r} (h : Returns (.expression .equality) c r) :
      Returns (.expression .default) c r
  | level {level : Level} {c r} (hlevel : level.operators ≠ []) (h : Returns (.binary level) c r) :
      Returns (.expression level) c r
  | operand {level : Level} {c left d r} (hleft : Returns (.expression level.next) c (.ok left d))
      (h : Returns (.chain level left) d r) : Returns (.binary level) c r
  | operandFails {level : Level} {c e d} (h : Returns (.expression level.next) c (.error e d)) :
      Returns (.binary level) c (.error e d)
  | more {level : Level} {c left right d r} (hkind : c.current.kind ∈ level.operators)
      (hright : Returns (.expression level.next) c.advance (.ok right d))
      (h : Returns (.chain level (.binary c.current left right)) d r) :
      Returns (.chain level left) c r
  | moreFails {level : Level} {c left e d} (hkind : c.current.kind ∈ level.operators)
      (h : Returns (.expression level.next) c.advance (.error e d)) :
      Returns (.chain level left) c (.error e d)
  | done {level : Level} {c left} (hkind : c.current.kind ∉ level.operators) :
      Returns (.chain level left) c (.ok left c)
  | signed {c operand d} (hkind : c.current.kind ∈ Kind.unaryOperators)
      (h : Returns (.expression .unary) c.advance (.ok operand d)) :
      Returns (.expression .unary) c (.ok (.unary c.current operand) d)
  | signedFails {c e d} (hkind : c.current.kind ∈ Kind.unaryOperators)
      (h : Returns (.expression .unary) c.advance (.error e d)) :
      Returns (.expression .unary) c (.error e d)
  | unsigned {c r} (hkind : c.current.kind ∉ Kind.unaryOperators)
      (h : Returns (.expression .primary) c r) : Returns (.expression .unary) c r
  | single {c r} (hkind : c.current.kind ∈ Kind.literals) (h : Returns .literal c r) :
      Returns (.expression .primary) c r
  | opened {c r} (hkind : c.current.kind = .openParen) (h : Returns .grouping c r) :
      Returns (.expression .primary) c r
  | neither {c} (hkind : c.current.kind.beginsPrimary = false) :
      Returns (.expression .primary) c
        (.error ⟨.expectedExpression c.current.lexeme, c.position⟩ c)
  | literal {c} : Returns .literal c (Grammar.literal c)
  | bracketed {c inner d} (h : Returns (.expression .default) c.advance (.ok inner d)) :
      Returns .grouping c ((expect .closeParen "expect ')' after expression." >>= fun _ =>
        pure (.grouping inner)) d)
  | bracketedFails {c e d} (h : Returns (.expression .default) c.advance (.error e d)) :
      Returns .grouping c (.error e d)

/-! ## Every call has a result -/

section

variable {operand : Reader Expr} {bound : Nat}

theorem returns_prefixed
    (ho : ∀ c, c.remaining ≤ bound → Returns (.expression .primary) c (operand c))
    (further : Nat) : ∀ c : Cursor, c.remaining ≤ further → c.remaining ≤ bound →
      Returns (.expression .unary) c (prefixed operand further c) := by
  induction further with
  | zero =>
    intro c hfurther hbound
    have hkind : c.current.kind ∉ Kind.unaryOperators := by
      rw [Cursor.kind_eq_eof_of_remaining (Nat.le_zero.1 hfurther)]
      decide
    exact .unsigned hkind (ho c hbound)
  | succ further ih =>
    intro c hfurther hbound
    by_cases hkind : c.current.kind ∈ Kind.unaryOperators
    · have hlt := remaining_advance_lt (Kind.inner_of_mem_unaryOperators hkind).ne_eof
      have hrest := ih c.advance (by omega) (by omega)
      rw [prefixed_of_mem further hkind]
      refine bind_cases (P := Returns (.expression .unary) c) ?_ ?_
      · intro e d hoperand
        rw [hoperand] at hrest
        exact .signedFails hkind hrest
      · intro e d hoperand
        rw [hoperand] at hrest
        exact .signed hkind hrest
    · rw [prefixed_of_not_mem _ hkind]
      exact .unsigned hkind (ho c hbound)

theorem returns_chainFrom {level : Level} (hforward : Forward operand)
    (ho : ∀ c, c.remaining ≤ bound → Returns (.expression level.next) c (operand c))
    (further : Nat) : ∀ (c : Cursor) (left : Expr), c.remaining ≤ further → c.remaining ≤ bound →
      Returns (.chain level left) c (chainFrom level.operators operand further left c) := by
  induction further with
  | zero =>
    intro c left hfurther _
    have heof := Cursor.kind_eq_eof_of_remaining (Nat.le_zero.1 hfurther)
    exact .done (heof ▸ level.eof_not_mem_operators)
  | succ further ih =>
    intro c left hfurther hbound
    by_cases hkind : c.current.kind ∈ level.operators
    · have hlt := remaining_advance_lt (Kind.inner_of_mem_operators hkind).ne_eof
      have hright := ho c.advance (by omega)
      rw [chainFrom_of_mem _ _ hkind level.eof_not_mem_operators]
      refine bind_cases (P := Returns (.chain level left) c) ?_ ?_
      · intro e d hoperand
        rw [hoperand] at hright
        exact .moreFails hkind hright
      · intro right d hoperand
        -- each repetition takes its operator, so the smaller bound is still sufficient
        rw [hoperand] at hright
        have hle := hforward.remaining_le hoperand
        exact .more hkind hright (ih d _ (by omega) (by omega))
    · rw [chainFrom_of_not_mem _ _ hkind]
      exact .done hkind

theorem returns_chain {level : Level} (hforward : Forward operand)
    (ho : ∀ c, c.remaining ≤ bound → Returns (.expression level.next) c (operand c))
    (c : Cursor) (hbound : c.remaining ≤ bound) :
    Returns (.binary level) c (chain level.operators operand bound c) := by
  have hleft := ho c hbound
  refine bind_cases (P := Returns (.binary level) c) ?_ ?_
  · intro e d hoperand
    rw [hoperand] at hleft
    exact .operandFails hleft
  · intro left d hoperand
    rw [hoperand] at hleft
    have hle := hforward.remaining_le hoperand
    exact .operand hleft (returns_chainFrom hforward ho bound d left (by omega) (by omega))

theorem returns_bracketed {c : Cursor}
    (h : Returns (.expression .default) c.advance (operand c.advance)) :
    Returns .grouping c (bracketed operand c) := by
  rw [bracketed_eq]
  refine bind_cases (P := Returns .grouping c) ?_ ?_
  · intro e d hoperand
    rw [hoperand] at h
    exact .bracketedFails h
  · intro inner d hoperand
    rw [hoperand] at h
    exact .bracketed h

theorem returns_atLevel
    (hprimary : ∀ c, c.remaining ≤ bound → Returns (.expression .primary) c (primary bound c))
    (level : Level) : ∀ c : Cursor, c.remaining ≤ bound →
      Returns (.expression level) c (atLevel (primary bound) bound level c) := by
  induction level using Level.descend with
  | primary => exact hprimary
  | unary ih => exact fun c hbound => returns_prefixed ih bound c hbound hbound
  | binary level hlevel ih =>
    intro c hbound
    rw [atLevel_of_operators hlevel]
    have hforward := forward_atLevel (forward_primary bound) bound level.next
    exact .level hlevel (returns_chain hforward ih c hbound)
  | default ih => exact fun c hbound => .default (ih c hbound)

theorem returns_primary (bound : Nat) : ∀ c : Cursor, c.remaining ≤ bound →
    Returns (.expression .primary) c (primary bound c) := by
  have hneither : ∀ (bound : Nat) (c : Cursor), c.current.kind ∉ Kind.literals →
      c.current.kind ≠ .openParen → Returns (.expression .primary) c (primary bound c) := by
    intro bound c hliteral hopen
    rw [primary_of_not_mem bound hliteral hopen]
    exact .neither (by simp [Kind.beginsPrimary, hliteral, hopen])
  induction bound with
  | zero =>
    intro c hbound
    have heof := Cursor.kind_eq_eof_of_remaining (Nat.le_zero.1 hbound)
    exact hneither 0 c (by rw [heof]; decide) (by rw [heof]; decide)
  | succ bound ih =>
    intro c hbound
    by_cases hliteral : c.current.kind ∈ Kind.literals
    · rw [primary_of_mem_literals bound hliteral]
      exact .single hliteral .literal
    by_cases hopen : c.current.kind = .openParen
    · have hlt := remaining_advance_lt (c := c) (by rw [hopen]; decide)
      rw [primary_of_openParen bound hopen]
      exact .opened hopen (returns_bracketed (returns_atLevel ih .default _ (by omega)))
    · exact hneither _ c hliteral hopen

end

theorem returns_read (task : Task) (c : Cursor) : Returns task c (task.read c) := by
  have hlevel : ∀ (bound : Nat) (level : Level) (d : Cursor), d.remaining ≤ bound →
      Returns (.expression level) d (atLevel (primary bound) bound level d) :=
    fun bound => returns_atLevel (returns_primary bound)
  have hforward : ∀ level, Forward (atLevel (primary c.remaining) c.remaining level) :=
    forward_atLevel (forward_primary _) _
  have hle := Nat.le_refl c.remaining
  cases task with
  | expression level => exact hlevel _ level c hle
  | binary level => exact returns_chain (hforward _) (hlevel _ level.next) c hle
  | chain level left =>
    exact returns_chainFrom (hforward _) (hlevel _ level.next) c.remaining c left hle hle
  | literal => exact .literal
  | grouping => exact returns_bracketed (hlevel _ .default _ (remaining_advance_le c))

/-! ## No call has two -/

theorem Returns.unique {task : Task} {c : Cursor} {r s : EStateM.Result Diagnostic Cursor Expr}
    (h : Returns task c r) (h' : Returns task c s) : r = s := by
  induction h generalizing s with
  | default _ ih =>
    cases h' with
    | default h' => exact ih h'
    | level hlevel => exact absurd rfl hlevel
  | level hlevel _ ih =>
    cases h' with
    | level _ h' => exact ih h'
    | _ => exact absurd rfl hlevel
  | operand _ _ ihleft ih =>
    cases h' with
    | operand hleft h' =>
      cases ihleft hleft
      exact ih h'
    | operandFails h' => cases ihleft h'
  | operandFails _ ih =>
    cases h' with
    | operand hleft => cases ih hleft
    | operandFails h' => exact ih h'
  | more hkind _ _ ihright ih =>
    cases h' with
    | more _ hright h' =>
      cases ihright hright
      exact ih h'
    | moreFails _ h' => cases ihright h'
    | done hkind' => exact absurd hkind hkind'
  | moreFails hkind _ ih =>
    cases h' with
    | more _ hright => cases ih hright
    | moreFails _ h' => exact ih h'
    | done hkind' => exact absurd hkind hkind'
  | done hkind =>
    cases h' with
    | more hkind' | moreFails hkind' => exact absurd hkind' hkind
    | done => rfl
  | signed hkind _ ih =>
    cases h' with
    | level hlevel => exact absurd rfl hlevel
    | signed _ h' =>
      cases ih h'
      rfl
    | signedFails _ h' => cases ih h'
    | unsigned hkind' => exact absurd hkind hkind'
  | signedFails hkind _ ih =>
    cases h' with
    | level hlevel => exact absurd rfl hlevel
    | signed _ h' => cases ih h'
    | signedFails _ h' => exact ih h'
    | unsigned hkind' => exact absurd hkind hkind'
  | unsigned hkind _ ih =>
    cases h' with
    | level hlevel => exact absurd rfl hlevel
    | signed hkind' | signedFails hkind' => exact absurd hkind' hkind
    | unsigned _ h' => exact ih h'
  | single hkind _ ih =>
    cases h' with
    | level hlevel => exact absurd rfl hlevel
    | single _ h' => exact ih h'
    | opened hkind' => rw [hkind'] at hkind; exact absurd hkind (by decide)
    | neither hkind' => simp [Kind.beginsPrimary, hkind] at hkind'
  | opened hkind _ ih =>
    cases h' with
    | level hlevel => exact absurd rfl hlevel
    | single hkind' => rw [hkind] at hkind'; exact absurd hkind' (by decide)
    | opened _ h' => exact ih h'
    | neither hkind' => simp [Kind.beginsPrimary, hkind] at hkind'
  | neither hkind =>
    cases h' with
    | level hlevel => exact absurd rfl hlevel
    | single hkind' | opened hkind' => simp [Kind.beginsPrimary, hkind'] at hkind
    | neither => rfl
  | literal =>
    cases h'
    rfl
  | bracketed _ ih =>
    cases h' with
    | bracketed h' =>
      cases ih h'
      rfl
    | bracketedFails h' => cases ih h'
  | bracketedFails _ ih =>
    cases h' with
    | bracketed h' => cases ih h'
    | bracketedFails h' => exact ih h'

/-- A task comes to what its reader yields, and to nothing else. -/
theorem returns_iff {task : Task} {c : Cursor} {r : EStateM.Result Diagnostic Cursor Expr} :
    Returns task c r ↔ task.read c = r := by
  constructor
  · intro h
    exact (returns_read task c).unique h
  · rintro rfl
    exact returns_read task c

/-! ## The statements of a program -/

/-- What reading statements up to the end comes to, without a bound on how many there are. -/
inductive Repeats : Cursor → EStateM.Result Diagnostic Cursor (List Stmt) → Prop where
  | done {c : Cursor} (h : c.hasTokens = false) : Repeats c (.ok [] c)
  | fails {c d : Cursor} {e : Diagnostic} (h : c.hasTokens = true)
      (hfirst : statement c = .error e d) : Repeats c (.error e d)
  | more {c d d' : Cursor} {first : Stmt} {others : List Stmt} (h : c.hasTokens = true)
      (hfirst : statement c = .ok first d) (hothers : Repeats d (.ok others d')) :
      Repeats c (.ok (first :: others) d')
  | moreFails {c d d' : Cursor} {first : Stmt} {e : Diagnostic} (h : c.hasTokens = true)
      (hfirst : statement c = .ok first d) (hothers : Repeats d (.error e d')) :
      Repeats c (.error e d')

theorem repeats_statements (bound : Nat) : ∀ c : Cursor, c.remaining ≤ bound →
    Repeats c (statements bound c) := by
  induction bound with
  | zero =>
    intro c hbound
    have hahead : c.ahead = [] := List.eq_nil_of_length_eq_zero (Nat.le_zero.1 hbound)
    exact .done (Cursor.hasTokens_eq_false_iff.2 hahead)
  | succ bound ih =>
    intro c hbound
    cases htokens : c.hasTokens with
    | false =>
      rw [statements_of_end _ (Cursor.hasTokens_eq_false_iff.1 htokens)]
      exact .done htokens
    | true =>
      rw [statements_of_tokens bound (Cursor.hasTokens_eq_true_iff.1 htokens)]
      refine bind_cases (P := Repeats c) (fun e d hfirst => .fails htokens hfirst) ?_
      intro first d hfirst
      -- a statement takes a token, so the smaller bound is sufficient behind it
      have hlt := advances_statement hfirst
      have hothers := ih d (by omega)
      refine bind_cases (P := Repeats c) ?_ ?_
      · intro e d' hrest
        rw [hrest] at hothers
        exact .moreFails htokens hfirst hothers
      · intro others d' hrest
        rw [hrest] at hothers
        exact .more htokens hfirst hothers

theorem Repeats.statements_eq {c : Cursor} {r : EStateM.Result Diagnostic Cursor (List Stmt)}
    (h : Repeats c r) : ∀ bound, c.remaining ≤ bound → statements bound c = r := by
  have hstep : ∀ {c : Cursor} {bound : Nat}, c.hasTokens = true → c.remaining ≤ bound →
      ∃ smaller, bound = smaller + 1 ∧ c.ahead ≠ [] := by
    intro c bound htokens hbound
    have hahead := Cursor.hasTokens_eq_true_iff.1 htokens
    have hpos := List.length_pos_iff.2 hahead
    rw [Cursor.remaining] at hbound
    exact ⟨bound - 1, by omega, hahead⟩
  induction h with
  | done htokens =>
    intro bound _
    exact statements_of_end bound (Cursor.hasTokens_eq_false_iff.1 htokens)
  | fails htokens hfirst =>
    intro bound hbound
    obtain ⟨smaller, rfl, hahead⟩ := hstep htokens hbound
    rw [statements_of_tokens smaller hahead]
    exact bind_eq_error_iff.2 (.inl hfirst)
  | more htokens hfirst _ ih =>
    intro bound hbound
    obtain ⟨smaller, rfl, hahead⟩ := hstep htokens hbound
    have hlt := advances_statement hfirst
    rw [statements_of_tokens smaller hahead, bind_of_ok hfirst, bind_of_ok (ih smaller (by omega))]
    rfl
  | moreFails htokens hfirst _ ih =>
    intro bound hbound
    obtain ⟨smaller, rfl, hahead⟩ := hstep htokens hbound
    have hlt := advances_statement hfirst
    rw [statements_of_tokens smaller hahead, bind_of_ok hfirst]
    exact bind_eq_error_iff.2 (.inl (ih smaller (by omega)))

theorem repeats_iff {c : Cursor} {r : EStateM.Result Diagnostic Cursor (List Stmt)} :
    Repeats c r ↔ statements c.remaining c = r := by
  constructor
  · intro h
    exact h.statements_eq c.remaining (Nat.le_refl _)
  · rintro rfl
    exact repeats_statements c.remaining c (Nat.le_refl _)

end Grammar

end Scriptlet

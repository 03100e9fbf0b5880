import Mathlib.Data.List.Forall2
import Scriptlet.Grammar.Program
import Scriptlet.Proofs.Grammar.ExpressionLanguage
/-!
# The language of programs

A program is read as a sequence of statements, and each statement is written with a
stretch of tokens of its own.  The first statement is read differently from the others,
since only it may lack its semicolon; on closed statements the two ways agree.
-/

namespace Scriptlet

/-- The tokens that a statement is written with: its expression with a semicolon behind
it, and a word before it if the statement prints. -/
inductive Stmt.Yields : Stmt → List Token → Prop where
  | print {w s : Token} {e : Expr} {us : List Token} (hw : w.kind = .printWord)
      (hs : s.kind = .semicolon) (he : e.WellFormed) (hy : e.Yields us) :
      Yields (.print e) (w :: (us ++ [s]))
  | expression {s : Token} {e : Expr} {us : List Token} (hs : s.kind = .semicolon)
      (he : e.WellFormed) (hy : e.Yields us) : Yields (.expression e) (us ++ [s])

theorem Stmt.Yields.ne_nil {statement : Stmt} {us : List Token} (h : statement.Yields us) :
    us ≠ [] := by
  cases h <;> simp

namespace Grammar

open Reader

variable {c c' : Cursor}

/-! ## One step of each reader -/

theorem not_beginsStatement {level : Level} {e : Expr} {t : Token} {us : List Token}
    (h : Derives level e (t :: us)) : t.kind.beginsStatement = false := by
  obtain ⟨t', vs, heq, hkind⟩ := h.head
  obtain ⟨rfl, rfl⟩ := List.cons_eq_cons.1 heq
  rw [Kind.beginsStatement, beq_eq_false_iff_ne]
  intro hprint
  rw [hprint] at hkind
  rcases hkind with hprimary | ⟨_, hunary⟩
  · exact absurd hprimary (by decide)
  · exact absurd hunary (by decide)

theorem statement_of_begins (h : c.current.kind.beginsStatement = true) :
    statement c =
      (expression .default >>= fun e =>
        expect .semicolon "expect ';' after value." >>= fun _ => pure (.print e)) c.advance := by
  rw [statement, bind_of_ok (rfl : current c = .ok c.current c)]
  refine (congrFun (if_pos h) c).trans ?_
  exact bind_of_ok (rfl : advance c = .ok _ c.advance)

theorem statement_of_not_begins (h : c.current.kind.beginsStatement = false) :
    statement c = expressionStatement c := by
  rw [statement, bind_of_ok (rfl : current c = .ok c.current c)]
  exact congrFun (if_neg (by rw [h]; exact Bool.false_ne_true)) c

theorem opening_of_begins (h : c.current.kind.beginsStatement = true) :
    opening c = statement c := by
  rw [opening, bind_of_ok (rfl : current c = .ok c.current c)]
  exact congrFun (if_pos h) c

theorem opening_of_not_begins (h : c.current.kind.beginsStatement = false) :
    opening c =
      (expression .default >>= fun e => hasTokens >>= fun more =>
        if more = true then closeExpression e else pure (.print e)) c := by
  rw [opening, bind_of_ok (rfl : current c = .ok c.current c)]
  exact congrFun (if_neg (by rw [h]; exact Bool.false_ne_true)) c

theorem statements_of_end (bound : Nat) (h : c.ahead = []) :
    statements bound c = .ok [] c := by
  cases bound with
  | zero => rfl
  | succ bound =>
    have htokens := Cursor.hasTokens_eq_false_iff.2 h
    rw [statements, bind_of_ok (rfl : hasTokens c = .ok c.hasTokens c), htokens]
    rfl

theorem statements_of_tokens (bound : Nat) (h : c.ahead ≠ []) :
    statements (bound + 1) c =
      (statement >>= fun first => statements bound >>= fun others =>
        pure (first :: others)) c := by
  have htokens := Cursor.hasTokens_eq_true_iff.2 h
  rw [statements, bind_of_ok (rfl : hasTokens c = .ok c.hasTokens c), htokens]
  rfl

theorem program_of_end (h : c.ahead = []) : program c = .ok [] c := by
  have htokens := Cursor.hasTokens_eq_false_iff.2 h
  rw [program, bind_of_ok (rfl : hasTokens c = .ok c.hasTokens c), htokens]
  rfl

theorem program_of_tokens (h : c.ahead ≠ []) :
    program c =
      (opening >>= fun first => statements c.remaining >>= fun others =>
        pure (first :: others)) c := by
  have htokens := Cursor.hasTokens_eq_true_iff.2 h
  rw [program, bind_of_ok (rfl : hasTokens c = .ok c.hasTokens c), htokens]
  rfl

/-! ## Readers yield statements from their tokens -/

theorem yields_of_closeExpression {e : Expr} {statement : Stmt} {us : List Token}
    (he : Derives .default e us) (h : closeExpression e c = .ok statement c') :
    ∃ s, c.Passes [s] c' ∧ statement.Yields (us ++ [s]) := by
  obtain ⟨s, d, hs, h⟩ := bind_eq_ok_iff.1 h
  cases h
  obtain ⟨hkind, hpasses⟩ := passes_of_expect (by decide) hs
  obtain ⟨hw, hy⟩ := derives_iff_yields.1 he
  exact ⟨s, hpasses, .expression hkind hw hy⟩

theorem yields_of_statement {statement : Stmt} (h : Grammar.statement c = .ok statement c') :
    ∃ us, c.Passes us c' ∧ statement.Yields us := by
  cases hbegins : c.current.kind.beginsStatement with
  | true =>
    have hprint : c.current.kind = .printWord := eq_of_beq hbegins
    rw [statement_of_begins hbegins] at h
    obtain ⟨e, d, he, h⟩ := bind_eq_ok_iff.1 h
    obtain ⟨s, d', hs, h⟩ := bind_eq_ok_iff.1 h
    cases h
    obtain ⟨us, hpasses, hderives, _⟩ := expression_eq_ok_iff.1 he
    obtain ⟨hkind, hpasses'⟩ := passes_of_expect (by decide) hs
    obtain ⟨hw, hy⟩ := derives_iff_yields.1 hderives
    have hfirst := Cursor.passes_advance (c := c) (by rw [hprint]; decide)
    exact ⟨_, hfirst.trans (hpasses.trans hpasses'), .print hprint hkind hw hy⟩
  | false =>
    rw [statement_of_not_begins hbegins] at h
    obtain ⟨e, d, he, h⟩ := bind_eq_ok_iff.1 h
    obtain ⟨us, hpasses, hderives, _⟩ := expression_eq_ok_iff.1 he
    obtain ⟨s, hpasses', hyields⟩ := yields_of_closeExpression hderives h
    exact ⟨_, hpasses.trans hpasses', hyields⟩

/-- The first statement is closed like the others, or its expression is all there is. -/
theorem yields_of_opening {statement : Stmt} (h : opening c = .ok statement c') :
    ∃ us, c.Passes us c' ∧ (statement.Yields us ∨
      c'.ahead = [] ∧ ∃ e, statement = .print e ∧ Derives .default e us) := by
  cases hbegins : c.current.kind.beginsStatement with
  | true =>
    rw [opening_of_begins hbegins] at h
    obtain ⟨us, hpasses, hyields⟩ := yields_of_statement h
    exact ⟨us, hpasses, .inl hyields⟩
  | false =>
    rw [opening_of_not_begins hbegins] at h
    obtain ⟨e, d, he, h⟩ := bind_eq_ok_iff.1 h
    obtain ⟨us, hpasses, hderives, _⟩ := expression_eq_ok_iff.1 he
    rw [bind_of_ok (rfl : hasTokens d = .ok d.hasTokens d)] at h
    cases htokens : d.hasTokens with
    | true =>
      rw [htokens] at h
      obtain ⟨s, hpasses', hyields⟩ := yields_of_closeExpression hderives h
      exact ⟨_, hpasses.trans hpasses', .inl hyields⟩
    | false =>
      rw [htokens] at h
      cases h
      exact ⟨us, hpasses, .inr ⟨Cursor.hasTokens_eq_false_iff.1 htokens, e, rfl, hderives⟩⟩

theorem yields_of_statements (bound : Nat) {program : List Stmt} (hbound : c.remaining ≤ bound)
    (h : statements bound c = .ok program c') :
    c'.ahead = [] ∧ ∃ segments, c.Passes segments.flatten c' ∧
      List.Forall₂ Stmt.Yields program segments := by
  induction bound generalizing c program with
  | zero =>
    have hahead : c.ahead = [] := List.eq_nil_of_length_eq_zero (Nat.le_zero.1 hbound)
    cases h
    exact ⟨hahead, [], .refl _, .nil⟩
  | succ bound ih =>
    by_cases hahead : c.ahead = []
    · rw [statements_of_end _ hahead] at h
      cases h
      exact ⟨hahead, [], .refl _, .nil⟩
    · rw [statements_of_tokens bound hahead] at h
      obtain ⟨first, d, hfirst, h⟩ := bind_eq_ok_iff.1 h
      obtain ⟨others, d', hothers, h⟩ := bind_eq_ok_iff.1 h
      cases h
      obtain ⟨us, hpasses, hyields⟩ := yields_of_statement hfirst
      have hle := hpasses.remaining_eq
      have hpos := List.length_pos_iff.2 hyields.ne_nil
      obtain ⟨hend, segments, hpasses', hall⟩ := ih (by omega) hothers
      exact ⟨hend, us :: segments, hpasses.trans hpasses', .cons hyields hall⟩

/-! ## Statements are read from their tokens -/

theorem expression_of_closed {e : Expr} {s : Token} {us : List Token}
    (he : Derives .default e us) (hs : s.kind = .semicolon) (h : c.Passes (us ++ [s]) c') :
    ∃ d, expression .default c = .ok e d ∧ d.current = s ∧
      ∀ message, expect .semicolon message d = .ok s c' := by
  obtain ⟨d, hpasses, hlast⟩ := h.of_append
  have hcurrent := hlast.current_eq
  have hkind : d.current.kind = .semicolon := hcurrent ▸ hs
  have hstops : Level.default.Stops d.current :=
    Level.stops_of_ofOperator? (by rw [hkind]; decide)
  refine ⟨d, expression_eq_ok_iff.2 ⟨us, hpasses, he, hstops⟩, hcurrent, ?_⟩
  intro message
  have htakes := takes_expect message hkind (by decide)
  rw [hcurrent] at htakes
  rw [htakes.eq_ok, htakes.passes.unique hlast]

theorem statement_of_yields {statement : Stmt} {us : List Token} (h : statement.Yields us)
    (hpasses : c.Passes us c') : Grammar.statement c = .ok statement c' := by
  cases h with
  | @print w s e us hw hs he hy =>
    have hcurrent := hpasses.current_eq
    have hderives := derives_iff_yields.2 ⟨he, hy⟩
    obtain ⟨d, hexpression, _, hexpect⟩ := expression_of_closed hderives hs hpasses.of_cons
    rw [statement_of_begins (by rw [hcurrent, Kind.beginsStatement, hw]; rfl),
      bind_of_ok hexpression, bind_of_ok (hexpect _)]
    rfl
  | @expression s e us hs he hy =>
    have hderives := derives_iff_yields.2 ⟨he, hy⟩
    obtain ⟨t, vs, rfl, _⟩ := hderives.head
    obtain ⟨d, hexpression, _, hexpect⟩ := expression_of_closed hderives hs hpasses
    rw [statement_of_not_begins (by rw [hpasses.current_eq]; exact not_beginsStatement hderives),
      expressionStatement, bind_of_ok hexpression, closeExpression, bind_of_ok (hexpect _)]
    rfl

theorem opening_of_yields {statement : Stmt} {us : List Token} (h : statement.Yields us)
    (hpasses : c.Passes us c') : opening c = .ok statement c' := by
  cases h with
  | @print w s e us hw hs he hy =>
    have hbegins : c.current.kind.beginsStatement = true := by
      rw [hpasses.current_eq, Kind.beginsStatement, hw]
      rfl
    rw [opening_of_begins hbegins]
    exact statement_of_yields (.print hw hs he hy) hpasses
  | @expression s e us hs he hy =>
    have hderives := derives_iff_yields.2 ⟨he, hy⟩
    obtain ⟨t, vs, rfl, _⟩ := hderives.head
    obtain ⟨d, hexpression, hcurrent, hexpect⟩ := expression_of_closed hderives hs hpasses
    have htokens : d.hasTokens = true := by
      rw [Cursor.hasTokens_iff, hcurrent, hs]
      decide
    rw [opening_of_not_begins (by rw [hpasses.current_eq]; exact not_beginsStatement hderives),
      bind_of_ok hexpression, bind_of_ok (rfl : hasTokens d = .ok d.hasTokens d), htokens]
    exact bind_of_ok (hexpect _)

theorem opening_of_derives {e : Expr} {us : List Token} (h : Derives .default e us)
    (hpasses : c.Passes us c') (hend : c'.ahead = []) : opening c = .ok (.print e) c' := by
  obtain ⟨t, vs, rfl, _⟩ := h.head
  have hread := expression_eq_ok_iff.2 ⟨_, hpasses, h, Level.stops_of_ahead_nil hend⟩
  have htokens := Cursor.hasTokens_eq_false_iff.2 hend
  rw [opening_of_not_begins (by rw [hpasses.current_eq]; exact not_beginsStatement h),
    bind_of_ok hread, bind_of_ok (rfl : hasTokens c' = .ok c'.hasTokens c'), htokens]
  rfl

theorem statements_of_yields {program : List Stmt} {segments : List (List Token)}
    (h : List.Forall₂ Stmt.Yields program segments) (bound : Nat)
    (hbound : c.remaining ≤ bound) (hpasses : c.Passes segments.flatten c')
    (hend : c'.ahead = []) : statements bound c = .ok program c' := by
  induction h generalizing c bound with
  | nil =>
    have heq := (Cursor.Passes.refl c).unique hpasses
    subst heq
    exact statements_of_end bound hend
  | @cons statement us program segments hyields _ ih =>
    rw [List.flatten_cons] at hpasses
    obtain ⟨d, hfirst, hothers⟩ := hpasses.of_append
    have hle := hfirst.remaining_eq
    have hpos := List.length_pos_iff.2 hyields.ne_nil
    have hahead : c.ahead ≠ [] := by
      rw [hfirst.ahead]
      exact List.append_ne_nil_of_left_ne_nil hyields.ne_nil _
    obtain ⟨bound, rfl⟩ : ∃ k, bound = k + 1 := ⟨bound - 1, by omega⟩
    rw [statements_of_tokens bound hahead, bind_of_ok (statement_of_yields hyields hfirst),
      bind_of_ok (ih bound (by omega) hothers)]
    rfl

theorem program_eq_ok_iff {program : List Stmt} :
    (∃ c', Grammar.program c = .ok program c') ↔
      c.ahead = [] ∧ program = [] ∨
      (∃ e, Derives .default e c.ahead ∧ program = [.print e]) ∨
      c.ahead ≠ [] ∧ ∃ segments : List (List Token), c.ahead = segments.flatten ∧
        List.Forall₂ Stmt.Yields program segments := by
  by_cases hahead : c.ahead = []
  · rw [program_of_end hahead]
    constructor
    · rintro ⟨c', h⟩
      cases h
      exact .inl ⟨hahead, rfl⟩
    · rintro (⟨_, rfl⟩ | ⟨e, hderives, rfl⟩ | ⟨hne, _⟩)
      · exact ⟨c, rfl⟩
      · exact absurd hahead hderives.ne_nil
      · exact absurd hahead hne
  · rw [program_of_tokens hahead]
    constructor
    · rintro ⟨c', h⟩
      obtain ⟨first, d, hfirst, h⟩ := bind_eq_ok_iff.1 h
      obtain ⟨others, d', hothers, h⟩ := bind_eq_ok_iff.1 h
      cases h
      obtain ⟨us, hpasses, hshape⟩ := yields_of_opening hfirst
      have hle := hpasses.remaining_eq
      obtain ⟨hend, segments, hpasses', hall⟩ := yields_of_statements _ (by omega) hothers
      have htokens := (hpasses.trans hpasses').ahead
      rw [hend, List.append_nil] at htokens
      rcases hshape with hyields | ⟨hend', e, rfl, hderives⟩
      · exact .inr (.inr ⟨hahead, us :: segments, htokens, .cons hyields hall⟩)
      · -- nothing is left behind an expression that is printed
        rw [statements_of_end _ hend'] at hothers
        cases hothers
        have htokens' := hpasses.ahead
        rw [hend', List.append_nil] at htokens'
        exact .inr (.inl ⟨e, htokens' ▸ hderives, rfl⟩)
    · rintro (⟨hnil, _⟩ | ⟨e, hderives, rfl⟩ | ⟨_, segments, htokens, hall⟩)
      · exact absurd hnil hahead
      · obtain ⟨d, hpasses, hend⟩ := c.exists_passes_ahead
        rw [bind_of_ok (opening_of_derives hderives hpasses hend),
          bind_of_ok (statements_of_end _ hend)]
        exact ⟨d, rfl⟩
      · obtain ⟨d, hpasses, hend⟩ := c.exists_passes_ahead
        rw [htokens] at hpasses
        cases hall with
        | nil => exact absurd htokens hahead
        | @cons first us others segments hyields hall =>
          rw [List.flatten_cons] at hpasses
          obtain ⟨d', hfirst, hothers⟩ := hpasses.of_append
          have hle := hfirst.remaining_eq
          rw [bind_of_ok (opening_of_yields hyields hfirst),
            bind_of_ok (statements_of_yields hall _ (by omega) hothers hend)]
          exact ⟨d, rfl⟩

end Grammar

theorem Cursor.ofTokens_beforeEnd (tokens : List Token) (file : String) :
    ofTokens (Token.beforeEnd tokens ++ [endOf tokens]) file = ofTokens tokens file := by
  have hkind : ∀ t ∈ Token.beforeEnd tokens, t.kind ≠ .eof := kind_of_mem_takeWhile
  have hlast : Token.beforeEnd [endOf tokens] = [] :=
    List.takeWhile_cons_of_neg (by simp [kind_endOf])
  have hahead := Token.beforeEnd_append hkind [endOf tokens]
  rw [hlast, List.append_nil] at hahead
  simp only [ofTokens, mk.injEq, true_and, and_true]
  exact ⟨hahead, endOf_append hkind (kind_endOf tokens) []⟩

/-- **Reading accepts the programs and yields their statements in order.**  What is read
depends on the tokens up to the first end token only; those before it are none at all, or
those of one expression, which is printed, or one segment for each statement. -/
theorem program_reads_grammar (tokens : List Token) (file : String) :
    (∀ program : List Stmt, Stmt.ofTokens tokens file = .ok program ↔
      Token.beforeEnd tokens = [] ∧ program = [] ∨
      (∃ e : Expr, e.WellFormed ∧ e.Yields (Token.beforeEnd tokens) ∧ program = [.print e]) ∨
      Token.beforeEnd tokens ≠ [] ∧ ∃ segments : List (List Token),
        Token.beforeEnd tokens = segments.flatten ∧
        List.Forall₂ Stmt.Yields program segments) ∧
    Stmt.ofTokens (Token.beforeEnd tokens ++ [Cursor.endOf tokens]) file =
      Stmt.ofTokens tokens file := by
  constructor
  · intro program
    rw [Stmt.ofTokens, Reader.onTokens_eq_ok_iff, Grammar.program_eq_ok_iff]
    simp only [Grammar.derives_iff_yields, and_assoc]
    rfl
  · rw [Stmt.ofTokens, Reader.onTokens, Cursor.ofTokens_beforeEnd]
    rfl

end Scriptlet

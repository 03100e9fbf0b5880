import Scriptlet.Proofs.Grammar.ProgramLanguage
/-!
# Whom a failing reader blames

A reader that fails has passed tokens that take one phase to another, and it fails at a
token that the phase it has come to does not admit.  The diagnostic is the one that
belongs to that phase and that token.
-/

namespace Scriptlet

namespace Grammar

open Reader

/-- A diagnostic blames the current token of the second cursor: the tokens up to it take
a phase to one that does not admit it. -/
def Blames (phase : Phase) (c : Cursor) (e : Diagnostic) (c' : Cursor) : Prop :=
  ∃ us further, c.Passes us c' ∧ phase.run us = some further ∧
    further.step c'.current = none ∧ e = ⟨further.fault c'.current, c'.position⟩

section

variable {phase further : Phase} {form : Form} {depth : Nat} {c d c' : Cursor} {e : Diagnostic}
  {us : List Token}

theorem Blames.here (h : phase.step c.current = none) :
    Blames phase c ⟨phase.fault c.current, c.position⟩ c :=
  ⟨[], phase, .refl c, rfl, h, rfl⟩

theorem Blames.of_passes (h : Blames further d e c') (hpasses : c.Passes us d)
    (hrun : phase.run us = some further) : Blames phase c e c' := by
  obtain ⟨vs, last, hpasses', hrun', hstep, he⟩ := h
  refine ⟨us ++ vs, last, hpasses.trans hpasses', ?_, hstep, he⟩
  rw [Phase.run_append, hrun, Option.bind_some, hrun']

theorem Blames.of_advance (h : Blames further c.advance e c') (hkind : c.current.kind ≠ .eof)
    (hstep : phase.step c.current = some further) : Blames phase c e c' :=
  h.of_passes (Cursor.passes_advance hkind) (by rw [Phase.run_singleton, hstep])

/-- Behind an operand in brackets, anything but an operator or the closing bracket is
blamed. -/
theorem blames_of_expect_close (hstops : Level.default.Stops c.current)
    (h : expect .closeParen "expect ')' after expression." c = .error e c') :
    Blames (.operator form (depth + 1)) c e c' := by
  obtain ⟨hkind, rfl, rfl⟩ := eq_of_expect_error h
  have hoperator : Level.ofOperator? c'.current.kind = none :=
    Level.ofOperator?_eq_none_iff.2 fun level => hstops level (Nat.zero_le _)
  exact Blames.here (Phase.step_operator_of_ne_close hoperator hkind)

end

/-! ## Expressions -/

/-- Within a bound, a reader of operands blames the first token that none can go on with.
The tightest level itself takes no operator in front. -/
def Blaming (level : Level) (reader : Reader Expr) (bound : Nat) : Prop :=
  ∀ ⦃c : Cursor⦄ ⦃e : Diagnostic⦄ ⦃c' : Cursor⦄, c.remaining ≤ bound →
    reader c = .error e c' → (level = .primary → c.current.kind ∉ Kind.unaryOperators) →
    ∀ form depth, Blames (.operand form depth) c e c'

theorem blaming_prefixed {operand : Reader Expr} {bound : Nat}
    (ho : Blaming .primary operand bound) (further : Nat) :
    ∀ ⦃c e c'⦄, c.remaining ≤ further → c.remaining ≤ bound →
      prefixed operand further c = .error e c' →
      ∀ form depth, Blames (.operand form depth) c e c' := by
  induction further with
  | zero =>
    intro c e c' hfurther hbound h
    refine ho hbound h fun _ => ?_
    rw [Cursor.kind_eq_eof_of_remaining (Nat.le_zero.1 hfurther)]
    decide
  | succ further ih =>
    intro c e c' hfurther hbound h form depth
    by_cases hmem : c.current.kind ∈ Kind.unaryOperators
    · have hkind := (Kind.inner_of_mem_unaryOperators hmem).ne_eof
      have hlt := remaining_advance_lt hkind
      rw [prefixed_of_mem further hmem] at h
      obtain h | ⟨operand, d, _, h⟩ := bind_eq_error_iff.1 h
      · have hblames := ih (by omega) (by omega) h form depth
        exact hblames.of_advance hkind (Phase.step_operand_of_unary hmem)
      · cases h
    · rw [prefixed_of_not_mem _ hmem] at h
      exact ho hbound h (fun _ => hmem) form depth

theorem blaming_chainFrom {level : Level} {operand : Reader Expr} {bound : Nat}
    (hs : Sound level.next operand bound) (hlevel : level.next ≠ .primary)
    (ho : Blaming level.next operand bound) (further : Nat) :
    ∀ ⦃c left e c'⦄, c.remaining ≤ bound →
      chainFrom level.operators operand further left c = .error e c' →
      ∀ form depth, Blames (.operator form depth) c e c' := by
  induction further with
  | zero =>
    intro c left e c' _ h
    cases h
  | succ further ih =>
    intro c left e c' hbound h form depth
    by_cases hmem : c.current.kind ∈ level.operators
    · have hkind := (Kind.inner_of_mem_operators hmem).ne_eof
      have hlt := remaining_advance_lt hkind
      rw [chainFrom_of_mem _ _ hmem level.eof_not_mem_operators] at h
      have hoperator : (Phase.operator form depth).step c.current = some (.operand form depth) :=
        Phase.step_operator_of_mem hmem
      obtain h | ⟨right, d, hright, h⟩ := bind_eq_error_iff.1 h
      · have hblames := ho (by omega) h (fun hp => absurd hp hlevel) form depth
        exact hblames.of_advance hkind hoperator
      · obtain ⟨us, hpasses, hderives, _⟩ := hs (by omega) hright
        have hle := hpasses.remaining_eq
        have hblames := ih (by omega) h form depth
        exact (hblames.of_passes hpasses (Phase.run_of_derives hderives form depth)).of_advance
          hkind hoperator
    · rw [chainFrom_of_not_mem _ _ hmem] at h
      cases h

theorem blaming_chain {level : Level} {operand : Reader Expr} {bound : Nat}
    (hs : Sound level.next operand bound) (hlevel : level.next ≠ .primary)
    (ho : Blaming level.next operand bound) :
    Blaming level (chain level.operators operand bound) bound := by
  intro c e c' hbound h _ form depth
  obtain h | ⟨left, d, hleft, h⟩ := bind_eq_error_iff.1 h
  · exact ho hbound h (fun hp => absurd hp hlevel) form depth
  · obtain ⟨us, hpasses, hderives, _⟩ := hs hbound hleft
    have hle := hpasses.remaining_eq
    have hblames := blaming_chainFrom hs hlevel ho bound (by omega) h form depth
    exact hblames.of_passes hpasses (Phase.run_of_derives hderives form depth)

theorem blaming_atLevel {bound : Nat} (hprimary : Blaming .primary (primary bound) bound)
    (level : Level) : Blaming level (atLevel (primary bound) bound level) bound := by
  induction level using Level.descend with
  | primary => exact hprimary
  | unary ih =>
    intro c e c' hbound h _
    exact blaming_prefixed ih bound hbound hbound h
  | binary level hlevel ih =>
    have hnext : level.next ≠ .primary := by
      rintro heq
      cases level <;> simp_all [Level.next, Level.operators]
    rw [atLevel_of_operators hlevel]
    exact blaming_chain (sound_atLevel (sound_primary bound) _) hnext ih
  | default ih =>
    intro c e c' hbound h _
    exact ih hbound h fun hp => absurd hp (by decide)

theorem blames_of_primary {bound : Nat} {c c' : Cursor} {e : Diagnostic}
    (hliteral : c.current.kind ∉ Kind.literals) (hopen : c.current.kind ≠ .openParen)
    (hunary : c.current.kind ∉ Kind.unaryOperators) (h : primary bound c = .error e c')
    (form : Form) (depth : Nat) : Blames (.operand form depth) c e c' := by
  rw [primary_of_not_mem _ hliteral hopen] at h
  cases h
  have hnone : c.current.value? = none := by
    by_contra hsome
    obtain ⟨value, hvalue⟩ := Option.ne_none_iff_exists'.1 hsome
    exact hliteral (Token.value?_eq_some_iff.1 hvalue).mem_literals
  exact Blames.here (Phase.step_operand_of_none hunary hopen hnone)

theorem blaming_primary (bound : Nat) : Blaming .primary (primary bound) bound := by
  induction bound with
  | zero =>
    intro c e c' hbound h hunary
    have heof := Cursor.kind_eq_eof_of_remaining (Nat.le_zero.1 hbound)
    exact blames_of_primary (by rw [heof]; decide) (by rw [heof]; decide) (hunary rfl) h
  | succ bound ih =>
    intro c e c' hbound h hunary form depth
    by_cases hliteral : c.current.kind ∈ Kind.literals
    · have hopen : c.current.kind ≠ .openParen := by
        intro hopen
        rw [hopen] at hliteral
        exact absurd hliteral (by decide)
      rw [primary_of_mem_literals bound hliteral] at h
      cases hvalue : c.current.value? with
      | none =>
        rw [literal_of_none hvalue] at h
        cases h
        exact Blames.here (Phase.step_operand_of_none (hunary rfl) hopen hvalue)
      | some value =>
        rw [(takes_literal (Token.value?_eq_some_iff.1 hvalue)).eq_ok] at h
        cases h
    by_cases hopen : c.current.kind = .openParen
    · have hkind : c.current.kind ≠ .eof := by rw [hopen]; decide
      have hlt := remaining_advance_lt hkind
      have hstep : (Phase.operand form depth).step c.current = some (.operand form (depth + 1)) :=
        Phase.step_operand_of_open hopen
      rw [primary_of_openParen bound hopen] at h
      obtain h | ⟨inner, d, hinner, h⟩ := bind_eq_error_iff.1 h
      · have hblames := blaming_atLevel ih .default (by omega) h nofun form (depth + 1)
        exact hblames.of_advance hkind hstep
      · obtain ⟨us, hpasses, hderives, hstops⟩ :=
          sound_atLevel (sound_primary bound) .default (by omega) hinner
        obtain h | ⟨t, d', _, h⟩ := bind_eq_error_iff.1 h
        · have hblames : Blames (.operator form (depth + 1)) d e c' :=
            blames_of_expect_close hstops h
          have hrun := Phase.run_of_derives hderives form (depth + 1)
          exact (hblames.of_passes hpasses hrun).of_advance hkind hstep
        · cases h
    · exact blames_of_primary hliteral hopen (hunary rfl) h form depth

theorem blames_of_expression {c c' : Cursor} {e : Diagnostic}
    (h : expression .default c = .error e c') (form : Form) (depth : Nat) :
    Blames (.operand form depth) c e c' :=
  blaming_atLevel (blaming_primary c.remaining) .default (Nat.le_refl _) h nofun form depth

/-! ## Statements -/

section

variable {first : Bool} {form : Form} {c c' : Cursor} {e : Diagnostic}

theorem blames_of_expect_end {kind : Kind} (hstops : Level.default.Stops c.current)
    (hend : Phase.afterEnd? form c.current.kind = none)
    (h : expect kind form.message c = .error e c') : Blames (.operator form 0) c e c' := by
  obtain ⟨_, rfl, rfl⟩ := eq_of_expect_error h
  have hoperator : Level.ofOperator? c'.current.kind = none :=
    Level.ofOperator?_eq_none_iff.2 fun level => hstops level (Nat.zero_le _)
  exact Blames.here ((Phase.step_operator_zero hoperator).trans hend)

theorem Blames.outset (h : Blames (.operand (.atOutset first) 0) c e c')
    (heof : c.current.kind ≠ .eof) (hprint : c.current.kind ≠ .printWord) :
    Blames (.outset first) c e c' := by
  obtain ⟨us, further, hpasses, hrun, hstep, rfl⟩ := h
  cases us with
  | nil =>
    -- the first token is the one to blame, and both phases refuse it alike
    cases hrun
    have heq := (Cursor.Passes.refl c).unique hpasses
    subst heq
    exact Blames.here ((Phase.step_outset heof hprint).trans hstep)
  | cons t us =>
    refine ⟨t :: us, further, hpasses, ?_, hstep, rfl⟩
    rw [hpasses.current_eq] at heof hprint
    rw [Phase.run_cons, Phase.step_outset heof hprint, ← Phase.run_cons, hrun]

theorem run_outset {level : Level} {e : Expr} {us : List Token} (h : Derives level e us) :
    (Phase.outset first).run us = (Phase.operand (.atOutset first) 0).run us := by
  obtain ⟨t, vs, rfl, _⟩ := h.head
  have heof := h.kind_ne_eof t List.mem_cons_self
  have hprint : t.kind ≠ .printWord := by simpa [Kind.beginsStatement] using not_beginsStatement h
  rw [Phase.run_cons, Phase.step_outset heof hprint, ← Phase.run_cons]

theorem run_of_yields {statement : Stmt} {us : List Token} (h : statement.Yields us) :
    (Phase.outset first).run us = some (.outset false) := by
  cases h with
  | @print w s e us hw hs he hy =>
    have hrun := Phase.run_of_derives (derives_iff_yields.2 ⟨he, hy⟩) .printing 0
    rw [Phase.run_cons, Phase.step_outset_of_print hw, Option.bind_some, Phase.run_append, hrun,
      Option.bind_some, Phase.run_singleton, Phase.step_operator_of_semicolon hs (by decide)]
  | @expression s e us hs he hy =>
    have hderives := derives_iff_yields.2 ⟨he, hy⟩
    rw [Phase.run_append, run_outset hderives, Phase.run_of_derives hderives, Option.bind_some,
      Phase.run_singleton, Phase.step_operator_of_semicolon hs (Form.atOutset_ne_sole first)]

theorem blames_of_closeExpression {expression : Expr} (hstops : Level.default.Stops c.current)
    (heof : first = true → c.current.kind ≠ .eof)
    (h : closeExpression expression c = .error e c') :
    Blames (.operator (.atOutset first) 0) c e c' := by
  obtain h | ⟨t, d, _, h⟩ := bind_eq_error_iff.1 h
  · obtain ⟨hkind, _, _⟩ := eq_of_expect_error h
    have hend : Phase.afterEnd? (.atOutset first) c.current.kind = none := by
      cases first <;> simp_all [Phase.afterEnd?, Form.atOutset]
    cases first <;> exact blames_of_expect_end hstops hend h
  · cases h

theorem blames_of_statement (hkind : c.current.kind ≠ .eof)
    (h : statement c = .error e c')
    (hfirst : first = true → c.current.kind.beginsStatement = true) :
    Blames (.outset first) c e c' := by
  cases hbegins : c.current.kind.beginsStatement with
  | true =>
    have hstep : (Phase.outset first).step c.current = some (.operand .printing 0) :=
      Phase.step_outset_of_print (eq_of_beq hbegins)
    rw [statement_of_begins hbegins] at h
    obtain h | ⟨expression, d, hexpression, h⟩ := bind_eq_error_iff.1 h
    · exact (blames_of_expression h .printing 0).of_advance hkind hstep
    · obtain ⟨us, hpasses, hderives, hstops⟩ := expression_eq_ok_iff.1 hexpression
      have hrun := Phase.run_of_derives hderives .printing 0
      obtain h | ⟨t, d', _, h⟩ := bind_eq_error_iff.1 h
      · have hne := (eq_of_expect_error h).1
        have hend : Phase.afterEnd? .printing d.current.kind = none := by
          simp [Phase.afterEnd?, hne]
        have hblames : Blames (.operator .printing 0) d e c' :=
          blames_of_expect_end hstops hend h
        exact (hblames.of_passes hpasses hrun).of_advance hkind hstep
      · cases h
  | false =>
    have hprint : c.current.kind ≠ .printWord := by simpa [Kind.beginsStatement] using hbegins
    -- the first statement gets here only with its word in front
    obtain rfl : first = false := by
      cases first with
      | true => rw [hfirst rfl] at hbegins; cases hbegins
      | false => rfl
    rw [statement_of_not_begins hbegins] at h
    obtain h | ⟨expression, d, hexpression, h⟩ := bind_eq_error_iff.1 h
    · exact (blames_of_expression h _ 0).outset hkind hprint
    · obtain ⟨us, hpasses, hderives, hstops⟩ := expression_eq_ok_iff.1 hexpression
      have hrun := Phase.run_of_derives hderives (.atOutset false) 0
      have hblames : Blames (.operator (.atOutset false) 0) d e c' :=
        blames_of_closeExpression hstops (fun hf => absurd hf Bool.false_ne_true) h
      exact (hblames.of_passes hpasses hrun).outset hkind hprint

theorem blames_of_opening (hkind : c.current.kind ≠ .eof) (h : opening c = .error e c') :
    Blames (.outset true) c e c' := by
  cases hbegins : c.current.kind.beginsStatement with
  | true =>
    rw [opening_of_begins hbegins] at h
    exact blames_of_statement hkind h fun _ => hbegins
  | false =>
    have hprint : c.current.kind ≠ .printWord := by simpa [Kind.beginsStatement] using hbegins
    rw [opening_of_not_begins hbegins] at h
    obtain h | ⟨expression, d, hexpression, h⟩ := bind_eq_error_iff.1 h
    · exact (blames_of_expression h _ 0).outset hkind hprint
    · obtain ⟨us, hpasses, hderives, hstops⟩ := expression_eq_ok_iff.1 hexpression
      have hrun := Phase.run_of_derives hderives (.atOutset true) 0
      rw [bind_of_ok (rfl : hasTokens d = .ok d.hasTokens d)] at h
      cases htokens : d.hasTokens with
      | true =>
        rw [htokens] at h
        have hblames : Blames (.operator (.atOutset true) 0) d e c' :=
          blames_of_closeExpression hstops (fun _ => Cursor.hasTokens_iff.1 htokens) h
        exact (hblames.of_passes hpasses hrun).outset hkind hprint
      | false =>
        rw [htokens] at h
        cases h

theorem kind_current_ne_eof (h : c.ahead ≠ []) : c.current.kind ≠ .eof :=
  Cursor.hasTokens_iff.1 (Cursor.hasTokens_eq_true_iff.2 h)

theorem blames_of_statements (bound : Nat) (h : statements bound c = .error e c') :
    Blames (.outset false) c e c' := by
  induction bound generalizing c with
  | zero => cases h
  | succ bound ih =>
    by_cases hahead : c.ahead = []
    · rw [statements_of_end _ hahead] at h
      cases h
    · rw [statements_of_tokens bound hahead] at h
      obtain h | ⟨one, d, hone, h⟩ := bind_eq_error_iff.1 h
      · exact blames_of_statement (kind_current_ne_eof hahead) h nofun
      · obtain ⟨us, hpasses, hyields⟩ := yields_of_statement hone
        obtain h | ⟨others, d', _, h⟩ := bind_eq_error_iff.1 h
        · exact (ih h).of_passes hpasses (run_of_yields hyields)
        · cases h

theorem blames_of_program (h : program c = .error e c') : Blames (.outset true) c e c' := by
  by_cases hahead : c.ahead = []
  · rw [program_of_end hahead] at h
    cases h
  · rw [program_of_tokens hahead] at h
    obtain h | ⟨one, d, hone, h⟩ := bind_eq_error_iff.1 h
    · exact blames_of_opening (kind_current_ne_eof hahead) h
    · obtain ⟨us, hpasses, hyields | ⟨hend, _⟩⟩ := yields_of_opening hone
      · obtain h | ⟨others, d', _, h⟩ := bind_eq_error_iff.1 h
        · exact (blames_of_statements _ h).of_passes hpasses (run_of_yields hyields)
        · cases h
      · rw [bind_of_ok (statements_of_end _ hend)] at h
        cases h

end

end Grammar

end Scriptlet

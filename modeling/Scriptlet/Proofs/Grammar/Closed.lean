import Scriptlet.Proofs.Grammar.FirstError
/-!
# Programs one behind the other

A program is closed when its last token, if it has any, is a semicolon.  The tokens of a
closed program can stand before those of any other list: what follows is read, or refused,
as it is by itself, except that an expression without a semicolon is refused at the end.
-/

namespace Scriptlet

/-- The last token before the end, if there is one, is a semicolon. -/
def Token.Closed (tokens : List Token) : Prop :=
  ∀ t, (beforeEnd tokens).getLast? = some t → t.kind = .semicolon

namespace Grammar

open Token

/-! ## What is refused -/

section

variable {start phase phase' : Phase} {us us' rest rest' : List Token} {t t' : Token}

/-- No tokens that reach beyond a refused one lead to a phase. -/
theorem Phase.length_le_of_refused (hrun : start.run us = some phase)
    (hstep : phase.step t = none) (hrun' : start.run us' = some phase')
    (h : us ++ t :: rest = us' ++ rest') : us'.length ≤ us.length := by
  by_contra hbeyond
  have hrefused : us ++ [t] <+: us ++ t :: rest := ⟨rest, by simp⟩
  obtain ⟨vs, rfl⟩ : us ++ [t] <+: us' :=
    List.prefix_of_prefix_length_le hrefused ⟨rest', h.symm⟩
      (by rw [List.length_append, List.length_singleton]; omega)
  rw [run_append, run_append, hrun, Option.bind_some, run_singleton, hstep] at hrun'
  cases hrun'

theorem Phase.refused_unique (hrun : start.run us = some phase) (hstep : phase.step t = none)
    (hrun' : start.run us' = some phase') (hstep' : phase'.step t' = none)
    (h : us ++ t :: rest = us' ++ t' :: rest') : phase = phase' ∧ t = t' := by
  have hlength := Nat.le_antisymm (length_le_of_refused hrun' hstep' hrun h.symm)
    (length_le_of_refused hrun hstep hrun' h)
  obtain ⟨rfl, htail⟩ := List.append_inj h hlength
  exact ⟨Option.some.inj (hrun.symm.trans hrun'), (List.cons.inj htail).1⟩

end

theorem ofTokens_eq_error_iff {tokens : List Token} {file : String} {d : Diagnostic}
    (hshaped : Shaped tokens) :
    Stmt.ofTokens tokens file = .error d ↔ ∃ us t rest phase, tokens = us ++ t :: rest ∧
      (Phase.outset true).run us = some phase ∧ phase.step t = none ∧
      d = ⟨phase.fault t, ⟨t.line, file⟩⟩ := by
  have split : ∀ d, Stmt.ofTokens tokens file = .error d → ∃ us t rest phase,
      tokens = us ++ t :: rest ∧ (Phase.outset true).run us = some phase ∧
      phase.step t = none ∧ d = ⟨phase.fault t, ⟨t.line, file⟩⟩ := by
    intro d h
    obtain ⟨c, hblames⟩ := blames_of_ofTokens_stmt h
    exact hblames.split hshaped
  refine ⟨split d, ?_⟩
  rintro ⟨us, t, rest, phase, htokens, hrun, hstep, rfl⟩
  cases hread : Stmt.ofTokens tokens file with
  | ok program =>
    have hended := ((decides_program file).2 hshaped).1 ⟨program, hread⟩
    rw [htokens, Phase.run_append, hrun, Option.bind_some, Phase.run_cons, hstep] at hended
    cases hended
  | error d =>
    obtain ⟨us', t', rest', phase', htokens', hrun', hstep', rfl⟩ := split d hread
    obtain ⟨rfl, rfl⟩ :=
      Phase.refused_unique hrun hstep hrun' hstep' (htokens.symm.trans htokens')
    rfl

theorem Phase.operator?_fault (phase : Phase) (t : Token) : (phase.fault t).operator? = none := by
  unfold fault
  split <;> rfl

theorem operator?_of_ofTokens_error {tokens : List Token} {file : String} {d : Diagnostic}
    (hshaped : Shaped tokens) (h : Stmt.ofTokens tokens file = .error d) :
    d.fault.operator? = none := by
  obtain ⟨_, t, _, phase, _, _, _, rfl⟩ := (ofTokens_eq_error_iff hshaped).1 h
  exact phase.operator?_fault t

/-! ## Closed programs -/

section

variable {program : List Stmt} {segments : List (List Token)}

theorem getLast?_of_yields {statement : Stmt} {us : List Token} (h : statement.Yields us) :
    ∃ s, us.getLast? = some s ∧ s.kind = .semicolon := by
  cases h with
  | @print w s e us _ hs _ _ =>
    refine ⟨s, ?_, hs⟩
    rw [← List.cons_append, List.getLast?_concat]
  | @expression s e us hs _ _ => exact ⟨s, List.getLast?_concat, hs⟩

theorem kind_of_getLast?_flatten (h : List.Forall₂ Stmt.Yields program segments) :
    ∀ t, segments.flatten.getLast? = some t → t.kind = .semicolon := by
  induction h with
  | nil => exact nofun
  | @cons statement us program segments hyields _ ih =>
    intro t ht
    rw [List.flatten_cons, List.getLast?_append] at ht
    cases hlast : segments.flatten.getLast? with
    | some u =>
      rw [hlast, Option.some_or] at ht
      exact ih t (hlast.trans ht)
    | none =>
      obtain ⟨s, hs, hkind⟩ := getLast?_of_yields hyields
      rw [hlast, Option.none_or, hs] at ht
      cases ht
      exact hkind

theorem not_closed_of_derives {tokens : List Token} {e : Expr}
    (h : Derives .default e (beforeEnd tokens)) : ¬ Closed tokens := by
  intro hclosed
  obtain ⟨t, ht⟩ := Option.isSome_iff_exists.1 (List.getLast?_isSome.2 h.ne_nil)
  apply h.kind_not_mem t (List.mem_of_getLast? ht)
  rw [hclosed t ht]
  decide

/-- A program that is read is closed and has a segment for each statement, or it is not
closed and prints one expression. -/
theorem closed_or_of_ofTokens {tokens : List Token} {file : String}
    (h : Stmt.ofTokens tokens file = .ok program) :
    (Closed tokens ∧ ∃ segments : List (List Token), beforeEnd tokens = segments.flatten ∧
        List.Forall₂ Stmt.Yields program segments) ∨
      (¬ Closed tokens ∧ ∃ e, Derives .default e (beforeEnd tokens) ∧ program = [.print e]) := by
  rw [Stmt.ofTokens, Reader.onTokens_eq_ok_iff, program_eq_ok_iff, Cursor.ahead_ofTokens] at h
  rcases h with ⟨hnil, rfl⟩ | ⟨e, hderives, rfl⟩ | ⟨_, segments, hflatten, hall⟩
  · refine .inl ⟨?_, [], hnil, .nil⟩
    intro t ht
    rw [hnil] at ht
    cases ht
  · exact .inr ⟨not_closed_of_derives hderives, e, hderives, rfl⟩
  · refine .inl ⟨?_, segments, hflatten, hall⟩
    intro t ht
    rw [hflatten] at ht
    exact kind_of_getLast?_flatten hall t ht

theorem ofTokens_of_segments {tokens : List Token} (file : String)
    (hflatten : beforeEnd tokens = segments.flatten)
    (hall : List.Forall₂ Stmt.Yields program segments) :
    Stmt.ofTokens tokens file = .ok program := by
  rw [Stmt.ofTokens, Reader.onTokens_eq_ok_iff, program_eq_ok_iff, Cursor.ahead_ofTokens]
  by_cases hnil : beforeEnd tokens = []
  · left
    cases hall with
    | nil => exact ⟨hnil, rfl⟩
    | cons hyields _ =>
      rw [hnil, List.flatten_cons] at hflatten
      exact absurd (List.append_eq_nil_iff.1 hflatten.symm).1 hyields.ne_nil
  · exact .inr (.inr ⟨hnil, segments, hflatten, hall⟩)

theorem ofTokens_of_derives {tokens : List Token} {e : Expr} (file : String)
    (h : Derives .default e (beforeEnd tokens)) :
    Stmt.ofTokens tokens file = .ok [.print e] := by
  rw [Stmt.ofTokens, Reader.onTokens_eq_ok_iff, program_eq_ok_iff, Cursor.ahead_ofTokens]
  exact .inr (.inl ⟨e, h, rfl⟩)

theorem run_flatten_of_ne_nil (h : List.Forall₂ Stmt.Yields program segments)
    (hprogram : program ≠ []) (first : Bool) :
    (Phase.outset first).run segments.flatten = some (.outset false) := by
  rw [run_flatten h, List.isEmpty_eq_false_iff.2 hprogram, Bool.and_false]

end

/-! ## A statement that is not the first -/

def Form.later : Form → Form
  | opening => plain
  | form => form

namespace Phase

def later : Phase → Phase
  | outset _ => outset false
  | operand form depth => operand form.later depth
  | operator form depth => operator form.later depth
  | ended => ended

variable {phase : Phase} {t : Token}

theorem afterEnd?_later {form : Form} {kind : Kind} (h : afterEnd? form kind ≠ some ended) :
    afterEnd? form.later kind = (afterEnd? form kind).map later := by
  by_cases heof : kind = .eof
  · cases form <;> simp_all [afterEnd?, Form.later]
  · by_cases hsemicolon : kind = .semicolon <;> cases form <;>
      simp [afterEnd?, Form.later, heof, hsemicolon, later]

theorem afterOperand?_later (form : Form) (depth : Nat) (t : Token) :
    afterOperand? form.later depth t = (afterOperand? form depth t).map later := by
  unfold afterOperand?
  split_ifs <;> rfl

/-- Statements in front of a program matter to no token but its end. -/
theorem step_later (h : phase.step t ≠ some ended) :
    phase.later.step t = (phase.step t).map later := by
  cases phase with
  | outset first =>
    have heof : t.kind ≠ .eof := fun heof => h (if_pos heof)
    by_cases hprint : t.kind = .printWord
    · rw [later, step_outset_of_print hprint, step_outset_of_print hprint]
      rfl
    · have hform : Form.atOutset false = (Form.atOutset first).later := by cases first <;> rfl
      rw [later, step_outset heof hprint, step_outset heof hprint, hform]
      exact afterOperand?_later _ 0 t
  | operand form depth => exact afterOperand?_later form depth t
  | operator form depth =>
    rw [later]
    cases hlevel : Level.ofOperator? t.kind with
    | some level =>
      have hmem := Level.ofOperator?_eq_some_iff.1 hlevel
      rw [step_operator_of_mem hmem, step_operator_of_mem hmem]
      rfl
    | none =>
      cases depth with
      | zero =>
        rw [step_operator_zero hlevel] at h ⊢
        rw [step_operator_zero hlevel]
        exact afterEnd?_later h
      | succ depth =>
        by_cases hclose : t.kind = .closeParen
        · rw [step_operator_of_close hclose, step_operator_of_close hclose]
          rfl
        · rw [step_operator_of_ne_close hlevel hclose, step_operator_of_ne_close hlevel hclose]
          rfl
  | ended => rfl

theorem run_later {us : List Token} (h : ∀ t ∈ us, t.kind ≠ .eof) :
    phase.later.run us = (phase.run us).map later := by
  induction us generalizing phase with
  | nil => rfl
  | cons t us ih =>
    have hended : phase.step t ≠ some ended := fun hstep =>
      h t List.mem_cons_self (moves_of_step hstep).kind_eq_eof
    rw [run_cons, run_cons, step_later hended]
    cases phase.step t with
    | none => rfl
    | some further => exact ih fun u hu => h u (List.mem_cons_of_mem t hu)

theorem fault_later (phase : Phase) (t : Token) : phase.later.fault t = phase.fault t := by
  cases phase with
  | operator form depth => cases form <;> cases depth <;> rfl
  | _ => rfl

end Phase

/-! ## Statements in front of a list -/

section

variable {program others : List Stmt} {segments : List (List Token)} {tokens : List Token}
  {file : String}

theorem kind_ne_eof_of_yields {statement : Stmt} {us : List Token} (h : statement.Yields us) :
    ∀ t ∈ us, t.kind ≠ .eof := by
  cases h with
  | @print w s e us hw hs he hy =>
    have hderives := derives_iff_yields.2 ⟨he, hy⟩
    simp only [List.forall_mem_cons, List.forall_mem_append]
    exact ⟨by rw [hw]; decide, hderives.kind_ne_eof, by rw [hs]; decide, by simp⟩
  | @expression s e us hs he hy =>
    have hderives := derives_iff_yields.2 ⟨he, hy⟩
    simp only [List.forall_mem_append, List.forall_mem_cons]
    exact ⟨hderives.kind_ne_eof, by rw [hs]; decide, by simp⟩

theorem kind_ne_eof_of_segments (h : List.Forall₂ Stmt.Yields program segments) :
    ∀ t ∈ segments.flatten, t.kind ≠ .eof := by
  induction h with
  | nil => exact nofun
  | cons hyields _ ih =>
    rw [List.flatten_cons, List.forall_mem_append]
    exact ⟨kind_ne_eof_of_yields hyields, ih⟩

theorem ofTokens_append_closed (hall : List.Forall₂ Stmt.Yields program segments)
    (h : Stmt.ofTokens tokens file = .ok others) (hclosed : Closed tokens) :
    Stmt.ofTokens (segments.flatten ++ tokens) file = .ok (program ++ others) := by
  obtain ⟨_, segments', hflatten, hall'⟩ | ⟨hopen, _⟩ := closed_or_of_ofTokens h
  · refine ofTokens_of_segments file ?_ (List.rel_append hall hall')
    rw [beforeEnd_append (kind_ne_eof_of_segments hall), hflatten, List.flatten_append]
  · exact absurd hclosed hopen

theorem ofTokens_append_error {d : Diagnostic}
    (hall : List.Forall₂ Stmt.Yields program segments) (hshaped : Shaped tokens)
    (hshaped' : Shaped (segments.flatten ++ tokens)) (h : Stmt.ofTokens tokens file = .error d) :
    Stmt.ofTokens (segments.flatten ++ tokens) file = .error d := by
  obtain ⟨us, t, rest, phase, rfl, hrun, hstep, rfl⟩ := (ofTokens_eq_error_iff hshaped).1 h
  have hus : ∀ u ∈ us, u.kind ≠ .eof := fun _ hu => hshaped.kind_ne_eof hu
  by_cases hprogram : program = []
  · subst hprogram
    cases hall
    exact h
  · -- the statements lead to the outset of a later one, and both outsets refuse alike
    have hlater : (Phase.outset false).run us = some phase.later := by
      have heq := @Phase.run_later (.outset true) us hus
      rwa [hrun] at heq
    have hrefused : phase.later.step t = none := by
      rw [Phase.step_later (by rw [hstep]; simp), hstep]
      rfl
    refine (ofTokens_eq_error_iff hshaped').2
      ⟨segments.flatten ++ us, t, rest, phase.later, by rw [List.append_assoc], ?_, hrefused, ?_⟩
    · rw [Phase.run_append, run_flatten_of_ne_nil hall hprogram, Option.bind_some, hlater]
    · rw [Phase.fault_later]

/-- Behind closed statements, an expression needs its semicolon. -/
theorem ofTokens_append_echo (hall : List.Forall₂ Stmt.Yields program segments)
    (hprogram : program ≠ []) (hshaped : Shaped (segments.flatten ++ tokens))
    (h : Stmt.ofTokens tokens file = .ok others) (hopen : ¬ Closed tokens) :
    Stmt.ofTokens (segments.flatten ++ tokens) file =
      .error ⟨.expectedToken "expect ';' after expression."
          (Cursor.endOf (segments.flatten ++ tokens)).lexeme,
        ⟨(Cursor.endOf (segments.flatten ++ tokens)).line, file⟩⟩ := by
  obtain ⟨hclosed, _⟩ | ⟨_, e, hderives, _⟩ := closed_or_of_ofTokens h
  · exact absurd hclosed hopen
  · have hends := hshaped.eq_beforeEnd
    rw [beforeEnd_append (kind_ne_eof_of_segments hall)] at hends
    have hlast := Cursor.kind_endOf (segments.flatten ++ tokens)
    have hrun : (Phase.outset false).run (beforeEnd tokens) = some (.operator .plain 0) := by
      rw [run_outset hderives]
      exact Phase.run_of_derives hderives .plain 0
    have hrefused : (Phase.operator .plain 0).step (Cursor.endOf (segments.flatten ++ tokens)) =
        none := by
      rw [Phase.step_operator_zero (by rw [hlast]; decide), hlast]
      rfl
    refine (ofTokens_eq_error_iff hshaped).2
      ⟨segments.flatten ++ beforeEnd tokens, _, [], .operator .plain 0, hends, ?_, hrefused, rfl⟩
    rw [Phase.run_append, run_flatten_of_ne_nil hall hprogram, Option.bind_some, hrun]

end

end Grammar

end Scriptlet

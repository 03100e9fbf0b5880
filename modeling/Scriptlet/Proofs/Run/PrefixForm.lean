import Scriptlet.Proofs.Evaluation.Operators
import Scriptlet.Proofs.Grammar.PrefixForm
import Scriptlet.Proofs.Run.Outcome
/-!
# The prefix form of a program

The operators of a source are marks, and its numerals are read as numbers that are not
negative, so the texts of its statements tell the program up to the lines of its operators.
-/

namespace Scriptlet

/-- What a token may become in a tree: an operator is a mark, and a number is legible. -/
structure Token.Legible (t : Token) : Prop where
  operator : t.kind ∈ Kind.unaryOperators ∨ (∃ level : Level, t.kind ∈ level.operators) → t.Marked
  number : ∀ x, t.literal = some (.number x) → Value.Legible (.number x)

/-! ## The tokens of a source -/

theorem Number.legible_ofText (cs : List Char) : Value.Legible (.number (ofText cs)) :=
  ⟨_, nearest_le_infinity _ _, rfl⟩

theorem Kind.not_operator {kind : Kind}
    (h : kind ∈ eof :: number :: string :: identifier :: reserved.map Prod.snd) :
    ¬ (kind ∈ unaryOperators ∨ ∃ level : Level, kind ∈ level.operators) := by
  have hall : ∀ kind ∈ eof :: number :: string :: identifier :: reserved.map Prod.snd,
      kind ∉ unaryOperators ∧ ∀ level ∈ Level.all, kind ∉ level.operators := by decide
  obtain ⟨hunary, hlevels⟩ := hall kind h
  rintro (hmem | ⟨level, hmem⟩)
  · exact hunary hmem
  · exact hlevels level (Level.mem_all level) hmem

theorem Lexeme.Means.legible {lexeme : Lexeme} {t : Token} {cs : List Char} (h : lexeme.Means t)
    (hrule : lexeme.rule ∈ Rule.table) (htakes : lexeme.rule.Takes cs lexeme.text) :
    t.Legible := by
  cases h with
  | word _ =>
    refine ⟨fun hoperator => absurd hoperator (Kind.not_operator ?_), nofun⟩
    have hword := Kind.ofWord_mem (String.ofList lexeme.text)
    exact List.mem_cons_of_mem _ (List.mem_cons_of_mem _ (List.mem_cons_of_mem _ hword))
  | numeral _ =>
    refine ⟨fun hoperator => absurd hoperator (Kind.not_operator (by simp)), ?_⟩
    rintro x hx
    cases hx
    exact Number.legible_ofText _
  | string _ =>
    exact ⟨fun hoperator => absurd hoperator (Kind.not_operator (by simp)), nofun⟩
  | mark hmark =>
    refine ⟨fun _ => ⟨?_, rfl⟩, nofun⟩
    rw [hmark] at hrule htakes
    rw [String.toList_ofList, htakes.eq_spelling]
    exact Rule.mem_marks hrule

theorem Source.legible_of_tokens {source : Source} {tokens : List Token} {t : Token}
    (h : source.tokens = .ok tokens) (ht : t ∈ tokens) : t.Legible := by
  rcases mem_tokens h ht with ⟨lexeme, hmem, hmeans⟩ | rfl
  · obtain ⟨_, _, _, _, hfirst⟩ := exists_split_of_mem_lexemes hmem
    exact hmeans.legible (Rule.mem_table_of_first? hfirst) (Rule.takes_of_first? hfirst)
  · exact ⟨fun hoperator => absurd hoperator (Kind.not_operator (by simp)), nofun⟩

/-! ## The statements of a source -/

theorem Token.Spells.legible {t : Token} {value : Value} (h : t.Spells value) (ht : t.Legible) :
    value.Legible := by
  cases h with
  | number _ hx => exact ht.number _ hx
  | trueWord | falseWord | nilWord | string => trivial

theorem Expr.Yields.legible {e : Expr} {us : List Token} (h : e.Yields us)
    (hwellFormed : e.WellFormed) (hus : ∀ t ∈ us, t.Legible) : e.Legible := by
  induction h with
  | literal hspells => exact hspells.legible (hus _ List.mem_cons_self)
  | grouping _ _ _ ih =>
    exact ih hwellFormed fun t ht => hus t (List.mem_cons_of_mem _ (List.mem_append_left _ ht))
  | unary _ ih =>
    obtain ⟨hkind, _, hoperand⟩ := hwellFormed
    exact ⟨(hus _ List.mem_cons_self).operator (.inl hkind),
      ih hoperand fun t ht => hus t (List.mem_cons_of_mem _ ht)⟩
  | binary _ _ ihl ihr =>
    obtain ⟨level, hkind, _, _, hleft, hright⟩ := hwellFormed
    refine ⟨(hus _ (List.mem_append_right _ List.mem_cons_self)).operator (.inr ⟨level, hkind⟩),
      ihl hleft fun t ht => hus t (List.mem_append_left _ ht),
      ihr hright fun t ht => hus t (List.mem_append_right _ (List.mem_cons_of_mem _ ht))⟩

theorem Source.legible_of_program {source : Source} {program : List Stmt} {s : Stmt}
    (h : source.program = .ok program) (hs : s ∈ program) : s.Legible := by
  cases htokens : source.tokens with
  | error d =>
    rw [program_of_error htokens] at h
    cases h
  | ok tokens =>
    rw [program_of_tokens htokens] at h
    obtain ⟨us, hus, hwellFormed, hyields⟩ := Stmt.expr_yields_of_ofTokens h hs
    exact hyields.legible hwellFormed fun t ht => legible_of_tokens htokens (hus ht)

/-! ## Programs -/

section

variable {program program' : List Stmt}

theorem isEqv_equal_iff (h : ∀ s ∈ program, s.Legible) (h' : ∀ s ∈ program', s.Legible) :
    program.isEqv program' Stmt.equal = true ↔ program = program' := by
  induction program generalizing program' with
  | nil => cases program' <;> simp
  | cons s program ih =>
    cases program' with
    | nil => simp
    | cons s' program' =>
      obtain ⟨hs, hprogram⟩ := List.forall_mem_cons.1 h
      obtain ⟨hs', hprogram'⟩ := List.forall_mem_cons.1 h'
      rw [List.isEqv_cons_cons, Bool.and_eq_true, Stmt.equal_iff hs hs', ih hprogram hprogram',
        List.cons.injEq]

theorem map_text_eq_iff (line : Nat) (h : ∀ s ∈ program, s.Legible)
    (h' : ∀ s ∈ program', s.Legible) :
    program.map Stmt.text = program'.map Stmt.text ↔
      program.map (Stmt.mapLines fun _ => line) = program'.map (Stmt.mapLines fun _ => line) := by
  induction program generalizing program' with
  | nil => cases program' <;> simp
  | cons s program ih =>
    cases program' with
    | nil => simp
    | cons s' program' =>
      obtain ⟨hs, hprogram⟩ := List.forall_mem_cons.1 h
      obtain ⟨hs', hprogram'⟩ := List.forall_mem_cons.1 h'
      simp only [List.map_cons, List.cons.injEq, Stmt.text_eq_iff line hs hs',
        ih hprogram hprogram']

end

/-- **The prefix form identifies the program.**  The statements of two sources have the same
texts if and only if the programs are equal once every operator is on the same line, and the
program of one source is equal to itself. -/
theorem prefix_form_identifies_program {a b : Source} {program program' : List Stmt}
    (h : a.program = .ok program) (h' : b.program = .ok program') (line : Nat) :
    (program.map Stmt.text = program'.map Stmt.text ↔
      (program.map (Stmt.mapLines fun _ => line)).isEqv
        (program'.map (Stmt.mapLines fun _ => line)) Stmt.equal = true) ∧
    program.isEqv program Stmt.equal = true := by
  have hlegible : ∀ s ∈ program, s.Legible := fun s => Source.legible_of_program h
  have hlegible' : ∀ s ∈ program', s.Legible := fun s => Source.legible_of_program h'
  refine ⟨?_, (isEqv_equal_iff hlegible hlegible).2 rfl⟩
  rw [map_text_eq_iff line hlegible hlegible', isEqv_equal_iff]
  · exact List.forall_mem_map.2 fun s hs => (hlegible s hs).mapLines _
  · exact List.forall_mem_map.2 fun s hs => (hlegible' s hs).mapLines _

theorem prefix_form_identifies_negation :
    let a : Source := ⟨"print -(\"a\");", "a"⟩
    let b : Source := ⟨"print\n- ( \"a\" );", "b"⟩
    let program (line : Nat) : List Stmt :=
      [.print (.unary ⟨.dash, "-", none, line⟩ (.grouping (.literal (.string "a"))))]
    a.program = .ok (program 1) ∧ b.program = .ok (program 2) ∧
      (program 1).map Stmt.text = (program 2).map Stmt.text ∧
      (program 1).isEqv (program 1) Stmt.equal = true := by
  intro a b program
  have ha : a.program = .ok (program 1) := by decide +kernel
  have hb : b.program = .ok (program 2) := by decide +kernel
  obtain ⟨htext, hself⟩ := prefix_form_identifies_program ha hb 0
  exact ⟨ha, hb, htext.2 (by decide), hself⟩

end Scriptlet

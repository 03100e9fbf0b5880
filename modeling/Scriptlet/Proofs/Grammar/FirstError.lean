import Mathlib.Order.Bounds.Defs
import Scriptlet.Proofs.Grammar.Blame
import Scriptlet.Proofs.Grammar.Shape
/-!
# The first token in error

The tokens before the one that is blamed can be completed to a list that is accepted,
and with the blamed token they cannot: the phase they lead to says both.  It also says
what is missing, and the tokens alone determine it.
-/

namespace Scriptlet

namespace Grammar

open Token

/-! ## What the tokens tell about the phase they lead to -/

namespace Phase

variable {phase further : Phase} {form : Form} {depth : Nat} {us : List Token} {t : Token}

theorem Moves.depth_eq (h : Moves phase t further) :
    further.depth = brackets phase.depth t := by
  induction h with
  | unary h => exact (brackets_of_inner (Kind.inner_of_mem_unaryOperators h) _).symm
  | value h => exact (brackets_of_inner (Kind.inner_of_mem_literals h) _).symm
  | binary h => exact (brackets_of_inner (Kind.inner_of_mem_operators h) _).symm
  | start _ _ ih => exact ih
  | _ h => simp [brackets, h, Phase.depth]

theorem Moves.kind_eq_eof (h : Moves phase t .ended) : t.kind = .eof := by
  cases h with
  | nothing h => exact h
  | eof h => exact h
  | start _ h => cases h

theorem unclosed_of_run {start : Phase} (hstart : start.depth = 0)
    (h : start.run us = some further) : further.depth = unclosed us := by
  refine run_induction start (P := fun phase us => phase.depth = unclosed us) hstart ?_ h
  intro phase us t further hdepth hmoves
  rw [unclosed_concat, ← hdepth, hmoves.depth_eq]

theorem ne_ended_of_run {start : Phase} (hstart : start ≠ .ended)
    (hus : ∀ t ∈ us, t.kind ≠ .eof) (h : start.run us = some further) : further ≠ .ended := by
  have hends := run_induction start
    (P := fun phase us => phase = .ended → ∃ t ∈ us, t.kind = .eof)
    (fun heq => absurd heq hstart) ?_ h
  · intro heq
    obtain ⟨t, ht, heof⟩ := hends heq
    exact hus t ht heof
  · rintro phase us t _ _ hmoves rfl
    exact ⟨t, List.mem_append_right us List.mem_cons_self, hmoves.kind_eq_eof⟩

def Begun (us : List Token) (form : Form) : Prop :=
  form ≠ .sole ∧ ∃ t vs, currentStatement us = t :: vs ∧
    (t.kind = .printWord ↔ form = .printing)

/-- What some tokens of a program tell about the phase they lead to. -/
def Suits (us : List Token) : Phase → Prop
  | outset _ => currentStatement us = []
  | operand form _ | operator form _ => Begun us form
  | ended => True

theorem Begun.concat (h : Begun us form) (ht : t.kind ≠ .semicolon) :
    Begun (us ++ [t]) form := by
  obtain ⟨hform, first, vs, hcurrent, hprint⟩ := h
  refine ⟨hform, first, vs ++ [t], ?_, hprint⟩
  rw [currentStatement_concat ht, hcurrent, List.cons_append]

theorem begun_of_first {first : Bool} (h : currentStatement us = []) (ht : t.kind ≠ .semicolon)
    (hprint : t.kind ≠ .printWord) : Begun (us ++ [t]) (.atOutset first) := by
  refine ⟨Form.atOutset_ne_sole first, t, [], ?_, ?_⟩
  · rw [currentStatement_concat ht, h, List.nil_append]
  · cases first <;> simp [hprint, Form.atOutset]

theorem Suits.of_moves (h : Suits us phase) (hmoves : Moves phase t further) :
    Suits (us ++ [t]) further := by
  cases hmoves with
  | unary ht => exact Begun.concat h (Kind.inner_of_mem_unaryOperators ht).ne_semicolon
  | opened ht => exact Begun.concat h (by rw [ht]; decide)
  | value ht => exact Begun.concat h (Kind.inner_of_mem_literals ht).ne_semicolon
  | binary ht => exact Begun.concat h (Kind.inner_of_mem_operators ht).ne_semicolon
  | closed ht => exact Begun.concat h (by rw [ht]; decide)
  | semicolon ht _ => exact currentStatement_semicolon ht us
  | nothing _ => trivial
  | eof _ => trivial
  | print ht =>
    have hempty : currentStatement us = [] := h
    refine ⟨by decide, t, [], ?_, by simp [ht]⟩
    rw [currentStatement_concat (by rw [ht]; decide), hempty, List.nil_append]
  | start hprint hmoves =>
    cases hmoves with
    | unary ht => exact begun_of_first h (Kind.inner_of_mem_unaryOperators ht).ne_semicolon hprint
    | opened ht => exact begun_of_first h (by rw [ht]; decide) hprint
    | value ht => exact begun_of_first h (Kind.inner_of_mem_literals ht).ne_semicolon hprint

theorem suits_of_run (h : (outset true).run us = some further) : Suits us further := by
  refine run_induction (outset true) (P := fun phase us => Suits us phase) ?_ ?_ h
  · exact (rfl : currentStatement [] = [])
  · intro phase us t further hsuits hmoves
    exact hsuits.of_moves hmoves

def Sole : Phase → Prop
  | operand form _ | operator form _ => form = .sole
  | outset _ => False
  | ended => True

theorem Sole.of_moves (h : Sole phase) (hmoves : Moves phase t further) : Sole further := by
  cases hmoves <;> first | exact h | trivial

theorem sole_of_run (h : (operand .sole 0).run us = some (operator form depth)) :
    form = .sole := by
  have hsole : Sole (operator form depth) := by
    refine run_induction (operand .sole 0) (P := fun phase _ => Sole phase) rfl ?_ h
    intro phase us t further hsole hmoves
    exact hsole.of_moves hmoves
  exact hsole

def Tells (start : Phase) (missing : List Token → String) : Prop :=
  ∀ ⦃us form depth⦄ (t : Token), start.run us = some (.operator form depth) →
    (operator form depth).fault t = .expectedToken (missing us) t.lexeme

theorem tells_missingInProgram : Tells (outset true) missingInProgram := by
  intro us form depth t h
  have hdepth : depth = unclosed us := unclosed_of_run rfl h
  obtain ⟨hsole, first, vs, hcurrent, hprint⟩ := suits_of_run h
  rw [missingInProgram, ← hdepth, hcurrent]
  cases depth with
  | succ depth => rfl
  | zero => cases form <;> simp_all [fault, Form.message]

theorem tells_missingInExpression : Tells (operand .sole 0) missingInExpression := by
  intro us form depth t h
  have hdepth : depth = unclosed us := unclosed_of_run rfl h
  obtain rfl := sole_of_run h
  rw [missingInExpression, ← hdepth]
  cases depth <;> rfl

/-- A phase takes a value where it finds fault with the lack of an operand. -/
theorem step_value_iff {value : Value} {u : Token} (hne : phase ≠ .ended) (hu : u.Spells value) :
    (∃ further, phase.step u = some further) ↔ phase.fault t = .expectedExpression t.lexeme := by
  have hinner := Kind.inner_of_mem_literals hu.mem_literals
  cases phase with
  | outset first =>
    rw [step_outset hinner.ne_eof hinner.ne_printWord, step_operand_of_spells hu]
    exact ⟨fun _ => rfl, fun _ => ⟨_, rfl⟩⟩
  | operand form depth =>
    rw [step_operand_of_spells hu]
    exact ⟨fun _ => rfl, fun _ => ⟨_, rfl⟩⟩
  | operator form depth =>
    have hfault : (operator form depth).fault t ≠ .expectedExpression t.lexeme := by
      cases depth <;> exact Fault.noConfusion
    refine iff_of_false ?_ hfault
    rintro ⟨further, hstep⟩
    cases moves_of_step hstep with
    | binary h => exact Kind.not_mem_operators_of_mem_literals hu.mem_literals h
    | closed h => exact hinner (by rw [h]; decide)
    | semicolon h _ => exact hinner (by rw [h]; decide)
    | eof h => exact hinner.ne_eof h
  | ended => exact absurd rfl hne

/-! ## Completing what has been read -/

def closing (form : Form) (depth : Nat) : List Token :=
  List.replicate depth ⟨.closeParen, ")", none, 1⟩ ++
    if form = .sole then [] else [⟨.semicolon, ";", none, 1⟩]

/-- Tokens that may stand between a phase and the end. -/
def completion : Phase → List Token
  | outset _ | ended => []
  | operand form depth => ⟨.nilWord, "nil", none, 1⟩ :: closing form depth
  | operator form depth => closing form depth

theorem run_closing (form : Form) (depth : Nat) :
    (operator form depth).run (closing form depth ++ [Token.eof 1]) = some .ended := by
  induction depth with
  | zero => cases form <;> rfl
  | succ depth ih =>
    rw [closing, List.replicate_succ, List.cons_append, List.cons_append, run_cons,
      step_operator_of_close rfl, Option.bind_some]
    exact ih

theorem run_completion (h : phase ≠ .ended) :
    phase.run (phase.completion ++ [Token.eof 1]) = some .ended := by
  cases phase with
  | outset first => rfl
  | operand form depth =>
    rw [completion, List.cons_append, run_cons, step_operand_of_spells (.nilWord rfl),
      Option.bind_some, run_closing]
  | operator form depth => exact run_closing form depth
  | ended => exact absurd rfl h

theorem inner_closing (ht : t ∈ closing form depth) : t.kind ≠ .eof ∧ t.Carries := by
  rcases List.mem_append.1 ht with ht | ht
  · rw [List.eq_of_mem_replicate ht]
    exact ⟨by decide, nofun, nofun⟩
  · split_ifs at ht
    · cases ht
    · rw [List.eq_of_mem_singleton ht]
      exact ⟨by decide, nofun, nofun⟩

theorem inner_completion (ht : t ∈ phase.completion) : t.kind ≠ .eof ∧ t.Carries := by
  cases phase with
  | outset first => cases ht
  | operand form depth =>
    rcases List.mem_cons.1 ht with rfl | ht
    · exact ⟨by decide, nofun, nofun⟩
    · exact inner_closing ht
  | operator form depth => exact inner_closing ht
  | ended => cases ht

end Phase

/-- Some tokens begin a list with the shape of a source that is accepted. -/
def Viable (accepts : List Token → Prop) (us : List Token) : Prop :=
  ∃ vs, Shaped (us ++ vs) ∧ accepts (us ++ vs)

/-- A list with the shape of a source is accepted when its tokens lead to the end. -/
def Decides (start : Phase) (accepts : List Token → Prop) : Prop :=
  start ≠ .ended ∧ ∀ ⦃tokens⦄, Shaped tokens → (accepts tokens ↔ start.run tokens = some .ended)

section

variable {start : Phase} {accepts : List Token → Prop} {us : List Token}

theorem Viable.run (h : Viable accepts us) (hdecides : Decides start accepts) :
    ∃ phase, start.run us = some phase := by
  obtain ⟨vs, hshaped, haccepts⟩ := h
  have hrun := (hdecides.2 hshaped).1 haccepts
  rw [Phase.run_append] at hrun
  obtain ⟨phase, hphase, _⟩ := Option.bind_eq_some_iff.1 hrun
  exact ⟨phase, hphase⟩

theorem viable_of_run {phase : Phase} (hdecides : Decides start accepts)
    (hus : ∀ t ∈ us, t.kind ≠ .eof ∧ t.Carries) (h : start.run us = some phase) :
    Viable accepts us := by
  have hne := Phase.ne_ended_of_run hdecides.1 (fun t ht => (hus t ht).1) h
  have hinner : ∀ t ∈ us ++ phase.completion, t.kind ≠ .eof ∧ t.Carries := by
    intro t ht
    rcases List.mem_append.1 ht with ht | ht
    · exact hus t ht
    · exact Phase.inner_completion ht
  have hshaped : Shaped (us ++ (phase.completion ++ [Token.eof 1])) := by
    rw [← List.append_assoc]
    refine ⟨⟨_, Token.eof 1, rfl, rfl, fun t ht => (hinner t ht).1⟩, ?_⟩
    intro t ht
    rcases List.mem_append.1 ht with ht | ht
    · exact (hinner t ht).2
    · rw [List.eq_of_mem_singleton ht]
      exact ⟨nofun, nofun⟩
  refine ⟨_, hshaped, (hdecides.2 hshaped).2 ?_⟩
  rw [Phase.run_append, h, Option.bind_some, Phase.run_completion hne]

end

/-- In a list with the shape of a source, the token to blame stands behind those that
have been passed. -/
theorem Blames.split {start : Phase} {tokens : List Token} {file : String} {d : Diagnostic}
    {c : Cursor} (h : Blames start (Cursor.ofTokens tokens file) d c) (hshaped : Shaped tokens) :
    ∃ us t rest phase, tokens = us ++ t :: rest ∧ start.run us = some phase ∧
      phase.step t = none ∧ d = ⟨phase.fault t, ⟨t.line, file⟩⟩ := by
  obtain ⟨us, phase, hpasses, hrun, hstep, rfl⟩ := h
  obtain ⟨rest, hrest⟩ := hpasses.split
  have htokens : tokens = us ++ c.current :: rest := by
    rw [← hrest, Cursor.ahead_ofTokens]
    exact hshaped.eq_beforeEnd
  have hfile : c.file = file := hpasses.file
  exact ⟨us, c.current, rest, phase, htokens, hrun, hstep, by rw [Cursor.position, hfile]⟩

theorem Blames.run_eq_none {start : Phase} {tokens : List Token} {file : String}
    {d : Diagnostic} {c : Cursor} (h : Blames start (Cursor.ofTokens tokens file) d c)
    (hshaped : Shaped tokens) : start.run tokens = none := by
  obtain ⟨us, t, rest, phase, rfl, hrun, hstep, _⟩ := h.split hshaped
  rw [Phase.run_append, hrun, Option.bind_some, Phase.run_cons, hstep]
  rfl

/-! ## Which lists are accepted -/

theorem blames_of_ofTokens_expr {tokens : List Token} {file : String} {d : Diagnostic}
    (h : Expr.ofTokens tokens file = .error d) :
    ∃ c, Blames (.operand .sole 0) (Cursor.ofTokens tokens file) d c := by
  obtain ⟨c, h⟩ := Reader.onTokens_eq_error_iff.1 h
  refine ⟨c, ?_⟩
  obtain h | ⟨e, d', he, h⟩ := Reader.bind_eq_error_iff.1 h
  · exact blames_of_expression h .sole 0
  · obtain ⟨us, hpasses, hderives, hstops⟩ := expression_eq_ok_iff.1 he
    obtain h | ⟨t, c', _, h⟩ := Reader.bind_eq_error_iff.1 h
    · have hkind := (Reader.eq_of_expect_error h).1
      have hend : Phase.afterEnd? .sole d'.current.kind = none := by
        simp [Phase.afterEnd?, hkind]
      have hblames : Blames (.operator .sole 0) d' d c := blames_of_expect_end hstops hend h
      exact hblames.of_passes hpasses (Phase.run_of_derives hderives .sole 0)
    · cases h

theorem blames_of_ofTokens_stmt {tokens : List Token} {file : String} {d : Diagnostic}
    (h : Stmt.ofTokens tokens file = .error d) :
    ∃ c, Blames (.outset true) (Cursor.ofTokens tokens file) d c := by
  obtain ⟨c, h⟩ := Reader.onTokens_eq_error_iff.1 h
  exact ⟨c, blames_of_program h⟩

theorem run_flatten {program : List Stmt} {segments : List (List Token)}
    (h : List.Forall₂ Stmt.Yields program segments) (first : Bool) :
    (Phase.outset first).run segments.flatten = some (.outset (first && program.isEmpty)) := by
  induction h generalizing first with
  | nil => rw [List.isEmpty_nil, Bool.and_true, List.flatten_nil, Phase.run_nil]
  | cons hyields _ ih =>
    rw [List.flatten_cons, Phase.run_append, run_of_yields hyields, Option.bind_some, ih,
      Bool.false_and, List.isEmpty_cons, Bool.and_false]

theorem decides_of {α : Type} {start : Phase} {read : List Token → Except Diagnostic α}
    {file : String} (hstart : start ≠ .ended)
    (hok : ∀ ⦃tokens a⦄, Shaped tokens → read tokens = .ok a → start.run tokens = some .ended)
    (herror : ∀ ⦃tokens d⦄, read tokens = .error d →
      ∃ c, Blames start (Cursor.ofTokens tokens file) d c) :
    Decides start fun tokens => ∃ a, read tokens = .ok a := by
  refine ⟨hstart, ?_⟩
  intro tokens hshaped
  constructor
  · rintro ⟨a, h⟩
    exact hok hshaped h
  · intro hrun
    cases h : read tokens with
    | ok a => exact ⟨a, h⟩
    | error d =>
      obtain ⟨c, hblames⟩ := herror h
      rw [hblames.run_eq_none hshaped] at hrun
      cases hrun

theorem run_of_derives_ended {tokens : List Token} {e : Expr} {form : Form}
    (hshaped : Shaped tokens) (hderives : Derives .default e (beforeEnd tokens))
    (hform : form = .opening ∨ form = .sole) :
    (Phase.operand form 0).run tokens = some .ended := by
  have hlast := Cursor.kind_endOf tokens
  rw [hshaped.eq_beforeEnd, Phase.run_append, Phase.run_of_derives hderives, Option.bind_some,
    Phase.run_singleton, Phase.step_operator_zero (by rw [hlast]; decide), hlast]
  exact if_pos ⟨rfl, hform⟩

theorem decides_program (file : String) :
    Decides (.outset true) fun tokens => ∃ program, Stmt.ofTokens tokens file = .ok program := by
  refine decides_of nofun ?_ (fun _ _ h => blames_of_ofTokens_stmt h)
  intro tokens program hshaped h
  have hlast := Cursor.kind_endOf tokens
  rw [Stmt.ofTokens, Reader.onTokens_eq_ok_iff, program_eq_ok_iff, Cursor.ahead_ofTokens] at h
  rcases h with ⟨hnil, _⟩ | ⟨e, hderives, _⟩ | ⟨_, segments, hflatten, hall⟩
  · rw [hshaped.eq_beforeEnd, hnil, List.nil_append, Phase.run_singleton]
    exact if_pos hlast
  · have hopening := run_of_derives_ended hshaped hderives (.inl rfl)
    rw [hshaped.eq_beforeEnd, Phase.run_append] at hopening ⊢
    rw [run_outset hderives]
    exact hopening
  · rw [hshaped.eq_beforeEnd, Phase.run_append, hflatten, run_flatten hall, Option.bind_some,
      Phase.run_singleton]
    exact if_pos hlast

theorem decides_expression (file : String) :
    Decides (.operand .sole 0) fun tokens => ∃ e, Expr.ofTokens tokens file = .ok e := by
  refine decides_of nofun ?_ (fun _ _ h => blames_of_ofTokens_expr h)
  intro tokens e hshaped h
  exact run_of_derives_ended hshaped (Expr.ofTokens_eq_ok_iff.1 h) (.inr rfl)

/-- A diagnostic blames the first token with which a list can no longer be completed.  An
operand is missing there if a value in place of that token could still be continued, and
otherwise what the tokens before it tell. -/
def BlamesFirst (accepts : List Token → Prop) (missing : List Token → String)
    (tokens : List Token) (file : String) (d : Diagnostic) : Prop :=
  ∃ (i : Nat) (hi : i < tokens.length),
    IsLeast {j | j < tokens.length ∧ ¬ Viable accepts (tokens.take (j + 1))} i ∧
    d.position = ⟨tokens[i].line, file⟩ ∧
    (∀ t : Token, t.value?.isSome →
      (d.fault = .expectedExpression tokens[i].lexeme ↔
        Viable accepts (tokens.take i ++ [t]))) ∧
    (d.fault = .expectedExpression tokens[i].lexeme ∨
      d.fault = .expectedToken (missing (tokens.take i)) tokens[i].lexeme)

theorem isLeast_of_run {start phase : Phase} {accepts : List Token → Prop} {us rest : List Token}
    {t : Token} (hdecides : Decides start accepts) (hus : ∀ u ∈ us, u.kind ≠ .eof ∧ u.Carries)
    (hrun : start.run us = some phase) (hstep : phase.step t = none) :
    IsLeast {j | j < (us ++ t :: rest).length ∧
      ¬ Viable accepts ((us ++ t :: rest).take (j + 1))} us.length := by
  have htake : (us ++ t :: rest).take (us.length + 1) = us ++ [t] := by
    rw [List.append_cons, List.take_left' (by simp)]
  constructor
  · refine ⟨by simp, ?_⟩
    rw [htake]
    intro hviable
    obtain ⟨further, hfurther⟩ := hviable.run hdecides
    rw [Phase.run_append, hrun, Option.bind_some, Phase.run_singleton, hstep] at hfurther
    cases hfurther
  · -- fewer tokens lead to some phase, and every phase has a completion
    rintro j ⟨_, hnot⟩
    by_contra hlt
    have hle : j + 1 ≤ us.length := by omega
    apply hnot
    rw [List.take_append_of_le_length hle]
    rw [← List.take_append_drop (j + 1) us, Phase.run_append] at hrun
    obtain ⟨further, hfurther, _⟩ := Option.bind_eq_some_iff.1 hrun
    exact viable_of_run hdecides (fun u hu => hus u (List.mem_of_mem_take hu)) hfurther

theorem viable_concat_iff {start phase : Phase} {accepts : List Token → Prop}
    {us : List Token} {t : Token} {value : Value} (hdecides : Decides start accepts)
    (hus : ∀ u ∈ us, u.kind ≠ .eof ∧ u.Carries) (hrun : start.run us = some phase)
    (ht : t.Spells value) :
    Viable accepts (us ++ [t]) ↔ ∃ further, phase.step t = some further := by
  have hstep : start.run (us ++ [t]) = phase.step t := by
    rw [Phase.run_append, hrun, Option.bind_some, Phase.run_singleton]
  rw [← hstep]
  constructor
  · intro hviable
    exact hviable.run hdecides
  · rintro ⟨further, hfurther⟩
    refine viable_of_run hdecides ?_ hfurther
    intro u hu
    rcases List.mem_append.1 hu with hu | hu
    · exact hus u hu
    · rw [List.eq_of_mem_singleton hu]
      exact ⟨ht.kind_ne_eof, ht.carries⟩

theorem blamesFirst_of_blames {start : Phase} {accepts : List Token → Prop}
    {missing : List Token → String} {tokens : List Token} {file : String} {d : Diagnostic}
    {c : Cursor} (hdecides : Decides start accepts) (htells : Phase.Tells start missing)
    (hshaped : Shaped tokens) (h : Blames start (Cursor.ofTokens tokens file) d c) :
    BlamesFirst accepts missing tokens file d := by
  obtain ⟨us, t, rest, phase, rfl, hrun, hstep, rfl⟩ := h.split hshaped
  have hus : ∀ u ∈ us, u.kind ≠ .eof ∧ u.Carries := by
    intro u hu
    exact ⟨hshaped.kind_ne_eof hu, hshaped.carries u (List.mem_append_left _ hu)⟩
  have hne := Phase.ne_ended_of_run hdecides.1 (fun u hu => (hus u hu).1) hrun
  have hlength : us.length < (us ++ t :: rest).length := by simp
  have htoken : (us ++ t :: rest)[us.length] = t := by simp
  refine ⟨us.length, hlength, isLeast_of_run hdecides hus hrun hstep, by rw [htoken], ?_, ?_⟩
  · intro u hu
    obtain ⟨value, hvalue⟩ := Option.isSome_iff_exists.1 hu
    have hspells := Token.value?_eq_some_iff.1 hvalue
    rw [htoken, List.take_left, viable_concat_iff hdecides hus hrun hspells,
      Phase.step_value_iff hne hspells]
  · rw [htoken, List.take_left]
    cases phase with
    | operator form depth => exact .inr (htells t hrun)
    | ended => exact absurd rfl hne
    | _ => exact .inl rfl

/-- **A syntax error blames the first token that cannot be continued.**  In a list with the
shape of a source that is not read as a program, or not as an expression by itself, the
diagnostic blames the first token with which no list of that shape is accepted. -/
theorem syntax_error_blames_first_token (tokens : List Token) (file : String)
    (hshaped : Token.Shaped tokens) :
    (∀ d, Stmt.ofTokens tokens file = .error d →
      BlamesFirst (fun ts => ∃ program, Stmt.ofTokens ts file = .ok program)
        Token.missingInProgram tokens file d) ∧
    (∀ d, Expr.ofTokens tokens file = .error d →
      BlamesFirst (fun ts => ∃ e, Expr.ofTokens ts file = .ok e)
        Token.missingInExpression tokens file d) := by
  constructor
  · intro d h
    obtain ⟨c, hblames⟩ := blames_of_ofTokens_stmt h
    exact blamesFirst_of_blames (decides_program file) Phase.tells_missingInProgram hshaped
      hblames
  · intro d h
    obtain ⟨c, hblames⟩ := blames_of_ofTokens_expr h
    exact blamesFirst_of_blames (decides_expression file) Phase.tells_missingInExpression hshaped
      hblames

theorem syntax_error_blames_semicolon_in_brackets :
    Token.Shaped [⟨.printWord, "print", none, 1⟩, ⟨.openParen, "(", none, 1⟩,
      ⟨.string, "\"a\"", some (.string "a"), 2⟩, ⟨.semicolon, ";", none, 3⟩, .eof 3] ∧
    BlamesFirst (fun ts => ∃ program, Stmt.ofTokens ts "brackets" = .ok program)
      Token.missingInProgram
      [⟨.printWord, "print", none, 1⟩, ⟨.openParen, "(", none, 1⟩,
        ⟨.string, "\"a\"", some (.string "a"), 2⟩, ⟨.semicolon, ";", none, 3⟩, .eof 3]
      "brackets" ⟨.expectedToken "expect ')' after expression." ";", ⟨3, "brackets"⟩⟩ := by
  have hshaped : Token.Shaped [⟨.printWord, "print", none, 1⟩, ⟨.openParen, "(", none, 1⟩,
      ⟨.string, "\"a\"", some (.string "a"), 2⟩, ⟨.semicolon, ";", none, 3⟩, .eof 3] := by
    refine ⟨⟨_, .eof 3, (List.dropLast_append_getLast (by simp)).symm, rfl, by simp⟩, ?_⟩
    simp [Token.Carries, Token.eof]
  exact ⟨hshaped, (syntax_error_blames_first_token _ _ hshaped).1 _ rfl⟩

end Grammar

end Scriptlet

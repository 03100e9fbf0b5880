import Scriptlet.Proofs.Grammar.ProgramLanguage
/-!
# Readers move forward

Whatever a reader finds, and whether or not it fails, it leaves the cursor where it was
or behind some of the tokens ahead.  One that reads an expression or a statement has taken
a token when it succeeds, also where it takes its first token unseen.
-/

namespace Scriptlet

theorem Cursor.exists_passes_advance (c : Cursor) : ∃ us, c.Passes us c.advance := by
  by_cases h : c.current.kind = .eof
  · have htokens := mt hasTokens_iff.1 (not_not_intro h)
    have hahead : c.ahead = [] := by
      rwa [hasTokens_eq_true_iff, not_not] at htokens
    exact ⟨[], by rw [advance_of_ahead_nil hahead]; exact Passes.refl c⟩
  · exact ⟨_, passes_advance h⟩

namespace Reader

variable {α β : Type} {reader : Reader α} {further : α → Reader β}

def after (reader : Reader α) (c : Cursor) : Cursor :=
  match reader c with
  | .ok _ c' => c'
  | .error _ c' => c'

/-- A reader leaves the cursor behind some of the tokens ahead, if not where it was. -/
def Forward (reader : Reader α) : Prop :=
  ∀ c : Cursor, ∃ us, c.Passes us (reader.after c)

/-- A reader that succeeds has taken a token at least. -/
def Advances (reader : Reader α) : Prop :=
  ∀ ⦃c : Cursor⦄ ⦃a : α⦄ ⦃c' : Cursor⦄, reader c = .ok a c' → c'.remaining < c.remaining

theorem after_of_ok {c c' : Cursor} {a : α} (h : reader c = .ok a c') : reader.after c = c' := by
  rw [after, h]

theorem bind_cases {P : EStateM.Result Diagnostic Cursor β → Prop} {c : Cursor}
    (herror : ∀ d c', reader c = .error d c' → P (.error d c'))
    (hok : ∀ a c', reader c = .ok a c' → P (further a c')) : P ((reader >>= further) c) := by
  change P (EStateM.bind reader further c)
  rw [EStateM.bind]
  cases h : reader c with
  | error d c' => exact herror d c' h
  | ok a c' => exact hok a c' h

theorem Forward.remaining_le (hr : Forward reader) {c c' : Cursor} {a : α}
    (h : reader c = .ok a c') : c'.remaining ≤ c.remaining := by
  obtain ⟨us, hpasses⟩ := hr c
  rw [after_of_ok h] at hpasses
  have := hpasses.remaining_eq
  omega

/-! ## Steps -/

theorem Forward.of_stays (h : ∀ c, reader.after c = c) : Forward reader :=
  fun c => ⟨[], by rw [h]; exact .refl c⟩

theorem forward_pure (a : α) : Forward (pure a) := .of_stays fun _ => rfl

theorem forward_current : Forward current := .of_stays fun _ => rfl

theorem forward_hasTokens : Forward hasTokens := .of_stays fun _ => rfl

theorem forward_blame (fault : Token → Fault) : Forward (blame fault : Reader α) :=
  .of_stays fun _ => rfl

theorem forward_advance : Forward advance := fun c => c.exists_passes_advance

theorem forward_accept? (kinds : List Kind) : Forward (accept? kinds) := by
  intro c
  rw [after, accept?]
  by_cases h : c.current.kind ∈ kinds
  · rw [if_pos h]
    exact c.exists_passes_advance
  · rw [if_neg h]
    exact ⟨[], .refl c⟩

theorem forward_expect (kind : Kind) (message : String) : Forward (expect kind message) := by
  intro c
  rw [after, expect]
  by_cases h : c.current.kind = kind
  · rw [if_pos h]
    exact c.exists_passes_advance
  · rw [if_neg h]
    exact ⟨[], .refl c⟩

theorem Forward.of_eq {other : Cursor → Reader α} (ho : ∀ c, Forward (other c))
    (h : ∀ c, reader c = other c c) : Forward reader := by
  intro c
  obtain ⟨us, hpasses⟩ := ho c c
  rw [after] at hpasses ⊢
  rw [h]
  exact ⟨us, hpasses⟩

theorem Forward.bind (hr : Forward reader) (hf : ∀ a, Forward (further a)) :
    Forward (reader >>= further) := by
  intro c
  obtain ⟨us, hpasses⟩ := hr c
  change ∃ us, c.Passes us (after (EStateM.bind reader further) c)
  rw [after] at hpasses ⊢
  rw [EStateM.bind]
  cases h : reader c with
  | error d c' =>
    rw [h] at hpasses
    exact ⟨us, hpasses⟩
  | ok a c' =>
    rw [h] at hpasses
    obtain ⟨vs, hpasses'⟩ := hf a c'
    exact ⟨us ++ vs, hpasses.trans hpasses'⟩

theorem Forward.map (hr : Forward reader) (f : α → β) : Forward (reader >>= fun a => pure (f a)) :=
  hr.bind fun a => forward_pure (f a)

theorem Advances.bind (hr : Advances reader) (hf : ∀ a, Forward (further a)) :
    Advances (reader >>= further) := by
  intro c b c' h
  obtain ⟨a, d, ha, hb⟩ := bind_eq_ok_iff.1 h
  exact Nat.lt_of_le_of_lt ((hf a).remaining_le hb) (hr ha)

theorem Forward.bind_advances (hr : Forward reader) (hf : ∀ a, Advances (further a)) :
    Advances (reader >>= further) := by
  intro c b c' h
  obtain ⟨a, d, ha, hb⟩ := bind_eq_ok_iff.1 h
  exact Nat.lt_of_lt_of_le (hf a hb) (hr.remaining_le ha)

end Reader

namespace Grammar

open Reader

/-! ## Expressions -/

section

variable {operand : Reader Expr}

theorem forward_literal : Forward literal := by
  refine forward_current.bind fun t => ?_
  cases t.value? with
  | none => exact forward_blame _
  | some value => exact forward_advance.map _

theorem forward_chainFrom (ho : Forward operand) (operators : List Kind) (bound : Nat)
    (left : Expr) : Forward (chainFrom operators operand bound left) := by
  induction bound generalizing left with
  | zero => exact forward_pure left
  | succ bound ih =>
    refine (forward_accept? operators).bind fun found => ?_
    cases found with
    | none => exact forward_pure left
    | some operator => exact ho.bind fun right => ih _

theorem forward_chain (ho : Forward operand) (operators : List Kind) (bound : Nat) :
    Forward (chain operators operand bound) :=
  ho.bind fun left => forward_chainFrom ho operators bound left

theorem forward_prefixed (ho : Forward operand) (bound : Nat) :
    Forward (prefixed operand bound) := by
  induction bound with
  | zero => exact ho
  | succ bound ih =>
    refine (forward_accept? _).bind fun found => ?_
    cases found with
    | none => exact ho
    | some operator => exact ih.map _

theorem forward_atLevel {primary : Reader Expr} (hp : Forward primary) (bound : Nat)
    (level : Level) : Forward (atLevel primary bound level) := by
  induction level using Level.descend with
  | primary => exact hp
  | unary ih => exact forward_prefixed ih bound
  | binary level hlevel ih =>
    rw [atLevel_of_operators hlevel]
    exact forward_chain ih _ bound
  | default ih => exact ih

theorem forward_bracketed (ho : Forward operand) : Forward (bracketed operand) :=
  forward_advance.bind fun _ => ho.bind fun _ => (forward_expect _ _).map _

theorem forward_primary (bound : Nat) : Forward (primary bound) := by
  induction bound with
  | zero => exact forward_blame fun t => .expectedExpression t.lexeme
  | succ bound ih =>
    refine forward_current.bind fun t => ?_
    dsimp only
    split
    · exact forward_literal
    split
    · exact forward_bracketed (forward_atLevel ih bound _)
    · exact forward_blame _

theorem forward_expression (level : Level) : Forward (expression level) :=
  .of_eq (fun c => forward_atLevel (forward_primary c.remaining) c.remaining level) fun _ => rfl

theorem forward_binary (level : Level) : Forward (binary level) :=
  .of_eq (fun c => forward_chain (forward_atLevel (forward_primary c.remaining) c.remaining _) _ _)
    fun _ => rfl

theorem forward_grouping : Forward grouping :=
  .of_eq (fun c => forward_bracketed (forward_atLevel (forward_primary c.remaining) c.remaining _))
    fun _ => rfl

end

theorem advances_expression (level : Level) : Advances (expression level) := by
  intro c e c' h
  obtain ⟨us, hpasses, hderives, _⟩ := expression_eq_ok_iff.1 h
  have hpos := List.length_pos_iff.2 hderives.ne_nil
  have := hpasses.remaining_eq
  omega

theorem advances_literal : Advances literal := by
  intro c e c' h
  cases hvalue : c.current.value? with
  | none =>
    rw [literal_of_none hvalue] at h
    cases h
  | some value =>
    have hspells := Token.value?_eq_some_iff.1 hvalue
    rw [(takes_literal hspells).eq_ok] at h
    cases h
    exact remaining_advance_lt hspells.kind_ne_eof

theorem binary_eq (level : Level) (c : Cursor) :
    binary level c = (expression level.next >>= fun left =>
      chainFrom level.operators (atLevel (primary c.remaining) c.remaining level.next)
        c.remaining left) c :=
  bind_eq_of_eq rfl

theorem bracketed_eq (operand : Reader Expr) (c : Cursor) :
    bracketed operand c = (operand >>= fun e =>
      expect .closeParen "expect ')' after expression." >>= fun _ =>
        pure (.grouping e)) c.advance :=
  bind_of_ok (rfl : advance c = .ok _ c.advance)

theorem advances_binary (level : Level) : Advances (binary level) := by
  intro c e c' h
  rw [binary_eq] at h
  have hoperand := forward_atLevel (forward_primary c.remaining) c.remaining level.next
  exact (advances_expression level.next).bind (fun left => forward_chainFrom hoperand _ _ left) h

theorem remaining_advance_le (c : Cursor) : c.advance.remaining ≤ c.remaining := by
  obtain ⟨us, hpasses⟩ := c.exists_passes_advance
  have := hpasses.remaining_eq
  omega

/-- The first token may be the end, which is not taken; but then there is no expression. -/
theorem advances_grouping : Advances grouping := by
  intro c e c' h
  rw [grouping, bracketed_eq] at h
  obtain ⟨inner, d, hinner, hclose⟩ := bind_eq_ok_iff.1 h
  have hle := remaining_advance_le c
  obtain ⟨us, hpasses, hderives, _⟩ := sound_atLevel (sound_primary c.remaining) .default hle hinner
  have hpos := List.length_pos_iff.2 hderives.ne_nil
  have hremaining := hpasses.remaining_eq
  have hrest := ((forward_expect _ _).map fun _ => Expr.grouping inner).remaining_le hclose
  omega

/-! ## Statements -/

theorem forward_closeExpression (e : Expr) : Forward (closeExpression e) :=
  (forward_expect _ _).map _

theorem forward_expressionStatement : Forward expressionStatement :=
  (forward_expression _).bind forward_closeExpression

theorem forward_printStatement : Forward printStatement :=
  forward_advance.bind fun _ => (forward_expression _).bind fun _ => (forward_expect _ _).map _

theorem forward_statement : Forward statement := by
  refine forward_current.bind fun t => ?_
  split
  · exact forward_printStatement
  · exact forward_expressionStatement

theorem forward_opening : Forward opening := by
  refine forward_current.bind fun t => ?_
  split
  · exact forward_statement
  refine (forward_expression _).bind fun e => forward_hasTokens.bind fun more => ?_
  split
  · exact forward_closeExpression e
  · exact forward_pure _

theorem advances_expressionStatement : Advances expressionStatement :=
  (advances_expression _).bind forward_closeExpression

theorem advances_printStatement : Advances printStatement :=
  forward_advance.bind_advances fun _ =>
    (advances_expression _).bind fun _ => (forward_expect _ _).map _

theorem advances_statement : Advances statement := by
  refine forward_current.bind_advances fun t => ?_
  split
  · exact advances_printStatement
  · exact advances_expressionStatement

theorem advances_opening : Advances opening := by
  refine forward_current.bind_advances fun t => ?_
  split
  · exact advances_statement
  refine (advances_expression _).bind fun e => forward_hasTokens.bind fun more => ?_
  split
  · exact forward_closeExpression e
  · exact forward_pure _

end Grammar

end Scriptlet

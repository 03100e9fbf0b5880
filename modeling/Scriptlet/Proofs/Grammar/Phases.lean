import Mathlib.Data.List.Induction
import Mathlib.Tactic.SplitIfs
import Scriptlet.Grammar.Expression
import Scriptlet.Proofs.Grammar.Trees
/-!
# Phases of a statement

What may follow some tokens depends on little: whether an operand or an operator is
due, how many brackets are open, and how the statement ends.  Precedence plays no
part.  A phase holds just that, and the tokens take one phase to the next or end the
reading at the token that no phase admits.
-/

namespace Scriptlet

theorem Token.value?_eq_some_iff {t : Token} {value : Value} :
    t.value? = some value ↔ t.Spells value := by
  constructor
  · intro h
    unfold Token.value? at h
    split at h <;> cases h
    case h_1 hk => exact .trueWord hk
    case h_2 hk => exact .falseWord hk
    case h_3 hk => exact .nilWord hk
    case h_4 hk hl => exact .number hk hl
    case h_5 hk hl => exact .string hk hl
  · intro h
    cases h <;> simp_all [Token.value?]

theorem Token.Spells.mem_literals {t : Token} {value : Value} (h : t.Spells value) :
    t.kind ∈ Kind.literals := by
  cases h <;> simp_all [Kind.literals]

def Kind.Inner (kind : Kind) : Prop :=
  kind ∉ [eof, semicolon, openParen, closeParen, printWord]

theorem Kind.inner_of_mem_unaryOperators {kind : Kind} (h : kind ∈ unaryOperators) :
    kind.Inner := by
  revert kind
  simp only [Inner]
  decide

theorem Kind.inner_of_mem_literals {kind : Kind} (h : kind ∈ literals) : kind.Inner := by
  revert kind
  simp only [Inner]
  decide

theorem Kind.inner_of_mem_operators {kind : Kind} {level : Level} (h : kind ∈ level.operators) :
    kind.Inner := by
  revert kind
  simp only [Inner]
  cases level <;> decide

theorem Kind.Inner.ne_eof {kind : Kind} (h : kind.Inner) : kind ≠ .eof := by
  rintro rfl
  exact h (by decide)

theorem Kind.not_mem_operators_of_mem_literals {kind : Kind} {level : Level}
    (h : kind ∈ literals) : kind ∉ level.operators := by
  revert kind
  cases level <;> decide

theorem Kind.Inner.ne_semicolon {kind : Kind} (h : kind.Inner) : kind ≠ .semicolon := by
  rintro rfl
  exact h (by decide)

theorem Kind.Inner.ne_printWord {kind : Kind} (h : kind.Inner) : kind ≠ .printWord := by
  rintro rfl
  exact h (by decide)

theorem Kind.not_mem_unaryOperators {kind : Kind} (h : kind.beginsPrimary = true) :
    kind ∉ unaryOperators := by
  intro hmem
  simp only [unaryOperators, List.mem_cons, List.not_mem_nil, or_false] at hmem
  rcases hmem with rfl | rfl <;> exact absurd h (by decide)

theorem Token.Spells.kind_ne_eof {t : Token} {value : Value} (h : t.Spells value) :
    t.kind ≠ .eof := (Kind.inner_of_mem_literals h.mem_literals).ne_eof

namespace Grammar

/-- How a statement ends: the first one of a program may end with the source, the others
end with a semicolon, and an expression by itself ends with the source only. -/
inductive Form where
  | opening | printing | plain | sole
deriving DecidableEq, Repr

def Form.message : Form → String
  | printing => "expect ';' after value."
  | sole => "expect end of input after expression."
  | opening | plain => "expect ';' after expression."

def Form.atOutset (first : Bool) : Form := if first then opening else plain

theorem Form.atOutset_ne_sole (first : Bool) : atOutset first ≠ sole := by
  cases first <;> decide

inductive Phase where
  | outset (first : Bool)
  | operand (form : Form) (depth : Nat)
  | operator (form : Form) (depth : Nat)
  | ended
deriving DecidableEq, Repr

namespace Phase

def afterOperand? (form : Form) (depth : Nat) (t : Token) : Option Phase :=
  if t.kind ∈ Kind.unaryOperators then some (operand form depth)
  else if t.kind = .openParen then some (operand form (depth + 1))
  else if t.value?.isSome then some (operator form depth)
  else none

def afterEnd? (form : Form) (kind : Kind) : Option Phase :=
  if kind = .eof ∧ (form = .opening ∨ form = .sole) then some ended
  else if kind = .semicolon ∧ form ≠ .sole then some (outset false)
  else none

def step : Phase → Token → Option Phase
  | outset first, t =>
    if t.kind = .eof then some ended
    else if t.kind = .printWord then some (operand .printing 0)
    else afterOperand? (.atOutset first) 0 t
  | operand form depth, t => afterOperand? form depth t
  | operator form depth, t =>
    if (Level.ofOperator? t.kind).isSome then some (operand form depth)
    else match depth with
      | depth + 1 => if t.kind = .closeParen then some (operator form depth) else none
      | 0 => afterEnd? form t.kind
  | ended, _ => none

def run (phase : Phase) (us : List Token) : Option Phase := us.foldlM step phase

def fault : Phase → Token → Fault
  | operator _ (_ + 1), t => .expectedToken "expect ')' after expression." t.lexeme
  | operator form 0, t => .expectedToken form.message t.lexeme
  | _, t => .expectedExpression t.lexeme

def depth : Phase → Nat
  | operand _ depth | operator _ depth => depth
  | outset _ | ended => 0

@[simp] theorem run_nil (phase : Phase) : phase.run [] = some phase := rfl

theorem run_cons (phase : Phase) (t : Token) (us : List Token) :
    phase.run (t :: us) = (phase.step t).bind fun further => further.run us := by
  rw [run, List.foldlM_cons]
  rfl

theorem run_append (phase : Phase) (us vs : List Token) :
    phase.run (us ++ vs) = (phase.run us).bind fun further => further.run vs := by
  rw [run, List.foldlM_append]
  rfl

theorem run_singleton (phase : Phase) (t : Token) : phase.run [t] = phase.step t := by
  rw [run_cons]
  exact Option.bind_fun_some (phase.step t)

inductive Moves : Phase → Token → Phase → Prop where
  | unary {form depth t} (h : t.kind ∈ Kind.unaryOperators) :
      Moves (operand form depth) t (operand form depth)
  | opened {form depth t} (h : t.kind = .openParen) :
      Moves (operand form depth) t (operand form (depth + 1))
  | value {form depth t} (h : t.kind ∈ Kind.literals) :
      Moves (operand form depth) t (operator form depth)
  | binary {form depth t} {level : Level} (h : t.kind ∈ level.operators) :
      Moves (operator form depth) t (operand form depth)
  | closed {form depth t} (h : t.kind = .closeParen) :
      Moves (operator form (depth + 1)) t (operator form depth)
  | semicolon {form t} (h : t.kind = .semicolon) (hform : form ≠ .sole) :
      Moves (operator form 0) t (outset false)
  | nothing {first t} (h : t.kind = .eof) : Moves (outset first) t ended
  | eof {form t} (h : t.kind = .eof) : Moves (operator form 0) t ended
  | print {first t} (h : t.kind = .printWord) : Moves (outset first) t (operand .printing 0)
  | start {first t further} (hprint : t.kind ≠ .printWord)
      (h : Moves (operand (.atOutset first) 0) t further) : Moves (outset first) t further

/-! ## Steps of a phase -/

variable {form : Form} {depth : Nat} {t : Token}

theorem step_operand_of_unary (h : t.kind ∈ Kind.unaryOperators) :
    (operand form depth).step t = some (operand form depth) := if_pos h

theorem step_operand_of_open (h : t.kind = .openParen) :
    (operand form depth).step t = some (operand form (depth + 1)) := by
  have hunary : t.kind ∉ Kind.unaryOperators := by rw [h]; decide
  rw [step, afterOperand?, if_neg hunary, if_pos h]

theorem step_operand_of_spells {value : Value} (h : t.Spells value) :
    (operand form depth).step t = some (operator form depth) := by
  have hmem := h.mem_literals
  have hunary : t.kind ∉ Kind.unaryOperators :=
    Kind.not_mem_unaryOperators (by simp [Kind.beginsPrimary, hmem])
  have hopen : t.kind ≠ .openParen := by
    intro hopen
    rw [hopen] at hmem
    exact absurd hmem (by decide)
  rw [step, afterOperand?, if_neg hunary, if_neg hopen, Token.value?_eq_some_iff.2 h]
  rfl

theorem step_operand_of_none (hunary : t.kind ∉ Kind.unaryOperators)
    (hopen : t.kind ≠ .openParen) (h : t.value? = none) :
    (operand form depth).step t = none := by
  rw [step, afterOperand?, if_neg hunary, if_neg hopen, h]
  rfl

theorem step_operator_of_mem {level : Level} (h : t.kind ∈ level.operators) :
    (operator form depth).step t = some (operand form depth) :=
  if_pos (by rw [Level.ofOperator?_eq_some_iff.2 h]; rfl)

theorem step_operator_of_close (h : t.kind = .closeParen) :
    (operator form (depth + 1)).step t = some (operator form depth) := by
  have hoperator : Level.ofOperator? t.kind = none := by rw [h]; decide
  rw [step, hoperator]
  exact if_pos h

theorem step_operator_of_ne_close (hoperator : Level.ofOperator? t.kind = none)
    (h : t.kind ≠ .closeParen) : (operator form (depth + 1)).step t = none := by
  rw [step, hoperator]
  exact if_neg h

theorem step_operator_zero (hoperator : Level.ofOperator? t.kind = none) :
    (operator form 0).step t = afterEnd? form t.kind := by
  rw [step, hoperator]
  rfl

theorem step_operator_of_semicolon (h : t.kind = .semicolon) (hform : form ≠ .sole) :
    (operator form 0).step t = some (outset false) := by
  rw [step_operator_zero (by rw [h]; decide), afterEnd?, h]
  simp [hform]

theorem step_outset_of_print {first : Bool} (h : t.kind = .printWord) :
    (outset first).step t = some (operand .printing 0) := by
  have heof : t.kind ≠ .eof := by rw [h]; decide
  exact (if_neg heof).trans (if_pos h)

theorem step_outset {first : Bool} (heof : t.kind ≠ .eof) (hprint : t.kind ≠ .printWord) :
    (outset first).step t = (operand (.atOutset first) 0).step t :=
  (if_neg heof).trans (if_neg hprint)

theorem moves_of_operand {further : Phase} (h : (operand form depth).step t = some further) :
    Moves (operand form depth) t further := by
  by_cases hunary : t.kind ∈ Kind.unaryOperators
  · rw [step_operand_of_unary hunary] at h
    cases h
    exact .unary hunary
  by_cases hopen : t.kind = .openParen
  · rw [step_operand_of_open hopen] at h
    cases h
    exact .opened hopen
  cases hvalue : t.value? with
  | none =>
    rw [step_operand_of_none hunary hopen hvalue] at h
    cases h
  | some value =>
    have hspells := Token.value?_eq_some_iff.1 hvalue
    rw [step_operand_of_spells hspells] at h
    cases h
    exact .value hspells.mem_literals

theorem moves_of_operator {further : Phase} (h : (operator form depth).step t = some further) :
    Moves (operator form depth) t further := by
  cases hlevel : Level.ofOperator? t.kind with
  | some level =>
    have hmem := Level.ofOperator?_eq_some_iff.1 hlevel
    rw [step_operator_of_mem hmem] at h
    cases h
    exact .binary hmem
  | none =>
    cases depth with
    | succ depth =>
      by_cases hclose : t.kind = .closeParen
      · rw [step_operator_of_close hclose] at h
        cases h
        exact .closed hclose
      · rw [step_operator_of_ne_close hlevel hclose] at h
        cases h
    | zero =>
      rw [step_operator_zero hlevel] at h
      unfold afterEnd? at h
      split_ifs at h with heof hsemicolon <;> cases h
      · exact .eof heof.1
      · exact .semicolon hsemicolon.1 hsemicolon.2

theorem moves_of_step {phase further : Phase} (h : phase.step t = some further) :
    Moves phase t further := by
  cases phase with
  | outset first =>
    by_cases heof : t.kind = .eof
    · rw [step, if_pos heof] at h
      cases h
      exact .nothing heof
    by_cases hprint : t.kind = .printWord
    · rw [step_outset_of_print hprint] at h
      cases h
      exact .print hprint
    · rw [step_outset heof hprint] at h
      exact .start hprint (moves_of_operand h)
  | operand form depth => exact moves_of_operand h
  | operator form depth => exact moves_of_operator h
  | ended => cases h

/-- What holds at the start and is kept by every token holds of the phase that a list of
tokens leads to. -/
theorem run_induction (start : Phase) {P : Phase → List Token → Prop} (hstart : P start [])
    (hstep : ∀ ⦃phase us t further⦄, P phase us → Moves phase t further → P further (us ++ [t]))
    {us : List Token} {further : Phase} (h : start.run us = some further) : P further us := by
  -- the last token is split off, since it is the one that reaches the phase
  induction us using List.reverseRecOn generalizing further with
  | nil =>
    cases h
    exact hstart
  | append_singleton us t ih =>
    rw [run_append] at h
    obtain ⟨phase, hrun, h⟩ := Option.bind_eq_some_iff.1 h
    rw [run_singleton] at h
    exact hstep (ih hrun) (moves_of_step h)

theorem run_of_derives {level : Level} {e : Expr} {us : List Token} (h : Derives level e us)
    (form : Form) (depth : Nat) :
    (operand form depth).run us = some (operator form depth) := by
  -- brackets raise the depth for what is inside them
  induction h generalizing depth with
  | next _ ih => exact ih depth
  | binary ho _ _ ihl ihr =>
    rw [run_append, ihl, Option.bind_some, run_cons, step_operator_of_mem ho, Option.bind_some, ihr]
  | unary ho _ ih => rw [run_cons, step_operand_of_unary ho, Option.bind_some, ih]
  | literal h => rw [run_singleton, step_operand_of_spells h]
  | grouping ho ht _ ih =>
    rw [run_cons, step_operand_of_open ho, Option.bind_some, run_append, ih, Option.bind_some,
      run_singleton, step_operator_of_close ht]

end Phase

end Grammar

end Scriptlet

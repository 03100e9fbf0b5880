import Scriptlet.Proofs.Evaluation.Operators
import Scriptlet.Proofs.Session.Transcript
/-!
# A full sink only truncates

A session remembers nothing but its sink.  What a step writes, and what it yields, is what
it would be in a session of its own with a sink that takes everything; a limited sink cuts
the text of all steps at its limit, and it ends the programs that run into that.
-/

namespace Scriptlet

def Step.bytes (file : String) : Step → List UInt8
  | evaluate _ | locate _ => []
  | interpret program => (Stmt.transcript file program).1
  | executeAll program => program.flatMap (Stmt.emitted file)
  | put bytes => bytes

namespace Session

def fresh (file : String) : Session := ⟨file, Sink.unlimited⟩

def after (session : Session) (steps : List Step) : Session :=
  steps.foldl (fun session step => (session.step step).2) session

/-- What a step writes in a session of its own. -/
def emitted (file : String) (step : Step) : List UInt8 := ((fresh file).step step).2.sink.written

def result (file : String) (step : Step) : Answer := ((fresh file).step step).1

variable {file : String} {limit : Option Nat} {refusal : Refusal}

theorem step_holding (whole : List UInt8) (step : Step) :
    (Session.step ⟨file, .holding limit refusal whole⟩ step).2 =
      ⟨file, .holding limit refusal (whole ++ step.bytes file)⟩ := by
  cases step with
  | evaluate e | locate t =>
    rw [Step.bytes, List.append_nil]
    rfl
  | interpret program =>
    rw [Session.step, Stmt.outcome_interpret]
    rfl
  | executeAll program =>
    rw [Session.step, Step.bytes, ← Stmt.executeAll_holding]
  | put bytes =>
    rw [Session.step, outcome, Sink.put_holding]
    split_ifs <;> rfl

theorem emitted_eq (file : String) (step : Step) : emitted file step = step.bytes file := by
  have hstep := @step_holding file none .closed [] step
  rw [Sink.holding_nil] at hstep
  rw [emitted, fresh, Sink.unlimited, hstep]
  rfl

theorem after_holding (whole : List UInt8) (steps : List Step) :
    after ⟨file, .holding limit refusal whole⟩ steps =
      ⟨file, .holding limit refusal (whole ++ steps.flatMap (emitted file))⟩ := by
  induction steps generalizing whole with
  | nil =>
    rw [List.flatMap_nil, List.append_nil]
    rfl
  | cons step steps ih =>
    rw [after, List.foldl_cons, step_holding, ← after, ih, List.flatMap_cons, emitted_eq,
      List.append_assoc]

theorem after_new (limit : Option Nat) (refusal : Refusal) (steps : List Step) :
    after ⟨file, Sink.new limit refusal⟩ steps =
      ⟨file, .holding limit refusal (steps.flatMap (emitted file))⟩ := by
  rw [← Sink.holding_nil, after_holding, List.nil_append]

theorem interpret_holding (whole : List UInt8) (program : List Stmt) :
    (Session.step ⟨file, .holding limit refusal whole⟩ (.interpret program)).1 =
      .failure (if Sink.Refuses limit whole (emitted file (.interpret program)) then
        some (refusal.diagnostic file) else (Stmt.transcript file program).2) := by
  rw [Session.step, Stmt.outcome_interpret, emitted_eq]
  rfl

theorem result_interpret (file : String) (program : List Stmt) :
    result file (.interpret program) = .failure (Stmt.transcript file program).2 := by
  have hstep := @interpret_holding file none .closed [] program
  rw [Sink.holding_nil] at hstep
  exact hstep.trans (congrArg Answer.failure (if_neg (by simp [Sink.Refuses, Sink.overflows])))

theorem result_interpret_ne (file : String) (program : List Stmt) (reason : String)
    (position : Position) :
    result file (.interpret program) ≠ .failure (some ⟨.outputFailed reason, position⟩) := by
  rw [result_interpret]
  intro h
  obtain ⟨statement, _, houtput⟩ := Stmt.transcript_error (Answer.failure.inj h)
  obtain ⟨_, _, hoperator, _⟩ :=
    Expr.operator_of_eval_error (Stmt.output_eq_error_iff.1 houtput)
  cases hoperator

/-- **A session keeps no state but its sink, and a full sink only truncates.**  Behind any
steps, the sink holds the first part of what the steps write in sessions of their own; an
evaluation yields what it yields in one; and so does a program, unless it writes something
and that takes the text over the limit, which is just when the program is ended by a text
that is refused. -/
theorem limited_sink_only_truncates (file : String) (limit : Nat) (refusal : Refusal)
    (before : List Step) :
    let session := after ⟨file, Sink.new (some limit) refusal⟩ before
    session.sink.written = (before.flatMap (emitted file)).take limit ∧
    (∀ e, (session.step (.evaluate e)).1 = result file (.evaluate e)) ∧
    ∀ program,
      let answer := (session.step (.interpret program)).1
      let refused := emitted file (.interpret program) ≠ [] ∧
        limit < ((before ++ [Step.interpret program]).flatMap (emitted file)).length
      answer = (if refused then .failure (some ⟨.outputFailed refusal.text, ⟨0, file⟩⟩)
        else result file (.interpret program)) ∧
      ((∃ reason position, answer = .failure (some ⟨.outputFailed reason, position⟩)) ↔
        refused) := by
  intro session
  have hsession : session =
      ⟨file, .holding (some limit) refusal (before.flatMap (emitted file))⟩ :=
    after_new (some limit) refusal before
  refine ⟨by rw [hsession]; rfl, fun e => by rw [hsession]; rfl, ?_⟩
  intro program answer refused
  have hrefused : refused ↔
      Sink.Refuses (some limit) (before.flatMap (emitted file))
        (emitted file (.interpret program)) := by
    simp [refused, Sink.Refuses, Sink.overflows]
  have hanswer : answer = if refused then
      .failure (some ⟨.outputFailed refusal.text, ⟨0, file⟩⟩)
      else result file (.interpret program) := by
    rw [result_interpret]
    simp only [hrefused, answer, hsession, interpret_holding, Refusal.diagnostic]
    split_ifs <;> rfl
  refine ⟨hanswer, ?_⟩
  rw [hanswer]
  by_cases h : refused
  · rw [if_pos h]
    exact iff_of_true ⟨_, _, rfl⟩ h
  · rw [if_neg h]
    refine iff_of_false ?_ h
    rintro ⟨reason, position, heq⟩
    exact result_interpret_ne file program reason position heq

/-- A second print is cut within its line, and what follows it is refused whole. -/
example :
    let print (text : String) : Stmt := .print (.literal (.string text))
    let session := after ⟨"cut", Sink.new (some 6) (.failed "broken pipe")⟩ [.write "> "]
    let (answer, cut) := session.step (.interpret [print "a", print "bcd", print "e"])
    let (later, same) := cut.step (.interpret [print "f"])
    let silent := same.step (.interpret [.expression (.literal .nil)])
    answer = .failure (some ⟨.outputFailed "broken pipe", ⟨0, "cut"⟩⟩) ∧
      cut.sink.written = Text.bytes "> a\nbc" ∧ later = answer ∧ same = cut ∧
      silent = (.failure none, same) := by
  refine ⟨rfl, ?_, rfl, rfl, rfl⟩
  decide

end Session

end Scriptlet

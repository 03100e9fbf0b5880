import Mathlib.Tactic.SplitIfs
import Scriptlet.Proofs.Evaluation.Relining
import Scriptlet.Session
/-!
# What programs write

The transcript of a program is what it writes where everything is taken, and the diagnostic
that ends it.  It says what the program does to any sink: a limited one holds the first
part of what was written to it, and the first text that does not fit ends the program
before anything else does.
-/

namespace Scriptlet

namespace Sink

def fit : Option Nat → List UInt8 → List UInt8
  | none, bytes => bytes
  | some limit, bytes => bytes.take limit

def overflows : Option Nat → List UInt8 → Bool
  | none, _ => false
  | some limit, bytes => limit < bytes.length

/-- Whether some bytes do not all fit behind those that have been written already. -/
def Refuses (limit : Option Nat) (whole bytes : List UInt8) : Prop :=
  bytes ≠ [] ∧ overflows limit (whole ++ bytes) = true

instance (limit : Option Nat) (whole bytes : List UInt8) : Decidable (Refuses limit whole bytes) :=
  inferInstanceAs (Decidable (_ ∧ _))

def holding (limit : Option Nat) (refusal : Refusal) (bytes : List UInt8) : Sink :=
  ⟨limit, refusal, fit limit bytes⟩

variable {limit : Option Nat} {refusal : Refusal} {whole bytes others : List UInt8}

theorem holding_nil (limit : Option Nat) (refusal : Refusal) :
    holding limit refusal [] = new limit refusal := by
  cases limit with
  | none => rfl
  | some limit => rw [holding, fit, List.take_nil, new]

/-- What does not fit leaves no room for more. -/
theorem fit_append_of_overflows (h : overflows limit whole = true) (bytes : List UInt8) :
    fit limit (whole ++ bytes) = fit limit whole := by
  cases limit with
  | none => cases h
  | some limit => exact List.take_append_of_le_length (Nat.le_of_lt (of_decide_eq_true h))

theorem overflows_append (h : overflows limit whole = true) (bytes : List UInt8) :
    overflows limit (whole ++ bytes) = true := by
  cases limit with
  | none => cases h
  | some limit =>
    have hlt : limit < whole.length := of_decide_eq_true h
    exact decide_eq_true (by rw [List.length_append]; omega)

theorem refuses_append :
    Refuses limit whole (bytes ++ others) ↔
      Refuses limit whole bytes ∨ Refuses limit (whole ++ bytes) others := by
  constructor
  · rintro ⟨hne, hoverflows⟩
    rw [← List.append_assoc] at hoverflows
    by_cases hothers : others = []
    · rw [hothers, List.append_nil] at hne hoverflows
      exact .inl ⟨hne, hoverflows⟩
    · exact .inr ⟨hothers, hoverflows⟩
  · rintro (⟨hne, hoverflows⟩ | ⟨hne, hoverflows⟩)
    · refine ⟨List.append_ne_nil_of_left_ne_nil hne others, ?_⟩
      rw [← List.append_assoc]
      exact overflows_append hoverflows others
    · refine ⟨List.append_ne_nil_of_right_ne_nil bytes hne, ?_⟩
      rwa [← List.append_assoc]

theorem refuses_nil_iff : Refuses limit [] bytes ↔ overflows limit bytes = true := by
  rw [Refuses, List.nil_append]
  refine ⟨And.right, fun hoverflows => ⟨?_, hoverflows⟩⟩
  rintro rfl
  cases limit <;> simp [overflows] at hoverflows

theorem append_fitting_holding (bytes : List UInt8) :
    (holding limit refusal whole).written ++ (holding limit refusal whole).fitting bytes =
      fit limit (whole ++ bytes) := by
  cases limit with
  | none => rfl
  | some limit =>
    have hroom : limit - (whole.take limit).length = limit - whole.length := by
      rw [List.length_take]
      omega
    change whole.take limit ++ bytes.take (limit - (whole.take limit).length) = _
    rw [hroom, fit, List.take_append]

theorem length_fitting_holding_iff :
    ((holding limit refusal whole).fitting bytes).length = bytes.length ↔
      ¬ Refuses limit whole bytes := by
  rw [Refuses]
  cases limit with
  | none => simp [holding, fitting, overflows]
  | some limit =>
    rw [← List.length_pos_iff]
    simp only [holding, fit, fitting, overflows, List.length_take, List.length_append,
      decide_eq_true_eq]
    omega

/-- Writing to a sink is refused just if there is something to write and it does not fit. -/
theorem put_holding (bytes : List UInt8) :
    put bytes (holding limit refusal whole) =
      if Refuses limit whole bytes then .error refusal (holding limit refusal (whole ++ bytes))
      else .ok () (holding limit refusal (whole ++ bytes)) := by
  have hafter : { holding limit refusal whole with
      written := (holding limit refusal whole).written ++
        (holding limit refusal whole).fitting bytes } =
      holding limit refusal (whole ++ bytes) := by
    rw [append_fitting_holding]
    rfl
  simp only [put, hafter, length_fitting_holding_iff, ite_not]
  rfl

theorem write_holding (text : String) :
    write text (holding limit refusal whole) =
      if Refuses limit whole (Text.bytes text) then
        .error refusal (holding limit refusal (whole ++ Text.bytes text))
      else .ok () (holding limit refusal (whole ++ Text.bytes text)) :=
  put_holding (Text.bytes text)

/-- Writing texts one after another, up to the first that is refused, comes to the same as
writing all of them at once. -/
theorem forM_write_holding (texts : List String) (whole : List UInt8) :
    texts.forM write (holding limit refusal whole) =
      if Refuses limit whole (texts.flatMap Text.bytes) then
        .error refusal (holding limit refusal (whole ++ texts.flatMap Text.bytes))
      else .ok () (holding limit refusal (whole ++ texts.flatMap Text.bytes)) := by
  induction texts generalizing whole with
  | nil =>
    rw [List.flatMap_nil, List.append_nil, if_neg fun h => h.1 rfl]
    rfl
  | cons text texts ih =>
    change EStateM.bind (write text) (fun _ => texts.forM write) _ = _
    rw [EStateM.bind, write_holding, List.flatMap_cons, ← List.append_assoc]
    by_cases hrefused : Refuses limit whole (Text.bytes text)
    · -- what would follow the text that is refused does not fit either
      rw [if_pos hrefused, if_pos (refuses_append.2 (.inl hrefused)), holding, holding,
        fit_append_of_overflows hrefused.2]
    · rw [if_neg hrefused]
      refine (ih _).trans ?_
      simp only [refuses_append, hrefused, false_or]

end Sink

def Refusal.diagnostic (refusal : Refusal) (file : String) : Diagnostic :=
  ⟨.outputFailed refusal.text, ⟨0, file⟩⟩

namespace Stmt

/-- What a program writes where everything is taken, and the diagnostic that ends it, if
one of its statements fails. -/
def transcript (file : String) : List Stmt → List UInt8 × Option Diagnostic
  | [] => ([], none)
  | first :: others =>
    match first.output file with
    | .error d => ([], some d)
    | .ok text =>
      let (bytes, failure) := transcript file others
      (Text.bytes text ++ bytes, failure)

def emitted (file : String) (statement : Stmt) : List UInt8 :=
  match statement.output file with
  | .error _ => []
  | .ok text => Text.bytes text

variable {file : String} {limit : Option Nat} {refusal : Refusal}

theorem interpret_cons (first : Stmt) (others : List Stmt) (sink : Sink) :
    interpret file (first :: others) sink =
      match first.execute file sink with
      | .ok () sink' => interpret file others sink'
      | .error d sink' => .error d sink' := by
  change EStateM.bind (execute file first) (fun _ => interpret file others) sink = _
  unfold EStateM.bind
  cases first.execute file sink <;> rfl

/-- What a program does to a sink to which some bytes have been written: the first text
that does not fit ends it, or else what ends its transcript. -/
theorem outcome_interpret (program : List Stmt) (whole : List UInt8) :
    Session.outcome (interpret file program) (.holding limit refusal whole) =
      (if Sink.Refuses limit whole (transcript file program).1 then some (refusal.diagnostic file)
      else (transcript file program).2,
      .holding limit refusal (whole ++ (transcript file program).1)) := by
  induction program generalizing whole with
  | nil =>
    rw [transcript, List.append_nil]
    rfl
  | cons first others ih =>
    rw [Session.outcome, interpret_cons, execute, transcript]
    cases first.output file with
    | error d =>
      rw [List.append_nil]
      rfl
    | ok text =>
      dsimp only
      rw [Sink.write_holding, ← List.append_assoc]
      by_cases hrefused : Sink.Refuses limit whole (Text.bytes text)
      · -- the text that is refused ends the program, and the others would not fit either
        rw [if_pos hrefused, if_pos (Sink.refuses_append.2 (.inl hrefused)), Sink.holding,
          Sink.holding, Sink.fit_append_of_overflows hrefused.2]
        rfl
      · rw [if_neg hrefused]
        refine (ih _).trans ?_
        simp only [Sink.refuses_append, hrefused, false_or]

theorem executeAll_sink (program : List Stmt) (sink : Sink) :
    (executeAll file program sink).2 =
      program.foldl (fun sink statement => (Session.outcome (execute file statement) sink).2)
        sink := by
  refine (List.foldl_hom Prod.snd ?_).symm
  rintro ⟨failure, sink⟩ statement
  rw [Session.outcome]
  cases hexecute : execute file statement sink <;> simp [hexecute]

theorem sink_execute_holding (statement : Stmt) (whole : List UInt8) :
    (Session.outcome (execute file statement) (.holding limit refusal whole)).2 =
      .holding limit refusal (whole ++ statement.emitted file) := by
  rw [Session.outcome, execute, emitted]
  cases statement.output file with
  | error d => rw [List.append_nil]
  | ok text =>
    dsimp only
    rw [Sink.write_holding]
    split_ifs <;> rfl

theorem executeAll_holding (program : List Stmt) (whole : List UInt8) :
    (executeAll file program (.holding limit refusal whole)).2 =
      .holding limit refusal (whole ++ program.flatMap (emitted file)) := by
  rw [executeAll_sink]
  induction program generalizing whole with
  | nil =>
    rw [List.flatMap_nil, List.append_nil]
    rfl
  | cons first others ih =>
    rw [List.foldl_cons, sink_execute_holding, ih, List.flatMap_cons, List.append_assoc]

/-- A program behind another one goes on where that succeeds. -/
theorem transcript_append (program others : List Stmt) :
    transcript file (program ++ others) =
      match (transcript file program).2 with
      | some d => ((transcript file program).1, some d)
      | none => ((transcript file program).1 ++ (transcript file others).1,
          (transcript file others).2) := by
  induction program with
  | nil => rfl
  | cons first program ih =>
    rw [List.cons_append, transcript, transcript, ih]
    cases first.output file with
    | error d => rfl
    | ok text =>
      cases (transcript file program).2 <;> simp

theorem transcript_mapLines (f : Nat → Nat) (program : List Stmt) :
    transcript file (program.map (mapLines f)) =
      ((transcript file program).1, (transcript file program).2.map (Diagnostic.mapLines f)) := by
  induction program with
  | nil => rfl
  | cons first others ih =>
    rw [List.map_cons, transcript, transcript, output_mapLines, ih]
    cases first.output file <;> rfl

theorem transcript_error {program : List Stmt} {d : Diagnostic}
    (h : (transcript file program).2 = some d) :
    ∃ statement ∈ program, statement.output file = .error d := by
  induction program with
  | nil => cases h
  | cons first others ih =>
    rw [transcript] at h
    cases houtput : first.output file with
    | error d' =>
      rw [houtput] at h
      cases h
      exact ⟨first, List.mem_cons_self, houtput⟩
    | ok text =>
      rw [houtput] at h
      obtain ⟨statement, hmem, herror⟩ := ih h
      exact ⟨statement, List.mem_cons_of_mem _ hmem, herror⟩

end Stmt

end Scriptlet

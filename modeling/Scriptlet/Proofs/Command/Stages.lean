import Scriptlet.Proofs.Command.Hosts
import Scriptlet.Proofs.Run.Culprit
import Scriptlet.Proofs.Run.Outcome
/-!
# The command line runs its source

What the command line does with a source that is delivered to it is what the run of that
source says: the output is what the run writes, and the failure of the run decides the code
and the report.  Timings and listings stand on the standard error alone.
-/

namespace Scriptlet

namespace Stmt

variable {file : String} {program : List Stmt} {d : Diagnostic}

theorem stage_of_output_error {statement : Stmt} (h : statement.output file = .error d) :
    d.fault.stage = .runtime := by
  obtain ⟨operator, _, hoperator, _⟩ := Expr.operator_of_eval_error (output_eq_error_iff.1 h)
  cases hfault : d.fault <;> rw [hfault] at hoperator <;> first | rfl | cases hoperator

/-- A program that fails has written what the statements before the failing one emit. -/
theorem exists_split_of_transcript (h : (transcript file program).2 = some d) :
    ∃ completed failing beyond, program = completed ++ failing :: beyond ∧
      (∀ statement ∈ completed, ∃ text, statement.output file = .ok text) ∧
      failing.output file = .error d ∧
      (transcript file program).1 = completed.flatMap (emitted file) := by
  induction program with
  | nil => cases h
  | cons first others ih =>
    rw [transcript] at h
    cases houtput : first.output file with
    | error d' =>
      rw [houtput] at h
      cases h
      refine ⟨[], first, others, rfl, by simp, houtput, ?_⟩
      rw [transcript, houtput]
      rfl
    | ok text =>
      rw [houtput] at h
      obtain ⟨completed, failing, beyond, rfl, hcompleted, hfailing, hbytes⟩ := ih h
      refine ⟨first :: completed, failing, beyond, rfl, ?_, hfailing, ?_⟩
      · exact List.forall_mem_cons.2 ⟨⟨text, houtput⟩, hcompleted⟩
      · rw [transcript, houtput, List.flatMap_cons, emitted, houtput, ← hbytes]

end Stmt

namespace Source

variable {source : Source} {program : List Stmt} {d : Diagnostic}

theorem located_of_program (h : source.program = .error d) : d.Located source := by
  cases htokens : source.tokens with
  | ok tokens =>
    rw [program_of_tokens htokens] at h
    exact located_of_ofTokens htokens h
  | error d' =>
    rw [program_of_error htokens] at h
    cases h
    exact located_of_tokens htokens

theorem stage_of_program_error (h : source.program = .error d) : d.fault.stage ≠ .runtime := by
  have hoperator := operator?_of_program_error h
  have hfault := (located_of_program h).fault
  intro hstage
  cases hd : d.fault <;> rw [hd] at hoperator hstage <;> try cases hstage
  case outputFailed reason => exact hfault reason hd
  all_goals cases hoperator

theorem written_of_unread {sink : Sink}
    (h : Session.outcome source.run Sink.unlimited = (some d, sink))
    (hstage : d.fault.stage ≠ .runtime) : sink.written = [] := by
  cases hprogram : source.program with
  | error d' =>
    rw [outcome_run_of_error hprogram] at h
    cases h
    rfl
  | ok program =>
    rw [outcome_run hprogram] at h
    obtain ⟨statement, _, hfailing⟩ := Stmt.transcript_error (congrArg Prod.fst h)
    exact absurd (Stmt.stage_of_output_error hfailing) hstage

/-- A program that fails as it runs writes what its statements before the failing one emit. -/
theorem written_of_failing {sink : Sink}
    (h : Session.outcome source.run Sink.unlimited = (some d, sink))
    (hstage : d.fault.stage = .runtime) :
    ∃ program completed failing beyond,
      source.program = .ok program ∧ program = completed ++ failing :: beyond ∧
      (∀ statement ∈ completed, ∃ text, statement.output source.file = .ok text) ∧
      failing.output source.file = .error d ∧
      sink.written = completed.flatMap (Stmt.emitted source.file) := by
  cases hprogram : source.program with
  | error d' =>
    rw [outcome_run_of_error hprogram] at h
    cases h
    exact absurd hstage (stage_of_program_error hprogram)
  | ok program =>
    rw [outcome_run hprogram] at h
    obtain ⟨completed, failing, beyond, hsplit, hcompleted, hfailing, hbytes⟩ :=
      Stmt.exists_split_of_transcript (congrArg Prod.fst h)
    refine ⟨program, completed, failing, beyond, rfl, hsplit, hcompleted, hfailing, ?_⟩
    have hsink : _ = sink := congrArg Prod.snd h
    rw [← hsink]
    exact hbytes

end Source

namespace Command

structure Spans where
  tokenizing : Nat
  parsing : Nat
  interpreting : Nat
  total : Nat

/-- What the standard error tells of the stages that a run completes. -/
def progress (settings : Settings) (source : Source) (spans : Spans) : List String :=
  let finished := (Session.outcome source.run Sink.unlimited).1.isNone
  timed settings source.tokens.isOk "Tokenized in " spans.tokenizing ++
    (if settings.listing then (source.tokens.toOption.getD []).map Token.listing else []) ++
    timed settings source.program.isOk "Parsed in " spans.parsing ++
    timed settings finished "Interpreted in " spans.interpreting ++
    timed settings finished "Total time: " spans.total

section

variable {source : Source} {tokens : List Token} {program : List Stmt} {d : Diagnostic}

theorem progress_of_tokens_error (settings : Settings) (spans : Spans)
    (h : source.tokens = .error d) : progress settings source spans = [] := by
  have hprogram := Source.program_of_error h
  rw [progress, h, hprogram, Source.outcome_run_of_error hprogram]
  simp [timed_false, Except.isOk, Except.toBool, Except.toOption]

theorem progress_of_program_error (settings : Settings) (spans : Spans)
    (htokens : source.tokens = .ok tokens) (h : source.program = .error d) :
    progress settings source spans =
      timed settings true "Tokenized in " spans.tokenizing ++
        (if settings.listing then tokens.map Token.listing else []) := by
  rw [progress, htokens, h, Source.outcome_run_of_error h]
  simp [timed_false, Except.isOk, Except.toBool, Except.toOption]

theorem progress_of_program (settings : Settings) (spans : Spans)
    (htokens : source.tokens = .ok tokens) (h : source.program = .ok program) :
    progress settings source spans =
      timed settings true "Tokenized in " spans.tokenizing ++
        (if settings.listing then tokens.map Token.listing else []) ++
        timed settings true "Parsed in " spans.parsing ++
        timed settings (Stmt.transcript source.file program).2.isNone "Interpreted in "
          spans.interpreting ++
        timed settings (Stmt.transcript source.file program).2.isNone "Total time: "
          spans.total := by
  rw [progress, htokens, h, Source.outcome_run h]
  rfl

theorem progress_of_untimed {settings : Settings} (spans : Spans)
    (h : settings.timings = false) :
    progress settings source spans =
      if settings.listing then (source.tokens.toOption.getD []).map Token.listing else [] := by
  simp [progress, timed, h]

end

/-- The ending is the one of a run of the source, and the scene after it holds what the run
writes and what is told of it. -/
def Ends (scene : Scene) (settings : Settings) (source : Source) (ending : Ending)
    (scene' : Scene) : Prop :=
  let (failure, sink) := Session.outcome source.run Sink.unlimited
  ending = failure.elim .success (fun d => .failure d.fault.stage) ∧
  ∃ spans, scene' = (scene.telling (progress settings source spans ++
    failure.elim [] (Diagnostic.report · source))).writing sink.written

def Scene.settings (scene : Scene) : Settings :=
  ⟨((scene.environment "LOX_TIMINGS").map isOn).getD false,
    ((scene.environment "LOX_DUMP_TOKENS").map isOn).getD false⟩

variable {σ : Type} {view : σ → Scene} {scene : Scene} {source : Source}

namespace Shows

variable {host : Host (StateM σ)}

theorem ensures_execute (h : Shows host view) (file : String) (statement : Stmt) :
    Ensures view scene (execute host file statement).run fun result scene' =>
      result = (statement.output file).map (fun _ => ()) ∧
      scene' = scene.writing (statement.emitted file) := by
  refine .bind_settled ?_ ?_
  · intro text houtput
    refine (h.write scene text).bind_lift ?_
    rintro _ _ ⟨rfl, rfl⟩
    refine .of_pure ⟨?_, ?_⟩
    · rw [houtput]
      rfl
    · rw [Stmt.emitted, houtput]
  · intro d houtput
    rw [houtput, Stmt.emitted, houtput, Scene.writing_nil]
    exact ⟨rfl, rfl⟩

/-- The statements of a program write its transcript. -/
theorem ensures_executions (h : Shows host view) (file : String) (program : List Stmt) :
    Ensures view scene (program.forM (execute host file)).run fun result scene' =>
      result = (Stmt.transcript file program).2.elim (.ok ()) .error ∧
      scene' = scene.writing (Stmt.transcript file program).1 := by
  induction program generalizing scene with
  | nil => exact .of_pure ⟨rfl, scene.writing_nil.symm⟩
  | cons first others ih =>
    rw [List.forM_eq_forM, List.forM_cons, Stmt.transcript]
    have hfirst : Ensures view scene (execute host file first).run _ :=
      h.ensures_execute file first
    rw [Stmt.emitted] at hfirst
    cases houtput : first.output file with
    | error d =>
      rw [houtput] at hfirst
      refine hfirst.bind_except ?_ ?_
      · rintro _ _ ⟨hok, _⟩
        cases hok
      · rintro _ _ ⟨herror, rfl⟩
        exact ⟨herror, rfl⟩
    | ok text =>
      rw [houtput] at hfirst
      refine hfirst.bind_except ?_ ?_
      · rintro _ _ ⟨_, rfl⟩
        refine ih.mono ?_
        rintro _ _ ⟨rfl, rfl⟩
        exact ⟨rfl, (scene.writing_append _ _).symm⟩
      · rintro _ _ ⟨herror, _⟩
        cases herror

/-- Interpreting a program comes to what its transcript says, and tells of it only if that
has no end before the program has. -/
theorem ensures_interpreting (h : Shows host view) (settings : Settings) (file : String)
    (program : List Stmt) (start executed : Nat) :
    Ensures view scene
      (do
        program.forM (execute host file)
        ExceptT.lift (timing host settings "Interpreted in " executed)
        ExceptT.lift (timing host settings "Total time: " start) :
        ExceptT Diagnostic (StateM σ) Unit).run
      fun result scene' => ∃ interpreting total,
        result = (Stmt.transcript file program).2.elim (.ok ()) .error ∧
        scene' = ((scene.writing (Stmt.transcript file program).1).telling
          (timed settings (Stmt.transcript file program).2.isNone "Interpreted in "
            interpreting)).telling
          (timed settings (Stmt.transcript file program).2.isNone "Total time: " total) := by
  refine (h.ensures_executions file program).bind_except ?_ ?_
  · rintro _ _ ⟨hok, rfl⟩
    cases hfailure : (Stmt.transcript file program).2 with
    | some d =>
      rw [hfailure] at hok
      cases hok
    | none =>
      refine (h.ensures_timing settings "Interpreted in " executed).bind_lift ?_
      rintro _ _ ⟨interpreting, rfl⟩
      refine (h.ensures_timing settings "Total time: " start).lift ?_
      rintro _ _ ⟨total, rfl⟩
      exact ⟨interpreting, total, rfl, rfl⟩
  · rintro d _ ⟨herror, rfl⟩
    cases hfailure : (Stmt.transcript file program).2 with
    | some d' =>
      rw [hfailure] at herror
      refine ⟨0, 0, herror, ?_⟩
      rw [Option.isNone_some, timed_false, timed_false]
      rfl
    | none =>
      rw [hfailure] at herror
      cases herror

/-- The stages tell of what they complete, and come to what the run of the source does. -/
theorem ensures_stages (h : Shows host view) (settings : Settings) (source : Source) :
    Ensures view scene (stages host settings source).run fun result scene' =>
      ∃ spans, result = (Session.outcome source.run Sink.unlimited).1.elim (.ok ()) .error ∧
        scene' = (scene.telling (progress settings source spans)).writing
          (Session.outcome source.run Sink.unlimited).2.written := by
  unfold stages
  refine (h.clock scene).bind_lift ?_
  rintro start scene rfl
  refine .bind_settled ?_ ?_
  · intro tokens htokens
    refine (h.ensures_timing settings "Tokenized in " start).bind_lift ?_
    rintro _ _ ⟨tokenizing, rfl⟩
    refine .bind_if ((scene.telling (timed settings true "Tokenized in " tokenizing)).telling
        (if settings.listing then tokens.map Token.listing else [])) ?_ ?_ ?_
    · intro hlisting
      rw [if_pos hlisting]
      exact h.ensures_notices Token.listing tokens
    · intro hlisting
      rw [hlisting]
      rfl
    · refine (h.clock _).bind_lift ?_
      rintro read _ rfl
      rw [← Scene.telling_append, ← Source.program_of_tokens htokens]
      refine .bind_settled ?_ ?_
      · intro program hprogram
        refine (h.ensures_timing settings "Parsed in " read).bind_lift ?_
        rintro _ _ ⟨parsing, rfl⟩
        refine (h.clock _).bind_lift ?_
        rintro executed _ rfl
        refine (h.ensures_interpreting settings source.file program start executed).mono ?_
        rintro result _ ⟨interpreting, total, rfl, rfl⟩
        refine ⟨⟨tokenizing, parsing, interpreting, total⟩, ?_, ?_⟩
        · rw [Source.outcome_run hprogram]
        · rw [Source.outcome_run hprogram, progress_of_program settings _ htokens hprogram]
          simp only [Scene.telling_append]
          rfl
      · intro d hprogram
        refine ⟨⟨tokenizing, 0, 0, 0⟩, ?_, ?_⟩
        · rw [Source.outcome_run_of_error hprogram]
          rfl
        · rw [Source.outcome_run_of_error hprogram,
            progress_of_program_error settings _ htokens hprogram]
          exact (Scene.writing_nil _).symm
  · intro d htokens
    refine ⟨⟨0, 0, 0, 0⟩, ?_, ?_⟩
    · rw [Source.outcome_run_of_error (Source.program_of_error htokens)]
      rfl
    · rw [Source.outcome_run_of_error (Source.program_of_error htokens),
        progress_of_tokens_error settings _ htokens]
      exact (Scene.writing_nil _).symm

theorem ensures_run (h : Shows host view) (settings : Settings) (source : Source) :
    Ensures view scene (run host settings source) (Ends scene settings source) := by
  refine (h.ensures_stages settings source).bind ?_
  rintro result _ ⟨spans, rfl, rfl⟩
  unfold Ends
  rcases Session.outcome source.run Sink.unlimited with ⟨_ | d, sink⟩
  · refine .of_pure ⟨rfl, spans, ?_⟩
    rw [Option.elim_none, List.append_nil]
  · refine (h.ensures_notices id (d.report source)).bind ?_
    rintro _ _ rfl
    refine .of_pure ⟨rfl, spans, ?_⟩
    rw [Option.elim_some, List.map_id, Scene.telling_append]
    rfl

theorem ensures_flag (h : Shows host view) (name : String) :
    Ensures view scene (flag host name) fun asked scene' =>
      asked = ((scene.environment name).map isOn).getD false ∧ scene' = scene := by
  refine (h.environment scene name).bind ?_
  rintro _ _ ⟨rfl, rfl⟩
  exact .of_pure ⟨rfl, rfl⟩

theorem ensures_settings (h : Shows host view) :
    Ensures view scene (settings host) fun settings scene' =>
      settings = scene.settings ∧ scene' = scene := by
  refine (h.ensures_flag "LOX_TIMINGS").bind ?_
  rintro timings scene ⟨rfl, rfl⟩
  refine (h.ensures_flag "LOX_DUMP_TOKENS").bind ?_
  rintro listing scene ⟨rfl, rfl⟩
  exact .of_pure ⟨rfl, rfl⟩

end Shows

/-! ## The command line -/

/-- Whether a variable of the environment has a value that switches a setting on, in any
letter case. -/
def Scene.Asks (scene : Scene) (name : String) : Prop :=
  ∃ value, scene.environment name = some value ∧
    ∃ word ∈ ["1", "true", "yes"], value.toList.map Char.toLower = word.toList

theorem isOn_iff {value : String} :
    isOn value = true ↔
      ∃ word ∈ ["1", "true", "yes"], value.toList.map Char.toLower = word.toList := by
  have hlower : value.toLower.toList = value.toList.map Char.toLower :=
    String.toList_map
  rw [isOn, decide_eq_true_iff]
  constructor
  · intro hmem
    exact ⟨value.toLower, hmem, hlower.symm⟩
  · rintro ⟨word, hmem, hword⟩
    rwa [String.toList_inj.1 (hlower.trans hword)]

theorem Scene.asks_iff {name : String} :
    ((scene.environment name).map isOn).getD false = true ↔ scene.Asks name := by
  rw [Asks]
  cases scene.environment name with
  | none => simp
  | some value => simp [isOn_iff]

/-- The source that the arguments name is delivered in a state: the read that they ask for,
of the standard input or of one file, yields its text and changes nothing of the scene. -/
inductive Delivers (host : Host (StateM σ)) (view : σ → Scene) (s : σ) :
    List String → Source → Prop where
  | input {text : String} {s' : σ} (hread : host.readInput.run s = (.ok text, s'))
      (hview : view s' = view s) : Delivers host view s [] ⟨text, "stdin"⟩
  | file {path text : String} {s' : σ} (hread : (host.readFile path).run s = (.ok text, s'))
      (hview : view s' = view s) : Delivers host view s [path] ⟨text, path⟩

theorem World.decode_bytes (text : String) : decode (Text.bytes text) = .ok text := by
  rw [decode, Text.ofBytes?_bytes]

theorem World.delivers_input {world : World} {text : String}
    (h : world.input = Text.bytes text) :
    Delivers World.host World.toScene world [] ⟨text, "stdin"⟩ := by
  have hread : World.host.readInput.run world = (.ok text, { world with input := [] }) := by
    rw [← decode_bytes text, ← h]
    rfl
  exact .input hread rfl

theorem World.delivers_file {world : World} {path text : String}
    (h : world.files path = .ok (Text.bytes text)) :
    Delivers World.host World.toScene world [path] ⟨text, path⟩ := by
  have hread : (World.host.readFile path).run world = (.ok text, world) := by
    change (world.files path >>= decode, world) = _
    rw [h, ← decode_bytes text]
    rfl
  exact .file hread rfl

theorem Shows.ends_main {host : Host (StateM σ)} (h : Shows host view) {s : σ}
    {arguments : List String}
    (hdelivers : Delivers host view ((settings host).run s).2 arguments source) :
    Ends (view s) (view s).settings source ((main host arguments).run s).1
      (view ((main host arguments).run s).2) := by
  obtain ⟨hsettings, hview⟩ := h.ensures_settings s rfl
  have hrun : ∀ s', view s' = view s → Ends (view s) (view s).settings source
      ((run host (view s).settings source).run s').1
      (view ((run host (view s).settings source).run s').2) :=
    h.ensures_run (view s).settings source
  cases hdelivers with
  | @input text s' hread hview' =>
    have hmain : (main host []).run s =
        (run host (view s).settings ⟨text, "stdin"⟩).run s' :=
      (run_bind_of_run hread _).trans (by rw [hsettings])
    rw [hmain]
    exact hrun s' (hview'.trans hview)
  | @file path text s' hread hview' =>
    have hmain : (main host [path]).run s =
        (run host (view s).settings ⟨text, path⟩).run s' :=
      (run_bind_of_run hread _).trans (by rw [hsettings])
    rw [hmain]
    exact hrun s' (hview'.trans hview)

/-- **The command line runs its source.**  The output is what the run of the source writes
where everything is taken.  The code is 0 for a run that succeeds, 65 for one that cannot
be read, of which nothing is written, and 70 for one that fails as it runs, of which what
the statements before the failing one emit is written.  The standard error tells of the
stages that were completed, as far as the environment asks for it, and then reports the
failure. -/
theorem main_runs_source {host : Host (StateM σ)} (hshows : Shows host view) {s s' : σ}
    {arguments : List String} {ending : Ending} {failure : Option Diagnostic} {sink : Sink}
    (hdelivers : Delivers host view ((settings host).run s).2 arguments source)
    (hmain : (main host arguments).run s = (ending, s'))
    (houtcome : Session.outcome source.run Sink.unlimited = (failure, sink)) :
    (view s').output = (view s).output ++ sink.written ∧
    (failure = none → ending.code = 0) ∧
    (∀ d, failure = some d → d.fault.stage = .lex ∨ d.fault.stage = .parse →
      ending.code = 65 ∧ sink.written = []) ∧
    (∀ d, failure = some d → d.fault.stage = .runtime →
      ending.code = 70 ∧ ∃ program completed failing beyond,
        source.program = .ok program ∧ program = completed ++ failing :: beyond ∧
        (∀ statement ∈ completed, ∃ text, statement.output source.file = .ok text) ∧
        failing.output source.file = .error d ∧
        sink.written = completed.flatMap (Stmt.emitted source.file)) ∧
    ∃ settings spans, (settings.timings = true ↔ (view s).Asks "LOX_TIMINGS") ∧
      (settings.listing = true ↔ (view s).Asks "LOX_DUMP_TOKENS") ∧
      Text.bytes (view s').notices = Text.bytes (view s).notices ++
        (progress settings source spans).flatMap (fun line => Text.bytes (line ++ "\n")) ++
        failure.elim [] (fun d =>
          (Session.outcome (d.writeReport source) Sink.unlimited).2.written) := by
  have hends : Ends (view s) (view s).settings source ending (view s') := by
    have hends := hshows.ends_main hdelivers
    rwa [hmain] at hends
  rw [Ends, houtcome] at hends
  obtain ⟨hending, spans, hscene⟩ := hends
  refine ⟨?_, ?_, ?_, ?_, (view s).settings, spans, Scene.asks_iff, Scene.asks_iff, ?_⟩
  · rw [hscene]
    rfl
  · rintro rfl
    rw [hending]
    rfl
  · rintro d rfl hstage
    refine ⟨?_, Source.written_of_unread houtcome ?_⟩
    · rw [hending, Option.elim_some]
      rcases hstage with hstage | hstage <;> rw [hstage] <;> rfl
    · rcases hstage with hstage | hstage <;> rw [hstage] <;> decide
  · rintro d rfl hstage
    refine ⟨?_, Source.written_of_failing houtcome hstage⟩
    rw [hending, Option.elim_some, hstage]
    rfl
  · have hnotices : (view s').notices = _ := congrArg Scene.notices hscene
    rw [hnotices]
    refine (Scene.bytes_notices_telling _ _).trans ?_
    rw [List.flatMap_append, ← List.append_assoc]
    cases failure with
    | none => rfl
    | some d =>
      rw [Option.elim_some, Option.elim_some, Session.outcome, d.writeReport_unlimited source]

theorem main_runs_source_negating :
    let source : Source := ⟨"print nil;\n-nil;", "/srv/nil.lox"⟩
    let world := World.new [] [(source.file, .file (Text.bytes source.text))]
      [("LOX_DUMP_TOKENS", "Yes")]
    let finished := world.run [source.file]
    let piped := (World.new (Text.bytes source.text) [] []).run []
    Shows World.host World.toScene ∧
    Delivers World.host World.toScene ((settings World.host).run world).2 [source.file] source ∧
    Session.outcome source.run Sink.unlimited =
      (some ⟨.operandMustBeNumber ⟨.dash, "-", none, 2⟩ "nil", ⟨2, source.file⟩⟩,
        ⟨none, .closed, Text.bytes "nil\n"⟩) ∧
    finished.1.code = 70 ∧ finished.2.output = Text.bytes "nil\n" ∧
    (Text.bytes finished.2.notices =
      ["[1] Print ()", "[1] Nil ()", "[1] Semicolon ()", "[2] Dash ()", "[2] Nil ()",
        "[2] Semicolon ()", "[2] EOF ()",
        "Error: RuntimeError: OperandMustBeNumber (operand must be a number; " ++
          "Operator `-` cannot be applied to `nil`)",
        "-> /srv/nil.lox", "  |", "2 | -nil;", "  |"].flatMap
        fun line => Text.bytes (line ++ "\n")) ∧
    piped.1.code = 70 ∧ piped.2.output = Text.bytes "nil\n" := by
  intro source world finished piped
  have hdelivers : Delivers World.host World.toScene ((settings World.host).run world).2
      [source.file] source :=
    World.delivers_file rfl
  have houtcome : Session.outcome source.run Sink.unlimited =
      (some ⟨.operandMustBeNumber ⟨.dash, "-", none, 2⟩ "nil", ⟨2, source.file⟩⟩,
        ⟨none, .closed, Text.bytes "nil\n"⟩) := by
    decide +kernel
  obtain ⟨houtput, _, _, hruntime, settings, spans, htimings, hlisting, hnotices⟩ :=
    main_runs_source World.shows_host hdelivers (Prod.eta finished).symm houtcome
  have hsettings : settings = ⟨false, true⟩ := by
    have hlower : "Yes".toList.map Char.toLower = "yes".toList := by decide
    have hdumped : settings.listing = true := hlisting.2 ⟨"Yes", rfl, "yes", by simp, hlower⟩
    have huntimed : settings.timings = false := by
      rw [Bool.eq_false_iff]
      intro hasked
      obtain ⟨_, hvalue, _⟩ := htimings.1 hasked
      cases hvalue
    cases settings
    cases hdumped
    cases huntimed
    rfl
  have hpiped : Session.outcome (Source.run ⟨source.text, "stdin"⟩) Sink.unlimited =
      (some ⟨.operandMustBeNumber ⟨.dash, "-", none, 2⟩ "nil", ⟨2, "stdin"⟩⟩,
        ⟨none, .closed, Text.bytes "nil\n"⟩) := by
    decide +kernel
  obtain ⟨houtput', _, _, hruntime', _⟩ :=
    main_runs_source World.shows_host (World.delivers_input rfl) (Prod.eta piped).symm hpiped
  refine ⟨World.shows_host, hdelivers, houtcome, (hruntime _ rfl rfl).1, houtput, ?_,
    (hruntime' _ rfl rfl).1, houtput'⟩
  have hprogress : progress ⟨false, true⟩ source spans =
      ["[1] Print ()", "[1] Nil ()", "[1] Semicolon ()", "[2] Dash ()", "[2] Nil ()",
        "[2] Semicolon ()", "[2] EOF ()"] := by
    rw [progress_of_untimed spans rfl]
    decide +kernel
  have hreport : Diagnostic.report
      ⟨.operandMustBeNumber ⟨.dash, "-", none, 2⟩ "nil", ⟨2, source.file⟩⟩ source =
      ["Error: RuntimeError: OperandMustBeNumber (operand must be a number; " ++
          "Operator `-` cannot be applied to `nil`)",
        "-> /srv/nil.lox", "  |", "2 | -nil;", "  |"] := by
    decide
  rw [hnotices, hsettings, hprogress, Option.elim_some, Session.outcome,
    Diagnostic.writeReport_unlimited, hreport]
  exact (List.flatMap_append ..).symm

end Command

end Scriptlet

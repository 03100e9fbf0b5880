import Scriptlet.Proofs.Session.Transcript
import Scriptlet.Proofs.Text.JoinedLines
import Scriptlet.Run
/-!
# Reports are whole or cut off

A report has a heading and the name of a file, and it shows the line to blame whenever the
source has that line.  A sink that takes everything gets all of it; a full sink cuts it off,
however the text of the report is split into the pieces that are written.
-/

namespace Scriptlet

/-! ## Blanks at the ends of a line -/

/-- The second text is what the first one holds between the blanks at its ends. -/
structure Text.Trims (cs ds : List Char) : Prop where
  split : ∃ front back, cs = front ++ ds ++ back ∧ ∀ c ∈ front ++ back, isBlank c = true
  head : ∀ c ∈ ds.head?, isBlank c = false
  last : ∀ c ∈ ds.getLast?, isBlank c = false

theorem Text.trims_trim (cs : List Char) : Trims cs (trim cs) := by
  have hback : trim cs ++ (cs.dropWhile isBlank).rtakeWhile isBlank = cs.dropWhile isBlank :=
    List.rdropWhile_append_rtakeWhile
  refine ⟨⟨cs.takeWhile isBlank, (cs.dropWhile isBlank).rtakeWhile isBlank, ?_, ?_⟩, ?_, ?_⟩
  · rw [List.append_assoc, hback, List.takeWhile_append_dropWhile]
  · intro c hc
    rcases List.mem_append.1 hc with hc | hc
    · exact List.mem_takeWhile_imp hc
    · exact List.mem_rtakeWhile_imp hc
  · intro c hc
    have hhead := List.head?_dropWhile_not isBlank cs
    rw [← hback, List.head?_append_of_ne_nil _ (by rintro hnil; rw [hnil] at hc; cases hc),
      Option.mem_def.1 hc] at hhead
    exact hhead
  · exact getLast?_dropTrailing isBlank _

/-! ## Rows behind a gutter -/

def BarAt (column : Nat) (row : String) : Prop :=
  ∃ front back, row.toList = front ++ '|' :: back ∧ '|' ∉ front ∧ front.length = column

def emptyRow (column : Nat) : String := String.ofList (List.replicate column ' ' ++ ['|'])

/-- A numbered line, trimmed, between two rows that are empty but for their bars; these stand
above and below the first bar of the middle row. -/
def Framed (number : Nat) (line : String) (rows : List String) : Prop :=
  ∃ column shown, Text.Trims line.toList shown ∧
    rows = [emptyRow column, toString number ++ " | " ++ String.ofList shown, emptyRow column] ∧
    ∀ row ∈ rows, BarAt column row

theorem bar_not_mem_toString (number : Nat) : '|' ∉ (toString number).toList := by
  intro hmem
  have hdigit : '|'.isDigit = true :=
    Nat.isDigit_of_mem_toDigits (by decide) (by decide) (Nat.toList_repr ▸ hmem)
  exact absurd hdigit (by decide)

theorem barAt_emptyRow (column : Nat) : BarAt column (emptyRow column) := by
  refine ⟨List.replicate column ' ', [], String.toList_ofList, ?_, List.length_replicate⟩
  intro hmem
  cases List.eq_of_mem_replicate hmem

theorem barAt_numbered (number : Nat) (shown : List Char) :
    BarAt ((toString number).length + 1) (toString number ++ " | " ++ String.ofList shown) := by
  refine ⟨(toString number).toList ++ [' '], ' ' :: shown, by simp, ?_, ?_⟩
  · rw [List.mem_append, not_or]
    exact ⟨bar_not_mem_toString number, by decide⟩
  · rw [List.length_append, String.length_toList, List.length_singleton]

namespace Diagnostic

theorem framed_excerpt (number : Nat) (line : String) :
    Framed number line (excerpt number line) := by
  have hempty : BarAt ((toString number).length + 1) (gutter number) := barAt_emptyRow _
  refine ⟨(toString number).length + 1, _, Text.trims_trim line.toList, rfl, ?_⟩
  exact List.forall_mem_cons.2 ⟨hempty,
    List.forall_mem_cons.2 ⟨barAt_numbered number _, List.forall_mem_singleton.2 hempty⟩⟩

/-! ## The text of a report -/

/-- What a report consists of: a line with the stage, the name and the message of the fault,
and the tip if there is one, a line with the file, and the line to blame between empty ones if
the source has it. -/
def Reports (d : Diagnostic) (source : Source) (text : String) : Prop :=
  ∃ rows : List String,
    text = String.join
      ((("Error: " ++ d.fault.stage.name ++ ": " ++ d.fault.name ++ " (" ++
          "; ".intercalate (d.fault.message :: d.fault.tip?.toList) ++ ")") ::
        ("-> " ++ d.position.file) :: rows).map (· ++ "\n")) ∧
    if 1 ≤ d.position.line ∧ d.position.line ≤ 1 + Text.newlines source.text.toList then
      ∃ line, source.line? d.position.line = some line ∧ Framed d.position.line line rows
    else rows = []

def reportText (d : Diagnostic) (source : Source) : String :=
  String.join ((d.report source).map (· ++ "\n"))

variable {d : Diagnostic} {source : Source}

theorem report_eq {line : String} (h : source.line? d.position.line = some line) :
    d.report source =
      [d.heading, "-> " ++ d.position.file] ++ excerpt d.position.line line := by
  rw [report, h]

theorem heading_eq (d : Diagnostic) :
    d.heading = "Error: " ++ d.fault.stage.name ++ ": " ++ d.fault.name ++ " (" ++
      "; ".intercalate (d.fault.message :: d.fault.tip?.toList) ++ ")" := by
  rw [heading]
  cases d.fault.tip? <;> simp

theorem reports_reportText (d : Diagnostic) (source : Source) :
    d.Reports source (d.reportText source) := by
  have hexists := source.isSome_line?_iff d.position.line
  cases hline : source.line? d.position.line with
  | none =>
    have hnot :
        ¬ (1 ≤ d.position.line ∧ d.position.line ≤ 1 + Text.newlines source.text.toList) := by
      intro h
      rw [hline] at hexists
      cases hexists.2 h
    refine ⟨[], ?_, by rw [if_neg hnot]⟩
    rw [reportText, report, hline, heading_eq]
    rfl
  | some line =>
    refine ⟨excerpt d.position.line line, ?_, ?_⟩
    · rw [reportText, report_eq hline, heading_eq]
      rfl
    · rw [if_pos (hexists.1 (by rw [hline]; rfl))]
      exact ⟨line, hline, framed_excerpt d.position.line line⟩

/-! ## Writing a report -/

theorem bytes_join (texts : List String) :
    Text.bytes (String.join texts) = texts.flatMap Text.bytes := by
  rw [Text.bytes, String.toList_join, List.flatMap_assoc]
  rfl

theorem writeReport_eq (d : Diagnostic) (source : Source) :
    d.writeReport source = ((d.report source).map (· ++ "\n")).forM Sink.write := by
  rw [writeReport]
  simp only [List.forM_eq_forM, List.forM_map]

/-- A sink without a limit takes every line of a report. -/
theorem writeReport_unlimited (d : Diagnostic) (source : Source) :
    d.writeReport source Sink.unlimited =
      .ok () ⟨none, .closed,
        (d.report source).flatMap fun line => Text.bytes (line ++ "\n")⟩ := by
  rw [writeReport_eq, Sink.unlimited, ← Sink.holding_nil, Sink.forM_write_holding, if_neg nofun,
    List.flatMap_map]
  rfl

theorem outcome_forM_write_new (pieces : List String) (limit : Option Nat) (refusal : Refusal) :
    Session.outcome (pieces.forM Sink.write) (Sink.new limit refusal) =
      (if Sink.overflows limit (Text.bytes (String.join pieces)) then some refusal else none,
        .holding limit refusal (Text.bytes (String.join pieces))) := by
  rw [Session.outcome, ← Sink.holding_nil, Sink.forM_write_holding, ← bytes_join, List.nil_append]
  by_cases hrefused : Sink.Refuses limit [] (Text.bytes (String.join pieces))
  · rw [if_pos hrefused, if_pos (Sink.refuses_nil_iff.1 hrefused)]
  · rw [if_neg hrefused, if_neg (mt Sink.refuses_nil_iff.2 hrefused)]

/-- **A full sink only cuts a report off.**  A report has a heading, the name of its file and,
just when the source has the line to blame, that line in a frame.  A sink that takes everything
gets the whole text, and a limited one the first part of it; writing fails just when the text
is longer than the limit, with the refusal of the sink.  All this does not depend on the pieces
in which the text is written. -/
theorem full_sink_cuts_report (d : Diagnostic) (source : Source) (limit : Nat)
    (refusal : Refusal) :
    let text := d.reportText source
    d.Reports source text ∧
    Session.outcome (d.writeReport source) Sink.unlimited =
      (none, ⟨none, .closed, Text.bytes text⟩) ∧
    Session.outcome (d.writeReport source) (Sink.new (some limit) refusal) =
      (if limit < (Text.bytes text).length then some refusal else none,
        ⟨some limit, refusal, (Text.bytes text).take limit⟩) ∧
    ∀ pieces : List String, String.join pieces = text →
      Session.outcome (pieces.forM Sink.write) (Sink.new (some limit) refusal) =
        Session.outcome (d.writeReport source) (Sink.new (some limit) refusal) := by
  intro text
  have hlimited := outcome_forM_write_new ((d.report source).map (· ++ "\n")) (some limit) refusal
  refine ⟨d.reports_reportText source, ?_, ?_, ?_⟩
  · rw [writeReport_eq, Sink.unlimited, outcome_forM_write_new]
    rfl
  · rw [writeReport_eq, hlimited]
    simp only [Sink.overflows, decide_eq_true_eq]
    rfl
  · intro pieces hpieces
    rw [writeReport_eq, hlimited, outcome_forM_write_new, hpieces]
    rfl

theorem full_sink_cuts_report_within_character :
    let d : Diagnostic := ⟨.outputFailed "closed", ⟨0, "é"⟩⟩
    let pieces := ["Error", ": RuntimeError: OutputFailed", "",
      " (failed to write output: closed)\n", "-> ", "é", "\n"]
    String.join pieces = d.reportText ⟨"", "é"⟩ ∧
    Session.outcome (pieces.forM Sink.write) (Sink.new (some 71) .nothingTaken) =
      (some .nothingTaken, ⟨some 71, .nothingTaken,
        Text.bytes "Error: RuntimeError: OutputFailed (failed to write output: closed)\n-> " ++
          [0xC3]⟩) := by
  intro d pieces
  have hpieces : String.join pieces = d.reportText ⟨"", "é"⟩ := by decide
  obtain ⟨_, _, hcut, hany⟩ := full_sink_cuts_report d ⟨"", "é"⟩ 71 .nothingTaken
  refine ⟨hpieces, ?_⟩
  rw [hany pieces hpieces, hcut]
  decide

end Diagnostic

end Scriptlet

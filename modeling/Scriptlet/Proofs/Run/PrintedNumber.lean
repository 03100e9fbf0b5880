import Scriptlet.Proofs.Number.Sign
import Scriptlet.Proofs.Run.Echo
/-!
# Printed numbers as programs

The text of a finite number is a numeral, with a dash in front for the sign.  Read as a
program it is an expression whose value is that number, bit for bit, so it prints itself.
A line that a program prints for a number is such a text, and prints itself again.
-/

namespace Scriptlet

namespace Number

theorem Decimal.numeral_text (d : Decimal) : Rule.Numeral d.text := by
  obtain ⟨whole, fraction, hwritten⟩ := d.exists_written
  rw [hwritten.text]
  split_ifs with hplaces
  · exact .whole hwritten.whole_ne_nil hwritten.isDigit_whole
  · refine .fraction hwritten.whole_ne_nil hwritten.isDigit_whole ?_ hwritten.isDigit_fraction
    rwa [← List.length_pos_iff, hwritten.length_fraction, Nat.pos_iff_ne_zero]

theorem ofText_shortest {pattern : Nat} (h : pattern ≤ infinity) :
    ofText (shortest pattern).text = Float.ofBits (UInt64.ofNat pattern) := by
  rw [ofText, Decimal.ofText_text, pattern_shortest h]

end Number

namespace Source

open Grammar

variable {text gap : List Char} {v : Float}

/-! ## Numerals as sources -/

theorem cut_numeral (hnumeral : Rule.Numeral text) (hgap : ∀ w ∈ gap, w ∈ Rule.separators)
    (place : Place) :
    ∃ t : Token, t.Spells (.number (Number.ofText text)) ∧
      (Scriptlet.cut place (text ++ gap)).tokens = [t] ∧
      (Scriptlet.cut place (text ++ gap)).rest = [] := by
  let lexeme : Lexeme := ⟨.numeral, text, Place.start⟩
  let t : Token := ⟨.number, String.ofList text, some (.number (Number.ofText text)),
    lexeme.stop.line⟩
  have hstands : t.Stands := ⟨lexeme, .numeral rfl, Rule.first?_numeral hnumeral⟩
  obtain ⟨u, hagrees, htokens, hrest⟩ :=
    @Token.Stands.cut_gap t hstands place gap [] hgap fun _ => rfl
  rw [String.toList_ofList, List.append_nil, cut_nil] at htokens hrest
  exact ⟨u, hagrees.spells (.number rfl rfl), htokens, hrest⟩

theorem expression_of_numeral (hnumeral : Rule.Numeral text)
    (hgap : ∀ w ∈ gap, w ∈ Rule.separators) (file : String) :
    Source.expression ⟨String.ofList (text ++ gap), file⟩ =
      .ok (.literal (.number (Number.ofText text))) := by
  obtain ⟨t, hspells, htokens, hrest⟩ := cut_numeral hnumeral hgap Place.start
  apply expression_of_cut
  · rwa [cut, String.toList_ofList]
  · rw [cut, String.toList_ofList, htokens]
    exact (Derives.literal hspells).of_le (Nat.zero_le _)

/-- A dash in front of a numeral is an operator of its own. -/
theorem expression_of_dash (hnumeral : Rule.Numeral text)
    (hgap : ∀ w ∈ gap, w ∈ Rule.separators) (file : String) :
    Source.expression ⟨String.ofList ('-' :: (text ++ gap)), file⟩ =
      .ok (.unary ⟨.dash, "-", none, 1⟩ (.literal (.number (Number.ofText text)))) := by
  -- no longer mark begins with a dash, so it is cut off by itself whatever follows
  have hdash : Scriptlet.cut Place.start ('-' :: (text ++ gap)) =
      (Scriptlet.cut (Place.start.past ['-']) (text ++ gap)).after
        [⟨.mark .dash ['-'], ['-'], Place.start⟩] :=
    @cut_append ['-'] (text ++ gap) (.mark .dash ['-']) Place.start rfl (by decide)
  obtain ⟨t, hspells, htokens, hrest⟩ := cut_numeral hnumeral hgap (Place.start.past ['-'])
  have hnegated : Derives .unary
      (.unary ⟨.dash, "-", none, 1⟩ (.literal (.number (Number.ofText text))))
      [⟨.dash, "-", none, 1⟩, t] :=
    .unary (by decide) ((Derives.literal hspells).of_le (by decide))
  apply expression_of_cut
  · rwa [cut, String.toList_ofList, hdash]
  · rw [cut, String.toList_ofList, hdash, Cut.tokens_after, htokens]
    exact hnegated.of_le (Nat.zero_le _)

/-- The text of a finite number, with a gap behind it, is an expression of that value. -/
theorem exists_expression_text (h : v.isFinite = true) (hgap : ∀ w ∈ gap, w ∈ Rule.separators)
    (file : String) :
    ∃ e, Source.expression ⟨Number.text v ++ String.ofList gap, file⟩ = .ok e ∧
      e.eval file = .ok (.number v) := by
  obtain ⟨pattern, hlt, hcases⟩ := Number.cases_of_isFinite h
  have hnumeral := (Number.shortest pattern).numeral_text
  have hvalue := Number.ofText_shortest hlt.le
  rw [← String.ofList_toList (s := Number.text v), ← String.ofList_append]
  rcases hcases with ⟨_, hv, htext⟩ | ⟨_, hv, htext⟩
  · rw [htext]
    refine ⟨_, expression_of_numeral hnumeral hgap file, ?_⟩
    rw [hvalue, hv]
    rfl
  · rw [htext]
    refine ⟨_, expression_of_dash hnumeral hgap file, ?_⟩
    rw [hvalue, hv]
    rfl

theorem outcome_run_text (h : v.isFinite = true) (hgap : ∀ w ∈ gap, w ∈ Rule.separators)
    (file : String) :
    Session.outcome (run ⟨Number.text v ++ String.ofList gap, file⟩) Sink.unlimited =
      (none, ⟨none, .closed, Text.bytes (Number.text v ++ "\n")⟩) := by
  obtain ⟨e, he, hv⟩ := exists_expression_text h hgap file
  rw [outcome_run_of_expression he hv, Value.text]

theorem exists_written_print {source : Source} {before after : List Stmt} {e : Expr}
    {value : Value} (h : source.program = .ok (before ++ .print e :: after))
    (hbefore : (Session.outcome (Stmt.interpret source.file before) Sink.unlimited).1 = none)
    (hvalue : e.eval source.file = .ok value) :
    ∃ rest, (Session.outcome source.run Sink.unlimited).2.written =
      (Session.outcome (Stmt.interpret source.file before) Sink.unlimited).2.written ++
        Text.bytes (value.text ++ "\n") ++ rest := by
  rw [Stmt.outcome_interpret_unlimited] at hbefore ⊢
  have hprefix : (Stmt.transcript source.file before).2 = none := hbefore
  rw [outcome_run h, Stmt.transcript_append, hprefix, ← List.singleton_append,
    Stmt.transcript_append, Stmt.transcript_print, hvalue]
  exact ⟨_, (List.append_assoc _ _ _).symm⟩

/-- **A printed number is a program for itself.**  The text of a finite number is read as an
expression whose value is that number, bit for bit, so as a program it prints itself.  Where
a program prints an expression of that value, it writes the text as a line, and that line is
a program that writes the line again. -/
theorem text_is_program (v : Float) (h : v.isFinite = true) :
    (∀ file,
      (∃ e, Source.expression ⟨Number.text v, file⟩ = .ok e ∧ e.eval file = .ok (.number v)) ∧
      Session.outcome (run ⟨Number.text v, file⟩) Sink.unlimited =
        (none, ⟨none, .closed, Text.bytes (Number.text v ++ "\n")⟩)) ∧
    ∀ (source : Source) (before after : List Stmt) (e : Expr),
      source.program = .ok (before ++ .print e :: after) →
      let first := Session.outcome (Stmt.interpret source.file before) Sink.unlimited
      first.1 = none → e.eval source.file = .ok (.number v) →
      let line := Number.text v ++ "\n"
      (∃ rest, (Session.outcome source.run Sink.unlimited).2.written =
        first.2.written ++ Text.bytes line ++ rest) ∧
      ∀ file, Session.outcome (run ⟨line, file⟩) Sink.unlimited =
        (none, ⟨none, .closed, Text.bytes line⟩) := by
  have htext : Number.text v ++ String.ofList [] = Number.text v := String.append_empty
  constructor
  · intro file
    have hexpression := @exists_expression_text [] v h nofun file
    have houtcome := @outcome_run_text [] v h nofun file
    rw [htext] at hexpression houtcome
    exact ⟨hexpression, houtcome⟩
  · intro source before after e hprogram first hbefore hvalue line
    have hwritten := exists_written_print hprogram hbefore hvalue
    rw [Value.text] at hwritten
    exact ⟨hwritten, @outcome_run_text ['\n'] v h (List.forall_mem_singleton.2 (by decide))⟩

theorem text_is_program_negative_zero :
    let source : Source := ⟨"print nil;\nprint -0;\nprint 1;", "zeros"⟩
    Number.text (Float.ofBits 0x8000000000000000) = "-0" ∧
      Session.outcome (run ⟨"-0", "zeros"⟩) Sink.unlimited =
        (none, ⟨none, .closed, Text.bytes "-0\n"⟩) ∧
      (∃ rest, (Session.outcome source.run Sink.unlimited).2.written =
        Text.bytes "nil\n" ++ Text.bytes "-0\n" ++ rest) ∧
      Session.outcome (run ⟨"-0\n", "zeros"⟩) Sink.unlimited =
        (none, ⟨none, .closed, Text.bytes "-0\n"⟩) := by
  intro source
  let zero : Expr := .unary ⟨.dash, "-", none, 2⟩ (.literal (.number (Number.ofText ['0'])))
  have htext : Number.text (Float.ofBits 0x8000000000000000) = "-0" := by decide +kernel
  have hprogram : source.program = .ok [.print (.literal .nil), .print zero,
      .print (.literal (.number (Number.ofText ['1'])))] := by
    decide +kernel
  have hzero : zero.eval "zeros" = .ok (.number (Float.ofBits 0x8000000000000000)) := by
    decide +kernel
  have hself := text_is_program (Float.ofBits 0x8000000000000000) (by decide +kernel)
  rw [htext] at hself
  obtain ⟨hwritten, hagain⟩ :=
    hself.2 source [.print (.literal .nil)] _ zero hprogram (by decide +kernel) hzero
  exact ⟨htext, (hself.1 "zeros").2, hwritten, hagain "zeros"⟩

end Source

end Scriptlet

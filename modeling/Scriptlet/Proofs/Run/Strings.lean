import Scriptlet.Proofs.Evaluation.Operators
import Scriptlet.Proofs.Run.Echo
/-!
# Strings as programs

A text without quotes is scanned, between quotes, as one string, and it is the value of that
string, whatever it holds.  So texts that are added come out one behind the other, and
comparing two of them tells whether they are the same.
-/

namespace Scriptlet

/-- A text as it stands in a source: between quotes, and nothing in it is escaped. -/
def Text.inQuotes (text : String) : String := "\"" ++ text ++ "\""

theorem Text.toList_inQuotes (text : String) :
    (inQuotes text).toList = '"' :: (text.toList ++ ['"']) := by
  rw [inQuotes, String.toList_append, String.toList_append]
  rfl

namespace Token

def ofText (text : String) : Token :=
  ⟨.string, Text.inQuotes text, some (.string text),
    1 + Text.newlines (Text.inQuotes text).toList⟩

theorem stands_ofText {text : String} (h : '"' ∉ text.toList) : (ofText text).Stands := by
  let lexeme : Lexeme := ⟨.string, (Text.inQuotes text).toList, Place.start⟩
  have hmeans : lexeme.Means ⟨.string, String.ofList lexeme.text,
      some (.string (String.ofList lexeme.text.tail.dropLast)), lexeme.stop.line⟩ :=
    .string rfl
  have hbody : (Text.inQuotes text).toList.tail.dropLast = text.toList := by
    rw [Text.toList_inQuotes, List.tail_cons, List.dropLast_concat]
  rw [hbody, String.ofList_toList, String.ofList_toList] at hmeans
  have hfirst := Rule.first?_string h
  rw [← Text.toList_inQuotes] at hfirst
  exact ⟨lexeme, hmeans, hfirst⟩

/-! ## Sums of texts -/

def plus : Token := ⟨.plus, "+", none, 1⟩

theorem stands_plus : plus.Stands := ⟨⟨.mark .plus ['+'], ['+'], Place.start⟩, .mark rfl, rfl⟩

def summands (texts : List String) : List Token := texts.flatMap fun text => [plus, ofText text]

theorem spaced_summands (text : String) (texts : List String) :
    spaced (ofText text :: summands texts) =
      (String.intercalate " + " ((text :: texts).map Text.inQuotes)).toList := by
  induction texts generalizing text with
  | nil =>
    rw [List.map_singleton, String.intercalate_singleton]
    rfl
  | cons next texts ih =>
    rw [List.map_cons, List.map_cons, String.intercalate_cons_cons, String.toList_append,
      String.toList_append, ← List.map_cons, ← ih, List.append_assoc]
    change (Text.inQuotes text).toList ++ [' '] ++ ("+".toList ++ [' '] ++ _) = _
    rw [List.append_assoc]
    rfl

theorem stands_of_mem_summands {texts : List String} {t : Token}
    (h : ∀ text ∈ texts, '"' ∉ text.toList) (ht : t ∈ summands texts) : t.Stands := by
  obtain ⟨text, htext, ht⟩ := List.mem_flatMap.1 ht
  rcases List.mem_pair.1 ht with rfl | rfl
  · exact stands_plus
  · exact stands_ofText (h text htext)

end Token

namespace Grammar

variable {file : String}

theorem derives_of_agrees {level : Level} {text : String} {t : Token}
    (h : (Token.ofText text).Agrees t) : Derives level (.literal (.string text)) [t] := by
  have hspells : t.Spells (.string text) := h.spells (.string rfl rfl)
  exact (Derives.literal hspells).of_le level.rank_le_primary

/-- A sum of texts is read from the left, and its value is the texts joined. -/
theorem Derives.exists_sum {texts : List String} {e : Expr} {s : String} {us vs : List Token}
    (hderives : Derives .term e us) (hvalue : e.eval file = .ok (.string s))
    (hagrees : List.Forall₂ Token.Agrees (Token.summands texts) vs) :
    ∃ e', Derives .term e' (us ++ vs) ∧
      e'.eval file = .ok (.string (s ++ String.join texts)) := by
  induction texts generalizing e s us vs with
  | nil =>
    obtain rfl := List.forall₂_nil_left_iff.1 hagrees
    rw [List.append_nil, String.join_nil, String.append_empty]
    exact ⟨e, hderives, hvalue⟩
  | cons text texts ih =>
    obtain ⟨plus, _, hplus, htail, rfl⟩ := List.forall₂_cons_left_iff.1 hagrees
    obtain ⟨t, vs, ht, hothers, rfl⟩ := List.forall₂_cons_left_iff.1 htail
    have hkind : plus.kind = .plus := hplus.kind.symm
    -- what has been read so far is the left operand of this plus
    have hsum : Derives .term (.binary plus e (.literal (.string text))) (us ++ [plus, t]) :=
      .binary (by rw [hkind]; decide) hderives (derives_of_agrees ht)
    have hjoined : (Expr.binary plus e (.literal (.string text))).eval file =
        .ok (.string (s ++ text)) := by
      rw [Expr.eval_binary_of_ok hvalue rfl, Value.binary, hkind]
      rfl
    obtain ⟨e', he', hvalue'⟩ := ih hsum hjoined hothers
    rw [List.append_assoc] at he'
    rw [String.join_cons, ← String.append_assoc]
    exact ⟨e', he', hvalue'⟩

end Grammar

namespace Source

open Grammar

variable {t u : String}

theorem outcome_run_spaced {tokens : List Token} {v : Value} (file : String)
    (hstands : ∀ t ∈ tokens, t.Stands)
    (h : ∀ us, List.Forall₂ Token.Agrees tokens us →
      ∃ e, Derives .default e us ∧ e.eval file = .ok v) :
    Session.outcome (run ⟨String.ofList (Token.spaced tokens), file⟩) Sink.unlimited =
      (none, ⟨none, .closed, Text.bytes (v.text ++ "\n")⟩) := by
  obtain ⟨hagrees, hrest⟩ := cut_spaced hstands Place.start
  obtain ⟨e, hderives, hvalue⟩ := h _ hagrees
  refine outcome_run_of_expression (e := e) (expression_of_cut ?_ ?_) hvalue
  · rw [cut, String.toList_ofList, hrest]
  · rwa [cut, String.toList_ofList]

theorem outcome_run_sum {texts : List String} (file : String) (hne : texts ≠ [])
    (h : ∀ text ∈ texts, '"' ∉ text.toList) :
    Session.outcome (run ⟨String.intercalate " + " (texts.map Text.inQuotes), file⟩)
        Sink.unlimited =
      (none, ⟨none, .closed, Text.bytes (String.join texts ++ "\n")⟩) := by
  obtain ⟨text, texts, rfl⟩ := List.exists_cons_of_ne_nil hne
  rw [List.forall_mem_cons] at h
  rw [← String.ofList_toList (s := String.intercalate _ _), ← Token.spaced_summands]
  apply @outcome_run_spaced _ (.string (String.join (text :: texts)))
  · refine List.forall_mem_cons.2 ⟨Token.stands_ofText h.1, ?_⟩
    exact fun t ht => Token.stands_of_mem_summands h.2 ht
  · intro us hagrees
    obtain ⟨first, us, hfirst, hothers, rfl⟩ := List.forall₂_cons_left_iff.1 hagrees
    have htext : (Expr.literal (.string text)).eval file = .ok (.string text) := rfl
    obtain ⟨e, hderives, hvalue⟩ := (derives_of_agrees hfirst).exists_sum htext hothers
    rw [String.join_cons]
    exact ⟨e, hderives.of_le (by decide), hvalue⟩

theorem outcome_run_between {operator : Token} {level : Level} {v : Value} (file : String)
    (hoperator : operator.kind ∈ level.operators) (hstands : operator.Stands)
    (ht : '"' ∉ t.toList) (hu : '"' ∉ u.toList)
    (h : ∀ o : Token, o.kind = operator.kind →
      Value.binary o (.string t) (.string u) = .ok v) :
    Session.outcome (run
        ⟨Text.inQuotes t ++ (" " ++ operator.lexeme ++ " ") ++ Text.inQuotes u, file⟩)
        Sink.unlimited =
      (none, ⟨none, .closed, Text.bytes (v.text ++ "\n")⟩) := by
  have htext : Text.inQuotes t ++ (" " ++ operator.lexeme ++ " ") ++ Text.inQuotes u =
      String.ofList (Token.spaced [Token.ofText t, operator, Token.ofText u]) := by
    apply String.toList_inj.1
    rw [String.toList_ofList, Token.spaced, Token.spaced, Token.spaced]
    simp only [String.toList_append, List.append_assoc]
    rfl
  rw [htext]
  apply outcome_run_spaced
  · simp only [List.forall_mem_cons]
    exact ⟨Token.stands_ofText ht, hstands, Token.stands_ofText hu, List.forall_mem_nil _⟩
  · intro us hagrees
    obtain ⟨left, _, hleft, htail, rfl⟩ := List.forall₂_cons_left_iff.1 hagrees
    obtain ⟨o, _, ho, htail', rfl⟩ := List.forall₂_cons_left_iff.1 htail
    obtain ⟨right, _, hright, hnil, rfl⟩ := List.forall₂_cons_left_iff.1 htail'
    obtain rfl := List.forall₂_nil_left_iff.1 hnil
    have hderives : Derives level
        (.binary o (.literal (.string t)) (.literal (.string u))) ([left] ++ [o, right]) :=
      .binary (ho.kind ▸ hoperator) (derives_of_agrees hleft) (derives_of_agrees hright)
    refine ⟨_, hderives.of_le (Nat.zero_le _), ?_⟩
    rw [Expr.eval_binary_of_ok rfl rfl, h o ho.kind.symm]
    rfl

theorem text_decide (p : Prop) [Decidable p] :
    (Value.bool (decide p)).text ++ "\n" = if p then "true\n" else "false\n" := by
  by_cases hp : p
  · rw [if_pos hp, decide_eq_true hp]
    rfl
  · rw [if_neg hp, decide_eq_false hp]
    rfl

theorem outcome_run_compared {kind : Kind} {spelling : List Char} {p : Prop} [Decidable p]
    (file : String) (hkind : kind ∈ Level.equality.operators)
    (hfirst : Rule.first? spelling = some (.mark kind spelling, spelling))
    (h : ∀ o : Token, o.kind = kind →
      Value.binary o (.string t) (.string u) = .ok (.bool (decide p)))
    (ht : '"' ∉ t.toList) (hu : '"' ∉ u.toList) :
    Session.outcome (run
        ⟨Text.inQuotes t ++ (" " ++ String.ofList spelling ++ " ") ++ Text.inQuotes u, file⟩)
        Sink.unlimited =
      (none, ⟨none, .closed, Text.bytes (if p then "true\n" else "false\n")⟩) := by
  let lexeme : Lexeme := ⟨.mark kind spelling, spelling, Place.start⟩
  let operator : Token := ⟨kind, String.ofList spelling, none, lexeme.stop.line⟩
  have hstands : operator.Stands := ⟨lexeme, .mark rfl, hfirst⟩
  rw [← text_decide]
  exact @outcome_run_between _ _ operator _ _ file hkind hstands ht hu h

/-- **Strings come out as they stand in the source.**  Any texts without quotes, each between
quotes and with a plus between any two of them, print the texts joined, with a newline behind
the last, and do not fail.  Two such texts compare as equal just if they are the same. -/
theorem strings_pass_unchanged (file : String) :
    (∀ texts : List String, texts ≠ [] → (∀ text ∈ texts, '"' ∉ text.toList) →
      Session.outcome (run ⟨String.intercalate " + " (texts.map Text.inQuotes), file⟩)
          Sink.unlimited =
        (none, ⟨none, .closed, Text.bytes (String.join texts ++ "\n")⟩)) ∧
    ∀ t u : String, '"' ∉ t.toList → '"' ∉ u.toList →
      Session.outcome (run ⟨Text.inQuotes t ++ " == " ++ Text.inQuotes u, file⟩)
          Sink.unlimited =
        (none, ⟨none, .closed, Text.bytes (if t = u then "true\n" else "false\n")⟩) ∧
      Session.outcome (run ⟨Text.inQuotes t ++ " != " ++ Text.inQuotes u, file⟩)
          Sink.unlimited =
        (none, ⟨none, .closed, Text.bytes (if t ≠ u then "true\n" else "false\n")⟩) := by
  refine ⟨?_, ?_⟩
  · intro texts hne h
    exact outcome_run_sum file hne h
  · intro t u ht hu
    have hequals : ∀ o : Token, o.kind = .equals →
        Value.binary o (.string t) (.string u) = .ok (.bool (decide (t = u))) := by
      intro o ho
      rw [Value.binary, ho]
      rfl
    have hnotEquals : ∀ o : Token, o.kind = .notEquals →
        Value.binary o (.string t) (.string u) = .ok (.bool (decide (t ≠ u))) := by
      intro o ho
      rw [Value.binary, ho, decide_not]
      rfl
    have hblanks : " == " = " " ++ String.ofList ['=', '='] ++ " " := by decide
    have hblanks' : " != " = " " ++ String.ofList ['!', '='] ++ " " := by decide
    rw [hblanks, hblanks']
    exact ⟨outcome_run_compared file (by decide) rfl hequals ht hu,
      outcome_run_compared file (by decide) rfl hnotEquals ht hu⟩

theorem strings_pass_unchanged_comment :
    Session.outcome (run ⟨"\"// a\r\n;\" + \"\" + \"\\n print\"", "passed"⟩) Sink.unlimited =
        (none, ⟨none, .closed, Text.bytes "// a\r\n;\\n print\n"⟩) ∧
      Session.outcome (run ⟨"\"a\n\" == \"a\\n\"", "passed"⟩) Sink.unlimited =
        (none, ⟨none, .closed, Text.bytes "false\n"⟩) ∧
      Session.outcome (run ⟨"\"a\n\" != \"a\\n\"", "passed"⟩) Sink.unlimited =
        (none, ⟨none, .closed, Text.bytes "true\n"⟩) := by
  obtain ⟨hsum, hcompare⟩ := strings_pass_unchanged "passed"
  have hprinted := hsum ["// a\r\n;", "", "\\n print"] (by decide) (by decide)
  have hcompared := hcompare "a\n" "a\\n" (by decide) (by decide)
  exact ⟨hprinted, hcompared⟩

end Source

end Scriptlet

import Scriptlet.Proofs.Source.Handlers
import Scriptlet.Proofs.Source.LongestMatch
/-!
# A scan by offsets stays in the text

A scan by offsets comes only to offsets between two characters of the source, so it is never
brought to a halt, and it does what the cut into lexemes does.  Each round takes at least one
byte, so there are no more rounds than bytes.
-/

namespace Scriptlet

namespace Scan

/-- The scans in front of which the rounds begin, with the count of the rounds before. -/
inductive Reaches (source : Source) : Nat → Scan → Prop where
  | start : Reaches source 0 Scan.start
  | round {count : Nat} {scan next : Scan} (h : Reaches source count scan)
      (hmore : source.atEnd scan.place = false) (hstep : scan.step source = some (.ok next)) :
      Reaches source (count + 1) next

/-- What a scan comes to, and in how many rounds: to tokens where it is at the end, to a
diagnostic where a round fails, to nothing where a round has no result.  A scan that goes on
forever comes to nothing of this kind. -/
inductive Ends (source : Source) :
    Scan → Nat → Option (Except Diagnostic (List Token)) → Prop where
  | atEnd {scan : Scan} (hend : source.atEnd scan.place = true) :
      Ends source scan 0 (some (.ok (scan.tokens ++ [Token.eof scan.place.line])))
  | halted {scan : Scan} (hmore : source.atEnd scan.place = false)
      (hstep : scan.step source = none) : Ends source scan 1 none
  | failed {scan : Scan} {d : Diagnostic} (hmore : source.atEnd scan.place = false)
      (hstep : scan.step source = some (.error d)) : Ends source scan 1 (some (.error d))
  | round {scan next : Scan} {count : Nat} {result : Option (Except Diagnostic (List Token))}
      (hmore : source.atEnd scan.place = false) (hstep : scan.step source = some (.ok next))
      (h : Ends source next count result) : Ends source scan (count + 1) result

/-- A scan that is not brought to a halt, wherever its next round looks and goes. -/
structure Safe (source : Source) (scan : Scan) : Prop where
  within : scan.place.offset ≤ Text.byteSize source.text.toList
  boundary : ∃ before rest, source.text.toList = before ++ rest ∧
    scan.place.offset = Text.byteSize before ∧
    source.remainder? scan.place = some (String.ofList rest) ∧
    source.at? scan.place = some rest.head?
  moves : ∀ rule handler, scan.row? source = some (some (rule, handler)) →
    ∃ text, scan.found? source rule = some text ∧ text ≠ [] ∧
      handler.run source rule scan ≠ none ∧
      ∀ next, handler.run source rule scan = some (.ok next) →
        next.place.offset = scan.place.offset + Text.byteSize text
  unquotes : ∀ rule, scan.row? source = some (some (rule, .string)) →
    ∃ text value, scan.found? source rule = some text ∧ text = '"' :: (value ++ ['"']) ∧
      Text.slice? text 1 (Text.byteSize text - 1) = some value
  shows : source.atEnd scan.place = false → scan.row? source = some none →
    ∃ c, source.at? scan.place = some (some c)

variable {source : Source} {scan next : Scan} {before rest text : List Char} {rule : Rule}

theorem Ends.unique {count count' : Nat} {result result' : Option (Except Diagnostic (List Token))}
    (h : Ends source scan count result) (h' : Ends source scan count' result') :
    count' = count ∧ result' = result := by
  induction h generalizing count' with
  | atEnd hend => cases h' <;> simp_all
  | halted hmore hstep => cases h' <;> simp_all
  | failed hmore hstep => cases h' <;> simp_all
  | round hmore hstep _ ih =>
    cases h' with
    | round _ hstep' hnext =>
      rw [hstep] at hstep'
      cases hstep'
      obtain ⟨rfl, rfl⟩ := ih hnext
      exact ⟨rfl, rfl⟩
    | _ => simp_all

/-! ## One round -/

namespace Stands

theorem atEnd_eq_false_iff (h : scan.Stands source before rest) :
    source.atEnd scan.place = false ↔ rest ≠ [] := by
  rw [Bool.eq_false_iff, ne_eq, h.atEnd_iff]

theorem step_of_first? (h : scan.Stands source before (text ++ rest))
    (hfirst : Rule.first? (text ++ rest) = some (rule, text)) (hquote : rule ≠ .openQuote) :
    scan.step source = some (.ok (scan.after ⟨rule, text, scan.place⟩)) := by
  rw [step, h.row_eq, find?_of_first? hfirst]
  exact Rule.run_handler h (Rule.mem_table_of_first? hfirst) (Rule.takes_of_first? hfirst) hquote

theorem step_of_uncut {c : Char} (h : scan.Stands source before (c :: rest))
    (hnone : Lexeme.first? scan.place (c :: rest) = none) :
    scan.step source = some (.error ⟨.ofUncut c, ⟨scan.place.line, source.file⟩⟩) := by
  rcases Lexeme.first?_eq_none_cases hnone with ⟨rfl, hfirst⟩ | ⟨hne, hfirst⟩
  · rw [step, h.row_eq, find?_of_first? hfirst]
    rfl
  · rw [step, h.row_eq, find?_of_first?_none hfirst, Fault.ofUncut, if_neg hne]
    simp [h.at_eq]

/-- A round leads from one place between two characters to another. -/
theorem of_step (h : scan.Stands source before rest) (hmore : source.atEnd scan.place = false)
    (hstep : scan.step source = some (.ok next)) :
    ∃ before rest, next.Stands source before rest := by
  cases hfirst : Lexeme.first? scan.place rest with
  | none =>
    cases rest with
    | nil => exact absurd rfl (h.atEnd_eq_false_iff.1 hmore)
    | cons c rest =>
      rw [h.step_of_uncut hfirst] at hstep
      cases hstep
  | some lexeme =>
    obtain ⟨hrule, -, hquote⟩ := Lexeme.rule_first? hfirst
    obtain ⟨further, rfl⟩ := (Lexeme.prefix_of_first? hfirst).2
    rw [h.step_of_first? hrule hquote] at hstep
    cases hstep
    exact ⟨_, _, h.after lexeme.rule⟩

/-! ## Every place between two characters is safe -/

theorem of_row {handler : Handler} (h : scan.Stands source before rest)
    (hrow : scan.row? source = some (some (rule, handler))) :
    ∃ text further, rest = text ++ further ∧ text ≠ [] ∧ handler = rule.handler ∧
      Rule.first? rest = some (rule, text) ∧ scan.found? source rule = some text := by
  rw [h.row_eq, Option.some_inj] at hrow
  cases hfirst : Rule.first? rest with
  | none =>
    rw [find?_of_first?_none hfirst] at hrow
    cases hrow
  | some taken =>
    obtain ⟨first, text⟩ := taken
    rw [find?_of_first? hfirst] at hrow
    cases hrow
    obtain ⟨hne, further, rfl⟩ := Rule.prefix_of_taken? (Rule.taken?_of_first? hfirst)
    exact ⟨text, further, rfl, hne, rfl, rfl, h.found_eq (Rule.takes_of_first? hfirst)⟩

theorem safe (h : scan.Stands source before rest) : scan.Safe source where
  within := by
    rw [h.offset_eq, h.text, Text.byteSize_append]
    exact Nat.le_add_right _ _
  boundary := ⟨before, rest, h.text, h.offset_eq, h.remainder_eq, h.at_eq⟩
  moves rule handler hrow := by
    obtain ⟨text, further, rfl, hne, rfl, hfirst, hfound⟩ := h.of_row hrow
    refine ⟨text, hfound, hne, ?_⟩
    by_cases hquote : rule = .openQuote
    · subst hquote
      exact ⟨nofun, nofun⟩
    · rw [Rule.run_handler h (Rule.mem_table_of_first? hfirst) (Rule.takes_of_first? hfirst) hquote]
      refine ⟨nofun, ?_⟩
      rintro _ ⟨⟩
      rfl
  unquotes rule hrow := by
    obtain ⟨text, further, rfl, -, hhandler, hfirst, hfound⟩ := h.of_row hrow
    cases Rule.eq_string_of_handler hhandler
    obtain ⟨value, rfl, -⟩ := (Rule.takes_of_first? hfirst).of_string
    exact ⟨_, value, hfound, rfl, Text.slice?_quoted value⟩
  shows hmore _ := by
    cases rest with
    | nil => exact absurd rfl (h.atEnd_eq_false_iff.1 hmore)
    | cons c rest => exact ⟨c, h.at_eq⟩

/-! ## All rounds -/

/-- From a place between two characters on a scan comes to what the cut comes to. -/
theorem ends (h : scan.Stands source before rest) :
    ∃ count, count ≤ Text.byteSize rest ∧ scan.Ends source count
      (some (((cut scan.place rest).result source.file).map (scan.tokens ++ ·))) := by
  generalize hplace : scan.place = place
  induction place, rest using cut_induction generalizing scan before with
  | uncut place cs hnone =>
    subst hplace
    rw [cut_of_none hnone]
    cases cs with
    | nil => exact ⟨0, Nat.zero_le _, .atEnd (h.atEnd_iff.2 rfl)⟩
    | cons c cs =>
      have hpos := c.utf8Size_pos
      refine ⟨1, ?_, .failed (h.atEnd_eq_false_iff.2 nofun) (h.step_of_uncut hnone)⟩
      rw [Text.byteSize_cons]
      omega
  | lexeme place rule text rest hrule hquote ih =>
    subst hplace
    have hne := (Rule.prefix_of_taken? (Rule.taken?_of_first? hrule)).1
    obtain ⟨count, hle, hends⟩ := ih (h.after rule) rfl
    have hpos := mt Text.byteSize_eq_zero_iff.1 hne
    refine ⟨count + 1, ?_, ?_⟩
    · rw [Text.byteSize_append]
      omega
    · have hmore := h.atEnd_eq_false_iff.2 (List.append_ne_nil_of_left_ne_nil hne rest)
      have hresult : ((cut scan.place (text ++ rest)).result source.file).map
          (scan.tokens ++ ·) = ((cut (scan.place.past text) rest).result source.file).map
          ((scan.after ⟨rule, text, scan.place⟩).tokens ++ ·) := by
        rw [cut_append _ hrule hquote, Cut.result_after]
        cases (cut (scan.place.past text) rest).result source.file with
        | ok others => exact congrArg Except.ok (List.append_assoc ..).symm
        | error d => rfl
      rw [hresult]
      exact .round hmore (h.step_of_first? hrule hquote) hends

end Stands

theorem Reaches.stands {count : Nat} (h : Reaches source count scan) :
    ∃ before rest, scan.Stands source before rest := by
  induction h with
  | start => exact ⟨_, _, .start source⟩
  | round _ hmore hstep ih =>
    obtain ⟨before, rest, hstands⟩ := ih
    exact hstands.of_step hmore hstep

end Scan

namespace Source

/-- **A scan by offsets is safe and ends.**  Each round begins at an offset up to the size of
the source and between two of its characters, so whatever the round looks at is there: the
remainder, the character where no pattern finds anything, and a string without its quotes.
A handler that goes on does so by the bytes that its pattern found, of which there is at
least one.  The scan has one result, that of the source, in no more rounds than bytes. -/
theorem scan_safe_and_ends (source : Source) :
    (∀ count scan, Scan.Reaches source count scan → scan.Safe source) ∧
    ∃ rounds, rounds ≤ Text.byteSize source.text.toList ∧
      ∀ count result, Scan.Ends source Scan.start count result ↔
        count = rounds ∧ result = some source.tokens := by
  refine ⟨?_, ?_⟩
  · intro count scan hreaches
    obtain ⟨before, rest, hstands⟩ := hreaches.stands
    exact hstands.safe
  · obtain ⟨rounds, hle, hends⟩ := (Scan.Stands.start source).ends
    have hresult : ((Scriptlet.cut Scan.start.place source.text.toList).result source.file).map
        (Scan.start.tokens ++ ·) = source.tokens := by
      change source.tokens.map ([] ++ ·) = source.tokens
      cases source.tokens <;> rfl
    rw [hresult] at hends
    refine ⟨rounds, hle, fun count result => ⟨hends.unique, ?_⟩⟩
    rintro ⟨rfl, rfl⟩
    exact hends

theorem scan_safe_and_ends_euro :
    (Scan.mk [⟨.string, "\"é\"", some (.string "é"), 1⟩] ⟨4, 1⟩).Safe ⟨"\"é\"€", "shell"⟩ ∧
    ∃ rounds, rounds ≤ 7 ∧ ∀ count result,
      Scan.Ends ⟨"\"é\"€", "shell"⟩ Scan.start count result ↔ count = rounds ∧
        result = some (.error ⟨.unexpectedCharacter '€', ⟨1, "shell"⟩⟩) := by
  have htokens : tokens ⟨"\"é\"€", "shell"⟩ =
      .error ⟨.unexpectedCharacter '€', ⟨1, "shell"⟩⟩ := by
    decide +kernel
  obtain ⟨hsafe, hends⟩ := scan_safe_and_ends ⟨"\"é\"€", "shell"⟩
  rw [htokens] at hends
  refine ⟨hsafe 1 _ (.round .start ?_ ?_), hends⟩
  · decide
  · rfl

end Source

end Scriptlet

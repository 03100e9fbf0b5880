import Scriptlet.Proofs.Grammar.Shape
import Scriptlet.Proofs.Source.Lexemes
import Scriptlet.Proofs.Text.Lines
/-!
# The tokens of a source and its lines

The line of a token is the one on which its text ends, and that line of the source shows
the end of the text.  A source that cannot be cut to its end shows the character to blame
on the line that is named.
-/

namespace Scriptlet

/-- The source has a line with the given number, and the line holds the given text. -/
def Source.Shows (source : Source) (line : Nat) (cs : List Char) : Prop :=
  1 ≤ line ∧ line ≤ 1 + Text.newlines source.text.toList ∧
    ∃ text, source.line? line = some text ∧ cs <:+: text.toList

theorem Source.shows_of_split {source : Source} (as bs cs : List Char)
    (h : source.text.toList = as ++ bs ++ cs) (hnewline : '\n' ∉ bs)
    (hlast : bs.getLast? ≠ some '\r') : source.Shows (1 + Text.newlines as) bs := by
  obtain ⟨line, hline, hinfix⟩ := Text.line?_append as hnewline hlast cs
  refine ⟨by omega, ?_, String.ofList line, ?_, by rwa [String.toList_ofList]⟩
  · rw [h, Text.newlines_append, Text.newlines_append]
    omega
  · rw [Source.line?, h, hline]
    rfl

namespace Kind

theorem ofWord_mem (word : String) : ofWord word ∈ identifier :: reserved.map Prod.snd := by
  rw [ofWord, ofReserved?]
  cases h : reserved.lookup word with
  | none => exact List.mem_cons_self
  | some kind =>
    obtain ⟨before, after, heq, _⟩ := List.lookup_eq_some_iff.1 h
    apply List.mem_cons_of_mem
    rw [heq]
    simp

theorem not_mem_valued_ofWord (word : String) : ofWord word ∉ [eof, number, string] := by
  have hall : ∀ kind ∈ identifier :: reserved.map Prod.snd, kind ∉ [eof, number, string] := by
    decide
  exact hall _ (ofWord_mem word)

end Kind

theorem Rule.not_mem_valued_of_mem_marks {kind : Kind} {spelling : List Char}
    (h : (kind, spelling) ∈ marks) : kind ∉ [.eof, .number, .string] := by
  have hall : ∀ m ∈ marks, m.1 ∉ [.eof, .number, .string] := by decide
  exact hall _ h

theorem Token.carries_of_not_mem {t : Token} (h : t.kind ∉ [.eof, .number, .string]) :
    t.kind ≠ .eof ∧ t.Carries := by
  simp only [List.mem_cons, List.not_mem_nil, or_false, not_or] at h
  exact ⟨h.1, fun hnumber => absurd hnumber h.2.1, fun hstring => absurd hstring h.2.2⟩

namespace Lexeme.Means

variable {lexeme : Lexeme} {t : Token} {cs : List Char}

theorem carries (h : lexeme.Means t) (hrule : lexeme.rule ∈ Rule.table) :
    t.kind ≠ .eof ∧ t.Carries := by
  cases h with
  | word _ => exact Token.carries_of_not_mem (Kind.not_mem_valued_ofWord _)
  | numeral _ => exact ⟨nofun, fun _ => ⟨_, rfl⟩, nofun⟩
  | string _ => exact ⟨nofun, nofun, fun _ => ⟨_, rfl⟩⟩
  | mark hmark =>
    have hmem := Rule.mem_marks (hmark ▸ hrule)
    exact Token.carries_of_not_mem (Rule.not_mem_valued_of_mem_marks hmem)

theorem inline (h : lexeme.Means t) (hrule : lexeme.rule ∈ Rule.table)
    (htakes : lexeme.rule.Takes cs lexeme.text) (hstring : lexeme.rule ≠ .string) :
    Rule.Inline lexeme.text := by
  apply htakes.inline hrule
  cases h with
  | string h => exact absurd h hstring
  | word h | numeral h | mark h =>
    rw [h]
    simp

theorem newline_not_mem (h : lexeme.Means t) (hrule : lexeme.rule ∈ Rule.table)
    (htakes : lexeme.rule.Takes cs lexeme.text) (hkind : t.kind ≠ .string) :
    '\n' ∉ t.lexeme.toList := by
  have hstring : lexeme.rule ≠ .string := by
    intro hstring
    cases h <;> simp_all
  rw [h.lexeme_eq, String.toList_ofList]
  intro hmem
  exact (h.inline hrule htakes hstring _ hmem).1 rfl

theorem getLast?_ne (h : lexeme.Means t) (hrule : lexeme.rule ∈ Rule.table)
    (htakes : lexeme.rule.Takes cs lexeme.text) : lexeme.text.getLast? ≠ some '\r' := by
  intro hlast
  by_cases hstring : lexeme.rule = .string
  · rw [hstring] at htakes
    rw [htakes.getLast?_of_string] at hlast
    cases hlast
  · exact (h.inline hrule htakes hstring _ (List.mem_of_getLast? hlast)).2 rfl

end Lexeme.Means

namespace Source

variable {source : Source} {tokens : List Token} {t : Token} {d : Diagnostic}

theorem tokens_eq_ok_iff :
    source.tokens = .ok tokens ↔ source.cut.rest = [] ∧
      tokens = source.cut.lexemes.filterMap Lexeme.token? ++ [Token.eof source.cut.stop.line] := by
  unfold Source.tokens
  cases source.cut.rest <;> simp [eq_comm]

/-- The tokens of a source do not depend on the name of its file. -/
theorem tokens_renamed (s file file' : String) (h : Source.tokens ⟨s, file⟩ = .ok tokens) :
    Source.tokens ⟨s, file'⟩ = .ok tokens := by
  rw [tokens_eq_ok_iff] at h ⊢
  exact h

theorem stop_line (source : Source) :
    source.cut.stop.line = 1 + Text.newlines (source.cut.lexemes.flatMap Lexeme.text) := by
  rw [cut, stop_cut]
  rfl

theorem flatMap_lexemes (h : source.cut.rest = []) :
    source.cut.lexemes.flatMap Lexeme.text = source.text.toList := by
  have htext := flatMap_cut Place.start source.text.toList
  rwa [← cut, h, List.append_nil] at htext

theorem stop_line_of_rest (h : source.cut.rest = []) :
    source.cut.stop.line = 1 + Text.newlines source.text.toList := by
  rw [stop_line, flatMap_lexemes h]

theorem mem_tokens (h : source.tokens = .ok tokens) (ht : t ∈ tokens) :
    (∃ lexeme ∈ source.cut.lexemes, lexeme.Means t) ∨
      t = Token.eof (1 + Text.newlines source.text.toList) := by
  obtain ⟨hrest, rfl⟩ := tokens_eq_ok_iff.1 h
  rcases List.mem_append.1 ht with ht | ht
  · obtain ⟨lexeme, hmem, htoken⟩ := List.mem_filterMap.1 ht
    exact .inl ⟨lexeme, hmem, Lexeme.token?_eq_some_iff.1 htoken⟩
  · right
    rw [List.eq_of_mem_singleton ht, stop_line_of_rest hrest]

/-- The tokens of a source have the shape that readers count on. -/
theorem shaped_tokens (h : source.tokens = .ok tokens) : Token.Shaped tokens := by
  have hlexeme : ∀ lexeme ∈ source.cut.lexemes, ∀ t, lexeme.Means t →
      t.kind ≠ .eof ∧ t.Carries := by
    intro lexeme hmem t hmeans
    obtain ⟨_, _, _, _, hfirst⟩ := exists_split_of_mem_lexemes hmem
    exact hmeans.carries (Rule.mem_table_of_first? hfirst)
  refine ⟨?_, ?_⟩
  · obtain ⟨_, rfl⟩ := tokens_eq_ok_iff.1 h
    refine ⟨_, _, rfl, rfl, ?_⟩
    intro t ht
    obtain ⟨lexeme, hmem, htoken⟩ := List.mem_filterMap.1 ht
    exact (hlexeme lexeme hmem t (Lexeme.token?_eq_some_iff.1 htoken)).1
  · intro t ht
    rcases mem_tokens h ht with ⟨lexeme, hmem, hmeans⟩ | rfl
    · exact (hlexeme lexeme hmem t hmeans).2
    · exact ⟨nofun, nofun⟩

theorem newline_not_mem_lexeme (h : source.tokens = .ok tokens) (ht : t ∈ tokens)
    (hkind : t.kind ≠ .string) : '\n' ∉ t.lexeme.toList := by
  rcases mem_tokens h ht with ⟨lexeme, hmem, hmeans⟩ | rfl
  · obtain ⟨_, _, _, _, hfirst⟩ := exists_split_of_mem_lexemes hmem
    exact hmeans.newline_not_mem (Rule.mem_table_of_first? hfirst) (Rule.takes_of_first? hfirst)
      hkind
  · exact nofun

/-- The line of a token shows the end of its text. -/
theorem shows_token (h : source.tokens = .ok tokens) (ht : t ∈ tokens) :
    source.Shows t.line (Text.lastLine t.lexeme.toList) := by
  rcases mem_tokens h ht with ⟨lexeme, hmem, hmeans⟩ | rfl
  · obtain ⟨pre, post, htext, hstart, hfirst⟩ := exists_split_of_mem_lexemes hmem
    obtain ⟨as, has, hnewlines⟩ := Text.exists_append_lastLine lexeme.text
    have hlast := hmeans.getLast?_ne (Rule.mem_table_of_first? hfirst)
      (Rule.takes_of_first? hfirst)
    -- the newlines of the token are counted in, so its last line is the one to look at
    have hline : t.line = 1 + Text.newlines (pre ++ as) := by
      rw [hmeans.line_eq, Lexeme.stop, hstart, ← Place.past_append, Text.newlines_append, hnewlines,
        ← Text.newlines_append]
      rfl
    rw [hline, hmeans.lexeme_eq, String.toList_ofList]
    apply shows_of_split (pre ++ as) _ post
    · rw [htext, List.append_assoc, List.append_assoc, ← List.append_assoc as, ← has]
    · exact Text.newline_not_mem_lastLine _
    · intro hcr
      apply hlast
      rw [has, List.getLast?_append, hcr, Option.some_or]
  · exact shows_of_split source.text.toList [] [] (by simp) (by simp) (by simp)

theorem shows_of_tokens_error (h : source.tokens = .error d) :
    ∃ c, d.fault = .ofUncut c ∧ d.position.file = source.file ∧
      source.Shows d.position.line [c] := by
  unfold Source.tokens at h
  cases hrest : source.cut.rest with
  | nil =>
    rw [hrest] at h
    cases h
  | cons c rest =>
    rw [hrest] at h
    cases h
    refine ⟨c, rfl, rfl, ?_⟩
    have htext := flatMap_cut Place.start source.text.toList
    rw [← cut, hrest] at htext
    -- at a newline or a carriage return the cut would have gone on
    have hne : c ≠ '\n' ∧ c ≠ '\r' := by
      rcases not_takes_of_rest hrest with rfl | hnone
      · decide
      constructor
      · rintro rfl
        exact hnone .newline (by decide) _ .newline
      · rintro rfl
        exact hnone .blanks (by decide) _ (.blanks (by decide))
    change source.Shows source.cut.stop.line [c]
    rw [stop_line]
    apply shows_of_split _ [c] rest
    · rw [← htext, List.append_assoc]
      rfl
    · simpa using Ne.symm hne.1
    · simpa using hne.2

end Source

end Scriptlet

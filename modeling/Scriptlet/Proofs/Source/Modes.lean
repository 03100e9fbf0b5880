import Scriptlet.Proofs.Source.Extents
/-!
# Reading character by character

Whether a source has tokens shows from its characters one by one.  A reader of them is in code,
in a string or in a comment.  A source is refused just when a character outside the alphabet is
met in code, or a string is never closed, and the diagnostic names the first one of these.
-/

namespace Scriptlet

inductive Mode where
  | code | string | comment
deriving DecidableEq, Repr

/-- What has been read: the mode that it leads to, and its last character. -/
structure Reading where
  mode : Mode
  last? : Option Char
deriving DecidableEq, Repr

/-- The mode behind a character.  A quote opens a string and closes it; two slashes side by side
open a comment, and a newline closes it. -/
def Mode.next (last? : Option Char) : Mode → Char → Mode
  | code, '"' => string
  | code, '/' => if last? = some '/' then comment else code
  | string, '"' => code
  | comment, '\n' => code
  | mode, _ => mode

namespace Reading

def start : Reading := ⟨.code, none⟩

def read (r : Reading) (c : Char) : Reading := ⟨r.mode.next r.last? c, some c⟩

def after (r : Reading) (text : List Char) : Reading := text.foldl read r

def signs : List Char :=
  ['_', ' ', '\t', '\r', '\n', '"', '(', ')', '\x7b', '\x7d', ',', '.', '-', '+', ';', '*', '/',
   '!', '=', '<', '>']

def alphabet (c : Char) : Bool := c.isAlphanum || c ∈ signs

/-- Only characters of the language are met in code. -/
def Lawful (r : Reading) : List Char → Prop
  | [] => True
  | c :: text => (r.mode = .code → alphabet c = true) ∧ (r.read c).Lawful text

instance decidableLawful (r : Reading) : (text : List Char) → Decidable (r.Lawful text)
  | [] => .isTrue trivial
  | c :: text =>
    have := decidableLawful (r.read c) text
    inferInstanceAs (Decidable ((r.mode = .code → alphabet c = true) ∧ (r.read c).Lawful text))

variable {r : Reading} {text rest : List Char} {c : Char}

@[simp] theorem after_nil (r : Reading) : r.after [] = r := rfl

@[simp] theorem after_cons (r : Reading) (c : Char) (text : List Char) :
    r.after (c :: text) = (r.read c).after text := rfl

theorem after_append (r : Reading) (as bs : List Char) :
    r.after (as ++ bs) = (r.after as).after bs := List.foldl_append

theorem lawful_append {as bs : List Char} :
    r.Lawful (as ++ bs) ↔ r.Lawful as ∧ (r.after as).Lawful bs := by
  induction as generalizing r with
  | nil => simp [Lawful]
  | cons c as ih => simp only [List.cons_append, Lawful, ih, after_cons, and_assoc]

/-! ## Runs within one mode -/

def plain (c : Char) : Bool := alphabet c && c != '"' && c != '/'

theorem next_code_of_plain (h : plain c = true) (last? : Option Char) :
    Mode.code.next last? c = .code := by
  simp only [plain, Bool.and_eq_true, bne_iff_ne] at h
  unfold Mode.next
  split <;> simp_all

/-- A run of plain characters is read in code to its end. -/
theorem lawful_of_plain (hmode : r.mode = .code) (h : ∀ c ∈ text, plain c = true) :
    r.Lawful text ∧ (r.after text).mode = .code := by
  induction text generalizing r with
  | nil => exact ⟨trivial, hmode⟩
  | cons c text ih =>
    obtain ⟨hc, htext⟩ := List.forall_mem_cons.1 h
    have hnext : (r.read c).mode = .code := by
      rw [read, hmode]
      exact next_code_of_plain hc r.last?
    obtain ⟨hlawful, hafter⟩ := ih hnext htext
    refine ⟨⟨fun _ => ?_, hlawful⟩, hafter⟩
    rw [plain, Bool.and_assoc, Bool.and_eq_true] at hc
    exact hc.1

theorem lawful_of_stays (hmode : r.mode ≠ .code)
    (h : ∀ c ∈ text, ∀ last?, r.mode.next last? c = r.mode) :
    r.Lawful text ∧ (r.after text).mode = r.mode := by
  induction text generalizing r with
  | nil => exact ⟨trivial, rfl⟩
  | cons c text ih =>
    obtain ⟨hc, htext⟩ := List.forall_mem_cons.1 h
    have hnext : (r.read c).mode = r.mode := hc r.last?
    obtain ⟨hlawful, hafter⟩ := ih (by rwa [hnext]) (by rwa [hnext])
    exact ⟨⟨fun hcode => absurd hcode hmode, hlawful⟩, hafter.trans hnext⟩

theorem next_string_of_ne (h : c ≠ '"') (last? : Option Char) :
    Mode.string.next last? c = .string := by
  unfold Mode.next
  split <;> simp_all

theorem next_comment_of_ne (h : c ≠ '\n') (last? : Option Char) :
    Mode.comment.next last? c = .comment := by
  unfold Mode.next
  split <;> simp_all

theorem last?_after (r : Reading) (hne : text ≠ []) : (r.after text).last? = text.getLast? := by
  obtain ⟨text, c, rfl⟩ := text.eq_nil_or_concat.resolve_left hne
  rw [List.concat_eq_append, after_append, List.getLast?_concat]
  rfl

/-! ## What rules take is read to its end -/

/-- A lexeme can begin here: in code, but not at the second slash of a comment, or at the newline
behind a comment. -/
def Ready (r : Reading) (rest : List Char) : Prop :=
  r.mode = .code ∧ (rest.head? = some '/' → r.last? ≠ some '/') ∨
    r.mode = .comment ∧ ∀ c ∈ rest.head?, c = '\n'

theorem ready_of_plain (hmode : r.mode = .code) (hne : text ≠ [])
    (h : ∀ c ∈ text, plain c = true) (rest : List Char) :
    r.Lawful text ∧ (r.after text).Ready rest := by
  obtain ⟨hlawful, hafter⟩ := lawful_of_plain hmode h
  refine ⟨hlawful, .inl ⟨hafter, fun _ => ?_⟩⟩
  rw [last?_after r hne]
  intro hlast
  exact absurd (h '/' (List.mem_of_getLast? hlast)) (by decide)

theorem plain_of_isWordChar (h : Rule.isWordChar c = true) : plain c = true := by
  have hquote : c ≠ '"' := by
    rintro rfl
    exact absurd h (by decide)
  have hslash : c ≠ '/' := by
    rintro rfl
    exact absurd h (by decide)
  rcases Bool.or_eq_true_iff.1 h with h | h <;> simp_all [plain, alphabet, signs]

theorem plain_of_takes {rule : Rule} (h : rule.Takes (text ++ rest) text)
    (hmem : rule ∈ Rule.table)
    (hrule : rule ∉ [.string, .openQuote, .comment, .mark .slash ['/']]) :
    ∀ c ∈ text, plain c = true := by
  cases rule with
  | word => exact fun c hc => plain_of_isWordChar (h.of_word.2.1 c hc)
  | numeral =>
    have hdigits : ∀ digits : List Char, (∀ c ∈ digits, c.isDigit = true) →
        ∀ c ∈ digits, plain c = true :=
      fun _ hall c hc => plain_of_isWordChar (Rule.isWordChar_of_isDigit (hall c hc))
    cases h.of_numeral.1 with
    | whole _ hall => exact hdigits _ hall
    | fraction _ hall _ hall' =>
      exact List.forall_mem_append.2
        ⟨hdigits _ hall, List.forall_mem_cons.2 ⟨by decide, hdigits _ hall'⟩⟩
  | blanks =>
    intro c hc
    rcases Rule.mem_separators.1 (Rule.isGap_iff.1 (h.of_blanks c hc)).1 with
      rfl | rfl | rfl | rfl <;> decide
  | newline =>
    rw [h.eq_newline]
    exact List.forall_mem_singleton.2 (by decide)
  | mark kind spelling =>
    have hall : ∀ m ∈ Rule.marks, m ≠ (.slash, ['/']) → m.2.all plain = true := by decide
    rw [h.eq_spelling]
    refine List.all_eq_true.1 (hall _ (Rule.mem_marks hmem) ?_)
    rintro ⟨⟩
    exact hrule (by decide)
  | _ => exact absurd (by decide) hrule

theorem lawful_of_unclosed {body : List Char} (hmode : r.mode = .code) (hbody : '"' ∉ body) :
    r.Lawful ('"' :: body) ∧ (r.after ('"' :: body)).mode = .string := by
  have hopen : r.read '"' = ⟨.string, some '"'⟩ := by
    rw [read, hmode]
    rfl
  have hstays := @lawful_of_stays ⟨.string, some '"'⟩ body (by decide)
    fun c hc last? => next_string_of_ne (ne_of_mem_of_not_mem hc hbody) last?
  rw [Lawful, after_cons, hopen]
  exact ⟨⟨fun _ => by decide, hstays.1⟩, hstays.2⟩

theorem ready_of_string {body : List Char} (hmode : r.mode = .code) (hbody : '"' ∉ body)
    (rest : List Char) :
    r.Lawful ('"' :: (body ++ ['"'])) ∧ (r.after ('"' :: (body ++ ['"']))).Ready rest := by
  obtain ⟨hlawful, hstring⟩ := lawful_of_unclosed hmode hbody
  rw [← List.cons_append, lawful_append, after_append]
  refine ⟨⟨hlawful, fun _ => by decide, trivial⟩, .inl ⟨?_, fun _ => ?_⟩⟩
  · rw [after_cons, after_nil, read, hstring]
    rfl
  · exact (by decide : some '"' ≠ some '/')

/-- A comment is read up to the newline behind it. -/
theorem ready_of_comment {body : List Char} (hmode : r.mode = .code) (hlast : r.last? ≠ some '/')
    (hbody : '\n' ∉ body) (hrest : ∀ c ∈ rest.head?, c = '\n') :
    r.Lawful ('/' :: '/' :: body) ∧ (r.after ('/' :: '/' :: body)).Ready rest := by
  have hslash : r.read '/' = ⟨.code, some '/'⟩ := by
    rw [read, hmode, Mode.next, if_neg hlast]
  have hopen : (r.read '/').read '/' = ⟨.comment, some '/'⟩ := by
    rw [hslash]
    rfl
  have hstays := @lawful_of_stays ⟨.comment, some '/'⟩ body (by decide)
    fun c hc last? => next_comment_of_ne (ne_of_mem_of_not_mem hc hbody) last?
  refine ⟨⟨fun _ => by decide, fun _ => by decide, ?_⟩, .inr ⟨?_, hrest⟩⟩
  · rw [hopen]
    exact hstays.1
  · rw [after_cons, after_cons, hopen]
    exact hstays.2

theorem ready_of_slash (hmode : r.mode = .code) (hlast : r.last? ≠ some '/')
    (hrest : rest.head? ≠ some '/') : r.Lawful ['/'] ∧ (r.after ['/']).Ready rest := by
  refine ⟨⟨fun _ => by decide, trivial⟩, .inl ⟨?_, fun h => absurd h hrest⟩⟩
  change r.mode.next r.last? '/' = .code
  rw [hmode, Mode.next, if_neg hlast]

/-- Behind a comment only its newline can be taken. -/
theorem ready_of_newline (hmode : r.mode = .comment) (rest : List Char) :
    r.Lawful ['\n'] ∧ (r.after ['\n']).Ready rest := by
  refine ⟨⟨fun hcode => ?_, trivial⟩, .inl ⟨?_, fun _ => ?_⟩⟩
  · rw [hmode] at hcode
    cases hcode
  · change r.mode.next r.last? '\n' = .code
    rw [hmode, Mode.next]
  · exact (by decide : some '\n' ≠ some '/')

theorem eq_newline_of_takes {rule : Rule} (h : rule.Takes (text ++ rest) text)
    (hmem : rule ∈ Rule.table) (hhead : ∀ c ∈ (text ++ rest).head?, c = '\n') : text = ['\n'] := by
  obtain ⟨c, hc, hbegins⟩ := h.begins
  have hall : ∀ rule ∈ Rule.table, rule.begins '\n' = true → rule = .newline := by decide
  rw [hhead c hc] at hbegins
  obtain rfl := hall rule hmem hbegins
  exact h.eq_newline

theorem Ready.step {rule : Rule} (h : r.Ready (text ++ rest))
    (hfirst : Rule.first? (text ++ rest) = some (rule, text)) (hquote : rule ≠ .openQuote) :
    r.Lawful text ∧ (r.after text).Ready rest := by
  have hmem := Rule.mem_table_of_first? hfirst
  have htakes := Rule.takes_of_first? hfirst
  obtain ⟨hmode, hslash⟩ | ⟨hmode, hhead⟩ := h
  · by_cases hplain : rule ∈ [.string, .openQuote, .comment, .mark .slash ['/']]
    · simp only [List.mem_cons, List.not_mem_nil, or_false] at hplain
      rcases hplain with rfl | rfl | rfl | rfl
      · obtain ⟨body, rfl, hbody⟩ := htakes.of_string
        exact ready_of_string hmode hbody rest
      · exact absurd rfl hquote
      · obtain ⟨body, rfl, hbody, hrest⟩ := htakes.of_comment
        exact ready_of_comment hmode (hslash rfl) hbody hrest
      · obtain rfl := htakes.eq_spelling
        refine ready_of_slash hmode (hslash rfl) ?_
        -- two slashes are a comment
        intro hhead
        obtain ⟨further, rfl⟩ := List.head?_eq_some_iff.1 hhead
        have hle := Rule.length_le_of_first? hfirst (by decide) .comment
        simp at hle
    · have hne := (Rule.prefix_of_taken? (Rule.taken?_of_first? hfirst)).1
      exact ready_of_plain hmode hne (plain_of_takes htakes hmem hplain) rest
  · rw [eq_newline_of_takes htakes hmem hhead]
    exact ready_of_newline hmode rest

end Reading

/-- Behind a stretch of a text, where code is read, stands a character outside the alphabet. -/
def Stray (text before : List Char) (c : Char) : Prop :=
  before ++ [c] <+: text ∧ (Reading.start.after before).mode = .code ∧ Reading.alphabet c = false

theorem Reading.Lawful.not_stray {text before : List Char} {c : Char}
    (h : Reading.start.Lawful text) : ¬ Stray text before c := by
  rintro ⟨⟨rest, rfl⟩, hmode, halphabet⟩
  obtain ⟨hbefore, _⟩ := Reading.lawful_append.1 h
  have hc := (Reading.lawful_append.1 hbefore).2.1 hmode
  rw [halphabet] at hc
  cases hc

theorem Stray.length_le {text before before' : List Char} {c c' : Char} (h : Stray text before c)
    (hlawful : Reading.start.Lawful before) (h' : Stray text before' c') :
    before.length ≤ before'.length := by
  by_contra hlength
  have hbefore := (List.prefix_append before [c]).trans h.1
  have hshort : before' ++ [c'] <+: before := by
    refine List.prefix_of_prefix_length_le h'.1 hbefore ?_
    rw [List.length_append, List.length_singleton]
    omega
  exact hlawful.not_stray ⟨hshort, h'.2⟩

/-- Some rule takes a character of the language, in front of whatever else. -/
theorem Rule.exists_takes_of_alphabet {c : Char} (h : Reading.alphabet c = true)
    (rest : List Char) :
    ∃ rule ∈ Rule.table, ∃ text, rule.Takes (c :: rest) text := by
  have htakes : ∃ rule ∈ Rule.table, ∃ text, rule.Takes [c] text := by
    rcases Bool.or_eq_true_iff.1 h with h | h
    · rcases Bool.or_eq_true_iff.1 h with h | h
      · exact ⟨.word, by decide, _, .word (Bool.or_eq_true_iff.2 (.inl h))⟩
      · exact ⟨.numeral, by decide, _, .numeral h⟩
    · have hall : Reading.signs.all fun c => Rule.table.any fun rule =>
          (rule.taken? [c]).isSome := by
        decide
      have hany := List.all_eq_true.1 hall c (of_decide_eq_true h)
      obtain ⟨rule, hmem, htaken⟩ := List.any_eq_true.1 hany
      obtain ⟨text, htaken⟩ := Option.isSome_iff_exists.1 htaken
      exact ⟨rule, hmem, text, Rule.taken?_eq_some_iff.1 htaken⟩
  obtain ⟨rule, hmem, _, htakes⟩ := htakes
  exact ⟨rule, hmem, htakes.append rest⟩

theorem quote_not_mem_of_rest {place : Place} {cs body : List Char}
    (h : (cut place cs).rest = '"' :: body) : '"' ∉ body := by
  intro hmem
  have hnone := first?_rest_cut place cs
  rw [h] at hnone
  rcases Lexeme.first?_eq_none_cases hnone with ⟨_, hfirst⟩ | ⟨hne, _⟩
  · -- the rule for whole strings takes more than the quote, and stands first
    have hless := Rule.length_lt_of_first? hfirst (by decide) (.string hmem) (by decide)
    simp at hless
  · exact hne rfl

namespace Source

variable {source : Source}

/-- Up to every place that a scan comes to, only characters of the language are met in code. -/
theorem ComesTo.ready {before rest : List Char} (h : source.ComesTo before rest) :
    Reading.start.Lawful before ∧ (Reading.start.after before).Ready rest := by
  refine h.induction (P := fun before rest =>
    Reading.start.Lawful before ∧ (Reading.start.after before).Ready rest) ?_ ?_
  · exact ⟨trivial, .inl ⟨rfl, fun _ => by decide⟩⟩
  · rintro before rule text rest ⟨hlawful, hready⟩ hrule hquote
    obtain ⟨hlawful', hready'⟩ := hready.step hrule hquote
    rw [Reading.after_append]
    exact ⟨Reading.lawful_append.2 ⟨hlawful, hlawful'⟩, hready'⟩

/-- How a scan ends: at the end of the text, at the first stray character, or at the quote of a
string that is never closed. -/
inductive Ends (source : Source) : Prop where
  | whole (hlawful : Reading.start.Lawful source.text.toList)
      (hmode : (Reading.start.after source.text.toList).mode ≠ .string)
      (htokens : ∃ tokens, source.tokens = .ok tokens)
  | stray (before : List Char) (c : Char) (hstray : Stray source.text.toList before c)
      (hlawful : Reading.start.Lawful before)
      (htokens : source.tokens =
        .error ⟨.unexpectedCharacter c, ⟨1 + Text.newlines before, source.file⟩⟩)
  | unclosed (before body : List Char) (htext : source.text.toList = before ++ '"' :: body)
      (hmode : (Reading.start.after before).mode = .code) (hquote : '"' ∉ body)
      (hlawful : Reading.start.Lawful source.text.toList)
      (hstring : (Reading.start.after source.text.toList).mode = .string)
      (htokens : source.tokens =
        .error ⟨.unterminatedString, ⟨1 + Text.newlines before, source.file⟩⟩)

theorem ends (source : Source) : source.Ends := by
  have hcomes := source.comesTo_stop
  obtain ⟨hlawful, hready⟩ := hcomes.ready
  have htext := hcomes.append_eq
  have hline := source.stop_line
  generalize hbefore : source.cut.lexemes.flatMap Lexeme.text = before at *
  cases hrest : source.cut.rest with
  | nil =>
    rw [hrest, List.append_nil] at htext
    rw [htext] at hlawful hready
    refine .whole hlawful ?_ ⟨_, tokens_eq_ok_iff.2 ⟨hrest, rfl⟩⟩
    obtain ⟨hmode, _⟩ | ⟨hmode, _⟩ := hready <;> rw [hmode] <;> decide
  | cons c body =>
    have htokens := tokens_eq_error_iff.2 ⟨c, body, hrest, rfl⟩
    rw [hline] at htokens
    rw [hrest] at htext hready
    have hnone := not_takes_of_rest hrest
    obtain ⟨hmode, _⟩ | ⟨_, hhead⟩ := hready
    · by_cases hc : c = '"'
      · subst hc
        have hquote := quote_not_mem_of_rest hrest
        obtain ⟨hbody, hstring⟩ := Reading.lawful_of_unclosed hmode hquote
        refine .unclosed before body htext.symm hmode hquote ?_ ?_ htokens
        · rw [← htext]
          exact Reading.lawful_append.2 ⟨hlawful, hbody⟩
        · rw [← htext, Reading.after_append]
          exact hstring
      · have halphabet : Reading.alphabet c = false := by
          by_contra h
          obtain ⟨rule, hmem, text, htakes⟩ :=
            Rule.exists_takes_of_alphabet (by simpa using h) body
          exact hnone.resolve_left hc rule hmem text htakes
        rw [Fault.ofUncut, if_neg hc] at htokens
        refine .stray before c ⟨⟨body, ?_⟩, hmode, halphabet⟩ hlawful htokens
        rw [← htext, List.append_assoc]
        rfl
    · -- the newline behind a comment is taken
      obtain rfl := hhead c rfl
      exact absurd .newline (hnone.resolve_left (by decide) .newline (by decide) _)

theorem numeral_of_mem_lexemes {lexeme : Lexeme} (hmem : lexeme ∈ source.cut.lexemes)
    (hrule : lexeme.rule = .numeral) : Rule.Numeral lexeme.text := by
  obtain ⟨_, behind, _, _, hfirst⟩ := exists_split_of_mem_lexemes hmem
  have htakes := Rule.takes_of_first? hfirst
  rw [hrule] at htakes
  exact htakes.of_numeral.1

/-- **A source is refused as its characters show.**  A source has no tokens just when a stray
character is met in code or the text ends within a string.  The diagnostic names the first stray
character, or else the string that is not closed, and the line.  No numeral is malformed, and
no character is named that the source does not have. -/
theorem refused_iff_modes (source : Source) :
    ((∃ d, source.tokens = .error d) ↔ (∃ before c, Stray source.text.toList before c) ∨
      (Reading.start.after source.text.toList).mode = .string) ∧
    ((∃ before c, Stray source.text.toList before c) →
      ∃ before c, Stray source.text.toList before c ∧
        (∀ before' c', Stray source.text.toList before' c' → before.length ≤ before'.length) ∧
        source.tokens =
          .error ⟨.unexpectedCharacter c, ⟨1 + Text.newlines before, source.file⟩⟩) ∧
    ((∀ before c, ¬ Stray source.text.toList before c) →
      (Reading.start.after source.text.toList).mode = .string →
      ∃ before body, source.text.toList = before ++ '"' :: body ∧
        (Reading.start.after before).mode = .code ∧ '"' ∉ body ∧
        source.tokens =
          .error ⟨.unterminatedString, ⟨1 + Text.newlines before, source.file⟩⟩) ∧
    (∀ d, source.tokens = .error d → (∀ numeral, d.fault ≠ .malformedNumber numeral) ∧
      ∀ c, d.fault = .unexpectedCharacter c → c ∈ source.text.toList) ∧
    ∀ lexeme ∈ source.cut.lexemes, lexeme.rule = .numeral → Rule.Numeral lexeme.text := by
  have hnumerals : ∀ lexeme ∈ source.cut.lexemes, lexeme.rule = .numeral →
      Rule.Numeral lexeme.text := fun _ => numeral_of_mem_lexemes
  cases source.ends with
  | whole hlawful hmode htokens =>
    have hstray : ∀ before c, ¬ Stray source.text.toList before c :=
      fun before c => hlawful.not_stray
    obtain ⟨tokens, htokens⟩ := htokens
    refine ⟨iff_of_false ?_ ?_, ?_, ?_, ?_, hnumerals⟩
    · rintro ⟨d, herror⟩
      cases htokens.symm.trans herror
    · rintro (⟨before, c, h⟩ | hstring)
      · exact hstray before c h
      · exact hmode hstring
    · rintro ⟨before, c, h⟩
      exact absurd h (hstray before c)
    · exact fun _ hstring => absurd hstring hmode
    · intro d herror
      cases htokens.symm.trans herror
  | stray before c hstray hlawful htokens =>
    refine ⟨iff_of_true ⟨_, htokens⟩ (.inl ⟨before, c, hstray⟩), ?_, ?_, ?_, hnumerals⟩
    · exact fun _ => ⟨before, c, hstray, fun _ _ => hstray.length_le hlawful, htokens⟩
    · exact fun hnot => absurd hstray (hnot before c)
    · intro d herror
      cases htokens.symm.trans herror
      refine ⟨nofun, ?_⟩
      rintro _ ⟨⟩
      exact hstray.1.subset (by simp)
  | unclosed before body htext hmode hquote hlawful hstring htokens =>
    refine ⟨iff_of_true ⟨_, htokens⟩ (.inr hstring), ?_, ?_, ?_, hnumerals⟩
    · rintro ⟨_, _, hstray⟩
      exact absurd hstray hlawful.not_stray
    · exact fun _ _ => ⟨before, body, htext, hmode, hquote, htokens⟩
    · intro d herror
      cases htokens.symm.trans herror
      exact ⟨nofun, nofun⟩

theorem refused_iff_modes_comment :
    (∃ before c, Stray "//@\n1@".toList before c ∧ tokens ⟨"//@\n1@", "shell"⟩ =
      .error ⟨.unexpectedCharacter c, ⟨1 + Text.newlines before, "shell"⟩⟩) ∧
    ∃ before body, "//\"\n\"@".toList = before ++ '"' :: body ∧ tokens ⟨"//\"\n\"@", "shell"⟩ =
      .error ⟨.unterminatedString, ⟨1 + Text.newlines before, "shell"⟩⟩ := by
  constructor
  · have hstray : Stray "//@\n1@".toList "//@\n1".toList '@' :=
      ⟨by decide, by decide, by decide⟩
    obtain ⟨before, c, hfirst, _, htokens⟩ :=
      (refused_iff_modes ⟨"//@\n1@", "shell"⟩).2.1 ⟨_, _, hstray⟩
    exact ⟨before, c, hfirst, htokens⟩
  · have hlawful : Reading.start.Lawful "//\"\n\"@".toList := by decide
    obtain ⟨before, body, htext, _, _, htokens⟩ :=
      (refused_iff_modes ⟨"//\"\n\"@", "shell"⟩).2.2.1 (fun _ _ => hlawful.not_stray) (by decide)
    exact ⟨before, body, htext, htokens⟩

end Source

end Scriptlet

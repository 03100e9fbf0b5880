import Mathlib.Tactic.SplitIfs
import Scriptlet.Source.Tokens
/-!
# What lexemes look like and where they stand

The rule of a lexeme tells its characters.  Only a string reaches over the end of a
line, and it ends with its quote; the other lexemes that mean something hold neither
newlines nor carriage returns.  A lexeme of a text splits the text, and its place is
the one behind what stands before it.
-/

namespace Scriptlet

namespace Rule

/-- What each rule takes from the front of a text. -/
inductive Takes : Rule → List Char → List Char → Prop where
  | word {c cs} (h : isWordStart c = true) : Takes word (c :: cs) (c :: cs.takeWhile isWordChar)
  | numeral {c cs} (h : c.isDigit = true) :
      Takes numeral (c :: cs)
        (c :: (cs.takeWhile Char.isDigit ++ fraction (cs.dropWhile Char.isDigit)))
  | blanks {c cs} (h : isGap c = true) : Takes blanks (c :: cs) (c :: cs.takeWhile isGap)
  | newline {cs} : Takes newline ('\n' :: cs) ['\n']
  | string {cs} (h : '"' ∈ cs) :
      Takes string ('"' :: cs) ('"' :: (cs.takeWhile (· ≠ '"') ++ ['"']))
  | openQuote {cs} : Takes openQuote ('"' :: cs) ['"']
  | comment {cs} : Takes comment ('/' :: '/' :: cs) ('/' :: '/' :: cs.takeWhile (· ≠ '\n'))
  | mark {kind s spelling cs} (h : (s :: spelling).isPrefixOf cs = true) :
      Takes (mark kind (s :: spelling)) cs (s :: spelling)

variable {rule : Rule} {cs text : List Char}

theorem taken?_eq_some_iff : rule.taken? cs = some text ↔ rule.Takes cs text := by
  constructor
  · intro h
    unfold taken? at h
    split at h
    case h_4 => cases h; exact .newline
    case h_6 => cases h; exact .openQuote
    case h_7 => cases h; exact .comment
    case h_9 => cases h
    all_goals
      split_ifs at h with hcond
      cases h
    · exact .word hcond
    · exact .numeral hcond
    · exact .blanks hcond
    · exact .string hcond
    · exact .mark hcond
  · intro h
    cases h <;> simp_all [taken?]

theorem takes_of_first? (h : first? cs = some (rule, text)) : rule.Takes cs text :=
  taken?_eq_some_iff.1 (taken?_of_first? h)

theorem mem_table_of_first? (h : first? cs = some (rule, text)) : rule ∈ table := by
  obtain ⟨other, hmem, hrule⟩ := List.exists_of_findSome?_eq_some h
  obtain ⟨_, _, heq⟩ := Option.map_eq_some_iff.1 hrule
  cases heq
  exact hmem

theorem not_takes_of_first? (hmem : rule ∈ table) (h : first? cs = none) :
    ¬ rule.Takes cs text := by
  intro htakes
  have hnone := List.findSome?_eq_none_iff.1 h rule hmem
  rw [taken?_eq_some_iff.2 htakes] at hnone
  cases hnone

def marks : List (Kind × List Char) :=
  table.filterMap fun
    | mark kind spelling => some (kind, spelling)
    | _ => none

theorem mem_marks {kind : Kind} {spelling : List Char} (h : mark kind spelling ∈ table) :
    (kind, spelling) ∈ marks :=
  List.mem_filterMap.2 ⟨_, h, rfl⟩

def Inline (text : List Char) : Prop := ∀ c ∈ text, c ≠ '\n' ∧ c ≠ '\r'

theorem inline_of_mem_marks {kind : Kind} {spelling : List Char}
    (h : (kind, spelling) ∈ marks) : Inline spelling := by
  have hall : marks.all (fun m => m.2.all fun c => c != '\n' && c != '\r') = true := by decide
  intro c hc
  simpa using List.all_eq_true.1 (List.all_eq_true.1 hall _ h) c hc

theorem ne_of_isWordChar {c : Char} (h : isWordChar c = true) : c ≠ '\n' ∧ c ≠ '\r' := by
  constructor
  · rintro rfl
    exact absurd h (by decide)
  · rintro rfl
    exact absurd h (by decide)

theorem isWordChar_of_isWordStart {c : Char} (h : isWordStart c = true) :
    isWordChar c = true := by
  rcases Bool.or_eq_true_iff.1 h with h | h <;> simp [isWordChar, Char.isAlphanum, h]

theorem isWordChar_of_isDigit {c : Char} (h : c.isDigit = true) : isWordChar c = true := by
  simp [isWordChar, Char.isAlphanum, h]

theorem inline_takeWhile {p : Char → Bool} (hp : ∀ c, p c = true → isWordChar c = true)
    (cs : List Char) : Inline (cs.takeWhile p) := by
  intro c hc
  exact ne_of_isWordChar (hp c (List.all_eq_true.1 List.all_takeWhile c hc))

theorem inline_fraction (cs : List Char) : Inline (fraction cs) := by
  unfold fraction
  split
  case h_1 cs =>
    dsimp only
    split_ifs
    · exact nofun
    · have hdigits := inline_takeWhile (fun _ => isWordChar_of_isDigit) cs
      exact List.forall_mem_cons.2 ⟨by decide, hdigits⟩
  case h_2 => exact nofun

theorem Takes.inline (h : rule.Takes cs text) (hmem : rule ∈ table)
    (hrule : rule ∉ [.newline, .string, .blanks, .comment]) : Inline text := by
  cases h with
  | word hstart =>
    have hword := ne_of_isWordChar (isWordChar_of_isWordStart hstart)
    exact List.forall_mem_cons.2 ⟨hword, inline_takeWhile (fun _ h => h) _⟩
  | numeral hdigit =>
    have hword := ne_of_isWordChar (isWordChar_of_isDigit hdigit)
    have hdigits := inline_takeWhile (fun _ => isWordChar_of_isDigit)
    exact List.forall_mem_cons.2 ⟨hword, List.forall_mem_append.2 ⟨hdigits _, inline_fraction _⟩⟩
  | openQuote => exact List.forall_mem_singleton.2 (by decide)
  | mark => exact inline_of_mem_marks (mem_marks hmem)
  | _ => exact absurd (by decide) hrule

theorem Takes.eq_newline (h : Takes .newline cs text) : text = ['\n'] := by
  cases h
  rfl

theorem Takes.eq_spelling {kind : Kind} {spelling : List Char}
    (h : Takes (.mark kind spelling) cs text) : text = spelling := by
  cases h
  rfl

theorem Takes.getLast?_of_string (h : Takes .string cs text) : text.getLast? = some '"' := by
  cases h
  rw [← List.cons_append, List.getLast?_concat]

end Rule

/-! ## Lexemes of a text -/

theorem exists_split_of_mem_lexemes {place : Place} {cs : List Char} {lexeme : Lexeme}
    (h : lexeme ∈ (cut place cs).lexemes) :
    ∃ pre post, cs = pre ++ (lexeme.text ++ post) ∧ lexeme.start = place.past pre ∧
      Rule.first? (lexeme.text ++ post) = some (lexeme.rule, lexeme.text) := by
  fun_induction cut place cs with
  | case1 => cases h
  | case2 place cs first hfirst further ih =>
    obtain ⟨hrule, hstart, _⟩ := Lexeme.rule_first? hfirst
    obtain ⟨rest, rfl⟩ := (Lexeme.prefix_of_first? hfirst).2
    rcases List.mem_cons.1 h with rfl | h
    · exact ⟨[], rest, rfl, hstart, hrule⟩
    · -- what stands before a later lexeme begins with the first one
      obtain ⟨pre, post, hcs, hplace, hfirst'⟩ := ih h
      rw [List.drop_left] at hcs
      refine ⟨first.text ++ pre, post, by rw [hcs, List.append_assoc], ?_, hfirst'⟩
      rw [hplace, Place.past_append, Lexeme.stop, hstart]

theorem first?_rest_cut (place : Place) (cs : List Char) :
    Lexeme.first? (cut place cs).stop (cut place cs).rest = none := by
  fun_induction cut place cs with
  | case1 place cs h => exact h
  | case2 place cs lexeme h further ih => exact ih

/-- A text that cannot be cut opens a string that is never closed, or no rule applies. -/
theorem Lexeme.first?_eq_none_cases {place : Place} {rest : List Char} {c : Char}
    (h : Lexeme.first? place (c :: rest) = none) :
    c = '"' ∧ Rule.first? (c :: rest) = some (.openQuote, ['"']) ∨
      c ≠ '"' ∧ Rule.first? (c :: rest) = none := by
  unfold first? at h
  split at h
  case h_1 hfirst =>
    refine .inr ⟨?_, hfirst⟩
    rintro rfl
    exact Rule.not_takes_of_first? (by decide) hfirst .openQuote
  case h_2 hfirst =>
    cases Rule.takes_of_first? hfirst
    exact .inl ⟨rfl, hfirst⟩
  case h_3 => cases h

/-- The character at which a text cannot be cut is a quote or begins nothing at all. -/
theorem not_takes_of_rest {place : Place} {cs rest : List Char} {c : Char}
    (h : (cut place cs).rest = c :: rest) :
    c = '"' ∨ ∀ rule ∈ Rule.table, ∀ text, ¬ rule.Takes (c :: rest) text := by
  have hnone := first?_rest_cut place cs
  rw [h] at hnone
  rcases Lexeme.first?_eq_none_cases hnone with ⟨hc, _⟩ | ⟨_, hfirst⟩
  · exact .inl hc
  · refine .inr ?_
    intro rule hmem text
    exact Rule.not_takes_of_first? hmem hfirst

inductive Lexeme.Means (lexeme : Lexeme) : Token → Prop where
  | word (h : lexeme.rule = .word) :
      Means lexeme ⟨Kind.ofWord (String.ofList lexeme.text), String.ofList lexeme.text, none,
        lexeme.stop.line⟩
  | numeral (h : lexeme.rule = .numeral) :
      Means lexeme ⟨.number, String.ofList lexeme.text,
        some (.number (Number.ofText lexeme.text)), lexeme.stop.line⟩
  | string (h : lexeme.rule = .string) :
      Means lexeme ⟨.string, String.ofList lexeme.text,
        some (.string (String.ofList lexeme.text.tail.dropLast)), lexeme.stop.line⟩
  | mark {kind : Kind} {spelling : List Char} (h : lexeme.rule = .mark kind spelling) :
      Means lexeme ⟨kind, String.ofList lexeme.text, none, lexeme.stop.line⟩

theorem Lexeme.token?_eq_some_iff {lexeme : Lexeme} {t : Token} :
    lexeme.token? = some t ↔ lexeme.Means t := by
  constructor
  · intro h
    unfold token? at h
    split at h <;> cases h
    case h_1 hrule => exact .word hrule
    case h_2 hrule => exact .numeral hrule
    case h_3 hrule => exact .string hrule
    case h_4 hrule => exact .mark hrule
  · intro h
    cases h <;> simp_all [token?]

namespace Lexeme.Means

variable {lexeme : Lexeme} {t : Token}

theorem lexeme_eq (h : lexeme.Means t) : t.lexeme = String.ofList lexeme.text := by
  cases h <;> rfl

theorem line_eq (h : lexeme.Means t) : t.line = lexeme.stop.line := by
  cases h <;> rfl

end Lexeme.Means

end Scriptlet

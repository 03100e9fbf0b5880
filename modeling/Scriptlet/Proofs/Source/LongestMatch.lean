import Mathlib.Data.List.MinMax
import Scriptlet.Proofs.Source.Extents
/-!
# The first match is the longest

A scan may choose its rules in several ways.  Taking the first rule of the table that applies
comes to the same as taking the one that takes the most, in whatever order the rules stand: no
two of them take equally much.  So marks of two characters, words and numerals are taken whole.
-/

namespace Scriptlet

open Rule

/-- The rule that comes first among those that apply takes more than the others. -/
def FirstIsLongest (rest : List Char) : Prop :=
  ∃ (before : List Rule) (first : Rule) (after : List Rule) (longest : List Char),
    table = before ++ first :: after ∧ first.taken? rest = some longest ∧
    (∀ other ∈ before, other.taken? rest = none) ∧
    ∀ other ∈ after, ∀ text, other.taken? rest = some text → text.length < longest.length

theorem firstIsLongest_of_takes {rule : Rule} {rest text : List Char} (hmem : rule ∈ table)
    (htakes : rule.Takes rest text) : FirstIsLongest rest := by
  cases hfirst : Rule.first? rest with
  | none => exact absurd htakes (not_takes_of_first? hmem hfirst)
  | some taken =>
    obtain ⟨first, longest⟩ := taken
    obtain ⟨before, after, htable, hlongest, hbefore⟩ := first?_eq_some_iff.1 hfirst
    refine ⟨before, first, after, longest, htable, taken?_eq_some_iff.2 hlongest, ?_, ?_⟩
    · intro other hother
      rw [Option.eq_none_iff_forall_ne_some]
      intro t ht
      exact hbefore other hother t (taken?_eq_some_iff.1 ht)
    · intro other hother t ht
      exact outtakes_of_split htable hother rest longest t hlongest (taken?_eq_some_iff.1 ht)

/-! ## Scanning by a choice of rules -/

/-- A way to choose the rule that applies to a text, among those that take something. -/
@[ext]
structure Choice where
  pick? : List Char → Option (Rule × List Char)
  taken?_of_pick? {cs text : List Char} {rule : Rule} :
    pick? cs = some (rule, text) → rule.taken? cs = some text

namespace Choice

def first : Choice := ⟨Rule.first?, taken?_of_first?⟩

def candidates (rules : List Rule) (cs : List Char) : List (Rule × List Char) :=
  rules.filterMap fun rule => (rule.taken? cs).map (rule, ·)

theorem mem_candidates {rules : List Rule} {cs text : List Char} {rule : Rule} :
    (rule, text) ∈ candidates rules cs ↔ rule ∈ rules ∧ rule.taken? cs = some text := by
  simp [candidates]

def longest (rules : List Rule) : Choice where
  pick? cs := (candidates rules cs).argmax fun taken => taken.2.length
  taken?_of_pick? h := (mem_candidates.1 (List.argmax_mem h)).2

def scan (choice : Choice) (file : String) (place : Place) (cs : List Char) :
    Except Diagnostic (List Token) :=
  match cs with
  | [] => .ok [Token.eof place.line]
  | c :: further =>
    match _h : choice.pick? (c :: further) with
    | none => .error ⟨.unexpectedCharacter c, ⟨place.line, file⟩⟩
    | some (.openQuote, _) => .error ⟨.unterminatedString, ⟨place.line, file⟩⟩
    | some (rule, text) => do
      let others ← scan choice file (place.past text) ((c :: further).drop text.length)
      return (Lexeme.token? ⟨rule, text, place⟩).toList ++ others
termination_by cs.length
decreasing_by
  have hne := (prefix_of_taken? (choice.taken?_of_pick? _h)).1
  have hpos := List.length_pos_iff.2 hne
  simp only [List.length_drop, List.length_cons]
  omega

theorem longest_eq_first {rules : List Rule} (h : rules.Perm table) : longest rules = first := by
  ext cs : 2
  change (candidates rules cs).argmax _ = Rule.first? cs
  cases hfirst : Rule.first? cs with
  | none =>
    rw [List.argmax_eq_none, List.eq_nil_iff_forall_not_mem]
    rintro ⟨rule, text⟩ hmem
    obtain ⟨hrule, htaken⟩ := mem_candidates.1 hmem
    exact not_takes_of_first? (h.mem_iff.1 hrule) hfirst (taken?_eq_some_iff.1 htaken)
  | some taken =>
    obtain ⟨rule, text⟩ := taken
    have hmem : (rule, text) ∈ candidates rules cs :=
      mem_candidates.2 ⟨h.mem_iff.2 (mem_table_of_first? hfirst), taken?_of_first? hfirst⟩
    have hless : ∀ taken ∈ candidates rules cs, taken ≠ (rule, text) →
        taken.2.length < text.length := by
      rintro ⟨other, t⟩ hother hne
      obtain ⟨hother, htaken⟩ := mem_candidates.1 hother
      apply length_lt_of_first? hfirst (h.mem_iff.1 hother) (taken?_eq_some_iff.1 htaken)
      rintro rfl
      rw [taken?_of_first? hfirst] at htaken
      cases htaken
      exact hne rfl
    rw [List.argmax_eq_some_iff]
    refine ⟨hmem, ?_, ?_⟩
    · intro taken htaken
      by_cases heq : taken = (rule, text)
      · rw [heq]
      · exact (hless taken htaken heq).le
    · intro taken htaken hle
      by_cases heq : taken = (rule, text)
      · rw [heq]
      · exact absurd (hless taken htaken heq) (Nat.not_lt.2 hle)

/-! ## Scanning by the first rule -/

variable {choice : Choice} {file : String} {place : Place} {text rest : List Char} {rule : Rule}

theorem scan_of_none {c : Char} (h : choice.pick? (c :: rest) = none) :
    choice.scan file place (c :: rest) =
      .error ⟨.unexpectedCharacter c, ⟨place.line, file⟩⟩ := by
  rw [scan]
  split <;> simp_all

theorem scan_of_quote {c : Char} (h : choice.pick? (c :: rest) = some (.openQuote, text)) :
    choice.scan file place (c :: rest) = .error ⟨.unterminatedString, ⟨place.line, file⟩⟩ := by
  rw [scan]
  split <;> simp_all

theorem scan_of_pick (h : choice.pick? (text ++ rest) = some (rule, text))
    (hquote : rule ≠ .openQuote) :
    choice.scan file place (text ++ rest) =
      (choice.scan file (place.past text) rest).map
        ((Lexeme.token? ⟨rule, text, place⟩).toList ++ ·) := by
  have hne := (prefix_of_taken? (choice.taken?_of_pick? h)).1
  obtain ⟨c, tail, rfl⟩ := List.exists_cons_of_ne_nil hne
  have hdrop : (c :: (tail ++ rest)).drop (c :: tail).length = rest := List.drop_left
  rw [List.cons_append] at h ⊢
  rw [scan]
  split
  · simp_all
  · simp_all
  · rename_i found hfound
    rw [h] at hfound
    cases hfound
    rw [hdrop]
    rfl

end Choice

def Cut.result (file : String) (c : Cut) : Except Diagnostic (List Token) :=
  match c.rest with
  | [] => .ok (c.tokens ++ [Token.eof c.stop.line])
  | uncut :: _ => .error ⟨.ofUncut uncut, ⟨c.stop.line, file⟩⟩

theorem Cut.result_uncut (file : String) (lexemes : List Lexeme) (stop : Place) (c : Char)
    (rest : List Char) :
    (⟨lexemes, stop, c :: rest⟩ : Cut).result file = .error ⟨.ofUncut c, ⟨stop.line, file⟩⟩ := rfl

theorem Cut.result_after (file : String) (lexeme : Lexeme) (c : Cut) :
    (c.after [lexeme]).result file =
      (c.result file).map (lexeme.token?.toList ++ ·) := by
  have htokens : (c.after [lexeme]).tokens = lexeme.token?.toList ++ c.tokens := by
    rw [tokens_after]
    cases h : lexeme.token? <;> simp [h]
  unfold result
  rw [htokens]
  cases h : c.rest with
  | nil => simp [Cut.after, h, Except.map]
  | cons uncut rest => simp [Cut.after, h, Except.map]

/-- Scanning by the first rule cuts the text and makes tokens of the lexemes. -/
theorem Choice.scan_first (file : String) (place : Place) (cs : List Char) :
    first.scan file place cs = (cut place cs).result file := by
  induction place, cs using cut_induction with
  | uncut place cs hnone =>
    rw [cut_of_none hnone]
    cases cs with
    | nil => rw [scan]; rfl
    | cons c rest =>
      rw [Cut.result_uncut]
      rcases Lexeme.first?_eq_none_cases hnone with ⟨rfl, hfirst⟩ | ⟨hne, hfirst⟩
      · exact scan_of_quote hfirst
      · rw [scan_of_none hfirst, Fault.ofUncut, if_neg hne]
  | lexeme place rule text rest hrule hquote ih =>
    rw [cut_append place hrule hquote, Cut.result_after, ← ih]
    exact scan_of_pick hrule hquote

theorem Source.tokens_eq_scan (source : Source) :
    source.tokens = Choice.first.scan source.file Place.start source.text.toList :=
  (Choice.scan_first source.file Place.start source.text.toList).symm

/-! ## Words -/

/-- Characters that belong together stand before a place only if they are digits: a numeral may
end there, but neither a word nor, in front of a digit, a numeral. -/
structure Severed (before rest : List Char) : Prop where
  digits : (∃ c ∈ rest.head?, isWordChar c = true) →
    ∀ run, run <:+ before → (∀ c ∈ run, isWordChar c = true) → ∀ c ∈ run, c.isDigit = true
  none : (∃ c ∈ rest.head?, c.isDigit = true) → ∀ c ∈ before.getLast?, isWordChar c = false

theorem suffix_of_append_cons {α : Type} {run as bs : List α} {c : α} (h : run <:+ as ++ c :: bs)
    (hc : c ∉ run) : run <:+ bs := by
  rcases List.suffix_or_suffix_of_suffix h (List.suffix_append as (c :: bs)) with hrun | hrun
  · rcases List.suffix_cons_iff.1 hrun with rfl | hrun
    · exact absurd List.mem_cons_self hc
    · exact hrun
  · exact absurd (hrun.subset List.mem_cons_self) hc

theorem suffix_of_suffix_append {run as bs : List Char}
    (h : run <:+ as ++ bs) (hrun : ∀ c ∈ run, isWordChar c = true)
    (hlast : ∀ c ∈ as.getLast?, isWordChar c = false) : run <:+ bs := by
  rcases as.eq_nil_or_concat with rfl | ⟨as, c, rfl⟩
  · exact h
  · rw [List.concat_eq_append, List.append_assoc] at h
    apply suffix_of_append_cons h
    intro hmem
    have hnot := hlast c (by simp)
    rw [hrun c hmem] at hnot
    cases hnot

/-- Behind what a rule takes, unless it is a numeral, no word and no numeral goes on. -/
theorem not_isWordChar_of_takes {rule : Rule} {text rest : List Char}
    (h : rule.Takes (text ++ rest) text) (hmem : rule ∈ table) (hrule : rule ≠ .numeral) :
    (∀ c ∈ rest.head?, isWordChar c = false) ∨ ∀ c ∈ text.getLast?, isWordChar c = false := by
  cases rule with
  | word => exact .inl h.of_word.2.2
  | numeral => exact absurd rfl hrule
  | blanks =>
    refine .inr fun c hc => isWordChar_of_mem_separators ?_
    exact (isGap_iff.1 (h.of_blanks c (List.mem_of_getLast? hc))).1
  | newline | openQuote =>
    right
    generalize text ++ rest = cs at h
    cases h
    rintro c ⟨⟩
    decide
  | string =>
    right
    rw [h.getLast?_of_string]
    rintro c ⟨⟩
    decide
  | comment =>
    obtain ⟨_, _, _, hstop⟩ := h.of_comment
    refine .inl fun c hc => ?_
    rw [hstop c hc]
    decide
  | mark kind spelling =>
    have hall : ∀ m ∈ marks, m.2.all (!isWordChar ·) = true := by decide
    rw [h.eq_spelling]
    refine .inr fun c hc => ?_
    simpa using List.all_eq_true.1 (hall _ (mem_marks hmem)) c (List.mem_of_getLast? hc)

theorem Severed.append {rule : Rule} {before text rest : List Char}
    (h : Severed before (text ++ rest)) (hmem : rule ∈ table)
    (htakes : rule.Takes (text ++ rest) text) : Severed (before ++ text) rest := by
  by_cases hnumeral : rule = .numeral
  · subst hnumeral
    obtain ⟨hnumeral, hstop, _⟩ := htakes.of_numeral
    obtain ⟨d, hd, hdigit⟩ := hnumeral.exists_head
    have hbefore := h.none ⟨d, by simp [Option.mem_def.1 hd], hdigit⟩
    refine ⟨fun _ run hsuffix hrun => ?_, ?_⟩
    · cases hnumeral with
      | whole _ hdigits =>
        have hrun' := suffix_of_suffix_append hsuffix hrun hbefore
        exact fun c hc => hdigits c (hrun'.subset hc)
      | fraction _ _ _ hplaces =>
        rw [← List.append_assoc] at hsuffix
        have hrun' := suffix_of_append_cons hsuffix (fun hmem => absurd (hrun _ hmem) (by decide))
        exact fun c hc => hplaces c (hrun'.subset hc)
    · rintro ⟨c, hc, hc'⟩
      rw [hstop c hc] at hc'
      cases hc'
  · rcases not_isWordChar_of_takes htakes hmem hnumeral with hbehind | hlast
    · refine ⟨?_, ?_⟩
      · rintro ⟨c, hc, hword⟩
        rw [hbehind c hc] at hword
        cases hword
      · rintro ⟨c, hc, hdigit⟩
        have hword := isWordChar_of_isDigit hdigit
        rw [hbehind c hc] at hword
        cases hword
    · have hne := (prefix_of_taken? (taken?_eq_some_iff.2 htakes)).1
      have hend : ∀ c ∈ (before ++ text).getLast?, isWordChar c = false := by
        rw [List.getLast?_append_of_ne_nil before hne]
        exact hlast
      refine ⟨fun _ run hsuffix hrun => ?_, fun _ => hend⟩
      rw [← List.append_nil (before ++ text)] at hsuffix
      have hnil := suffix_of_suffix_append hsuffix hrun hend
      rw [List.suffix_nil.1 hnil]
      exact nofun

theorem Source.ComesTo.severed {source : Source} {before rest : List Char}
    (h : source.ComesTo before rest) : Severed before rest := by
  refine h.induction ?_ ?_
  · refine ⟨?_, nofun⟩
    intro _ run hrun _
    rw [List.suffix_nil.1 hrun]
    exact nofun
  · intro before rule text rest hsevered hrule _
    exact hsevered.append (mem_table_of_first? hrule) (takes_of_first? hrule)

/-- A word that is taken whole: a run of letters and digits, of which none are left behind it,
nor in front of it, but for digits of a numeral. -/
structure WholeWord (before word behind : List Char) : Prop where
  start : ∃ c ∈ word.head?, c.isDigit = false
  word : ∀ c ∈ word, isWordChar c = true
  behind : ∀ c ∈ behind.head?, isWordChar c = false
  before : ∀ run, run <:+ before → (∀ c ∈ run, isWordChar c = true) → ∀ c ∈ run, c.isDigit = true

theorem Severed.wholeWord {before text rest : List Char} (h : Severed before (text ++ rest))
    (htakes : Rule.word.Takes (text ++ rest) text) : WholeWord before text rest := by
  obtain ⟨⟨c, hc, hstart⟩, hword, hbehind⟩ := htakes.of_word
  refine ⟨⟨c, hc, ?_⟩, hword, hbehind, h.digits ⟨c, ?_, isWordChar_of_isWordStart hstart⟩⟩
  · by_contra hdigit
    have hnot := isWordStart_of_isDigit (by simpa using hdigit)
    rw [hstart] at hnot
    cases hnot
  · simp [Option.mem_def.1 hc]

theorem Kind.ofWord_eq_iff {word : String} {kind : Kind} :
    Kind.ofWord word = kind ↔ (word, kind) ∈ Kind.reserved ∨
      kind = .identifier ∧ word ∉ Kind.reserved.map Prod.fst := by
  have hlookup : ∀ e ∈ reserved, reserved.lookup e.1 = some e.2 := by decide
  rw [ofWord, ofReserved?]
  by_cases hmem : word ∈ reserved.map Prod.fst
  · obtain ⟨⟨_, found⟩, hfound, rfl⟩ := List.mem_map.1 hmem
    rw [hlookup _ hfound, Option.getD_some]
    constructor
    · rintro rfl
      exact .inl hfound
    · rintro (hkind | ⟨_, hnot⟩)
      · exact Option.some.inj ((hlookup _ hfound).symm.trans (hlookup _ hkind))
      · exact absurd hmem hnot
  · have hnone : reserved.lookup word = none := by
      rw [List.lookup_eq_none_iff]
      intro e he
      exact bne_iff_ne.2 fun heq => hmem (heq ▸ List.mem_map_of_mem he)
    rw [hnone, Option.getD_none]
    constructor
    · rintro rfl
      exact .inr ⟨rfl, hmem⟩
    · rintro (hkind | ⟨rfl, _⟩)
      · exact absurd (List.mem_map_of_mem hkind) hmem
      · rfl

/-! ## Numerals -/

theorem point_mem_iff {text rest : List Char} (h : Rule.numeral.Takes (text ++ rest) text) :
    '.' ∈ text ↔ ∃ digits d further, text ++ rest = digits ++ '.' :: d :: further ∧
      (∀ c ∈ digits, c.isDigit = true) ∧ d.isDigit = true := by
  obtain ⟨hnumeral, hstop, hpoint⟩ := h.of_numeral
  cases hnumeral with
  | whole _ hdigits =>
    have hnot : '.' ∉ text := fun hmem => absurd (hdigits _ hmem) (by decide)
    refine iff_of_false hnot ?_
    rintro ⟨digits, d, further, htext, hdigits', hd⟩
    -- both are the digits in front
    have htaken : (text ++ rest).takeWhile Char.isDigit = text := by
      rw [List.takeWhile_append_of_pos hdigits]
      rcases rest with - | ⟨c, rest⟩
      · exact List.append_nil text
      · rw [List.takeWhile_cons_of_neg (by simp [hstop c rfl]), List.append_nil]
    rw [htext, List.takeWhile_append_of_pos hdigits',
      List.takeWhile_cons_of_neg (by decide), List.append_nil] at htaken
    subst htaken
    have hnot' := hpoint hnot d further (List.append_cancel_left htext)
    rw [hd] at hnot'
    cases hnot'
  | @fraction digits places _ hdigits hne hplaces =>
    refine iff_of_true (by simp) ?_
    obtain ⟨d, places, rfl⟩ := List.exists_cons_of_ne_nil hne
    exact ⟨digits, d, places ++ rest, by simp, hdigits, hplaces d List.mem_cons_self⟩

/-! ## Pairs of characters -/

/-- The pairs of characters that are not taken one by one. -/
def pairs : List (List Char) := [['!', '='], ['=', '='], ['<', '='], ['>', '='], ['/', '/']]

theorem exists_takes_pair {pair rest : List Char} (hpair : pair ∈ pairs) (h : pair <+: rest) :
    ∃ rule ∈ table, ∃ text, rule.Takes rest text ∧ pair.length ≤ text.length := by
  have hall : ∀ pair ∈ pairs, pair.length = 2 ∧
      (pair = ['/', '/'] ∨ ∃ m ∈ marks, m.2 = pair ∧ mark m.1 m.2 ∈ table) := by decide
  obtain ⟨hlength, rfl | ⟨⟨kind, spelling⟩, _, rfl, hrule⟩⟩ := hall pair hpair
  · obtain ⟨further, rfl⟩ := h
    exact ⟨.comment, by decide, _, .comment, by simp⟩
  · obtain ⟨s, spelling, rfl⟩ := List.exists_cons_of_length_eq_add_one hlength
    exact ⟨_, hrule, _, .mark (List.isPrefixOf_iff_prefix.2 h), le_rfl⟩

theorem prefix_of_pair {pair rest : List Char} (hpair : pair ∈ pairs) (h : pair <+: rest) :
    ∃ rule text, Rule.first? rest = some (rule, text) ∧ rule ≠ .openQuote ∧ pair <+: text := by
  obtain ⟨other, hmem, t, htakes, hle⟩ := exists_takes_pair hpair h
  cases hfirst : Rule.first? rest with
  | none => exact absurd htakes (not_takes_of_first? hmem hfirst)
  | some taken =>
    obtain ⟨rule, text⟩ := taken
    have hlength : pair.length ≤ text.length :=
      hle.trans (length_le_of_first? hfirst hmem htakes)
    refine ⟨rule, text, rfl, ?_, ?_⟩
    · rintro rfl
      have hall : ∀ pair ∈ pairs, 1 < pair.length := by decide
      cases takes_of_first? hfirst
      exact absurd (hall pair hpair) (Nat.not_lt.2 hlength)
    · exact List.prefix_of_prefix_length_le h (prefix_of_taken? (taken?_of_first? hfirst)).2 hlength

/-! ## Whole tokens -/

def Kind.words : List Kind := identifier :: reserved.map Prod.snd

/-- A token is as long as it can be between what stands before it and behind it. -/
structure Token.Whole (t : Token) (before behind : List Char) : Prop where
  word : t.kind ∈ Kind.words → WholeWord before t.lexeme.toList behind
  kind : t.kind ∈ Kind.words → ∀ kind, t.kind = kind ↔ (t.lexeme, kind) ∈ Kind.reserved ∨
    kind = .identifier ∧ t.lexeme ∉ Kind.reserved.map Prod.fst
  point : t.kind = .number → ('.' ∈ t.lexeme.toList ↔ ∃ digits d further,
    t.lexeme.toList ++ behind = digits ++ '.' :: d :: further ∧
      (∀ c ∈ digits, c.isDigit = true) ∧ d.isDigit = true)

/-- Words and numerals are never left out of the tokens. -/
theorem Lexeme.exists_token_of_rule (lexeme : Lexeme) :
    (lexeme.rule = .word → ∃ t, lexeme.token? = some t ∧ t.kind ∈ Kind.words) ∧
    (lexeme.rule = .numeral → ∃ t, lexeme.token? = some t ∧ t.kind = .number) := by
  constructor
  · intro hrule
    exact ⟨_, token?_eq_some_iff.2 (.word hrule), Kind.ofWord_mem _⟩
  · intro hrule
    exact ⟨_, token?_eq_some_iff.2 (.numeral hrule), rfl⟩

namespace Lexeme.Means

variable {lexeme : Lexeme} {t : Token} {before behind : List Char}

theorem rule_of_mem_words (h : lexeme.Means t) (hmem : lexeme.rule ∈ table)
    (hkind : t.kind ∈ Kind.words) : lexeme.rule = .word ∧ t.kind = Kind.ofWord t.lexeme := by
  cases h with
  | word hrule => exact ⟨hrule, rfl⟩
  | numeral => exact absurd hkind (by decide : Kind.number ∉ Kind.words)
  | string => exact absurd hkind (by decide : Kind.string ∉ Kind.words)
  | mark hrule =>
    have hall : ∀ m ∈ marks, m.1 ∉ Kind.words := by decide
    rw [hrule] at hmem
    exact absurd hkind (hall _ (mem_marks hmem))

theorem rule_of_number (h : lexeme.Means t) (hmem : lexeme.rule ∈ table)
    (hkind : t.kind = .number) : lexeme.rule = .numeral := by
  have hvalued : t.kind ∈ [Kind.eof, .number, .string] := by
    rw [hkind]
    decide
  cases h with
  | word => exact absurd hvalued (Kind.not_mem_valued_ofWord _)
  | numeral hrule => exact hrule
  | string => cases hkind
  | mark hrule =>
    rw [hrule] at hmem
    exact absurd hvalued (Rule.not_mem_valued_of_mem_marks (mem_marks hmem))

theorem whole (h : lexeme.Means t) (hmem : lexeme.rule ∈ table)
    (htakes : lexeme.rule.Takes (lexeme.text ++ behind) lexeme.text)
    (hsevered : Severed before (lexeme.text ++ behind)) : t.Whole before behind := by
  have htext : t.lexeme.toList = lexeme.text := by
    rw [h.lexeme_eq, String.toList_ofList]
  refine ⟨?_, ?_, ?_⟩
  · intro hkind
    rw [(h.rule_of_mem_words hmem hkind).1] at htakes
    rw [htext]
    exact hsevered.wholeWord htakes
  · intro hkind kind
    rw [(h.rule_of_mem_words hmem hkind).2]
    exact Kind.ofWord_eq_iff
  · intro hkind
    rw [h.rule_of_number hmem hkind] at htakes
    rw [htext]
    exact point_mem_iff htakes

end Lexeme.Means

namespace Source

variable {source : Source}

/-- Some lexeme stands where a pair of characters stands, and takes both. -/
theorem ComesTo.exists_lexeme_of_pair {before rest pair : List Char}
    (h : source.ComesTo before rest) (hpair : pair ∈ pairs) (hfront : pair <+: rest) :
    ∃ past lexeme future, source.cut.lexemes = past ++ lexeme :: future ∧
      past.flatMap Lexeme.text = before ∧ pair <+: lexeme.text := by
  obtain ⟨rule, text, hfirst, hquote, htaken⟩ := prefix_of_pair hpair hfront
  obtain ⟨past, future, hsplit, rfl, rfl⟩ := h
  cases future with
  | nil =>
    have hnone := first?_rest_cut Place.start source.text.toList
    have hsome := Lexeme.first?_of_rule source.cut.stop hfirst hquote
    cases hsome.symm.trans hnone
  | cons lexeme future =>
    obtain ⟨hrule, _⟩ := Lexeme.rule_first? (first?_of_lexemes hsplit)
    cases hrule.symm.trans hfirst
    exact ⟨past, lexeme, future, hsplit, rfl, htaken⟩

theorem whole_of_lexemes {past future : List Lexeme} {lexeme : Lexeme} {t : Token}
    (hsplit : source.cut.lexemes = past ++ lexeme :: future) (ht : lexeme.token? = some t) :
    past.flatMap Lexeme.text ++ t.lexeme.toList ++
        (future.flatMap Lexeme.text ++ source.cut.rest) = source.text.toList ∧
      t.Whole (past.flatMap Lexeme.text) (future.flatMap Lexeme.text ++ source.cut.rest) := by
  have hcomes : source.ComesTo (past.flatMap Lexeme.text)
      (lexeme.text ++ (future.flatMap Lexeme.text ++ source.cut.rest)) :=
    ⟨past, lexeme :: future, hsplit, rfl, by rw [List.flatMap_cons, List.append_assoc]⟩
  have hmeans := Lexeme.token?_eq_some_iff.1 ht
  have htext : t.lexeme.toList = lexeme.text := by
    rw [hmeans.lexeme_eq, String.toList_ofList]
  obtain ⟨hrule, _⟩ := Lexeme.rule_first? (first?_of_lexemes hsplit)
  have htakes := takes_of_first? hrule
  rw [List.flatMap_cons, List.append_assoc] at htakes
  refine ⟨?_, hmeans.whole (mem_table_of_first? hrule) htakes hcomes.severed⟩
  rw [htext, List.append_assoc]
  exact hcomes.append_eq

/-- **The first match is the longest match.**  Wherever a scan comes to and some rule applies,
the first rule that does takes more than every other one, so a scan by whichever rule takes the
most, in any order of the rules, has the same result.  Words and numerals become tokens.  Words
are taken whole and are reserved just when they are listed, a numeral takes a point just when a
digit stands behind it, and the pairs of characters are not taken one by one. -/
theorem first_match_is_longest (source : Source) :
    (∀ before rest : List Char, source.ComesTo before rest →
      ∀ rule ∈ table, rule.taken? rest ≠ none → FirstIsLongest rest) ∧
    (∀ rules : List Rule, rules.Perm table →
      (Choice.longest rules).scan source.file Place.start source.text.toList = source.tokens) ∧
    (∀ lexeme : Lexeme,
      (lexeme.rule = .word → ∃ t, lexeme.token? = some t ∧ t.kind ∈ Kind.words) ∧
      (lexeme.rule = .numeral → ∃ t, lexeme.token? = some t ∧ t.kind = .number)) ∧
    (∀ (past : List Lexeme) (lexeme : Lexeme) (future : List Lexeme) (t : Token),
      source.cut.lexemes = past ++ lexeme :: future →
      lexeme.token? = some t → past.flatMap Lexeme.text ++ t.lexeme.toList ++
          (future.flatMap Lexeme.text ++ source.cut.rest) = source.text.toList ∧
        t.Whole (past.flatMap Lexeme.text) (future.flatMap Lexeme.text ++ source.cut.rest)) ∧
    ∀ before rest pair : List Char, source.ComesTo before rest → pair ∈ pairs → pair <+: rest →
      ∃ (past : List Lexeme) (lexeme : Lexeme) (future : List Lexeme),
        source.cut.lexemes = past ++ lexeme :: future ∧
        past.flatMap Lexeme.text = before ∧ pair <+: lexeme.text := by
  refine ⟨?_, ?_, Lexeme.exists_token_of_rule, ?_, ?_⟩
  · intro before rest _ rule hmem htaken
    obtain ⟨text, htaken⟩ := Option.ne_none_iff_exists'.1 htaken
    exact firstIsLongest_of_takes hmem (taken?_eq_some_iff.1 htaken)
  · intro rules hrules
    rw [source.tokens_eq_scan, Choice.longest_eq_first hrules]
  · intro past lexeme future t hsplit ht
    exact whole_of_lexemes hsplit ht
  · intro before rest pair hcomes hpair hfront
    exact hcomes.exists_lexeme_of_pair hpair hfront

theorem first_match_is_longest_or :
    FirstIsLongest "or!=".toList ∧
    (Choice.longest table.reverse).scan "shell" Place.start "5or!=".toList =
      tokens ⟨"5or!=", "shell"⟩ ∧
    Token.Whole ⟨.orWord, "or", none, 1⟩ "5".toList "!=".toList ∧
    ∃ past lexeme future, (cut ⟨"5or!=", "shell"⟩).lexemes = past ++ lexeme :: future ∧
      past.flatMap Lexeme.text = "5or".toList ∧ ['!', '='] <+: lexeme.text := by
  have hlexemes : (cut ⟨"5or!=", "shell"⟩).lexemes =
      [⟨.numeral, ['5'], ⟨0, 1⟩⟩, ⟨.word, ['o', 'r'], ⟨1, 1⟩⟩,
        ⟨.mark .notEquals ['!', '='], ['!', '='], ⟨3, 1⟩⟩] := by
    decide +kernel
  have hrest : (cut ⟨"5or!=", "shell"⟩).rest = [] := by decide +kernel
  obtain ⟨hfirst, hscan, _, hwhole, hpairs⟩ := first_match_is_longest ⟨"5or!=", "shell"⟩
  refine ⟨?_, hscan _ (List.reverse_perm table), ?_, ?_⟩
  · refine hfirst "5".toList _ ⟨[_], [_, _], hlexemes, by decide, ?_⟩ .word (by decide) (by decide)
    rw [hrest]
    decide
  · have hor := (hwhole [_] _ [_] ⟨.orWord, "or", none, 1⟩ hlexemes (by decide)).2
    rwa [hrest] at hor
  · refine hpairs _ ['!', '='] _ ⟨[_, _], [_], hlexemes, by decide, ?_⟩ (by decide)
      List.prefix_rfl
    rw [hrest]
    decide

end Source

end Scriptlet

import Mathlib.Data.List.TakeWhile
import Mathlib.Tactic.ByContra
import Scriptlet.Proofs.Source.Lexemes
/-!
# Where a lexeme ends

A lexeme that means something ends at a separator at the latest, whatever stands behind
that, and blanks and comments end at a newline.  So the rule that applies to a text, and
what it takes, are the same when more text follows behind a separator.  The text of a
lexeme alone is cut into that lexeme again.
-/

namespace Scriptlet

namespace Rule

def separators : List Char := [' ', '\t', '\r', '\n']

theorem mem_separators {w : Char} :
    w ∈ separators ↔ w = ' ' ∨ w = '\t' ∨ w = '\r' ∨ w = '\n' := by
  simp [separators]

theorem isGap_iff {w : Char} : isGap w = true ↔ w ∈ separators ∧ w ≠ '\n' := by
  constructor
  · intro h
    simp only [isGap, Bool.or_eq_true, beq_iff_eq] at h
    rcases h with (rfl | rfl) | rfl <;> exact ⟨by simp [separators], by decide⟩
  · rintro ⟨hw, hne⟩
    rcases mem_separators.1 hw with rfl | rfl | rfl | rfl <;> first | rfl | exact absurd rfl hne

theorem isWordChar_of_mem_separators {w : Char} (hw : w ∈ separators) :
    isWordChar w = false := by
  rcases mem_separators.1 hw with rfl | rfl | rfl | rfl <;> decide

theorem isDigit_of_mem_separators {w : Char} (hw : w ∈ separators) : w.isDigit = false := by
  rcases mem_separators.1 hw with rfl | rfl | rfl | rfl <;> decide

theorem ne_of_mem_separators {w : Char} (hw : w ∈ separators) : w ≠ '.' ∧ w ≠ '/' := by
  rcases mem_separators.1 hw with rfl | rfl | rfl | rfl <;> decide

theorem not_mem_of_mem_marks {kind : Kind} {spelling : List Char} {w : Char}
    (h : (kind, spelling) ∈ marks) (hw : w ∈ separators) : w ∉ spelling := by
  have hall : marks.all (fun m => m.2.all fun c => c ∉ separators) = true := by decide
  intro hmem
  have hnot := List.all_eq_true.1 (List.all_eq_true.1 hall _ h) w hmem
  exact of_decide_eq_true hnot hw

variable {rule : Rule} {cs text : List Char} {w : Char}

/-! ## Runs of characters before a separator -/

theorem takeWhile_append_cons {p : Char → Bool} (hw : p w = false) (cs rest : List Char) :
    (cs ++ w :: rest).takeWhile p = cs.takeWhile p := by
  rw [List.takeWhile_append]
  split_ifs with hlength
  · have hall := (List.takeWhile_prefix p).eq_of_length hlength
    rw [List.takeWhile_cons_of_neg (by simp [hw]), List.append_nil, hall]
  · rfl

theorem dropWhile_append_cons {p : Char → Bool} (hw : p w = false) (cs rest : List Char) :
    (cs ++ w :: rest).dropWhile p = cs.dropWhile p ++ w :: rest := by
  rw [List.dropWhile_append]
  split_ifs with hnil
  · rw [List.isEmpty_iff.1 hnil, List.dropWhile_cons_of_neg (by simp [hw]), List.nil_append]
  · rfl

theorem takeWhile_append_of_mem {p : Char → Bool} {c : Char} (hmem : c ∈ cs) (hc : p c = false)
    (rest : List Char) : (cs ++ rest).takeWhile p = cs.takeWhile p := by
  rw [List.takeWhile_append]
  split_ifs with hlength
  · have hall := (List.takeWhile_prefix p).eq_of_length hlength
    have hpc := List.takeWhile_eq_self_iff.1 hall c hmem
    rw [hc] at hpc
    cases hpc
  · rfl

theorem fraction_cons_of_ne {c : Char} (hc : c ≠ '.') (cs : List Char) :
    fraction (c :: cs) = [] := by
  unfold fraction
  split
  · rename_i heq
    exact absurd (List.cons.inj heq).1 hc
  · rfl

theorem fraction_append_cons (hw : w ∈ separators) (cs rest : List Char) :
    fraction (cs ++ w :: rest) = fraction cs := by
  cases cs with
  | nil => exact fraction_cons_of_ne (ne_of_mem_separators hw).1 rest
  | cons c cs =>
    by_cases hc : c = '.'
    · rw [hc, List.cons_append, fraction, fraction,
        takeWhile_append_cons (isDigit_of_mem_separators hw)]
    · rw [List.cons_append, fraction_cons_of_ne hc, fraction_cons_of_ne hc]

/-! ## Text behind a separator -/

/-- What a rule takes does not depend on what stands behind a separator.  Blanks and
comments themselves go on up to a newline. -/
theorem Takes.append_separator (h : rule.Takes cs text) (hw : w ∈ separators)
    (hrule : w = '\n' ∨ rule ∉ [.blanks, .comment]) (rest : List Char) :
    rule.Takes (cs ++ w :: rest) text := by
  cases h with
  | @word c cs hstart =>
    rw [← takeWhile_append_cons (isWordChar_of_mem_separators hw) cs rest]
    exact .word hstart
  | @numeral c cs hdigit =>
    have hstop := isDigit_of_mem_separators hw
    rw [← takeWhile_append_cons hstop cs rest,
      ← fraction_append_cons hw (cs.dropWhile Char.isDigit) rest,
      ← dropWhile_append_cons hstop]
    exact .numeral hdigit
  | @blanks c cs hgap =>
    obtain rfl : w = '\n' := hrule.resolve_right (by simp)
    rw [← takeWhile_append_cons (by decide : isGap '\n' = false) cs rest]
    exact .blanks hgap
  | newline => exact .newline
  | @string cs hquote =>
    rw [← takeWhile_append_of_mem hquote (by decide) (w :: rest)]
    exact .string (List.mem_append_left _ hquote)
  | openQuote => exact .openQuote
  | @comment cs =>
    obtain rfl : w = '\n' := hrule.resolve_right (by simp)
    rw [← takeWhile_append_cons (by decide : decide ('\n' ≠ '\n') = false) cs rest]
    exact .comment
  | mark hprefix =>
    have hprefix' :=
      (List.isPrefixOf_iff_prefix.1 hprefix).trans (List.prefix_append cs (w :: rest))
    exact .mark (List.isPrefixOf_iff_prefix.2 hprefix')

/-- A rule that takes nothing from a text takes nothing when more stands behind a
separator, unless it finds the quote there that closes a string. -/
theorem not_takes_append_separator (hmem : rule ∈ table) (hcs : cs ≠ [])
    (hstring : rule = .string → cs.head? ≠ some '"') (hw : w ∈ separators) {rest : List Char}
    (h : ∀ text, ¬ rule.Takes cs text) : ∀ text, ¬ rule.Takes (cs ++ w :: rest) text := by
  intro text htakes
  obtain ⟨c, cs, rfl⟩ := List.exists_cons_of_ne_nil hcs
  generalize hall : c :: cs ++ w :: rest = all at htakes
  cases htakes with
  | word hstart | numeral hstart | blanks hstart =>
    obtain ⟨rfl, _⟩ := List.cons.inj hall
    exact h _ (by constructor; exact hstart)
  | newline =>
    obtain ⟨rfl, _⟩ := List.cons.inj hall
    exact h _ .newline
  | string _ =>
    obtain ⟨rfl, _⟩ := List.cons.inj hall
    exact hstring rfl rfl
  | openQuote =>
    obtain ⟨rfl, _⟩ := List.cons.inj hall
    exact h _ .openQuote
  | comment =>
    obtain ⟨rfl, hrest⟩ := List.cons.inj hall
    cases cs with
    | nil => exact (ne_of_mem_separators hw).2 (List.cons.inj hrest).1
    | cons d cs =>
      obtain ⟨rfl, _⟩ := List.cons.inj hrest
      exact h _ .comment
  | @mark kind s spelling _ hprefix =>
    subst hall
    have hnot := not_mem_of_mem_marks (mem_marks hmem) hw
    have hprefix' := List.isPrefixOf_iff_prefix.1 hprefix
    -- the mark holds no separator, so it ends before the one that follows
    have hlength : (s :: spelling).length ≤ (c :: cs).length := by
      by_contra hlong
      apply hnot
      obtain ⟨tail, htail⟩ := hprefix'
      have hget : (s :: spelling ++ tail)[(c :: cs).length]? = some w := by
        rw [htail, List.getElem?_append_right (Nat.le_refl _), Nat.sub_self]
        rfl
      rw [List.getElem?_append_left (by omega)] at hget
      exact List.mem_of_getElem? hget
    have hshort := List.prefix_of_prefix_length_le hprefix' (List.prefix_append _ _) hlength
    exact h _ (.mark (List.isPrefixOf_iff_prefix.2 hshort))

/-! ## The rule that applies -/

theorem first?_eq_some_iff :
    first? cs = some (rule, text) ↔ ∃ before after, table = before ++ rule :: after ∧
      rule.Takes cs text ∧ ∀ other ∈ before, ∀ t, ¬ other.Takes cs t := by
  rw [first?, List.findSome?_eq_some_iff]
  constructor
  · rintro ⟨before, found, after, htable, htaken, hbefore⟩
    obtain ⟨_, htaken, heq⟩ := Option.map_eq_some_iff.1 htaken
    cases heq
    refine ⟨before, after, htable, taken?_eq_some_iff.1 htaken, ?_⟩
    intro other hother t ht
    have hnone := hbefore other hother
    rw [taken?_eq_some_iff.2 ht] at hnone
    cases hnone
  · rintro ⟨before, after, htable, htakes, hbefore⟩
    refine ⟨before, rule, after, htable, by rw [taken?_eq_some_iff.2 htakes]; rfl, ?_⟩
    intro other hother
    rw [Option.map_eq_none_iff, Option.eq_none_iff_forall_ne_some]
    intro t ht
    exact hbefore other hother t (taken?_eq_some_iff.1 ht)

/-- A rule that applies to one text applies to another that it takes something from, when
the rules before it find no more there. -/
theorem first?_of_first? {cs' text' : List Char} (h : first? cs = some (rule, text))
    (htakes : rule.Takes cs' text')
    (hnone : ∀ other ∈ table, other ≠ rule → (∀ t, ¬ other.Takes cs t) →
      ∀ t, ¬ other.Takes cs' t) :
    first? cs' = some (rule, text') := by
  obtain ⟨before, after, htable, hrule, hbefore⟩ := first?_eq_some_iff.1 h
  refine first?_eq_some_iff.2 ⟨before, after, htable, htakes, ?_⟩
  intro other hother
  have hmem : other ∈ table := htable ▸ List.mem_append_left _ hother
  refine hnone other hmem ?_ (hbefore other hother)
  rintro rfl
  exact hbefore other hother text hrule

/-- Only a string, closed or not, begins with a quote. -/
theorem mem_of_first?_quote (h : first? ('"' :: cs) = some (rule, text)) :
    rule ∈ [.string, .openQuote] := by
  have hmem := mem_table_of_first? h
  cases takes_of_first? h with
  | word hstart | numeral hstart | blanks hstart => exact absurd hstart (by decide)
  | string _ | openQuote => decide
  | @mark kind s spelling _ hprefix =>
    have hquote := List.mem_of_mem_head? (a := '"') (l := s :: spelling) ?_
    · have hall : ∀ m ∈ marks, '"' ∉ m.2 := by decide
      exact absurd hquote (hall _ (mem_marks hmem))
    · obtain ⟨tail, htail⟩ := List.isPrefixOf_iff_prefix.1 hprefix
      rw [(List.cons.inj htail).1]
      rfl

/-- The first lexeme of a text is the same when more stands behind a separator. -/
theorem first?_append_separator (h : first? cs = some (rule, text)) (hquote : rule ≠ .openQuote)
    (hw : w ∈ separators) (hrule : w = '\n' ∨ rule ∉ [.blanks, .comment]) (rest : List Char) :
    first? (cs ++ w :: rest) = some (rule, text) := by
  have htakes := takes_of_first? h
  have hcs : cs ≠ [] := by
    rintro rfl
    exact (prefix_of_taken? (taken?_of_first? h)).1
      (List.prefix_nil.1 (prefix_of_taken? (taken?_of_first? h)).2)
  refine first?_of_first? h (htakes.append_separator hw hrule rest) ?_
  intro other hmem hother hnone
  refine not_takes_append_separator hmem hcs ?_ hw hnone
  rintro rfl hhead
  obtain ⟨cs, rfl⟩ := List.head?_eq_some_iff.1 hhead
  have hquoted := mem_of_first?_quote h
  simp only [List.mem_cons, List.not_mem_nil, or_false] at hquoted
  exact hquoted.elim (fun heq => hother heq.symm) hquote

/-! ## A lexeme by itself -/

theorem fraction_cases (cs : List Char) :
    fraction cs = [] ∧ (∀ d further, cs = '.' :: d :: further → d.isDigit = false) ∨
      ∃ ds, cs = '.' :: ds ∧ fraction cs = '.' :: ds.takeWhile Char.isDigit ∧
        ds.takeWhile Char.isDigit ≠ [] := by
  unfold fraction
  split
  case h_1 cs =>
    dsimp only
    split_ifs with hnil
    · refine .inl ⟨rfl, ?_⟩
      rintro d further ⟨⟩
      by_contra hdigit
      rw [List.takeWhile_cons_of_pos (by simpa using hdigit)] at hnil
      cases hnil
    · exact .inr ⟨cs, rfl, rfl, hnil⟩
  case h_2 hpoint =>
    refine .inl ⟨rfl, ?_⟩
    rintro d further rfl
    exact (hpoint _ rfl).elim

theorem fraction_fraction (cs : List Char) : fraction (fraction cs) = fraction cs := by
  obtain ⟨hnil, _⟩ | ⟨ds, _, hds, hne⟩ := fraction_cases cs
  · rw [hnil]
    rfl
  · rw [hds, fraction, List.takeWhile_idem]
    exact if_neg hne

theorem takeWhile_append_fraction (ds cs : List Char) :
    (ds.takeWhile Char.isDigit ++ fraction cs).takeWhile Char.isDigit =
      ds.takeWhile Char.isDigit := by
  obtain ⟨hnil, _⟩ | ⟨es, _, hes, _⟩ := fraction_cases cs
  · rw [hnil, List.append_nil, List.takeWhile_idem]
  · rw [hes, takeWhile_append_cons (by decide), List.takeWhile_idem]

theorem dropWhile_append_fraction (ds cs : List Char) :
    (ds.takeWhile Char.isDigit ++ fraction cs).dropWhile Char.isDigit = fraction cs := by
  have hsplit := List.takeWhile_append_dropWhile (p := Char.isDigit)
    (l := ds.takeWhile Char.isDigit ++ fraction cs)
  rw [takeWhile_append_fraction] at hsplit
  exact List.append_cancel_left hsplit

theorem Takes.self (h : rule.Takes cs text) : rule.Takes text text := by
  cases h with
  | @word c cs hstart =>
    have hself := @Takes.word c (cs.takeWhile isWordChar) hstart
    rwa [List.takeWhile_idem] at hself
  | @numeral c cs hdigit =>
    have hself := @Takes.numeral c
      (cs.takeWhile Char.isDigit ++ fraction (cs.dropWhile Char.isDigit)) hdigit
    rwa [takeWhile_append_fraction, dropWhile_append_fraction, fraction_fraction] at hself
  | @blanks c cs hgap =>
    have hself := @Takes.blanks c (cs.takeWhile isGap) hgap
    rwa [List.takeWhile_idem] at hself
  | newline => exact .newline
  | @string cs hquote =>
    have hself := @Takes.string (cs.takeWhile (· ≠ '"') ++ ['"']) (by simp)
    rwa [takeWhile_append_cons (by decide), List.takeWhile_idem] at hself
  | openQuote => exact .openQuote
  | @comment cs =>
    have hself := @Takes.comment (cs.takeWhile (· ≠ '\n'))
    rwa [List.takeWhile_idem] at hself
  | mark hprefix => exact .mark (List.isPrefixOf_iff_prefix.2 List.prefix_rfl)

theorem Takes.append (h : rule.Takes cs text) (rest : List Char) :
    ∃ text', rule.Takes (cs ++ rest) text' := by
  cases h with
  | word hstart => exact ⟨_, .word hstart⟩
  | numeral hdigit => exact ⟨_, .numeral hdigit⟩
  | blanks hgap => exact ⟨_, .blanks hgap⟩
  | newline => exact ⟨_, .newline⟩
  | string hquote => exact ⟨_, .string (List.mem_append_left _ hquote)⟩
  | openQuote => exact ⟨_, .openQuote⟩
  | comment => exact ⟨_, .comment⟩
  | mark hprefix =>
    have hprefix' := (List.isPrefixOf_iff_prefix.1 hprefix).trans (List.prefix_append cs rest)
    exact ⟨_, .mark (List.isPrefixOf_iff_prefix.2 hprefix')⟩

theorem first?_self {rest : List Char} (h : first? (text ++ rest) = some (rule, text)) :
    first? text = some (rule, text) := by
  refine first?_of_first? h (takes_of_first? h).self ?_
  intro other _ _ hnone t ht
  obtain ⟨t', ht'⟩ := ht.append rest
  exact hnone t' ht'

end Rule

end Scriptlet

import Scriptlet.Proofs.Source.Places
/-!
# How far rules reach

Of two rules of the table that both take something from a text, the one that stands first
takes more.  A word goes on as long as it can, and a numeral takes a point only with digits
behind it.
-/

namespace Scriptlet

namespace Rule

/-! ## Rules that begin alike -/

/-- The characters that what a rule takes can begin with, unless these are letters or digits. -/
def heads? : Rule → Option (List Char)
  | word | numeral => none
  | blanks => some [' ', '\r', '\t']
  | newline => some ['\n']
  | string | openQuote => some ['"']
  | comment => some ['/']
  | mark _ spelling => some spelling.head?.toList

def begins : Rule → Char → Bool
  | word, c => isWordStart c
  | numeral, c => c.isDigit
  | rule, c => rule.heads?.any (c ∈ ·)

/-- A rule takes more than another from every text that both take something from. -/
def Outtakes (rule other : Rule) : Prop :=
  ∀ cs text t, rule.Takes cs text → other.Takes cs t → t.length < text.length

/-- Whether it shows in how two rules are written that the first one outtakes the other: they
begin with different characters, or the other stops where the first goes on. -/
def precedes : Rule → Rule → Bool
  | word, numeral => true
  | string, openQuote => true
  | comment, mark _ ['/'] => true
  | mark _ spelling, mark _ spelling' => !spelling.isPrefixOf spelling'
  | rule, other => other.heads?.any fun heads => heads.all fun c => !rule.begins c

variable {rule other : Rule} {cs text t rest : List Char}

theorem begins_of_heads? {heads : List Char} {c : Char} (h : rule.heads? = some heads) :
    rule.begins c = true ↔ c ∈ heads := by
  cases rule with
  | word | numeral => cases h
  | _ => simp [begins, h]

theorem Takes.begins (h : rule.Takes cs text) : ∃ c ∈ cs.head?, rule.begins c = true := by
  cases h with
  | word h | numeral h => exact ⟨_, rfl, h⟩
  | @blanks c cs h =>
    refine ⟨c, rfl, ?_⟩
    rcases mem_separators.1 (isGap_iff.1 h).1 with rfl | rfl | rfl | rfl <;> first | rfl | cases h
  | newline | string _ | openQuote | comment => exact ⟨_, rfl, rfl⟩
  | @mark kind s spelling cs h =>
    obtain ⟨rest, rfl⟩ := List.isPrefixOf_iff_prefix.1 h
    exact ⟨s, rfl, (begins_of_heads? rfl).2 List.mem_cons_self⟩

theorem outtakes_of_disjoint (h : ∀ c, rule.begins c = true → other.begins c = true → False) :
    rule.Outtakes other := by
  intro cs text t htakes hother
  obtain ⟨c, hc, hbegins⟩ := htakes.begins
  obtain ⟨c', hc', hbegins'⟩ := hother.begins
  rw [Option.mem_unique hc' hc] at hbegins'
  exact absurd hbegins' (h c hbegins)

theorem isWordStart_of_isDigit {c : Char} (h : c.isDigit = true) : isWordStart c = false := by
  have hdigit : c.val ≤ 57 := of_decide_eq_true (Bool.and_eq_true_iff.1 h).2
  rw [Bool.eq_false_iff]
  intro hstart
  rcases Bool.or_eq_true_iff.1 hstart with hletter | hletter
  · rcases Bool.or_eq_true_iff.1 hletter with hletter | hletter
    · have hupper : 65 ≤ c.val := (of_decide_eq_true hletter).1
      exact absurd (UInt32.le_trans hupper hdigit) (by decide)
    · have hlower : 97 ≤ c.val := of_decide_eq_true (Bool.and_eq_true_iff.1 hletter).1
      exact absurd (UInt32.le_trans hlower hdigit) (by decide)
  · rw [beq_iff_eq.1 hletter] at h
    exact absurd h (by decide)

theorem outtakes_of_precedes (h : rule.precedes other = true) : rule.Outtakes other := by
  unfold precedes at h
  split at h
  case h_1 =>
    apply outtakes_of_disjoint
    intro c hletter hdigit
    have hnot := isWordStart_of_isDigit hdigit
    rw [show isWordStart c = true from hletter] at hnot
    cases hnot
  case h_2 =>
    intro cs text t htakes hother
    cases htakes
    cases hother
    simp
  case h_3 =>
    intro cs text t htakes hother
    cases htakes
    cases hother
    simp
  case h_4 =>
    intro cs text t htakes hother
    cases htakes with
    | mark hprefix =>
      cases hother with
      | mark hprefix' =>
        -- of two marks in front of one text, the shorter one begins the other
        by_contra hlength
        have hshort := List.prefix_of_prefix_length_le (List.isPrefixOf_iff_prefix.1 hprefix)
          (List.isPrefixOf_iff_prefix.1 hprefix') (Nat.le_of_not_lt hlength)
        rw [List.isPrefixOf_iff_prefix.2 hshort] at h
        cases h
  case h_5 =>
    obtain ⟨heads, hheads, hall⟩ := (Option.any_eq_true _ _).1 h
    apply outtakes_of_disjoint
    intro c hbegins hother
    have hnot := List.all_eq_true.1 hall c ((begins_of_heads? hheads).1 hother)
    rw [hbegins] at hnot
    cases hnot

theorem pairwise_precedes : table.Pairwise fun rule other => rule.precedes other := by decide

theorem pairwise_outtakes : table.Pairwise Outtakes :=
  pairwise_precedes.imp outtakes_of_precedes

theorem outtakes_of_split {before after : List Rule} (h : table = before ++ rule :: after)
    (hother : other ∈ after) : rule.Outtakes other := by
  have hpairwise := pairwise_outtakes
  rw [h] at hpairwise
  exact List.rel_of_pairwise_cons (List.pairwise_append.1 hpairwise).2.1 hother

/-- The rule that applies takes more than any other rule takes. -/
theorem length_lt_of_first? (h : first? cs = some (rule, text)) (hmem : other ∈ table)
    (hother : other.Takes cs t) (hne : other ≠ rule) : t.length < text.length := by
  obtain ⟨before, after, htable, htakes, hbefore⟩ := first?_eq_some_iff.1 h
  rw [htable] at hmem
  rcases List.mem_append.1 hmem with hmem | hmem
  · exact absurd hother (hbefore other hmem t)
  rcases List.mem_cons.1 hmem with heq | hmem
  · exact absurd heq hne
  · exact outtakes_of_split htable hmem cs text t htakes hother

theorem length_le_of_first? (h : first? cs = some (rule, text)) (hmem : other ∈ table)
    (hother : other.Takes cs t) : t.length ≤ text.length := by
  by_cases hne : other = rule
  · subst hne
    have hsame := (taken?_eq_some_iff.2 hother).symm.trans (taken?_of_first? h)
    rw [Option.some.inj hsame]
  · exact (length_lt_of_first? h hmem hother hne).le

/-! ## What a rule takes and what stands behind it -/

theorem of_takeWhile_append {p : Char → Bool} {as bs : List Char}
    (h : (as ++ bs).takeWhile p = as) :
    (∀ c ∈ as, p c = true) ∧ ∀ c ∈ bs.head?, p c = false := by
  have hall : ∀ c ∈ as, p c = true := by
    intro c hc
    rw [← h] at hc
    exact List.mem_takeWhile_imp hc
  refine ⟨hall, ?_⟩
  intro c hc
  obtain ⟨bs, rfl⟩ := List.head?_eq_some_iff.1 hc
  rw [List.takeWhile_append_of_pos hall] at h
  by_contra hpos
  rw [List.takeWhile_cons_of_pos (by simpa using hpos)] at h
  simp at h

theorem Takes.of_word (h : Takes .word (text ++ rest) text) :
    (∃ c ∈ text.head?, isWordStart c = true) ∧ (∀ c ∈ text, isWordChar c = true) ∧
      ∀ c ∈ rest.head?, isWordChar c = false := by
  generalize hcs : text ++ rest = cs at h
  cases h with
  | @word c cs hstart =>
    have hrest : cs.takeWhile isWordChar ++ rest = cs := (List.cons.inj hcs).2
    obtain ⟨hall, hstop⟩ := of_takeWhile_append (congrArg (List.takeWhile isWordChar) hrest)
    exact ⟨⟨c, rfl, hstart⟩,
      List.forall_mem_cons.2 ⟨isWordChar_of_isWordStart hstart, hall⟩, hstop⟩

theorem Takes.of_blanks (h : Takes .blanks (text ++ rest) text) :
    ∀ c ∈ text, isGap c = true := by
  generalize text ++ rest = cs at h
  cases h with
  | blanks hstart => exact List.forall_mem_cons.2 ⟨hstart, fun c hc => List.mem_takeWhile_imp hc⟩

theorem Takes.of_string (h : Takes .string (text ++ rest) text) :
    ∃ body, text = '"' :: (body ++ ['"']) ∧ '"' ∉ body := by
  generalize text ++ rest = cs at h
  cases h with
  | string _ =>
    refine ⟨_, rfl, ?_⟩
    intro hmem
    simpa using List.mem_takeWhile_imp hmem

/-- A comment goes on to a newline or to the end. -/
theorem Takes.of_comment (h : Takes .comment (text ++ rest) text) :
    ∃ body, text = '/' :: '/' :: body ∧ '\n' ∉ body ∧ ∀ c ∈ rest.head?, c = '\n' := by
  generalize hcs : text ++ rest = cs at h
  cases h with
  | @comment cs =>
    have hrest : cs.takeWhile (· ≠ '\n') ++ rest = cs := by simpa using hcs
    obtain ⟨hall, hstop⟩ := of_takeWhile_append (congrArg (List.takeWhile (· ≠ '\n')) hrest)
    refine ⟨_, rfl, ?_, ?_⟩
    · intro hmem
      simpa using hall '\n' hmem
    · intro c hc
      simpa using hstop c hc

/-- Digits, with a point and more digits behind them or without. -/
inductive Numeral : List Char → Prop where
  | whole {digits : List Char} (hne : digits ≠ []) (h : ∀ c ∈ digits, c.isDigit = true) :
      Numeral digits
  | fraction {digits places : List Char} (hne : digits ≠ [])
      (h : ∀ c ∈ digits, c.isDigit = true) (hne' : places ≠ [])
      (h' : ∀ c ∈ places, c.isDigit = true) : Numeral (digits ++ '.' :: places)

theorem Takes.of_numeral (h : Takes .numeral (text ++ rest) text) :
    Numeral text ∧ (∀ c ∈ rest.head?, c.isDigit = false) ∧
      ('.' ∉ text → ∀ d further, rest = '.' :: d :: further → d.isDigit = false) := by
  generalize hcs : text ++ rest = cs at h
  cases h with
  | @numeral c cs hdigit =>
    have hrest : cs.takeWhile Char.isDigit ++
        (fraction (cs.dropWhile Char.isDigit) ++ rest) = cs := by
      rw [← List.append_assoc]
      exact (List.cons.inj hcs).2
    have hbehind : fraction (cs.dropWhile Char.isDigit) ++ rest = cs.dropWhile Char.isDigit := by
      have hsplit := List.takeWhile_append_dropWhile (p := Char.isDigit) (l := cs)
      exact List.append_cancel_left (hrest.trans hsplit.symm)
    have hdigits : ∀ d ∈ c :: cs.takeWhile Char.isDigit, d.isDigit = true :=
      List.forall_mem_cons.2 ⟨hdigit, fun d hd => List.mem_takeWhile_imp hd⟩
    rcases fraction_cases (cs.dropWhile Char.isDigit) with
      ⟨hnil, hpoint⟩ | ⟨ds, hds, hfraction, hne⟩
    · rw [hnil, List.nil_append] at hbehind
      rw [hnil, List.append_nil]
      refine ⟨.whole (List.cons_ne_nil _ _) hdigits, ?_, ?_⟩
      · intro d hd
        have hhead := List.head?_dropWhile_not Char.isDigit cs
        rw [← hbehind, hd] at hhead
        simpa using hhead
      · rw [hbehind]
        exact fun _ => hpoint
    · rw [hfraction, hds] at hbehind
      obtain ⟨hplaces, hstop⟩ := of_takeWhile_append
        (congrArg (List.takeWhile Char.isDigit) (List.cons.inj hbehind).2)
      rw [hfraction]
      refine ⟨.fraction (List.cons_ne_nil _ _) hdigits hne hplaces, hstop, ?_⟩
      intro hnot
      exact absurd (by simp) hnot

theorem Numeral.exists_head (h : Numeral text) : ∃ c ∈ text.head?, c.isDigit = true := by
  cases h with
  | whole hne hdigits | fraction hne hdigits _ _ =>
    obtain ⟨c, digits, rfl⟩ := List.exists_cons_of_ne_nil hne
    exact ⟨c, rfl, hdigits c List.mem_cons_self⟩

theorem Numeral.takes (h : Numeral text) : Takes .numeral text text := by
  cases h with
  | whole hne hdigits =>
    obtain ⟨c, digits, rfl⟩ := List.exists_cons_of_ne_nil hne
    obtain ⟨hc, hdigits⟩ := List.forall_mem_cons.1 hdigits
    have htakes := @Takes.numeral c digits hc
    rwa [List.takeWhile_eq_self_iff.2 hdigits, List.dropWhile_eq_nil_iff.2 hdigits,
      show Rule.fraction [] = [] from rfl, List.append_nil] at htakes
  | @fraction digits places hne hdigits hne' hplaces =>
    obtain ⟨c, digits, rfl⟩ := List.exists_cons_of_ne_nil hne
    obtain ⟨hc, hdigits⟩ := List.forall_mem_cons.1 hdigits
    have hfraction : Rule.fraction ('.' :: places) = '.' :: places := by
      rw [Rule.fraction, List.takeWhile_eq_self_iff.2 hplaces]
      exact if_neg hne'
    have htakes := @Takes.numeral c (digits ++ '.' :: places) hc
    rwa [List.takeWhile_append_of_pos hdigits, List.dropWhile_append_of_pos hdigits,
      List.takeWhile_cons_of_neg (by decide), List.dropWhile_cons_of_neg (by decide),
      List.append_nil, hfraction] at htakes

/-! ## The one rule for a text -/

theorem first?_of_takes {before after : List Rule} (htable : table = before ++ rule :: after)
    (h : rule.Takes cs text) (hbefore : ∀ other ∈ before, ∀ c ∈ cs.head?, other.begins c = false) :
    first? cs = some (rule, text) := by
  refine first?_eq_some_iff.2 ⟨before, after, htable, h, ?_⟩
  intro other hother t htakes
  obtain ⟨c, hc, hbegins⟩ := htakes.begins
  exact Bool.false_ne_true ((hbefore other hother c hc).symm.trans hbegins)

theorem first?_numeral (h : Numeral text) : first? text = some (.numeral, text) := by
  obtain ⟨c, hc, hdigit⟩ := h.exists_head
  apply @first?_of_takes _ _ _ [.word] _ rfl h.takes
  intro other hother d hd
  rw [List.eq_of_mem_singleton hother, Option.mem_unique hd hc]
  exact isWordStart_of_isDigit hdigit

theorem first?_string (h : '"' ∉ text) :
    first? ('"' :: (text ++ ['"'])) = some (.string, '"' :: (text ++ ['"'])) := by
  have hchars : ∀ c ∈ text, decide (c ≠ '"') = true := by
    intro c hc
    exact decide_eq_true fun heq => h (heq ▸ hc)
  have htakes := @Takes.string (text ++ ['"']) (by simp)
  rw [List.takeWhile_append_of_pos hchars, List.takeWhile_cons_of_neg (by decide),
    List.append_nil] at htakes
  apply @first?_of_takes _ _ _ [.word, .numeral, .blanks, .newline] _ rfl htakes
  rintro other hother c ⟨⟩
  revert other
  decide

end Rule

end Scriptlet

import Mathlib.Data.List.DropRight
import Scriptlet.Text.Lines
/-!
# The line around a place in a text

A text that is split anywhere has one line that runs over the split: what stands behind
the last newline of the first part, and what stands before the first newline of the
second one.  Its number is one more than the newlines of the first part.
-/

namespace Scriptlet.Text

def lastLine (cs : List Char) : List Char := cs.rtakeWhile (· != '\n')

def firstLine (cs : List Char) : List Char := cs.takeWhile (· != '\n')

variable {as bs cs : List Char} {c : Char}

theorem newline_not_mem_lastLine (cs : List Char) : '\n' ∉ lastLine cs := by
  intro h
  simpa using List.mem_rtakeWhile_imp h

theorem lastLine_eq_self (h : '\n' ∉ cs) : lastLine cs = cs := by
  apply List.rtakeWhile_eq_self_iff.2
  intro c hc
  have hne : c ≠ '\n' := fun heq => h (heq ▸ hc)
  simpa using hne

theorem exists_append_lastLine (cs : List Char) :
    ∃ as, cs = as ++ lastLine cs ∧ newlines as = newlines cs := by
  obtain ⟨as, has⟩ := List.rtakeWhile_suffix (p := (· != '\n')) (l := cs)
  refine ⟨as, has.symm, ?_⟩
  have hcount := congrArg newlines has
  rw [newlines_append] at hcount
  have hzero : newlines (lastLine cs) = 0 :=
    List.count_eq_zero_of_not_mem (newline_not_mem_lastLine cs)
  rw [lastLine] at hzero
  omega

theorem lastLine_cons_of_mem (h : '\n' ∈ as) (c : Char) : lastLine (c :: as) = lastLine as := by
  have hlength : (as.reverse.takeWhile (· != '\n')).length ≠ as.reverse.length := by
    intro heq
    have hall := List.takeWhile_eq_self_iff.1 ((List.takeWhile_prefix _).eq_of_length heq)
    simpa using hall '\n' (List.mem_reverse.2 h)
  rw [lastLine, List.rtakeWhile, List.reverse_cons, List.takeWhile_append, if_neg hlength]
  rfl

theorem lastLine_newline (as : List Char) : lastLine ('\n' :: as) = lastLine as := by
  by_cases h : '\n' ∈ as
  · exact lastLine_cons_of_mem h '\n'
  · have hall : ∀ c ∈ as.reverse, (c != '\n') = true := by
      intro c hc
      have hne : c ≠ '\n' := fun heq => h (heq ▸ List.mem_reverse.1 hc)
      simpa using hne
    rw [lastLine_eq_self h, lastLine, List.rtakeWhile, List.reverse_cons,
      List.takeWhile_append_of_pos hall]
    simp

theorem firstLine_cons (h : c ≠ '\n') (cs : List Char) :
    firstLine (c :: cs) = c :: firstLine cs :=
  List.takeWhile_cons_of_pos (by simpa using h)

theorem stretches_newline (cs : List Char) : stretches ('\n' :: cs) = [] :: stretches cs :=
  if_pos rfl

theorem stretches_cons (h : c ≠ '\n') (cs : List Char) :
    ∃ first others, stretches cs = first :: others ∧
      stretches (c :: cs) = (c :: first) :: others := by
  rw [stretches, if_neg h]
  cases hcs : stretches cs with
  | nil =>
    have hlength := length_stretches cs
    rw [hcs] at hlength
    cases hlength
  | cons first others => exact ⟨first, others, rfl, rfl⟩

theorem getElem?_stretches_zero (cs : List Char) : (stretches cs)[0]? = some (firstLine cs) := by
  induction cs with
  | nil => rfl
  | cons c cs ih =>
    by_cases hc : c = '\n'
    · rw [hc, stretches_newline]
      rfl
    · obtain ⟨first, others, hcs, hstretches⟩ := stretches_cons hc cs
      rw [hcs] at ih
      cases ih
      rw [hstretches, firstLine_cons hc]
      rfl

theorem getElem?_stretches_append (as cs : List Char) :
    (stretches (as ++ cs))[newlines as]? = some (lastLine as ++ firstLine cs) := by
  induction as with
  | nil => exact getElem?_stretches_zero cs
  | cons c as ih =>
    by_cases hc : c = '\n'
    · have hnewlines : newlines (c :: as) = newlines as + 1 := by
        rw [hc]
        exact List.count_cons_self
      rw [hnewlines, hc, List.cons_append, stretches_newline, List.getElem?_cons_succ, ih,
        lastLine_newline]
    · obtain ⟨first, others, hcs, hstretches⟩ := stretches_cons hc (as ++ cs)
      have hnewlines : newlines (c :: as) = newlines as := List.count_cons_of_ne hc
      rw [List.cons_append, hstretches, hnewlines]
      rw [hcs] at ih
      by_cases hmem : '\n' ∈ as
      · -- the first stretch grows, and the one over the split is a later one
        have hpos : 0 < newlines as := List.count_pos_iff.2 hmem
        obtain ⟨n, hn⟩ : ∃ n, newlines as = n + 1 := ⟨newlines as - 1, by omega⟩
        rw [hn, List.getElem?_cons_succ] at ih ⊢
        rw [ih, lastLine_cons_of_mem hmem]
      · have hzero : newlines as = 0 := List.count_eq_zero_of_not_mem hmem
        have hmem' : '\n' ∉ c :: as := by
          simp only [List.mem_cons, not_or]
          exact ⟨Ne.symm hc, hmem⟩
        rw [hzero, List.getElem?_cons_zero] at ih ⊢
        rw [lastLine_eq_self hmem] at ih
        cases ih
        rw [lastLine_eq_self hmem', List.cons_append]

theorem dropTrailing_append {p : Char → Bool} (hc : p c = false) (as cs : List Char) :
    dropTrailing p (as ++ c :: cs) = as ++ c :: dropTrailing p cs := by
  induction cs using List.reverseRecOn with
  | nil => rw [dropTrailing_append_singleton, hc, dropTrailing_nil]; rfl
  | append_singleton cs d ih =>
    have hassoc : as ++ c :: (cs ++ [d]) = as ++ c :: cs ++ [d] := by simp
    rw [hassoc, dropTrailing_append_singleton, dropTrailing_append_singleton, ih]
    split <;> simp

/-- A line keeps what does not end in carriage returns. -/
theorem infix_dropTrailing (as : List Char) {bs : List Char} (hbs : bs.getLast? ≠ some '\r')
    (cs : List Char) : bs <:+: dropTrailing (· == '\r') (as ++ bs ++ cs) := by
  rcases bs.eq_nil_or_concat with rfl | ⟨bs, c, rfl⟩
  · exact List.nil_infix
  · rw [List.concat_eq_append] at hbs ⊢
    have hc : (c == '\r') = false := by simpa using hbs
    have hassoc : as ++ (bs ++ [c]) ++ cs = as ++ bs ++ c :: cs := by simp
    rw [hassoc, dropTrailing_append (p := (· == '\r')) hc]
    exact ⟨as, dropTrailing (· == '\r') cs, by simp⟩

/-- A stretch without newlines, wherever it stands in a text, is shown by the line whose
number is one more than the newlines before it. -/
theorem line?_append (as : List Char) {bs : List Char} (hnewline : '\n' ∉ bs)
    (hlast : bs.getLast? ≠ some '\r') (cs : List Char) :
    ∃ line, line? (as ++ bs ++ cs) (1 + newlines as) = some line ∧ bs <:+: line := by
  have hfirst : firstLine (bs ++ cs) = bs ++ firstLine cs := by
    apply List.takeWhile_append_of_pos
    intro c hc
    have hne : c ≠ '\n' := fun heq => hnewline (heq ▸ hc)
    simpa using hne
  refine ⟨_, ?_, infix_dropTrailing (lastLine as) hlast (firstLine cs)⟩
  rw [Nat.add_comm, line?, List.append_assoc, getElem?_stretches_append, hfirst, List.append_assoc]
  rfl

end Scriptlet.Text

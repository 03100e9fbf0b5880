import Scriptlet.Proofs.Text.Lines
import Scriptlet.Source
/-!
# Lines make up their text

Joined with newlines, the lines of a text are the text again, but for the carriage returns
that stand at the ends of lines.  A carriage return stands there when nothing but carriage
returns follows it up to the next newline or to the end of the text.
-/

namespace Scriptlet

namespace Text

/-- Whether nothing but carriage returns stands before the next newline, or before the end
of the text. -/
def endsLine : List Char → Bool
  | [] => true
  | c :: cs => c == '\n' || c == '\r' && endsLine cs

def withoutReturns : List Char → List Char
  | [] => []
  | c :: cs => if c == '\r' && endsLine cs then withoutReturns cs else c :: withoutReturns cs

variable {as bs cs : List Char} {c : Char}

/-! ## Runs of carriage returns -/

theorem endsLine_returns_append (n : Nat) (cs : List Char) :
    endsLine (List.replicate n '\r' ++ cs) = endsLine cs := by
  induction n with
  | zero => rfl
  | succ n ih => rw [List.replicate_succ, List.cons_append, endsLine, ih]; rfl

theorem endsLine_iff (h : cs.head? ≠ some '\r') :
    endsLine cs = true ↔ cs = [] ∨ cs.head? = some '\n' := by
  cases cs with
  | nil => simp [endsLine]
  | cons c cs =>
    have hc : c ≠ '\r' := fun heq => h (congrArg some heq)
    simp [endsLine, hc]

theorem endsLine_append (hne : as ≠ []) (h : as.getLast? ≠ some '\r') (cs : List Char) :
    endsLine (as ++ cs) = endsLine as := by
  induction as with
  | nil => exact absurd rfl hne
  | cons c as ih =>
    rw [List.cons_append, endsLine, endsLine]
    cases as with
    | nil =>
      have hc : (c == '\r') = false := by simpa using h
      simp [hc]
    | cons d as => rw [ih (List.cons_ne_nil d as) (by rwa [List.getLast?_cons_cons] at h)]

theorem withoutReturns_append (h : as.getLast? ≠ some '\r') (cs : List Char) :
    withoutReturns (as ++ cs) = withoutReturns as ++ withoutReturns cs := by
  induction as with
  | nil => rfl
  | cons c as ih =>
    cases as with
    | nil =>
      have hc : (c == '\r') = false := by simpa using h
      simp [withoutReturns, hc]
    | cons d as =>
      have hlast : (d :: as).getLast? ≠ some '\r' := by rwa [List.getLast?_cons_cons] at h
      rw [List.cons_append, withoutReturns, withoutReturns, ih hlast,
        endsLine_append (List.cons_ne_nil d as) hlast]
      split <;> rfl

theorem withoutReturns_returns_append (n : Nat) (cs : List Char) :
    withoutReturns (List.replicate n '\r' ++ cs) =
      (if endsLine cs then [] else List.replicate n '\r') ++ withoutReturns cs := by
  induction n with
  | zero => cases endsLine cs <;> rfl
  | succ n ih =>
    rw [List.replicate_succ, List.cons_append, withoutReturns, endsLine_returns_append, ih]
    cases endsLine cs <;> rfl

/-- A run of carriage returns that cannot be made longer goes if a newline or the end of the
text stands behind it, and stays otherwise; so does what stands around it. -/
theorem withoutReturns_run (has : as.getLast? ≠ some '\r') (hbs : bs.head? ≠ some '\r') (n : Nat) :
    withoutReturns (as ++ List.replicate n '\r' ++ bs) =
      withoutReturns as ++
        (if bs = [] ∨ bs.head? = some '\n' then [] else List.replicate n '\r') ++
        withoutReturns bs := by
  have hends : endsLine bs = true ↔ bs = [] ∨ bs.head? = some '\n' := endsLine_iff hbs
  rw [List.append_assoc, withoutReturns_append has, withoutReturns_returns_append,
    List.append_assoc, if_congr hends rfl rfl]

/-! ## Stretches between newlines -/

theorem endsLine_eq_false (hne : cs ≠ []) (hnewline : '\n' ∉ cs) (h : cs.getLast? ≠ some '\r') :
    endsLine cs = false := by
  induction cs with
  | nil => exact absurd rfl hne
  | cons c cs ih =>
    have hc : c ≠ '\n' := fun heq => hnewline (heq ▸ List.mem_cons_self)
    cases cs with
    | nil =>
      have hreturn : c ≠ '\r' := fun heq => h (congrArg some heq)
      simp [endsLine, hc, hreturn]
    | cons d cs =>
      have hfurther := ih (List.cons_ne_nil d cs)
        (fun hmem => hnewline (List.mem_cons_of_mem c hmem)) (by rwa [List.getLast?_cons_cons] at h)
      rw [endsLine, hfurther]
      simp [hc]

theorem withoutReturns_eq_self (hnewline : '\n' ∉ cs) (h : cs.getLast? ≠ some '\r') :
    withoutReturns cs = cs := by
  induction cs with
  | nil => rfl
  | cons c cs ih =>
    have hnewline' : '\n' ∉ cs := fun hmem => hnewline (List.mem_cons_of_mem c hmem)
    cases cs with
    | nil =>
      have hreturn : c ≠ '\r' := fun heq => h (congrArg some heq)
      simp [withoutReturns, hreturn]
    | cons d cs =>
      rw [List.getLast?_cons_cons] at h
      rw [withoutReturns, endsLine_eq_false (List.cons_ne_nil d cs) hnewline' h, ih hnewline' h,
        Bool.and_false, if_neg Bool.false_ne_true]

theorem dropTrailing_eq_rdropWhile (p : Char → Bool) (cs : List Char) :
    dropTrailing p cs = cs.rdropWhile p := rfl

theorem getLast?_dropTrailing (p : Char → Bool) (cs : List Char) :
    ∀ c ∈ (dropTrailing p cs).getLast?, p c = false := by
  intro c hc
  rw [dropTrailing_eq_rdropWhile] at hc
  obtain ⟨hne, rfl⟩ := List.mem_getLast?_eq_getLast hc
  exact Bool.eq_false_iff.2 (List.rdropWhile_last_not p cs hne)

theorem getLast?_dropTrailing_return (cs : List Char) :
    (dropTrailing (· == '\r') cs).getLast? ≠ some '\r' := by
  intro hlast
  exact absurd (getLast?_dropTrailing (· == '\r') cs '\r' hlast) (by decide)

theorem exists_returns (cs : List Char) :
    ∃ n, cs = dropTrailing (· == '\r') cs ++ List.replicate n '\r' := by
  have hall : ∀ c ∈ cs.rtakeWhile (· == '\r'), c = '\r' := by
    intro c hc
    simpa using List.mem_rtakeWhile_imp hc
  refine ⟨(cs.rtakeWhile (· == '\r')).length, ?_⟩
  rw [← List.eq_replicate_of_mem hall, dropTrailing_eq_rdropWhile,
    List.rdropWhile_append_rtakeWhile]

/-- From a stretch that a newline or the end of the text follows, the run at its end goes. -/
theorem withoutReturns_stretch_append (has : '\n' ∉ as) (hbs : bs = [] ∨ bs.head? = some '\n') :
    withoutReturns (as ++ bs) = dropTrailing (· == '\r') as ++ withoutReturns bs := by
  have hlast := getLast?_dropTrailing_return as
  have hnewline : '\n' ∉ dropTrailing (· == '\r') as := by
    intro hmem
    exact has ((List.rdropWhile_prefix (· == '\r') as).subset hmem)
  have hhead : bs.head? ≠ some '\r' := by
    rcases hbs with rfl | hbs
    · simp
    · simp [hbs]
  obtain ⟨n, hn⟩ := exists_returns as
  calc withoutReturns (as ++ bs)
      = withoutReturns (dropTrailing (· == '\r') as ++ List.replicate n '\r' ++ bs) := by rw [← hn]
    _ = dropTrailing (· == '\r') as ++ withoutReturns bs := by
        rw [withoutReturns_run hlast hhead, withoutReturns_eq_self hnewline hlast, if_pos hbs,
          List.append_nil]

theorem newline_not_mem_stretches (cs : List Char) : ∀ stretch ∈ stretches cs, '\n' ∉ stretch := by
  induction cs with
  | nil => simp [stretches]
  | cons c cs ih =>
    by_cases hc : c = '\n'
    · rw [hc, stretches_newline]
      exact List.forall_mem_cons.2 ⟨List.not_mem_nil, ih⟩
    · obtain ⟨first, others, hcs, hstretches⟩ := stretches_cons hc cs
      rw [hcs] at ih
      obtain ⟨hfirst, hothers⟩ := List.forall_mem_cons.1 ih
      rw [hstretches]
      refine List.forall_mem_cons.2 ⟨?_, hothers⟩
      rw [List.mem_cons, not_or]
      exact ⟨Ne.symm hc, hfirst⟩

theorem intercalate_stretches (cs : List Char) : ['\n'].intercalate (stretches cs) = cs := by
  induction cs with
  | nil => rfl
  | cons c cs ih =>
    by_cases hc : c = '\n'
    · have hne : stretches cs ≠ [] := List.ne_nil_of_length_eq_add_one (length_stretches cs)
      rw [hc, stretches_newline, List.intercalate_cons_of_ne_nil hne, ih]
      rfl
    · obtain ⟨first, others, hcs, hstretches⟩ := stretches_cons hc cs
      have hgrows : ['\n'].intercalate ((c :: first) :: others) =
          c :: ['\n'].intercalate (first :: others) := by
        cases others <;> simp [List.intercalate]
      rw [hstretches, hgrows, ← hcs, ih]

theorem withoutReturns_intercalate {pieces : List (List Char)}
    (h : ∀ piece ∈ pieces, '\n' ∉ piece) :
    withoutReturns (['\n'].intercalate pieces) =
      ['\n'].intercalate (pieces.map (dropTrailing (· == '\r'))) := by
  induction pieces with
  | nil => rfl
  | cons first others ih =>
    obtain ⟨hfirst, hothers⟩ := List.forall_mem_cons.1 h
    by_cases hne : others = []
    · have hsingle := withoutReturns_stretch_append hfirst (.inl rfl)
      rw [List.append_nil, withoutReturns, List.append_nil] at hsingle
      simpa [hne, List.intercalate] using hsingle
    · have hne' : others.map (dropTrailing (· == '\r')) ≠ [] := by simpa using hne
      rw [List.map_cons, List.intercalate_cons_of_ne_nil hne,
        List.intercalate_cons_of_ne_nil hne', ← ih hothers, List.append_assoc,
        withoutReturns_stretch_append hfirst (.inr rfl), List.append_assoc]
      rfl

/-! ## Lines by their numbers -/

/-- The lines of a text, without the carriage returns at their ends. -/
def lines (cs : List Char) : List (List Char) := (stretches cs).map (dropTrailing (· == '\r'))

theorem intercalate_lines (cs : List Char) : ['\n'].intercalate (lines cs) = withoutReturns cs := by
  rw [lines, ← withoutReturns_intercalate (newline_not_mem_stretches cs), intercalate_stretches]

theorem line?_succ (cs : List Char) (n : Nat) : line? cs (n + 1) = (lines cs)[n]? :=
  List.getElem?_map.symm

theorem length_lines (cs : List Char) : (lines cs).length = newlines cs + 1 := by
  rw [lines, List.length_map, length_stretches]

theorem mem_lines_of_line? {n : Nat} (h : line? cs n = some as) : as ∈ lines cs := by
  cases n with
  | zero => cases h
  | succ n =>
    rw [line?_succ] at h
    exact List.mem_of_getElem? h

theorem isSome_line?_iff (cs : List Char) (n : Nat) :
    (line? cs n).isSome = true ↔ 1 ≤ n ∧ n ≤ 1 + newlines cs := by
  cases n with
  | zero => simp [line?]
  | succ n =>
    rw [line?_succ, isSome_getElem?, length_lines]
    omega

theorem plain_of_mem_lines (h : as ∈ lines cs) : '\n' ∉ as ∧ as.getLast? ≠ some '\r' := by
  obtain ⟨stretch, hmem, rfl⟩ := List.mem_map.1 h
  refine ⟨?_, getLast?_dropTrailing_return stretch⟩
  intro hnewline
  exact newline_not_mem_stretches cs stretch hmem
    ((List.rdropWhile_prefix (· == '\r') stretch).subset hnewline)

theorem filterMap_getElem?_range {α : Type} (l : List α) :
    (List.range l.length).filterMap (l[·]?) = l := by
  induction l with
  | nil => rfl
  | cons a l ih => simpa [List.range_succ_eq_map, List.filterMap_map, Function.comp_def] using ih

theorem filterMap_line? (cs : List Char) :
    (List.range' 1 (1 + newlines cs)).filterMap (line? cs) = lines cs := by
  have hcount : 1 + newlines cs = (lines cs).length := by
    rw [length_lines, Nat.add_comm]
  have hline : line? cs ∘ (1 + ·) = ((lines cs)[·]?) := by
    funext n
    rw [Function.comp_apply, Nat.add_comm, line?_succ]
  rw [List.range'_eq_map_range, List.filterMap_map, hline, hcount, filterMap_getElem?_range]

end Text

namespace Source

theorem isSome_line?_iff (source : Source) (n : Nat) :
    (source.line? n).isSome = true ↔ 1 ≤ n ∧ n ≤ 1 + Text.newlines source.text.toList := by
  rw [line?, Option.isSome_map, Text.isSome_line?_iff]

/-- **The lines of a source make up its text.**  There is a line for every number from one to
one more than the newlines, and for no other.  No line holds a newline or ends in a carriage
return.  Joined with newlines, they are the text without the carriage returns that stand in
front of a newline or at the end. -/
theorem joined_lines (source : Source) :
    (∀ n, (source.line? n).isSome = true ↔
      1 ≤ n ∧ n ≤ 1 + Text.newlines source.text.toList) ∧
    (∀ n, ∀ line ∈ source.line? n, '\n' ∉ line.toList ∧ line.toList.getLast? ≠ some '\r') ∧
    "\n".intercalate
        ((List.range' 1 (1 + Text.newlines source.text.toList)).filterMap source.line?) =
      String.ofList (Text.withoutReturns source.text.toList) := by
  refine ⟨source.isSome_line?_iff, ?_, ?_⟩
  · intro n line hline
    obtain ⟨as, has, rfl⟩ := Option.map_eq_some_iff.1 hline
    rw [String.toList_ofList]
    exact Text.plain_of_mem_lines (Text.mem_lines_of_line? has)
  · have hlines : (List.range' 1 (1 + Text.newlines source.text.toList)).filterMap source.line? =
        (Text.lines source.text.toList).map String.ofList := by
      rw [← Text.filterMap_line?, List.map_filterMap]
      rfl
    rw [String.ext_iff, hlines, String.toList_intercalate, String.toList_ofList, List.map_map,
      ← Text.intercalate_lines]
    simp [Function.comp_def]

theorem joined_lines_returns :
    line? ⟨"a\r\r\n\rb\n\r", "mixed"⟩ 2 = some "\rb" ∧
    ('\n' ∉ "\rb".toList ∧ "\rb".toList.getLast? ≠ some '\r') ∧
    "\n".intercalate ((List.range' 1 3).filterMap (line? ⟨"a\r\r\n\rb\n\r", "mixed"⟩)) =
      "a\n\rb\n" := by
  have hsecond : line? ⟨"a\r\r\n\rb\n\r", "mixed"⟩ 2 = some "\rb" := by decide
  obtain ⟨_, hplain, hjoined⟩ := joined_lines ⟨"a\r\r\n\rb\n\r", "mixed"⟩
  exact ⟨hsecond, hplain 2 _ hsecond, hjoined⟩

end Source

end Scriptlet

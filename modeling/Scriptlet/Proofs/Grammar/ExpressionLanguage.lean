import Mathlib.Data.Set.Subsingleton
import Scriptlet.Proofs.Grammar.Expressions
/-!
# The language of expressions

Reading an expression on any level, from any place in any list of tokens, yields a tree
exactly when the tree is well-formed, binds tightly enough and is written with the
tokens that are passed.  Since reading yields one tree at most, so does the grammar.
-/

namespace Scriptlet

namespace Grammar

theorem expression_eq_ok_iff {level : Level} {c c' : Cursor} {e : Expr} :
    expression level c = .ok e c' ↔
      ∃ us, c.Passes us c' ∧ Derives level e us ∧ level.Stops c'.current := by
  constructor
  · intro h
    exact sound_atLevel (sound_primary c.remaining) level (Nat.le_refl _) h
  · rintro ⟨us, hpasses, hderives, hstops⟩
    exact (complete_of_derives hderives).1 (Nat.le_refl _) hpasses hstops

theorem Derives.ne_nil {level : Level} {e : Expr} {us : List Token} (h : Derives level e us) :
    us ≠ [] := by
  induction h with
  | next _ ih => exact ih
  | _ => simp

/-- Neither the end nor a token of a statement stands in an expression. -/
theorem Derives.kind_not_mem {level : Level} {e : Expr} {us : List Token}
    (h : Derives level e us) : ∀ t ∈ us, t.kind ∉ [.eof, .semicolon, .printWord] := by
  have inner : ∀ {kind : Kind}, kind.Inner → kind ∉ [.eof, .semicolon, .printWord] := by
    intro kind hinner hmem
    apply hinner
    simp only [List.mem_cons, List.not_mem_nil, or_false] at hmem
    rcases hmem with rfl | rfl | rfl <;> decide
  induction h with
  | next _ ih => exact ih
  | binary ho _ _ ihl ihr =>
    simp only [List.forall_mem_append, List.forall_mem_cons]
    exact ⟨ihl, inner (Kind.inner_of_mem_operators ho), ihr⟩
  | unary ho _ ih =>
    exact List.forall_mem_cons.2 ⟨inner (Kind.inner_of_mem_unaryOperators ho), ih⟩
  | literal h =>
    exact List.forall_mem_singleton.2 (inner (Kind.inner_of_mem_literals h.mem_literals))
  | grouping ho ht _ ih =>
    simp only [List.forall_mem_cons, List.forall_mem_append]
    exact ⟨by rw [ho]; decide, ih, by rw [ht]; decide, by simp⟩

theorem Derives.kind_ne_eof {level : Level} {e : Expr} {us : List Token}
    (h : Derives level e us) : ∀ t ∈ us, t.kind ≠ .eof := by
  intro t ht heof
  apply h.kind_not_mem t ht
  rw [heof]
  decide

theorem derives_iff_yields {e : Expr} {us : List Token} :
    Derives .default e us ↔ e.WellFormed ∧ e.Yields us := by
  simp [derives_iff, Level.rank]

/-- Reading from one place in a list to another: the tokens between the two are those of
the tree. -/
theorem expression_skip_eq_ok_iff {level : Level} {c d : Cursor} {p : Nat} {e : Expr} :
    expression level (c.skip p) = .ok e d ↔
      ∃ q, p ≤ q ∧ q ≤ c.remaining ∧ d = c.skip q ∧
        Derives level e ((c.ahead.take q).drop p) ∧ level.Stops d.current := by
  rw [expression_eq_ok_iff]
  constructor
  · rintro ⟨us, hpasses, hderives, hstops⟩
    have hahead : c.ahead.drop p = us ++ d.ahead := by rw [← Cursor.ahead_skip, hpasses.ahead]
    have hlength := congrArg List.length hahead
    have hpos := List.length_pos_iff.2 hderives.ne_nil
    rw [List.length_drop, List.length_append] at hlength
    have hus : (c.ahead.take (p + us.length)).drop p = us := by
      rw [List.drop_take, Nat.add_sub_cancel_left, hahead, List.take_left]
    refine ⟨p + us.length, Nat.le_add_right p _, ?_, ?_, hus.symm ▸ hderives, hstops⟩
    · rw [Cursor.remaining]
      omega
    · rw [hpasses.eq_skip, Cursor.skip_add]
  · rintro ⟨q, hpq, hq, rfl, hderives, hstops⟩
    have hle : q - p ≤ (c.skip p).remaining := by
      rw [Cursor.remaining, Cursor.ahead_skip, List.length_drop]
      rw [Cursor.remaining] at hq
      omega
    have hpasses := Cursor.passes_skip hle
    rw [Cursor.ahead_skip, ← List.drop_take, Cursor.skip_add, Nat.add_sub_cancel' hpq] at hpasses
    exact ⟨_, hpasses, hderives, hstops⟩

end Grammar

open Grammar

theorem Reader.expect_eof_eq_ok_iff {message : String} {c : Cursor} :
    (∃ t d, Reader.expect .eof message c = .ok t d) ↔ c.ahead = [] := by
  unfold Reader.expect
  cases hahead : c.ahead with
  | nil =>
    have heof := Cursor.kind_eq_eof_of_remaining (c := c) (by rw [Cursor.remaining, hahead]; rfl)
    simp [heof]
  | cons t rest =>
    have hkind : c.current.kind ≠ .eof := by
      apply Cursor.hasTokens_iff.1
      simp [Cursor.hasTokens, hahead]
    simp [hkind]

theorem Level.stops_of_ahead_nil {level : Level} {c : Cursor} (h : c.ahead = []) :
    level.Stops c.current := by
  apply stops_of_ofOperator?
  rw [Cursor.kind_eq_eof_of_remaining (by rw [Cursor.remaining, h]; rfl)]
  decide

/-- A list spells an expression when its tokens before the end are derived from it. -/
theorem Expr.ofTokens_eq_ok_iff {tokens : List Token} {file : String} {e : Expr} :
    Expr.ofTokens tokens file = .ok e ↔ Derives .default e (Token.beforeEnd tokens) := by
  rw [Expr.ofTokens, Reader.onTokens_eq_ok_iff]
  constructor
  · rintro ⟨c, h⟩
    obtain ⟨_, d, he, h⟩ := Reader.bind_eq_ok_iff.1 h
    obtain ⟨t, d', hend, h⟩ := Reader.bind_eq_ok_iff.1 h
    cases h
    obtain ⟨us, hpasses, hderives, _⟩ := expression_eq_ok_iff.1 he
    have hahead := hpasses.ahead
    rw [Reader.expect_eof_eq_ok_iff.1 ⟨t, c, hend⟩, List.append_nil] at hahead
    rwa [← hahead, Cursor.ahead_ofTokens] at hderives
  · intro hderives
    obtain ⟨d, hpasses, hahead⟩ := (Cursor.ofTokens tokens file).exists_passes_ahead
    rw [Cursor.ahead_ofTokens] at hpasses
    have he := expression_eq_ok_iff.2 ⟨_, hpasses, hderives, Level.stops_of_ahead_nil hahead⟩
    obtain ⟨t, d', hend⟩ := Reader.expect_eof_eq_ok_iff.2 hahead
    exact ⟨d', by rw [Reader.bind_of_ok he, Reader.bind_of_ok hend]; rfl⟩

theorem Expr.ofTokens_of_derives {e : Expr} {us : List Token} (file : String)
    (h : Derives .default e us) : Expr.ofTokens us file = .ok e := by
  rw [Expr.ofTokens_eq_ok_iff, Token.beforeEnd_eq_self h.kind_ne_eof]
  exact h

/-- **Reading accepts the grammar and builds its one tree.**  The tokens between two places
in a list are read as an expression of some level exactly when a well-formed tree that binds
tightly enough is written with them and the level stops behind them; a whole list is read as
the tree that its tokens before the end are written for; and there is at most one such tree
for any tokens. -/
theorem expression_reads_grammar (tokens : List Token) (file : String) :
    (∀ (level : Level) (p : Nat) (e : Expr) (c : Cursor),
      expression level ((Cursor.ofTokens tokens file).skip p) = .ok e c ↔
        ∃ q, p ≤ q ∧ q ≤ (Token.beforeEnd tokens).length ∧
          c = (Cursor.ofTokens tokens file).skip q ∧
          e.WellFormed ∧ level.rank ≤ e.level.rank ∧
          e.Yields (((Token.beforeEnd tokens).take q).drop p) ∧ level.Stops c.current) ∧
    (∀ e : Expr, Expr.ofTokens tokens file = .ok e ↔
      e.WellFormed ∧ e.Yields (Token.beforeEnd tokens)) ∧
    ∀ us : List Token, {e : Expr | e.WellFormed ∧ e.Yields us}.Subsingleton := by
  refine ⟨?_, ?_, ?_⟩
  · intro level p e c
    rw [expression_skip_eq_ok_iff]
    simp only [derives_iff, and_assoc]
    rfl
  · intro e
    rw [Expr.ofTokens_eq_ok_iff, derives_iff_yields]
  · rintro us e ⟨hw, hy⟩ e' ⟨hw', hy'⟩
    have hread := Expr.ofTokens_of_derives file (derives_iff_yields.2 ⟨hw, hy⟩)
    have hread' := Expr.ofTokens_of_derives file (derives_iff_yields.2 ⟨hw', hy'⟩)
    exact Except.ok.inj (hread.symm.trans hread')

example :
    Expr.ofTokens [⟨.nilWord, "nil", none, 1⟩, ⟨.dash, "-", none, 1⟩, ⟨.nilWord, "nil", none, 1⟩,
      ⟨.dash, "-", none, 2⟩, ⟨.nilWord, "nil", none, 2⟩] "chain" =
      .ok (.binary ⟨.dash, "-", none, 2⟩
        (.binary ⟨.dash, "-", none, 1⟩ (.literal .nil) (.literal .nil)) (.literal .nil)) := rfl

end Scriptlet

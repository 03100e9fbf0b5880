import Scriptlet.Grammar.Reader
/-!
# Passing over tokens

A cursor that moves on passes over tokens one by one.  Between two places in the same
list stand exactly the tokens that were passed, and nothing else about the cursor
changes.  The steps that readers are made of are described by the tokens they pass.
-/

namespace Scriptlet

def Token.beforeEnd (tokens : List Token) : List Token := tokens.takeWhile (·.kind != .eof)

theorem Token.beforeEnd_append {us : List Token} (h : ∀ t ∈ us, t.kind ≠ .eof)
    (rest : List Token) : beforeEnd (us ++ rest) = us ++ beforeEnd rest :=
  List.takeWhile_append_of_pos (by simpa using h)

theorem Token.beforeEnd_eq_self {us : List Token} (h : ∀ t ∈ us, t.kind ≠ .eof) :
    beforeEnd us = us := by
  simpa [beforeEnd] using beforeEnd_append h []

namespace Cursor

/-- The first cursor stands before the given tokens and the second one behind them. -/
structure Passes (c : Cursor) (us : List Token) (c' : Cursor) : Prop where
  ahead : c.ahead = us ++ c'.ahead
  behind : c'.behind = us.reverse ++ c.behind
  last : c'.last = c.last
  file : c'.file = c.file

def skip : Nat → Cursor → Cursor
  | 0, c => c
  | n + 1, c => skip n c.advance

theorem kind_eq_eof_of_remaining {c : Cursor} (h : c.remaining = 0) : c.current.kind = .eof := by
  have hahead : c.ahead = [] := List.eq_nil_of_length_eq_zero h
  rw [current, hahead]
  exact c.kind_last

theorem ahead_eq_current_cons {c : Cursor} (h : c.current.kind ≠ .eof) :
    c.ahead = c.current :: c.advance.ahead := by
  rw [ahead_advance, current]
  cases hahead : c.ahead with
  | nil => exact absurd (kind_eq_eof_of_remaining (by rw [remaining, hahead]; rfl)) h
  | cons t rest => rfl

theorem passes_advance {c : Cursor} (h : c.current.kind ≠ .eof) :
    c.Passes [c.current] c.advance where
  ahead := ahead_eq_current_cons h
  behind := by
    have hahead := ahead_eq_current_cons h
    have htokens := c.tokens_advance
    rw [hahead, List.append_cons, List.append_left_inj] at htokens
    simpa using congrArg List.reverse htokens
  last := c.last_advance
  file := c.file_advance

namespace Passes

variable {c c' c'' : Cursor} {t : Token} {us vs : List Token}

theorem refl (c : Cursor) : c.Passes [] c := ⟨rfl, rfl, rfl, rfl⟩

theorem trans (h : c.Passes us c') (h' : c'.Passes vs c'') : c.Passes (us ++ vs) c'' where
  ahead := by rw [h.ahead, h'.ahead, List.append_assoc]
  behind := by rw [h'.behind, h.behind, List.reverse_append, List.append_assoc]
  last := h'.last.trans h.last
  file := h'.file.trans h.file

theorem unique (h : c.Passes us c') (h' : c.Passes us c'') : c' = c'' := by
  have hahead : c'.ahead = c''.ahead := List.append_cancel_left (h.ahead.symm.trans h'.ahead)
  have hbehind : c'.behind = c''.behind := h.behind.trans h'.behind.symm
  have hlast : c'.last = c''.last := h.last.trans h'.last.symm
  have hfile : c'.file = c''.file := h.file.trans h'.file.symm
  cases c'
  cases c''
  simp_all

theorem remaining_eq (h : c.Passes us c') : c.remaining = us.length + c'.remaining := by
  rw [remaining, h.ahead, List.length_append, remaining]

theorem kind_ne_eof (h : c.Passes us c') (ht : t ∈ us) : t.kind ≠ .eof := by
  apply c.kind_ahead t
  rw [h.ahead]
  exact List.mem_append_left c'.ahead ht

theorem current_eq (h : c.Passes (t :: us) c') : c.current = t := by
  rw [current, h.ahead]
  rfl

theorem of_cons (h : c.Passes (t :: us) c') : c.advance.Passes us c' := by
  have ht : c.current.kind ≠ .eof := by
    rw [h.current_eq]
    exact h.kind_ne_eof List.mem_cons_self
  have hstep := passes_advance ht
  rw [h.current_eq] at hstep
  refine ⟨?_, ?_, h.last.trans hstep.last.symm, h.file.trans hstep.file.symm⟩
  · exact List.tail_eq_of_cons_eq (hstep.ahead.symm.trans h.ahead)
  · rw [h.behind, hstep.behind]
    simp

theorem of_append (h : c.Passes (us ++ vs) c') : ∃ d, c.Passes us d ∧ d.Passes vs c' := by
  induction us generalizing c with
  | nil => exact ⟨c, refl c, h⟩
  | cons t us ih =>
    have hstep : c.Passes [t] c.advance := by
      have hcurrent := h.current_eq
      have ht := h.kind_ne_eof (t := t) List.mem_cons_self
      rw [← hcurrent] at ht ⊢
      exact passes_advance ht
    obtain ⟨d, hus, hvs⟩ := ih h.of_cons
    exact ⟨d, hstep.trans hus, hvs⟩

end Passes

theorem ahead_skip (n : Nat) (c : Cursor) : (c.skip n).ahead = c.ahead.drop n := by
  induction n generalizing c with
  | zero => rfl
  | succ n ih => rw [skip, ih, ahead_advance, List.drop_tail]

theorem skip_add (m n : Nat) (c : Cursor) : (c.skip m).skip n = c.skip (m + n) := by
  induction m generalizing c with
  | zero => rw [skip, Nat.zero_add]
  | succ m ih => rw [skip, ih, Nat.succ_add, skip]

theorem passes_skip {n : Nat} {c : Cursor} (h : n ≤ c.remaining) :
    c.Passes (c.ahead.take n) (c.skip n) := by
  induction n generalizing c with
  | zero => exact Passes.refl c
  | succ n ih =>
    have hcurrent : c.current.kind ≠ .eof := by
      apply hasTokens_iff.1
      cases hahead : c.ahead <;> simp_all [remaining, hasTokens]
    have hahead := ahead_eq_current_cons hcurrent
    have hle : n ≤ c.advance.remaining := by
      rw [remaining, hahead, List.length_cons] at h
      exact Nat.le_of_succ_le_succ h
    rw [hahead, List.take_succ_cons]
    exact (passes_advance hcurrent).trans (ih hle)

theorem Passes.eq_skip {c c' : Cursor} {us : List Token} (h : c.Passes us c') :
    c' = c.skip us.length := by
  have hle : us.length ≤ c.remaining := by
    have := h.remaining_eq
    omega
  have hskip := passes_skip hle
  rw [h.ahead, List.take_left] at hskip
  exact h.unique hskip

theorem endOf_append {us : List Token} (hus : ∀ t ∈ us, t.kind ≠ .eof) {t : Token}
    (ht : t.kind = .eof) (rest : List Token) : endOf (us ++ t :: rest) = t := by
  have hnone : us.find? (·.kind == .eof) = none := by simpa using hus
  rw [endOf, List.find?_append, hnone, Option.none_or, List.find?_cons_of_pos (by simp [ht]),
    Option.getD_some]

theorem Passes.split {c c' : Cursor} {us : List Token} (h : c.Passes us c') :
    ∃ rest, c.ahead ++ [c.last] = us ++ c'.current :: rest := by
  rw [h.ahead, ← h.last, List.append_assoc, current]
  cases c'.ahead with
  | nil => exact ⟨[], rfl⟩
  | cons t rest => exact ⟨rest ++ [c'.last], rfl⟩

theorem ahead_ofTokens (tokens : List Token) (file : String) :
    (ofTokens tokens file).ahead = Token.beforeEnd tokens := rfl

/-- From any place the end is reached over all the tokens ahead. -/
theorem exists_passes_ahead (c : Cursor) : ∃ c', c.Passes c.ahead c' ∧ c'.ahead = [] := by
  have hskip := passes_skip (Nat.le_refl c.remaining)
  rw [remaining, List.take_length] at hskip
  exact ⟨_, hskip, by rw [ahead_skip, List.drop_length]⟩

end Cursor

namespace Reader

variable {α β : Type} {c c' : Cursor}

theorem bind_of_ok {reader : Reader α} {further : α → Reader β} {a : α}
    (h : reader c = .ok a c') : (reader >>= further) c = further a c' := by
  change EStateM.bind reader further c = _
  rw [EStateM.bind, h]

theorem bind_eq_ok_iff {reader : Reader α} {further : α → Reader β} {b : β} :
    (reader >>= further) c = .ok b c' ↔
      ∃ a d, reader c = .ok a d ∧ further a d = .ok b c' := by
  change EStateM.bind reader further c = _ ↔ _
  unfold EStateM.bind
  cases h : reader c <;> simp [and_assoc]

theorem bind_eq_error_iff {reader : Reader α} {further : α → Reader β} {e : Diagnostic} :
    (reader >>= further) c = .error e c' ↔
      reader c = .error e c' ∨ ∃ a d, reader c = .ok a d ∧ further a d = .error e c' := by
  change EStateM.bind reader further c = _ ↔ _
  unfold EStateM.bind
  cases h : reader c <;> simp [and_assoc]

theorem bind_eq_of_eq {reader other : Reader α} {further : α → Reader β}
    (h : reader c = other c) : (reader >>= further) c = (other >>= further) c := by
  change EStateM.bind reader further c = EStateM.bind other further c
  rw [EStateM.bind, EStateM.bind, h]

/-- A reader takes some tokens when it succeeds by passing over them. -/
structure Takes (reader : Reader α) (c : Cursor) (us : List Token) (a : α) (c' : Cursor) :
    Prop where
  eq_ok : reader c = .ok a c'
  passes : c.Passes us c'

theorem onTokens_eq_ok_iff {reader : Reader α} {tokens : List Token}
    {file : String} {a : α} :
    reader.onTokens tokens file = .ok a ↔ ∃ c, reader (Cursor.ofTokens tokens file) = .ok a c := by
  unfold onTokens
  cases h : reader (Cursor.ofTokens tokens file) <;> simp

theorem onTokens_eq_error_iff {reader : Reader α} {tokens : List Token}
    {file : String} {d : Diagnostic} :
    reader.onTokens tokens file = .error d ↔
      ∃ c, reader (Cursor.ofTokens tokens file) = .error d c := by
  unfold onTokens
  cases h : reader (Cursor.ofTokens tokens file) <;> simp

/-! ## The steps of readers -/

theorem takes_advance (h : c.current.kind ≠ .eof) :
    Takes advance c [c.current] c.current c.advance := by
  refine ⟨?_, Cursor.passes_advance h⟩
  rw [advance, Cursor.previous_advance (Cursor.hasTokens_iff.2 h)]

theorem takes_accept? {kinds : List Kind} (h : c.current.kind ∈ kinds)
    (hkinds : Kind.eof ∉ kinds) :
    Takes (accept? kinds) c [c.current] (some c.current) c.advance := by
  have hcurrent : c.current.kind ≠ .eof := fun heof => hkinds (heof ▸ h)
  refine ⟨?_, Cursor.passes_advance hcurrent⟩
  rw [accept?, if_pos h, Cursor.previous_advance (Cursor.hasTokens_iff.2 hcurrent)]

theorem accept?_of_not_mem {kinds : List Kind} (h : c.current.kind ∉ kinds) :
    accept? kinds c = .ok none c := if_neg h

theorem takes_expect {kind : Kind} (message : String) (h : c.current.kind = kind)
    (hkind : kind ≠ .eof) :
    Takes (expect kind message) c [c.current] c.current c.advance := by
  have hcurrent : c.current.kind ≠ .eof := h ▸ hkind
  refine ⟨?_, Cursor.passes_advance hcurrent⟩
  rw [expect, if_pos h, Cursor.previous_advance (Cursor.hasTokens_iff.2 hcurrent)]

theorem passes_of_expect {kind : Kind} {message : String} {t : Token} (hkind : kind ≠ .eof)
    (h : expect kind message c = .ok t c') : t.kind = kind ∧ c.Passes [t] c' := by
  by_cases hcurrent : c.current.kind = kind
  · have htakes := takes_expect message hcurrent hkind
    rw [htakes.eq_ok] at h
    cases h
    exact ⟨hcurrent, htakes.passes⟩
  · rw [expect, if_neg hcurrent] at h
    cases h

theorem eq_of_expect_error {kind : Kind} {message : String} {e : Diagnostic}
    (h : expect kind message c = .error e c') :
    c.current.kind ≠ kind ∧ c' = c ∧
      e = ⟨.expectedToken message c.current.lexeme, c.position⟩ := by
  by_cases hcurrent : c.current.kind = kind
  · rw [expect, if_pos hcurrent] at h
    cases h
  · rw [expect, if_neg hcurrent] at h
    cases h
    exact ⟨hcurrent, rfl, rfl⟩

end Reader

end Scriptlet

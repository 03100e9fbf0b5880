import Scriptlet.Proofs.Grammar.Closed
import Scriptlet.Proofs.Relining
/-!
# Reading does not look at lines

Tokens that are moved to other lines are read as the same trees, with the operators moved
alike, and they are refused at the same token for the same reason.
-/

namespace Scriptlet

namespace Token

variable (f : Nat → Nat)

theorem beforeEnd_map_mapLine (tokens : List Token) :
    beforeEnd (tokens.map (mapLine f)) = (beforeEnd tokens).map (mapLine f) :=
  List.takeWhile_map

theorem Spells.mapLine {t : Token} {value : Value} (h : t.Spells value) :
    (t.mapLine f).Spells value := by
  cases h with
  | trueWord h => exact .trueWord h
  | falseWord h => exact .falseWord h
  | nilWord h => exact .nilWord h
  | number h hx => exact .number h hx
  | string h hs => exact .string h hs

theorem Agrees.spells {t u : Token} {value : Value} (h : t.Agrees u) (hspells : t.Spells value) :
    u.Spells value := by
  cases hspells with
  | trueWord hkind => exact .trueWord (h.kind ▸ hkind)
  | falseWord hkind => exact .falseWord (h.kind ▸ hkind)
  | nilWord hkind => exact .nilWord (h.kind ▸ hkind)
  | number hkind hx => exact .number (h.kind ▸ hkind) (h.literal ▸ hx)
  | string hkind hs => exact .string (h.kind ▸ hkind) (h.literal ▸ hs)

theorem Shaped.map_mapLine {tokens : List Token} (h : Shaped tokens) :
    Shaped (tokens.map (mapLine f)) := by
  obtain ⟨⟨us, last, rfl, hlast, hus⟩, hcarries⟩ := h
  refine ⟨⟨us.map (mapLine f), last.mapLine f, by simp, hlast, ?_⟩, ?_⟩
  · exact List.forall_mem_map.2 hus
  · exact List.forall_mem_map.2 hcarries

end Token

namespace Grammar

open Token

variable (f : Nat → Nat)

theorem Derives.mapLines {level : Level} {e : Expr} {us : List Token} (h : Derives level e us) :
    Derives level (e.mapLines f) (us.map (mapLine f)) := by
  induction h with
  | next _ ih => exact .next ih
  | binary ho _ _ ihl ihr =>
    rw [List.map_append, List.map_cons]
    exact .binary ho ihl ihr
  | unary ho _ ih => exact .unary ho ih
  | literal h => exact .literal (h.mapLine f)
  | grouping ho hc _ ih =>
    rw [List.map_cons, List.map_append]
    exact .grouping ho hc ih

theorem yields_mapLines {statement : Stmt} {us : List Token} (h : statement.Yields us) :
    (statement.mapLines f).Yields (us.map (mapLine f)) := by
  cases h with
  | @print w s e us hw hs he hy =>
    obtain ⟨he', hy'⟩ := derives_iff_yields.1 ((derives_iff_yields.2 ⟨he, hy⟩).mapLines f)
    rw [List.map_cons, List.map_append]
    exact .print hw hs he' hy'
  | @expression s e us hs he hy =>
    obtain ⟨he', hy'⟩ := derives_iff_yields.1 ((derives_iff_yields.2 ⟨he, hy⟩).mapLines f)
    rw [List.map_append]
    exact .expression hs he' hy'

theorem segments_mapLines {program : List Stmt} {segments : List (List Token)}
    (h : List.Forall₂ Stmt.Yields program segments) :
    List.Forall₂ Stmt.Yields (program.map (Stmt.mapLines f))
      (segments.map (List.map (mapLine f))) := by
  rw [List.forall₂_map_left_iff, List.forall₂_map_right_iff]
  exact h.imp fun _ _ hyields => yields_mapLines f hyields

theorem closed_map_mapLine_iff {tokens : List Token} :
    Closed (tokens.map (mapLine f)) ↔ Closed tokens := by
  rw [Closed, Closed, beforeEnd_map_mapLine, List.getLast?_map]
  constructor
  · intro h t ht
    exact h (t.mapLine f) (by rw [ht]; rfl)
  · intro h t ht
    obtain ⟨u, hu, rfl⟩ := Option.map_eq_some_iff.1 ht
    exact h u hu

namespace Phase

theorem step_mapLine (phase : Phase) (t : Token) : phase.step (t.mapLine f) = phase.step t := by
  cases phase <;> rfl

theorem run_map_mapLine (phase : Phase) (us : List Token) :
    phase.run (us.map (mapLine f)) = phase.run us := by
  induction us generalizing phase with
  | nil => rfl
  | cons t us ih =>
    rw [List.map_cons, run_cons, run_cons, step_mapLine]
    exact congrArg (phase.step t).bind (funext ih)

/-- The fault of a token that cannot stand where it does is about no operator. -/
theorem mapLines_fault (phase : Phase) (t : Token) :
    (phase.fault t).mapLines f = phase.fault (t.mapLine f) := by
  unfold fault
  split <;> rfl

end Phase

/-- Tokens on other lines are read as the same program, or refused for the same reason, on
those lines. -/
theorem ofTokens_map_mapLine {tokens : List Token} (hshaped : Shaped tokens) (file : String) :
    Stmt.ofTokens (tokens.map (mapLine f)) file =
      ((Stmt.ofTokens tokens file).map (List.map (Stmt.mapLines f))).mapError
        (Diagnostic.mapLines f) := by
  cases h : Stmt.ofTokens tokens file with
  | ok program =>
    obtain ⟨_, segments, hflatten, hall⟩ | ⟨_, e, hderives, rfl⟩ := closed_or_of_ofTokens h
    · refine ofTokens_of_segments file ?_ (segments_mapLines f hall)
      rw [beforeEnd_map_mapLine, hflatten, List.map_flatten]
    · refine ofTokens_of_derives file ?_
      rw [beforeEnd_map_mapLine]
      exact hderives.mapLines f
  | error d =>
    obtain ⟨us, t, rest, phase, rfl, hrun, hstep, rfl⟩ := (ofTokens_eq_error_iff hshaped).1 h
    refine (ofTokens_eq_error_iff (hshaped.map_mapLine f)).2
      ⟨us.map (mapLine f), t.mapLine f, rest.map (mapLine f), phase, ?_, ?_, ?_, ?_⟩
    · rw [List.map_append, List.map_cons]
    · rw [Phase.run_map_mapLine, hrun]
    · rw [Phase.step_mapLine, hstep]
    · rw [← Phase.mapLines_fault]
      rfl

end Grammar

end Scriptlet

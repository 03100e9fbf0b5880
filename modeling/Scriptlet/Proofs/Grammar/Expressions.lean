import Scriptlet.Grammar.Expression
import Scriptlet.Proofs.Grammar.Passing
import Scriptlet.Proofs.Grammar.Phases
/-!
# What reading an expression yields

A reader of some level yields exactly the trees that the grammar derives on that level
from the tokens it passes, and it stops only before a token that no operator of the
level, or of a tighter one, could be.  Both directions are shown for every reader that
is given a sufficient bound, so the bound never shows in a result.
-/

namespace Scriptlet

namespace Level

/-- Whether reading on this level stops before a token: it is no operator of the level
or of a tighter one. -/
def Stops (level : Level) (t : Token) : Prop :=
  ∀ other : Level, level.rank ≤ other.rank → t.kind ∉ other.operators

/-- The levels from the tightest to the loosest, each from the one above it. -/
theorem descend {motive : Level → Prop} (primary : motive .primary)
    (unary : motive .primary → motive .unary)
    (binary : ∀ level : Level, level.operators ≠ [] → motive level.next → motive level)
    (default : motive .equality → motive .default) (level : Level) : motive level := by
  have hunary : motive .unary := unary primary
  have hfactor : motive .factor := binary .factor (by decide) hunary
  have hterm : motive .term := binary .term (by decide) hfactor
  have hcomparison : motive .comparison := binary .comparison (by decide) hterm
  have hequality : motive .equality := binary .equality (by decide) hcomparison
  have hdefault : motive .default := default hequality
  cases level <;> assumption

theorem eof_not_mem_operators (level : Level) : Kind.eof ∉ level.operators :=
  fun h => (Kind.inner_of_mem_operators h).ne_eof rfl

theorem stops_of_ofOperator? {level : Level} {t : Token} (h : ofOperator? t.kind = none) :
    level.Stops t :=
  fun other _ => ofOperator?_eq_none_iff.1 h other

theorem stops_unary (t : Token) : unary.Stops t := by
  intro other hle
  cases other <;> simp_all [rank, operators]

theorem Stops.of_next {level : Level} {t : Token} (h : level.next.Stops t)
    (ht : t.kind ∉ level.operators) : level.Stops t := by
  intro other hle
  by_cases heq : other = level
  · exact heq ▸ ht
  · apply h
    have hne : other.rank ≠ level.rank := fun hr => heq (rank_injective hr)
    have hnext : level.next.rank ≤ level.rank + 1 := by cases level <;> decide
    omega

theorem Stops.next {level : Level} {t : Token} (h : level.Stops t) : level.next.Stops t :=
  fun other hle => h other (Nat.le_trans level.rank_le_rank_next hle)

theorem stops_next_of_mem {level : Level} {t : Token} (h : t.kind ∈ level.operators) :
    level.next.Stops t := by
  intro other hle hmem
  have heq := eq_of_mem_operators h hmem
  have hnext := rank_next (ne_primary_of_mem_operators h)
  subst heq
  omega

end Level

namespace Grammar

open Reader

/-! ## One step of each reader -/

section Steps

variable {c : Cursor} {operators : List Kind} {operand : Reader Expr}

theorem takes_literal {value : Value} (h : c.current.Spells value) :
    Takes literal c [c.current] (.literal value) c.advance := by
  refine ⟨?_, Cursor.passes_advance h.kind_ne_eof⟩
  rw [literal, bind_of_ok (rfl : current c = .ok c.current c),
    Token.value?_eq_some_iff.2 h]
  exact bind_of_ok (takes_advance h.kind_ne_eof).eq_ok

theorem literal_of_none (h : c.current.value? = none) :
    literal c = .error ⟨.expectedExpression c.current.lexeme, c.position⟩ c := by
  rw [literal, bind_of_ok (rfl : current c = .ok c.current c), h]
  rfl

theorem chainFrom_of_mem (bound : Nat) (left : Expr) (h : c.current.kind ∈ operators)
    (heof : Kind.eof ∉ operators) :
    chainFrom operators operand (bound + 1) left c =
      (operand >>= fun right =>
        chainFrom operators operand bound (.binary c.current left right)) c.advance := by
  rw [chainFrom, bind_of_ok (takes_accept? h heof).eq_ok]

theorem chainFrom_of_not_mem (bound : Nat) (left : Expr) (h : c.current.kind ∉ operators) :
    chainFrom operators operand bound left c = .ok left c := by
  cases bound with
  | zero => rfl
  | succ bound =>
    rw [chainFrom, bind_of_ok (accept?_of_not_mem h)]
    rfl

theorem prefixed_of_mem (bound : Nat) (h : c.current.kind ∈ Kind.unaryOperators) :
    prefixed operand (bound + 1) c =
      (prefixed operand bound >>= fun e => pure (.unary c.current e)) c.advance := by
  rw [prefixed, bind_of_ok (takes_accept? h (by decide)).eq_ok]

theorem prefixed_of_not_mem (bound : Nat) (h : c.current.kind ∉ Kind.unaryOperators) :
    prefixed operand bound c = operand c := by
  cases bound with
  | zero => rfl
  | succ bound => rw [prefixed, bind_of_ok (accept?_of_not_mem h)]

theorem primary_of_mem_literals (bound : Nat) (h : c.current.kind ∈ Kind.literals) :
    primary (bound + 1) c = literal c := by
  rw [primary, bind_of_ok (rfl : current c = .ok c.current c)]
  exact congrFun (if_pos h) c

theorem primary_of_openParen (bound : Nat) (h : c.current.kind = .openParen) :
    primary (bound + 1) c =
      (atLevel (primary bound) bound .default >>= fun e =>
        expect .closeParen "expect ')' after expression." >>= fun _ =>
          pure (.grouping e)) c.advance := by
  have hliteral : c.current.kind ∉ Kind.literals := by rw [h]; decide
  rw [primary, bind_of_ok (rfl : current c = .ok c.current c)]
  refine (congrFun (if_neg hliteral) c).trans ((congrFun (if_pos h) c).trans ?_)
  exact bind_of_ok (rfl : advance c = .ok _ c.advance)

theorem primary_of_not_mem (bound : Nat) (h : c.current.kind ∉ Kind.literals)
    (hopen : c.current.kind ≠ .openParen) :
    primary bound c = .error ⟨.expectedExpression c.current.lexeme, c.position⟩ c := by
  cases bound with
  | zero => rfl
  | succ bound =>
    rw [primary, bind_of_ok (rfl : current c = .ok c.current c)]
    exact (congrFun (if_neg h) c).trans (congrFun (if_neg hopen) c)

end Steps

/-! ## Readers yield derived trees -/

/-- Within a bound, a reader yields what a level derives from the tokens that it passes,
and stops where the level does. -/
def Sound (level : Level) (reader : Reader Expr) (bound : Nat) : Prop :=
  ∀ ⦃c : Cursor⦄ ⦃e : Expr⦄ ⦃c' : Cursor⦄, c.remaining ≤ bound → reader c = .ok e c' →
    ∃ us, c.Passes us c' ∧ Derives level e us ∧ level.Stops c'.current

theorem remaining_advance_lt {c : Cursor} (h : c.current.kind ≠ .eof) :
    c.advance.remaining < c.remaining := by
  have := (Cursor.passes_advance h).remaining_eq
  simp only [List.length_singleton] at this
  omega

theorem sound_prefixed {operand : Reader Expr} {bound : Nat}
    (ho : Sound .primary operand bound) (further : Nat) :
    ∀ ⦃c e c'⦄, c.remaining ≤ further → c.remaining ≤ bound →
      prefixed operand further c = .ok e c' →
      ∃ us, c.Passes us c' ∧ Derives .unary e us := by
  induction further with
  | zero =>
    intro c e c' _ hbound h
    obtain ⟨us, hpasses, hderives, _⟩ := ho hbound h
    exact ⟨us, hpasses, .next hderives⟩
  | succ further ih =>
    intro c e c' hfurther hbound h
    by_cases hmem : c.current.kind ∈ Kind.unaryOperators
    · have hkind := (Kind.inner_of_mem_unaryOperators hmem).ne_eof
      have hlt := remaining_advance_lt hkind
      rw [prefixed_of_mem further hmem] at h
      obtain ⟨operand, d, hoperand, h⟩ := bind_eq_ok_iff.1 h
      cases h
      obtain ⟨us, hpasses, hderives⟩ := ih (by omega) (by omega) hoperand
      exact ⟨_, (Cursor.passes_advance hkind).trans hpasses, .unary hmem hderives⟩
    · rw [prefixed_of_not_mem _ hmem] at h
      obtain ⟨us, hpasses, hderives, _⟩ := ho hbound h
      exact ⟨us, hpasses, .next hderives⟩

theorem sound_chainFrom_of_not_mem {level : Level} {operand : Reader Expr} {further : Nat}
    {c c' : Cursor} {left e : Expr} (hmem : c.current.kind ∉ level.operators)
    (hstops : level.next.Stops c.current)
    (h : chainFrom level.operators operand further left c = .ok e c') :
    ∃ us, c.Passes us c' ∧ level.Stops c'.current ∧
      ∀ vs, Derives level left vs → Derives level e (vs ++ us) := by
  rw [chainFrom_of_not_mem _ _ hmem] at h
  cases h
  exact ⟨[], .refl c, hstops.of_next hmem, fun vs hvs => by rwa [List.append_nil]⟩

theorem sound_chainFrom {level : Level} {operand : Reader Expr} {bound : Nat}
    (ho : Sound level.next operand bound) (further : Nat) :
    ∀ ⦃c left e c'⦄, c.remaining ≤ further → c.remaining ≤ bound →
      level.next.Stops c.current → chainFrom level.operators operand further left c = .ok e c' →
      ∃ us, c.Passes us c' ∧ level.Stops c'.current ∧
        ∀ vs, Derives level left vs → Derives level e (vs ++ us) := by
  induction further with
  | zero =>
    intro c left e c' hfurther _ hstops h
    have heof := Cursor.kind_eq_eof_of_remaining (Nat.le_zero.1 hfurther)
    have hmem : c.current.kind ∉ level.operators := heof ▸ level.eof_not_mem_operators
    exact sound_chainFrom_of_not_mem hmem hstops h
  | succ further ih =>
    intro c left e c' hfurther hbound hstops h
    by_cases hmem : c.current.kind ∈ level.operators
    · -- the tree read so far becomes the left operand
      have hkind := (Kind.inner_of_mem_operators hmem).ne_eof
      have hlt := remaining_advance_lt hkind
      rw [chainFrom_of_mem _ _ hmem level.eof_not_mem_operators] at h
      obtain ⟨right, d, hright, h⟩ := bind_eq_ok_iff.1 h
      obtain ⟨us, hpasses, hderives, hstops'⟩ := ho (by omega) hright
      have hle := hpasses.remaining_eq
      obtain ⟨ws, hpasses', hlast, hgrow⟩ := ih (by omega) (by omega) hstops' h
      refine ⟨_, ((Cursor.passes_advance hkind).trans hpasses).trans hpasses', hlast, ?_⟩
      intro vs hvs
      simpa using hgrow _ (.binary hmem hvs hderives)
    · exact sound_chainFrom_of_not_mem hmem hstops h

theorem sound_chain {level : Level} {operand : Reader Expr} {bound : Nat}
    (ho : Sound level.next operand bound) :
    Sound level (chain level.operators operand bound) bound := by
  intro c e c' hbound h
  obtain ⟨left, d, hleft, h⟩ := bind_eq_ok_iff.1 h
  obtain ⟨us, hpasses, hderives, hstops⟩ := ho hbound hleft
  have hle := hpasses.remaining_eq
  obtain ⟨vs, hpasses', hlast, hgrow⟩ := sound_chainFrom ho bound (by omega) (by omega) hstops h
  exact ⟨_, hpasses.trans hpasses', hgrow us (.next hderives), hlast⟩

theorem sound_atLevel {bound : Nat} (hprimary : Sound .primary (primary bound) bound)
    (level : Level) : Sound level (atLevel (primary bound) bound level) bound := by
  induction level using Level.descend with
  | primary => exact hprimary
  | unary ih =>
    intro c e c' hbound h
    obtain ⟨us, hpasses, hderives⟩ := sound_prefixed ih bound hbound hbound h
    exact ⟨us, hpasses, hderives, Level.stops_unary _⟩
  | binary level hlevel ih =>
    rw [atLevel_of_operators hlevel]
    exact sound_chain ih
  | default ih =>
    intro c e c' hbound h
    obtain ⟨us, hpasses, hderives, hstops⟩ := ih hbound h
    exact ⟨us, hpasses, .next hderives, Level.Stops.of_next hstops List.not_mem_nil⟩

theorem sound_primary (bound : Nat) : Sound .primary (primary bound) bound := by
  induction bound with
  | zero =>
    intro c e c' _ h
    cases h
  | succ bound ih =>
    intro c e c' hbound h
    have hlast : Level.primary.Stops c'.current := Level.Stops.next (Level.stops_unary _)
    by_cases hliteral : c.current.kind ∈ Kind.literals
    · rw [primary_of_mem_literals bound hliteral] at h
      cases hvalue : c.current.value? with
      | none =>
        rw [literal_of_none hvalue] at h
        cases h
      | some value =>
        have hspells := Token.value?_eq_some_iff.1 hvalue
        have htakes := takes_literal hspells
        rw [htakes.eq_ok] at h
        cases h
        exact ⟨_, htakes.passes, .literal hspells, hlast⟩
    by_cases hopen : c.current.kind = .openParen
    · -- the bracket itself uses up one token, so the smaller bound is sufficient inside it
      have hkind : c.current.kind ≠ .eof := by rw [hopen]; decide
      have hlt := remaining_advance_lt hkind
      rw [primary_of_openParen bound hopen] at h
      obtain ⟨inner, d, hinner, h⟩ := bind_eq_ok_iff.1 h
      obtain ⟨t, d', hclose, h⟩ := bind_eq_ok_iff.1 h
      cases h
      obtain ⟨us, hpasses, hderives, _⟩ := sound_atLevel ih .default (by omega) hinner
      obtain ⟨hkind', hpasses'⟩ := passes_of_expect (by decide) hclose
      exact ⟨_, (Cursor.passes_advance hkind).trans (hpasses.trans hpasses'),
        .grouping hopen hkind' hderives, hlast⟩
    · rw [primary_of_not_mem _ hliteral hopen] at h
      cases h

/-! ## Derived trees are read -/

/-- Reading on a level yields a tree from its tokens, whatever stands behind them, provided
that the level stops there. -/
def Complete (level : Level) (e : Expr) (us : List Token) : Prop :=
  ∀ ⦃bound : Nat⦄ ⦃c c' : Cursor⦄, c.remaining ≤ bound → c.Passes us c' →
    level.Stops c'.current → atLevel (primary bound) bound level c = .ok e c'

/-- Reading on a level comes to a tree as the left operand of what may follow. -/
def Leads (level : Level) (e : Expr) (us : List Token) : Prop :=
  ∀ ⦃bound : Nat⦄ ⦃c c' : Cursor⦄, c.remaining ≤ bound → c.Passes us c' →
    level.next.Stops c'.current → ∃ further, c'.remaining ≤ further ∧
      atLevel (primary bound) bound level c =
        chainFrom level.operators (atLevel (primary bound) bound level.next) further e c'

theorem Leads.complete {level : Level} {e : Expr} {us : List Token} (h : Leads level e us) :
    Complete level e us := by
  intro bound c c' hbound hpasses hstops
  obtain ⟨further, _, heq⟩ := h hbound hpasses hstops.next
  rw [heq, chainFrom_of_not_mem further e (hstops level (Nat.le_refl _))]

theorem Complete.leads {level : Level} {e : Expr} {us : List Token}
    (hlevel : level.operators ≠ []) (h : Complete level.next e us) : Leads level e us := by
  intro bound c c' hbound hpasses hstops
  have hle := hpasses.remaining_eq
  refine ⟨bound, by omega, ?_⟩
  rw [atLevel_of_operators hlevel]
  exact bind_of_ok (h hbound hpasses hstops)

theorem Leads.binary {level : Level} {operator : Token} {left right : Expr}
    {us vs : List Token} (ho : operator.kind ∈ level.operators) (hl : Leads level left us)
    (hr : Complete level.next right vs) :
    Leads level (.binary operator left right) (us ++ operator :: vs) := by
  intro bound c c' hbound hpasses hstops
  obtain ⟨d, hleft, hright⟩ := hpasses.of_append
  have hcurrent := hright.current_eq
  have hmem : d.current.kind ∈ level.operators := hcurrent ▸ ho
  obtain ⟨further, hfurther, heq⟩ := hl hbound hleft (Level.stops_next_of_mem hmem)
  have hle := hleft.remaining_eq
  have hle' := hright.remaining_eq
  have hle'' := hright.of_cons.remaining_eq
  rw [List.length_cons] at hle'
  obtain ⟨further, rfl⟩ : ∃ k, further = k + 1 := ⟨further - 1, by omega⟩
  refine ⟨further, by omega, ?_⟩
  rw [heq, chainFrom_of_mem _ _ hmem level.eof_not_mem_operators,
    bind_of_ok (hr (by omega) hright.of_cons hstops), hcurrent]

/-- A bound that is sufficient does not show in what is read. -/
theorem prefixed_eq_of_remaining_le {operand : Reader Expr} (m : Nat) :
    ∀ {n : Nat} {c : Cursor}, c.remaining ≤ m → c.remaining ≤ n →
      prefixed operand m c = prefixed operand n c := by
  induction m with
  | zero =>
    intro n c hm _
    have hmem : c.current.kind ∉ Kind.unaryOperators := by
      rw [Cursor.kind_eq_eof_of_remaining (Nat.le_zero.1 hm)]
      decide
    rw [prefixed_of_not_mem _ hmem, prefixed_of_not_mem _ hmem]
  | succ m ih =>
    intro n c hm hn
    by_cases hmem : c.current.kind ∈ Kind.unaryOperators
    · have hkind := (Kind.inner_of_mem_unaryOperators hmem).ne_eof
      have hlt := remaining_advance_lt hkind
      obtain ⟨n, rfl⟩ : ∃ k, n = k + 1 := ⟨n - 1, by omega⟩
      rw [prefixed_of_mem m hmem, prefixed_of_mem n hmem]
      exact bind_eq_of_eq (ih (by omega) (by omega))
    · rw [prefixed_of_not_mem _ hmem, prefixed_of_not_mem _ hmem]

theorem Complete.unary {operator : Token} {e : Expr} {us : List Token}
    (ho : operator.kind ∈ Kind.unaryOperators) (h : Complete .unary e us) :
    Complete .unary (.unary operator e) (operator :: us) := by
  intro bound c c' hbound hpasses hstops
  have hcurrent := hpasses.current_eq
  have hmem : c.current.kind ∈ Kind.unaryOperators := hcurrent ▸ ho
  have hle := hpasses.remaining_eq
  have hle' := hpasses.of_cons.remaining_eq
  rw [List.length_cons] at hle
  obtain ⟨bound, rfl⟩ : ∃ k, bound = k + 1 := ⟨bound - 1, by omega⟩
  have hoperand : prefixed (primary (bound + 1)) bound c.advance = .ok e c' := by
    rw [prefixed_eq_of_remaining_le bound (n := bound + 1) (by omega) (by omega)]
    exact @h (bound + 1) _ _ (by omega) hpasses.of_cons hstops
  refine (prefixed_of_mem bound hmem).trans ?_
  rw [bind_of_ok hoperand, hcurrent]
  rfl

theorem Complete.literal {t : Token} {value : Value} (h : t.Spells value) :
    Complete .primary (.literal value) [t] := by
  intro bound c c' hbound hpasses _
  have hcurrent := hpasses.current_eq
  have hle := hpasses.remaining_eq
  rw [List.length_singleton] at hle
  obtain ⟨bound, rfl⟩ : ∃ k, bound = k + 1 := ⟨bound - 1, by omega⟩
  rw [← hcurrent] at h hpasses
  have htakes := takes_literal h
  rw [← htakes.passes.unique hpasses]
  exact (primary_of_mem_literals bound h.mem_literals).trans htakes.eq_ok

theorem Complete.grouping {o t : Token} {inner : Expr} {us : List Token}
    (ho : o.kind = .openParen) (ht : t.kind = .closeParen) (h : Complete .default inner us) :
    Complete .primary (.grouping inner) (o :: (us ++ [t])) := by
  intro bound c c' hbound hpasses _
  have hopen : c.current.kind = .openParen := hpasses.current_eq ▸ ho
  have hle := hpasses.remaining_eq
  have hle' := hpasses.of_cons.remaining_eq
  rw [List.length_cons] at hle
  obtain ⟨bound, rfl⟩ : ∃ k, bound = k + 1 := ⟨bound - 1, by omega⟩
  obtain ⟨d, hinner, hlast⟩ := hpasses.of_cons.of_append
  have hclose : d.current.kind = .closeParen := hlast.current_eq ▸ ht
  have hstops : Level.default.Stops d.current :=
    Level.stops_of_ofOperator? (by rw [hclose]; decide)
  have hexpect := takes_expect "expect ')' after expression." hclose (by decide)
  rw [hlast.current_eq] at hexpect
  have hend := hexpect.passes.unique hlast
  refine (primary_of_openParen bound hopen).trans ?_
  rw [bind_of_ok (h (by omega) hinner hstops), bind_of_ok hexpect.eq_ok, hend]
  rfl

theorem Derives.head {level : Level} {e : Expr} {us : List Token} (h : Derives level e us) :
    ∃ t vs, us = t :: vs ∧
      (t.kind.beginsPrimary = true ∨ level ≠ .primary ∧ t.kind ∈ Kind.unaryOperators) := by
  induction h with
  | @next level e us _ ih =>
    obtain ⟨t, vs, hus, hkind⟩ := ih
    refine ⟨t, vs, hus, hkind.imp_right fun hunary => ⟨?_, hunary.2⟩⟩
    rintro rfl
    exact hunary.1 rfl
  | @binary level operator left right us vs ho _ _ ihl _ =>
    obtain ⟨t, ws, rfl, hkind⟩ := ihl
    exact ⟨t, ws ++ operator :: vs, rfl, hkind⟩
  | @unary operator operand us ho _ _ => exact ⟨operator, us, rfl, .inr ⟨nofun, ho⟩⟩
  | @literal t value h =>
    exact ⟨t, [], rfl, .inl (by simp [Kind.beginsPrimary, h.mem_literals])⟩
  | @grouping o t inner us ho _ _ _ =>
    exact ⟨o, us ++ [t], rfl, .inl (by simp [Kind.beginsPrimary, ho])⟩

theorem Complete.next {level : Level} {e : Expr} {us : List Token}
    (h : Complete level.next e us) (hd : Derives level.next e us) : Complete level e us := by
  by_cases hlevel : level.operators = []
  · intro bound c c' hbound hpasses hstops
    have hnext := h hbound hpasses hstops.next
    cases level with
    | default => exact hnext
    | primary => exact hnext
    | unary =>
      -- a primary expression does not begin with an operator
      obtain ⟨t, vs, rfl, ht⟩ := hd.head
      have hmem := Kind.not_mem_unaryOperators (ht.resolve_right fun h => h.1 rfl)
      rw [← hpasses.current_eq] at hmem
      exact (prefixed_of_not_mem bound hmem).trans hnext
    | _ => simp [Level.operators] at hlevel
  · exact (h.leads hlevel).complete

theorem complete_of_derives {level : Level} {e : Expr} {us : List Token}
    (h : Derives level e us) :
    Complete level e us ∧ (level.operators ≠ [] → Leads level e us) := by
  -- completeness alone says nothing before an operator of the level itself, which is
  -- where the left operand of a chain ends
  induction h with
  | next hd ih => exact ⟨ih.1.next hd, fun hlevel => ih.1.leads hlevel⟩
  | binary ho _ _ ihl ihr =>
    have hleads := (ihl.2 (List.ne_nil_of_mem ho)).binary ho ihr.1
    exact ⟨hleads.complete, fun _ => hleads⟩
  | unary ho _ ih => exact ⟨ih.1.unary ho, fun hlevel => absurd rfl hlevel⟩
  | literal h => exact ⟨Complete.literal h, fun hlevel => absurd rfl hlevel⟩
  | grouping ho ht _ ih => exact ⟨ih.1.grouping ho ht, fun hlevel => absurd rfl hlevel⟩

end Grammar

end Scriptlet

import Scriptlet.Proofs.Number.ReadBack
import Scriptlet.Proofs.Relining
import Scriptlet.Proofs.Source.Lexemes
import Scriptlet.Proofs.Text.Quoting
/-!
# Reading the prefix form

The text of a tree with marks as its operators and with numbers that are not negative can
be read in one way only, whatever stands behind it: it tells the tree up to the lines of
the operators, and where its text ends.  Such trees are equal just if they are the same.
-/

namespace Scriptlet

structure Token.Marked (t : Token) : Prop where
  spelling : (t.kind, t.lexeme.toList) ∈ Rule.marks
  literal : t.literal = none

/-- A number is legible if it is not negative, and all other values are. -/
def Value.Legible : Value → Prop
  | number x => ∃ pattern, pattern ≤ Number.infinity ∧ x = Float.ofBits (UInt64.ofNat pattern)
  | _ => True

def Expr.Legible : Expr → Prop
  | literal value => value.Legible
  | grouping inner => inner.Legible
  | unary operator operand => operator.Marked ∧ operand.Legible
  | binary operator left right => operator.Marked ∧ left.Legible ∧ right.Legible

/-- What stands behind a part of a tree. -/
def Closes (rest : List Char) : Prop := ∃ w others, rest = w :: others ∧ (w = ' ' ∨ w = ')')

theorem closes_space (rest : List Char) : Closes (' ' :: rest) := ⟨' ', rest, rfl, .inl rfl⟩

theorem closes_bracket (rest : List Char) : Closes (')' :: rest) := ⟨')', rest, rfl, .inr rfl⟩

/-! ## Marks -/

namespace Token.Marked

variable {t u : Token}

theorem all_ne_space (h : t.Marked) : t.lexeme.toList.all (· != ' ') = true := by
  have hall : ∀ m ∈ Rule.marks, m.2.all (· != ' ') = true := by decide
  exact hall _ h.spelling

theorem ne_group (h : t.Marked) : t.lexeme.toList ≠ "group".toList := by
  have hall : ∀ m ∈ Rule.marks, m.2 ≠ "group".toList := by decide
  exact hall _ h.spelling

theorem agrees (h : t.Marked) (h' : u.Marked) (heq : t.lexeme.toList = u.lexeme.toList) :
    t.Agrees u := by
  have hall : ∀ m ∈ Rule.marks, ∀ n ∈ Rule.marks, m.2 = n.2 → m.1 = n.1 := by decide
  exact ⟨hall _ h.spelling _ h'.spelling heq, String.toList_inj.1 heq,
    h.literal.trans h'.literal.symm⟩

theorem mapLine (h : t.Marked) (f : Nat → Nat) : (t.mapLine f).Marked := ⟨h.spelling, h.literal⟩

theorem equal_iff (h : t.Marked) (h' : u.Marked) : t.equal u = true ↔ t = u := by
  obtain ⟨kind, lexeme, literal, line⟩ := t
  obtain ⟨kind', lexeme', literal', line'⟩ := u
  cases h.literal
  cases h'.literal
  simp [Token.equal, and_assoc]

end Token.Marked

/-! ## Values -/

namespace Value

variable {u v : Value} {rest rest' : List Char}

def isPlain (c : Char) : Bool := c ∉ [' ', '(', ')', '"']

theorem isPlain_of_isDigit {c : Char} (h : c.isDigit = true) : isPlain c = true := by
  refine decide_eq_true fun hmem => ?_
  simp only [List.mem_cons, List.not_mem_nil, or_false] at hmem
  rcases hmem with rfl | rfl | rfl | rfl <;> exact absurd h (by decide)

theorem literalText_number {pattern : Nat} (h : pattern ≤ Number.infinity) :
    (number (Float.ofBits (UInt64.ofNat pattern))).literalText.toList =
      Number.textOfPattern pattern :=
  Number.text_ofBits h

def words : List Value := [bool true, bool false, nil]

theorem number_ne_word {pattern : Nat} (h : pattern ≤ Number.infinity) :
    ∀ word ∈ words, Number.textOfPattern pattern ≠ word.literalText.toList := by
  have hinfinity : ∀ word ∈ words, "inf".toList ≠ word.literalText.toList := by decide
  have hhead : ∀ word ∈ words, word.literalText.toList.head?.any Char.isDigit = false := by
    decide
  intro word hword heq
  rcases Number.textOfPattern_cases h with hinf | hdigits
  · exact hinfinity word hword (hinf.symm.trans heq)
  · obtain ⟨c, hc, hdigit⟩ := hdigits.head
    rw [heq] at hc
    have hnone := hhead word hword
    rw [Option.mem_def.1 hc, Option.any_some, hdigit] at hnone
    cases hnone

theorem cases_of_ne_string (hu : u.Legible) (hstring : ∀ s, u ≠ .string s) :
    u ∈ words ∨ ∃ pattern, pattern ≤ Number.infinity ∧
      u = number (Float.ofBits (UInt64.ofNat pattern)) := by
  cases u with
  | string s => exact absurd rfl (hstring s)
  | nil => exact .inl (by decide)
  | bool b => exact .inl (by cases b <;> decide)
  | number x =>
    obtain ⟨pattern, hle, rfl⟩ := hu
    exact .inr ⟨pattern, hle, rfl⟩

/-- Legible values other than strings have different texts. -/
theorem literalText_inj (hu : u.Legible) (hv : v.Legible) (hstring : ∀ s, u ≠ .string s)
    (hstring' : ∀ s, v ≠ .string s) (h : u.literalText.toList = v.literalText.toList) : u = v := by
  have hwords : ∀ a ∈ words, ∀ b ∈ words, a.literalText.toList = b.literalText.toList → a = b := by
    decide
  rcases cases_of_ne_string hu hstring with hword | ⟨pattern, hle, rfl⟩
  · rcases cases_of_ne_string hv hstring' with hword' | ⟨pattern', hle', rfl⟩
    · exact hwords u hword v hword' h
    · rw [literalText_number hle'] at h
      exact absurd h.symm (number_ne_word hle' u hword)
  · rw [literalText_number hle] at h
    rcases cases_of_ne_string hv hstring' with hword' | ⟨pattern', hle', rfl⟩
    · exact absurd h (number_ne_word hle v hword')
    · rw [literalText_number hle'] at h
      rw [Number.textOfPattern_injOn hle hle' h]

theorem plain_of_legible (hu : u.Legible) (hstring : ∀ s, u ≠ .string s) :
    u.literalText.toList ≠ [] ∧ u.literalText.toList.all isPlain = true := by
  have hwords : ∀ word ∈ words,
      word.literalText.toList ≠ [] ∧ word.literalText.toList.all isPlain = true := by
    decide
  rcases cases_of_ne_string hu hstring with hword | ⟨pattern, hle, rfl⟩
  · exact hwords u hword
  · rw [literalText_number hle]
    rcases Number.textOfPattern_cases hle with hinf | hdigits
    · rw [hinf]
      decide
    · obtain ⟨c, hc, _⟩ := hdigits.head
      refine ⟨List.ne_nil_of_mem (List.mem_of_mem_head? hc), List.all_eq_true.2 fun c hc => ?_⟩
      rcases hdigits.all c hc with hdigit | rfl
      · exact isPlain_of_isDigit hdigit
      · decide

theorem literalText_append_ne (hu : u.Legible) (hstring : ∀ s, u ≠ .string s) {w : Char}
    (hw : isPlain w = false) : u.literalText.toList ++ rest ≠ w :: rest' := by
  obtain ⟨hne, hplain⟩ := plain_of_legible hu hstring
  obtain ⟨c, others, hcons⟩ := List.exists_cons_of_ne_nil hne
  rw [hcons]
  intro heq
  rw [hcons, List.all_cons, (List.cons.inj heq).1, hw] at hplain
  cases hplain

theorem literalText_string (s : String) (rest : List Char) :
    ∃ others, (string s).literalText.toList ++ rest = '"' :: others := by
  rw [literalText, Text.quoted, String.toList_ofList]
  exact ⟨_, rfl⟩

/-- A legible value tells itself and where it ends. -/
theorem literalText_append_inj (hu : u.Legible) (hv : v.Legible) (hrest : Closes rest)
    (hrest' : Closes rest') (h : u.literalText.toList ++ rest = v.literalText.toList ++ rest') :
    u = v ∧ rest = rest' := by
  by_cases hstring : ∀ s, u ≠ .string s
  · by_cases hstring' : ∀ s, v ≠ .string s
    · obtain ⟨w, others, rfl, hw⟩ := hrest
      obtain ⟨w', others', rfl, hw'⟩ := hrest'
      have hstop : isPlain w = false := by rcases hw with rfl | rfl <;> rfl
      have hstop' : isPlain w' = false := by rcases hw' with rfl | rfl <;> rfl
      obtain ⟨htext, rfl, rfl⟩ := Text.append_cons_inj (plain_of_legible hu hstring).2
        (plain_of_legible hv hstring').2 hstop hstop' h
      exact ⟨literalText_inj hu hv hstring hstring' htext, rfl⟩
    · obtain ⟨t, rfl⟩ := not_forall_not.1 hstring'
      obtain ⟨others, hquote⟩ := literalText_string t rest'
      exact absurd (h.trans hquote) (literalText_append_ne hu hstring (by decide))
  · obtain ⟨s, rfl⟩ := not_forall_not.1 hstring
    by_cases hstring' : ∀ s, v ≠ .string s
    · obtain ⟨others, hquote⟩ := literalText_string s rest
      exact absurd (h.symm.trans hquote) (literalText_append_ne hv hstring' (by decide))
    · obtain ⟨t, rfl⟩ := not_forall_not.1 hstring'
      obtain ⟨rfl, hrest⟩ := Text.quoted_append_inj h
      exact ⟨rfl, hrest⟩

theorem literalText_append_ne_bracket (hu : u.Legible) :
    u.literalText.toList ++ rest ≠ '(' :: rest' := by
  by_cases hstring : ∀ s, u ≠ .string s
  · exact literalText_append_ne hu hstring (by decide)
  · obtain ⟨s, rfl⟩ := not_forall_not.1 hstring
    obtain ⟨others, hquote⟩ := literalText_string s rest
    rw [hquote]
    exact fun heq => absurd (List.cons.inj heq).1 (by decide)

theorem equal_iff (hu : u.Legible) (hv : v.Legible) : u.equal v = true ↔ u = v := by
  cases u <;> cases v <;> try simp [equal]
  case number.number x y =>
    obtain ⟨pattern, hle, rfl⟩ := hu
    obtain ⟨pattern', hle', rfl⟩ := hv
    rw [Number.ofBits_beq_iff hle hle']
    constructor
    · rintro rfl
      rfl
    · intro heq
      rw [← Number.toNat_toBits_ofBits hle, heq, Number.toNat_toBits_ofBits hle']

end Value

/-! ## Trees -/

theorem open_inj {cs ds rest rest' : List Char} (hcs : cs.all (· != ' ') = true)
    (hds : ds.all (· != ' ') = true)
    (h : '(' :: (cs ++ ' ' :: rest) = '(' :: (ds ++ ' ' :: rest')) : cs = ds ∧ rest = rest' := by
  obtain ⟨hword, _, hrest⟩ := Text.append_cons_inj hcs hds rfl rfl (List.cons.inj h).2
  exact ⟨hword, hrest⟩

namespace Expr

variable {e e' : Expr} {rest rest' : List Char}

theorem text_grouping_append (inner : Expr) (rest : List Char) :
    (grouping inner).text.toList ++ rest =
      '(' :: ("group".toList ++ ' ' :: (inner.text.toList ++ ')' :: rest)) := by
  simp [text]

theorem text_unary_append (operator : Token) (operand : Expr) (rest : List Char) :
    (unary operator operand).text.toList ++ rest =
      '(' :: (operator.lexeme.toList ++ ' ' :: (operand.text.toList ++ ')' :: rest)) := by
  simp [text]

theorem text_binary_append (operator : Token) (left right : Expr) (rest : List Char) :
    (binary operator left right).text.toList ++ rest =
      '(' :: (operator.lexeme.toList ++ ' ' ::
        (left.text.toList ++ ' ' :: (right.text.toList ++ ')' :: rest))) := by
  simp [text]

theorem group_all_ne_space : "group".toList.all (· != ' ') = true := by decide

/-- A legible tree tells itself, up to the lines of its operators, and where it ends. -/
theorem text_append_inj (line : Nat) (he : e.Legible) (he' : e'.Legible) (hrest : Closes rest)
    (hrest' : Closes rest') (h : e.text.toList ++ rest = e'.text.toList ++ rest') :
    e.mapLines (fun _ => line) = e'.mapLines (fun _ => line) ∧ rest = rest' := by
  induction e generalizing e' rest rest' with
  | literal u =>
    cases e' with
    | literal v =>
      obtain ⟨rfl, hend⟩ := Value.literalText_append_inj he he' hrest hrest' h
      exact ⟨rfl, hend⟩
    | grouping inner' =>
      rw [text_grouping_append] at h
      exact absurd h (Value.literalText_append_ne_bracket he)
    | unary operator' operand' =>
      rw [text_unary_append] at h
      exact absurd h (Value.literalText_append_ne_bracket he)
    | binary operator' left' right' =>
      rw [text_binary_append] at h
      exact absurd h (Value.literalText_append_ne_bracket he)
  | grouping inner ih =>
    rw [text_grouping_append] at h
    cases e' with
    | literal v => exact absurd h.symm (Value.literalText_append_ne_bracket he')
    | grouping inner' =>
      rw [text_grouping_append] at h
      obtain ⟨_, h⟩ := open_inj group_all_ne_space group_all_ne_space h
      have hinner' : inner'.Legible := he'
      obtain ⟨hinner, hend⟩ := ih he hinner' (closes_bracket _) (closes_bracket _) h
      exact ⟨by rw [mapLines, mapLines, hinner], (List.cons.inj hend).2⟩
    | unary operator' operand' =>
      rw [text_unary_append] at h
      exact absurd (open_inj group_all_ne_space he'.1.all_ne_space h).1.symm he'.1.ne_group
    | binary operator' left' right' =>
      rw [text_binary_append] at h
      exact absurd (open_inj group_all_ne_space he'.1.all_ne_space h).1.symm he'.1.ne_group
  | unary operator operand ih =>
    rw [text_unary_append] at h
    cases e' with
    | literal v => exact absurd h.symm (Value.literalText_append_ne_bracket he')
    | grouping inner' =>
      rw [text_grouping_append] at h
      exact absurd (open_inj he.1.all_ne_space group_all_ne_space h).1 he.1.ne_group
    | unary operator' operand' =>
      rw [text_unary_append] at h
      obtain ⟨hoperator, h⟩ := open_inj he.1.all_ne_space he'.1.all_ne_space h
      obtain ⟨hoperand, hend⟩ := ih he.2 he'.2 (closes_bracket _) (closes_bracket _) h
      have hagrees := (he.1.agrees he'.1 hoperator).mapLine_eq line
      exact ⟨by rw [mapLines, mapLines, hoperand, hagrees], (List.cons.inj hend).2⟩
    | binary operator' left' right' =>
      -- behind one operand the bracket is closed, behind the first of two it is not
      rw [text_binary_append] at h
      obtain ⟨_, h⟩ := open_inj he.1.all_ne_space he'.1.all_ne_space h
      obtain ⟨_, hend⟩ := ih he.2 he'.2.1 (closes_bracket _) (closes_space _) h
      exact absurd (List.cons.inj hend).1 (by decide)
  | binary operator left right ihl ihr =>
    rw [text_binary_append] at h
    cases e' with
    | literal v => exact absurd h.symm (Value.literalText_append_ne_bracket he')
    | grouping inner' =>
      rw [text_grouping_append] at h
      exact absurd (open_inj he.1.all_ne_space group_all_ne_space h).1 he.1.ne_group
    | unary operator' operand' =>
      rw [text_unary_append] at h
      obtain ⟨_, h⟩ := open_inj he.1.all_ne_space he'.1.all_ne_space h
      obtain ⟨_, hend⟩ := ihl he.2.1 he'.2 (closes_space _) (closes_bracket _) h
      exact absurd (List.cons.inj hend).1 (by decide)
    | binary operator' left' right' =>
      rw [text_binary_append] at h
      obtain ⟨hoperator, h⟩ := open_inj he.1.all_ne_space he'.1.all_ne_space h
      obtain ⟨hleft, h⟩ := ihl he.2.1 he'.2.1 (closes_space _) (closes_space _) h
      obtain ⟨hright, hend⟩ := ihr he.2.2 he'.2.2 (closes_bracket _) (closes_bracket _)
        (List.cons.inj h).2
      have hagrees := (he.1.agrees he'.1 hoperator).mapLine_eq line
      exact ⟨by rw [mapLines, mapLines, hleft, hright, hagrees], (List.cons.inj hend).2⟩

theorem text_mapLines (f : Nat → Nat) (e : Expr) : (e.mapLines f).text = e.text := by
  induction e with
  | literal value => rfl
  | grouping inner ih => rw [mapLines, text, text, ih]
  | unary operator operand ih => rw [mapLines, text, text, ih, Token.mapLine]
  | binary operator left right ihl ihr => rw [mapLines, text, text, ihl, ihr, Token.mapLine]

theorem Legible.mapLines (h : e.Legible) (f : Nat → Nat) : (e.mapLines f).Legible := by
  induction e with
  | literal value => exact h
  | grouping inner ih => exact ih h
  | unary operator operand ih => exact ⟨h.1.mapLine f, ih h.2⟩
  | binary operator left right ihl ihr => exact ⟨h.1.mapLine f, ihl h.2.1, ihr h.2.2⟩

theorem equal_iff (he : e.Legible) (he' : e'.Legible) : e.equal e' = true ↔ e = e' := by
  induction e generalizing e' with
  | literal u =>
    cases e' with
    | literal v => simp [equal, Value.equal_iff he he']
    | _ => simp [equal]
  | grouping inner ih =>
    cases e' with
    | grouping inner' =>
      have hinner' : inner'.Legible := he'
      simp [equal, ih he hinner']
    | _ => simp [equal]
  | unary operator operand ih =>
    cases e' with
    | unary operator' operand' => simp [equal, he.1.equal_iff he'.1, ih he.2 he'.2]
    | _ => simp [equal]
  | binary operator left right ihl ihr =>
    cases e' with
    | binary operator' left' right' =>
      simp [equal, he.1.equal_iff he'.1, ihl he.2.1 he'.2.1, ihr he.2.2 he'.2.2, and_assoc,
        and_left_comm]
    | _ => simp [equal]

end Expr

/-! ## Statements -/

namespace Stmt

variable {s s' : Stmt}

def Legible (s : Stmt) : Prop := s.expr.Legible

def word : Stmt → List Char
  | expression _ => "expr".toList
  | print _ => "print".toList

theorem toList_text (s : Stmt) :
    s.text.toList = '(' :: (s.word ++ ' ' :: (s.expr.text.toList ++ [')'])) := by
  cases s <;> simp [text, word, expr]

theorem word_all_ne_space (s : Stmt) : s.word.all (· != ' ') = true := by
  cases s <;> rfl

theorem text_mapLines (f : Nat → Nat) (s : Stmt) : (s.mapLines f).text = s.text := by
  cases s <;> rw [mapLines, text, text, Expr.text_mapLines]

theorem Legible.mapLines (h : s.Legible) (f : Nat → Nat) : (s.mapLines f).Legible := by
  cases s <;> exact Expr.Legible.mapLines h f

theorem text_eq_iff (line : Nat) (hs : s.Legible) (hs' : s'.Legible) :
    s.text = s'.text ↔ s.mapLines (fun _ => line) = s'.mapLines (fun _ => line) := by
  constructor
  · intro h
    rw [← String.toList_inj, toList_text, toList_text] at h
    obtain ⟨hword, h⟩ := open_inj s.word_all_ne_space s'.word_all_ne_space h
    obtain ⟨hexpr, _⟩ := Expr.text_append_inj line hs hs' (closes_bracket []) (closes_bracket []) h
    cases s with
    | expression e =>
      cases s' with
      | expression e' => exact congrArg expression hexpr
      | print e' => exact absurd hword (of_decide_eq_true rfl)
    | print e =>
      cases s' with
      | expression e' => exact absurd hword (of_decide_eq_true rfl)
      | print e' => exact congrArg print hexpr
  · intro h
    rw [← s.text_mapLines fun _ => line, h, text_mapLines]

theorem equal_iff (hs : s.Legible) (hs' : s'.Legible) : s.equal s' = true ↔ s = s' := by
  cases s <;> cases s' <;> simp [equal]
  all_goals exact Expr.equal_iff hs hs'

end Stmt

end Scriptlet

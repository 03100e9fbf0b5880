import Mathlib.Data.List.Basic
import Scriptlet.Text.Quoted
/-!
# Reading quoted text

What stands between double quotes can be read back: no character is written as the
beginning of another, and none begins with the quote.  So a quoted text ends at a place
that depends on nothing behind it.
-/

namespace Scriptlet.Text

theorem append_cons_inj {p : Char → Bool} {cs ds rest rest' : List Char} {w w' : Char}
    (hcs : cs.all p = true) (hds : ds.all p = true) (hw : p w = false) (hw' : p w' = false)
    (h : cs ++ w :: rest = ds ++ w' :: rest') : cs = ds ∧ w = w' ∧ rest = rest' := by
  induction cs generalizing ds with
  | nil =>
    cases ds with
    | nil => exact ⟨rfl, List.cons.inj h⟩
    | cons d ds =>
      rw [List.all_cons, ← (List.cons.inj h).1, hw] at hds
      cases hds
  | cons c cs ih =>
    cases ds with
    | nil =>
      rw [List.all_cons, (List.cons.inj h).1, hw'] at hcs
      cases hcs
    | cons d ds =>
      obtain ⟨rfl, hrest⟩ := List.cons.inj h
      rw [List.all_cons, Bool.and_eq_true] at hcs hds
      obtain ⟨rfl, hboth⟩ := ih hcs.2 hds.2 hrest
      exact ⟨rfl, hboth⟩

/-! ## Hexadecimal digits -/

theorem digitChar_inj {m n : Nat} (hm : m < 16) (hn : n < 16) (h : m.digitChar = n.digitChar) :
    m = n := by
  have hall : ∀ a : Fin 16, ∀ b : Fin 16, a.val.digitChar = b.val.digitChar → a = b := by decide
  exact congrArg Fin.val (hall ⟨m, hm⟩ ⟨n, hn⟩ h)

theorem toDigits_sixteen (n : Nat) :
    Nat.toDigits 16 n =
      if n < 16 then [n.digitChar] else Nat.toDigits 16 (n / 16) ++ [(n % 16).digitChar] :=
  Nat.toDigits_eq_if (by decide)

theorem toDigits_sixteen_inj {m n : Nat} (h : Nat.toDigits 16 m = Nat.toDigits 16 n) : m = n := by
  induction m using Nat.strongRecOn generalizing n with
  | ind m ih =>
    rw [toDigits_sixteen m, toDigits_sixteen n] at h
    split_ifs at h with hm hn hn
    · exact digitChar_inj hm hn (List.cons.inj h).1
    · have hlength := congrArg List.length h
      have hpos := Nat.length_toDigits_pos (b := 16) (n := n / 16)
      simp only [List.length_append, List.length_cons, List.length_nil] at hlength
      omega
    · have hlength := congrArg List.length h
      have hpos := Nat.length_toDigits_pos (b := 16) (n := m / 16)
      simp only [List.length_append, List.length_cons, List.length_nil] at hlength
      omega
    · obtain ⟨hhigh, hlow⟩ := List.append_inj' h rfl
      have hdiv := ih (m / 16) (by omega) hhigh
      have hmod := digitChar_inj (by omega) (by omega) (List.cons.inj hlow).1
      omega

theorem all_ne_brace_toDigits (n : Nat) : (Nat.toDigits 16 n).all (· != '\x7d') = true := by
  have hdigit : ∀ d : Fin 16, (d.val.digitChar != '\x7d') = true := by decide
  induction n using Nat.strongRecOn with
  | ind n ih =>
    rw [toDigits_sixteen]
    split_ifs with hn
    · rw [List.all_cons, hdigit ⟨n, hn⟩, List.all_nil]
      rfl
    · have hlow := hdigit ⟨n % 16, Nat.mod_lt n (by decide)⟩
      rw [List.all_append, ih (n / 16) (by omega), List.all_cons, hlow, List.all_nil]
      rfl

/-! ## Escaped characters -/

/-- The characters that are written as a letter behind a backslash. -/
def lettered : List (Char × Char) :=
  [('\x00', '0'), ('\t', 't'), ('\n', 'n'), ('\r', 'r'), ('\\', '\\'), ('"', '"')]

/-- How a character can stand between double quotes. -/
inductive Escaped (c : Char) : List Char → Prop where
  | letter {letter : Char} (h : (c, letter) ∈ lettered) : Escaped c ['\\', letter]
  | code : Escaped c (codePoint c)
  | itself (hbackslash : c ≠ '\\') (hquote : c ≠ '"') : Escaped c [c]

theorem escaped_escape (c : Char) : Escaped c (escape '"' c) := by
  unfold escape
  split_ifs with hnull htab hnewline hreturn hmark
  · exact hnull ▸ .letter (by decide)
  · exact htab ▸ .letter (by decide)
  · exact hnewline ▸ .letter (by decide)
  · exact hreturn ▸ .letter (by decide)
  · rcases hmark with rfl | rfl <;> exact .letter (by decide)
  · exact .code
  · exact .itself (fun hc => hmark (.inl hc)) (fun hc => hmark (.inr hc))

namespace Escaped

variable {c d : Char} {cs ds rest rest' : List Char}

theorem append_ne_quote (h : Escaped c cs) : cs ++ rest ≠ '"' :: rest' := by
  intro heq
  cases h with
  | letter _ => cases heq
  | code => cases heq
  | itself _ hquote => exact hquote (List.cons.inj heq).1

/-- No character is written as the beginning of another one. -/
theorem append_inj (h : Escaped c cs) (h' : Escaped d ds) (heq : cs ++ rest = ds ++ rest') :
    c = d ∧ rest = rest' := by
  have hcode : ∀ p ∈ lettered, p.2 ≠ 'u' := by decide
  have hletters : ∀ p ∈ lettered, ∀ q ∈ lettered, p.2 = q.2 → p.1 = q.1 := by decide
  cases h with
  | letter hmem =>
    cases h' with
    | letter hmem' =>
      obtain ⟨hletter, hrest⟩ := List.cons.inj (List.cons.inj heq).2
      exact ⟨hletters _ hmem _ hmem' hletter, hrest⟩
    | code => exact absurd (List.cons.inj (List.cons.inj heq).2).1 (hcode _ hmem)
    | itself hbackslash _ => exact absurd (List.cons.inj heq).1.symm hbackslash
  | code =>
    cases h' with
    | letter hmem' => exact absurd (List.cons.inj (List.cons.inj heq).2).1.symm (hcode _ hmem')
    | code =>
      -- the closing brace is no digit, so it ends the digits
      have hdigits : Nat.toDigits 16 c.toNat ++ '\x7d' :: rest =
          Nat.toDigits 16 d.toNat ++ '\x7d' :: rest' := by
        simpa [codePoint] using heq
      obtain ⟨hcode, _, hrest⟩ := append_cons_inj (all_ne_brace_toDigits _)
        (all_ne_brace_toDigits _) rfl rfl hdigits
      exact ⟨Char.toNat_inj.1 (toDigits_sixteen_inj hcode), hrest⟩
    | itself hbackslash _ => exact absurd (List.cons.inj heq).1.symm hbackslash
  | itself hbackslash _ =>
    cases h' with
    | letter _ => exact absurd (List.cons.inj heq).1 hbackslash
    | code => exact absurd (List.cons.inj heq).1 hbackslash
    | itself _ _ => exact List.cons.inj heq

end Escaped

/-! ## Quoted texts -/

theorem flatMap_escape_inj {cs ds rest rest' : List Char}
    (h : cs.flatMap (escape '"') ++ '"' :: rest = ds.flatMap (escape '"') ++ '"' :: rest') :
    cs = ds ∧ rest = rest' := by
  induction cs generalizing ds with
  | nil =>
    cases ds with
    | nil => exact ⟨rfl, (List.cons.inj h).2⟩
    | cons d ds =>
      rw [List.flatMap_cons, List.append_assoc] at h
      exact absurd h.symm (escaped_escape d).append_ne_quote
  | cons c cs ih =>
    rw [List.flatMap_cons, List.append_assoc] at h
    cases ds with
    | nil => exact absurd h (escaped_escape c).append_ne_quote
    | cons d ds =>
      rw [List.flatMap_cons, List.append_assoc] at h
      obtain ⟨rfl, hrest⟩ := (escaped_escape c).append_inj (escaped_escape d) h
      obtain ⟨rfl, hrest'⟩ := ih hrest
      exact ⟨rfl, hrest'⟩

/-- A quoted text ends where its own quotes do, and tells which text it is. -/
theorem quoted_append_inj {s t : String} {rest rest' : List Char}
    (h : (quoted s).toList ++ rest = (quoted t).toList ++ rest') : s = t ∧ rest = rest' := by
  rw [quoted, quoted, String.toList_ofList, String.toList_ofList, between, between,
    List.cons_append, List.cons_append, List.append_assoc, List.append_assoc] at h
  obtain ⟨htext, hrest⟩ := flatMap_escape_inj (List.cons.inj h).2
  exact ⟨String.toList_inj.1 htext, hrest⟩

end Scriptlet.Text

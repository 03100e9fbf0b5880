/-!
# Blank characters

The characters that Unicode calls white space, and what is left of a text when
the blanks at both of its ends are taken off.
-/

namespace Scriptlet.Text

/-- The white-space property of Unicode: twenty-five characters. -/
def isBlank (c : Char) : Bool :=
  let n := c.toNat
  (9 ≤ n && n ≤ 13) || n == 0x20 || n == 0x85 || n == 0xA0 || n == 0x1680 ||
    (0x2000 ≤ n && n ≤ 0x200A) || n == 0x2028 || n == 0x2029 || n == 0x202F ||
    n == 0x205F || n == 0x3000

/-- The text up to its last character outside `p`. -/
def dropTrailing (p : Char → Bool) (cs : List Char) : List Char :=
  (cs.reverse.dropWhile p).reverse

def trim (cs : List Char) : List Char :=
  dropTrailing isBlank (cs.dropWhile isBlank)

@[simp] theorem dropTrailing_nil (p : Char → Bool) : dropTrailing p [] = [] := rfl

theorem dropTrailing_append_singleton (p : Char → Bool) (cs : List Char) (c : Char) :
    dropTrailing p (cs ++ [c]) = if p c then dropTrailing p cs else cs ++ [c] := by
  unfold dropTrailing
  rw [List.reverse_append, List.reverse_singleton, List.singleton_append, List.dropWhile_cons]
  split <;> simp_all

end Scriptlet.Text

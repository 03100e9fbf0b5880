/-!
# Byte offsets into a text

A text is measured in the bytes of its UTF-8 form.  An offset points into the text
when it falls between two characters or at one of the ends.
-/

namespace Scriptlet.Text

def byteSize : List Char → Nat
  | [] => 0
  | c :: cs => c.utf8Size + byteSize cs

/-- What follows the first `offset` bytes, unless these end inside a character or run
past the end of the text. -/
def after? : List Char → Nat → Option (List Char)
  | cs, 0 => some cs
  | [], _ + 1 => none
  | c :: cs, offset + 1 =>
    if c.utf8Size ≤ offset + 1 then after? cs (offset + 1 - c.utf8Size) else none

@[simp] theorem byteSize_nil : byteSize [] = 0 := rfl

@[simp] theorem byteSize_cons (c : Char) (cs : List Char) :
    byteSize (c :: cs) = c.utf8Size + byteSize cs := rfl

@[simp] theorem byteSize_append (as bs : List Char) :
    byteSize (as ++ bs) = byteSize as + byteSize bs := by
  induction as with
  | nil => simp
  | cons c as ih => simp [ih, Nat.add_assoc]

@[simp] theorem after?_zero (cs : List Char) : after? cs 0 = some cs := by
  cases cs <;> rfl

theorem after?_byteSize_append (as bs : List Char) :
    after? (as ++ bs) (byteSize as) = some bs := by
  induction as with
  | nil => simp
  | cons c as ih =>
    have hpos := c.utf8Size_pos
    obtain ⟨n, hn⟩ : ∃ n, c.utf8Size = n + 1 := ⟨c.utf8Size - 1, by omega⟩
    have hsum : byteSize (c :: as) = (n + byteSize as) + 1 := by simp [hn]; omega
    rw [hsum, List.cons_append, after?, hn, if_pos (by omega)]
    rw [show n + byteSize as + 1 - (n + 1) = byteSize as by omega, ih]

end Scriptlet.Text

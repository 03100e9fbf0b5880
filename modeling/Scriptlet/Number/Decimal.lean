import Scriptlet.Number.Binary
/-!
# Decimal fractions

A decimal is a whole number with a count of places behind the point.  It is
written positionally, however long that gets, and read from digits with an
optional point and more digits.
-/

namespace Scriptlet.Number

/-- A whole number of which the last `places` digits stand behind the point. -/
structure Decimal where
  digits : Nat
  places : Nat
deriving DecidableEq, Repr

namespace Decimal

def reduce (digits : Nat) : Nat → Decimal
  | 0 => ⟨digits, 0⟩
  | places + 1 =>
    if digits % 10 = 0 then reduce (digits / 10) places else ⟨digits, places + 1⟩

def text (d : Decimal) : List Char :=
  let written := Nat.toDigits 10 d.digits
  let padded := List.replicate (d.places + 1 - written.length) '0' ++ written
  let whole := padded.take (padded.length - d.places)
  let fraction := padded.drop (padded.length - d.places)
  if d.places = 0 then whole else whole ++ '.' :: fraction

def ofText (cs : List Char) : Decimal :=
  let whole := cs.takeWhile Char.isDigit
  let fraction := (cs.dropWhile Char.isDigit).drop 1
  ⟨Nat.ofDigitChars 10 (whole ++ fraction) 0, fraction.length⟩

def pattern (d : Decimal) : Nat := nearest d.digits (Nat.pow 10 d.places)

theorem reduce_value (digits places : Nat) :
    (reduce digits places).digits * Nat.pow 10 places =
      digits * Nat.pow 10 (reduce digits places).places := by
  induction places generalizing digits with
  | zero => simp [reduce]
  | succ places ih =>
    unfold reduce
    split
    · rename_i hzero
      have hdigits : digits = digits / 10 * 10 := by omega
      have hten : Nat.pow 10 (places + 1) = Nat.pow 10 places * 10 := rfl
      rw [hten, ← Nat.mul_assoc, ih, hdigits, Nat.mul_div_cancel _ (by decide)]
      ac_rfl
    · rfl

end Decimal

end Scriptlet.Number

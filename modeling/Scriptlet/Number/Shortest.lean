import Scriptlet.Number.Decimal
/-!
# The text of a number

A double is written with the fewest digits that read back as the same double.
Where several decimals of that many digits do, the nearest is taken, and of two
equally near ones the larger.
-/

namespace Scriptlet.Number

/-- The two multiples of `step` on either side of `exact`, the nearer one first. -/
def neighbours (exact step : Nat) : List Nat :=
  let below := exact - exact % step
  let above := below + step
  if exact - below < above - exact then [below, above] else [above, below]

def exactly (pattern : Nat) : Decimal :=
  let shift := scale pattern
  ⟨significand pattern * Nat.pow 5 (depth - shift) * Nat.pow 2 (shift - depth), depth - shift⟩

/-- A neighbour of the exact digits among the multiples of `step` that reads back as the
pattern, with as many places as these have. -/
def onGrid? (pattern : Nat) (exact : Decimal) (step : Nat) : Option Nat :=
  (neighbours exact.digits step).find? fun digits =>
    (Decimal.mk digits exact.places).pattern == pattern

/-- The decimal of fewest digits that reads back as the pattern: seventeen always do. -/
def shortest (pattern : Nat) : Decimal :=
  let exact := exactly pattern
  let length := (Nat.toDigits 10 exact.digits).length
  let digits? := (List.range' 1 17).findSome? fun count =>
    onGrid? pattern exact (Nat.pow 10 (length - count))
  Decimal.reduce (digits?.getD exact.digits) exact.places

def magnitudeText (pattern : Nat) : List Char :=
  if infinity < pattern then "NaN".toList
  else if pattern = infinity then "inf".toList
  else (shortest pattern).text

def textOfPattern (pattern : Nat) : List Char :=
  let magnitude := pattern % signBit
  if signBit ≤ pattern ∧ magnitude ≤ infinity then '-' :: magnitudeText magnitude
  else magnitudeText magnitude

def text (x : Float) : String := String.ofList (textOfPattern x.toBits.toNat)

def ofText (cs : List Char) : Float := Float.ofBits (UInt64.ofNat (Decimal.ofText cs).pattern)

theorem pattern_of_onGrid? {pattern step digits : Nat} {exact : Decimal}
    (h : onGrid? pattern exact step = some digits) :
    (Decimal.mk digits exact.places).pattern = pattern := by
  simpa using List.find?_some h

theorem exactly_value (pattern : Nat) :
    (exactly pattern).digits * Nat.pow 2 depth =
      units pattern * Nat.pow 10 (exactly pattern).places := by
  have hten (n : Nat) : Nat.pow 10 n = Nat.pow 5 n * Nat.pow 2 n := Nat.mul_pow 5 2 n
  have htwo (a b : Nat) :
      Nat.pow 2 (a - b) * Nat.pow 2 b = Nat.pow 2 a * Nat.pow 2 (b - a) := by
    simp only [Nat.pow_eq]
    rw [← Nat.pow_add, ← Nat.pow_add, show a - b + b = a + (b - a) by omega]
  simp only [exactly, units, hten]
  rw [Nat.mul_assoc, htwo]
  ac_rfl

end Scriptlet.Number

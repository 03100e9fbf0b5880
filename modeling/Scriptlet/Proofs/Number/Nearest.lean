import Mathlib.Order.Monotone.Basic
import Mathlib.Tactic.SplitIfs
import Scriptlet.Number.Shortest
/-!
# The double nearest to a numeral

A numeral denotes a fraction, and it is read as the double nearest to that: of two equally
near ones the one with an even pattern, and infinity where the nearest pattern is none of a
finite double.  Distances are compared as whole numbers, in units of the least double and
of the divisor of the fraction.
-/

namespace Scriptlet.Number

def distance (numerator divisor pattern : Nat) : Nat :=
  ((units pattern * divisor : Nat) - (numerator * Nat.pow 2 depth : Nat) : Int).natAbs

/-- The pattern is the one nearest to a fraction; an odd one has no rival. -/
structure RoundsTo (numerator divisor pattern : Nat) : Prop where
  nearest : ∀ other, distance numerator divisor pattern ≤ distance numerator divisor other
  even : ∀ other, other ≠ pattern →
    distance numerator divisor other = distance numerator divisor pattern → pattern % 2 = 0

/-- The value that a numeral denotes among the doubles. -/
def Denotes (cs : List Char) (x : Float) : Prop :=
  ∃ pattern, RoundsTo (Decimal.ofText cs).digits (Nat.pow 10 (Decimal.ofText cs).places) pattern ∧
    x = Float.ofBits (UInt64.ofNat (min pattern infinity))

/-! ## Rounding a quotient -/

section

variable {numerator divisor : Nat}

theorem roundDiv_cases (numerator divisor : Nat) :
    roundDiv numerator divisor = numerator / divisor ∧ 2 * (numerator % divisor) ≤ divisor ∧
        (2 * (numerator % divisor) = divisor → numerator / divisor % 2 = 0) ∨
      roundDiv numerator divisor = numerator / divisor + 1 ∧
        divisor ≤ 2 * (numerator % divisor) ∧
        (2 * (numerator % divisor) = divisor → numerator / divisor % 2 = 1) := by
  simp only [roundDiv]
  split_ifs <;> omega

theorem multiple_cases (quotient other divisor : Nat) :
    other < quotient ∧ other * divisor + divisor ≤ quotient * divisor ∨
      other = quotient ∨
      other = quotient + 1 ∧ other * divisor = quotient * divisor + divisor ∨
      quotient + 1 < other ∧ quotient * divisor + 2 * divisor ≤ other * divisor := by
  rcases Nat.lt_trichotomy other quotient with hlt | rfl | hgt
  · refine .inl ⟨hlt, ?_⟩
    rw [← Nat.succ_mul]
    exact Nat.mul_le_mul_right divisor hlt
  · exact .inr (.inl rfl)
  · rcases Nat.lt_or_eq_of_le hgt with hgt | rfl
    · refine .inr (.inr (.inr ⟨hgt, ?_⟩))
      rw [← Nat.add_mul]
      exact Nat.mul_le_mul_right divisor hgt
    · exact .inr (.inr (.inl ⟨rfl, Nat.succ_mul quotient divisor⟩))

/-- A rounded quotient times the divisor is the multiple nearest to the numerator. -/
theorem roundDiv_nearest (hdivisor : 0 < divisor) (other : Nat) :
    ((roundDiv numerator divisor * divisor : Nat) - (numerator : Int)).natAbs ≤
        ((other * divisor : Nat) - (numerator : Int)).natAbs ∧
      (other ≠ roundDiv numerator divisor →
        ((other * divisor : Nat) - (numerator : Int)).natAbs =
          ((roundDiv numerator divisor * divisor : Nat) - (numerator : Int)).natAbs →
        roundDiv numerator divisor % 2 = 0) := by
  have hsplit := Nat.div_add_mod' numerator divisor
  have hrest := Nat.mod_lt numerator hdivisor
  have hnext : (numerator / divisor + 1) * divisor = numerator / divisor * divisor + divisor :=
    Nat.succ_mul _ _
  have hother := multiple_cases (numerator / divisor) other divisor
  rcases roundDiv_cases numerator divisor with ⟨hround, hhalf, heven⟩ | ⟨hround, hhalf, heven⟩
  · rw [hround]
    rcases hother with hother | rfl | hother | hother <;> omega
  · rw [hround]
    rcases hother with hother | rfl | hother | hother <;> omega

end

/-! ## The doubles as whole numbers -/

theorem two_mul_mul_pow (digits places : Nat) :
    2 * digits * Nat.pow 2 places = digits * Nat.pow 2 (places + 1) := by
  rw [Nat.pow_eq, Nat.pow_eq, Nat.pow_succ, Nat.mul_comm 2, Nat.mul_assoc, Nat.mul_comm 2]

theorem units_of_scale {places digits : Nat} (hhigh : digits ≤ 2 * leadingBit)
    (hlow : places = 0 ∨ leadingBit ≤ digits) :
    units (places * leadingBit + digits) = digits * Nat.pow 2 places := by
  rcases Nat.lt_or_eq_of_le hhigh with hlt | rfl
  · have hscale : scale (places * leadingBit + digits) = places := by
      unfold scale leadingBit at *
      omega
    rw [units, significand, hscale, Nat.add_sub_cancel_left]
  · -- the next double has one place more, and half the digits
    have hscale : scale (places * leadingBit + 2 * leadingBit) = places + 1 := by
      unfold scale leadingBit
      omega
    have hdigits : places * leadingBit + 2 * leadingBit - (places + 1) * leadingBit =
        leadingBit := by
      unfold leadingBit
      omega
    rw [units, significand, hscale, hdigits, two_mul_mul_pow]

theorem exists_scale (pattern : Nat) :
    ∃ places digits, pattern = places * leadingBit + digits ∧ digits < 2 * leadingBit ∧
      (places = 0 ∨ leadingBit ≤ digits) := by
  refine ⟨scale pattern, significand pattern, ?_⟩
  unfold significand scale leadingBit
  omega

/-- The doubles stand in the order of their patterns. -/
theorem units_strictMono : StrictMono units := by
  refine strictMono_nat_of_lt_succ fun pattern => ?_
  obtain ⟨places, digits, rfl, hhigh, hlow⟩ := exists_scale pattern
  rw [Nat.add_assoc, units_of_scale hhigh.le hlow, units_of_scale hhigh (by omega)]
  exact Nat.mul_lt_mul_of_pos_right (Nat.lt_succ_self digits) (Nat.two_pow_pos places)

/-- A double is a multiple of a power of two, or it is below the least double that needs
that many places. -/
theorem units_eq_or_lt (pattern places : Nat) :
    (∃ digits, units pattern = digits * Nat.pow 2 places) ∨
      0 < places ∧ units pattern < leadingBit * Nat.pow 2 places := by
  obtain ⟨places', digits, rfl, hhigh, hlow⟩ := exists_scale pattern
  rw [units_of_scale hhigh.le hlow]
  rcases Nat.lt_or_ge places' places with hlt | hge
  · right
    refine ⟨Nat.zero_lt_of_lt hlt, ?_⟩
    obtain ⟨more, rfl⟩ := Nat.exists_eq_add_of_lt hlt
    calc digits * Nat.pow 2 places'
        < 2 * leadingBit * Nat.pow 2 places' :=
          Nat.mul_lt_mul_of_pos_right hhigh (Nat.two_pow_pos places')
      _ = leadingBit * Nat.pow 2 (places' + 1) := two_mul_mul_pow leadingBit places'
      _ ≤ leadingBit * Nat.pow 2 (places' + more + 1) :=
          Nat.mul_le_mul_left leadingBit (Nat.pow_le_pow_right (by decide) (by omega))
  · left
    obtain ⟨more, rfl⟩ := Nat.exists_eq_add_of_le hge
    exact ⟨digits * Nat.pow 2 more, by
      rw [Nat.pow_eq, Nat.pow_eq, Nat.pow_eq, Nat.pow_add, Nat.mul_comm (2 ^ places),
        Nat.mul_assoc]⟩

/-! ## The nearest double -/

theorem shifted_bounds (quotient : Nat) :
    quotient / Nat.pow 2 (quotient.log2 - 52) < 2 * leadingBit ∧
      (quotient.log2 - 52 = 0 ∨ leadingBit ≤ quotient / Nat.pow 2 (quotient.log2 - 52)) := by
  have hbits : leadingBit = 2 ^ 52 := rfl
  rw [Nat.pow_eq, hbits, ← Nat.pow_succ']
  constructor
  · rw [Nat.div_lt_iff_lt_mul (Nat.two_pow_pos _), ← Nat.pow_add]
    exact Nat.lt_log2_self.trans_le (Nat.pow_le_pow_right (by decide) (by omega))
  · by_cases hplaces : quotient.log2 - 52 = 0
    · exact .inl hplaces
    · right
      have hne : quotient ≠ 0 := by
        rintro rfl
        exact hplaces rfl
      rw [Nat.le_div_iff_mul_le (Nat.two_pow_pos _), ← Nat.pow_add]
      exact (Nat.pow_le_pow_right (by decide) (by omega)).trans (Nat.log2_self_le hne)

section

variable {numerator divisor places digits pattern : Nat}

theorem distance_of_units (h : units pattern = digits * Nat.pow 2 places) :
    distance numerator divisor pattern =
      ((digits * (divisor * Nat.pow 2 places) : Nat) -
        (numerator * Nat.pow 2 depth : Nat) : Int).natAbs := by
  rw [distance, h, Nat.mul_assoc, Nat.mul_comm (Nat.pow 2 places)]

theorem natAbs_sub_lt {a b c : Nat} (hab : a < b) (hbc : b ≤ c) :
    ((b : Nat) - (c : Int)).natAbs < ((a : Nat) - (c : Int)).natAbs := by
  omega

/-- A double with fewer places lies farther off than the least one that has them all. -/
theorem lt_distance_of_units_lt (hdivisor : 0 < divisor)
    (hle : leadingBit * (divisor * Nat.pow 2 places) ≤ numerator * Nat.pow 2 depth)
    (h : units pattern < leadingBit * Nat.pow 2 places) :
    ((leadingBit * (divisor * Nat.pow 2 places) : Nat) -
        (numerator * Nat.pow 2 depth : Nat) : Int).natAbs <
      distance numerator divisor pattern := by
  have hfar := Nat.mul_lt_mul_of_pos_right h hdivisor
  rw [Nat.mul_assoc, Nat.mul_comm (Nat.pow 2 places)] at hfar
  exact natAbs_sub_lt hfar hle

/-- Reading a fraction yields the double nearest to it. -/
theorem exists_roundsTo (numerator : Nat) (hdivisor : 0 < divisor) :
    ∃ pattern, RoundsTo numerator divisor pattern ∧
      nearest numerator divisor = min pattern infinity := by
  let whole := numerator * Nat.pow 2 depth
  let places := (whole / divisor).log2 - 52
  let step := divisor * Nat.pow 2 places
  have hstep : 0 < step := Nat.mul_pos hdivisor (Nat.two_pow_pos places)
  obtain ⟨hhigh, hlow⟩ : whole / step < 2 * leadingBit ∧
      (places = 0 ∨ leadingBit ≤ whole / step) := by
    rw [← Nat.div_div_eq_div_mul]
    exact shifted_bounds (whole / divisor)
  have hdigits : roundDiv whole step ≤ 2 * leadingBit ∧
      (places = 0 ∨ leadingBit ≤ roundDiv whole step) := by
    rcases roundDiv_cases whole step with ⟨hround, _⟩ | ⟨hround, _⟩ <;> omega
  have hunits := units_of_scale hdigits.1 hdigits.2
  have hbelow : ∀ pattern, 0 < places → units pattern < leadingBit * Nat.pow 2 places →
      ((roundDiv whole step * step : Nat) - (whole : Int)).natAbs <
        distance numerator divisor pattern := by
    intro pattern hplaces hlt
    have hle := (Nat.le_div_iff_mul_le hstep).1 (hlow.resolve_left hplaces.ne')
    exact (roundDiv_nearest hstep leadingBit).1.trans_lt
      (lt_distance_of_units_lt hdivisor hle hlt)
  refine ⟨places * leadingBit + roundDiv whole step, ⟨?_, ?_⟩, rfl⟩
  · intro other
    rw [distance_of_units hunits]
    rcases units_eq_or_lt other places with ⟨digits, hother⟩ | ⟨hplaces, hother⟩
    · rw [distance_of_units hother]
      exact (roundDiv_nearest hstep digits).1
    · exact (hbelow other hplaces hother).le
  · intro other hne heq
    rw [distance_of_units hunits] at heq
    rcases units_eq_or_lt other places with ⟨digits, hother⟩ | ⟨hplaces, hother⟩
    · rw [distance_of_units hother] at heq
      have hdigits : digits ≠ roundDiv whole step := by
        rintro rfl
        exact hne (units_strictMono.injective (hother.trans hunits.symm))
      have heven := (roundDiv_nearest hstep digits).2 hdigits heq
      unfold leadingBit
      omega
    · exact absurd heq (hbelow other hplaces hother).ne'

end

theorem natAbs_sub_lt_of_between {a b c d : Nat} (hab : a < b) (hbc : b < c)
    (h : ((c : Nat) - (d : Int)).natAbs = ((a : Nat) - (d : Int)).natAbs) :
    ((b : Nat) - (d : Int)).natAbs < ((a : Nat) - (d : Int)).natAbs := by
  omega

theorem RoundsTo.not_lt {numerator divisor pattern other : Nat} (hdivisor : 0 < divisor)
    (h : RoundsTo numerator divisor pattern) (h' : RoundsTo numerator divisor other) :
    ¬ pattern < other := by
  intro hlt
  have heq := Nat.le_antisymm (h'.nearest pattern) (h.nearest other)
  rcases Nat.lt_or_eq_of_le hlt with hlt' | rfl
  · -- a double between the two would be nearer
    have hbetween : distance numerator divisor (pattern + 1) < distance numerator divisor pattern :=
      natAbs_sub_lt_of_between
        (Nat.mul_lt_mul_of_pos_right (units_strictMono (Nat.lt_succ_self pattern)) hdivisor)
        (Nat.mul_lt_mul_of_pos_right (units_strictMono hlt') hdivisor) heq
    exact Nat.not_le_of_lt hbetween (h.nearest (pattern + 1))
  · have heven := h.even (pattern + 1) (by omega) heq
    have heven' := h'.even pattern (by omega) heq.symm
    omega

theorem RoundsTo.unique {numerator divisor pattern other : Nat} (hdivisor : 0 < divisor)
    (h : RoundsTo numerator divisor pattern) (h' : RoundsTo numerator divisor other) :
    pattern = other :=
  Nat.le_antisymm (Nat.le_of_not_lt (h'.not_lt hdivisor h))
    (Nat.le_of_not_lt (h.not_lt hdivisor h'))

/-- A numeral denotes the one value that it is read as. -/
theorem denotes_iff {cs : List Char} {x : Float} : Denotes cs x ↔ x = ofText cs := by
  have hdivisor : 0 < Nat.pow 10 (Decimal.ofText cs).places := Nat.pow_pos (by decide)
  obtain ⟨pattern, hrounds, hnearest⟩ := exists_roundsTo (Decimal.ofText cs).digits hdivisor
  rw [ofText, Decimal.pattern, hnearest]
  constructor
  · rintro ⟨other, hother, rfl⟩
    rw [hother.unique hdivisor hrounds]
  · rintro rfl
    exact ⟨pattern, hrounds, rfl⟩

end Scriptlet.Number

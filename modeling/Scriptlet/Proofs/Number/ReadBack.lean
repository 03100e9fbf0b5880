import Mathlib.Data.List.TakeWhile
import Scriptlet.Proofs.Number.Bits
import Scriptlet.Proofs.Number.Nearest
/-!
# Numbers read back

The text of a decimal reads back as that decimal, and the decimal that is written for a
pattern reads back as that pattern.  So numbers that are not negative have different texts.
-/

namespace Scriptlet.Number

/-! ## Fractions of the same value -/

section

variable {numerator divisor numerator' divisor' pattern : Nat}

theorem distance_mul (h : numerator' * divisor = numerator * divisor') (pattern : Nat) :
    distance numerator' divisor' pattern * divisor =
      distance numerator divisor pattern * divisor' := by
  unfold distance
  generalize Nat.pow 2 depth = unit
  have hunits : units pattern * divisor' * divisor = units pattern * divisor * divisor' :=
    Nat.mul_right_comm _ _ _
  have hfraction : numerator' * unit * divisor = numerator * unit * divisor' := by
    rw [Nat.mul_right_comm, h, Nat.mul_right_comm]
  calc ((units pattern * divisor' : Nat) - (numerator' * unit : Nat) : Int).natAbs * divisor
      = ((units pattern * divisor' * divisor : Nat) -
          (numerator' * unit * divisor : Nat) : Int).natAbs := by
        rw [Int.natCast_mul _ divisor, Int.natCast_mul _ divisor, ← Int.sub_mul, Int.natAbs_mul,
          Int.natAbs_natCast]
    _ = ((units pattern * divisor * divisor' : Nat) -
          (numerator * unit * divisor' : Nat) : Int).natAbs := by
        rw [hunits, hfraction]
    _ = ((units pattern * divisor : Nat) - (numerator * unit : Nat) : Int).natAbs * divisor' := by
        rw [Int.natCast_mul _ divisor', Int.natCast_mul _ divisor', ← Int.sub_mul, Int.natAbs_mul,
          Int.natAbs_natCast]

theorem RoundsTo.of_ratio (h : RoundsTo numerator divisor pattern) (hdivisor : 0 < divisor)
    (hdivisor' : 0 < divisor') (heq : numerator' * divisor = numerator * divisor') :
    RoundsTo numerator' divisor' pattern := by
  have hmul := distance_mul heq
  refine ⟨fun other => ?_, fun other hne hsame => h.even other hne ?_⟩
  · refine Nat.le_of_mul_le_mul_right ?_ hdivisor
    rw [hmul, hmul]
    exact Nat.mul_le_mul_right divisor' (h.nearest other)
  · refine Nat.eq_of_mul_eq_mul_right hdivisor' ?_
    rw [← hmul, ← hmul, hsame]

theorem nearest_of_ratio (hdivisor : 0 < divisor) (hdivisor' : 0 < divisor')
    (heq : numerator' * divisor = numerator * divisor') :
    nearest numerator' divisor' = nearest numerator divisor := by
  obtain ⟨pattern, hrounds, hnearest⟩ := exists_roundsTo numerator hdivisor
  obtain ⟨pattern', hrounds', hnearest'⟩ := exists_roundsTo numerator' hdivisor'
  rw [hnearest, hnearest', hrounds'.unique hdivisor' (hrounds.of_ratio hdivisor hdivisor' heq)]

theorem nearest_of_units (hdivisor : 0 < divisor) (hle : pattern ≤ infinity)
    (heq : numerator * Nat.pow 2 depth = units pattern * divisor) :
    nearest numerator divisor = pattern := by
  have hzero : distance numerator divisor pattern = 0 := by
    rw [distance, heq, Int.sub_self, Int.natAbs_zero]
  have hrounds : RoundsTo numerator divisor pattern := by
    refine ⟨fun other => ?_, fun other hne hsame => absurd ?_ hne⟩
    · rw [hzero]
      exact Nat.zero_le _
    · rw [hzero, distance, heq, Int.natAbs_eq_zero, Int.sub_eq_zero] at hsame
      have hunits : units other * divisor = units pattern * divisor := Int.ofNat_inj.1 hsame
      exact units_strictMono.injective (Nat.eq_of_mul_eq_mul_right hdivisor hunits)
  obtain ⟨pattern', hrounds', hnearest⟩ := exists_roundsTo numerator hdivisor
  rw [hnearest, hrounds'.unique hdivisor hrounds, Nat.min_eq_left hle]

end

/-! ## The shortest decimal -/

theorem Decimal.pattern_reduce (digits places : Nat) :
    (reduce digits places).pattern = (Decimal.mk digits places).pattern :=
  nearest_of_ratio (Nat.pow_pos (by decide)) (Nat.pow_pos (by decide)) (reduce_value digits places)

/-- The decimal that is written for a finite pattern reads back as that pattern. -/
theorem pattern_shortest {pattern : Nat} (h : pattern ≤ infinity) :
    (shortest pattern).pattern = pattern := by
  rw [shortest, Decimal.pattern_reduce]
  cases hdigits : (List.range' 1 17).findSome? fun count => onGrid? pattern (exactly pattern)
      (Nat.pow 10 ((Nat.toDigits 10 (exactly pattern).digits).length - count)) with
  | none => exact nearest_of_units (Nat.pow_pos (by decide)) h (exactly_value pattern)
  | some digits =>
    obtain ⟨count, _, hgrid⟩ := List.exists_of_findSome?_eq_some hdigits
    exact pattern_of_onGrid? hgrid

/-! ## The text of a decimal -/

structure Decimal.Written (d : Decimal) (whole fraction : List Char) : Prop where
  whole_ne_nil : whole ≠ []
  isDigit_whole : ∀ c ∈ whole, c.isDigit = true
  isDigit_fraction : ∀ c ∈ fraction, c.isDigit = true
  length_fraction : fraction.length = d.places
  value : Nat.ofDigitChars 10 (whole ++ fraction) 0 = d.digits
  text : d.text = if d.places = 0 then whole else whole ++ '.' :: fraction

theorem Decimal.exists_written (d : Decimal) : ∃ whole fraction, d.Written whole fraction := by
  let written := Nat.toDigits 10 d.digits
  let padded := List.replicate (d.places + 1 - written.length) '0' ++ written
  have hlength : d.places < padded.length := by
    simp only [padded, List.length_append, List.length_replicate]
    omega
  have hdigit : ∀ c ∈ padded, c.isDigit = true := by
    intro c hc
    rcases List.mem_append.1 hc with hc | hc
    · rw [List.eq_of_mem_replicate hc]
      rfl
    · exact Nat.isDigit_of_mem_toDigits (by decide) (by decide) hc
  refine ⟨padded.take (padded.length - d.places), padded.drop (padded.length - d.places),
    ⟨?_, ?_, ?_, ?_, ?_, rfl⟩⟩
  · rw [← List.length_pos_iff, List.length_take]
    omega
  · exact fun c hc => hdigit c (List.mem_of_mem_take hc)
  · exact fun c hc => hdigit c (List.mem_of_mem_drop hc)
  · rw [List.length_drop]
    omega
  · rw [List.take_append_drop, Nat.ofDigitChars_append, Nat.ofDigitChars_replicate_zero]
    exact Nat.ofDigitChars_ten_toDigits

/-- The text of a decimal reads back as that decimal. -/
theorem Decimal.ofText_text (d : Decimal) : ofText d.text = d := by
  obtain ⟨whole, fraction, hwritten⟩ := d.exists_written
  have hvalue := hwritten.value
  have hlength := hwritten.length_fraction
  rw [hwritten.text, ofText]
  split_ifs with hplaces
  · rw [hplaces, List.length_eq_zero_iff] at hlength
    rw [hlength, List.append_nil] at hvalue
    rw [List.takeWhile_eq_self_iff.2 hwritten.isDigit_whole,
      List.dropWhile_eq_nil_iff.2 hwritten.isDigit_whole]
    rw [List.drop_nil, List.append_nil, hvalue, List.length_nil, ← hplaces]
  · rw [List.takeWhile_append_of_pos hwritten.isDigit_whole,
      List.dropWhile_append_of_pos hwritten.isDigit_whole]
    simp [hvalue, hlength]

/-! ## The text of a number -/

structure Positional (cs : List Char) : Prop where
  head : ∃ c ∈ cs.head?, c.isDigit = true
  all : ∀ c ∈ cs, c.isDigit = true ∨ c = '.'

theorem Decimal.positional_text (d : Decimal) : Positional d.text := by
  obtain ⟨whole, fraction, hwritten⟩ := d.exists_written
  obtain ⟨c, rest, hwhole⟩ := List.exists_cons_of_ne_nil hwritten.whole_ne_nil
  have hc : c.isDigit = true := hwritten.isDigit_whole c (hwhole ▸ List.mem_cons_self)
  refine ⟨⟨c, ?_, hc⟩, ?_⟩
  · rw [hwritten.text, hwhole]
    split_ifs <;> rfl
  · rw [hwritten.text]
    split_ifs
    · exact fun c hc => .inl (hwritten.isDigit_whole c hc)
    · intro c hc
      rcases List.mem_append.1 hc with hc | hc
      · exact .inl (hwritten.isDigit_whole c hc)
      · rcases List.mem_cons.1 hc with rfl | hc
        · exact .inr rfl
        · exact .inl (hwritten.isDigit_fraction c hc)

section

variable {pattern other : Nat}

theorem textOfPattern_eq (h : pattern ≤ infinity) :
    textOfPattern pattern =
      if pattern = infinity then "inf".toList else (shortest pattern).text := by
  have hlt : pattern < signBit := Nat.lt_of_le_of_lt h (by decide)
  have hsign : ¬ (signBit ≤ pattern ∧ pattern % signBit ≤ infinity) := by omega
  rw [textOfPattern, if_neg hsign, magnitudeText, Nat.mod_eq_of_lt hlt, if_neg (Nat.not_lt.2 h)]

theorem textOfPattern_cases (h : pattern ≤ infinity) :
    textOfPattern pattern = "inf".toList ∨ Positional (textOfPattern pattern) := by
  rw [textOfPattern_eq h]
  split_ifs
  · exact .inl rfl
  · exact .inr (shortest pattern).positional_text

/-- Patterns of numbers that are not negative have different texts. -/
theorem textOfPattern_injOn (h : pattern ≤ infinity) (h' : other ≤ infinity)
    (heq : textOfPattern pattern = textOfPattern other) : pattern = other := by
  have hword : ∀ d : Decimal, d.text ≠ "inf".toList := by
    intro d hd
    obtain ⟨c, hc, hdigit⟩ := d.positional_text.head
    rw [hd] at hc
    cases hc
    cases hdigit
  rw [textOfPattern_eq h, textOfPattern_eq h'] at heq
  split_ifs at heq with hinfinity hinfinity' hinfinity'
  · rw [hinfinity, hinfinity']
  · exact absurd heq.symm (hword _)
  · exact absurd heq (hword _)
  · have hshortest : shortest pattern = shortest other := by
      rw [← (shortest pattern).ofText_text, heq, Decimal.ofText_text]
    calc pattern = (shortest pattern).pattern := (pattern_shortest h).symm
      _ = (shortest other).pattern := by rw [hshortest]
      _ = other := pattern_shortest h'

end

theorem text_ofBits {pattern : Nat} (h : pattern ≤ infinity) :
    (text (Float.ofBits (UInt64.ofNat pattern))).toList = textOfPattern pattern := by
  rw [text, toNat_toBits_ofBits h, String.toList_ofList]

end Scriptlet.Number

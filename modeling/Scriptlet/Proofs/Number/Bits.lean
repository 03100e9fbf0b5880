import Mathlib
import Scriptlet.Number.Shortest
/-!
# The bits of a number

A pattern up to that of infinity is kept by a double as its bits, and two doubles of such
patterns are equal as numbers just if the patterns are the same.  The sign and the payload
of what is not a number do not occur below that bound.  No smaller import than that of the
whole library brings the lemmas on packed doubles.
-/

namespace Scriptlet.Number

open Float.Model Float.Model.UnpackedFloat

variable {pattern other : Nat}

theorem toNat_ofNat_of_le_infinity (h : pattern ≤ infinity) :
    (BitVec.ofNat 64 pattern).toNat = pattern := by
  rw [BitVec.toNat_ofNat]
  unfold infinity at h
  omega

theorem toNat_unpackExponent (bits : BitVec Format.binary64.numBits) :
    (unpackExponent bits).toNat = bits.toNat / 2 ^ 52 % 2 ^ 11 := by
  simp [unpackExponent, Nat.shiftRight_eq_div_pow]

theorem toNat_unpackMantissa (bits : BitVec Format.binary64.numBits) :
    (unpackMantissa bits).toNat = bits.toNat % 2 ^ 52 := by
  simp [unpackMantissa]

theorem not_isNaNBits {bits : BitVec Format.binary64.numBits} (h : bits.toNat ≤ infinity) :
    ¬ isNaNBits bits := by
  have hexponent := toNat_unpackExponent bits
  simp only [isNaNBits, decide_eq_true_eq]
  rintro ⟨hones, hpayload⟩
  rw [hones] at hexponent
  change 2047 = _ at hexponent
  refine hpayload (BitVec.eq_of_toNat_eq ?_)
  change _ = 0
  rw [toNat_unpackMantissa]
  unfold infinity at h
  omega

theorem toNat_toBits_ofBits (h : pattern ≤ infinity) :
    (Float.ofBits (UInt64.ofNat pattern)).toBits.toNat = pattern := by
  change (pack .binary64 (unpack .binary64 (BitVec.ofNat 64 pattern))).toNat = pattern
  have hbits := toNat_ofNat_of_le_infinity h
  rw [pack_unpack, if_neg (not_isNaNBits (hbits.symm ▸ h))]
  exact hbits

theorem ofBits_beq_iff (h : pattern ≤ infinity) (h' : other ≤ infinity) :
    (Float.ofBits (UInt64.ofNat pattern) == Float.ofBits (UInt64.ofNat other)) = true ↔
      pattern = other := by
  -- what is not a number, and the negative zero, have bits above those of infinity
  have hne : ∀ {pattern : Nat}, pattern ≤ infinity → ∀ x : Float, infinity < x.toBits.toNat →
      Float.ofBits (UInt64.ofNat pattern) ≠ x := by
    rintro pattern h x hx rfl
    rw [toNat_toBits_ofBits h] at hx
    exact Nat.not_lt.2 h hx
  have hnan : infinity < Float.nan.toBits.toNat := by decide
  have hzero : infinity < (-0 : Float).toBits.toNat := by decide
  rw [Float.beq_iff_ne_nan_and_eq]
  constructor
  · rintro ⟨-, -, heq | ⟨-, heq⟩ | ⟨heq, -⟩⟩
    · rw [← toNat_toBits_ofBits h, heq, toNat_toBits_ofBits h']
    · exact absurd heq (hne h' _ hzero)
    · exact absurd heq (hne h _ hzero)
  · rintro rfl
    exact ⟨hne h _ hnan, hne h _ hnan, .inl rfl⟩

end Scriptlet.Number

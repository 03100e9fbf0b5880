import Scriptlet.Proofs.Number.ReadBack
/-!
# The sign of a number

The sign of a double is the bit above its pattern.  Negation sets that bit and changes no
other, so every finite double is one without a sign or the negation of one, and its text is
that of its magnitude, with a dash in front for the sign.
-/

namespace Scriptlet.Number

open Float.Model Float.Model.UnpackedFloat

variable {pattern : Nat} {x : Float}

/-! ## The bits of a negation -/

theorem toNat_unpackSign (bits : BitVec Format.binary64.numBits) :
    (unpackSign bits).toNat = bits.toNat / 2 ^ 63 % 2 := by
  simp [unpackSign, Nat.shiftRight_eq_div_pow]

theorem unpack_signBit_add {bits bits' : BitVec Format.binary64.numBits}
    (hbits : bits.toNat < signBit) (h : bits'.toNat = signBit + bits.toNat) :
    UnpackedFloat.unpack .binary64 bits' = (UnpackedFloat.unpack .binary64 bits).neg := by
  unfold signBit at hbits h
  have hexponent : unpackExponent bits' = unpackExponent bits := by
    apply BitVec.eq_of_toNat_eq
    rw [toNat_unpackExponent, toNat_unpackExponent]
    omega
  have hmantissa : unpackMantissa bits' = unpackMantissa bits := by
    apply BitVec.eq_of_toNat_eq
    rw [toNat_unpackMantissa, toNat_unpackMantissa]
    omega
  have hpositive : unpackSign bits = 0#1 := by
    apply BitVec.eq_of_toNat_eq
    rw [toNat_unpackSign]
    change _ = 0
    omega
  have hnegative : unpackSign bits' = 1#1 := by
    apply BitVec.eq_of_toNat_eq
    rw [toNat_unpackSign]
    change _ = 1
    omega
  simp only [UnpackedFloat.unpack, hexponent, hmantissa, hpositive, hnegative]
  split_ifs <;> rfl

/-- The negation of a double without a sign has the same bits and the sign. -/
theorem neg_ofBits (h : pattern ≤ infinity) :
    -Float.ofBits (UInt64.ofNat pattern) = Float.ofBits (UInt64.ofNat (signBit + pattern)) := by
  have hbits := toNat_ofNat_of_le_infinity h
  have hlt : pattern < signBit := Nat.lt_of_le_of_lt h (by decide)
  have hsigned : (BitVec.ofNat 64 (signBit + pattern)).toNat =
      signBit + (BitVec.ofNat 64 pattern).toNat := by
    rw [hbits, BitVec.toNat_ofNat]
    unfold signBit at *
    omega
  have hpacked : pack .binary64 (UnpackedFloat.unpack .binary64 (BitVec.ofNat 64 pattern)) =
      BitVec.ofNat 64 pattern := by
    rw [pack_unpack, if_neg (not_isNaNBits (hbits.symm ▸ h))]
  have hneg : UnpackedFloat.neg (UnpackedFloat.unpack .binary64
        (pack .binary64 (UnpackedFloat.unpack .binary64 (BitVec.ofNat 64 pattern)))) =
      UnpackedFloat.unpack .binary64 (BitVec.ofNat 64 (signBit + pattern)) := by
    rw [hpacked, unpack_signBit_add (hbits.symm ▸ hlt) hsigned]
  apply Float.toBits_inj.1
  exact congrArg (fun unpacked => UInt64.ofBitVec (pack .binary64 unpacked)) hneg

/-! ## Finite numbers -/

theorem unpackExponent_eq_neg_one_iff {bits : BitVec Format.binary64.numBits} :
    unpackExponent bits = -1#11 ↔ infinity ≤ bits.toNat % signBit := by
  have hlt := bits.isLt
  change bits.toNat < 2 ^ 64 at hlt
  rw [← BitVec.toNat_inj, toNat_unpackExponent]
  change _ = 2047 ↔ _
  unfold infinity signBit
  omega

theorem isFinite_iff : x.isFinite = true ↔ x.toBits.toNat % signBit < infinity := by
  have hexponent := @unpackExponent_eq_neg_one_iff x.toBits.toBitVec
  change (UnpackedFloat.unpack .binary64 x.toBits.toBitVec).isFinite = true ↔ _
  rw [UnpackedFloat.unpack]
  split_ifs with hones
  · exact iff_of_false nofun (Nat.not_lt.2 (hexponent.1 hones))
  · exact iff_of_false nofun (Nat.not_lt.2 (hexponent.1 hones))
  all_goals exact iff_of_true rfl (Nat.lt_of_not_le fun hle => hones (hexponent.2 hle))

theorem ofBits_toNat_toBits (x : Float) : Float.ofBits (UInt64.ofNat x.toBits.toNat) = x := by
  rw [UInt64.ofNat_toNat, Float.ofBits_toBits]

/-- A finite double is one without a sign, or the negation of one, and so is its text. -/
theorem cases_of_isFinite (h : x.isFinite = true) :
    ∃ pattern < infinity,
      x.toBits.toNat < signBit ∧ x = Float.ofBits (UInt64.ofNat pattern) ∧
          (text x).toList = (shortest pattern).text ∨
        signBit ≤ x.toBits.toNat ∧ x = -Float.ofBits (UInt64.ofNat pattern) ∧
          (text x).toList = '-' :: (shortest pattern).text := by
  have hmagnitude := isFinite_iff.1 h
  have htext : magnitudeText (x.toBits.toNat % signBit) =
      (shortest (x.toBits.toNat % signBit)).text := by
    rw [magnitudeText, if_neg (Nat.not_lt.2 hmagnitude.le), if_neg hmagnitude.ne]
  refine ⟨x.toBits.toNat % signBit, hmagnitude, ?_⟩
  rw [text, textOfPattern, String.toList_ofList, htext]
  rcases Nat.lt_or_ge x.toBits.toNat signBit with hlt | hge
  · refine .inl ⟨hlt, ?_, if_neg fun hsign => Nat.not_lt.2 hsign.1 hlt⟩
    rw [Nat.mod_eq_of_lt hlt, ofBits_toNat_toBits]
  · refine .inr ⟨hge, ?_, if_pos ⟨hge, hmagnitude.le⟩⟩
    have hbits : signBit + x.toBits.toNat % signBit = x.toBits.toNat := by
      have hlt := x.toBits.toNat_lt
      unfold signBit at *
      omega
    rw [neg_ofBits hmagnitude.le, hbits, ofBits_toNat_toBits]

end Scriptlet.Number

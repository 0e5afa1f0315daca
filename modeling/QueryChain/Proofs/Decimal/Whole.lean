import Mathlib
import QueryChain.Decimal.Whole

/-!
# Integers of 53 bits

The bits of an integer below `2 ^ 53`, moved up until the leading one is bit 52, are the mantissa of a double, and its
exponent moves them down again. So such an integer is a double, and comes back unchanged.

* `round_eq`: the double of an integer, by its bits.
* `unpack_pack`: a normal double is the one that was packed.
* `truncate_ofInt64`: integers of 53 bits come back.
-/

namespace QueryChain.Decimal

open Float.Model UnpackedFloat

section

variable {m k : Nat} {e : Int}

/-! ## Moved bits -/

theorem log2_shiftLeft (hm : 0 < m) (k : Nat) : (m <<< k).log2 = m.log2 + k := by
  have hpos : 0 < m * 2 ^ k := Nat.mul_pos hm (Nat.two_pow_pos k)
  rw [Nat.shiftLeft_eq, Nat.log2_eq_iff (Nat.ne_of_gt hpos)]
  constructor
  · rw [Nat.pow_add]
    exact Nat.mul_le_mul_right _ (Nat.log2_self_le (Nat.ne_of_gt hm))
  · rw [Nat.add_right_comm, Nat.pow_add]
    exact Nat.mul_lt_mul_of_pos_right Nat.lt_log2_self (Nat.two_pow_pos k)

/-- Moving bits down one by one divides. -/
theorem shiftRight_mantissa (em : ExtendedMantissa) (k : Nat) : (em >>> k).mantissa = em.mantissa / 2 ^ k := by
  change (k.repeat ExtendedMantissa.shiftRightOne em).mantissa = _
  induction k with
  | zero => rw [Nat.repeat, Nat.pow_zero, Nat.div_one]
  | succ k ih => rw [Nat.repeat, ExtendedMantissa.shiftRightOne, ih, Nat.div_div_eq_div_mul, Nat.pow_succ]

/-- The exponent of the last bit of a double, by its leading bit. -/
theorem targetExponent_eq (m : Nat) (e : Int) :
    Format.binary64.targetExponent (totalExponent m e) = max ((m.log2 : Int) + e - 52) (-1074) := by
  have hbits : (Format.binary64.mantissaBits : Int) = 53 := by decide
  have hmin : Format.binary64.minExponent = -1074 := by decide
  rw [Format.targetExponent, totalExponent, hbits, hmin]
  congr 1
  omega

/-- Nothing is moved where the exponent is the one aimed at. -/
theorem shiftToTargetExponent_self (h : Format.binary64.targetExponent (totalExponent m e) = e) :
    shiftToTargetExponent .binary64 m e .exact = (⟨m, false, false⟩, e) := by
  have hshift : (e - e).toNat = 0 := by omega
  simp only [shiftToTargetExponent, shiftToExponent, h, hshift]
  rw [Int.natCast_zero, Int.add_zero]
  rfl

/-! ## Rounding -/

/-- Nothing is rounded where the exponent is the one aimed at. -/
theorem roundWithAccuracy_self (h : Format.binary64.targetExponent (totalExponent m e) = e) (hm : 0 < m) (s : Sign) :
    roundWithAccuracy .binary64 s m e .exact = .finite s m e hm := by
  have hne : m ≠ 0 := Nat.ne_of_gt hm
  have hrounded : ExtendedMantissa.roundedMantissa ⟨m, false, false⟩ = m := rfl
  simp only [roundWithAccuracy, shiftToTargetExponent_self h, hrounded, hne, dif_neg, not_false_eq_true]

/-- The double of an integer, with its bits moved up until the leading one is bit 52. -/
theorem round_eq (hm : 0 < m) (hk : m.log2 + k = 52) (s : Sign) :
    ∃ h, UnpackedFloat.round .binary64 s m 0 = .finite s (m <<< k) (-(k : Int)) h := by
  have hpos : 0 < m <<< k := Nat.shiftLeft_pos_iff.mpr hm
  have htarget : Format.binary64.targetExponent (totalExponent m 0) = -(k : Int) := by
    rw [targetExponent_eq]
    omega
  have hself : Format.binary64.targetExponent (totalExponent (m <<< k) (-(k : Int))) = -(k : Int) := by
    rw [targetExponent_eq, log2_shiftLeft hm]
    omega
  have hdecrease : decreaseExponent m 0 (-(k : Int)) = (m <<< k, -(k : Int)) := by
    have hshift : (0 - -(k : Int)).toNat = k := by omega
    rw [decreaseExponent, hshift, Int.zero_sub]
  refine ⟨hpos, ?_⟩
  rw [UnpackedFloat.round, htarget, hdecrease]
  exact roundWithAccuracy_self hself hpos s

/-- Dropping what follows the point undoes moving bits up. -/
theorem roundToInt_shiftLeft (s : Sign) (m k : Nat) : roundToInt s (m <<< k) (-(k : Int)) = s.apply m := by
  have hup : (-(k : Int) - 0).toNat = 0 := by omega
  have hdown : (0 - (-(k : Int) - (0 : Nat))).toNat = k := by omega
  simp only [roundToInt, decreaseExponent, shiftToExponent, hup, hdown, shiftRight_mantissa]
  rw [ExtendedMantissa.ofMantissaAndAccuracy, Nat.shiftLeft_zero, Nat.shiftLeft_eq,
    Nat.mul_div_cancel _ (Nat.two_pow_pos k)]

/-! ## Packing -/

/-- The leading bit, which is not stored, comes back. -/
theorem toNat_leadingBit_append (hm : m.log2 = 52) (h : 0 < m) : (1#1 ++ BitVec.ofNat 52 m).toNat = m := by
  obtain ⟨hlow, hhigh⟩ := (Nat.log2_eq_iff (Nat.ne_of_gt h)).mp hm
  have hone : (1#1).toNat <<< 52 = 2 ^ 52 := rfl
  rw [BitVec.toNat_append, ← Nat.shiftLeft_add_eq_or_of_lt (BitVec.ofNat 52 m).isLt, hone, BitVec.toNat_ofNat]
  omega

/-- What is added to the exponent of the last bit where it is stored. -/
theorem binary64_bias :
    (Format.binary64.exponentBias : Int) + (Format.binary64.mantissaBitsWithoutImplicit : Nat) = 1075 := by decide

/-- A normal double is the one that was packed. -/
theorem unpack_pack (hm : m.log2 = 52) (hmin : -1074 ≤ e) (hmax : e ≤ 971) (h : 0 < m) (s : Sign) :
    UnpackedFloat.unpack .binary64 (UnpackedFloat.pack .binary64 (.finite s m e h)) = .finite s m e h := by
  -- the exponent as it is stored is neither all zeros nor all ones
  obtain ⟨stored, hstored, hpos, hlt⟩ : ∃ stored : Nat, e + 1075 = stored ∧ 0 < stored ∧ stored < 2047 :=
    ⟨(e + 1075).toNat, by omega, by omega, by omega⟩
  have hexponent : (BitVec.ofNat 11 stored).toNat = stored := by
    rw [BitVec.toNat_ofNat]
    omega
  have hzeros : BitVec.ofNat 11 stored ≠ 0#_ := by
    rw [Ne, ← BitVec.toNat_inj, hexponent, BitVec.toNat_zero]
    omega
  have hones : BitVec.ofNat 11 stored ≠ -1#_ := by
    have hall : (-1#11).toNat = 2047 := rfl
    rw [Ne, ← BitVec.toNat_inj, hexponent, hall]
    omega
  have hpack : UnpackedFloat.pack .binary64 (.finite s m e h) =
      packComponents .binary64 s (BitVec.ofNat 11 stored) (BitVec.ofNat 52 m) := by
    have hbiased : (e + Format.binary64.exponentBias + Format.binary64.mantissaBitsWithoutImplicit).toNat = stored := by
      rw [Int.add_assoc, binary64_bias, hstored, Int.toNat_natCast]
    have hsmall : ¬ 2 ^ Format.binary64.exponentBits ≤ stored + 1 := by
      change ¬ 2 ^ 11 ≤ stored + 1
      omega
    have hnormal : m.log2 + 1 = Format.binary64.mantissaBits := by
      rw [hm]
      rfl
    simp only [UnpackedFloat.pack, hbiased, hsmall, hnormal, if_false, if_true]
  have hvalue : (stored : Int) - (Format.binary64.exponentBias + Format.binary64.mantissaBitsWithoutImplicit) = e := by
    rw [binary64_bias]
    omega
  rw [hpack]
  simp only [UnpackedFloat.unpack, unpackMantissa_packComponents, unpackExponent_packComponents,
    unpackSign_packComponents, Sign.ofBitVec_toBitVec, hzeros, hones, if_false, hexponent, hvalue,
    toNat_leadingBit_append hm h]

end

/-! ## There and back -/

/-- An integer other than zero is rounded by sign and magnitude. -/
theorem exists_ofInt_eq {n : Int} (hn : n ≠ 0) :
    ∃ s : Sign, s.apply n.natAbs = n ∧
      UnpackedFloat.ofInt .binary64 n = UnpackedFloat.round .binary64 s n.natAbs 0 := by
  rcases Int.lt_or_gt_of_ne hn with hneg | hpos
  · have hmagnitude : (-n).toNat = n.natAbs := by omega
    refine ⟨.negative, ?_, ?_⟩
    · change -(n.natAbs : Int) = n
      omega
    · rw [UnpackedFloat.ofInt, UnpackedFloat.normalize, Int.compare_eq_lt.mpr hneg, ← hmagnitude]
  · have hmagnitude : n.toNat = n.natAbs := by omega
    refine ⟨.positive, ?_, ?_⟩
    · change (n.natAbs : Int) = n
      omega
    · rw [UnpackedFloat.ofInt, UnpackedFloat.normalize, Int.compare_eq_gt.mpr hpos, ← hmagnitude]

/-- Integers of 53 bits come back unchanged. -/
theorem truncate_ofInt64 {n : Int64} (h : n.toInt.natAbs < 2 ^ 53) : truncate (ofInt64 n) = n := by
  have hmodel : truncate (ofInt64 n) =
      (UnpackedFloat.unpack .binary64 (UnpackedFloat.pack .binary64 (UnpackedFloat.ofInt .binary64 n.toInt))).toInt64 :=
    rfl
  by_cases hn : n.toInt = 0
  · obtain rfl : n = 0 := Int64.toInt.inj hn
    decide
  · obtain ⟨s, hsign, hofInt⟩ := exists_ofInt_eq hn
    have hpos : 0 < n.toInt.natAbs := Int.natAbs_pos.mpr hn
    have hlog : n.toInt.natAbs.log2 < 53 := (Nat.log2_lt (Nat.ne_of_gt hpos)).mpr h
    -- the bits go up to bit 52
    obtain ⟨k, hk⟩ : ∃ k, n.toInt.natAbs.log2 + k = 52 := ⟨52 - n.toInt.natAbs.log2, by omega⟩
    obtain ⟨hmantissa, hround⟩ := round_eq hpos hk s
    have hleading : (n.toInt.natAbs <<< k).log2 = 52 := by rw [log2_shiftLeft hpos, hk]
    rw [hmodel, hofInt, hround, unpack_pack hleading (by omega) (by omega) hmantissa s, UnpackedFloat.toInt64,
      UnpackedFloat.toInt, roundToInt_shiftLeft, hsign, Int64.ofIntClamp_toInt]

end QueryChain.Decimal

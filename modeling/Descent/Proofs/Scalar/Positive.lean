import Descent.Scalar.Double
import Mathlib

/-!
# Positive doubles

What the order tests of doubles say of finite values, and which quotients cannot vanish. A double is
a mantissa and an exponent; rounding a mantissa other than zero to a double, from an exponent that
doubles have, never gives zero (`Double.round_bounds`), and the quotient of one and a finite double
is computed from such an exponent.

* `Double.pos_of_not_le`: a finite double that is not at most zero is positive;
* `Double.one_div_pos`: the reciprocal of a finite double that is not at most one is positive.
-/

open Float.Model Float.Model.UnpackedFloat

namespace Descent.Double

/-! ## Mantissas -/

theorem mantissa_shiftRight (em : ExtendedMantissa) (k : Nat) :
    (em >>> k).mantissa = em.mantissa / 2 ^ k := by
  induction k with
  | zero => simp [HShiftRight.hShiftRight, Nat.repeat]
  | succ k ih =>
    have hstep : (em >>> (k + 1)).mantissa = (em >>> k).mantissa / 2 := rfl
    rw [hstep, ih, Nat.div_div_eq_div_mul, pow_succ]

theorem mantissa_ofMantissaAndAccuracy (m : Nat) (accuracy : Accuracy) :
    (ExtendedMantissa.ofMantissaAndAccuracy m accuracy).mantissa = m := by
  rcases accuracy with _ | (_ | _ | _) <;> rfl

theorem le_roundedMantissa (em : ExtendedMantissa) : em.mantissa ≤ em.roundedMantissa := by
  obtain ⟨m, _ | _, _ | _⟩ := em <;>
    simp [ExtendedMantissa.roundedMantissa, ExtendedMantissa.accuracy,
      Accuracy.roundToNearestEven]

/-- From an exponent that doubles have, a mantissa is shortened to 53 bits. -/
theorem shiftToTargetExponent_eq {e : Int} (he : -1074 ≤ e) (m : Nat) (accuracy : Accuracy) :
    shiftToTargetExponent Format.binary64 m e accuracy =
      (ExtendedMantissa.ofMantissaAndAccuracy m accuracy >>> (m.log2 - 52),
        e + ((m.log2 - 52 : Nat) : Int)) := by
  have hamount : (Format.binary64.targetExponent (totalExponent m e) - e).toNat = m.log2 - 52 := by
    simp only [Format.targetExponent, Format.minExponent, Format.mantissaBits, totalExponent]
    omega
  simp only [shiftToTargetExponent, shiftToExponent, hamount]

theorem shortened_bounds {m : Nat} (hm : 0 < m) :
    0 < m / 2 ^ (m.log2 - 52) ∧ m / 2 ^ (m.log2 - 52) < 2 ^ 53 := by
  have hhigh := Nat.lt_log2_self (n := m)
  constructor
  · refine Nat.div_pos ?_ (Nat.two_pow_pos _)
    exact (Nat.pow_le_pow_right (by decide) (Nat.sub_le _ _)).trans (Nat.log2_self_le hm.ne')
  · rw [Nat.div_lt_iff_lt_mul (Nat.two_pow_pos _), ← pow_add]
    exact hhigh.trans_le (Nat.pow_le_pow_right (by decide) (by omega))

/-- **Rounding keeps a mantissa other than zero.** -/
theorem round_bounds (sign : Sign) {m : Nat} (hm : 0 < m) {e : Int} (he : -1074 ≤ e)
    (accuracy : Accuracy) :
    ∃ m' e' h, roundWithAccuracy Format.binary64 sign m e accuracy = .finite sign m' e' h ∧
      m' < 2 ^ 53 ∧ -1074 ≤ e' := by
  have hmantissa : 0 < (ExtendedMantissa.ofMantissaAndAccuracy m accuracy >>>
      (m.log2 - 52)).roundedMantissa := by
    refine lt_of_lt_of_le ?_ (le_roundedMantissa _)
    rw [mantissa_shiftRight, mantissa_ofMantissaAndAccuracy]
    exact (shortened_bounds hm).1
  -- a mantissa that was rounded up may have one bit too many
  obtain ⟨hpos, hlt⟩ := shortened_bounds hmantissa
  have hnext : -1074 ≤ e + ((m.log2 - 52 : Nat) : Int) := by omega
  simp only [roundWithAccuracy, shiftToTargetExponent_eq he, shiftToTargetExponent_eq hnext,
    mantissa_shiftRight, mantissa_ofMantissaAndAccuracy, dif_neg hpos.ne']
  exact ⟨_, _, hpos, rfl, hlt, by omega⟩

/-! ## Bits -/

/-- The mantissa and the exponent of a finite double. -/
theorem unpack_bounds {b : BitVec Format.binary64.numBits} {sign : Sign} {m : Nat} {e : Int}
    {hm : 0 < m} (h : UnpackedFloat.unpack Format.binary64 b = .finite sign m e hm) :
    m < 2 ^ 53 ∧ e ≤ 971 := by
  have hmantissa : (unpackMantissa b).toNat < 2 ^ 52 := (unpackMantissa b).isLt
  have hexponent : (unpackExponent b).toNat < 2 ^ 11 := (unpackExponent b).isLt
  have hbias : Format.binary64.exponentBias = 1023 := rfl
  unfold UnpackedFloat.unpack at h
  simp only [hbias] at h
  split at h
  · split at h <;> cases h
  · rename_i hfinite
    have hne : (unpackExponent b).toNat ≠ 2047 := fun heq =>
      hfinite (BitVec.eq_of_toNat_eq (by simpa using heq))
    split at h
    · rename_i hzero
      split at h
      · cases h
      · cases h
        rw [hzero]
        exact ⟨hmantissa.trans (by decide), by decide⟩
    · cases h
      have hlt : (1#1 ++ unpackMantissa b).toNat < 2 ^ 53 := (1#1 ++ unpackMantissa b).isLt
      omega

/-- A positive mantissa is packed as a positive double, perhaps an infinite one. -/
theorem zero_lt_pack {m : Nat} (hm : 0 < m) (hlt : m < 2 ^ 53) {e : Int} (he : -1074 ≤ e) :
    (UnpackedFloat.zero .positive).lt (UnpackedFloat.unpack Format.binary64
      (UnpackedFloat.pack Format.binary64 (.finite .positive m e hm))) = true := by
  have hbias : Format.binary64.exponentBias = 1023 := rfl
  have hbits : Format.binary64.mantissaBits = 53 := rfl
  unfold UnpackedFloat.pack
  simp only [hbias, hbits]
  split
  · simp [UnpackedFloat.unpack, packedInfinity, UnpackedFloat.lt, UnpackedFloat.compare]
  · split
    · -- the exponent of a normal number is neither of the two that are set apart
      have hexponent : (BitVec.ofNat 11 (e + 1023 + 52).toNat).toNat = (e + 1023 + 52).toNat := by
        rw [BitVec.toNat_ofNat, Nat.mod_eq_of_lt (by omega)]
      have hfinite : BitVec.ofNat 11 (e + 1023 + 52).toNat ≠ 2047#11 := by
        intro heq
        rw [heq, BitVec.toNat_ofNat] at hexponent
        omega
      have hnormal : BitVec.ofNat 11 (e + 1023 + 52).toNat ≠ 0#11 := by
        intro heq
        rw [heq, BitVec.toNat_ofNat] at hexponent
        omega
      simp [UnpackedFloat.unpack, UnpackedFloat.lt, UnpackedFloat.compare, hfinite, hnormal]
    · -- the mantissa of a subnormal number has at most 52 bits
      have hshort : m < 2 ^ 52 := by
        by_contra hge
        have hlog : m.log2 = 52 := (Nat.log2_eq_iff hm.ne').2 ⟨not_lt.1 hge, hlt⟩
        omega
      have hmantissa : BitVec.ofNat 52 m ≠ 0#52 := by
        intro heq
        have hzero := congrArg BitVec.toNat heq
        rw [BitVec.toNat_ofNat, Nat.mod_eq_of_lt hshort, BitVec.toNat_ofNat] at hzero
        omega
      simp [UnpackedFloat.unpack, UnpackedFloat.lt, UnpackedFloat.compare, hmantissa]

/-! ## Quotients -/

/-- The quotient of one and a finite number below the largest double is computed to at least one
bit, from an exponent that doubles have. -/
theorem one_div_bounds {m : Nat} (hm : 0 < m) (hlt : m < 2 ^ 53) {e : Int} (he : e ≤ 971) :
    ∃ m' e' h, UnpackedFloat.div Format.binary64
      (.finite .positive (2 ^ 52) (-52) (Nat.two_pow_pos 52)) (.finite .positive m e hm) =
        .finite .positive m' e' h ∧ m' < 2 ^ 53 ∧ -1074 ≤ e' := by
  have hhigh := Nat.lt_log2_self (n := m)
  have hlog : m.log2 ≤ 52 := Nat.lt_succ_iff.1 ((Nat.log2_lt hm.ne').2 hlt)
  have htwo : (2 ^ 52).log2 = 52 := by decide
  have htarget : min (-52 - e) (Format.binary64.targetExponent
      (totalExponent (2 ^ 52) (-52) - totalExponent m e)) = max (-m.log2 - e - 53) (-1074) := by
    simp only [Format.targetExponent, Format.minExponent, Format.mantissaBits, totalExponent, htwo]
    omega
  simp only [UnpackedFloat.div, divCore, htarget]
  refine round_bounds _ (Nat.div_pos ?_ hm) (le_max_right _ _) _
  -- the dividend has been shifted beyond the divisor
  rw [Nat.shiftLeft_eq, ← pow_add]
  exact hhigh.le.trans (Nat.pow_le_pow_right (by decide) (by omega))

/-! ## Doubles -/

theorem unpack_zero : (0 : Float).toModel.unpack = .zero .positive := rfl

theorem unpack_one : (1 : Float).toModel.unpack =
    .finite .positive (2 ^ 52) (-52) (Nat.two_pow_pos 52) :=
  rfl

theorem lt_iff (a b : Float) : a < b ↔ a.toModel.unpack.lt b.toModel.unpack = true :=
  decide_eq_true_iff

theorem le_iff (a b : Float) : a ≤ b ↔ a.toModel.unpack.le b.toModel.unpack = true :=
  decide_eq_true_iff

/-- A finite double that is not at most zero is a positive number. -/
theorem exists_unpack {a : Float} (hfinite : a.isFinite = true) (h : ¬a ≤ 0) :
    ∃ m e hm, a.toModel.unpack = .finite .positive m e hm := by
  rw [le_iff, unpack_zero] at h
  have hfinite : a.toModel.unpack.isFinite = true := hfinite
  cases hunpack : a.toModel.unpack with
  | infinity | notANumber =>
    rw [hunpack] at hfinite
    cases hfinite
  | zero sign =>
    rw [hunpack] at h
    exact absurd rfl h
  | finite sign m e hm =>
    cases sign with
    | negative =>
      rw [hunpack] at h
      exact absurd rfl h
    | positive => exact ⟨m, e, hm, rfl⟩

/-- **A finite double that is not at most zero is positive.** -/
theorem pos_of_not_le {a : Float} (hfinite : a.isFinite = true) (h : ¬a ≤ 0) : 0 < a := by
  obtain ⟨m, e, hm, hunpack⟩ := exists_unpack hfinite h
  rw [lt_iff, unpack_zero, hunpack]
  rfl

/-- A positive double is not at most zero. -/
theorem not_le_of_pos {a : Float} (h : 0 < a) : ¬a ≤ 0 := by
  rw [lt_iff, unpack_zero] at h
  rw [le_iff, unpack_zero]
  cases hunpack : a.toModel.unpack with
  | notANumber | zero sign =>
    rw [hunpack] at h
    cases h
  | infinity sign | finite sign m e hm =>
    rw [hunpack] at h
    cases sign with
    | negative => cases h
    | positive => exact Bool.false_ne_true

/-- What is not at most one is not at most zero. -/
theorem not_le_zero_of_not_le_one {a : Float} (hfinite : a.isFinite = true) (h : ¬a ≤ 1) :
    ¬a ≤ 0 := by
  rw [le_iff, unpack_one] at h
  rw [le_iff, unpack_zero]
  have hfinite : a.toModel.unpack.isFinite = true := hfinite
  cases hunpack : a.toModel.unpack with
  | infinity | notANumber =>
    rw [hunpack] at hfinite
    cases hfinite
  | zero sign =>
    rw [hunpack] at h
    exact absurd rfl h
  | finite sign m e hm =>
    cases sign with
    | negative =>
      rw [hunpack] at h
      exact absurd rfl h
    | positive => exact Bool.false_ne_true

/-- **The reciprocal of a finite double that is not at most one is positive.** -/
theorem one_div_pos {a : Float} (hfinite : a.isFinite = true) (h : ¬a ≤ 1) : 0 < 1 / a := by
  obtain ⟨m, e, hm, hunpack⟩ := exists_unpack hfinite (not_le_zero_of_not_le_one hfinite h)
  obtain ⟨hlt, he⟩ := unpack_bounds hunpack
  obtain ⟨m', e', hm', hquotient, hlt', he'⟩ := one_div_bounds hm hlt he
  have hresult : (1 / a).toModel.unpack = UnpackedFloat.unpack Format.binary64
      (UnpackedFloat.pack Format.binary64 (.finite .positive m' e' hm')) := by
    rw [← hquotient, ← unpack_one, ← hunpack]
    rfl
  rw [lt_iff, unpack_zero, hresult]
  exact zero_lt_pack hm' hlt' he'

end Descent.Double

import EncounterTimeline.Proofs.Decimal.Arithmetic
import EncounterTimeline.Proofs.Decimal.Digits

/-! # Numerals

A decimal numeral reads to the nearest double. Small numerals are computed with floats that are exact, all others with
whole numbers.
-/
namespace EncounterTimeline.Decimal

open Float.Model (Format UnpackedFloat totalExponent)
open Float.Model.UnpackedFloat

variable {n k : ℕ}

/-- A positive whole number of at most 53 bits is a double. -/
theorem toFloat_exact (positive : 0 < n) (small : n < 2 ^ 53) :
    ∃ m e, Canonical m e ∧ e ≤ maxExponent ∧ 2 ^ 52 ≤ m ∧ (m : ℚ) * 2 ^ e = n ∧
      n.toUInt64.toFloat = packed false m e := by
  have log : n.log2 < 53 := (Nat.log2_lt positive.ne').mpr small
  obtain ⟨shift, shifted⟩ : ∃ shift : ℕ, n.log2 + shift = 52 := ⟨52 - n.log2, by omega⟩
  have low : 2 ^ 52 ≤ n * 2 ^ shift := by
    rw [← shifted, pow_add]
    exact Nat.mul_le_mul_right _ (Nat.log2_self_le positive.ne')
  have high : n * 2 ^ shift < 2 ^ 53 := by
    have width : n.log2 + 1 + shift = 53 := by omega
    rw [← width, pow_add]
    exact Nat.mul_lt_mul_of_pos_right Nat.lt_log2_self (Nat.two_pow_pos shift)
  have canonical : Canonical (n * 2 ^ shift) (-shift) := ⟨high, by omega, .inl low⟩
  have value : ((n * 2 ^ shift : ℕ) : ℚ) * 2 ^ (-(shift : ℤ)) = n := by
    rw [zpow_neg, zpow_natCast]
    push_cast
    field_simp
  refine ⟨n * 2 ^ shift, -shift, canonical, by rw [maxExponent]; omega, low, value, ?_⟩
  have word : n.toUInt64.toNat = n := by
    rw [Nat.toUInt64_eq]
    exact UInt64.toNat_ofNat_of_lt' (lt_trans small (by decide))
  have sign : compare (n : ℤ) 0 = .gt := Int.compare_eq_gt.mpr (by omega)
  have fits : Format.binary64.targetExponent (totalExponent n 0) = -shift := by
    rw [targetExponent_eq, target]
    omega
  have model : n.toUInt64.toFloat = .ofModel (.pack (UnpackedFloat.round Format.binary64 .positive n 0)) := by
    have unfolded : n.toUInt64.toFloat =
        .ofModel (.pack (UnpackedFloat.normalize Format.binary64 n.toUInt64.toNat 0 .positive)) := rfl
    rw [unfolded, word, UnpackedFloat.normalize, sign]
    rfl
  rw [model, packed, ← roundWithAccuracy_exact false canonical, UnpackedFloat.round, fits]
  simp only [decreaseExponent, zero_sub, neg_neg, Int.toNat_natCast, Nat.shiftLeft_eq]
  rfl

/-- The powers of ten up to the twenty-second are doubles. -/
theorem ofFloat_powersOfTen : ∀ k : Fin Float.exactlyRepresentablePowersOfTen.size,
    Binary64.ofFloat Float.exactlyRepresentablePowersOfTen[k] =
      .finite false (5 ^ k.val * 2 ^ (52 - (5 ^ k.val).log2)) (k + (5 ^ k.val).log2 - 52) := by
  decide +kernel

theorem powerOfTen_exact (bound : k < Float.exactlyRepresentablePowersOfTen.size) :
    ∃ m e, Canonical m e ∧ e ≤ maxExponent ∧ 0 < m ∧ (m : ℚ) * 2 ^ e = 10 ^ k ∧
      Float.exactlyRepresentablePowersOfTen[k] = packed false m e := by
  obtain ⟨canonical, le, exact⟩ := eq_packed (ofFloat_powersOfTen ⟨k, bound⟩)
  refine ⟨_, _, canonical, le, by positivity, ?_, exact⟩
  have log : (5 ^ k).log2 ≤ 52 := by
    have largest : 5 ^ k ≤ 5 ^ 22 := Nat.pow_le_pow_right (by decide) (Nat.le_of_lt_succ bound)
    exact Nat.le_of_lt_succ ((Nat.log2_lt (by positivity)).mpr (lt_of_le_of_lt largest (by decide)))
  have exponent : ((k : ℤ) + (5 ^ k).log2 - 52) = k - (52 - (5 ^ k).log2 : ℕ) := by omega
  have ten : (10 : ℚ) ^ k = 5 ^ k * 2 ^ k := by
    rw [← mul_pow]
    norm_num
  rw [exponent, zpow_sub₀ two_ne_zero, zpow_natCast, zpow_natCast, ten]
  push_cast
  field_simp

/-- The two checks that keep powers of ten from becoming huge do not hold of an exponent in this range. -/
theorem exponent_in_range {e : ℤ} (low : -(2048 + n.log2) ≤ e) (high : e ≤ 2048) :
    ¬ e > 2 ^ Format.binary64.exponentBits ∧ ¬ e < -((2 ^ Format.binary64.exponentBits : ℤ) + n.log2) := by
  change ¬ e > 2 ^ 11 ∧ ¬ e < -((2 ^ 11 : ℤ) + n.log2)
  omega

theorem modelScientific_mul (positive : 0 < n) (le : k ≤ 2048) :
    Rounded (.ofModel (.ofScientific n (k : ℤ))) (n * 10 ^ k) := by
  obtain ⟨small, large⟩ := @exponent_in_range n (k : ℤ) (by omega) (by omega)
  have shifted : 0 < n <<< Format.binary64.mantissaBits := by simpa [Nat.pos_iff_ne_zero] using positive.ne'
  have power : 0 < 10 ^ k := by positivity
  have unfolded : Float.Model.ofScientific n (k : ℤ) = .pack (mul Format.binary64
      (.finite .positive (n <<< Format.binary64.mantissaBits) (-Format.binary64.mantissaBits) shifted)
      (.finite .positive (10 ^ k) 0 power)) := by
    rw [Float.Model.ofScientific, UnpackedFloat.ofScientific, dif_neg positive.ne', if_neg small, if_neg large,
      if_pos (Int.natCast_nonneg k)]
    rfl
  have width : Format.binary64.mantissaBits = 53 := rfl
  have value : ((n <<< Format.binary64.mantissaBits : ℕ) : ℚ) * 2 ^ (-Format.binary64.mantissaBits : ℤ) *
      ((10 ^ k : ℕ) * 2 ^ (0 : ℤ)) = n * 10 ^ k := by
    rw [width, Nat.shiftLeft_eq, zpow_neg, zpow_natCast, zpow_zero]
    push_cast
    field_simp
    norm_num
  have full : 2 ^ 52 ≤ (n <<< Format.binary64.mantissaBits) * 10 ^ k := by
    rw [width, Nat.shiftLeft_eq]
    calc 2 ^ 52 ≤ 1 * 2 ^ 53 * 1 := by decide
      _ ≤ n * 2 ^ 53 * 10 ^ k := Nat.mul_le_mul (Nat.mul_le_mul_right _ positive) power
  rw [unfolded, ← value]
  exact mul_nearest shifted power (.inl full)

theorem modelScientific_div (positive : 0 < n) (le : k + 1 ≤ 2048 + n.log2) :
    Rounded (.ofModel (.ofScientific n (.negSucc k))) (n / 10 ^ (k + 1)) := by
  obtain ⟨small, large⟩ := @exponent_in_range n (.negSucc k) (by omega) (by omega)
  have power : 0 < 10 ^ (k + 1) := by positivity
  have unfolded : Float.Model.ofScientific n (.negSucc k) = .pack (div Format.binary64
      (.finite .positive n 0 positive) (.finite .positive (10 ^ (k + 1)) 0 power)) := by
    rw [Float.Model.ofScientific, UnpackedFloat.ofScientific, dif_neg positive.ne', if_neg small, if_neg large,
      if_neg (by omega)]
    rfl
  have value : (n : ℚ) * 2 ^ (0 : ℤ) / ((10 ^ (k + 1) : ℕ) * 2 ^ (0 : ℤ)) = n / 10 ^ (k + 1) := by
    rw [zpow_zero]
    push_cast
    ring
  rw [unfolded, ← value]
  exact div_nearest positive power

theorem rounded_ofScientific (positive : 0 < n) (le : k ≤ 2048) :
    Rounded (Float.ofScientific n false k) (n * 10 ^ k) := by
  rw [Float.ofScientific]
  split
  case isTrue small =>
    obtain ⟨m, e, canonical, le, full, value, exact⟩ := toFloat_exact positive small.1
    have bound : k < Float.exactlyRepresentablePowersOfTen.size := Nat.lt_succ_of_le small.2
    obtain ⟨p, f, canonical', le', positive', value', exact'⟩ := powerOfTen_exact bound
    change Rounded (n.toUInt64.toFloat * Float.exactlyRepresentablePowersOfTen[k]) _
    rw [exact, exact', ← value, ← value']
    exact mul_rounded canonical le (by omega) canonical' le' positive' (.inl (le_mul_of_le_of_one_le full positive'))
  case isFalse => exact modelScientific_mul positive le

theorem rounded_ofScientific_div (positive : 0 < n) (le : k + 1 ≤ 2048 + n.log2) :
    Rounded (Float.ofScientific n true (k + 1)) (n / 10 ^ (k + 1)) := by
  rw [Float.ofScientific]
  split
  case isTrue small =>
    obtain ⟨m, e, canonical, le, full, value, exact⟩ := toFloat_exact positive small.1
    have bound : k + 1 < Float.exactlyRepresentablePowersOfTen.size := Nat.lt_succ_of_le small.2
    obtain ⟨p, f, canonical', le', positive', value', exact'⟩ := powerOfTen_exact bound
    change Rounded (n.toUInt64.toFloat / Float.exactlyRepresentablePowersOfTen[k + 1]) _
    rw [exact, exact', ← value, ← value']
    exact div_rounded canonical le (by omega) canonical' le' positive'
  case isFalse => exact modelScientific_div positive le

/-- The numeral `n · 10 ^ e` reads to the nearest double, unless it is far out of range. -/
theorem rounded_scientific (positive : 0 < n) {e : ℤ} (low : -400 ≤ ((toString n).length : ℤ) + e)
    (high : ((toString n).length : ℤ) + e ≤ 400) : Rounded (scientific n e) (n * 10 ^ e) := by
  have some : (n == 0) = false := beq_false_of_ne positive.ne'
  rw [scientific.eq_def]
  simp only [some, Bool.false_eq_true, if_false, not_lt.mpr low, not_lt.mpr high]
  cases e with
  | ofNat k =>
    rw [Int.ofNat_eq_natCast] at *
    rw [zpow_natCast]
    exact rounded_ofScientific positive (by omega)
  | negSucc k =>
    have width : (toString n).length - 1 ≤ n.log2 := by
      rw [Nat.le_log2 positive.ne']
      exact (Nat.pow_le_pow_left (by decide) _).trans (pow_length_le positive)
    rw [zpow_negSucc, ← div_eq_mul_inv]
    exact rounded_ofScientific_div positive (by omega)

theorem rounded_scientific_of_range (positive : 0 < n) {e : ℤ} (low : (10 : ℚ) ^ (-399 : ℤ) ≤ n * 10 ^ e)
    (high : n * 10 ^ e ≤ (10 : ℚ) ^ (399 : ℤ)) : Rounded (scientific n e) (n * 10 ^ e) := by
  have width := @Nat.length_repr_pos n
  rw [← Nat.toString_eq_repr] at width
  have above : (n : ℚ) * 10 ^ e < 10 ^ ((toString n).length + e) := by
    rw [zpow_add₀ (by norm_num), zpow_natCast]
    exact mul_lt_mul_of_pos_right (by exact_mod_cast lt_pow_length n) (by positivity)
  have below : (10 : ℚ) ^ (((toString n).length - 1 : ℕ) + e) ≤ n * 10 ^ e := by
    rw [zpow_add₀ (by norm_num), zpow_natCast]
    exact mul_le_mul_of_nonneg_right (by exact_mod_cast pow_length_le positive) (by positivity)
  have low' := (zpow_lt_zpow_iff_right₀ (show (1 : ℚ) < 10 by norm_num)).mp (low.trans_lt above)
  have high' := (zpow_le_zpow_iff_right₀ (show (1 : ℚ) < 10 by norm_num)).mp (below.trans high)
  exact rounded_scientific positive (by omega) (by omega)

end EncounterTimeline.Decimal

import EncounterTimeline.Proofs.Decimal.Nearest

/-! # Rounding

Float arithmetic computes a mantissa with two more bits that tell where the exact number lies above it, shifts all of them to
the exponent of the result and rounds. The result is the nearest double.
-/
namespace EncounterTimeline.Decimal

open Float.Model (Format UnpackedFloat totalExponent)
open Float.Model.UnpackedFloat

/-- The mantissa and its two further bits stand for the number: the first bit for a half, the second for a rest below
a half that is not zero. -/
def Tracks (em : ExtendedMantissa) (q : ℚ) : Prop :=
  ∃ rest : ℚ, 0 ≤ rest ∧ rest < 1 / 2 ∧ (em.stickyBit = true ↔ rest ≠ 0) ∧
    q = em.mantissa + em.roundBit.toNat / 2 + rest

structure NearestWhole (q : ℚ) (r : ℕ) : Prop where
  low : r - 1 / 2 ≤ q
  high : q ≤ r + 1 / 2
  tie : q = r - 1 / 2 ∨ q = r + 1 / 2 → Even r

variable {em : ExtendedMantissa} {q : ℚ}

namespace Tracks

theorem shiftRightOne (h : Tracks em q) : Tracks em.shiftRightOne (q / 2) := by
  obtain ⟨rest, nonneg, small, sticky, value⟩ := h
  have halves : ((em.mantissa % 2 : ℕ) : ℚ) + 2 * ((em.mantissa / 2 : ℕ) : ℚ) = em.mantissa := by
    exact_mod_cast Nat.mod_add_div em.mantissa 2
  have round : (em.roundBit.toNat : ℚ) ≤ 1 := by exact_mod_cast Bool.toNat_le em.roundBit
  refine ⟨em.roundBit.toNat / 4 + rest / 2, by positivity, by linarith, ?_, ?_⟩
  · rw [ExtendedMantissa.shiftRightOne, Bool.or_eq_true, sticky]
    cases em.roundBit with
    | false => simp
    | true =>
      have positive : (0 : ℚ) < (true.toNat : ℚ) / 4 + rest / 2 := by
        rw [Bool.toNat_true]
        linarith
      exact iff_of_true (.inl rfl) positive.ne'
  · have bit : ((em.mantissa % 2 != 0).toNat : ℚ) = (em.mantissa % 2 : ℕ) := by
      rcases Nat.mod_two_eq_zero_or_one em.mantissa with bit | bit <;> rw [bit] <;> rfl
    rw [ExtendedMantissa.shiftRightOne, bit, value]
    linarith

theorem shiftRight (h : Tracks em q) (k : ℕ) : Tracks (em >>> k) (q / 2 ^ k) := by
  induction k with
  | zero => simpa [HShiftRight.hShiftRight, Nat.repeat] using h
  | succ k ih =>
    have next := ih.shiftRightOne
    rw [div_div, ← pow_succ] at next
    exact next

theorem mantissa_le (h : Tracks em q) : em.mantissa ≤ q := by
  obtain ⟨rest, nonneg, -, -, value⟩ := h
  have round : 0 ≤ (em.roundBit.toNat : ℚ) / 2 := by positivity
  linarith

theorem nearestWhole (h : Tracks em q) : NearestWhole q em.roundedMantissa := by
  obtain ⟨m, round, sticky⟩ := em
  obtain ⟨rest, nonneg, small, rests, value⟩ := h
  cases round <;> cases sticky <;>
    simp only [Bool.toNat_false, Bool.toNat_true, Bool.false_eq_true, false_iff, true_iff, not_not, Nat.cast_zero,
      Nat.cast_one, zero_div, add_zero] at rests value <;>
    simp only [ExtendedMantissa.roundedMantissa, ExtendedMantissa.accuracy, Accuracy.roundToNearestEven]
  case false.false =>
    refine ⟨by linarith, by linarith, ?_⟩
    rintro (low | high) <;> linarith
  case false.true =>
    refine ⟨by linarith, by linarith, ?_⟩
    rintro (low | high) <;> linarith
  case true.false =>
    have even : Even (m + m % 2) := by
      rw [Nat.even_iff]
      omega
    have bit : ((m % 2 : ℕ) : ℚ) ≤ 1 := by exact_mod_cast Nat.le_of_lt_succ (Nat.mod_lt m two_pos)
    have bit' : (0 : ℚ) ≤ (m % 2 : ℕ) := by positivity
    refine ⟨?_, ?_, fun _ => even⟩ <;> push_cast <;> linarith
  case true.true =>
    have positive : 0 < rest := lt_of_le_of_ne nonneg rests.symm
    refine ⟨by push_cast; linarith, by push_cast; linarith, ?_⟩
    rintro (low | high)
    · push_cast at low
      linarith
    · push_cast at high
      linarith

end Tracks

theorem mantissa_shiftRight (em : ExtendedMantissa) (k : ℕ) : (em >>> k).mantissa = em.mantissa / 2 ^ k := by
  induction k with
  | zero => simp [HShiftRight.hShiftRight, Nat.repeat]
  | succ k ih =>
    have next : (em >>> (k + 1)).mantissa = (em >>> k).mantissa / 2 := rfl
    rw [next, ih, Nat.div_div_eq_div_mul, pow_succ]

theorem mantissa_ofMantissaAndAccuracy (mantissa : ℕ) (accuracy : Accuracy) :
    (ExtendedMantissa.ofMantissaAndAccuracy mantissa accuracy).mantissa = mantissa := by
  obtain _ | order := accuracy
  · rfl
  · cases order <;> rfl

theorem roundedMantissa_bounds (em : ExtendedMantissa) :
    em.mantissa ≤ em.roundedMantissa ∧ em.roundedMantissa ≤ em.mantissa + 1 := by
  obtain ⟨m, round, sticky⟩ := em
  cases round <;> cases sticky <;>
    simp only [ExtendedMantissa.roundedMantissa, ExtendedMantissa.accuracy, Accuracy.roundToNearestEven] <;> omega

def target (mantissa : ℕ) (exponent : ℤ) : ℤ := max (mantissa.log2 + exponent - 52) (-1074)

theorem targetExponent_eq (mantissa : ℕ) (exponent : ℤ) :
    Format.binary64.targetExponent (totalExponent mantissa exponent) = target mantissa exponent := by
  have width : (Format.binary64.mantissaBits : ℤ) = 53 := rfl
  have least : Format.binary64.minExponent = -1074 := rfl
  rw [Format.targetExponent, totalExponent, width, least, target]
  omega

/-- Rounding may carry into a further bit; then the mantissa is a power of two, and its last bit is dropped. -/
theorem shiftToTargetExponent_rounded {r : ℕ} {e : ℤ} (le : r ≤ 2 ^ 53) (least : -1074 ≤ e) :
    shiftToTargetExponent Format.binary64 r e .exact =
      if r < 2 ^ 53 then (⟨r, false, false⟩, e) else (⟨2 ^ 52, false, false⟩, e + 1) := by
  rw [shiftToTargetExponent, targetExponent_eq, shiftToExponent]
  split
  case isTrue less =>
    have log : r.log2 ≤ 52 := by
      rcases Nat.eq_zero_or_pos r with rfl | positive
      · decide
      · exact Nat.le_of_lt_succ ((Nat.log2_lt positive.ne').mpr less)
    have none : (target r e - e).toNat = 0 := by
      rw [target]
      omega
    rw [none]
    simp [HShiftRight.hShiftRight, Nat.repeat, ExtendedMantissa.ofMantissaAndAccuracy]
  case isFalse carried =>
    have power : r = 2 ^ 53 := by omega
    subst power
    have one : (target (2 ^ 53) e - e).toNat = 1 := by
      rw [target, Nat.log2_two_pow]
      omega
    rw [one]
    rfl

/-- The mantissa that is rounded has 53 bits, and uses them all unless the exponent is the least one. -/
theorem canonical_shifted {mantissa k : ℕ} {exponent : ℤ} (shift : target mantissa exponent = exponent + k) :
    Canonical (mantissa / 2 ^ k) (exponent + k) := by
  rw [target] at shift
  refine ⟨?_, by omega, ?_⟩
  · rw [Nat.div_lt_iff_lt_mul (Nat.two_pow_pos k), ← pow_add]
    exact lt_of_lt_of_le Nat.lt_log2_self (Nat.pow_le_pow_right two_pos (by omega))
  · by_cases least : exponent + k = -1074
    · exact .inr least
    · left
      have log : mantissa.log2 = 52 + k := by omega
      have positive : mantissa ≠ 0 := by
        rintro rfl
        rw [Nat.log2_zero] at log
        omega
      rw [Nat.le_div_iff_mul_le (Nat.two_pow_pos k), ← pow_add, ← log]
      exact Nat.log2_self_le positive

theorem nearest_rounded {m r : ℕ} {e : ℤ} (canonical : Canonical m e) (above : m ≤ q) (le : m ≤ r)
    (whole : NearestWhole q r) : Nearest (q * 2 ^ e) r e := by
  have scaled : q * 2 ^ e / 2 ^ e = q := mul_div_cancel_right₀ _ (by positivity)
  by_cases power : r = 2 ^ 52 ∧ -1074 < e
  · have full : m = 2 ^ 52 := by
      have := canonical.full
      omega
    have floor : (2 : ℚ) ^ 52 ≤ q := by
      rw [full] at above
      exact_mod_cast above
    have value : (r : ℚ) = 2 ^ 52 := by exact_mod_cast power.1
    have even : Even r := by
      rw [power.1]
      decide
    have high := whole.high
    refine ⟨?_, ?_, fun _ => even⟩ <;> rw [scaled, value]
    · rw [reach, if_pos power]
      linarith
    · rwa [value] at high
  · have half : reach r e = 1 / 2 := if_neg power
    refine ⟨?_, ?_, ?_⟩ <;> rw [scaled]
    · rw [half]
      exact whole.low
    · exact whole.high
    · rw [half]
      exact whole.tie

theorem nearest_carried {e : ℤ} (least : -1074 ≤ e) (whole : NearestWhole q (2 ^ 53)) :
    Nearest (q * 2 ^ e) (2 ^ 52) (e + 1) := by
  have scaled : q * 2 ^ e / 2 ^ (e + 1) = q / 2 := by
    rw [zpow_add₀ two_ne_zero, zpow_one]
    field_simp
  have low := whole.low
  have high := whole.high
  have reached : reach (2 ^ 52) (e + 1) = 1 / 4 := if_pos ⟨rfl, by omega⟩
  push_cast at low high
  refine ⟨?_, ?_, fun _ => by decide⟩ <;> rw [scaled]
  · rw [reached]
    push_cast
    linarith
  · push_cast
    linarith

/-- Rounding gives the nearest double, provided that the mantissa is fine enough. -/
theorem roundWithAccuracy_nearest {mantissa : ℕ} {exponent : ℤ} {accuracy : Accuracy} (negative : Bool)
    (tracks : Tracks (.ofMantissaAndAccuracy mantissa accuracy) q) (fine : exponent ≤ target mantissa exponent) :
    ∃ m e, Canonical m e ∧ Nearest (q * 2 ^ exponent) m e ∧
      roundWithAccuracy Format.binary64 (signOf negative) mantissa exponent accuracy = unpacked negative m e := by
  obtain ⟨k, shift⟩ : ∃ k : ℕ, target mantissa exponent = exponent + k :=
    ⟨(target mantissa exponent - exponent).toNat, by omega⟩
  have amount : (exponent + k - exponent).toNat = k := by omega
  have scaled : q * 2 ^ exponent = q / 2 ^ k * 2 ^ (exponent + k) := by
    rw [zpow_add₀ two_ne_zero, zpow_natCast]
    field_simp
  have canonical := canonical_shifted shift
  obtain ⟨em, defined⟩ : ∃ em, em = ExtendedMantissa.ofMantissaAndAccuracy mantissa accuracy >>> k := ⟨_, rfl⟩
  have first : shiftToTargetExponent Format.binary64 mantissa exponent accuracy = (em, exponent + k) := by
    rw [shiftToTargetExponent, targetExponent_eq, shiftToExponent, shift, amount, defined]
  have floor : em.mantissa = mantissa / 2 ^ k := by
    rw [defined, mantissa_shiftRight, mantissa_ofMantissaAndAccuracy]
  have shifted : Tracks em (q / 2 ^ k) := defined ▸ tracks.shiftRight k
  have above := shifted.mantissa_le
  have whole := shifted.nearestWhole
  have bounds := roundedMantissa_bounds em
  rw [floor] at above bounds
  have bits := canonical.bits
  have second := shiftToTargetExponent_rounded (show em.roundedMantissa ≤ 2 ^ 53 by omega) canonical.least
  rw [scaled, roundWithAccuracy]
  -- A full mantissa that is rounded up carries into a bit more, and only then the exponent changes again.
  by_cases less : em.roundedMantissa < 2 ^ 53
  · rw [if_pos less] at second
    refine ⟨em.roundedMantissa, exponent + k, ⟨less, canonical.least, ?_⟩,
      nearest_rounded canonical above bounds.1 whole, ?_⟩
    · exact canonical.full.imp_left bounds.1.trans'
    · simp only [first, second, unpacked]
  · rw [if_neg less] at second
    have carried : em.roundedMantissa = 2 ^ 53 := by omega
    rw [carried] at whole
    refine ⟨2 ^ 52, exponent + k + 1, ⟨by decide, ?_, .inl le_rfl⟩, nearest_carried canonical.least whole, ?_⟩
    · have := canonical.least
      omega
    · simp only [first, second, unpacked]

end EncounterTimeline.Decimal

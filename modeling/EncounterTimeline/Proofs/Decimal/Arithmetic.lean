import EncounterTimeline.Proofs.Decimal.Rounding

/-! # Float arithmetic

A product, a quotient and a decimal numeral become the double nearest to their exact value.
-/
namespace EncounterTimeline.Decimal

open Float.Model (Format UnpackedFloat totalExponent)
open Float.Model.UnpackedFloat

def Rounded (x : Float) (v : ℚ) : Prop := ∃ m e, Canonical m e ∧ Nearest v m e ∧ x = packed false m e

variable {x : Float} {v : ℚ} {m n : ℕ} {e f : ℤ}

theorem Rounded.eq_packed (h : Rounded x v) (canonical : Canonical m e) (nearest : Nearest v m e) :
    x = packed false m e := by
  obtain ⟨n, f, canonical', nearest', rfl⟩ := h
  obtain ⟨rfl, rfl⟩ := nearest'.unique canonical' canonical nearest
  rfl

/-- What is nearest to a number of moderate size is finite. -/
theorem Rounded.exists_finite (h : Rounded x v) (moderate : v ≤ 2 ^ 52) :
    ∃ m e, Canonical m e ∧ e ≤ maxExponent ∧ x = packed false m e ∧ |m * 2 ^ e - v| ≤ (m * 2 ^ e + 1) / 2 ^ 53 := by
  obtain ⟨m, e, canonical, nearest, exact⟩ := h
  refine ⟨m, e, canonical, ?_, exact, nearest.error canonical⟩
  refine not_lt.mp fun large => ?_
  rw [maxExponent] at large
  have full : (2 : ℚ) ^ 52 ≤ m := by exact_mod_cast canonical.full.resolve_right (by omega)
  have unit : (2 : ℚ) ^ (2 : ℤ) ≤ 2 ^ e := zpow_le_zpow_right₀ (by norm_num) (by omega)
  have close := (abs_le.mp (nearest.error canonical)).2
  have huge : (2 : ℚ) ^ 52 * 2 ^ (2 : ℤ) ≤ m * 2 ^ e := mul_le_mul full unit (by positivity) (by positivity)
  norm_num at huge moderate close
  linarith

theorem tracks_exact (n : ℕ) : Tracks (.ofMantissaAndAccuracy n .exact) n :=
  ⟨0, le_rfl, by norm_num, by simp [ExtendedMantissa.ofMantissaAndAccuracy],
    by simp [ExtendedMantissa.ofMantissaAndAccuracy]⟩

theorem div_lt_half {rest den : ℕ} (positive : 0 < den) : (rest : ℚ) / den < 1 / 2 ↔ 2 * rest < den := by
  have den_pos : (0 : ℚ) < den := by exact_mod_cast positive
  rw [div_lt_div_iff₀ den_pos two_pos, one_mul, mul_comm (rest : ℚ)]
  exact_mod_cast Iff.rfl

theorem div_eq_half {rest den : ℕ} (positive : 0 < den) : (rest : ℚ) / den = 1 / 2 ↔ 2 * rest = den := by
  have den_pos : (0 : ℚ) < den := by exact_mod_cast positive
  rw [div_eq_div_iff den_pos.ne' two_ne_zero, one_mul, mul_comm (rest : ℚ)]
  exact_mod_cast Iff.rfl

/-- The remainder of a division tells where the quotient lies above the whole number. -/
theorem tracks_fraction {den : ℕ} (num : ℕ) (positive : 0 < den) :
    Tracks (.ofMantissaAndAccuracy (num / den) (accuracyOfFraction (num % den) den)) ((num : ℚ) / den) := by
  have den_pos : (0 : ℚ) < den := by exact_mod_cast positive
  have split : (num : ℚ) / den = (num / den : ℕ) + (num % den : ℕ) / den := by
    field_simp
    exact_mod_cast (Nat.div_add_mod num den).symm
  have small : ((num % den : ℕ) : ℚ) / den < 1 := by
    rw [div_lt_one den_pos]
    exact_mod_cast Nat.mod_lt num positive
  generalize num / den = whole at *
  generalize num % den = rest at *
  rw [split, accuracyOfFraction]
  split
  case isTrue none =>
    subst none
    exact ⟨0, le_rfl, by norm_num, by simp [ExtendedMantissa.ofMantissaAndAccuracy],
      by simp [ExtendedMantissa.ofMantissaAndAccuracy]⟩
  case isFalse some =>
    have rest_pos : (0 : ℚ) < rest := by exact_mod_cast Nat.pos_of_ne_zero some
    cases order : compare (2 * rest) den with
    | lt =>
      refine ⟨rest / den, by positivity, (div_lt_half positive).mpr (Nat.compare_eq_lt.mp order), ?_, ?_⟩
      · exact iff_of_true rfl (by positivity)
      · simp [ExtendedMantissa.ofMantissaAndAccuracy]
    | eq =>
      refine ⟨0, le_rfl, by norm_num, ?_, ?_⟩
      · simp [ExtendedMantissa.ofMantissaAndAccuracy]
      · rw [(div_eq_half positive).mpr (Nat.compare_eq_eq.mp order)]
        simp [ExtendedMantissa.ofMantissaAndAccuracy]
    | gt =>
      have above : 1 / 2 < (rest : ℚ) / den := by
        have greater := Nat.compare_eq_gt.mp order
        refine lt_of_le_of_ne (not_lt.mp fun less => ?_) fun equal => ?_
        · have := (div_lt_half positive).mp less
          omega
        · have := (div_eq_half positive).mp equal.symm
          omega
      refine ⟨rest / den - 1 / 2, by linarith, by linarith, ?_, ?_⟩
      · exact iff_of_true rfl (by linarith)
      · simp [ExtendedMantissa.ofMantissaAndAccuracy]

theorem roundWithAccuracy_exact (negative : Bool) (canonical : Canonical m e) :
    roundWithAccuracy Format.binary64 (signOf negative) m e .exact = unpacked negative m e := by
  have fine : e ≤ target m e := by
    rw [target]
    rcases canonical.full with full | least
    · have log : m.log2 = 52 := (Nat.log2_eq_iff (by omega)).mpr ⟨full, canonical.bits⟩
      omega
    · omega
  obtain ⟨n, f, canonical', nearest, rounded⟩ := roundWithAccuracy_nearest negative (tracks_exact m) fine
  obtain ⟨rfl, rfl⟩ := nearest.unique canonical' canonical (nearest_self m e)
  exact rounded

theorem mul_nearest (hm : 0 < m) (hn : 0 < n) (fine : 2 ^ 52 ≤ m * n ∨ e + f ≤ -1074) :
    Rounded (.ofModel (.pack (mul Format.binary64 (.finite .positive m e hm) (.finite .positive n f hn))))
      (m * 2 ^ e * (n * 2 ^ f)) := by
  have enough : e + f ≤ target (m * n) (e + f) := by
    rw [target]
    rcases fine with full | least
    · have log : 52 ≤ (m * n).log2 := (Nat.le_log2 (Nat.mul_pos hm hn).ne').mpr full
      omega
    · omega
  obtain ⟨r, g, canonical, nearest, rounded⟩ := roundWithAccuracy_nearest false (tracks_exact (m * n)) enough
  have value : ((m * n : ℕ) : ℚ) * 2 ^ (e + f) = m * 2 ^ e * (n * 2 ^ f) := by
    rw [zpow_add₀ two_ne_zero]
    push_cast
    ring
  exact ⟨r, g, canonical, value ▸ nearest, congrArg (fun u => Float.ofModel (.pack u)) rounded⟩

/-- The quotient is computed with enough bits. -/
theorem target_quotient (hm : 0 < m) (hn : 0 < n) {shift : ℕ} {t : ℤ} (shifted : (shift : ℤ) = e - f - t)
    (le : t ≤ max (m.log2 + e - (n.log2 + f) - 53) (-1074)) : t ≤ target ((m <<< shift) / n) t := by
  rw [target]
  by_cases least : t ≤ -1074
  · omega
  · have quotient : 2 ^ 52 ≤ (m <<< shift) / n := by
      rw [Nat.le_div_iff_mul_le hn, Nat.shiftLeft_eq]
      calc 2 ^ 52 * n ≤ 2 ^ 52 * 2 ^ (n.log2 + 1) := Nat.mul_le_mul_left _ Nat.lt_log2_self.le
        _ = 2 ^ (52 + (n.log2 + 1)) := (pow_add ..).symm
        _ ≤ 2 ^ (m.log2 + shift) := Nat.pow_le_pow_right two_pos (by omega)
        _ = 2 ^ m.log2 * 2 ^ shift := pow_add ..
        _ ≤ m * 2 ^ shift := Nat.mul_le_mul_right _ (Nat.log2_self_le hm.ne')
    have log : 52 ≤ ((m <<< shift) / n).log2 := (Nat.le_log2 (by omega)).mpr quotient
    omega

theorem div_nearest (hm : 0 < m) (hn : 0 < n) :
    Rounded (.ofModel (.pack (div Format.binary64 (.finite .positive m e hm) (.finite .positive n f hn))))
      (m * 2 ^ e / (n * 2 ^ f)) := by
  have bound : Format.binary64.targetExponent (totalExponent m e - totalExponent n f) =
      max (m.log2 + e - (n.log2 + f) - 53) (-1074) := by
    have width : (Format.binary64.mantissaBits : ℤ) = 53 := rfl
    have least : Format.binary64.minExponent = -1074 := rfl
    rw [Format.targetExponent, totalExponent, totalExponent, width, least]
    omega
  obtain ⟨t, chosen⟩ : ∃ t, t = min (e - f) (max (m.log2 + e - (n.log2 + f) - 53) (-1074)) := ⟨_, rfl⟩
  obtain ⟨shift, shifted⟩ : ∃ shift : ℕ, (shift : ℤ) = e - f - t := ⟨(e - f - t).toNat, by omega⟩
  have core : divCore Format.binary64 m e n f =
      ((m <<< shift) / n, t, accuracyOfFraction ((m <<< shift) % n) n) := by
    simp only [divCore, bound, ← chosen, ← shifted, Int.toNat_natCast]
  have enough : t ≤ target ((m <<< shift) / n) t := target_quotient hm hn shifted (by omega)
  obtain ⟨r, g, canonical, nearest, rounded⟩ :=
    roundWithAccuracy_nearest false (tracks_fraction (m <<< shift) hn) enough
  have value : ((m <<< shift : ℕ) : ℚ) / n * 2 ^ t = m * 2 ^ e / (n * 2 ^ f) := by
    have exponent : (2 : ℚ) ^ e = 2 ^ (shift : ℤ) * 2 ^ t * 2 ^ f := by
      rw [← zpow_add₀ two_ne_zero, ← zpow_add₀ two_ne_zero]
      congr 1
      omega
    have n_pos : (0 : ℚ) < n := by exact_mod_cast hn
    rw [Nat.shiftLeft_eq, exponent, zpow_natCast]
    push_cast
    field_simp
  refine ⟨r, g, canonical, value ▸ nearest, congrArg (fun u => Float.ofModel (.pack u)) ?_⟩
  rw [← rounded, div, core]
  rfl

theorem unpack_positive (canonical : Canonical m e) (le : e ≤ maxExponent) (positive : 0 < m) :
    (packed false m e).toModel.unpack = .finite .positive m e positive := by
  rw [unpack_packed canonical le, unpacked, dif_neg positive.ne']
  rfl

theorem mul_rounded (canonical : Canonical m e) (le : e ≤ maxExponent) (hm : 0 < m) (canonical' : Canonical n f)
    (le' : f ≤ maxExponent) (hn : 0 < n) (fine : 2 ^ 52 ≤ m * n ∨ e + f ≤ -1074) :
    Rounded (packed false m e * packed false n f) (m * 2 ^ e * (n * 2 ^ f)) := by
  have unfolded : packed false m e * packed false n f = .ofModel (.pack (mul Format.binary64
      (packed false m e).toModel.unpack (packed false n f).toModel.unpack)) := rfl
  rw [unfolded, unpack_positive canonical le hm, unpack_positive canonical' le' hn]
  exact mul_nearest hm hn fine

theorem div_rounded (canonical : Canonical m e) (le : e ≤ maxExponent) (hm : 0 < m) (canonical' : Canonical n f)
    (le' : f ≤ maxExponent) (hn : 0 < n) :
    Rounded (packed false m e / packed false n f) (m * 2 ^ e / (n * 2 ^ f)) := by
  have unfolded : packed false m e / packed false n f = .ofModel (.pack (div Format.binary64
      (packed false m e).toModel.unpack (packed false n f).toModel.unpack)) := rfl
  rw [unfolded, unpack_positive canonical le hm, unpack_positive canonical' le' hn]
  exact div_nearest hm hn

theorem roundHalfUp_eq {num den : ℕ} (positive : 0 < den) (low : (n : ℚ) - 1 / 2 ≤ num / den)
    (high : (num : ℚ) / den < n + 1 / 2) : roundHalfUp num den = n := by
  have den_pos : (0 : ℚ) < den := by exact_mod_cast positive
  rw [le_div_iff₀ den_pos] at low
  rw [div_lt_iff₀ den_pos] at high
  have below : n * (2 * den) ≤ 2 * num + den := by
    have cast : (n : ℚ) * (2 * den) ≤ 2 * num + den := by linarith
    exact_mod_cast cast
  have above : 2 * num + den < (n + 1) * (2 * den) := by
    have cast : 2 * (num : ℚ) + den < (n + 1) * (2 * den) := by linarith
    exact_mod_cast cast
  rw [roundHalfUp]
  exact Nat.div_eq_of_lt_le below above

theorem nearestCount_packed (canonical : Canonical m e) (le : e ≤ maxExponent) (near : |m * 2 ^ e - (n : ℚ)| < 1 / 2)
    (fits : n ≤ maxCount) : nearestCount (packed false m e) = n := by
  obtain ⟨low, high⟩ := abs_lt.mp near
  have count : roundHalfUp (Binary64.ratio m e).1 (Binary64.ratio m e).2 = n := by
    refine roundHalfUp_eq (Binary64.ratio_den_pos m e) ?_ ?_ <;> rw [Binary64.ratio_eq] <;> linarith
  rw [nearestCount, ofFloat_packed canonical le]
  simp only [count, min_eq_left fits]

end EncounterTimeline.Decimal

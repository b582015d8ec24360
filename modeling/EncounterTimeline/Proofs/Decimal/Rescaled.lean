import EncounterTimeline.Decimal.Layout
import EncounterTimeline.Decimal.Scaled
import EncounterTimeline.Proofs.Decimal.Reading
import EncounterTimeline.Proofs.Decimal.Shortest

/-! # Numbers read coarsely

Reading a decimal by its scaled significand rounds the digits, the power of ten, and their product or quotient. The
shortest digits of a double fit into a 64-bit counter, so nothing of them is cut off, and what is read of them is finite. It
is the double itself where digits and power of ten are doubles; elsewhere it may be a neighbour.
-/
namespace EncounterTimeline.Decimal

open Float.Model (Format UnpackedFloat)
open Float.Model.UnpackedFloat

variable {x : Float} {v : ℚ} {m n k : ℕ} {e : ℤ} {tieUp : Bool}

theorem lt_pointFrom {num den fuel : ℕ} {k : ℤ} (positive : 0 < den) (h : (num : ℚ) / den < 10 ^ (k + fuel)) :
    (num : ℚ) / den < 10 ^ pointFrom num den fuel k := by
  have den_pos : (0 : ℚ) < den := by exact_mod_cast positive
  induction fuel generalizing k with
  | zero =>
    have start : pointFrom num den 0 k = k := rfl
    simpa [start] using h
  | succ fuel ih =>
    rw [pointFrom_succ]
    split
    case isTrue fits =>
      have unit_pos : (0 : ℚ) < (gridUnit k).2 := by exact_mod_cast (gridUnit_pos k).2
      rw [← gridUnit_eq, div_lt_div_iff₀ den_pos unit_pos]
      exact_mod_cast fits
    case isFalse =>
      refine ih ?_
      have steps : k + 1 + (fuel : ℤ) = k + (fuel + 1 : ℕ) := by omega
      rwa [steps]

/-- The estimate from which the search for the point starts lies less than eight places too low. -/
theorem zpow_lt_estimate {log : ℤ} (low : -100000 ≤ log) :
    (2 : ℚ) ^ (log + 2) < 10 ^ (Int.fdiv (log * 30103) 100000 - 1 + 8) := by
  have ceiling : -(Int.fdiv (log * 30103) 100000 + 1) * (100000 : ℕ) ≤ -log * (30103 : ℕ) := by
    rw [Int.fdiv_eq_ediv_of_nonneg _ (by decide)]
    push_cast
    omega
  have bound := zpow_ten_le (by decide +kernel) (by decide +kernel) (by decide) ceiling (by push_cast; omega)
  rw [zpow_neg, zpow_add₀ two_ne_zero, zpow_neg, zpow_one, inv_mul_eq_div,
    inv_le_comm₀ (by positivity) (by positivity), inv_div] at bound
  have split : Int.fdiv (log * 30103) 100000 - 1 + 8 = Int.fdiv (log * 30103) 100000 + 1 + 6 := by omega
  have some : (0 : ℚ) < 2 ^ log := by positivity
  rw [split, zpow_add₀ (show (10 : ℚ) ≠ 0 by norm_num) _ 6, zpow_add₀ two_ne_zero]
  norm_num
  linarith

theorem lt_point (canonical : Canonical m e) (positive : 0 < m) : (m : ℚ) * 2 ^ e < 10 ^ (Interval.around m e).point := by
  have den_pos := den_around_pos m e
  have value := value_around m e
  rw [← value, Interval.point]
  refine lt_pointFrom den_pos ?_
  generalize (Interval.around m e).value = num at *
  generalize (Interval.around m e).den = den at *
  obtain ⟨log, defined⟩ : ∃ log : ℤ, log = (Nat.log2 num : ℤ) - Nat.log2 den - 1 := ⟨_, rfl⟩
  have above : (num : ℚ) / den < 2 ^ (log + 2) := by
    have split : log + 2 = (Nat.log2 num + 1 : ℕ) - (Nat.log2 den : ℤ) := by omega
    have num_lt : (num : ℚ) < 2 ^ (Nat.log2 num + 1) := by exact_mod_cast Nat.lt_log2_self
    have den_le : (2 : ℚ) ^ Nat.log2 den ≤ den := by exact_mod_cast Nat.log2_self_le den_pos.ne'
    rw [split, zpow_sub₀ two_ne_zero, zpow_natCast, zpow_natCast]
    exact div_lt_div₀ num_lt den_le (by positivity) (by positivity)
  have low : -100000 ≤ log := by
    have least : (2 : ℚ) ^ (-1074 : ℤ) < 2 ^ (log + 2) := by
      refine lt_of_le_of_lt ?_ above
      rw [value]
      have one : (1 : ℚ) ≤ m := by exact_mod_cast positive
      have unit : (2 : ℚ) ^ (-1074 : ℤ) ≤ 2 ^ e := zpow_le_zpow_right₀ (by norm_num) canonical.least
      have some : (0 : ℚ) < 2 ^ e := by positivity
      nlinarith
    have := (zpow_lt_zpow_iff_right₀ (show (1 : ℚ) < 2 by norm_num)).mp least
    omega
  rw [← defined]
  exact above.trans (zpow_lt_estimate low)

/-- A hit on a grid is one of the two neighbours of the value. -/
theorem Interval.onGrid_le {i : Interval} {unit per d : ℕ} (h : i.onGrid? tieUp unit per = some d) :
    d ≤ i.value * per / (i.den * unit) + 1 := by
  unfold Interval.onGrid? at h
  grind

/-- Below a power of ten the grid that lies `n` places under it has less than `10 ^ n` points. -/
theorem grid_lt {num den : ℕ} {point : ℤ} (positive : 0 < den) (below : (num : ℚ) / den < 10 ^ point) (n : ℕ) :
    num * (gridUnit (point - n)).2 / (den * (gridUnit (point - n)).1) < 10 ^ n := by
  obtain ⟨hunit, hper⟩ := gridUnit_pos (point - n)
  have den_pos : (0 : ℚ) < den := by exact_mod_cast positive
  have per_pos : (0 : ℚ) < (gridUnit (point - n)).2 := by exact_mod_cast hper
  have scale : (10 : ℚ) ^ point = (gridUnit (point - n)).1 * 10 ^ n / (gridUnit (point - n)).2 := by
    rw [mul_div_right_comm, gridUnit_eq, zpow_sub₀ (by norm_num), zpow_natCast]
    field_simp
  rw [scale, div_lt_div_iff₀ den_pos per_pos] at below
  rw [Nat.div_lt_iff_lt_mul (Nat.mul_pos positive hunit)]
  have cast : (num : ℚ) * (gridUnit (point - n)).2 < 10 ^ n * (den * (gridUnit (point - n)).1) := by linarith
  exact_mod_cast cast

theorem gridSearch_le {i : Interval} {point : ℤ} (positive : 0 < i.den) (below : (i.value : ℚ) / i.den < 10 ^ point)
    {fuel n : ℕ} (steps : n + fuel ≤ 19) : (gridSearch i tieUp point fuel n).digits ≤ 10 ^ 18 := by
  induction fuel generalizing n with
  | zero => exact Nat.zero_le _
  | succ fuel ih =>
    rw [gridSearch_succ]
    split
    case h_1 d hit =>
      calc d ≤ _ := Interval.onGrid_le hit
        _ ≤ 10 ^ n := Nat.succ_le_of_lt (grid_lt positive below n)
        _ ≤ 10 ^ 18 := Nat.pow_le_pow_right (by decide) (by omega)
    case h_2 => exact ih (by omega)

theorem digits_dropZeros_le (fuel : ℕ) (d : Digits) : (dropZeros fuel d).digits ≤ d.digits := by
  induction fuel generalizing d with
  | zero => exact le_rfl
  | succ fuel ih =>
    rw [dropZeros]
    split
    · exact (ih _).trans (Nat.div_le_self _ _)
    · exact le_rfl

/-- The shortest digits of a double fit into a 64-bit counter. -/
theorem shortest_le (canonical : Canonical m e) : (shortest tieUp m e).digits ≤ 10 ^ 18 := by
  rw [shortest]
  split
  · exact Nat.zero_le _
  · rename_i some
    have positive : 0 < m := Nat.pos_of_ne_zero (by simpa using some)
    refine (digits_dropZeros_le _ _).trans (gridSearch_le (den_around_pos m e) ?_ le_rfl)
    rw [value_around]
    exact lt_point canonical positive

theorem rounded_toFloat (positive : 0 < n) : Rounded n.toFloat n := by
  have rounded := rounded_ofScientific positive (Nat.zero_le 2048)
  rwa [pow_zero, mul_one] at rounded

theorem rounded_powerOfTen (le : k ≤ maxPower) : Rounded (powerOfTen k) (10 ^ k : ℕ) := by
  have bound : (k : ℤ) ≤ 399 := by exact_mod_cast le.trans (by decide)
  have power : ((10 ^ k : ℕ) : ℚ) = (1 : ℕ) * 10 ^ (k : ℤ) := by
    rw [Nat.cast_pow, Nat.cast_ofNat, Nat.cast_one, one_mul, zpow_natCast]
  rw [power]
  refine rounded_scientific_of_range Nat.one_pos ?_ ?_ <;> rw [Nat.cast_one, one_mul]
  · exact zpow_le_zpow_right₀ (by norm_num) (by omega)
  · exact zpow_le_zpow_right₀ (by norm_num) bound

/-- What is rounded from a whole number has a full mantissa, and is off by less than a part of it. -/
theorem Rounded.of_whole (h : Rounded x n) (positive : 0 < n) : ∃ m e, Canonical m e ∧ 2 ^ 52 ≤ m ∧
    (m : ℚ) * 2 ^ e * (2 ^ 53 - 1) ≤ n * 2 ^ 53 ∧ x = packed false m e := by
  obtain ⟨m, e, canonical, nearest, rfl⟩ := h
  refine ⟨m, e, canonical, canonical.full.resolve_right ?_, ?_, rfl⟩
  · rintro rfl
    have high := nearest.high
    have one : (1 : ℚ) ≤ n := by exact_mod_cast positive
    have bits : (m : ℚ) + 1 ≤ 2 ^ 53 := by exact_mod_cast canonical.bits
    have unit : (2 : ℚ) ^ (-1074 : ℤ) ≤ 2 ^ (-54 : ℤ) := zpow_le_zpow_right₀ (by norm_num) (by norm_num)
    rw [div_le_iff₀ (by positivity)] at high
    have tiny : ((m : ℚ) + 1 / 2) * 2 ^ (-1074 : ℤ) ≤ 2 ^ 53 * 2 ^ (-54 : ℤ) :=
      mul_le_mul (by linarith) unit (by positivity) (by positivity)
    have half : (2 : ℚ) ^ 53 * 2 ^ (-54 : ℤ) = 1 / 2 := by norm_num
    linarith
  · have multiple : (n : ℚ) = ((n * 2 ^ 1074 : ℤ) : ℚ) * 2 ^ (-1074 : ℤ) := by
      rw [zpow_neg, Int.cast_mul, Int.cast_pow, Int.cast_natCast, Int.cast_ofNat, ← zpow_natCast]
      exact (mul_inv_cancel_right₀ (by positivity) _).symm
    have error := (abs_le.mp (nearest.relative_error canonical multiple)).2
    rw [le_div_iff₀ (by norm_num)] at error
    linarith

theorem isInf_of_isFinite (h : x.isFinite = true) : x.isInf = false := by
  change x.toModel.unpack.isFinite = true at h
  change x.toModel.unpack.isInf = false
  cases unpacked : x.toModel.unpack <;> simp_all [UnpackedFloat.isFinite, UnpackedFloat.isInf]

theorem isFinite_of_isInf (number : x.isNaN = false) (h : x.isInf = false) : x.isFinite = true := by
  refine (finite_or_infinite number).resolve_right ?_
  rintro ⟨negative, rfl⟩
  revert h
  cases negative <;> decide +kernel

theorem isFinite_neg (h : x.isFinite = true) : (-x).isFinite = true := by
  obtain ⟨negative, m, e, canonical, le, rfl⟩ := exists_packed h
  rw [neg_packed_not canonical le]
  exact isFinite_packed canonical le

/-- A number below the greatest double is rounded to a finite one. -/
theorem Rounded.isFinite (h : Rounded x v) (nonneg : 0 ≤ v) (small : v < limit) :
    x.isFinite = true ∧ 0 ≤ valueOf x := by
  have closest := Closest.of_rounded h nonneg
  have finite := closest.isFinite (by rwa [abs_of_nonneg nonneg])
  have low := closest.nonneg nonneg
  rw [extent_of_isFinite finite, EReal.coe_nonneg, Rat.cast_nonneg] at low
  exact ⟨finite, low⟩

theorem pow_lt_limit (le : k ≤ maxPower) : ((10 ^ k : ℕ) : ℚ) < limit :=
  calc ((10 ^ k : ℕ) : ℚ) ≤ (3 * 2 ^ 1022 : ℕ) :=
        Nat.cast_le.mpr ((Nat.pow_le_pow_right (by decide) le).trans (by decide +kernel))
    _ = 3 * 2 ^ 52 * 2 ^ (970 : ℤ) := by
      rw [Nat.cast_mul, Nat.cast_pow, Nat.cast_ofNat, Nat.cast_ofNat, mul_assoc, ← zpow_natCast, ← zpow_natCast,
        ← zpow_add₀ two_ne_zero]
      rfl
    _ < limit := mul_lt_mul_of_pos_right (by norm_num) (by positivity)

/-- The powers of ten that divide are finite, and not less than one. -/
theorem one_le_powerOfTen (le : k ≤ maxPower) : (powerOfTen k).isFinite = true ∧ 1 ≤ valueOf (powerOfTen k) := by
  have rounded := rounded_powerOfTen le
  have power : (1 : ℚ) ≤ (10 ^ k : ℕ) := by exact_mod_cast Nat.one_le_pow k 10 (by decide)
  obtain ⟨finite, -⟩ := rounded.isFinite (by positivity) (pow_lt_limit le)
  have one : Binary64.ofFloat 1.0 = .finite false (2 ^ 52) (-52) := by decide +kernel
  have value : valueOf 1.0 = 1 := by
    rw [valueOf, one, Binary64.value]
    norm_num [signed]
  obtain ⟨canonical, bound, equal⟩ := eq_packed one
  have finite_one : (1.0 : Float).isFinite = true := equal ▸ isFinite_packed canonical bound
  have order := (closest_self finite_one).mono (.of_rounded rounded (by positivity)) (value ▸ power)
  rw [extent_le_iff finite_one finite, value] at order
  exact ⟨finite, order⟩

/-- Dividing by powers of ten does not lead out of the doubles. -/
theorem divideByPower_range (finite : x.isFinite = true) (nonneg : 0 ≤ valueOf x) (k : ℕ) :
    (divideByPower x k).isFinite = true ∧ 0 ≤ valueOf (divideByPower x k) := by
  have quotient {x : Float} {k : ℕ} (le : k ≤ maxPower) (finite : x.isFinite = true) (nonneg : 0 ≤ valueOf x) :
      (x / powerOfTen k).isFinite = true ∧ 0 ≤ valueOf (x / powerOfTen k) := by
    obtain ⟨finite', one⟩ := one_le_powerOfTen le
    have closest := div_closest finite nonneg finite' (by linarith)
    obtain ⟨finite, low, -⟩ := closest.range (div_nonneg nonneg (by linarith)) finite (div_le_self nonneg one)
    exact ⟨finite, low⟩
  fun_induction divideByPower x k with
  | case1 x k le => exact quotient le finite nonneg
  | case2 x k le zero => exact ⟨finite, nonneg⟩
  | case3 x k le some ih =>
    obtain ⟨finite, nonneg⟩ := quotient le_rfl finite nonneg
    exact ih finite nonneg

theorem scaled_natCast (le : k ≤ maxPower) (finite : (n.toFloat * powerOfTen k).isFinite = true) :
    scaled n k = some (n.toFloat * powerOfTen k) := by
  have unfolded : scaled n k = if k ≤ maxPower then
      if (n.toFloat * powerOfTen k).isInf then none else some (n.toFloat * powerOfTen k)
    else if n.toFloat == 0.0 then some n.toFloat else none := rfl
  rw [unfolded, if_pos le, isInf_of_isFinite finite, if_neg Bool.false_ne_true]

theorem scaled_negSucc (n k : ℕ) : scaled n (.negSucc k) = some (divideByPower n.toFloat (k + 1)) := rfl

theorem lt_limit_of_le {v : ℚ} (within : v ≤ (2 ^ 53 - 7 / 2) * 2 ^ maxExponent) : v < limit := by
  have unit : (0 : ℚ) < 2 ^ (970 : ℤ) := by positivity
  rw [two_zpow_maxExponent] at within
  rw [limit]
  generalize (2 : ℚ) ^ (970 : ℤ) = unit at *
  linarith

theorem lt_limit_of_mul {a b : ℕ} (some : 0 < b) (within : ((a * b : ℕ) : ℚ) < limit) : (a : ℚ) < limit :=
  lt_of_le_of_lt (by exact_mod_cast Nat.le_mul_of_pos_right a some) within

/-- The product of two whole numbers, each rounded, is rounded once more. -/
theorem Rounded.mul {y : Float} {a b : ℕ} (hx : Rounded x a) (hy : Rounded y b) (ha : 0 < a) (hb : 0 < b)
    (small : (a : ℚ) < limit) (small' : (b : ℚ) < limit) : ∃ v, Rounded (x * y) v ∧ 0 ≤ v ∧
      v * (2 ^ 53 - 1) ^ 2 ≤ (a * b : ℕ) * 2 ^ 106 := by
  have finite := (hx.isFinite (Nat.cast_nonneg a) small).1
  have finite' := (hy.isFinite (Nat.cast_nonneg b) small').1
  obtain ⟨m, e, canonical, full, near, rfl⟩ := hx.of_whole ha
  obtain ⟨n, f, canonical', full', near', rfl⟩ := hy.of_whole hb
  refine ⟨_, mul_rounded canonical (le_maxExponent_of_isFinite canonical finite) (by omega) canonical'
    (le_maxExponent_of_isFinite canonical' finite') (by omega) (.inl (by nlinarith)), by positivity, ?_⟩
  have both := mul_le_mul near near' (by positivity) (by positivity)
  push_cast at both ⊢
  linarith

theorem toFloat_lt_limit (le : n ≤ maxCount) : (n : ℚ) < limit := by
  have small : (n : ℚ) ≤ 2 ^ 80 := by exact_mod_cast le.trans (by decide)
  simpa using abs_lt_limit (v := n) (by simpa using small)

theorem zero_mul_closest {y : Float} (hy : y.isFinite = true) (positive : 0 < valueOf y) : Closest (0.0 * y) 0 := by
  obtain ⟨n, f, canonical, le, some, rfl⟩ := exists_packed_of_pos hy positive
  have unfolded : 0.0 * packed false n f = .ofModel (.pack (mul Format.binary64
      (0.0 : Float).toModel.unpack (packed false n f).toModel.unpack)) := rfl
  rw [unfolded, zero_eq_packed, unpack_packed canonical_zero (by decide), unpacked_zero, unpack_positive canonical le some]
  exact closest_zero false

theorem isNaN_mul_powerOfTen (le : n ≤ maxCount) (fits : k ≤ maxPower) : (n.toFloat * powerOfTen k).isNaN = false := by
  rcases Nat.eq_zero_or_pos n with rfl | positive
  · obtain ⟨finite, one⟩ := one_le_powerOfTen fits
    exact (zero_mul_closest finite (by linarith)).isNaN
  · obtain ⟨v, rounded, nonneg, -⟩ := (rounded_toFloat positive).mul (rounded_powerOfTen fits) positive (by positivity)
      (toFloat_lt_limit le) (pow_lt_limit fits)
    exact (Closest.of_rounded rounded nonneg).isNaN

/-- What is read of a number is never infinite. -/
theorem isFinite_of_scaled {y : Float} (le : n ≤ maxCount) (h : scaled n e = some y) : y.isFinite = true := by
  have finite : n.toFloat.isFinite = true ∧ 0 ≤ valueOf n.toFloat := by
    rcases Nat.eq_zero_or_pos n with rfl | positive
    · exact ⟨isFinite_zero, valueOf_zero.ge⟩
    · exact (rounded_toFloat positive).isFinite (Nat.cast_nonneg n) (toFloat_lt_limit le)
  rw [scaled.eq_def] at h
  simp only at h
  split at h
  case h_1 k =>
    cases h
    exact (divideByPower_range finite.1 finite.2 _).1
  case h_2 k =>
    split at h
    · rename_i fits
      split at h
      · cases h
      · rename_i inside
        cases h
        exact isFinite_of_isInf (isNaN_mul_powerOfTen le fits) (by simpa using inside)
    · split at h
      · cases h
        exact finite.1
      · cases h

/-- Unless the exact number lies within three doubles of the greatest, the two roundings stay in the range of doubles. -/
theorem exists_scaled_mul (positive : 0 < n) (le : k ≤ maxPower)
    (within : ((n * 10 ^ k : ℕ) : ℚ) ≤ (2 ^ 53 - 7 / 2) * 2 ^ maxExponent) : ∃ y, scaled n k = some y := by
  have power : 0 < 10 ^ k := by positivity
  have inside := lt_limit_of_le within
  obtain ⟨v, rounded, nonneg, near⟩ := (rounded_toFloat positive).mul (rounded_powerOfTen le) positive power
    (lt_limit_of_mul power inside) (lt_limit_of_mul positive (by rwa [mul_comm]))
  refine ⟨_, scaled_natCast le (rounded.isFinite nonneg ?_).1⟩
  have unit : (0 : ℚ) < 2 ^ (970 : ℤ) := by positivity
  rw [two_zpow_maxExponent] at within
  rw [limit]
  generalize (2 : ℚ) ^ (970 : ℤ) = unit at *
  by_contra beyond
  linarith

end EncounterTimeline.Decimal

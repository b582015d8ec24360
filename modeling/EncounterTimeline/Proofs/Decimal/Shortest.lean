import EncounterTimeline.Decimal.Shortest
import EncounterTimeline.Proofs.Decimal.Nearest

/-! # Shortest digits lie in the interval

The search tries one grid after the other, each ten times finer than the last. What it answers was tested against the
interval; it does answer, since the points of the eighteenth grid lie closer together than half a unit of the last place.
-/
namespace EncounterTimeline.Decimal

variable {m : ℕ} {e : ℤ} {unit per : ℕ} {tieUp : Bool}

def Digits.value (d : Digits) : ℚ := d.digits * 10 ^ d.exponent

namespace Interval

/-- The interval in units of a quarter of the last place. -/
theorem around_eq (m : ℕ) (e : ℤ) : ∃ gap num den : ℕ, (gap : ℚ) = 4 * reach m e ∧ gap ≤ 2 ∧
    0 < den ∧ (num : ℚ) / den = 2 ^ e / 4 ∧
      around m e = ⟨(4 * m - gap) * num, 4 * m * num, (4 * m + 2) * num, den, m % 2 == 0⟩ := by
  refine ⟨_, _, _, ?_, ?_, Binary64.ratio_den_pos 1 (e - 2), ?_, rfl⟩
  · have power : (1 <<< 52 : ℕ) = 2 ^ 52 := rfl
    simp only [reach, power, Bool.and_eq_true, beq_iff_eq, decide_eq_true_eq, gt_iff_lt]
    split <;> norm_num
  · split <;> decide
  · rw [Binary64.ratio_eq, Nat.cast_one, one_mul, zpow_sub₀ two_ne_zero]
    norm_num

/-- The test of a grid point is the one of the interval. -/
theorem holds_around (positive : 0 < m) (hper : 0 < per) (d : ℕ) :
    (around m e).holds unit per d = true ↔
      if Even m then m - reach m e ≤ (d * unit / per : ℚ) / 2 ^ e ∧ (d * unit / per : ℚ) / 2 ^ e ≤ m + 1 / 2
      else m - reach m e < (d * unit / per : ℚ) / 2 ^ e ∧ (d * unit / per : ℚ) / 2 ^ e < m + 1 / 2 := by
  obtain ⟨gap, num, den, reached, gap_le, hden, quarter, shape⟩ := around_eq m e
  have den_pos : (0 : ℚ) < den := by exact_mod_cast hden
  have num_pos : (0 : ℚ) < num := by
    refine (div_pos_iff_of_pos_right den_pos).mp ?_
    rw [quarter]
    positivity
  have per_pos : (0 : ℚ) < per := by exact_mod_cast hper
  have unit_pos : (0 : ℚ) < 4 * num * per := by positivity
  have scaled : (d * unit / per : ℚ) / 2 ^ e = d * unit * den / (4 * num * per) := by
    have whole : (2 : ℚ) ^ e = 4 * (num / den) := by linarith
    rw [whole]
    field_simp
  have low : (((4 * m - gap) * num * per : ℕ) : ℚ) = (m - reach m e) * (4 * num * per) := by
    push_cast [show gap ≤ 4 * m by omega]
    rw [reached]
    ring
  have high : (((4 * m + 2) * num * per : ℕ) : ℚ) = (m + 1 / 2) * (4 * num * per) := by
    push_cast
    ring
  have point : ((d * unit * den : ℕ) : ℚ) = d * unit * den := by push_cast; rfl
  have closed : (m % 2 == 0) = true ↔ Even m := by rw [beq_iff_eq, Nat.even_iff]
  rw [shape, scaled, le_div_iff₀ unit_pos, div_le_iff₀ unit_pos, lt_div_iff₀ unit_pos, div_lt_iff₀ unit_pos, ← low,
    ← high, ← point]
  simp only [holds, closed, Nat.cast_le, Nat.cast_lt]
  split <;> simp

theorem nearest_of_holds (positive : 0 < m) (hper : 0 < per) {d : ℕ} (h : (around m e).holds unit per d = true) :
    Nearest (d * unit / per) m e := by
  rw [holds_around positive hper] at h
  split at h
  case isTrue even => exact ⟨h.1, h.2, fun _ => even⟩
  case isFalse =>
    refine ⟨h.1.le, h.2.le, ?_⟩
    rintro (low | high)
    · exact absurd low h.1.ne'
    · exact absurd high h.2.ne

theorem holds_of_lt (positive : 0 < m) (hper : 0 < per) {d : ℕ} (low : m ≤ (d * unit / per : ℚ) / 2 ^ e)
    (high : (d * unit / per : ℚ) / 2 ^ e < m + 1 / 2) : (around m e).holds unit per d = true := by
  have reached := reach_pos m e
  rw [holds_around positive hper]
  split
  · exact ⟨by linarith, high.le⟩
  · exact ⟨by linarith, high⟩

theorem holds_of_onGrid {i : Interval} {d : ℕ} (h : i.onGrid? tieUp unit per = some d) : i.holds unit per d = true := by
  rw [onGrid?] at h
  split at h
  case h_1 => cases h
  case h_2 below _ => exact Option.some.inj h ▸ below
  case h_3 _ above => exact Option.some.inj h ▸ above
  case h_4 below above =>
    dsimp only at h
    split at h
    · exact Option.some.inj h ▸ below
    · split at h
      · exact Option.some.inj h ▸ above
      · split at h
        · exact Option.some.inj h ▸ above
        · split at h
          · exact Option.some.inj h ▸ below
          · exact Option.some.inj h ▸ above

theorem onGrid_ne_none {i : Interval} (h : i.holds unit per (i.value * per / (i.den * unit) + 1) = true) :
    i.onGrid? tieUp unit per ≠ none := by
  rw [onGrid?]
  simp only [h]
  split
  case h_1 above => cases above
  case h_2 => simp
  case h_3 => simp
  case h_4 => split <;> [simp; (split <;> [simp; (split <;> [simp; (split <;> simp)])])]

end Interval

def gridUnit : ℤ → ℕ × ℕ
  | .ofNat k => (10 ^ k, 1)
  | .negSucc k => (1, 10 ^ (k + 1))

theorem gridUnit_pos (g : ℤ) : 0 < (gridUnit g).1 ∧ 0 < (gridUnit g).2 := by
  cases g <;> exact ⟨by simp [gridUnit], by simp [gridUnit]⟩

theorem gridUnit_eq (g : ℤ) : ((gridUnit g).1 : ℚ) / (gridUnit g).2 = 10 ^ g := by
  cases g with
  | ofNat k => simp [gridUnit]
  | negSucc k => simp [gridUnit, zpow_negSucc]

def Interval.hitAt (i : Interval) (tieUp : Bool) : ℤ → Option ℕ
  | .ofNat k => i.onGrid? tieUp (10 ^ k) 1
  | .negSucc k => i.onGrid? tieUp 1 (10 ^ (k + 1))

theorem hitAt_eq (i : Interval) (tieUp : Bool) (g : ℤ) :
    i.hitAt tieUp g = i.onGrid? tieUp (gridUnit g).1 (gridUnit g).2 := by
  cases g <;> rfl

theorem gridSearch_succ (i : Interval) (point : ℤ) (fuel n : ℕ) : gridSearch i tieUp point (fuel + 1) n =
    match i.onGrid? tieUp (gridUnit (point - n)).1 (gridUnit (point - n)).2 with
    | some d => ⟨d, point - n⟩
    | none => gridSearch i tieUp point fuel (n + 1) := by
  rw [← hitAt_eq]
  rfl

/-- The search answers a point of a grid that passed the test, if there is one on the eighteenth grid. -/
theorem gridSearch_holds {i : Interval} {point : ℤ}
    (last : i.onGrid? tieUp (gridUnit (point - 18)).1 (gridUnit (point - 18)).2 ≠ none) {fuel n : ℕ}
    (steps : n + fuel = 18) :
    let d := gridSearch i tieUp point (fuel + 1) n
    i.holds (gridUnit d.exponent).1 (gridUnit d.exponent).2 d.digits = true := by
  -- Without a hit the next grid is tried with less fuel, so the eighteenth is the last.
  induction fuel generalizing n with
  | zero =>
    have here : n = 18 := steps
    subst here
    rw [gridSearch_succ]
    cases hit : i.onGrid? tieUp (gridUnit (point - 18)).1 (gridUnit (point - 18)).2 with
    | some d =>
      rw [Nat.cast_ofNat]
      exact Interval.holds_of_onGrid hit
    | none => exact absurd hit last
  | succ fuel ih =>
    rw [gridSearch_succ]
    cases hit : i.onGrid? tieUp (gridUnit (point - n)).1 (gridUnit (point - n)).2 with
    | some d => exact Interval.holds_of_onGrid hit
    | none => exact ih (by omega)

theorem value_dropZeros (fuel : ℕ) (d : Digits) : (dropZeros fuel d).value = d.value := by
  induction fuel generalizing d with
  | zero => rfl
  | succ fuel ih =>
    rw [dropZeros]
    split
    case isTrue zero =>
      have tenth : d.digits = 10 * (d.digits / 10) := by
        simp only [Bool.and_eq_true, beq_iff_eq] at zero
        omega
      rw [ih, Digits.value, Digits.value, zpow_add₀ (by norm_num), zpow_one]
      nth_rewrite 2 [tenth]
      push_cast
      ring
    case isFalse => rfl

/-- Powers of ten from powers of two, by a fraction `a / b` that is close to the logarithm of two. -/
theorem zpow_ten_le {a b : ℕ} (low : 2 ^ b ≤ 10 ^ a) (high : 10 ^ a ≤ 2 ^ (b + 1)) (positive : b ≠ 0) {t log : ℤ}
    (le : t * b ≤ log * a) (small : log ≤ b) : (10 : ℚ) ^ t ≤ 2 ^ (log + 1) := by
  have low' : (2 : ℚ) ^ b ≤ 10 ^ a := by exact_mod_cast low
  have high' : (10 : ℚ) ^ a ≤ 2 ^ (b + 1) := by exact_mod_cast high
  have base : ((10 : ℚ) ^ a) ^ log ≤ 2 ^ ((log + 1) * b) := by
    rcases Int.le_total 0 log with nonneg | negative
    · obtain ⟨k, rfl⟩ := Int.eq_ofNat_of_zero_le nonneg
      calc ((10 : ℚ) ^ a) ^ (k : ℤ) ≤ (2 ^ (b + 1)) ^ k := by
            rw [zpow_natCast]
            exact pow_le_pow_left₀ (by positivity) high' k
        _ = 2 ^ (((b + 1) * k : ℕ) : ℤ) := by rw [← pow_mul, zpow_natCast]
        _ ≤ 2 ^ ((k + 1 : ℤ) * b) := by
            refine zpow_le_zpow_right₀ (by norm_num) ?_
            push_cast
            linarith
    · obtain ⟨k, rfl⟩ : ∃ k : ℕ, log = -k := ⟨(-log).toNat, by omega⟩
      calc ((10 : ℚ) ^ a) ^ (-k : ℤ) ≤ ((2 ^ b) ^ k)⁻¹ := by
            rw [zpow_neg, zpow_natCast]
            exact inv_anti₀ (by positivity) (pow_le_pow_left₀ (by positivity) low' k)
        _ = 2 ^ (-(b * k : ℕ) : ℤ) := by rw [← pow_mul, zpow_neg, zpow_natCast]
        _ ≤ 2 ^ ((-k + 1 : ℤ) * b) := by
            refine zpow_le_zpow_right₀ (by norm_num) ?_
            push_cast
            linarith
  refine le_of_pow_le_pow_left₀ positive (by positivity) ?_
  calc ((10 : ℚ) ^ t) ^ b = 10 ^ (t * b) := by rw [← zpow_natCast, ← zpow_mul]
    _ ≤ 10 ^ (log * a) := zpow_le_zpow_right₀ (by norm_num) le
    _ = ((10 : ℚ) ^ a) ^ log := by rw [← zpow_natCast, ← zpow_mul, mul_comm]
    _ ≤ 2 ^ ((log + 1) * b) := base
    _ = (2 ^ (log + 1)) ^ b := by rw [← zpow_natCast, ← zpow_mul]

/-- The estimate from which the search for the point starts lies low enough. -/
theorem zpow_estimate_le {log : ℤ} (small : log ≤ 100000) :
    (10 : ℚ) ^ (Int.fdiv (log * 30103) 100000 - 1 - 1) ≤ 2 ^ log := by
  have floor : Int.fdiv (log * 30103) 100000 * (100000 : ℕ) ≤ log * (30103 : ℕ) := by
    rw [Int.fdiv_eq_ediv_of_nonneg _ (by decide)]
    push_cast
    omega
  have bound := zpow_ten_le (by decide +kernel) (by decide +kernel) (by decide) floor small
  rw [zpow_add₀ two_ne_zero, zpow_one] at bound
  rw [zpow_sub₀ (by norm_num), zpow_sub₀ (by norm_num), zpow_one]
  have positive : (0 : ℚ) < 2 ^ log := by positivity
  linarith

theorem pointFrom_succ (num den fuel : ℕ) (k : ℤ) : pointFrom num den (fuel + 1) k =
    if num * (gridUnit k).2 < (gridUnit k).1 * den then k else pointFrom num den fuel (k + 1) := by
  cases k with
  | ofNat j =>
    have unfolded : pointFrom num den (fuel + 1) (.ofNat j) =
        if decide (num < 10 ^ j * den) = true then .ofNat j else pointFrom num den fuel (.ofNat j + 1) := rfl
    rw [unfolded]
    simp [gridUnit]
  | negSucc j =>
    have unfolded : pointFrom num den (fuel + 1) (.negSucc j) =
        if decide (num * 10 ^ (j + 1) < den) = true then .negSucc j else pointFrom num den fuel (.negSucc j + 1) := rfl
    rw [unfolded]
    simp [gridUnit]

theorem pointFrom_le {num den : ℕ} (positive : 0 < den) {fuel : ℕ} {k : ℤ} (h : (10 : ℚ) ^ (k - 1) ≤ num / den) :
    (10 : ℚ) ^ (pointFrom num den fuel k - 1) ≤ num / den := by
  have den_pos : (0 : ℚ) < den := by exact_mod_cast positive
  induction fuel generalizing k with
  | zero => exact h
  | succ fuel ih =>
    rw [pointFrom_succ]
    split
    case isTrue => exact h
    case isFalse short =>
      refine ih ?_
      have unit_pos : (0 : ℚ) < (gridUnit k).2 := by exact_mod_cast (gridUnit_pos k).2
      rw [add_sub_cancel_right, ← gridUnit_eq, div_le_div_iff₀ unit_pos den_pos]
      exact_mod_cast not_lt.mp short

theorem value_around (m : ℕ) (e : ℤ) : ((Interval.around m e).value : ℚ) / (Interval.around m e).den = m * 2 ^ e := by
  obtain ⟨gap, num, den, reached, gap_le, hden, quarter, shape⟩ := Interval.around_eq m e
  rw [shape]
  push_cast
  rw [mul_div_assoc, quarter]
  ring

theorem den_around_pos (m : ℕ) (e : ℤ) : 0 < (Interval.around m e).den := Binary64.ratio_den_pos 1 (e - 2)

theorem point_le (canonical : Canonical m e) (le : e ≤ maxExponent) (positive : 0 < m) :
    (10 : ℚ) ^ ((Interval.around m e).point - 1) ≤ m * 2 ^ e := by
  have den_pos := den_around_pos m e
  have value := value_around m e
  rw [← value, Interval.point]
  refine pointFrom_le den_pos ?_
  generalize (Interval.around m e).value = num at *
  generalize (Interval.around m e).den = den at *
  obtain ⟨log, defined⟩ : ∃ log : ℤ, log = (Nat.log2 num : ℤ) - Nat.log2 den - 1 := ⟨_, rfl⟩
  have num_ne : num ≠ 0 := by
    rintro rfl
    have some : (0 : ℚ) < m * 2 ^ e := by positivity
    rw [← value, Nat.cast_zero, zero_div] at some
    exact some.false
  have below : (2 : ℚ) ^ log ≤ num / den := by
    have split : log = (Nat.log2 num : ℤ) - (Nat.log2 den + 1 : ℕ) := by omega
    have num_le : (2 : ℚ) ^ Nat.log2 num ≤ num := by exact_mod_cast Nat.log2_self_le num_ne
    have den_le : (den : ℚ) ≤ 2 ^ (Nat.log2 den + 1) := by exact_mod_cast Nat.lt_log2_self.le
    rw [split, zpow_sub₀ two_ne_zero, zpow_natCast, zpow_natCast]
    exact div_le_div₀ (by positivity) num_le (by exact_mod_cast den_pos) den_le
  have small : log ≤ 100000 := by
    refine le_trans ?_ (show (1024 : ℤ) ≤ 100000 by decide)
    refine (zpow_le_zpow_iff_right₀ (show (1 : ℚ) < 2 by norm_num)).mp (below.trans ?_)
    have bits : (m : ℚ) ≤ 2 ^ (53 : ℤ) := by exact_mod_cast canonical.bits.le
    calc (num : ℚ) / den = m * 2 ^ e := value
      _ ≤ 2 ^ (53 : ℤ) * 2 ^ (971 : ℤ) :=
        mul_le_mul bits (zpow_le_zpow_right₀ (by norm_num) le) (by positivity) (by positivity)
      _ = 2 ^ (1024 : ℤ) := by rw [← zpow_add₀ two_ne_zero]; rfl
  rw [← defined]
  exact (zpow_estimate_le small).trans below

/-- The point of a grid above a number lies less than a step above it. -/
theorem above_bounds (num : ℕ) {den : ℕ} (hden : 0 < den) (hunit : 0 < unit) (hper : 0 < per) :
    (num / den : ℚ) < (num * per / (den * unit) + 1 : ℕ) * unit / per ∧
      ((num * per / (den * unit) + 1 : ℕ) * unit / per : ℚ) ≤ num / den + unit / per := by
  have den_pos : (0 : ℚ) < den := by exact_mod_cast hden
  have per_pos : (0 : ℚ) < per := by exact_mod_cast hper
  have below : (num * per / (den * unit) : ℕ) * (den * unit) ≤ num * per := Nat.div_mul_le_self ..
  have above : num * per < (num * per / (den * unit) + 1) * (den * unit) :=
    (Nat.div_lt_iff_lt_mul (Nat.mul_pos hden hunit)).mp (Nat.lt_succ_self _)
  generalize num * per / (den * unit) = q at *
  have below' : (q : ℚ) * (den * unit) ≤ num * per := by exact_mod_cast below
  have above' : (num : ℚ) * per < (q + 1) * (den * unit) := by exact_mod_cast above
  push_cast
  constructor
  · rw [div_lt_div_iff₀ den_pos per_pos]
    linarith
  · rw [div_add_div _ _ den_pos.ne' per_pos.ne', div_le_div_iff₀ per_pos (by positivity)]
    nlinarith

/-- The points of the eighteenth grid lie close enough together: the one above the value is still in the interval. -/
theorem onGrid_last (tieUp : Bool) (canonical : Canonical m e) (le : e ≤ maxExponent) (positive : 0 < m) :
    (Interval.around m e).onGrid? tieUp (gridUnit ((Interval.around m e).point - 18)).1
      (gridUnit ((Interval.around m e).point - 18)).2 ≠ none := by
  obtain ⟨hunit, hper⟩ := gridUnit_pos ((Interval.around m e).point - 18)
  have place : (0 : ℚ) < 2 ^ e := by positivity
  have bits : (m : ℚ) ≤ 2 ^ 53 := by exact_mod_cast canonical.bits.le
  have step : (10 : ℚ) ^ ((Interval.around m e).point - 18) < 2 ^ e / 2 := by
    have split : (Interval.around m e).point - 18 = (Interval.around m e).point - 1 - (17 : ℕ) := by omega
    have point := point_le canonical le positive
    rw [split, zpow_sub₀ (by norm_num), zpow_natCast, div_lt_div_iff₀ (by positivity) two_pos]
    nlinarith
  obtain ⟨low, high⟩ := above_bounds (Interval.around m e).value (den_around_pos m e) hunit hper
  rw [value_around] at low high
  rw [gridUnit_eq] at high
  refine Interval.onGrid_ne_none (Interval.holds_of_lt positive hper ?_ ?_)
  · rw [le_div_iff₀ place]
    exact low.le
  · rw [div_lt_iff₀ place]
    linarith

/-- The shortest digits of a double stand for a number to which it is the nearest. -/
theorem shortest_nearest (canonical : Canonical m e) (le : e ≤ maxExponent) (positive : 0 < m) :
    Nearest (shortest tieUp m e).value m e := by
  have some : (m == 0) = false := beq_false_of_ne positive.ne'
  have holds := gridSearch_holds (onGrid_last tieUp canonical le positive) (show 1 + 17 = 18 from rfl)
  simp only [shortest, some, Bool.false_eq_true, if_false, value_dropZeros]
  generalize gridSearch (Interval.around m e) tieUp (Interval.around m e).point 18 1 = d at *
  have nearest := Interval.nearest_of_holds positive (gridUnit_pos d.exponent).2 holds
  rwa [mul_div_assoc, gridUnit_eq] at nearest

end EncounterTimeline.Decimal

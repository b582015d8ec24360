import EncounterTimeline.Proofs.Decimal.Rereading

/-! # Numbers of few digits

The search for the shortest digits stops at a grid at the latest that has a point in the interval. So of a double that is
nearest to a decimal of few digits no more digits are written, and these and their power of ten are doubles.
-/
namespace EncounterTimeline.Decimal

variable {x : Float} {v : ℚ} {m digits unit per : ℕ} {e g : ℤ} {tieUp : Bool}

theorem Interval.holds_of_nearest (positive : 0 < m) (hper : 0 < per) (near : Nearest (digits * unit / per) m e) :
    (Interval.around m e).holds unit per digits = true := by
  rw [Interval.holds_around positive hper]
  split
  case isTrue => exact ⟨near.low, near.high⟩
  case isFalse odd =>
    exact ⟨lt_of_le_of_ne near.low fun tie => odd (near.tie (.inl tie.symm)),
      lt_of_le_of_ne near.high fun tie => odd (near.tie (.inr tie))⟩

theorem Interval.onGrid_ne_none_of_below {i : Interval}
    (h : i.holds unit per (i.value * per / (i.den * unit)) = true) : i.onGrid? tieUp unit per ≠ none := by
  unfold Interval.onGrid?
  grind

/-- If a point of a grid lies in the interval, then so does a neighbour of the value. -/
theorem Interval.onGrid_ne_none_of_nearest (tieUp : Bool) (positive : 0 < m) (hunit : 0 < unit) (hper : 0 < per)
    (near : Nearest (digits * unit / per) m e) : (Interval.around m e).onGrid? tieUp unit per ≠ none := by
  have hden := den_around_pos m e
  have per_pos : (0 : ℚ) < per := by exact_mod_cast hper
  have den_pos : (0 : ℚ) < (Interval.around m e).den := by exact_mod_cast hden
  obtain ⟨above, -⟩ := above_bounds (Interval.around m e).value hden hunit hper
  have floor := Nat.div_mul_le_self ((Interval.around m e).value * per) ((Interval.around m e).den * unit)
  have value := value_around m e
  rw [value] at above
  rcases le_or_gt digits ((Interval.around m e).value * per / ((Interval.around m e).den * unit)) with less | more
  · generalize hbelow : (Interval.around m e).value * per / ((Interval.around m e).den * unit) = below at *
    have under : (below * unit / per : ℚ) ≤ m * 2 ^ e := by
      rw [← value, div_le_div_iff₀ per_pos den_pos]
      have cast : (below : ℚ) * ((Interval.around m e).den * unit) ≤ (Interval.around m e).value * per := by
        exact_mod_cast floor
      linarith
    have order : (digits * unit / per : ℚ) ≤ below * unit / per := by gcongr
    refine onGrid_ne_none_of_below ?_
    rw [hbelow]
    exact holds_of_nearest positive hper (near.between (nearest_self m e) order under)
  · have order : (((Interval.around m e).value * per / ((Interval.around m e).den * unit) + 1 : ℕ) * unit / per : ℚ) ≤
        digits * unit / per := by
      gcongr
      exact more
    exact onGrid_ne_none (holds_of_nearest positive hper ((nearest_self m e).between near above.le order))

theorem le_exponent_gridSearch {i : Interval} {point : ℤ} {fuel n : ℕ}
    (hit : i.onGrid? tieUp (gridUnit g).1 (gridUnit g).2 ≠ none) (first : n ≤ point - g) (last : point - g < n + fuel) :
    g ≤ (gridSearch i tieUp point fuel n).exponent := by
  induction fuel generalizing n with
  | zero => omega
  | succ fuel ih =>
    rw [gridSearch_succ]
    split
    case h_1 d _ =>
      simp only
      omega
    case h_2 none =>
      -- This grid was missed, so it is not the one that is known to be hit.
      refine ih ?_ (by push_cast at last ⊢; omega)
      have other : point - n ≠ g := by
        rintro rfl
        exact hit none
      push_cast
      omega

theorem le_exponent_dropZeros (fuel : ℕ) (d : Digits) : d.exponent ≤ (dropZeros fuel d).exponent := by
  induction fuel generalizing d with
  | zero => exact le_rfl
  | succ fuel ih =>
    rw [dropZeros]
    split
    · exact le_trans (by simp) (ih _)
    · exact le_rfl

theorem le_exponent_shortest (positive : 0 < m) (near : Nearest (digits * 10 ^ g) m e)
    (first : g < (Interval.around m e).point) (last : (Interval.around m e).point ≤ g + 18) :
    g ≤ (shortest tieUp m e).exponent := by
  have some : (m == 0) = false := beq_false_of_ne positive.ne'
  obtain ⟨hunit, hper⟩ := gridUnit_pos g
  rw [← gridUnit_eq, ← mul_div_assoc] at near
  have hit := Interval.onGrid_ne_none_of_nearest tieUp positive hunit hper near
  simp only [shortest, some, Bool.false_eq_true, if_false]
  exact (le_exponent_gridSearch hit (by omega) (by omega)).trans (le_exponent_dropZeros _ _)

/-- Between a number and the double nearest to it there is less than a factor of two. -/
theorem Nearest.factor (positive : 0 < m) (h : Nearest v m e) : m * 2 ^ e ≤ 2 * v ∧ 2 * v ≤ 3 * (m * 2 ^ e) := by
  have unit : (0 : ℚ) < 2 ^ e := by positivity
  have half := reach_le m e
  have one : (1 : ℚ) ≤ m := by exact_mod_cast positive
  have low := h.low
  have high := h.high
  rw [le_div_iff₀ unit] at low
  rw [div_le_iff₀ unit] at high
  constructor <;> nlinarith

theorem zpow_ten_lt {a b : ℤ} (h : (10 : ℚ) ^ a < 10 ^ b) : a < b := (zpow_lt_zpow_iff_right₀ (by norm_num)).mp h

/-- The search comes by a grid on which the decimal lies: its own, or the next one if the decimal is a power of ten to which
a smaller double is the nearest. -/
theorem exists_grid (canonical : Canonical m e) (le : e ≤ maxExponent) (positive : 0 < m) (few : digits < 10 ^ 15)
    (near : Nearest (digits * 10 ^ g) m e) :
    ∃ (n : ℕ) (h : ℤ), n ≤ 10 ^ 15 ∧ g - 1 ≤ h ∧ (n : ℚ) * 10 ^ h = digits * 10 ^ g ∧
      h < (Interval.around m e).point ∧ (Interval.around m e).point ≤ h + 18 := by
  have below := point_le canonical le positive
  have above := lt_point canonical positive
  obtain ⟨under, within⟩ := near.factor positive
  generalize (Interval.around m e).point = point at *
  have unit : (0 : ℚ) < 10 ^ g := by positivity
  have cast : (digits : ℚ) + 1 ≤ 10 ^ 15 := by exact_mod_cast few
  have width : point - 1 < 16 + g := by
    refine zpow_ten_lt (lt_of_le_of_lt below ?_)
    rw [zpow_add₀ (by norm_num)]
    norm_num
    nlinarith
  rcases lt_or_ge g point with inside | beyond
  · exact ⟨digits, g, few.le, by omega, rfl, inside, by omega⟩
  · -- The decimal is less than twice the power of ten above the double, so it is this power.
    have order : (10 : ℚ) ^ point ≤ 10 ^ g := zpow_le_zpow_right₀ (by norm_num) beyond
    have one : digits < 2 := by
      have less : (digits : ℚ) < 2 := by
        by_contra more
        nlinarith [not_lt.mp more]
      exact_mod_cast less
    have some : digits ≠ 0 := by
      rintro rfl
      have mantissa : (0 : ℚ) < m * 2 ^ e := by positivity
      rw [Nat.cast_zero, zero_mul] at under
      linarith
    obtain rfl : digits = 1 := by omega
    refine ⟨10, g - 1, by norm_num, le_rfl, ?_, ?_, by omega⟩
    · rw [zpow_sub_one₀ (by norm_num)]
      push_cast
      field_simp
    · have power : (10 : ℚ) ^ g < 10 ^ (point + 1) := by
        rw [zpow_add_one₀ (by norm_num)]
        push_cast at within
        linarith
      have := zpow_ten_lt power
      omega

/-- The digits that are written for a decimal of at most fifteen digits are doubles, as is their power of ten. -/
theorem exact_of_nearest (canonical : Canonical m e) (le : e ≤ maxExponent) (positive : 0 < m) (few : digits < 10 ^ 15)
    (places : -21 ≤ g) (moderate : (digits : ℚ) * 10 ^ g ≤ 10 ^ 14) (near : Nearest (digits * 10 ^ g) m e) :
    (shortest false m e).spelled.Exact := by
  obtain ⟨n, h, size, step, same, first, last⟩ := exists_grid canonical le positive few near
  have nearest : Nearest (shortest false m e).value m e := shortest_nearest canonical le positive
  have some := digits_pos_of_nearest canonical le positive nearest
  have low : h ≤ (shortest false m e).exponent := le_exponent_shortest positive (same ▸ near) first last
  have value : (shortest false m e).value ≤ 3 * (n * 10 ^ h) := by
    have := (near.factor positive).1
    have := (nearest.factor positive).2
    linarith
  rw [← same] at moderate
  generalize shortest false m e = d at *
  have one : (1 : ℚ) ≤ d.digits := by exact_mod_cast some
  have unit : (0 : ℚ) < 10 ^ d.exponent := by positivity
  rw [Digits.spelled]
  split
  case isTrue whole =>
    obtain ⟨k, exponent⟩ := Int.eq_ofNat_of_zero_le whole.1
    refine ⟨?_, show (-22 : ℤ) ≤ -1 by decide, show (-1 : ℤ) ≤ 22 by decide⟩
    rw [exponent, Int.toNat_natCast]
    rw [Digits.value, exponent, zpow_natCast] at value
    have cast : (d.digits : ℚ) * 10 ^ (k + 1) < 2 ^ 53 := by
      rw [pow_succ]
      norm_num
      linarith
    exact_mod_cast cast
  case isFalse =>
    refine ⟨?_, by omega, ?_⟩
    · have order : (10 : ℚ) ^ h ≤ 10 ^ d.exponent := zpow_le_zpow_right₀ (by norm_num) low
      have whole : (n : ℚ) ≤ 10 ^ 15 := by exact_mod_cast size
      have cast : (d.digits : ℚ) ≤ 3 * 10 ^ 15 := by
        rw [Digits.value] at value
        have nonneg : (0 : ℚ) ≤ n := by positivity
        by_contra more
        nlinarith [not_le.mp more]
      have bound : d.digits ≤ 3 * 10 ^ 15 := by exact_mod_cast cast
      omega
    · have power : (10 : ℚ) ^ d.exponent < 10 ^ (15 : ℤ) := by
        rw [Digits.value] at value
        norm_num at moderate ⊢
        nlinarith
      have := zpow_ten_lt power
      omega

/-- A double that is nearest to a decimal of at most fifteen digits, of which at most twenty-one stand behind the point, and
not above `10 ^ 14`. -/
def Short (x : Float) : Prop := ∃ (negative : Bool) (digits : ℕ) (g : ℤ), digits < 10 ^ 15 ∧ -21 ≤ g ∧
  (digits : ℚ) * 10 ^ g ≤ 10 ^ 14 ∧ Closest x (signed negative (digits * 10 ^ g))

/-- What is written of such a double is read without rounding more than once. -/
theorem handy_of_short (h : Short x) : Handy x := by
  obtain ⟨negative, digits, g, few, places, moderate, closest⟩ := h
  have size : |signed negative ((digits : ℚ) * 10 ^ g)| = digits * 10 ^ g := by
    rw [abs_signed, abs_of_nonneg (by positivity)]
  have within := abs_lt_limit (size ▸ moderate.trans (by norm_num))
  obtain ⟨sign, m, e, canonical, le, near, -, rfl⟩ := closest.exists_packed within
  rw [size] at near
  refine ⟨sign, m, e, ofFloat_packed canonical le, ?_⟩
  rcases Nat.eq_zero_or_pos m with rfl | positive
  · have zero : shortest false 0 e = ⟨0, 0⟩ := rfl
    rw [zero]
    exact ⟨by decide, by decide, by decide⟩
  · exact exact_of_nearest canonical le positive few places moderate near

end EncounterTimeline.Decimal

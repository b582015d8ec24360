import EncounterTimeline.Proofs.Decimal.Packing

/-! # The nearest double

The numbers that round to a double form an interval around it. The intervals of two doubles have no number in common, since
an end belongs to the one with the even mantissa.
-/
namespace EncounterTimeline.Decimal

/-- How far the interval of `m · 2 ^ e` reaches downward, in units of `2 ^ e`. Below a power of two the doubles lie
twice as close. -/
def reach (m : ℕ) (e : ℤ) : ℚ := if m = 2 ^ 52 ∧ -1074 < e then 1 / 4 else 1 / 2

structure Nearest (v : ℚ) (m : ℕ) (e : ℤ) : Prop where
  low : m - reach m e ≤ v / 2 ^ e
  high : v / 2 ^ e ≤ m + 1 / 2
  tie : v / 2 ^ e = m - reach m e ∨ v / 2 ^ e = m + 1 / 2 → Even m

variable {v : ℚ} {m n : ℕ} {e f : ℤ}

theorem reach_le (m : ℕ) (e : ℤ) : reach m e ≤ 1 / 2 := by
  rw [reach]
  split <;> norm_num

theorem reach_pos (m : ℕ) (e : ℤ) : 0 < reach m e := by
  rw [reach]
  split <;> norm_num

theorem nearest_self (m : ℕ) (e : ℤ) : Nearest (m * 2 ^ e) m e := by
  have scaled : (m : ℚ) * 2 ^ e / 2 ^ e = m := mul_div_cancel_right₀ _ (by positivity)
  have reached := reach_pos m e
  refine ⟨?_, ?_, ?_⟩ <;> rw [scaled]
  · linarith
  · linarith
  · rintro (low | high) <;> linarith

/-- No number rounds to two mantissas with the same exponent. -/
theorem Nearest.mantissa_not_lt (h : Nearest v m e) (k : Nearest v n e) : ¬ m < n := by
  intro less
  have succ : (m : ℚ) + 1 ≤ n := by exact_mod_cast less
  have half := reach_le n e
  have high := h.high
  have low := k.low
  have atEnd : v / 2 ^ e = m + 1 / 2 := by linarith
  have next : n = m + 1 := by
    have cast : (n : ℚ) = m + 1 := by linarith
    exact_mod_cast cast
  have even := h.tie (.inr atEnd)
  have even' := k.tie (.inl (by linarith))
  rw [next] at even'
  exact Nat.not_even_iff_odd.mpr even.add_one even'

/-- No number rounds to two exponents. -/
theorem Nearest.exponent_not_lt (canonical : Canonical m e) (h : Nearest v m e) (canonical' : Canonical n f)
    (k : Nearest v n f) : ¬ e < f := by
  intro less
  have normal : 2 ^ 52 ≤ n := canonical'.full.resolve_right (by have := canonical.least; omega)
  have rescaled : v / 2 ^ e = v / 2 ^ f * 2 ^ (f - e) := by
    rw [zpow_sub₀ two_ne_zero]
    field_simp
  have twice : (2 : ℚ) ≤ 2 ^ (f - e) := by
    have le : (2 : ℚ) ^ (1 : ℤ) ≤ 2 ^ (f - e) := zpow_le_zpow_right₀ (by norm_num) (by omega)
    rwa [zpow_one] at le
  have bits : (m : ℚ) ≤ 2 ^ 53 - 1 := by
    have le : m + 1 ≤ 2 ^ 53 := canonical.bits
    have cast : (m : ℚ) + 1 ≤ 2 ^ 53 := by exact_mod_cast le
    linarith
  have high := h.high
  have low := k.low
  -- At a power of two the interval reaches half as far down, and it touches that of the last double below it: only the
  -- odd mantissa of that double keeps the common end out.
  rcases Nat.eq_or_lt_of_le normal with power | above
  · have reached : reach n f = 1 / 4 := if_pos ⟨power.symm, by have := canonical.least; omega⟩
    have value : (n : ℚ) = 2 ^ 52 := by exact_mod_cast power.symm
    rw [reached, value] at low
    have far : 2 * (v / 2 ^ f) ≤ v / 2 ^ e := by rw [rescaled]; nlinarith
    have last : (m : ℚ) = 2 ^ 53 - 1 := by linarith
    have odd : m = 2 ^ 53 - 1 := by
      have cast : ((m + 1 : ℕ) : ℚ) = 2 ^ 53 := by push_cast; linarith
      have eq : m + 1 = 2 ^ 53 := by exact_mod_cast cast
      omega
    have even := h.tie (.inr (by linarith))
    rw [odd] at even
    exact absurd even (by decide)
  · have value : (2 : ℚ) ^ 52 + 1 ≤ n := by exact_mod_cast above
    have half := reach_le n f
    have far : 2 * (v / 2 ^ f) ≤ v / 2 ^ e := by rw [rescaled]; nlinarith
    linarith

/-- A number rounds to one double only. -/
theorem Nearest.unique (canonical : Canonical m e) (h : Nearest v m e) (canonical' : Canonical n f)
    (k : Nearest v n f) : m = n ∧ e = f := by
  have exponent : e = f := le_antisymm (not_lt.mp (k.exponent_not_lt canonical' canonical h))
    (not_lt.mp (h.exponent_not_lt canonical canonical' k))
  subst exponent
  exact ⟨le_antisymm (not_lt.mp (k.mantissa_not_lt h)) (not_lt.mp (h.mantissa_not_lt k)), rfl⟩

theorem Nearest.abs_sub_le (h : Nearest v m e) : |m * 2 ^ e - v| ≤ 2 ^ e / 2 := by
  have unit : (0 : ℚ) < 2 ^ e := by positivity
  have half := reach_le m e
  have low := h.low
  have high := h.high
  rw [le_div_iff₀ unit] at low
  rw [div_le_iff₀ unit] at high
  rw [abs_le]
  constructor <;> nlinarith

/-- A double differs from what it is nearest to by half a unit of its last place. -/
theorem Nearest.error (canonical : Canonical m e) (h : Nearest v m e) : |m * 2 ^ e - v| ≤ (m * 2 ^ e + 1) / 2 ^ 53 := by
  have unit : (0 : ℚ) < 2 ^ e := by positivity
  have relative : (2 : ℚ) ^ e / 2 ≤ (m * 2 ^ e + 1) / 2 ^ 53 := by
    rcases canonical.full with full | least
    · have cast : (2 : ℚ) ^ 52 ≤ m := by exact_mod_cast full
      rw [div_le_div_iff₀ (by norm_num) (by norm_num)]
      nlinarith
    · have tiny : (2 : ℚ) ^ e ≤ 2 ^ (-52 : ℤ) := zpow_le_zpow_right₀ (by norm_num) (by omega)
      have nonneg : (0 : ℚ) ≤ m * 2 ^ e := by positivity
      norm_num at tiny ⊢
      linarith
  exact h.abs_sub_le.trans relative

/-- What rounds to a finite double that is not zero is within the range of doubles. -/
theorem Nearest.range (canonical : Canonical m e) (le : e ≤ maxExponent) (positive : 0 < m) (h : Nearest v m e) :
    10 ^ (-399 : ℤ) ≤ v ∧ v ≤ 10 ^ (399 : ℤ) := by
  have unit : (0 : ℚ) < 2 ^ e := by positivity
  have half := reach_le m e
  have low := h.low
  have high := h.high
  rw [le_div_iff₀ unit] at low
  rw [div_le_iff₀ unit] at high
  have one : (1 : ℚ) ≤ m := by exact_mod_cast positive
  have bits : (m : ℚ) + 1 ≤ 2 ^ (53 : ℤ) := by exact_mod_cast canonical.bits
  constructor
  · calc (10 : ℚ) ^ (-399 : ℤ) ≤ 2 ^ (-1075 : ℤ) := by
          have powers : (2 : ℚ) ^ 1075 ≤ 10 ^ 399 := by exact_mod_cast (by decide +kernel : 2 ^ 1075 ≤ 10 ^ 399)
          exact inv_anti₀ (by positivity) powers
      _ = 2 ^ (-1 : ℤ) * 2 ^ (-1074 : ℤ) := by rw [← zpow_add₀ two_ne_zero]; rfl
      _ ≤ (m - reach m e) * 2 ^ e := by
          refine mul_le_mul ?_ (zpow_le_zpow_right₀ (by norm_num) canonical.least) (by positivity) (by linarith)
          norm_num
          linarith
      _ ≤ v := low
  · calc v ≤ (m + 1 / 2) * 2 ^ e := high
      _ ≤ 2 ^ (53 : ℤ) * 2 ^ (971 : ℤ) :=
          mul_le_mul (by linarith) (zpow_le_zpow_right₀ (by norm_num) le) (by positivity) (by positivity)
      _ = 2 ^ (1024 : ℤ) := by rw [← zpow_add₀ two_ne_zero]; rfl
      _ ≤ 10 ^ (399 : ℤ) := by
          exact_mod_cast (by decide +kernel : 2 ^ 1024 ≤ 10 ^ 399)

end EncounterTimeline.Decimal

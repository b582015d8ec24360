import EncounterTimeline.Proofs.Decimal.Rescaled

/-! # Numbers that are written and read again

A double is written by its shortest digits and read by its scaled significand. What comes back is computed here from the
double alone. Every finite double is read as some double again; it is the same one if the digits as they are spelled and
their power of ten are doubles themselves.
-/
namespace EncounterTimeline.Decimal

variable {x : Float} {m : ℕ} {e : ℤ} {negative : Bool} {d : Digits}

/-- The digits as a settings file spells them: a whole number of moderate size is written out, with a zero behind its
point. -/
def Digits.spelled (d : Digits) : Digits :=
  if 0 ≤ d.exponent ∧ d.exponent + (toString d.digits).length ≤ 16 then ⟨d.digits * 10 ^ (d.exponent.toNat + 1), -1⟩
  else d

def rereadMagnitude (m : ℕ) (e : ℤ) : Option Float :=
  scaled (shortest false m e).spelled.digits (shortest false m e).spelled.exponent

def reread (x : Float) : Option Float :=
  match Binary64.ofFloat x with
  | .finite negative m e => (rereadMagnitude m e).map fun y => if negative then -y else y
  | _ => none

structure Digits.Exact (d : Digits) : Prop where
  digits : d.digits < 2 ^ 53
  low : -22 ≤ d.exponent
  high : d.exponent ≤ 22

theorem Digits.value_spelled (d : Digits) : d.spelled.value = d.value := by
  rw [Digits.spelled]
  split
  case isTrue whole =>
    obtain ⟨k, exponent⟩ := Int.eq_ofNat_of_zero_le whole.1
    rw [Digits.value, Digits.value, exponent, Int.toNat_natCast]
    push_cast
    rw [zpow_natCast, zpow_neg_one, pow_succ]
    field_simp
  case isFalse => rfl

theorem Digits.spelled_le (le : d.digits ≤ 10 ^ 18) : d.spelled.digits ≤ maxCount := by
  rw [Digits.spelled]
  split
  case isTrue whole =>
    calc d.digits * 10 ^ (d.exponent.toNat + 1)
        ≤ 10 ^ (toString d.digits).length * 10 ^ (d.exponent.toNat + 1) :=
          Nat.mul_le_mul_right _ (lt_pow_length d.digits).le
      _ = 10 ^ ((toString d.digits).length + (d.exponent.toNat + 1)) := (pow_add ..).symm
      _ ≤ 10 ^ 17 := Nat.pow_le_pow_right (by decide) (by omega)
      _ ≤ maxCount := by decide
  case isFalse => exact le.trans (by decide)

theorem takeFitting_eq {ds cs : List Char} (fits : digitsValue (ds ++ cs) ≤ maxCount) :
    takeFitting (digitsValue ds) cs = (digitsValue (ds ++ cs), []) := by
  induction cs generalizing ds with
  | nil =>
    rw [List.append_nil]
    rfl
  | cons c cs ih =>
    have step : 10 * digitsValue ds + digitValue c = digitsValue (ds ++ [c]) := by
      rw [digitsValue, digitsValue, List.foldl_append]
      rfl
    have split : ds ++ c :: cs = ds ++ [c] ++ cs := by simp
    rw [split] at fits ⊢
    have front : digitsValue (ds ++ [c]) ≤ maxCount := by
      rw [digitsValue_append _ cs] at fits
      have := Nat.le_mul_of_pos_left (digitsValue (ds ++ [c])) (show 0 < 10 ^ cs.length by positivity)
      omega
    rw [takeFitting]
    simp only [step, if_pos front]
    exact ih fits

/-- Of a numeral whose digits fit nothing is cut off. -/
theorem scaledValue_eq {n : Numeral} (fits : digitsValue (n.whole ++ n.fraction) ≤ maxCount) :
    n.scaledValue = scaled (digitsValue (n.whole ++ n.fraction)) (n.exponent - n.fraction.length) := by
  have front : digitsValue ([] ++ n.whole) ≤ maxCount := by
    rw [digitsValue_append _ n.fraction] at fits
    have := Nat.le_mul_of_pos_left (digitsValue n.whole) (show 0 < 10 ^ n.fraction.length by positivity)
    rw [List.nil_append]
    omega
  have whole : takeFitting 0 n.whole = (digitsValue n.whole, []) := takeFitting_eq front
  rw [Numeral.scaledValue, whole]
  simp only [takeFitting_eq fits]
  congr 1
  simp
  omega

theorem takeFitting_le {n : ℕ} (le : n ≤ maxCount) (cs : List Char) : (takeFitting n cs).1 ≤ maxCount := by
  induction cs generalizing n with
  | nil => exact le
  | cons c cs ih =>
    rw [takeFitting]
    split
    · exact ih ‹_›
    · exact le

/-- Whatever numeral is read by its scaled significand, what comes out is finite. -/
theorem isFinite_of_scaledValue {n : Numeral} (h : n.scaledValue = some x) : x.isFinite = true :=
  isFinite_of_scaled (takeFitting_le (takeFitting_le (Nat.zero_le _) _) _) h

theorem nearest_spelled (canonical : Canonical m e) (le : e ≤ maxExponent) (positive : 0 < m) :
    Nearest (shortest false m e).spelled.value m e := by
  rw [Digits.value_spelled]
  exact shortest_nearest canonical le positive

theorem digits_pos_of_nearest (canonical : Canonical m e) (le : e ≤ maxExponent) (positive : 0 < m)
    (h : Nearest d.value m e) : 0 < d.digits := by
  refine Nat.pos_of_ne_zero fun none => ?_
  have low := (h.range canonical le positive).1
  rw [Digits.value, none, Nat.cast_zero, zero_mul] at low
  exact absurd low (not_le.mpr (by positivity))

theorem le_maxPower_of_lt {n k : ℕ} (positive : 0 < n) (small : ((n * 10 ^ k : ℕ) : ℚ) < limit) : k ≤ maxPower := by
  have power : (10 : ℚ) ^ k < 10 ^ 309 :=
    calc (10 : ℚ) ^ k ≤ (n * 10 ^ k : ℕ) := by exact_mod_cast Nat.le_mul_of_pos_left _ positive
      _ < limit := small
      _ ≤ 2 ^ 54 * 2 ^ (970 : ℤ) := mul_le_mul_of_nonneg_right (by norm_num) (by positivity)
      _ = 2 ^ 1024 := by
        rw [← zpow_natCast, ← zpow_natCast, ← zpow_add₀ two_ne_zero]
        rfl
      _ ≤ 10 ^ 309 := by exact_mod_cast (by decide +kernel : 2 ^ 1024 ≤ 10 ^ 309)
  exact Nat.le_of_lt_succ ((pow_lt_pow_iff_right₀ (by norm_num)).mp power)

/-- The three greatest doubles, where rounding twice comes closest to the end of the range. -/
theorem exists_rereadMagnitude_last : ∀ i : Fin 3, ((rereadMagnitude (2 ^ 53 - 1 - i) maxExponent).isSome) := by
  decide +kernel

theorem rereadMagnitude_zero (e : ℤ) : rereadMagnitude 0 e = some (packed false 0 (-1074)) := by
  have zero : shortest false 0 e = ⟨0, 0⟩ := rfl
  rw [rereadMagnitude, zero]
  decide +kernel

/-- Apart from the three greatest doubles there is room for rounding twice. -/
theorem below_last (canonical : Canonical m e) (le : e ≤ maxExponent) (other : m + 3 < 2 ^ 53 ∨ e < maxExponent) :
    ((m : ℚ) + 1 / 2) * 2 ^ e ≤ (2 ^ 53 - 7 / 2) * 2 ^ maxExponent := by
  rcases other with less | smaller
  · have bits : (m : ℚ) + 4 ≤ 2 ^ 53 := by exact_mod_cast less
    exact mul_le_mul (by linarith) (zpow_le_zpow_right₀ (by norm_num) le) (by positivity) (by norm_num)
  · have bits : (m : ℚ) + 1 ≤ 2 ^ 53 := by exact_mod_cast canonical.bits
    have half : (2 : ℚ) ^ e ≤ 2 ^ maxExponent / 2 := by
      rw [le_div_iff₀ two_pos, ← zpow_add_one₀ two_ne_zero]
      exact zpow_le_zpow_right₀ (by norm_num) smaller
    have unit : (0 : ℚ) < 2 ^ maxExponent := by positivity
    calc ((m : ℚ) + 1 / 2) * 2 ^ e ≤ 2 ^ 53 * (2 ^ maxExponent / 2) :=
          mul_le_mul (by linarith) half (by positivity) (by positivity)
      _ = 2 ^ 52 * 2 ^ maxExponent := by ring
      _ ≤ (2 ^ 53 - 7 / 2) * 2 ^ maxExponent := mul_le_mul_of_nonneg_right (by norm_num) unit.le

theorem exists_rereadMagnitude (canonical : Canonical m e) (le : e ≤ maxExponent) :
    ∃ y, rereadMagnitude m e = some y := by
  rcases Nat.eq_zero_or_pos m with rfl | positive
  · exact ⟨_, rereadMagnitude_zero e⟩
  by_cases last : m + 3 < 2 ^ 53 ∨ e < maxExponent
  · have nearest := nearest_spelled canonical le positive
    rw [rereadMagnitude]
    generalize (shortest false m e).spelled = d at *
    obtain ⟨digits, exponent⟩ := d
    cases exponent with
    | negSucc k => exact ⟨_, scaled_negSucc _ k⟩
    | ofNat k =>
      have some := digits_pos_of_nearest canonical le positive nearest
      have high := nearest.high
      have value : Digits.value ⟨digits, .ofNat k⟩ = (digits * 10 ^ k : ℕ) := by
        rw [Digits.value, Int.ofNat_eq_natCast, zpow_natCast]
        push_cast
        rfl
      rw [div_le_iff₀ (by positivity), value] at high
      have within := high.trans (below_last canonical le last)
      exact exists_scaled_mul some (le_maxPower_of_lt some (lt_limit_of_le within)) within
  · -- At the very end of the range the bound on two roundings is too coarse, so these doubles are computed.
    obtain ⟨i, rfl⟩ : ∃ i : Fin 3, m = 2 ^ 53 - 1 - i := by
      have bits := canonical.bits
      exact ⟨⟨2 ^ 53 - 1 - m, by omega⟩, by simp only; omega⟩
    have greatest : e = maxExponent := by omega
    rw [greatest]
    exact Option.isSome_iff_exists.mp (exists_rereadMagnitude_last i)

/-- Every finite double is read again. -/
theorem exists_reread (finite : x.isFinite = true) : ∃ y, reread x = some y := by
  obtain ⟨negative, m, e, canonical, le, rfl⟩ := exists_packed finite
  obtain ⟨y, read⟩ := exists_rereadMagnitude canonical le
  refine ⟨if negative then -y else y, ?_⟩
  rw [reread, ofFloat_packed canonical le]
  simp only [read, Option.map_some]

theorem reread_of_not_finite (infinite : x.isFinite = false) : reread x = none := by
  rw [reread]
  cases exact : Binary64.ofFloat x with
  | finite negative m e =>
    obtain ⟨canonical, le, rfl⟩ := eq_packed exact
    rw [isFinite_packed canonical le] at infinite
    cases infinite
  | infinite negative => rfl
  | notANumber => rfl

/-- The digits of a double as they are spelled, and their power of ten, are doubles. -/
def Handy (x : Float) : Prop :=
  ∃ negative m e, Binary64.ofFloat x = .finite negative m e ∧ (shortest false m e).spelled.Exact

theorem toFloat_eq {n : ℕ} (positive : 0 < n) (small : n < 2 ^ 53) :
    ∃ m e, Canonical m e ∧ e ≤ maxExponent ∧ 2 ^ 52 ≤ m ∧ (m : ℚ) * 2 ^ e = n ∧ n.toFloat = packed false m e := by
  obtain ⟨m, e, canonical, le, full, value, -⟩ := toFloat_exact positive small
  exact ⟨m, e, canonical, le, full, value, (rounded_toFloat positive).eq_packed canonical (value ▸ nearest_self m e)⟩

theorem powerOfTen_eq {k : ℕ} (small : k ≤ 22) :
    ∃ m e, Canonical m e ∧ e ≤ maxExponent ∧ 0 < m ∧ (m : ℚ) * 2 ^ e = 10 ^ k ∧ powerOfTen k = packed false m e := by
  obtain ⟨m, e, canonical, le, some, value, -⟩ := powerOfTen_exact (Nat.lt_succ_of_le small)
  have rounded := rounded_powerOfTen (small.trans (by decide))
  rw [Nat.cast_pow, Nat.cast_ofNat, ← value] at rounded
  exact ⟨m, e, canonical, le, some, value, rounded.eq_packed canonical (nearest_self m e)⟩

/-- Of digits and a power of ten that are doubles only the product or the quotient is rounded. -/
theorem scaled_of_exact (canonical : Canonical m e) (le : e ≤ maxExponent) (some : 0 < d.digits) (exact : d.Exact)
    (nearest : Nearest d.value m e) : scaled d.digits d.exponent = .some (packed false m e) := by
  obtain ⟨digits, exponent⟩ := d
  obtain ⟨small, low, high⟩ := exact
  obtain ⟨a, f, canonicalDigits, leDigits, full, valueDigits, equalDigits⟩ := toFloat_eq some small
  cases exponent with
  | ofNat k =>
    obtain ⟨b, g, canonicalTen, leTen, some, valueTen, equalTen⟩ := powerOfTen_eq (Int.ofNat_le.mp high)
    have rounded := mul_rounded canonicalDigits leDigits (by omega) canonicalTen leTen some
      (.inl (le_mul_of_le_of_one_le full some))
    rw [Digits.value, Int.ofNat_eq_natCast, zpow_natCast] at nearest
    rw [valueDigits, valueTen, ← equalDigits, ← equalTen] at rounded
    have equal := rounded.eq_packed canonical nearest
    have fits : k ≤ maxPower := (Int.ofNat_le.mp high).trans (by decide)
    rw [Int.ofNat_eq_natCast, scaled_natCast fits (equal ▸ isFinite_packed canonical le), equal]
  | negSucc k =>
    have bound : k + 1 ≤ 22 := by
      simp only at low
      omega
    obtain ⟨b, g, canonicalTen, leTen, some, valueTen, equalTen⟩ := powerOfTen_eq bound
    have rounded := div_rounded canonicalDigits leDigits (by omega) canonicalTen leTen some
    rw [Digits.value, zpow_negSucc, ← div_eq_mul_inv] at nearest
    rw [valueDigits, valueTen, ← equalDigits, ← equalTen] at rounded
    have fits : k + 1 ≤ maxPower := bound.trans (by decide)
    rw [scaled_negSucc, divideByPower, if_pos fits, rounded.eq_packed canonical nearest]

theorem rereadMagnitude_of_exact (canonical : Canonical m e) (le : e ≤ maxExponent)
    (exact : (shortest false m e).spelled.Exact) : rereadMagnitude m e = some (packed false m e) := by
  rcases Nat.eq_zero_or_pos m with rfl | positive
  · have least : e = -1074 := canonical.full.resolve_left (by decide)
    rw [rereadMagnitude_zero, least]
  · have nearest := nearest_spelled canonical le positive
    exact scaled_of_exact canonical le (digits_pos_of_nearest canonical le positive nearest) exact nearest

/-- What is handy comes back. -/
theorem reread_of_handy (handy : Handy x) : reread x = some x := by
  obtain ⟨negative, m, e, finite, exact⟩ := handy
  obtain ⟨canonical, le, rfl⟩ := eq_packed finite
  rw [reread, finite]
  simp only [rereadMagnitude_of_exact canonical le exact, Option.map_some]
  cases negative with
  | false => rfl
  | true => rw [if_pos rfl, neg_packed canonical le]

end EncounterTimeline.Decimal

import EncounterTimeline.Proofs.Decimal.Scientific
import EncounterTimeline.Timeline.TimeText

/-! # Times come back

A whole number of milliseconds is read as it was written. The seconds are read through two roundings, whose errors
together stay far below half a millisecond.
-/
namespace EncounterTimeline.TimeText

open Decimal

variable {n k : ℕ}

theorem isDigit_of_mem_padded {width : ℕ} {c : Char} (h : c ∈ padded width n) : c.isDigit := by
  rw [padded, List.mem_append] at h
  rcases h with zero | digit
  · rw [List.eq_of_mem_replicate zero]
    rfl
  · exact isDigit_of_mem_toString digit

theorem padded_ne_nil (width n : ℕ) : padded width n ≠ [] := by
  rw [padded]
  exact List.append_ne_nil_of_right_ne_nil _ (toString_ne_nil n)

theorem digitsValue_padded (width n : ℕ) : digitsValue (padded width n) = n := by
  rw [padded, digitsValue_append, digitsValue_zeros, digitsValue_toString]
  omega

theorem length_padded {width : ℕ} (fits : n < 10 ^ width) (positive : 0 < width) : (padded width n).length = width := by
  have short : (toString n).toList.length ≤ width := (Nat.length_repr_le_iff positive).mpr fits
  rw [padded, List.length_append, List.length_replicate]
  omega

/-- Zeros at the end of a run can be put back. -/
theorem exists_zeros (cs : List Char) : ∃ k, (cs.reverse.dropWhile (· == '0')).reverse ++ List.replicate k '0' = cs := by
  have zeros : cs.reverse.takeWhile (· == '0') = List.replicate (cs.reverse.takeWhile (· == '0')).length '0' :=
    List.eq_replicate_of_mem fun c h => by simpa using List.mem_takeWhile_imp h
  refine ⟨(cs.reverse.takeWhile (· == '0')).length, ?_⟩
  rw [← List.reverse_replicate, ← zeros, ← List.reverse_append, List.takeWhile_append_dropWhile, List.reverse_reverse]

/-- The digits of a fraction that is not zero, which write it with some zeros behind them. -/
theorem fraction_digits (some : n ≠ 0) (small : n < 1000) :
    ∃ fs k, fraction n = '.' :: fs ∧ (∀ c ∈ fs, c.isDigit) ∧ fs ≠ [] ∧ fs.length + k = 3 ∧
      digitsValue fs * 10 ^ k = n ∧ fs.getLast? ≠ Option.some '0' := by
  obtain ⟨k, filled⟩ := exists_zeros (padded 3 n)
  obtain ⟨fs, cut⟩ : ∃ fs, fs = ((padded 3 n).reverse.dropWhile (· == '0')).reverse := ⟨_, rfl⟩
  rw [← cut] at filled
  have value : digitsValue fs * 10 ^ k = n := by
    have all := digitsValue_padded 3 n
    rw [← filled, digitsValue_append, digitsValue_zeros, List.length_replicate] at all
    linarith
  refine ⟨fs, k, ?_, fun c h => ?_, ?_, ?_, value, ?_⟩
  · rw [fraction, if_neg (by simpa using some), cut]
  · exact isDigit_of_mem_padded (filled ▸ List.mem_append_left _ h)
  · rintro rfl
    exact some ((Nat.zero_mul _).symm.trans value).symm
  · have length := length_padded (show n < 10 ^ 3 from small) (by decide)
    rw [← filled, List.length_append, List.length_replicate] at length
    exact length
  · intro zero
    rw [cut, List.getLast?_reverse] at zero
    have kept := List.head?_dropWhile_not (· == '0') (padded 3 n).reverse
    rw [zero] at kept
    cases kept

theorem thousand_eq : ∃ m e, Canonical m e ∧ e ≤ maxExponent ∧ 2 ^ 52 ≤ m ∧ e ≤ 0 ∧ (m : ℚ) * 2 ^ e = 1000 ∧
    (1000.0 : Float) = packed false m e := by
  have exact : Binary64.ofFloat 1000.0 = .finite false (1000 * 2 ^ 43) (-43) := by decide +kernel
  obtain ⟨canonical, le, equal⟩ := eq_packed exact
  refine ⟨_, _, canonical, le, by decide, by decide, ?_, equal⟩
  norm_num [zpow_neg]

theorem thousandths_digits {digits places : ℕ} (positive : 0 < n) (short : places ≤ 3)
    (value : (digits : ℚ) * 10 ^ (-(places : ℤ)) = n / 1000) : 0 < digits ∧ digits ≤ n := by
  have n_pos : (0 : ℚ) < n := by exact_mod_cast positive
  have power : (10 : ℚ) ^ places ≤ 10 ^ 3 := pow_le_pow_right₀ (by norm_num) short
  have written : (digits : ℚ) = n / 1000 * 10 ^ places := by
    rw [← value, zpow_neg, zpow_natCast]
    field_simp
  constructor
  · have cast : (0 : ℚ) < digits := by
      rw [written]
      positivity
    exact_mod_cast cast
  · have cast : (digits : ℚ) ≤ n := by
      rw [written]
      nlinarith
    exact_mod_cast cast

/-- Thousandths, read and multiplied, round to the number they are taken from. -/
theorem nearestCount_thousandths {digits places : ℕ} (positive : 0 < n) (small : n < 1000000000000) (short : places ≤ 3)
    (value : (digits : ℚ) * 10 ^ (-(places : ℤ)) = n / 1000) :
    nearestCount (scientific digits (-places) * 1000.0) = n := by
  have n_pos : (1 : ℚ) ≤ n := by exact_mod_cast positive
  have n_small : (n : ℚ) < 1000000000000 := by exact_mod_cast small
  obtain ⟨digits_pos, digits_le⟩ := thousandths_digits positive short value
  have width : (toString digits).length ≤ 12 := (Nat.length_repr_le_iff (by decide)).mpr (by omega)
  have read := rounded_scientific digits_pos (e := -places) (by omega) (by omega)
  rw [value] at read
  obtain ⟨m, e, canonical, le, exact, close⟩ := read.exists_finite (by linarith)
  obtain ⟨below, above⟩ := abs_le.mp close
  have m_pos : 0 < m := by
    refine Nat.pos_of_ne_zero fun none => ?_
    rw [none, Nat.cast_zero, zero_mul] at below
    linarith
  obtain ⟨t, g, canonical', le', full, exponent, thousand, exact'⟩ := thousand_eq
  have fine : 2 ^ 52 ≤ m * t ∨ e + g ≤ -1074 := .inl (le_mul_of_one_le_of_le m_pos full)
  have product := mul_rounded canonical le m_pos canonical' le' (by omega) fine
  rw [thousand, ← exact, ← exact'] at product
  obtain ⟨p, h, canonical'', le'', exact'', close'⟩ := product.exists_finite (by linarith)
  obtain ⟨below', above'⟩ := abs_le.mp close'
  -- Two roundings err by far less than half a millisecond together.
  rw [exact'']
  refine nearestCount_packed canonical'' le'' (abs_lt.mpr ⟨by linarith, by linarith⟩) ?_
  exact (Nat.le_of_lt small).trans (by decide)

/-- Seconds with up to three places are read as they are written. -/
theorem nearestCount_value {whole places : List Char} (short : places.length ≤ 3)
    (bounded : digitsValue places * 10 ^ (3 - places.length) < 1000) (small : digitsValue whole < 1000000000) :
    nearestCount (Numeral.value ⟨whole, places, 0⟩ * 1000.0) =
      digitsValue whole * 1000 + digitsValue places * 10 ^ (3 - places.length) := by
  have numeral : Numeral.value ⟨whole, places, 0⟩ =
      scientific (10 ^ places.length * digitsValue whole + digitsValue places) (-places.length) := by
    rw [Numeral.value, digitsValue_append, Int.zero_sub]
  rw [numeral]
  have power : (0 : ℕ) < 10 ^ (3 - places.length) := Nat.pow_pos (by decide)
  rcases Nat.eq_zero_or_pos (digitsValue whole * 1000 + digitsValue places * 10 ^ (3 - places.length)) with none | some
  · have fraction : digitsValue places = 0 := by
      rcases Nat.mul_eq_zero.mp (Nat.eq_zero_of_add_eq_zero_left none) with none | none
      · exact none
      · exact absurd none power.ne'
    have seconds : digitsValue whole = 0 := by omega
    have zero : nearestCount ((0.0 : Float) * 1000.0) = 0 := by decide +kernel
    rw [fraction, seconds, Nat.mul_zero, Nat.zero_mul, Nat.zero_mul]
    exact zero
  · refine nearestCount_thousandths some (by omega) short ?_
    have filled : (10 : ℚ) ^ places.length * 10 ^ (3 - places.length) = 1000 := by
      rw [← pow_add, Nat.add_sub_cancel' short]
      norm_num
    rw [zpow_neg, zpow_natCast]
    push_cast
    rw [← filled]
    field_simp

/-- Seconds and their fraction are a numeral. -/
theorem readUnsigned_seconds (s : ℕ) {f : ℕ} (millis : f < 1000) :
    ∃ fs k, isSeconds (padded 2 s ++ fraction f) = true ∧
      readUnsigned (padded 2 s ++ fraction f) = some ⟨padded 2 s, fs, 0⟩ ∧ fs.length + k = 3 ∧
        digitsValue fs * 10 ^ k = f := by
  have digits : ∀ c ∈ padded 2 s, c.isDigit := fun c => isDigit_of_mem_padded
  by_cases none : f = 0
  · subst none
    have bare : padded 2 s ++ fraction 0 = padded 2 s := List.append_nil _
    have taken : (padded 2 s).takeWhile Char.isDigit = padded 2 s := List.takeWhile_eq_self_iff.mpr digits
    have dropped : (padded 2 s).dropWhile Char.isDigit = [] := List.dropWhile_eq_nil_iff.mpr digits
    rw [bare]
    refine ⟨[], 3, ?_, readUnsigned_whole digits (padded_ne_nil 2 s), rfl, rfl⟩
    rw [isSeconds, taken, dropped]
    simp [padded_ne_nil]
  · obtain ⟨fs, k, form, digits', filled, length, value, -⟩ := fraction_digits none millis
    have taken := Text.takeWhile_stop '.' fs digits rfl
    have dropped := Text.dropWhile_stop '.' fs digits rfl
    rw [form]
    refine ⟨fs, k, ?_, readUnsigned_point digits (padded_ne_nil 2 s) digits', length, value⟩
    rw [isSeconds, taken, dropped]
    simpa [padded_ne_nil, filled] using digits'

theorem secondsMillis_render {s f : ℕ} (seconds : s < 60) (millis : f < 1000) :
    secondsMillis (padded 2 s ++ fraction f) = some (s * 1000 + f) := by
  obtain ⟨fs, k, form, read, length, value⟩ := readUnsigned_seconds s millis
  have places : 3 - fs.length = k := by omega
  have bounded : digitsValue fs * 10 ^ (3 - fs.length) < 1000 := by rwa [places, value]
  have whole : digitsValue (padded 2 s) < 1000000000 := by
    rw [digitsValue_padded]
    omega
  rw [secondsMillis, if_pos form, read, Option.map_some, nearestCount_value (by omega) bounded whole, digitsValue_padded,
    places, value]

theorem total_eq (n : ℕ) : total (n / 60000) (n / 1000 % 60 * 1000 + n % 1000) = min n maxCount := by
  rw [total]
  omega

theorem mem_fraction {c : Char} (h : c ∈ fraction n) : c = '.' ∨ c.isDigit := by
  rw [fraction] at h
  split at h
  · cases h
  · rcases List.mem_cons.mp h with point | digit
    · exact .inl point
    · have suffix := (List.dropWhile_sublist _).mem (List.mem_reverse.mp digit)
      exact .inr (isDigit_of_mem_padded (List.mem_reverse.mp suffix))

theorem not_isBlank_of_mem_render {d : Duration} {c : Char} (h : c ∈ render d) : Text.isBlank c = false := by
  simp only [render, List.append_assoc, List.cons_append, List.mem_append, List.mem_cons] at h
  rcases h with minutes | colon | seconds | millis
  · exact Text.not_isBlank_of_isDigit (isDigit_of_mem_padded minutes)
  · rw [colon]
    rfl
  · exact Text.not_isBlank_of_isDigit (isDigit_of_mem_padded seconds)
  · rcases mem_fraction millis with point | digit
    · rw [point]
      rfl
    · exact Text.not_isBlank_of_isDigit digit

theorem readTrimmed_render {d : Duration} (fits : d.millis / 60000 ≤ maxCount) :
    readTrimmed (render d) = some (min d.millis maxCount) := by
  rw [render]
  generalize d.millis = n at fits ⊢
  have digits : ∀ c ∈ padded 2 (n / 60000), c.isDigit := fun c => isDigit_of_mem_padded
  have shape : padded 2 (n / 60000) ++ ':' :: padded 2 (n / 1000 % 60) ++ fraction (n % 1000) =
      padded 2 (n / 60000) ++ ':' :: (padded 2 (n / 1000 % 60) ++ fraction (n % 1000)) := by
    simp
  have taken := Text.takeWhile_stop ':' (padded 2 (n / 1000 % 60) ++ fraction (n % 1000)) digits rfl
  have dropped := Text.dropWhile_stop ':' (padded 2 (n / 1000 % 60) ++ fraction (n % 1000)) digits rfl
  have counted : (padded 2 (n / 60000)).isEmpty = false := by simp [padded_ne_nil]
  have fits : ¬ n / 60000 > maxCount := Nat.not_lt_of_le fits
  have seconds := @secondsMillis_render (n / 1000 % 60) (n % 1000) (by omega) (by omega)
  simp only [readTrimmed, shape, taken, dropped]
  simp only [digitsValue_padded, counted, fits, decide_false, Bool.or_false, Bool.false_eq_true, if_false, seconds,
    Option.map_some, total_eq]

/-- What comes back of a time: whole milliseconds, no more than a counter holds. -/
def counted (d : Duration) : Duration := Duration.ofMillis (min d.millis maxCount)

/-- A time whose minutes fit into a counter is read as it was written. -/
theorem parse_format {d : Duration} (fits : d.millis / 60000 ≤ maxCount) : parse (format d) = some (counted d) := by
  have trimmed : Text.trimBoth Text.isBlank (render d) = render d :=
    Text.trimBoth_of_none fun c => not_isBlank_of_mem_render
  have written := readTrimmed_render fits
  rw [parse, format, String.toList_ofList, read, trimmed]
  split
  case h_1 none =>
    rw [none] at written
    cases written
  case h_2 => rw [written, Option.map_some, counted]

theorem counted_ofMillis (le : n ≤ maxCount) : counted (Duration.ofMillis n) = Duration.ofMillis n := by
  rw [counted, Duration.millis_ofMillis, Nat.min_eq_left le]

/-- Whatever is read is whole milliseconds that fit into a counter. -/
theorem exists_of_parse {s : String} {d : Duration} (h : parse s = some d) : ∃ n ≤ maxCount, d = Duration.ofMillis n := by
  have bounded (minutes seconds : ℕ) : total minutes seconds ≤ maxCount := Nat.min_le_right ..
  rw [parse, read] at h
  split at h
  · exact ⟨0, Nat.zero_le _, (Option.some.inj h).symm⟩
  · obtain ⟨n, trimmed, rfl⟩ := Option.map_eq_some_iff.mp h
    refine ⟨n, ?_, rfl⟩
    simp only [readTrimmed] at trimmed
    split at trimmed
    · split at trimmed
      · cases trimmed
      · obtain ⟨seconds, -, rfl⟩ := Option.map_eq_some_iff.mp trimmed
        exact bounded ..
    · obtain ⟨seconds, -, rfl⟩ := Option.map_eq_some_iff.mp trimmed
      exact bounded ..

end EncounterTimeline.TimeText

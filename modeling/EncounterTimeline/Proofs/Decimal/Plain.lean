import EncounterTimeline.Decimal.Layout
import EncounterTimeline.Proofs.Decimal.Scientific
import EncounterTimeline.Proofs.Decimal.Shortest

/-! # Numbers come back

What is written of a double is read as that double: a finite one by its shortest digits, and the others by their names.
-/
namespace EncounterTimeline.Decimal

variable {x : Float} {m : ℕ} {e : ℤ} {cs : List Char}

structure Positional (cs ws fs : List Char) (v : ℚ) : Prop where
  digits : ∀ c ∈ ws ++ fs, c.isDigit
  some : ws ≠ []
  shape : cs = ws ∧ fs = [] ∨ cs = ws ++ '.' :: fs
  value : (digitsValue (ws ++ fs) : ℚ) * 10 ^ (-(fs.length : ℤ)) = v

theorem isDigit_of_mem_zeros {k : ℕ} {c : Char} (h : c ∈ List.replicate k '0') : c.isDigit := by
  rw [List.eq_of_mem_replicate h]
  rfl

theorem length_digits (n : ℕ) : (toString n).toList.length = (toString n).length := String.length_toList

theorem positional_below (n k : ℕ) : Positional ('0' :: '.' :: (List.replicate k '0' ++ (toString n).toList)) ['0']
    (List.replicate k '0' ++ (toString n).toList) (n * 10 ^ (-(k : ℤ) - (toString n).length)) where
  digits := by
    simp only [List.mem_append, List.mem_singleton]
    rintro c (zero | zero | digit)
    · rw [zero]
      rfl
    · exact isDigit_of_mem_zeros zero
    · exact isDigit_of_mem_toString digit
  some := by simp
  shape := .inr rfl
  value := by
    have places : -((List.replicate k '0' ++ (toString n).toList).length : ℤ) = -(k : ℤ) - (toString n).length := by
      rw [List.length_append, List.length_replicate, length_digits]
      omega
    have leading : digitsValue ['0'] = 0 := rfl
    rw [places, digitsValue_append, leading, digitsValue_append, digitsValue_zeros, digitsValue_toString]
    simp

theorem positional_whole (n k : ℕ) : Positional ((toString n).toList ++ List.replicate k '0')
    ((toString n).toList ++ List.replicate k '0') [] (n * 10 ^ (k : ℤ)) where
  digits := by
    simp only [List.append_nil, List.mem_append]
    rintro c (digit | zero)
    · exact isDigit_of_mem_toString digit
    · exact isDigit_of_mem_zeros zero
  some := List.append_ne_nil_of_left_ne_nil (toString_ne_nil n) _
  shape := .inl ⟨rfl, rfl⟩
  value := by
    rw [List.append_nil, digitsValue_append, digitsValue_zeros, digitsValue_toString, List.length_replicate]
    push_cast
    rw [zpow_natCast, List.length_nil, Nat.cast_zero, neg_zero, zpow_zero]
    ring

theorem positional_between {n k : ℕ} (some : 0 < k) (inside : k < (toString n).length) :
    Positional ((toString n).toList.take k ++ '.' :: (toString n).toList.drop k) ((toString n).toList.take k)
      ((toString n).toList.drop k) (n * 10 ^ ((k : ℤ) - (toString n).length)) where
  digits := by
    rw [List.take_append_drop]
    exact fun c => isDigit_of_mem_toString
  some := by
    rw [← List.length_pos_iff, List.length_take, length_digits]
    omega
  shape := .inr rfl
  value := by
    have places : -(((toString n).toList.drop k).length : ℤ) = (k : ℤ) - (toString n).length := by
      rw [List.length_drop, length_digits]
      omega
    rw [List.take_append_drop, digitsValue_toString, places]

/-- The point stands before all digits, behind them, or between them. -/
theorem positionalText_positional (n : ℕ) (exponent : ℤ) :
    ∃ ws fs, Positional (positionalText false (toString n) (exponent + (toString n).length)).toList ws fs
      (n * 10 ^ exponent) := by
  have zeros_eq (k : ℕ) : (zeros k).toList = List.replicate k '0' := String.toList_ofList
  rw [positionalText]
  split
  case isTrue below =>
    obtain ⟨k, moved⟩ : ∃ k : ℕ, exponent = -(k : ℤ) - (toString n).length :=
      ⟨(-(exponent + (toString n).length)).toNat, by omega⟩
    have count : (-(exponent + (toString n).length)).toNat = k := by omega
    have written := positional_below n k
    rw [← moved] at written
    rw [count]
    exact ⟨_, _, by simpa [zeros_eq] using written⟩
  case isFalse above =>
    split
    case isTrue whole =>
      obtain ⟨k, rfl⟩ : ∃ k : ℕ, exponent = k := ⟨exponent.toNat, by omega⟩
      have count : ((k : ℤ) + (toString n).length - (toString n).length).toNat = k := by omega
      rw [count]
      exact ⟨_, _, by simpa [zeros_eq] using positional_whole n k⟩
    case isFalse between =>
      obtain ⟨k, moved⟩ : ∃ k : ℕ, exponent = (k : ℤ) - (toString n).length :=
        ⟨(exponent + (toString n).length).toNat, by omega⟩
      have count : (exponent + (toString n).length).toNat = k := by omega
      have written := positional_between (show 0 < k by omega) (show k < (toString n).length by omega)
      rw [← moved] at written
      rw [count]
      exact ⟨_, _, by simpa using written⟩

namespace Positional

variable {ws fs : List Char} {v : ℚ}

theorem readUnsigned_eq (h : Positional cs ws fs v) : readUnsigned cs = .some ⟨ws, fs, 0⟩ := by
  have digits : ∀ c ∈ ws, c.isDigit := fun c mem => h.digits c (List.mem_append_left _ mem)
  have digits' : ∀ c ∈ fs, c.isDigit := fun c mem => h.digits c (List.mem_append_right _ mem)
  rcases h.shape with ⟨rfl, rfl⟩ | rfl
  · exact readUnsigned_whole digits h.some
  · exact readUnsigned_point digits h.some digits'

theorem exists_head (h : Positional cs ws fs v) : ∃ c r, cs = c :: r ∧ c.isDigit := by
  obtain ⟨c, r, rfl⟩ := List.exists_cons_of_ne_nil h.some
  have digit := h.digits c (by simp)
  rcases h.shape with ⟨rfl, rfl⟩ | rfl
  · exact ⟨c, r, rfl, digit⟩
  · exact ⟨c, _, rfl, digit⟩

theorem not_isBlank (h : Positional cs ws fs v) {c : Char} (mem : c ∈ cs) : Text.isBlank c = false := by
  have digit : c ∈ ws ++ fs → Text.isBlank c = false := fun mem => Text.not_isBlank_of_isDigit (h.digits c mem)
  rcases h.shape with ⟨rfl, rfl⟩ | rfl
  · exact digit (List.mem_append_left _ mem)
  · rcases List.mem_append.mp mem with whole | rest
    · exact digit (List.mem_append_left _ whole)
    · rcases List.mem_cons.mp rest with point | fraction
      · rw [point]
        rfl
      · exact digit (List.mem_append_right _ fraction)

theorem rounded (h : Positional cs ws fs v) (low : 10 ^ (-399 : ℤ) ≤ v) (high : v ≤ 10 ^ (399 : ℤ)) :
    Rounded (Numeral.value ⟨ws, fs, 0⟩) v := by
  have positive : 0 < digitsValue (ws ++ fs) := by
    refine Nat.pos_of_ne_zero fun none => ?_
    have value := h.value
    rw [none, Nat.cast_zero, zero_mul] at value
    rw [← value] at low
    exact absurd low (not_le.mpr (by positivity))
  rw [Numeral.value, Int.zero_sub, ← h.value]
  rw [← h.value] at low high
  exact rounded_scientific_of_range positive low high

end Positional

theorem magnitude_positional (m : ℕ) (e : ℤ) : ∃ ws fs, Positional (Layout.plain.magnitude m e).toList ws fs
    (if m = 0 then 0 else (shortest true m e).value) := by
  by_cases zero : m = 0
  · subst zero
    have text : (Layout.plain.magnitude 0 e).toList = ['0'] := by
      have written : Layout.plain.magnitude 0 e = "0" := rfl
      rw [written]
      rfl
    refine ⟨['0'], [], by simp, by simp, .inl ⟨text, rfl⟩, ?_⟩
    have value : digitsValue (['0'] ++ []) = 0 := rfl
    rw [value, if_pos rfl, Nat.cast_zero, zero_mul]
  · have some : (m == 0) = false := beq_false_of_ne zero
    rw [if_neg zero, Layout.magnitude, some]
    exact positionalText_positional _ _

theorem readMagnitude_digit {c : Char} (h : c.isDigit) :
    readMagnitude (c :: cs) = (readUnsigned (c :: cs)).map Numeral.value := by
  have named {w : String} {d : Char} {r : List Char} (spelled : w.toList = d :: r) (letter : d.isDigit = false) :
      (String.ofList ((c :: cs).map Char.toLower) == w) = false := by
    refine beq_false_of_ne fun equal => ?_
    have lists := congrArg String.toList equal
    rw [String.toList_ofList, spelled, List.map_cons, toLower_of_isDigit h] at lists
    rw [(List.cons.inj lists).1, letter] at h
    cases h
  rw [readMagnitude]
  simp only [named (w := "inf") rfl rfl, named (w := "infinity") rfl rfl, named (w := "nan") rfl rfl,
    Bool.false_or, Bool.false_eq_true, if_false]

theorem read_digit {s : String} {c : Char} (shape : s.toList = c :: cs) (h : c.isDigit) :
    read s = readMagnitude (c :: cs) := by
  rw [read, shape]
  split
  case h_1 minus =>
    rw [(List.cons.inj minus).1] at h
    cases h
  case h_2 plus =>
    rw [(List.cons.inj plus).1] at h
    cases h
  case h_3 => rfl

theorem readMagnitude_magnitude (canonical : Canonical m e) (le : e ≤ maxExponent) :
    readMagnitude (Layout.plain.magnitude m e).toList = some (packed false m e) := by
  obtain ⟨ws, fs, positional⟩ := magnitude_positional m e
  obtain ⟨c, r, shape, digit⟩ := positional.exists_head
  rw [shape, readMagnitude_digit digit, ← shape, positional.readUnsigned_eq, Option.map_some]
  refine congrArg some ?_
  by_cases zero : m = 0
  · rw [if_pos zero] at positional
    have none : digitsValue (ws ++ fs) = 0 := by
      have cast : (digitsValue (ws ++ fs) : ℚ) = 0 :=
        (mul_eq_zero.mp positional.value).resolve_right (by positivity)
      exact_mod_cast cast
    have zeroed : Numeral.value ⟨ws, fs, 0⟩ = 0.0 := by
      rw [Numeral.value, none]
      rfl
    have exact : Binary64.ofFloat 0.0 = .finite false 0 (-1074) := by decide +kernel
    rw [zeroed, zero]
    exact (eq_packed exact).2.2
  · rw [if_neg zero] at positional
    have nearest : Nearest (shortest true m e).value m e := shortest_nearest canonical le (Nat.pos_of_ne_zero zero)
    obtain ⟨low, high⟩ := nearest.range canonical le (Nat.pos_of_ne_zero zero)
    exact (positional.rounded low high).eq_packed canonical nearest

theorem read_finite (canonical : Canonical m e) (le : e ≤ maxExponent) (negative : Bool) :
    read (Text.trim ((if negative then "-" else "") ++ Layout.plain.magnitude m e)) = some (packed negative m e) := by
  obtain ⟨ws, fs, positional⟩ := magnitude_positional m e
  obtain ⟨c, r, shape, digit⟩ := positional.exists_head
  have magnitude := readMagnitude_magnitude canonical le
  cases negative with
  | false =>
    have text : ((if false then "-" else "") ++ Layout.plain.magnitude m e) = Layout.plain.magnitude m e := by simp
    rw [text, Text.trim_of_none fun c => positional.not_isBlank, read_digit shape digit, ← shape, magnitude]
  | true =>
    have text : ((if true then "-" else "") ++ Layout.plain.magnitude m e).toList =
        '-' :: (Layout.plain.magnitude m e).toList := by simp
    have trimmed : Text.trim ((if true then "-" else "") ++ Layout.plain.magnitude m e) =
        (if true then "-" else "") ++ Layout.plain.magnitude m e := by
      refine Text.trim_of_none fun c mem => ?_
      rw [text] at mem
      rcases List.mem_cons.mp mem with minus | rest
      · rw [minus]
        rfl
      · exact positional.not_isBlank rest
    rw [trimmed, read, text]
    simp only [magnitude, Option.map_some, neg_packed canonical le]

/-- A double is read as it was written. -/
theorem read_trim_plainText (x : Float) : read (Text.trim (plainText x)) = some x := by
  rw [plainText, Layout.text]
  cases exact : Binary64.ofFloat x with
  | notANumber =>
    have nan : Binary64.ofFloat (0.0 / 0.0) = .notANumber := by decide +kernel
    rw [ofFloat_injective (exact.trans nan.symm)]
    rfl
  | infinite negative =>
    cases negative with
    | false =>
      have infinity : Binary64.ofFloat (1.0 / 0.0) = .infinite false := by decide +kernel
      rw [ofFloat_injective (exact.trans infinity.symm)]
      rfl
    | true =>
      have infinity : Binary64.ofFloat (-(1.0 / 0.0)) = .infinite true := by decide +kernel
      rw [ofFloat_injective (exact.trans infinity.symm)]
      rfl
  | finite negative m e =>
    obtain ⟨canonical, le, equal⟩ := eq_packed exact
    rw [equal]
    exact read_finite canonical le negative

end EncounterTimeline.Decimal

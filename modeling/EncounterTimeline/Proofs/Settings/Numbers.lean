import EncounterTimeline.Proofs.Decimal.Plain
import EncounterTimeline.Proofs.Decimal.Rereading
import EncounterTimeline.Settings.File

/-! # Numbers of a settings file

A number is read up to the first character with which no number goes on. Counters are written by their digits, and doubles
with a point or an exponent; what is read of a written double is computed from the double alone.
-/
namespace EncounterTimeline.SettingsFile

open Decimal (Digits Exponent Numeral digitsValue)
open Text (DigitRun)

variable {cs ds fs tail rest : List Char} {c : Char} {e : ℤ} {n : Numeral} {integral negative : Bool}

structure Stops (c : Char) : Prop where
  digit : c.isDigit = false
  point : c ≠ '.'
  mark : (c == 'e' || c == 'E') = false

theorem stops_comma : Stops ',' := ⟨rfl, by decide, rfl⟩

theorem stops_newline : Stops '\n' := ⟨rfl, by decide, rfl⟩

theorem exponentSign_digits (digits : DigitRun ds) : exponentSign (ds ++ rest) = (false, ds ++ rest) := by
  obtain ⟨d, r, rfl⟩ := List.exists_cons_of_ne_nil digits.filled
  have digit := digits.all d List.mem_cons_self
  rw [List.cons_append]
  unfold exponentSign
  split
  · rename_i minus
    rw [(List.cons.inj minus).1] at digit
    cases digit
  · rename_i plus
    rw [(List.cons.inj plus).1] at digit
    cases digit
  · rfl

theorem readExponentPart_append (exponent : Exponent tail e) (stop : Stops c) (rest : List Char) :
    readExponentPart (tail ++ c :: rest) = some (if tail.isEmpty then none else some e, c :: rest) := by
  have marked {mark : Char} (marks : mark = 'e' ∨ mark = 'E') : (mark == 'e' || mark == 'E') = true := by
    simpa using marks
  cases exponent with
  | none =>
    rw [List.nil_append, readExponentPart, stop.mark]
    rfl
  | @plain mark ds marks digits =>
    rw [List.cons_append, readExponentPart, marked marks]
    simp [exponentSign_digits digits, Text.takeWhile_stop c rest digits.all stop.digit,
      Text.dropWhile_stop c rest digits.all stop.digit, digits.filled]
  | @plus mark ds marks digits | @minus mark ds marks digits =>
    rw [List.cons_append, readExponentPart, marked marks]
    simp [exponentSign, Text.takeWhile_stop c rest digits.all stop.digit,
      Text.dropWhile_stop c rest digits.all stop.digit, digits.filled]

/-- Behind the digits of a number comes neither a digit nor a point, whether an exponent follows or the number ends. -/
theorem exists_head (exponent : Exponent tail e) (stop : Stops c) (rest : List Char) :
    ∃ x r, tail ++ c :: rest = x :: r ∧ x.isDigit = false ∧ x ≠ '.' := by
  have marked {mark : Char} (marks : mark = 'e' ∨ mark = 'E') : mark.isDigit = false ∧ mark ≠ '.' := by
    rcases marks with rfl | rfl <;> decide
  cases exponent with
  | none => exact ⟨c, rest, rfl, stop.digit, stop.point⟩
  | plain marks | plus marks | minus marks => exact ⟨_, _, rfl, marked marks⟩

/-- Before any character that ends a number the text is read as this number. -/
def Tells (cs : List Char) (integral : Bool) (n : Numeral) : Prop :=
  ∀ negative c rest, Stops c → readNumber negative (cs ++ c :: rest) = some (.number negative integral n, c :: rest)

/-- Numbers begin with a digit. -/
theorem Tells.head (tells : Tells cs integral n) : ∃ d r, cs = d :: r ∧ d.isDigit := by
  have read := tells false ',' [] stops_comma
  rw [readNumber] at read
  split at read
  case isFalse => cases read
  case isTrue whole =>
    cases cs with
    | nil => cases whole
    | cons d r =>
      refine ⟨d, r, rfl, ?_⟩
      by_contra other
      rw [List.cons_append, List.takeWhile_cons_of_neg other] at whole
      cases whole

theorem tells_whole (digits : ∀ c ∈ ds, c.isDigit) (whole : wholeDigits ds = true) (exponent : Exponent tail e) :
    Tells (ds ++ tail) tail.isEmpty ⟨ds, [], e⟩ := by
  intro negative c rest stop
  obtain ⟨x, r, shape, digit, point⟩ := exists_head exponent stop rest
  have parsed := readExponentPart_append exponent stop rest
  rw [shape] at parsed
  have fraction : readFractionPart (x :: r) = some ([], x :: r) := by
    unfold readFractionPart
    split
    · rename_i dot
      exact absurd (List.cons.inj dot).1 point
    · rfl
  rw [List.append_assoc, shape, readNumber]
  simp only [Text.takeWhile_stop x r digits digit, Text.dropWhile_stop x r digits digit, whole, if_true, fraction, parsed,
    Option.bind_some, Option.map_some]
  cases exponent <;> rfl

theorem tells_point (digits : ∀ c ∈ ds, c.isDigit) (whole : wholeDigits ds = true) (places : DigitRun fs)
    (exponent : Exponent tail e) : Tells (ds ++ '.' :: (fs ++ tail)) false ⟨ds, fs, e⟩ := by
  intro negative c rest stop
  obtain ⟨x, r, shape, digit, -⟩ := exists_head exponent stop rest
  have parsed := readExponentPart_append exponent stop rest
  rw [shape] at parsed
  have fraction : readFractionPart ('.' :: (fs ++ x :: r)) = some (fs, x :: r) := by
    simp [readFractionPart, Text.takeWhile_stop x r places.all digit, Text.dropWhile_stop x r places.all digit,
      places.filled]
  rw [List.append_assoc, List.cons_append, List.append_assoc, shape, readNumber]
  simp only [Text.takeWhile_stop '.' _ digits rfl, Text.dropWhile_stop '.' _ digits rfl, whole, if_true, fraction, parsed,
    Option.bind_some, Option.map_some]
  cases exponent <;> simp [places.filled]

theorem exists_leading {n : ℕ} (positive : 0 < n) : ∃ d r, (toString n).toList = d :: r ∧ d ≠ '0' := by
  obtain ⟨d, r, shape⟩ := List.exists_cons_of_ne_nil (Decimal.toString_ne_nil n)
  refine ⟨d, r, shape, ?_⟩
  rintro rfl
  -- A number that begins with a zero has too few digits for its size.
  have value : digitsValue ('0' :: r) = n := shape ▸ Decimal.digitsValue_toString n
  have small : digitsValue r < 10 ^ r.length :=
    Decimal.digitsValue_lt fun c mem => Decimal.isDigit_of_mem_toString (shape ▸ List.mem_cons_of_mem _ mem)
  have zero : digitsValue ('0' :: r) = digitsValue r := rfl
  have width : (toString n).length - 1 = r.length := by
    rw [← String.length_toList, shape, List.length_cons, Nat.add_sub_cancel]
  have large := Decimal.pow_length_le positive
  rw [width] at large
  omega

theorem wholeDigits_of_leading (other : c ≠ '0') : wholeDigits (c :: rest) = true := by
  unfold wholeDigits
  split
  · rename_i none
    cases none
  · rename_i zero
    exact absurd (List.cons.inj zero).1 other
  · rfl

theorem tells_count (n : ℕ) : Tells (toString n).toList true ⟨(toString n).toList, [], 0⟩ := by
  have whole : wholeDigits (toString n).toList = true := by
    rcases Nat.eq_zero_or_pos n with rfl | positive
    · rfl
    · obtain ⟨d, r, shape, other⟩ := exists_leading positive
      rw [shape]
      exact wholeDigits_of_leading other
  simpa using tells_whole (fun c => Decimal.isDigit_of_mem_toString) whole .none

theorem exponent_mark (e : ℤ) : Exponent ('e' :: ((if 0 ≤ e then "+" else "") ++ toString e).toList) e := by
  have digits (k : ℕ) : DigitRun (toString k).toList :=
    ⟨Decimal.toString_ne_nil k, fun c => Decimal.isDigit_of_mem_toString⟩
  cases e with
  | ofNat k =>
    have written : toString (Int.ofNat k) = toString k := rfl
    have exponent := Exponent.plus (.inl rfl) (digits k)
    rw [Decimal.digitsValue_toString] at exponent
    rw [if_pos (show 0 ≤ Int.ofNat k from Int.natCast_nonneg k), written, String.toList_append]
    exact exponent
  | negSucc k =>
    have written : toString (Int.negSucc k) = "-" ++ toString (k + 1) := rfl
    have exponent := Exponent.minus (.inl rfl) (digits (k + 1))
    rw [Decimal.digitsValue_toString] at exponent
    rw [if_neg (by omega), written, String.toList_append, String.toList_append]
    exact exponent

theorem digitRun_zero : DigitRun ['0'] := ⟨by simp, by simp⟩

def Spells (cs : List Char) (d : Digits) : Prop :=
  ∃ n, Tells cs false n ∧ digitsValue (n.whole ++ n.fraction) = d.spelled.digits ∧
    n.exponent - n.fraction.length = d.spelled.exponent

variable {digits : ℕ} {exponent : ℤ}

theorem spelled_of_fraction (negative : exponent < 0) : Digits.spelled ⟨digits, exponent⟩ = ⟨digits, exponent⟩ :=
  if_neg fun whole => absurd whole.1 (not_le.mpr negative)

theorem toList_zeros (k : ℕ) : (Decimal.zeros k).toList = List.replicate k '0' := String.toList_ofList

theorem spells_below (below : exponent + (toString digits).length ≤ 0) :
    Spells (Decimal.positionalText true (toString digits) (exponent + (toString digits).length)).toList
      ⟨digits, exponent⟩ := by
  have width : 0 < (toString digits).length := Nat.length_repr_pos
  obtain ⟨k, moved⟩ : ∃ k : ℕ, exponent = -(k : ℤ) - (toString digits).length :=
    ⟨(-(exponent + (toString digits).length)).toNat, by omega⟩
  have count : (-(exponent + (toString digits).length)).toNat = k := by omega
  have places : DigitRun (List.replicate k '0' ++ (toString digits).toList) := by
    refine ⟨List.append_ne_nil_of_right_ne_nil _ (Decimal.toString_ne_nil _), fun c mem => ?_⟩
    rcases List.mem_append.mp mem with zero | digit
    · exact Decimal.isDigit_of_mem_zeros zero
    · exact Decimal.isDigit_of_mem_toString digit
  rw [Decimal.positionalText, if_pos below, count]
  refine ⟨⟨['0'], List.replicate k '0' ++ (toString digits).toList, 0⟩, ?_, ?_, ?_⟩
  · simpa [toList_zeros] using tells_point digitRun_zero.all rfl places .none
  · rw [spelled_of_fraction (by omega), Decimal.digitsValue_append, Decimal.digitsValue_append, Decimal.digitsValue_zeros,
      Decimal.digitsValue_toString]
    simp [digitsValue, Decimal.digitValue]
  · rw [spelled_of_fraction (by omega)]
    simp only [List.length_append, List.length_replicate, Decimal.length_digits]
    omega

theorem spells_whole (positive : 0 < digits) (whole : 0 ≤ exponent)
    (moderate : exponent + (toString digits).length ≤ 16) :
    Spells (Decimal.positionalText true (toString digits) (exponent + (toString digits).length)).toList
      ⟨digits, exponent⟩ := by
  have width : 0 < (toString digits).length := Nat.length_repr_pos
  obtain ⟨k, rfl⟩ := Int.eq_ofNat_of_zero_le whole
  obtain ⟨d, r, shape, other⟩ := exists_leading positive
  have count : ((k : ℤ) + (toString digits).length - (toString digits).length).toNat = k := by omega
  have spelled : Digits.spelled ⟨digits, k⟩ = ⟨digits * 10 ^ (k + 1), -1⟩ := if_pos ⟨whole, moderate⟩
  have run : ∀ c ∈ (toString digits).toList ++ List.replicate k '0', c.isDigit := fun c mem =>
    (List.mem_append.mp mem).elim Decimal.isDigit_of_mem_toString Decimal.isDigit_of_mem_zeros
  have leading : wholeDigits ((toString digits).toList ++ List.replicate k '0') = true := by
    rw [shape]
    exact wholeDigits_of_leading other
  rw [Decimal.positionalText, if_neg (by omega), if_pos (by omega), count]
  refine ⟨⟨(toString digits).toList ++ List.replicate k '0', ['0'], 0⟩, ?_, ?_, ?_⟩
  · simpa [toList_zeros] using tells_point run leading digitRun_zero .none
  · -- The zero behind the point counts as one more digit.
    have last : (toString digits).toList ++ List.replicate k '0' ++ ['0'] =
        (toString digits).toList ++ List.replicate (k + 1) '0' := by
      rw [List.append_assoc, List.replicate_succ']
    rw [spelled, last, Decimal.digitsValue_append, Decimal.digitsValue_zeros, Decimal.digitsValue_toString,
      List.length_replicate, Nat.add_zero, Nat.mul_comm]
  · rw [spelled]
    rfl

theorem spells_between (positive : 0 < digits) (above : 0 < exponent + (toString digits).length) (inside : exponent < 0) :
    Spells (Decimal.positionalText true (toString digits) (exponent + (toString digits).length)).toList
      ⟨digits, exponent⟩ := by
  obtain ⟨k, moved⟩ : ∃ k : ℕ, exponent = (k : ℤ) - (toString digits).length :=
    ⟨(exponent + (toString digits).length).toNat, by omega⟩
  obtain ⟨d, r, shape, other⟩ := exists_leading positive
  have count : (exponent + (toString digits).length).toNat = k := by omega
  have run : ∀ c ∈ (toString digits).toList.take k, c.isDigit := fun c mem =>
    Decimal.isDigit_of_mem_toString (List.mem_of_mem_take mem)
  have places : DigitRun ((toString digits).toList.drop k) := by
    refine ⟨?_, fun c mem => Decimal.isDigit_of_mem_toString (List.mem_of_mem_drop mem)⟩
    rw [← List.length_pos_iff, List.length_drop, Decimal.length_digits]
    omega
  have leading : wholeDigits ((toString digits).toList.take k) = true := by
    obtain ⟨j, rfl⟩ : ∃ j, k = j + 1 := ⟨k - 1, by omega⟩
    rw [shape, List.take_succ_cons]
    exact wholeDigits_of_leading other
  rw [Decimal.positionalText, if_neg (by omega), if_neg (by omega), count]
  refine ⟨⟨(toString digits).toList.take k, (toString digits).toList.drop k, 0⟩, ?_, ?_, ?_⟩
  · simpa using tells_point run leading places .none
  · rw [spelled_of_fraction inside, List.take_append_drop, Decimal.digitsValue_toString]
  · rw [spelled_of_fraction inside]
    simp only [List.length_drop, Decimal.length_digits]
    omega

theorem spells_exponent (positive : 0 < digits) (apart : ¬ (0 ≤ exponent ∧ exponent + (toString digits).length ≤ 16)) :
    Spells (Decimal.exponentText true (toString digits) (exponent + (toString digits).length)).toList
      ⟨digits, exponent⟩ := by
  obtain ⟨d, r, shape, other⟩ := exists_leading positive
  have spelled : Digits.spelled ⟨digits, exponent⟩ = ⟨digits, exponent⟩ := if_neg apart
  have mark := exponent_mark (exponent + (toString digits).length - 1)
  have width : (toString digits).length = r.length + 1 := by rw [← String.length_toList, shape, List.length_cons]
  have run : ∀ c ∈ d :: r, c.isDigit := fun c mem => Decimal.isDigit_of_mem_toString (shape ▸ mem)
  have first : ∀ c ∈ [d], c.isDigit := fun c mem => run c (List.mem_cons.mpr (.inl (List.mem_singleton.mp mem)))
  have value : digitsValue (d :: r) = digits := shape ▸ Decimal.digitsValue_toString digits
  refine ⟨⟨[d], r, exponent + (toString digits).length - 1⟩, ?_, ?_, ?_⟩
  · rw [Decimal.exponentText, shape]
    cases r with
    | nil => simpa using tells_whole first (wholeDigits_of_leading other) mark
    | cons b r =>
      have places : DigitRun (b :: r) := ⟨by simp, fun c mem => run c (List.mem_cons_of_mem _ mem)⟩
      simpa using tells_point first (wholeDigits_of_leading other) places mark
  · rw [spelled]
    exact value
  · rw [spelled]
    simp only
    omega

/-- The text of a magnitude is read as its shortest digits, as they are spelled. -/
theorem spells_magnitude {m : ℕ} (some : m ≠ 0) (positive : 0 < (Decimal.shortest false m e).digits) :
    Spells (Decimal.Layout.settings.magnitude m e).toList (Decimal.shortest false m e) := by
  have unfolded : Decimal.Layout.settings.magnitude m e = if m == 0 then "0.0" else
      let d := Decimal.shortest false m e
      let point := d.exponent + (toString d.digits).length
      if -5 < point && point ≤ 16 then Decimal.positionalText true (toString d.digits) point
      else Decimal.exponentText true (toString d.digits) point := rfl
  rw [unfolded, beq_false_of_ne some, if_neg Bool.false_ne_true]
  generalize Decimal.shortest false m e = d at *
  obtain ⟨digits, exponent⟩ := d
  have width : 0 < (toString digits).length := Nat.length_repr_pos
  simp only [Bool.and_eq_true, decide_eq_true_eq]
  split
  case isTrue moderate =>
    rcases lt_or_ge exponent 0 with fraction | whole
    · rcases le_or_gt (exponent + (toString digits).length) 0 with below | above
      · exact spells_below below
      · exact spells_between positive above fraction
    · exact spells_whole positive whole moderate.2
  case isFalse apart => exact spells_exponent positive fun whole => apart ⟨by omega, whole.2⟩

/-- The text of a finite magnitude is a number, and what is read of it is what is computed from the magnitude. -/
theorem tells_magnitude {m : ℕ} (canonical : Decimal.Canonical m e) (le : e ≤ Decimal.maxExponent) :
    ∃ n, Tells (Decimal.Layout.settings.magnitude m e).toList false n ∧ n.scaledValue = Decimal.rereadMagnitude m e := by
  rcases Nat.eq_zero_or_pos m with rfl | positive
  · have written : Decimal.Layout.settings.magnitude 0 e = "0.0" := rfl
    rw [written]
    refine ⟨⟨['0'], ['0'], 0⟩, tells_point digitRun_zero.all rfl digitRun_zero .none, ?_⟩
    rw [Decimal.rereadMagnitude_zero]
    decide +kernel
  · have digits : 0 < (Decimal.shortest false m e).digits :=
      Decimal.digits_pos_of_nearest canonical le positive (Decimal.shortest_nearest canonical le positive)
    obtain ⟨n, tells, value, places⟩ := spells_magnitude positive.ne' digits
    have fits : (Decimal.shortest false m e).spelled.digits ≤ Decimal.maxCount :=
      Decimal.Digits.spelled_le (Decimal.shortest_le canonical)
    refine ⟨n, tells, ?_⟩
    rw [Decimal.scaledValue_eq (value ▸ fits), value, places]
    rfl

end EncounterTimeline.SettingsFile

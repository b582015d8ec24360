import EncounterTimeline.Proofs.Decimal.Order

/-! # What a text reads to

A decimal reads to the nearest double, and to an infinity from half a unit beyond the greatest double on. The names of the
infinities and of no number are read in any case of letters, with a sign too. No other text is read.
-/
namespace EncounterTimeline.Decimal

open Text (DigitRun)

variable {x : Float} {v : ℚ} {m n : ℕ} {e f : ℤ} {negative : Bool}

/-- The greatest double has an odd mantissa, so the end of its interval does not round to it. -/
theorem Nearest.lt_limit (canonical : Canonical m e) (h : Nearest v m e) (le : e ≤ maxExponent) : v < limit := by
  have unit : (0 : ℚ) < 2 ^ e := by positivity
  have scale : (2 : ℚ) ^ e ≤ 2 ^ (970 : ℤ) * 2 := by
    rw [← two_zpow_maxExponent]
    exact zpow_le_zpow_right₀ (by norm_num) le
  have bits : (m : ℚ) + 1 ≤ 2 ^ 53 := by exact_mod_cast canonical.bits
  have below : v < (2 ^ 53 - 1 / 2) * 2 ^ e := by
    rw [← div_lt_iff₀ unit]
    refine lt_of_le_of_ne (h.high.trans (by linarith)) fun atEnd => ?_
    have last : (m : ℚ) = 2 ^ 53 - 1 := by
      have high := h.high
      linarith
    have odd : m = 2 ^ 53 - 1 := by
      have cast : ((m + 1 : ℕ) : ℚ) = 2 ^ 53 := by
        push_cast
        linarith
      have eq : m + 1 = 2 ^ 53 := by exact_mod_cast cast
      omega
    have even := h.tie (.inr (by linarith))
    rw [odd] at even
    exact absurd even (by decide)
  calc v < (2 ^ 53 - 1 / 2) * 2 ^ e := below
    _ ≤ (2 ^ 53 - 1 / 2) * (2 ^ (970 : ℤ) * 2) := mul_le_mul_of_nonneg_left scale (by norm_num)
    _ = limit := by
      rw [limit]
      ring

/-- Only what is out of range of all doubles is not finite. -/
theorem Closest.isFinite_iff (h : Closest x v) : x.isFinite = true ↔ |v| < limit := by
  refine ⟨fun finite => ?_, h.isFinite⟩
  obtain ⟨negative, m, e, canonical, nearest, -, rfl⟩ := h
  exact nearest.lt_limit canonical (le_maxExponent_of_isFinite canonical finite)

theorem infinity_eq : (1.0 / 0.0 : Float) = infinity false := by decide +kernel

theorem limit_pos : 0 < limit := by
  rw [limit]
  positivity

theorem two_zpow_le_ten_zpow : (2 : ℚ) ^ (1200 : ℤ) ≤ 10 ^ (400 : ℤ) :=
  calc (2 : ℚ) ^ (1200 : ℤ) = (2 ^ (3 : ℤ)) ^ (400 : ℤ) := by rw [← zpow_mul]; rfl
    _ ≤ 10 ^ (400 : ℤ) := zpow_le_zpow_left₀ (by norm_num) (by norm_num) (by norm_num)

/-- A number with that many digits before the point is out of range. -/
theorem limit_le_of_pow (h : (10 : ℚ) ^ (400 : ℤ) ≤ v) : limit ≤ v :=
  calc limit ≤ 2 ^ (54 : ℤ) * 2 ^ (970 : ℤ) := by
        rw [limit]
        exact mul_le_mul_of_nonneg_right (by norm_num) (by positivity)
    _ = 2 ^ (1024 : ℤ) := (zpow_add₀ two_ne_zero _ _).symm
    _ ≤ 2 ^ (1200 : ℤ) := zpow_le_zpow_right₀ (by norm_num) (by norm_num)
    _ ≤ v := two_zpow_le_ten_zpow.trans h

/-- A number with that many zeros behind the point rounds to zero. -/
theorem nearest_zero (nonneg : 0 ≤ v) (tiny : v ≤ 10 ^ (-400 : ℤ)) : Nearest v 0 (-1074) := by
  have unit : (0 : ℚ) < 2 ^ (-1074 : ℤ) := by positivity
  have low : 0 ≤ v / 2 ^ (-1074 : ℤ) := div_nonneg nonneg unit.le
  have high : v / 2 ^ (-1074 : ℤ) ≤ 1 / 2 := by
    rw [div_le_iff₀ unit]
    calc v ≤ 10 ^ (-400 : ℤ) := tiny
      _ ≤ 2 ^ (-1200 : ℤ) := by
        rw [zpow_neg, zpow_neg]
        exact inv_anti₀ (by positivity) two_zpow_le_ten_zpow
      _ ≤ 2 ^ (-1 + -1074 : ℤ) := zpow_le_zpow_right₀ (by norm_num) (by norm_num)
      _ = 1 / 2 * 2 ^ (-1074 : ℤ) := by
        rw [zpow_add₀ two_ne_zero]
        norm_num
  have reached := reach_pos 0 (-1074)
  refine ⟨?_, by simpa using high, fun _ => Even.zero⟩
  rw [Nat.cast_zero]
  linarith

/-- A numeral is computed to the nearest double, or to infinity if it is out of range. -/
theorem scientific_cases (n : ℕ) (e : ℤ) :
    ((n : ℚ) * 10 ^ e < limit ∧ ∃ m f, Canonical m f ∧ f ≤ maxExponent ∧ Nearest (n * 10 ^ e) m f ∧
      scientific n e = packed false m f) ∨
    (limit ≤ (n : ℚ) * 10 ^ e ∧ scientific n e = infinity false) := by
  have nonneg : (0 : ℚ) ≤ n * 10 ^ e := by positivity
  have zero (tiny : (n : ℚ) * 10 ^ e ≤ 10 ^ (-400 : ℤ)) (exact : scientific n e = 0.0) : (n : ℚ) * 10 ^ e < limit ∧
      ∃ m f, Canonical m f ∧ f ≤ maxExponent ∧ Nearest (n * 10 ^ e) m f ∧ scientific n e = packed false m f := by
    have nearest := nearest_zero nonneg tiny
    exact ⟨nearest.lt_limit canonical_zero (by decide), 0, -1074, canonical_zero, by decide, nearest,
      exact.trans zero_eq_packed⟩
  rcases Nat.eq_zero_or_pos n with rfl | positive
  · exact .inl (zero (by rw [Nat.cast_zero, zero_mul]; positivity) rfl)
  have some : (n == 0) = false := beq_false_of_ne positive.ne'
  -- By the number of digits before the point alone it is known of some numerals that they are out of range, or zero.
  rcases lt_or_ge (400 : ℤ) ((toString n).length + e) with large | high
  · right
    have below : (10 : ℚ) ^ (((toString n).length - 1 : ℕ) + e) ≤ n * 10 ^ e := by
      rw [zpow_add₀ (by norm_num), zpow_natCast]
      exact mul_le_mul_of_nonneg_right (by exact_mod_cast pow_length_le positive) (by positivity)
    have width := @Nat.length_repr_pos n
    rw [← Nat.toString_eq_repr] at width
    refine ⟨limit_le_of_pow (le_trans ?_ below), ?_⟩
    · exact zpow_le_zpow_right₀ (by norm_num) (by omega)
    · rw [scientific.eq_def]
      simp only [some, Bool.false_eq_true, if_false, if_pos large, infinity_eq]
  rcases lt_or_ge ((toString n).length + e) (-400 : ℤ) with small | low
  · left
    have above : (n : ℚ) * 10 ^ e < 10 ^ ((toString n).length + e) := by
      rw [zpow_add₀ (by norm_num), zpow_natCast]
      exact mul_lt_mul_of_pos_right (by exact_mod_cast lt_pow_length n) (by positivity)
    refine zero (above.le.trans (zpow_le_zpow_right₀ (by norm_num) (by omega))) ?_
    rw [scientific.eq_def]
    simp only [some, Bool.false_eq_true, if_false, if_neg high.not_gt, if_pos small]
  · obtain ⟨m, f, canonical, nearest, exact⟩ := rounded_scientific positive low high
    by_cases le : f ≤ maxExponent
    · exact .inl ⟨nearest.lt_limit canonical le, m, f, canonical, le, nearest, exact⟩
    · right
      rw [packed_of_large canonical (not_le.mp le)] at exact
      refine ⟨not_lt.mp fun within => ?_, exact⟩
      have closest := Closest.of_rounded ⟨m, f, canonical, nearest, rfl⟩ nonneg
      have finite := closest.isFinite (by rwa [abs_of_nonneg nonneg])
      exact le (le_maxExponent_of_isFinite canonical finite)

inductive Exponent : List Char → ℤ → Prop where
  | none : Exponent [] 0
  | plain {mark : Char} {ds : List Char} (marks : mark = 'e' ∨ mark = 'E') (digits : DigitRun ds) :
      Exponent (mark :: ds) (digitsValue ds)
  | plus {mark : Char} {ds : List Char} (marks : mark = 'e' ∨ mark = 'E') (digits : DigitRun ds) :
      Exponent (mark :: '+' :: ds) (digitsValue ds)
  | minus {mark : Char} {ds : List Char} (marks : mark = 'e' ∨ mark = 'E') (digits : DigitRun ds) :
      Exponent (mark :: '-' :: ds) (-digitsValue ds)

inductive Numeral.Written : Numeral → List Char → Prop where
  | whole {ds tail : List Char} {e : ℤ} (digits : DigitRun ds) (exponent : Exponent tail e) :
      Numeral.Written ⟨ds, [], e⟩ (ds ++ tail)
  | point {ds fs tail : List Char} {e : ℤ} (digits : ∀ c ∈ ds, c.isDigit) (places : ∀ c ∈ fs, c.isDigit)
      (filled : ds ≠ [] ∨ fs ≠ []) (exponent : Exponent tail e) :
      Numeral.Written ⟨ds, fs, e⟩ (ds ++ '.' :: (fs ++ tail))

def Numeral.exact (n : Numeral) : ℚ := digitsValue (n.whole ++ n.fraction) * 10 ^ (n.exponent - n.fraction.length)

variable {cs ds tail : List Char}

/-- The digits of an exponent behind its sign. -/
theorem readDigits_eq_some_iff {value : ℤ} :
    (if ds.isEmpty || !ds.all Char.isDigit then none else some value) = some e ↔ DigitRun ds ∧ value = e := by
  by_cases digits : DigitRun ds
  · have shape : (ds.isEmpty || !ds.all Char.isDigit) = false := by simpa [digits.filled] using digits.all
    rw [shape, if_neg Bool.false_ne_true, Option.some.injEq]
    exact (and_iff_right digits).symm
  · have shape : (ds.isEmpty || !ds.all Char.isDigit) = true := by
      by_contra plain
      simp only [Bool.or_eq_true, Bool.not_eq_true', not_or, Bool.not_eq_true, Bool.not_eq_false] at plain
      exact digits ⟨by simpa using plain.1, List.all_eq_true.mp plain.2⟩
    rw [shape, if_pos rfl]
    exact iff_of_false nofun fun both => digits both.1

theorem readExponent_eq_some_iff : readExponent cs = some e ↔ Exponent cs e := by
  constructor
  · intro h
    unfold readExponent at h
    split at h
    · cases h
      exact .none
    · rename_i mark r
      split at h
      · rename_i marked
        have marks : mark = 'e' ∨ mark = 'E' := by simpa using marked
        simp only at h
        split at h
        · obtain ⟨digits, rfl⟩ := readDigits_eq_some_iff.mp h
          exact .minus marks digits
        · obtain ⟨digits, rfl⟩ := readDigits_eq_some_iff.mp h
          exact .plus marks digits
        · obtain ⟨digits, rfl⟩ := readDigits_eq_some_iff.mp h
          exact .plain marks digits
      · cases h
  · have marked {mark : Char} (marks : mark = 'e' ∨ mark = 'E') : (mark == 'e' || mark == 'E') = true := by
      simpa using marks
    intro h
    cases h with
    | none => rfl
    | @plain mark ds marks digits =>
      rw [readExponent, if_pos (marked marks)]
      · exact readDigits_eq_some_iff.mpr ⟨digits, rfl⟩
      · rintro rest rfl
        exact absurd (digits.all '-' List.mem_cons_self) (by decide)
      · rintro rest rfl
        exact absurd (digits.all '+' List.mem_cons_self) (by decide)
    | plus marks digits =>
      rw [readExponent, if_pos (marked marks)]
      exact readDigits_eq_some_iff.mpr ⟨digits, rfl⟩
    | minus marks digits =>
      rw [readExponent, if_pos (marked marks)]
      exact readDigits_eq_some_iff.mpr ⟨digits, rfl⟩

/-- An exponent begins with its mark. -/
theorem Exponent.cut (h : Exponent tail e) (digits : ∀ c ∈ ds, c.isDigit) :
    (ds ++ tail).takeWhile Char.isDigit = ds ∧ (ds ++ tail).dropWhile Char.isDigit = tail := by
  have marked {mark : Char} (rest : List Char) (marks : mark = 'e' ∨ mark = 'E') :
      (ds ++ mark :: rest).takeWhile Char.isDigit = ds ∧ (ds ++ mark :: rest).dropWhile Char.isDigit = mark :: rest := by
    have letter : mark.isDigit = false := by rcases marks with rfl | rfl <;> rfl
    exact ⟨Text.takeWhile_stop mark rest digits letter, Text.dropWhile_stop mark rest digits letter⟩
  cases h with
  | none =>
    rw [List.append_nil]
    exact ⟨List.takeWhile_eq_self_iff.mpr digits, List.dropWhile_eq_nil_iff.mpr digits⟩
  | plain marks | plus marks | minus marks => exact marked _ marks

theorem Exponent.not_point (h : Exponent tail e) (rest : List Char) : tail ≠ '.' :: rest := by
  rintro rfl
  cases h with
  | plain marks | plus marks | minus marks => rcases marks with mark | mark <;> cases mark

/-- Digits, a point and an exponent are read as the numeral that they write, and nothing else is read. -/
theorem readUnsigned_eq_some_iff {n : Numeral} : readUnsigned cs = some n ↔ n.Written cs := by
  constructor
  · intro h
    have digits (cs : List Char) : ∀ c ∈ cs.takeWhile Char.isDigit, c.isDigit := fun c mem => List.mem_takeWhile_imp mem
    have whole := List.takeWhile_append_dropWhile (p := Char.isDigit) (l := cs)
    unfold readUnsigned at h
    simp only at h
    split at h
    · rename_i r point
      split at h
      · cases h
      · rename_i filled
        obtain ⟨e, exponent, rfl⟩ := Option.map_eq_some_iff.mp h
        have places := List.takeWhile_append_dropWhile (p := Char.isDigit) (l := r)
        have some := not_and_or.mp (by simpa [-List.takeWhile_eq_nil_iff] using filled)
        have written := Numeral.Written.point (digits cs) (digits r) some (readExponent_eq_some_iff.mp exponent)
        rwa [places, ← point, whole] at written
    · split at h
      · cases h
      · rename_i filled
        obtain ⟨e, exponent, rfl⟩ := Option.map_eq_some_iff.mp h
        have written := Numeral.Written.whole ⟨by simpa using filled, digits cs⟩ (readExponent_eq_some_iff.mp exponent)
        rwa [whole] at written
  · intro h
    cases h with
    | @whole ds tail e digits exponent =>
      obtain ⟨taken, dropped⟩ := exponent.cut digits.all
      unfold readUnsigned
      simp only [taken, dropped]
      split
      · exact absurd rfl (exponent.not_point _)
      · rw [readExponent_eq_some_iff.mpr exponent, if_neg (by simpa using digits.filled)]
        rfl
    | @point ds fs tail e digits places filled exponent =>
      have taken := Text.takeWhile_stop '.' (fs ++ tail) digits rfl
      have dropped := Text.dropWhile_stop '.' (fs ++ tail) digits rfl
      obtain ⟨taken', dropped'⟩ := exponent.cut places
      unfold readUnsigned
      simp only [taken, dropped, taken', dropped']
      rw [readExponent_eq_some_iff.mpr exponent, if_neg (by simpa [imp_iff_not_or] using filled)]
      rfl

theorem Numeral.Written.unique {k n : Numeral} (h : k.Written cs) (h' : n.Written cs) : k = n :=
  Option.some.inj ((readUnsigned_eq_some_iff.mpr h).symm.trans (readUnsigned_eq_some_iff.mpr h'))

/-- Decimals begin with a digit or a point. -/
theorem Numeral.Written.head {n : Numeral} (h : n.Written cs) : ∃ c rest, cs = c :: rest ∧ (c.isDigit ∨ c = '.') := by
  have digit {ds : List Char} (filled : ds ≠ []) (digits : ∀ c ∈ ds, c.isDigit) (tail : List Char) :
      ∃ c rest, ds ++ tail = c :: rest ∧ (c.isDigit ∨ c = '.') := by
    obtain ⟨c, rest, rfl⟩ := List.exists_cons_of_ne_nil filled
    exact ⟨c, rest ++ tail, rfl, .inl (digits c List.mem_cons_self)⟩
  cases h with
  | whole digits exponent => exact digit digits.filled digits.all _
  | @point ds _ _ _ digits =>
    by_cases filled : ds = []
    · subst filled
      exact ⟨'.', _, rfl, .inr rfl⟩
    · exact digit filled digits _

theorem Numeral.exact_nonneg (n : Numeral) : 0 ≤ n.exact := by
  rw [exact]
  positivity

def unsign : List Char → Bool × List Char
  | '-' :: cs => (true, cs)
  | '+' :: cs => (false, cs)
  | cs => (false, cs)

def Writes (cs : List Char) (v : ℚ) : Prop := ∃ n : Numeral, n.Written (unsign cs).2 ∧ v = signed (unsign cs).1 n.exact

def word (cs : List Char) : String := String.ofList ((unsign cs).2.map Char.toLower)

def Names (cs : List Char) : Prop := word cs ∈ ["inf", "infinity", "nan"]

/-- The text stands for an infinity, by its name or as a decimal out of the range of doubles. -/
def Infinite (negative : Bool) (cs : List Char) : Prop :=
  (unsign cs).1 = negative ∧ (word cs ∈ ["inf", "infinity"] ∨ ∃ v, Writes cs v ∧ limit ≤ |v|)

def Boundless (cs : List Char) : Prop := (∃ negative, Infinite negative cs) ∨ word cs = "nan"

theorem Writes.unique {w : ℚ} (h : Writes cs v) (h' : Writes cs w) : v = w := by
  obtain ⟨n, written, rfl⟩ := h
  obtain ⟨k, written', rfl⟩ := h'
  rw [written.unique written']

theorem Names.of_infinity (h : word cs ∈ ["inf", "infinity"]) : Names cs := by
  simp only [Names, List.mem_cons, List.not_mem_nil, or_false] at h ⊢
  tauto

theorem Names.of_nan (h : word cs = "nan") : Names cs := by simp [Names, h]

/-- Names begin with a letter. -/
theorem Names.not_writes (h : Names cs) : ¬ Writes cs v := by
  rintro ⟨n, written, -⟩
  obtain ⟨c, rest, shape, first⟩ := written.head
  have same : c.toLower = c := by
    rcases first with digit | rfl
    · exact toLower_of_isDigit digit
    · rfl
  have letter (name : String) {d : Char} {r : List Char} (spelled : name.toList = d :: r)
      (other : d.isDigit = false ∧ d ≠ '.') : word cs ≠ name := by
    intro equal
    have lists := congrArg String.toList equal
    rw [word, String.toList_ofList, spelled, shape, List.map_cons, same] at lists
    rw [(List.cons.inj lists).1] at first
    rcases first with digit | point
    · rw [other.1] at digit
      cases digit
    · exact other.2 point
  simp only [Names, List.mem_cons, List.not_mem_nil, or_false] at h
  rcases h with inf | infinity | nan
  · exact letter "inf" rfl (by decide) inf
  · exact letter "infinity" rfl (by decide) infinity
  · exact letter "nan" rfl (by decide) nan

theorem Infinite.not_nan (h : Infinite negative cs) : word cs ≠ "nan" := by
  intro nan
  rcases h.2 with named | ⟨v, writes, -⟩
  · rw [nan] at named
    exact absurd named (by decide)
  · exact (Names.of_nan nan).not_writes writes

/-- What is within the range of doubles stands for no infinity. -/
theorem Infinite.beyond (h : Infinite negative cs) (writes : Writes cs v) : limit ≤ |v| := by
  rcases h.2 with named | ⟨w, writes', beyond⟩
  · exact absurd writes (Names.of_infinity named).not_writes
  · rwa [writes.unique writes']

theorem read_eq (s : String) : read s = (readMagnitude (unsign s.toList).2).map fun x =>
    if (unsign s.toList).1 then -x else x := by
  rw [read]
  split
  · rename_i cs shape
    rw [shape]
    rfl
  · rename_i cs shape
    rw [shape]
    exact Option.map_id'.symm
  · rename_i noMinus noPlus
    have bare : unsign s.toList = (false, s.toList) := by
      rw [unsign]
      · exact noMinus
      · exact noPlus
    rw [bare]
    exact Option.map_id'.symm

theorem signed_infinity (negative : Bool) : (if negative then -infinity false else infinity false) = infinity negative := by
  cases negative
  · rfl
  · decide +kernel

theorem readMagnitude_unsign (cs : List Char) : readMagnitude (unsign cs).2 =
    if word cs == "inf" || word cs == "infinity" then some (1.0 / 0.0)
    else if word cs == "nan" then some (0.0 / 0.0)
    else (readUnsigned (unsign cs).2).map Numeral.value := rfl

theorem readMagnitude_of_not_names (h : ¬ Names cs) :
    readMagnitude (unsign cs).2 = (readUnsigned (unsign cs).2).map Numeral.value := by
  simp only [Names, List.mem_cons, List.not_mem_nil, or_false, not_or] at h
  simp [readMagnitude_unsign, h]

/-- What a text reads to: a decimal to the nearest double, and to an infinity if it is out of range. -/
inductive Reads (cs : List Char) : Option Float → Prop where
  | near {v : ℚ} {x : Float} (writes : Writes cs v) (range : |v| < limit) (closest : Closest x v) : Reads cs (some x)
  | infinite {negative : Bool} (stands : Infinite negative cs) : Reads cs (some (infinity negative))
  | nan {x : Float} (named : word cs = "nan") (nothing : x.isNaN = true) : Reads cs (some x)
  | none (unnamed : ¬ Names cs) (unwritten : ∀ v, ¬ Writes cs v) : Reads cs none

theorem reads_named {s : String} (h : Names s.toList) : Reads s.toList (read s) := by
  have magnitude {x : Float} (found : readMagnitude (unsign s.toList).2 = some x) :
      read s = some (if (unsign s.toList).1 then -x else x) := by rw [read_eq, found, Option.map_some]
  have infinite (named : word s.toList = "inf" ∨ word s.toList = "infinity") : Reads s.toList (read s) := by
    have found : readMagnitude (unsign s.toList).2 = some (1.0 / 0.0) := by simp [readMagnitude_unsign, named]
    rw [magnitude found, infinity_eq, signed_infinity]
    exact .infinite ⟨rfl, .inl (by simpa using named)⟩
  simp only [Names, List.mem_cons, List.not_mem_nil, or_false] at h
  rcases h with named | named | named
  · exact infinite (.inl named)
  · exact infinite (.inr named)
  · have found : readMagnitude (unsign s.toList).2 = some (0.0 / 0.0) := by simp [readMagnitude_unsign, named]
    rw [magnitude found]
    refine .nan named ?_
    split <;> decide +kernel

theorem reads_written {s : String} (h : Writes s.toList v) : Reads s.toList (read s) := by
  obtain ⟨n, written, value⟩ := id h
  have other : ¬ Names s.toList := fun named => named.not_writes h
  have found : read s = some (if (unsign s.toList).1 then -n.value else n.value) := by
    rw [read_eq, readMagnitude_of_not_names other, readUnsigned_eq_some_iff.mpr written, Option.map_some, Option.map_some]
  have magnitude : |v| = n.exact := by rw [value, abs_signed, abs_of_nonneg n.exact_nonneg]
  rw [found]
  rcases scientific_cases (digitsValue (n.whole ++ n.fraction)) (n.exponent - n.fraction.length) with
    ⟨within, m, f, canonical, le, nearest, exact⟩ | ⟨beyond, exact⟩
  · have rounded : n.value = packed false m f := exact
    have signs : (if (unsign s.toList).1 then -n.value else n.value) = packed (unsign s.toList).1 m f := by
      rw [rounded]
      split
      · rename_i minus
        rw [neg_packed canonical le, minus]
      · rename_i plus
        rw [Bool.eq_false_iff.mpr plus]
    refine .near h (magnitude ▸ within) ⟨_, m, f, canonical, magnitude ▸ nearest, ?_, signs⟩
    rw [magnitude, value]
  · have rounded : n.value = infinity false := exact
    rw [rounded, signed_infinity]
    exact .infinite ⟨rfl, .inr ⟨v, h, magnitude ▸ beyond⟩⟩

theorem reads (s : String) : Reads s.toList (read s) := by
  by_cases named : Names s.toList
  · exact reads_named named
  by_cases writes : ∃ v, Writes s.toList v
  · obtain ⟨v, writes⟩ := writes
    exact reads_written writes
  · have unwritten := not_exists.mp writes
    have nothing : readUnsigned (unsign s.toList).2 = none := by
      cases found : readUnsigned (unsign s.toList).2 with
      | none => rfl
      | some n => exact absurd ⟨n, readUnsigned_eq_some_iff.mp found, rfl⟩ (unwritten _)
    have read : read s = none := by
      rw [read_eq, readMagnitude_of_not_names named, nothing]
      rfl
    rw [read]
    exact .none named unwritten

namespace Reads

variable {o : Option Float}

/-- The kinds of texts exclude each other, so what was read tells the kind. -/
theorem eq_infinity_iff (h : Reads cs o) : o = some (infinity negative) ↔ Infinite negative cs := by
  cases h with
  | near writes range closest =>
    refine iff_of_false ?_ fun stands => absurd range (not_lt.mpr (stands.beyond writes))
    rintro ⟨⟩
    exact absurd (closest.isFinite range) (by rw [isFinite_infinity]; exact Bool.false_ne_true)
  | @infinite sign stands =>
    constructor
    · intro same
      have signs : sign = negative := by
        have models := (ofFloat_infinity sign).symm.trans ((congrArg Binary64.ofFloat (Option.some.inj same)).trans
          (ofFloat_infinity negative))
        exact Binary64.infinite.inj models
      exact signs ▸ stands
    · intro other
      rw [← stands.1, other.1]
  | nan named nothing =>
    refine iff_of_false ?_ fun stands => stands.not_nan named
    rintro ⟨⟩
    rw [isNaN_infinity] at nothing
    cases nothing
  | none unnamed unwritten =>
    refine iff_of_false nofun fun stands => ?_
    rcases stands.2 with named | ⟨v, writes, -⟩
    · exact unnamed (.of_infinity named)
    · exact unwritten v writes

theorem isNaN_iff (h : Reads cs o) : (∃ x ∈ o, x.isNaN = true) ↔ word cs = "nan" := by
  cases h with
  | @near v x writes range closest =>
    refine iff_of_false ?_ fun nan => (Names.of_nan nan).not_writes writes
    rintro ⟨_, ⟨⟩, nan⟩
    rw [closest.isNaN] at nan
    cases nan
  | infinite stands =>
    refine iff_of_false ?_ stands.not_nan
    rintro ⟨_, ⟨⟩, nan⟩
    rw [isNaN_infinity] at nan
    cases nan
  | nan named nothing => exact iff_of_true ⟨_, rfl, nothing⟩ named
  | none unnamed => exact iff_of_false (by simp) fun nan => unnamed (.of_nan nan)

/-- What is read is finite unless the text stands for something that is not. -/
theorem isFinite_iff (h : Reads cs o) : (∀ x ∈ o, x.isFinite = true) ↔ ¬ Boundless cs := by
  rw [Boundless, ← h.isNaN_iff]
  simp only [← h.eq_infinity_iff, not_or, not_exists]
  constructor
  · intro finite
    refine ⟨?_, ?_⟩
    · rintro negative rfl
      have impossible := finite _ rfl
      rw [isFinite_infinity] at impossible
      cases impossible
    · rintro x ⟨mem, nan⟩
      rw [isNaN_of_isFinite (finite x mem)] at nan
      cases nan
  · rintro ⟨bounded, number⟩ x rfl
    have isNumber : x.isNaN = false := Bool.eq_false_iff.mpr fun nan => number x ⟨rfl, nan⟩
    rcases finite_or_infinite isNumber with finite | ⟨negative, rfl⟩
    · exact finite
    · exact absurd rfl (bounded negative)

end Reads

end EncounterTimeline.Decimal

import EncounterTimeline.Decimal.Numeral
import EncounterTimeline.Proofs.Text.Cutting
import Mathlib.Tactic

/-! # Runs of digits

The digits of a number are read as that number, with zeros before them too. A run of digits, with or without a point and
a second run behind it, is a numeral without an exponent.
-/
namespace EncounterTimeline

structure Text.DigitRun (cs : List Char) : Prop where
  filled : cs ≠ []
  all : ∀ c ∈ cs, c.isDigit

namespace Decimal

variable {n : ℕ} {cs ds fs : List Char}

theorem digitsValue_eq (cs : List Char) : digitsValue cs = Nat.ofDigitChars 10 cs 0 := rfl

theorem digitsValue_append (cs ds : List Char) :
    digitsValue (cs ++ ds) = 10 ^ ds.length * digitsValue cs + digitsValue ds := by
  rw [digitsValue_eq, Nat.ofDigitChars_append, Nat.ofDigitChars_eq_ofDigitChars_zero]
  rfl

theorem digitsValue_zeros (k : ℕ) : digitsValue (List.replicate k '0') = 0 := by
  rw [digitsValue_eq, Nat.ofDigitChars_replicate_zero, Nat.mul_zero]

theorem digitsValue_lt (digits : ∀ c ∈ cs, c.isDigit) : digitsValue cs < 10 ^ cs.length := by
  induction cs using List.reverseRecOn with
  | nil => exact Nat.one_pos
  | append_singleton cs c ih =>
    have before := ih fun x mem => digits x (List.mem_append_left _ mem)
    have last : digitsValue [c] < 10 := by
      have digit := (Char.isDigit_iff_toNat.mp (digits c (List.mem_append_right _ List.mem_cons_self))).2
      simp only [Char.reduceToNat] at digit
      simp only [digitsValue, List.foldl_cons, List.foldl_nil, digitValue, Char.reduceToNat]
      omega
    rw [digitsValue_append, List.length_append, List.length_singleton, pow_succ]
    omega

theorem toList_toString (n : ℕ) : (toString n).toList = Nat.toDigits 10 n := Nat.toList_repr

theorem digitsValue_toString (n : ℕ) : digitsValue (toString n).toList = n := by
  rw [toList_toString, digitsValue_eq, Nat.ofDigitChars_ten_toDigits]

theorem isDigit_of_mem_toString {c : Char} (h : c ∈ (toString n).toList) : c.isDigit := by
  rw [toList_toString] at h
  exact Nat.isDigit_of_mem_toDigits (by decide) le_rfl h

theorem toString_ne_nil (n : ℕ) : (toString n).toList ≠ [] := by
  rw [toList_toString]
  exact Nat.toDigits_ne_nil

theorem lt_pow_length (n : ℕ) : n < 10 ^ (toString n).length :=
  (Nat.length_repr_le_iff Nat.length_repr_pos).mp le_rfl

theorem pow_length_le (positive : 0 < n) : 10 ^ ((toString n).length - 1) ≤ n := by
  by_cases single : (toString n).length = 1
  · rw [single]
    exact positive
  · have several : 0 < (toString n).length - 1 := by
      have := @Nat.length_repr_pos n
      rw [Nat.toString_eq_repr] at *
      omega
    refine not_lt.mp fun less => ?_
    have shorter := (Nat.length_repr_le_iff several).mpr less
    rw [Nat.toString_eq_repr] at *
    omega

theorem toLower_of_isDigit {c : Char} (h : c.isDigit) : c.toLower = c := by
  have high := (Char.isDigit_iff_toNat.mp h).2
  refine dif_neg fun upper => ?_
  have low : 'A'.toNat ≤ c.toNat := UInt32.le_iff_toNat_le.mp upper.1
  simp only [Char.reduceToNat] at low high
  omega

theorem readUnsigned_whole (digits : ∀ c ∈ ds, c.isDigit) (some : ds ≠ []) : readUnsigned ds = .some ⟨ds, [], 0⟩ := by
  have taken : ds.takeWhile Char.isDigit = ds := List.takeWhile_eq_self_iff.mpr digits
  have dropped : ds.dropWhile Char.isDigit = [] := List.dropWhile_eq_nil_iff.mpr digits
  rw [readUnsigned, taken, dropped]
  simp [some, readExponent]

theorem readUnsigned_point (digits : ∀ c ∈ ds, c.isDigit) (some : ds ≠ []) (digits' : ∀ c ∈ fs, c.isDigit) :
    readUnsigned (ds ++ '.' :: fs) = .some ⟨ds, fs, 0⟩ := by
  have taken := Text.takeWhile_stop '.' fs digits rfl
  have dropped := Text.dropWhile_stop '.' fs digits rfl
  have taken' : fs.takeWhile Char.isDigit = fs := List.takeWhile_eq_self_iff.mpr digits'
  have dropped' : fs.dropWhile Char.isDigit = [] := List.dropWhile_eq_nil_iff.mpr digits'
  rw [readUnsigned, taken, dropped]
  simp [some, readExponent, taken', dropped']

end Decimal

end EncounterTimeline

import EncounterTimeline.Proofs.Decimal.Nearest

/-! # What doubles stand for

A finite double stands for a number, a multiple of the least positive double. Comparing with zero asks for the sign of
that number, and the total order of doubles puts finite ones in the order of their numbers.
-/
namespace EncounterTimeline.Decimal

open Float.Model (Format UnpackedFloat)
open Float.Model.UnpackedFloat

def signed (negative : Bool) (v : ℚ) : ℚ := if negative then -v else v

def Binary64.value : Binary64 → ℚ
  | .finite negative m e => signed negative (m * 2 ^ e)
  | _ => 0

def valueOf (x : Float) : ℚ := (Binary64.ofFloat x).value

variable {x y : Float} {negative : Bool} {m n : ℕ} {e f : ℤ} {v : ℚ}

@[simp] theorem abs_signed (negative : Bool) (v : ℚ) : |signed negative v| = |v| := by
  cases negative <;> simp [signed]

theorem valueOf_packed (canonical : Canonical m e) (le : e ≤ maxExponent) :
    valueOf (packed negative m e) = signed negative (m * 2 ^ e) := by
  rw [valueOf, ofFloat_packed canonical le, Binary64.value]

theorem isFinite_packed (canonical : Canonical m e) (le : e ≤ maxExponent) :
    (packed negative m e).isFinite = true := by
  change (packed negative m e).toModel.unpack.isFinite = true
  rw [unpack_packed canonical le, unpacked]
  split <;> rfl

theorem exists_packed (h : x.isFinite = true) :
    ∃ negative m e, Canonical m e ∧ e ≤ maxExponent ∧ x = packed negative m e := by
  have unfolded : (unpack Format.binary64 x.toBits.toBitVec).isFinite = true := h
  cases exact : Binary64.ofFloat x with
  | notANumber =>
    rw [eq_of_notANumber exact] at unfolded
    exact absurd unfolded (by decide)
  | infinite negative =>
    have bits := Binary64.ofBits_eq_infinite x.toBits.toNat_lt exact
    cases negative with
    | false =>
      have infinity : x.toBits.toBitVec = 0x7ff0000000000000#64 := BitVec.eq_of_toNat_eq bits
      rw [infinity] at unfolded
      exact absurd unfolded (by decide)
    | true =>
      have infinity : x.toBits.toBitVec = 0xfff0000000000000#64 := BitVec.eq_of_toNat_eq bits
      rw [infinity] at unfolded
      exact absurd unfolded (by decide)
  | finite negative m e => exact ⟨negative, m, e, eq_packed exact⟩

theorem abs_valueOf_le (h : x.isFinite = true) : |valueOf x| ≤ (2 ^ 53 - 1) * 2 ^ maxExponent := by
  obtain ⟨negative, m, e, canonical, le, rfl⟩ := exists_packed h
  have bits : (m : ℚ) + 1 ≤ 2 ^ 53 := by exact_mod_cast canonical.bits
  rw [valueOf_packed canonical le, abs_signed, abs_of_nonneg (by positivity)]
  exact mul_le_mul (by linarith) (zpow_le_zpow_right₀ (by norm_num) le) (by positivity) (by norm_num)

/-- Finite doubles stand for multiples of the least positive one. -/
theorem exists_valueOf_eq (h : x.isFinite = true) : ∃ k : ℤ, valueOf x = k * 2 ^ (-1074 : ℤ) := by
  obtain ⟨negative, m, e, canonical, le, rfl⟩ := exists_packed h
  obtain ⟨shift, rfl⟩ : ∃ shift : ℕ, e = shift + -1074 := ⟨(e + 1074).toNat, by have := canonical.least; omega⟩
  rw [valueOf_packed canonical le, zpow_add₀ two_ne_zero, zpow_natCast]
  cases negative with
  | false =>
    refine ⟨m * 2 ^ shift, ?_⟩
    simp [signed, mul_assoc]
  | true =>
    refine ⟨-(m * 2 ^ shift), ?_⟩
    simp [signed, mul_assoc]

theorem zero_eq_packed : (0.0 : Float) = packed false 0 (-1074) := by decide +kernel

theorem canonical_zero : Canonical 0 (-1074) := ⟨by norm_num, le_rfl, .inr rfl⟩

theorem isFinite_zero : (0.0 : Float).isFinite = true := by
  rw [zero_eq_packed]
  exact isFinite_packed canonical_zero (by decide)

@[simp] theorem valueOf_zero : valueOf 0.0 = 0 := by
  rw [zero_eq_packed, valueOf_packed canonical_zero (by decide)]
  norm_num [signed]

theorem unpacked_zero (negative : Bool) : unpacked negative 0 (-1074) = .zero (signOf negative) := rfl

/-- Neither zero is below a number that is not positive. -/
theorem packed_zero_lt_iff (zero : Bool) (h : x.isFinite = true) : packed zero 0 (-1074) < x ↔ 0 < valueOf x := by
  obtain ⟨negative, m, e, canonical, le, rfl⟩ := exists_packed h
  have unfolded : packed zero 0 (-1074) < packed negative m e ↔
      UnpackedFloat.lt (packed zero 0 (-1074)).toModel.unpack (packed negative m e).toModel.unpack = true := by
    change decide _ = true ↔ _
    rw [decide_eq_true_iff]
    rfl
  rw [unfolded, unpack_packed canonical_zero (by decide), unpack_packed canonical le, valueOf_packed canonical le,
    unpacked_zero, unpacked]
  by_cases none : m = 0
  · subst none
    cases negative <;> simp [signed, UnpackedFloat.lt, UnpackedFloat.compare]
  · have positive : (0 : ℚ) < m * 2 ^ e := by
      have : (0 : ℚ) < m := by exact_mod_cast Nat.pos_of_ne_zero none
      positivity
    rw [dif_neg none]
    cases negative with
    | false => simpa [signed, signOf, UnpackedFloat.lt, UnpackedFloat.compare] using positive
    | true => simpa [signed, signOf, UnpackedFloat.lt, UnpackedFloat.compare] using positive.le

theorem gt_zero_iff (h : x.isFinite = true) : x > 0.0 ↔ 0 < valueOf x := by
  rw [zero_eq_packed]
  exact packed_zero_lt_iff false h

theorem gt_negative_zero_iff (h : x.isFinite = true) : x > -0.0 ↔ 0 < valueOf x := by
  rw [zero_eq_packed, neg_packed canonical_zero (by decide)]
  exact packed_zero_lt_iff true h

theorem orderKey_packed (canonical : Canonical m e) (le : e ≤ maxExponent) : orderKey (packed negative m e) =
    if negative then -1 - ((e + 1074) * 2 ^ 52 + m) else (e + 1074) * 2 ^ 52 + m := by
  obtain ⟨bits, least, full⟩ := canonical
  have fields : (packed negative m e).toBits.toNat = fieldBits negative m e := toBits_packed ⟨bits, least, full⟩ le
  rw [maxExponent] at le
  rw [orderKey, fields, fieldBits]
  cases negative with
  | false =>
    have small : false.toNat * 2 ^ 63 + (e + 1074).toNat * 2 ^ 52 + m < 1 <<< 63 := by
      rw [Bool.toNat_false, Nat.one_shiftLeft]
      omega
    rw [if_pos small, Bool.toNat_false]
    simp only [Bool.false_eq_true, if_false]
    push_cast
    omega
  | true =>
    have large : ¬ true.toNat * 2 ^ 63 + (e + 1074).toNat * 2 ^ 52 + m < 1 <<< 63 := by
      rw [Bool.toNat_true, Nat.one_shiftLeft]
      omega
    rw [if_neg large, Bool.toNat_true, Nat.one_shiftLeft]
    simp only [if_true]
    push_cast
    omega

/-- A greater magnitude has a greater mantissa or a greater exponent. -/
theorem magnitude_lt (canonical : Canonical m e) (canonical' : Canonical n f) (h : (m : ℚ) * 2 ^ e < n * 2 ^ f) :
    (e + 1074) * 2 ^ 52 + m < (f + 1074) * 2 ^ 52 + n := by
  have bits := canonical.bits
  have bits' := canonical'.bits
  rcases lt_trichotomy e f with less | rfl | greater
  · have full := canonical'.full.resolve_right (by have := canonical.least; omega)
    omega
  · have mantissa : m < n := by
      have unit : (0 : ℚ) < 2 ^ e := by positivity
      exact_mod_cast lt_of_mul_lt_mul_right h unit.le
    omega
  · -- The greater exponent has a mantissa with all its bits, so its magnitude is the greater one.
    have full := canonical.full.resolve_right (by have := canonical'.least; omega)
    obtain ⟨shift, rfl⟩ : ∃ shift : ℕ, e = f + (shift + 1 : ℕ) := ⟨(e - f - 1).toNat, by omega⟩
    rw [zpow_add₀ two_ne_zero, ← mul_assoc, mul_right_comm, zpow_natCast] at h
    have unit : (0 : ℚ) < 2 ^ f := by positivity
    have scaled : m * 2 ^ (shift + 1) < n := by exact_mod_cast lt_of_mul_lt_mul_right h unit.le
    have one := Nat.one_le_two_pow (n := shift)
    rw [pow_succ] at scaled
    nlinarith

/-- The total order puts finite doubles in the order of their numbers. -/
theorem orderKey_lt_of_valueOf_lt (hx : x.isFinite = true) (hy : y.isFinite = true) (h : valueOf x < valueOf y) :
    orderKey x < orderKey y := by
  obtain ⟨negative, m, e, canonical, le, rfl⟩ := exists_packed hx
  obtain ⟨negative', n, f, canonical', le', rfl⟩ := exists_packed hy
  rw [valueOf_packed canonical le, valueOf_packed canonical' le'] at h
  rw [orderKey_packed canonical le, orderKey_packed canonical' le']
  have least := canonical.least
  have least' := canonical'.least
  have nonneg : (0 : ℚ) ≤ m * 2 ^ e := by positivity
  have nonneg' : (0 : ℚ) ≤ n * 2 ^ f := by positivity
  cases negative <;> cases negative' <;> simp only [signed, Bool.false_eq_true, if_true, if_false] at h ⊢
  case false.false => exact magnitude_lt canonical canonical' h
  case false.true => linarith
  case true.false => omega
  case true.true =>
    have := magnitude_lt canonical' canonical (neg_lt_neg_iff.mp h)
    omega

end EncounterTimeline.Decimal

import EncounterTimeline.Proofs.Decimal.Scientific
import EncounterTimeline.Proofs.Decimal.Sums

/-! # Negative zero

A sum is negative zero only if both of its summands are, so adding zero changes no other double.
-/
namespace EncounterTimeline.Decimal

open Float.Model (Format UnpackedFloat)
open Float.Model.UnpackedFloat

variable {x y : Float} {negative negative' : Bool} {m n : ℕ} {e f : ℤ}

theorem negative_zero_eq_packed : (-0.0 : Float) = packed true 0 (-1074) := by decide +kernel

theorem isFinite_negative_zero : (-0.0 : Float).isFinite = true := by
  rw [negative_zero_eq_packed]
  exact isFinite_packed canonical_zero (by decide)

def infinity (negative : Bool) : Float := .ofModel (.pack (.infinity (signOf negative)))

theorem unpack_infinity (negative : Bool) : (infinity negative).toModel.unpack = .infinity (signOf negative) := by
  cases negative <;> rfl

theorem isFinite_infinity (negative : Bool) : (infinity negative).isFinite = false := by
  change (infinity negative).toModel.unpack.isFinite = false
  rw [unpack_infinity]
  rfl

/-- What is packed with too great an exponent is infinite. -/
theorem packed_of_large (canonical : Canonical m e) (large : maxExponent < e) :
    packed negative m e = infinity negative := by
  rw [maxExponent] at large
  have some : m ≠ 0 := by
    have := canonical.full.resolve_right (by omega)
    omega
  have beyond : 2 ^ Format.binary64.exponentBits ≤
      (e + Format.binary64.exponentBias + Format.binary64.mantissaBitsWithoutImplicit).toNat + 1 := by
    change 2 ^ 11 ≤ (e + 1023 + 52).toNat + 1
    omega
  have bits : pack Format.binary64 (unpacked negative m e) = pack Format.binary64 (.infinity (signOf negative)) := by
    rw [unpacked, dif_neg some, pack, pack]
    exact if_pos beyond
  exact float_ext (congrArg BitVec.toNat bits)

theorem le_maxExponent_of_isFinite (canonical : Canonical m e) (finite : (packed negative m e).isFinite = true) :
    e ≤ maxExponent := by
  by_contra large
  rw [packed_of_large canonical (not_le.mp large), isFinite_infinity] at finite
  cases finite

theorem isFinite_of_unpacked_add {u v : UnpackedFloat} (h : (add Format.binary64 u v).isFinite = true) :
    u.isFinite = true ∧ v.isFinite = true := by
  cases u with
  | notANumber => cases h
  | infinity sign =>
    cases v with
    | infinity sign' => cases sign <;> cases sign' <;> cases h
    | _ => cases h
  | zero => cases v <;> first | exact ⟨rfl, rfl⟩ | cases h
  | finite => cases v <;> first | exact ⟨rfl, rfl⟩ | cases h

theorem isFinite_of_packed {u : UnpackedFloat} (h : (Float.ofModel (.pack u)).isFinite = true) : u.isFinite = true := by
  cases u with
  | notANumber => cases h
  | infinity sign =>
    have infinite := isFinite_infinity (sign == .negative)
    cases sign <;> exact absurd h (Bool.eq_false_iff.mp infinite)
  | zero | finite => rfl

/-- Only finite doubles have a finite sum. -/
theorem isFinite_of_add (h : (x + y).isFinite = true) : x.isFinite = true ∧ y.isFinite = true :=
  isFinite_of_unpacked_add (isFinite_of_packed h)

/-- Rounding takes no sum of doubles to zero: what has the sum zero cancels exactly. -/
theorem valueOf_add_of_negative_zero (h : x + y = -0.0) : valueOf x + valueOf y = 0 := by
  have finite : (x + y).isFinite = true := h ▸ isFinite_negative_zero
  obtain ⟨hx, hy⟩ := isFinite_of_add finite
  obtain ⟨negative, m, e, canonical, nearest, -, exact⟩ := add_closest hx hy
  rw [exact] at h finite
  have le := le_maxExponent_of_isFinite canonical finite
  have parts : Binary64.ofFloat (packed negative m e) = .finite negative m e := ofFloat_packed canonical le
  rw [h, negative_zero_eq_packed, ofFloat_packed canonical_zero (by decide)] at parts
  cases parts
  obtain ⟨k, hk⟩ := exists_valueOf_eq hx
  obtain ⟨l, hl⟩ := exists_valueOf_eq hy
  have multiple : valueOf x + valueOf y = ((k + l : ℤ) : ℚ) * 2 ^ (-1074 : ℤ) := by
    rw [hk, hl, Int.cast_add, add_mul]
  have unit : (0 : ℚ) < 2 ^ (-1074 : ℤ) := by positivity
  have high := nearest.high
  rw [multiple, abs_mul, abs_of_pos unit, mul_div_cancel_right₀ _ unit.ne'] at high
  have small : |((k + l : ℤ) : ℚ)| < 1 := by
    norm_num at high ⊢
    linarith
  have none : k + l = 0 := by
    rw [← Int.cast_abs] at small
    exact Int.abs_lt_one_iff.mp (by exact_mod_cast small)
  rw [multiple, none, Int.cast_zero, zero_mul]

theorem packed_false_ne_negative_zero (canonical : Canonical m e) : packed false m e ≠ -0.0 := by
  intro h
  have le := le_maxExponent_of_isFinite canonical (h ▸ isFinite_negative_zero)
  have parts : Binary64.ofFloat (packed false m e) = .finite false m e := ofFloat_packed canonical le
  rw [h, negative_zero_eq_packed, ofFloat_packed canonical_zero (by decide)] at parts
  cases parts

/-- What cancels exactly leaves positive zero. -/
theorem packed_add_opposite (canonical : Canonical m e) (le : e ≤ maxExponent) (some : m ≠ 0) :
    packed negative m e + packed (!negative) m e = 0.0 := by
  have unfolded : packed negative m e + packed (!negative) m e = .ofModel (.pack (add Format.binary64
      (packed negative m e).toModel.unpack (packed (!negative) m e).toModel.unpack)) := rfl
  have cancel (k : ℕ) : (signOf negative).apply k + (signOf !negative).apply k = 0 := by
    cases negative <;> simp [signOf, Sign.apply]
  have zero : UnpackedFloat.normalize Format.binary64 0 (min e e) .positive = .zero .positive := rfl
  rw [unfolded, unpack_packed canonical le, unpack_packed canonical le, unpacked, unpacked, dif_neg some, dif_neg some,
    add]
  simp only [cancel, zero]
  rfl

/-- A sum is negative zero only if both summands are. -/
theorem eq_negative_zero_of_add (h : x + y = -0.0) : x = -0.0 ∧ y = -0.0 := by
  have cancel := valueOf_add_of_negative_zero h
  obtain ⟨hx, hy⟩ := isFinite_of_add (h ▸ isFinite_negative_zero)
  obtain ⟨negative, m, e, canonical, le, rfl⟩ := exists_packed hx
  obtain ⟨negative', n, f, canonical', le', rfl⟩ := exists_packed hy
  rw [valueOf_packed canonical le, valueOf_packed canonical' le'] at cancel
  have magnitude : (m : ℚ) * 2 ^ e = n * 2 ^ f := by
    have sizes := congrArg (fun v : ℚ => |v|) (eq_neg_of_add_eq_zero_left cancel)
    rwa [abs_neg, abs_signed, abs_signed, abs_of_nonneg (by positivity), abs_of_nonneg (by positivity)] at sizes
  obtain ⟨rfl, rfl⟩ := (nearest_self m e).unique canonical canonical' (magnitude ▸ nearest_self n f)
  by_cases none : m = 0
  · have least : e = -1074 := canonical.full.resolve_left (by omega)
    subst none least
    revert h
    cases negative <;> cases negative' <;> decide +kernel
  · have unit : (0 : ℚ) < m * 2 ^ e := by positivity
    have opposite : negative' = !negative := by
      cases negative <;> cases negative' <;> simp only [signed, Bool.false_eq_true, if_true, if_false] at cancel <;>
        first | rfl | linarith
    rw [opposite, packed_add_opposite canonical le none, zero_eq_packed] at h
    exact (packed_false_ne_negative_zero canonical_zero h).elim

theorem add_zero_of_ne (finite : x.isFinite = true) (h : x ≠ -0.0) : x + 0.0 = x := by
  obtain ⟨negative, m, e, canonical, le, rfl⟩ := exists_packed finite
  have unfolded : packed negative m e + 0.0 = .ofModel (.pack (add Format.binary64
      (packed negative m e).toModel.unpack (0.0 : Float).toModel.unpack)) := rfl
  by_cases none : m = 0
  · have least : e = -1074 := canonical.full.resolve_left (by omega)
    subst none least
    cases negative with
    | false => decide +kernel
    | true => exact absurd negative_zero_eq_packed.symm h
  · rw [unfolded, zero_eq_packed, unpack_packed canonical le, unpack_packed canonical_zero (by decide), unpacked_zero,
      packed, unpacked, dif_neg none]
    rfl

theorem toFloat_ne_negative_zero (n : ℕ) : n.toFloat ≠ -0.0 := by
  rcases Nat.eq_zero_or_pos n with rfl | positive
  · decide +kernel
  · obtain ⟨m, e, canonical, -, exact⟩ := rounded_ofScientific positive (Nat.zero_le 2048)
    have counted : n.toFloat = packed false m e := exact
    rw [counted]
    exact packed_false_ne_negative_zero canonical

end EncounterTimeline.Decimal

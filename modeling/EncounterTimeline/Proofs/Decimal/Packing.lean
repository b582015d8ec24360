import EncounterTimeline.Decimal.Binary64
import Mathlib

/-! # Doubles and their bits

A finite double is a canonical mantissa and exponent: its bits are a sum of the three fields, float arithmetic unpacks
it to that mantissa and exponent and packs them into it again.
-/
namespace EncounterTimeline.Decimal

open Float.Model (Format UnpackedFloat)
open Float.Model.UnpackedFloat

structure Canonical (m : ℕ) (e : ℤ) : Prop where
  bits : m < 2 ^ 53
  least : -1074 ≤ e
  full : 2 ^ 52 ≤ m ∨ e = -1074

def maxExponent : ℤ := 971

def signOf (negative : Bool) : Sign := if negative then .negative else .positive

def unpacked (negative : Bool) (m : ℕ) (e : ℤ) : UnpackedFloat :=
  if h : m = 0 then .zero (signOf negative) else .finite (signOf negative) m e (Nat.pos_of_ne_zero h)

def packed (negative : Bool) (m : ℕ) (e : ℤ) : Float := .ofModel (.pack (unpacked negative m e))

/-- The bits of a finite double: a mantissa that uses all its bits carries into the exponent. -/
def fieldBits (negative : Bool) (m : ℕ) (e : ℤ) : ℕ := negative.toNat * 2 ^ 63 + (e + 1074).toNat * 2 ^ 52 + m

variable {negative : Bool} {m : ℕ} {e : ℤ}

namespace Binary64

/-- Cutting bits into fields, each given by a number within its range. -/
theorem ofBits_fields {exponent fraction : ℕ} (fits : exponent < 2048) (small : fraction < 2 ^ 52) :
    ofBits (negative.toNat * 2 ^ 63 + exponent * 2 ^ 52 + fraction) =
      if exponent = 2047 then if fraction = 0 then .infinite negative else .notANumber
      else if exponent = 0 then .finite negative fraction (-1074)
      else .finite negative (2 ^ 52 + fraction) (exponent - 1075) := by
  have sign : negative.toNat < 2 := Bool.toNat_lt negative
  have signField : (negative.toNat * 2 ^ 63 + exponent * 2 ^ 52 + fraction) / 2 ^ 63 % 2 = negative.toNat := by omega
  have exponentField : (negative.toNat * 2 ^ 63 + exponent * 2 ^ 52 + fraction) / 2 ^ 52 % 2048 = exponent := by omega
  have fractionField : (negative.toNat * 2 ^ 63 + exponent * 2 ^ 52 + fraction) % 2 ^ 52 = fraction := by omega
  have signBit : (negative.toNat == 1) = negative := by cases negative <;> rfl
  simp only [ofBits, Nat.shiftRight_eq_div_pow, Nat.shiftLeft_eq, Nat.one_mul, signField, exponentField,
    fractionField, signBit, beq_iff_eq]

theorem exists_fields {n : ℕ} (fits : n < 2 ^ 64) : ∃ (negative : Bool) (exponent fraction : ℕ),
    exponent < 2048 ∧ fraction < 2 ^ 52 ∧ n = negative.toNat * 2 ^ 63 + exponent * 2 ^ 52 + fraction := by
  by_cases negative : 2 ^ 63 ≤ n
  · refine ⟨true, n / 2 ^ 52 % 2048, n % 2 ^ 52, by omega, by omega, ?_⟩
    rw [Bool.toNat_true]
    omega
  · refine ⟨false, n / 2 ^ 52 % 2048, n % 2 ^ 52, by omega, by omega, ?_⟩
    rw [Bool.toNat_false]
    omega

theorem ofBits_fieldBits (h : Canonical m e) (le : e ≤ maxExponent) :
    ofBits (fieldBits negative m e) = .finite negative m e := by
  obtain ⟨bits, least, full⟩ := h
  rw [maxExponent] at le
  obtain ⟨k, rfl⟩ : ∃ k : ℕ, e = k - 1074 := ⟨(e + 1074).toNat, by omega⟩
  rw [fieldBits, Int.sub_add_cancel, Int.toNat_natCast]
  by_cases normal : 2 ^ 52 ≤ m
  · have carried : negative.toNat * 2 ^ 63 + k * 2 ^ 52 + m =
        negative.toNat * 2 ^ 63 + (k + 1) * 2 ^ 52 + (m - 2 ^ 52) := by omega
    have exponent : ((k + 1 : ℕ) : ℤ) - 1075 = k - 1074 := by omega
    rw [carried, ofBits_fields (by omega) (by omega), if_neg (by omega), if_neg (Nat.succ_ne_zero k),
      Nat.add_sub_cancel' normal, exponent]
  · have zero : k = 0 := by omega
    rw [zero, ofBits_fields (by omega) (by omega), if_neg (by omega), if_pos rfl]
    rfl

theorem ofBits_eq_infinite {n : ℕ} (fits : n < 2 ^ 64) (h : ofBits n = .infinite negative) :
    n = negative.toNat * 2 ^ 63 + 2047 * 2 ^ 52 := by
  obtain ⟨sign, exponent, fraction, within, small, rfl⟩ := exists_fields fits
  rw [ofBits_fields within small] at h
  split at h
  · split at h
    · cases h
      simp [*]
    · cases h
  · split at h <;> cases h

theorem ofBits_eq_notANumber {n : ℕ} (fits : n < 2 ^ 64) (h : ofBits n = .notANumber) :
    n / 2 ^ 52 % 2 ^ 11 = 2047 ∧ n % 2 ^ 52 ≠ 0 := by
  obtain ⟨sign, exponent, fraction, within, small, rfl⟩ := exists_fields fits
  rw [ofBits_fields within small] at h
  split at h
  · split at h
    · cases h
    · have signs : sign.toNat < 2 := Bool.toNat_lt sign
      omega
  · split at h <;> cases h

/-- What is finite has a canonical mantissa and exponent, and bits that are made of them. -/
theorem ofBits_eq_finite {n : ℕ} (fits : n < 2 ^ 64) (h : ofBits n = .finite negative m e) :
    Canonical m e ∧ e ≤ maxExponent ∧ n = fieldBits negative m e := by
  obtain ⟨sign, exponent, fraction, within, small, rfl⟩ := exists_fields fits
  rw [ofBits_fields within small] at h
  split at h
  · split at h <;> cases h
  · split at h
    · obtain ⟨rfl, rfl, rfl⟩ := Binary64.finite.inj h
      refine ⟨⟨by omega, by omega, .inr rfl⟩, by decide, ?_⟩
      simp [fieldBits, *]
    · obtain ⟨rfl, rfl, rfl⟩ := Binary64.finite.inj h
      refine ⟨⟨by omega, by omega, .inl (by omega)⟩, by rw [maxExponent]; omega, ?_⟩
      rw [fieldBits]
      omega

theorem ratio_eq (m : ℕ) (e : ℤ) : ((ratio m e).1 : ℚ) / (ratio m e).2 = m * 2 ^ e := by
  cases e with
  | ofNat k => simp [ratio, Nat.shiftLeft_eq]
  | negSucc k => simp [ratio, Nat.shiftLeft_eq, zpow_negSucc, div_eq_mul_inv]

end Binary64

theorem toNat_packComponents (exponent : BitVec 11) (fraction : BitVec 52) :
    (packComponents Format.binary64 (signOf negative) exponent fraction).toNat =
      negative.toNat * 2 ^ 63 + exponent.toNat * 2 ^ 52 + fraction.toNat := by
  have sign : (signOf negative).toBitVec.toNat = negative.toNat := by cases negative <;> rfl
  have appended : (packComponents Format.binary64 (signOf negative) exponent fraction).toNat =
      ((signOf negative).toBitVec ++ exponent ++ fraction).toNat := rfl
  rw [appended, BitVec.toNat_append, BitVec.toNat_append, ← Nat.shiftLeft_add_eq_or_of_lt exponent.isLt,
    ← Nat.shiftLeft_add_eq_or_of_lt fraction.isLt, Nat.shiftLeft_eq, Nat.shiftLeft_eq, sign]
  omega

theorem toNat_pack (h : Canonical m e) (le : e ≤ maxExponent) :
    (pack Format.binary64 (unpacked negative m e)).toNat = fieldBits negative m e := by
  obtain ⟨bits, least, full⟩ := h
  rw [maxExponent] at le
  by_cases zero : m = 0
  · have exponent : e = -1074 := by omega
    rw [unpacked, dif_pos zero, zero, exponent]
    cases negative <;> rfl
  · rw [unpacked, dif_neg zero, pack]
    have bias : e + Format.binary64.exponentBias + Format.binary64.mantissaBitsWithoutImplicit = e + 1075 := by
      change e + 1023 + 52 = e + 1075
      omega
    have small : ¬ 2 ^ Format.binary64.exponentBits ≤ (e + 1075).toNat + 1 := by
      change ¬ 2 ^ 11 ≤ (e + 1075).toNat + 1
      omega
    have width : Format.binary64.mantissaBits = 53 := rfl
    simp only [bias, small, if_false, width]
    by_cases normal : 2 ^ 52 ≤ m
    · have log : m.log2 = 52 := (Nat.log2_eq_iff zero).mpr ⟨normal, bits⟩
      rw [if_pos (by omega), toNat_packComponents, BitVec.toNat_ofNat, BitVec.toNat_ofNat, fieldBits]
      omega
    · have log : m.log2 < 52 := (Nat.log2_lt zero).mpr (by omega)
      rw [if_neg (by omega), toNat_packComponents, BitVec.toNat_ofNat, fieldBits]
      simp
      omega

theorem toNat_unpackMantissa (b : BitVec 64) : (@unpackMantissa Format.binary64 b).toNat = b.toNat % 2 ^ 52 := by
  simp [unpackMantissa]

theorem toNat_unpackExponent (b : BitVec 64) :
    (@unpackExponent Format.binary64 b).toNat = b.toNat / 2 ^ 52 % 2 ^ 11 := by
  simp [unpackExponent, Nat.shiftRight_eq_div_pow]

theorem ofBitVec_unpackSign {b : BitVec 64} (bit : b.toNat / 2 ^ 63 = negative.toNat) :
    Sign.ofBitVec (@unpackSign Format.binary64 b) = signOf negative := by
  have field : (@unpackSign Format.binary64 b).toNat = b.toNat / 2 ^ 63 % 2 := by
    simp [unpackSign, Nat.shiftRight_eq_div_pow]
  have value : @unpackSign Format.binary64 b = BitVec.ofNat 1 negative.toNat := by
    rw [← BitVec.toNat_inj, BitVec.toNat_ofNat]
    omega
  rw [value]
  cases negative <;> rfl

/-- A normal number has one more bit than its field. -/
theorem toNat_implicit (fraction : BitVec 52) : (1#1 ++ fraction).toNat = 2 ^ 52 + fraction.toNat := by
  rw [BitVec.toNat_append, ← Nat.shiftLeft_add_eq_or_of_lt fraction.isLt]
  rfl

theorem unpack_eq {b : BitVec 64} (h : Canonical m e) (le : e ≤ maxExponent) (bits : b.toNat = fieldBits negative m e) :
    unpack Format.binary64 b = unpacked negative m e := by
  obtain ⟨small, least, full⟩ := h
  rw [maxExponent] at le
  rw [fieldBits] at bits
  have sign : negative.toNat < 2 := Bool.toNat_lt negative
  have fraction : (@unpackMantissa Format.binary64 b).toNat = m % 2 ^ 52 := by
    rw [toNat_unpackMantissa]
    omega
  have exponent : (@unpackExponent Format.binary64 b).toNat = (e + 1074).toNat + m / 2 ^ 52 := by
    rw [toNat_unpackExponent]
    omega
  have signed : Sign.ofBitVec (@unpackSign Format.binary64 b) = signOf negative := ofBitVec_unpackSign (by omega)
  have finite : @unpackExponent Format.binary64 b ≠ -1#_ := by
    intro infinite
    have top : (@unpackExponent Format.binary64 b).toNat = 2047 := congrArg BitVec.toNat infinite
    omega
  have bias : (Format.binary64.exponentBias : ℤ) + Format.binary64.mantissaBitsWithoutImplicit = 1075 := rfl
  rw [unpack]
  simp only [if_neg finite, signed, bias]
  by_cases normal : 2 ^ 52 ≤ m
  · have some : @unpackExponent Format.binary64 b ≠ 0#_ := by
      intro subnormal
      have zero : (@unpackExponent Format.binary64 b).toNat = 0 := congrArg BitVec.toNat subnormal
      omega
    have implicit : (1#1 ++ @unpackMantissa Format.binary64 b).toNat = m := by
      have appended := toNat_implicit (@unpackMantissa Format.binary64 b)
      omega
    have shifted : ((@unpackExponent Format.binary64 b).toNat : ℤ) - 1075 = e := by omega
    simp only [if_neg some, implicit, shifted, unpacked, dif_neg (show m ≠ 0 by omega)]
  · have zero : @unpackExponent Format.binary64 b = 0#_ := by
      refine BitVec.eq_of_toNat_eq (exponent.trans ?_)
      change (e + 1074).toNat + m / 2 ^ 52 = 0
      omega
    have shifted : ((@unpackExponent Format.binary64 b).toNat : ℤ) - 1075 + 1 = e := by omega
    have value : (@unpackMantissa Format.binary64 b).toNat = m := by omega
    have none : @unpackMantissa Format.binary64 b = 0#_ ↔ m = 0 := by
      rw [← BitVec.toNat_inj, value]
      rfl
    simp only [if_pos zero, shifted, value, none, unpacked]

theorem float_ext {x y : Float} (h : x.toBits.toNat = y.toBits.toNat) : x = y := by
  obtain ⟨⟨xBits, xValid⟩⟩ := x
  obtain ⟨⟨yBits, yValid⟩⟩ := y
  have bits : xBits = yBits := UInt64.toNat_inj.mp h
  subst bits
  rfl

theorem toBits_packed (h : Canonical m e) (le : e ≤ maxExponent) :
    (packed negative m e).toBits.toNat = fieldBits negative m e := toNat_pack h le

theorem ofFloat_packed (h : Canonical m e) (le : e ≤ maxExponent) :
    Binary64.ofFloat (packed negative m e) = .finite negative m e := by
  rw [Binary64.ofFloat, toBits_packed h le, Binary64.ofBits_fieldBits h le]

theorem unpack_packed (h : Canonical m e) (le : e ≤ maxExponent) :
    (packed negative m e).toModel.unpack = unpacked negative m e := unpack_eq h le (toBits_packed h le)

theorem neg_packed_not (h : Canonical m e) (le : e ≤ maxExponent) : -packed negative m e = packed (!negative) m e := by
  have unfolded : -packed negative m e = .ofModel (.pack (packed negative m e).toModel.unpack.neg) := rfl
  rw [unfolded, unpack_packed h le, packed, unpacked, unpacked]
  cases negative <;> split <;> rfl

theorem neg_packed (h : Canonical m e) (le : e ≤ maxExponent) : -packed false m e = packed true m e :=
  neg_packed_not h le

/-- A double whose exact value is finite is made of it. -/
theorem eq_packed {x : Float} (h : Binary64.ofFloat x = .finite negative m e) :
    Canonical m e ∧ e ≤ maxExponent ∧ x = packed negative m e := by
  obtain ⟨canonical, le, bits⟩ := Binary64.ofBits_eq_finite x.toBits.toNat_lt h
  refine ⟨canonical, le, float_ext ?_⟩
  rw [bits, toBits_packed canonical le]

/-- There is one double that is no number. -/
theorem eq_of_notANumber {x : Float} (h : Binary64.ofFloat x = .notANumber) :
    x.toBits.toBitVec = packedNaN Format.binary64 := by
  obtain ⟨exponent, fraction⟩ := Binary64.ofBits_eq_notANumber x.toBits.toNat_lt h
  refine x.toModel.valid.eq_packedNaN ?_ ?_
  · exact BitVec.eq_of_toNat_eq ((toNat_unpackExponent _).trans exponent)
  · intro zero
    exact fraction ((toNat_unpackMantissa _).symm.trans (congrArg BitVec.toNat zero))

theorem ofFloat_injective {x y : Float} (h : Binary64.ofFloat x = Binary64.ofFloat y) : x = y := by
  cases exact : Binary64.ofFloat y with
  | notANumber =>
    have bits : x.toBits.toBitVec = y.toBits.toBitVec :=
      (eq_of_notANumber (h.trans exact)).trans (eq_of_notANumber exact).symm
    exact float_ext (congrArg BitVec.toNat bits)
  | infinite negative =>
    exact float_ext ((Binary64.ofBits_eq_infinite x.toBits.toNat_lt (h.trans exact)).trans
      (Binary64.ofBits_eq_infinite y.toBits.toNat_lt exact).symm)
  | finite negative m e => exact (eq_packed (h.trans exact)).2.2.trans (eq_packed exact).2.2.symm

end EncounterTimeline.Decimal

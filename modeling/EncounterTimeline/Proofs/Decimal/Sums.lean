import EncounterTimeline.Proofs.Decimal.Arithmetic
import EncounterTimeline.Proofs.Decimal.Value

/-! # Sums and differences

The sum and the difference of finite doubles are the doubles nearest to the exact ones. What is representable comes out
exactly, the sign is always right, and only what is out of range of all doubles is not finite.
-/
namespace EncounterTimeline.Decimal

open Float.Model (Format UnpackedFloat totalExponent)
open Float.Model.UnpackedFloat

def Closest (x : Float) (v : ℚ) : Prop :=
  ∃ negative m e, Canonical m e ∧ Nearest |v| m e ∧ v = signed negative |v| ∧ x = packed negative m e

/-- Half a unit beyond the greatest double; from there on numbers round to infinity. -/
def limit : ℚ := (2 ^ 54 - 1) * 2 ^ (970 : ℤ)

variable {x y : Float} {negative negative' : Bool} {m n : ℕ} {e f : ℤ} {v : ℚ}

theorem eq_signed_abs (h : 0 ≤ v) : v = signed false |v| := (abs_of_nonneg h).symm

theorem eq_signed_abs_of_nonpos (h : v ≤ 0) : v = signed true |v| := by
  rw [signed, if_pos rfl, abs_of_nonpos h, neg_neg]

theorem signed_eq_signed_abs (negative : Bool) (h : 0 ≤ v) : signed negative v = signed negative |signed negative v| := by
  rw [abs_signed, abs_of_nonneg h]

theorem two_zpow_maxExponent : (2 : ℚ) ^ maxExponent = 2 ^ (970 : ℤ) * 2 := by
  rw [maxExponent, show (971 : ℤ) = 970 + 1 by rfl, zpow_add_one₀ two_ne_zero]

/-- A number of moderate size does not take a double out of range. -/
theorem abs_add_lt_limit (h : x.isFinite = true) (moderate : |v| ≤ 2 ^ 80) : |valueOf x + v| < limit := by
  have le := abs_valueOf_le h
  have triangle := abs_add_le (valueOf x) v
  have large : (2 : ℚ) ^ (80 : ℤ) < 2 ^ (970 : ℤ) := zpow_lt_zpow_right₀ (by norm_num) (by norm_num)
  rw [two_zpow_maxExponent] at le
  rw [limit]
  generalize (2 : ℚ) ^ (970 : ℤ) = scale at *
  norm_num at large moderate
  linarith

theorem abs_sub_lt_limit (h : x.isFinite = true) (moderate : |v| ≤ 2 ^ 80) : |valueOf x - v| < limit := by
  rw [sub_eq_add_neg]
  exact abs_add_lt_limit h (by rwa [abs_neg])

theorem abs_valueOf_lt_limit (h : x.isFinite = true) : |valueOf x| < limit := by
  rw [← add_zero (valueOf x)]
  exact abs_add_lt_limit h (by norm_num)

theorem abs_lt_limit (moderate : |v| ≤ 2 ^ 80) : |v| < limit := by
  have within := abs_add_lt_limit isFinite_zero moderate
  rwa [valueOf_zero, zero_add] at within

theorem log2_shiftLeft (positive : 0 < m) (k : ℕ) : (m <<< k).log2 = m.log2 + k := by
  have some : m <<< k ≠ 0 := by
    rw [Nat.shiftLeft_eq]
    positivity
  rw [Nat.log2_eq_iff some, Nat.shiftLeft_eq, pow_add, Nat.add_right_comm, pow_add]
  exact ⟨Nat.mul_le_mul_right _ (Nat.log2_self_le positive.ne'),
    Nat.mul_lt_mul_of_pos_right Nat.lt_log2_self (Nat.two_pow_pos k)⟩

theorem round_nearest (negative : Bool) (positive : 0 < m) (e : ℤ) :
    ∃ n f, Canonical n f ∧ Nearest (m * 2 ^ e) n f ∧
      UnpackedFloat.round Format.binary64 (signOf negative) m e = unpacked negative n f := by
  obtain ⟨k, shift⟩ : ∃ k : ℕ, k = (e - target m e).toNat := ⟨_, rfl⟩
  have same : target (m <<< k) (e - k) = target m e := by
    rw [target, target, log2_shiftLeft positive]
    omega
  obtain ⟨n, f, canonical, nearest, rounded⟩ :=
    roundWithAccuracy_nearest negative (tracks_exact (m <<< k)) (show e - k ≤ target (m <<< k) (e - k) by omega)
  have value : ((m <<< k : ℕ) : ℚ) * 2 ^ (e - k) = m * 2 ^ e := by
    rw [Nat.shiftLeft_eq, zpow_sub₀ two_ne_zero, zpow_natCast]
    push_cast
    field_simp
  refine ⟨n, f, canonical, value ▸ nearest, ?_⟩
  rw [UnpackedFloat.round, decreaseExponent, targetExponent_eq, ← shift]
  exact rounded

theorem closest_zero (negative : Bool) : Closest (.ofModel (.pack (.zero (signOf negative)))) 0 :=
  ⟨negative, 0, -1074, canonical_zero, by simpa using nearest_self 0 (-1074), by simp [signed], rfl⟩

theorem normalize_closest (k e : ℤ) :
    Closest (.ofModel (.pack (UnpackedFloat.normalize Format.binary64 k e .positive))) (k * 2 ^ e) := by
  have unit : (0 : ℚ) < 2 ^ e := by positivity
  unfold UnpackedFloat.normalize
  rcases lt_trichotomy k 0 with below | rfl | above
  · obtain ⟨n, f, canonical, nearest, rounded⟩ := round_nearest true (m := (-k).toNat) (by omega) e
    have magnitude : ((-k).toNat : ℚ) = -k := by
      have : ((-k).toNat : ℤ) = -k := by omega
      exact_mod_cast this
    have nonpos : (k : ℚ) * 2 ^ e ≤ 0 := mul_nonpos_of_nonpos_of_nonneg (by exact_mod_cast below.le) unit.le
    refine ⟨true, n, f, canonical, ?_, eq_signed_abs_of_nonpos nonpos, ?_⟩
    · rw [abs_of_nonpos nonpos, ← neg_mul, ← magnitude]
      exact nearest
    · rw [Int.compare_eq_lt.mpr below]
      exact congrArg (fun u => Float.ofModel (.pack u)) rounded
  · rw [Int.cast_zero, zero_mul]
    exact closest_zero false
  · obtain ⟨n, f, canonical, nearest, rounded⟩ := round_nearest false (m := k.toNat) (by omega) e
    have magnitude : (k.toNat : ℚ) = k := by
      have : (k.toNat : ℤ) = k := by omega
      exact_mod_cast this
    have nonneg : 0 ≤ (k : ℚ) * 2 ^ e := mul_nonneg (by exact_mod_cast above.le) unit.le
    refine ⟨false, n, f, canonical, ?_, eq_signed_abs nonneg, ?_⟩
    · rw [abs_of_nonneg nonneg, ← magnitude]
      exact nearest
    · rw [Int.compare_eq_gt.mpr above]
      exact congrArg (fun u => Float.ofModel (.pack u)) rounded

theorem closest_packed (negative : Bool) (canonical : Canonical m e) :
    Closest (packed negative m e) (signed negative (m * 2 ^ e)) := by
  have nonneg : (0 : ℚ) ≤ m * 2 ^ e := by positivity
  refine ⟨negative, m, e, canonical, ?_, signed_eq_signed_abs negative nonneg, rfl⟩
  rw [abs_signed, abs_of_nonneg nonneg]
  exact nearest_self m e

theorem apply_signOf (negative : Bool) (k : ℕ) : (((signOf negative).apply k : ℤ) : ℚ) = signed negative k := by
  cases negative <;> simp [signOf, Sign.apply, signed]

theorem signed_mul (negative : Bool) (v w : ℚ) : signed negative (v * w) = signed negative v * w := by
  cases negative <;> simp [signed]

/-- Both mantissas are brought to the smaller exponent. -/
theorem finite_add_closest (hm : 0 < m) (hn : 0 < n) :
    Closest (.ofModel (.pack (add Format.binary64 (.finite (signOf negative) m e hm) (.finite (signOf negative') n f hn))))
      (signed negative (m * 2 ^ e) + signed negative' (n * 2 ^ f)) := by
  have scaled (k : ℕ) (g : ℤ) (le : min e f ≤ g) :
      ((k <<< (g - min e f).toNat : ℕ) : ℚ) * 2 ^ min e f = k * 2 ^ g := by
    obtain ⟨shift, rfl⟩ : ∃ shift : ℕ, g = shift + min e f := ⟨(g - min e f).toNat, by omega⟩
    rw [add_sub_cancel_right, Int.toNat_natCast, Nat.shiftLeft_eq, zpow_add₀ two_ne_zero, zpow_natCast]
    push_cast
    ring
  have sum := normalize_closest ((signOf negative).apply (m <<< (e - min e f).toNat : ℕ) +
    (signOf negative').apply (n <<< (f - min e f).toNat : ℕ)) (min e f)
  rw [Int.cast_add, apply_signOf, apply_signOf, add_mul, ← signed_mul, ← signed_mul,
    scaled m e (min_le_left e f), scaled n f (min_le_right e f)] at sum
  exact sum

theorem add_zero_zero (negative negative' : Bool) :
    add Format.binary64 (.zero (signOf negative)) (.zero (signOf negative')) = .zero (signOf (negative && negative')) := by
  cases negative <;> cases negative' <;> rfl

theorem add_packed_closest (canonical : Canonical m e) (le : e ≤ maxExponent) (canonical' : Canonical n f)
    (le' : f ≤ maxExponent) : Closest (packed negative m e + packed negative' n f)
      (signed negative (m * 2 ^ e) + signed negative' (n * 2 ^ f)) := by
  have unfolded : packed negative m e + packed negative' n f = .ofModel (.pack (add Format.binary64
      (packed negative m e).toModel.unpack (packed negative' n f).toModel.unpack)) := rfl
  have own := closest_packed negative canonical
  have own' := closest_packed negative' canonical'
  have none (negative : Bool) (e : ℤ) : signed negative ((0 : ℕ) * 2 ^ e) = 0 := by simp [signed]
  rw [unfolded, unpack_packed canonical le, unpack_packed canonical' le']
  rw [packed, unpacked] at own own'
  rw [unpacked, unpacked]
  by_cases hm : m = 0
  · subst hm
    rw [dif_pos rfl, none, zero_add]
    by_cases hn : n = 0
    · subst hn
      rw [dif_pos rfl, none, add_zero_zero]
      exact closest_zero _
    · rw [dif_neg hn] at own' ⊢
      exact own'
  · rw [dif_neg hm] at own ⊢
    by_cases hn : n = 0
    · subst hn
      rw [dif_pos rfl, none, add_zero]
      exact own
    · rw [dif_neg hn]
      exact finite_add_closest (Nat.pos_of_ne_zero hm) (Nat.pos_of_ne_zero hn)

theorem add_closest (hx : x.isFinite = true) (hy : y.isFinite = true) : Closest (x + y) (valueOf x + valueOf y) := by
  obtain ⟨negative, m, e, canonical, le, rfl⟩ := exists_packed hx
  obtain ⟨negative', n, f, canonical', le', rfl⟩ := exists_packed hy
  rw [valueOf_packed canonical le, valueOf_packed canonical' le']
  exact add_packed_closest canonical le canonical' le'

theorem sub_unpacked (u : UnpackedFloat) (negative : Bool) (m : ℕ) (e : ℤ) :
    sub Format.binary64 u (unpacked negative m e) = add Format.binary64 u (unpacked (!negative) m e) := by
  rw [unpacked, unpacked]
  split
  · cases u <;> cases negative <;> rfl
  · cases u with
    | finite sign n f hn => cases negative <;> simp [sub, add, signOf, Sign.apply, sub_eq_add_neg]
    | _ => cases negative <;> rfl

theorem sub_closest (hx : x.isFinite = true) (hy : y.isFinite = true) : Closest (x - y) (valueOf x - valueOf y) := by
  obtain ⟨negative, m, e, canonical, le, rfl⟩ := exists_packed hx
  obtain ⟨negative', n, f, canonical', le', rfl⟩ := exists_packed hy
  have turned : packed negative m e - packed negative' n f = packed negative m e + packed (!negative') n f := by
    change Float.ofModel (.pack (sub Format.binary64 (packed negative m e).toModel.unpack
      (packed negative' n f).toModel.unpack)) = .ofModel (.pack (add Format.binary64
      (packed negative m e).toModel.unpack (packed (!negative') n f).toModel.unpack))
    rw [unpack_packed canonical' le', unpack_packed canonical' le', sub_unpacked]
  have value : signed negative (m * 2 ^ e) - signed negative' (n * 2 ^ f) =
      signed negative (m * 2 ^ e) + signed (!negative') (n * 2 ^ f) := by
    cases negative' <;> simp [signed, sub_eq_add_neg]
  rw [valueOf_packed canonical le, valueOf_packed canonical' le', turned, value]
  exact add_packed_closest canonical le canonical' le'

namespace Closest

theorem of_rounded (h : Rounded x v) (nonneg : 0 ≤ v) : Closest x v := by
  obtain ⟨m, e, canonical, nearest, rfl⟩ := h
  refine ⟨false, m, e, canonical, ?_, eq_signed_abs nonneg, rfl⟩
  rwa [abs_of_nonneg nonneg]

theorem exists_packed (h : Closest x v) (within : |v| < limit) : ∃ negative m e, Canonical m e ∧ e ≤ maxExponent ∧
    Nearest |v| m e ∧ v = signed negative |v| ∧ x = packed negative m e := by
  obtain ⟨negative, m, e, canonical, nearest, sign, exact⟩ := h
  refine ⟨negative, m, e, canonical, not_lt.mp fun large => ?_, nearest, sign, exact⟩
  rw [maxExponent] at large
  have unit : (2 : ℚ) ^ (972 : ℤ) ≤ 2 ^ e := zpow_le_zpow_right₀ (by norm_num) (by omega)
  have full := canonical.full.resolve_right (by omega)
  have low := nearest.low
  rw [le_div_iff₀ (by positivity)] at low
  have mantissa : (2 : ℚ) ^ 52 - 1 / 4 ≤ m - reach m e := by
    rcases Nat.eq_or_lt_of_le full with power | above
    · have reached : reach m e = 1 / 4 := if_pos ⟨power.symm, by omega⟩
      have value : (m : ℚ) = 2 ^ 52 := by exact_mod_cast power.symm
      rw [reached, value]
    · have value : (2 : ℚ) ^ 52 + 1 ≤ m := by exact_mod_cast above
      have half := reach_le m e
      linarith
  have split : (2 : ℚ) ^ (972 : ℤ) = 2 ^ (970 : ℤ) * 4 := by
    rw [show (972 : ℤ) = 970 + 2 by rfl, zpow_add₀ two_ne_zero]
    norm_num
  have beyond : (2 ^ 52 - 1 / 4) * (2 : ℚ) ^ (972 : ℤ) ≤ |v| :=
    (mul_le_mul mantissa unit (by positivity) (le_trans (by norm_num) mantissa)).trans low
  rw [limit] at within
  rw [split] at beyond
  linarith

theorem isFinite (h : Closest x v) (within : |v| < limit) : x.isFinite = true := by
  obtain ⟨negative, m, e, canonical, le, -, -, rfl⟩ := h.exists_packed within
  exact isFinite_packed canonical le

theorem abs_valueOf_le (h : Closest x v) (within : |v| < limit) : |valueOf x| ≤ 2 * |v| := by
  obtain ⟨negative, m, e, canonical, le, nearest, -, rfl⟩ := h.exists_packed within
  have unit : (0 : ℚ) < 2 ^ e := by positivity
  have low := nearest.low
  have half := reach_le m e
  rw [le_div_iff₀ unit] at low
  rw [valueOf_packed canonical le, abs_signed, abs_of_nonneg (by positivity)]
  rcases Nat.eq_zero_or_pos m with rfl | positive
  · simp
  · have one : (1 : ℚ) ≤ m := by exact_mod_cast positive
    nlinarith

theorem error (h : Closest x v) (within : |v| < limit) : |valueOf x - v| ≤ (|valueOf x| + 1) / 2 ^ 53 := by
  obtain ⟨negative, m, e, canonical, le, nearest, sign, rfl⟩ := h.exists_packed within
  have apart : signed negative (m * 2 ^ e) - v = signed negative (m * 2 ^ e - |v|) := by
    rw [sign, abs_signed, abs_abs]
    cases negative <;> simp [signed]
    ring
  rw [valueOf_packed canonical le, apart, abs_signed, abs_signed, abs_of_nonneg (show 0 ≤ (m : ℚ) * 2 ^ e by positivity)]
  exact nearest.error canonical

/-- What is representable comes out exactly. -/
theorem valueOf_eq (h : Closest x v) (hy : y.isFinite = true) (representable : valueOf y = v) : valueOf x = v := by
  have within : |v| < limit := representable ▸ abs_valueOf_lt_limit hy
  obtain ⟨negative, m, e, canonical, le, nearest, sign, rfl⟩ := h.exists_packed within
  obtain ⟨negative', n, f, canonical', le', rfl⟩ := Decimal.exists_packed hy
  rw [valueOf_packed canonical' le'] at representable
  have magnitude : |v| = n * 2 ^ f := by
    rw [← representable, abs_signed, abs_of_nonneg (by positivity)]
  have own : Nearest |v| n f := magnitude ▸ nearest_self n f
  obtain ⟨rfl, rfl⟩ := nearest.unique canonical canonical' own
  rw [valueOf_packed canonical le, ← magnitude]
  exact sign.symm

/-- A difference of doubles that is not zero is not lost in rounding. -/
theorem valueOf_pos_iff (h : Closest x v) (within : |v| < limit) {k : ℤ} (multiple : v = k * 2 ^ (-1074 : ℤ)) :
    0 < valueOf x ↔ 0 < v := by
  obtain ⟨negative, m, e, canonical, le, nearest, sign, rfl⟩ := h.exists_packed within
  have unit : (0 : ℚ) < 2 ^ e := by positivity
  have nonneg : (0 : ℚ) ≤ m * 2 ^ e := by positivity
  rw [valueOf_packed canonical le]
  cases negative with
  | true =>
    rw [signed, if_pos rfl] at sign ⊢
    have := abs_nonneg v
    exact iff_of_false (by linarith) (by linarith)
  | false =>
    rw [signed, if_neg Bool.false_ne_true] at sign ⊢
    rw [← sign] at nearest
    constructor
    · intro positive
      refine lt_of_le_of_ne (sign ▸ abs_nonneg v) fun none => ?_
      have same := nearest.unique canonical canonical_zero (by rw [← none]; simpa using nearest_self 0 (-1074))
      rw [same.1] at positive
      simp at positive
    · intro positive
      refine lt_of_le_of_ne nonneg fun none => ?_
      have zero : m = 0 := by
        have := (mul_eq_zero.mp none.symm).resolve_right unit.ne'
        exact_mod_cast this
      have least : e = -1074 := canonical.full.resolve_left (by omega)
      have tiny : (0 : ℚ) < 2 ^ (-1074 : ℤ) := by positivity
      have high := nearest.high
      rw [multiple] at positive high
      rw [zero, least, mul_div_cancel_right₀ _ tiny.ne'] at high
      have some : (1 : ℚ) ≤ k := by
        have : (0 : ℚ) < k := (mul_pos_iff_of_pos_right tiny).mp positive
        exact_mod_cast this
      norm_num at high
      linarith

end Closest

theorem exists_valueOf_sub_eq (hx : x.isFinite = true) (hy : y.isFinite = true) :
    ∃ k : ℤ, valueOf x - valueOf y = k * 2 ^ (-1074 : ℤ) := by
  obtain ⟨k, hk⟩ := exists_valueOf_eq hx
  obtain ⟨l, hl⟩ := exists_valueOf_eq hy
  exact ⟨k - l, by rw [hk, hl, Int.cast_sub, sub_mul]⟩

theorem valueOf_sub_pos_iff (hx : x.isFinite = true) (hy : y.isFinite = true)
    (within : |valueOf x - valueOf y| < limit) : 0 < valueOf (x - y) ↔ valueOf y < valueOf x := by
  obtain ⟨k, multiple⟩ := exists_valueOf_sub_eq hx hy
  rw [(sub_closest hx hy).valueOf_pos_iff within multiple, sub_pos]

/-- Whether one double lies beyond another shows in the sign of their difference. -/
theorem sub_gt_zero_iff (hx : x.isFinite = true) (hy : y.isFinite = true)
    (within : |valueOf x - valueOf y| < limit) : x - y > 0.0 ↔ valueOf y < valueOf x := by
  rw [gt_zero_iff ((sub_closest hx hy).isFinite within), valueOf_sub_pos_iff hx hy within]

theorem sub_gt_negative_zero_iff (hx : x.isFinite = true) (hy : y.isFinite = true)
    (within : |valueOf x - valueOf y| < limit) : x - y > -0.0 ↔ valueOf y < valueOf x := by
  rw [gt_negative_zero_iff ((sub_closest hx hy).isFinite within), valueOf_sub_pos_iff hx hy within]

end EncounterTimeline.Decimal

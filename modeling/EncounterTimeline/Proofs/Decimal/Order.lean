import EncounterTimeline.Proofs.Decimal.NegativeZero

/-! # The order of doubles

A double that is no NaN stands for a number or for an infinity. Doubles compare as what they stand for, and rounding keeps
the order, beyond the range of doubles too. So a difference and a quotient of doubles rise with what they are taken of.
-/
namespace EncounterTimeline.Decimal

open Float.Model (Format UnpackedFloat)
open Float.Model.UnpackedFloat

noncomputable def Binary64.extent : Binary64 → EReal
  | .finite negative m e => ((signed negative (m * 2 ^ e) : ℚ) : ℝ)
  | .infinite negative => if negative then ⊥ else ⊤
  | .notANumber => 0

noncomputable def extent (x : Float) : EReal := (Binary64.ofFloat x).extent

variable {x y z : Float} {negative negative' : Bool} {m n : ℕ} {e f : ℤ} {u v w : ℚ}

theorem ofFloat_infinity (negative : Bool) : Binary64.ofFloat (infinity negative) = .infinite negative := by
  cases negative <;> decide +kernel

theorem isNaN_of_isFinite (h : x.isFinite = true) : x.isNaN = false := by
  have unfolded : x.toModel.unpack.isFinite = true := h
  change x.toModel.unpack.isNaN = false
  cases unpacked : x.toModel.unpack <;> simp_all [UnpackedFloat.isFinite, UnpackedFloat.isNaN]

@[simp] theorem isNaN_infinity (negative : Bool) : (infinity negative).isNaN = false := by
  change (infinity negative).toModel.unpack.isNaN = false
  rw [unpack_infinity]
  rfl

/-- A double is finite, or infinite, or NaN. -/
theorem finite_or_infinite (h : x.isNaN = false) : x.isFinite = true ∨ ∃ negative, x = infinity negative := by
  cases exact : Binary64.ofFloat x with
  | notANumber =>
    have unfolded : (unpack Format.binary64 x.toBits.toBitVec).isNaN = false := h
    rw [eq_of_notANumber exact] at unfolded
    exact absurd unfolded (by decide)
  | infinite negative => exact .inr ⟨negative, ofFloat_injective (exact.trans (ofFloat_infinity negative).symm)⟩
  | finite negative m e =>
    obtain ⟨canonical, le, rfl⟩ := eq_packed exact
    exact .inl (isFinite_packed canonical le)

theorem extent_of_isFinite (h : x.isFinite = true) : extent x = ((valueOf x : ℝ) : EReal) := by
  obtain ⟨negative, m, e, canonical, le, rfl⟩ := exists_packed h
  rw [extent, valueOf, ofFloat_packed canonical le, Binary64.extent, Binary64.value]

theorem extent_le_iff (hx : x.isFinite = true) (hy : y.isFinite = true) : extent x ≤ extent y ↔ valueOf x ≤ valueOf y := by
  rw [extent_of_isFinite hx, extent_of_isFinite hy, EReal.coe_le_coe_iff, Rat.cast_le]

@[simp] theorem extent_infinity (negative : Bool) : extent (infinity negative) = if negative then ⊥ else ⊤ := by
  rw [extent, ofFloat_infinity, Binary64.extent]

@[simp] theorem extent_zero : extent 0.0 = 0 := by
  rw [extent_of_isFinite isFinite_zero, valueOf_zero]
  norm_num

/-- Magnitudes compare by their exponents first. -/
theorem compare_magnitude (canonical : Canonical m e) (canonical' : Canonical n f) :
    (compare e f).then (compare m n) = cmp ((m : ℚ) * 2 ^ e) (n * 2 ^ f) := by
  have bits := canonical.bits
  have bits' := canonical'.bits
  have least := canonical.least
  have least' := canonical'.least
  have full := canonical.full
  have full' := canonical'.full
  rcases lt_trichotomy ((m : ℚ) * 2 ^ e) (n * 2 ^ f) with less | same | greater
  · have keys := magnitude_lt canonical canonical' less
    rw [less.cmp_eq_lt]
    rcases (by omega : e < f ∨ e = f ∧ m < n) with lower | ⟨rfl, smaller⟩
    · rw [compare_lt_iff_lt.mpr lower]
      rfl
    · rw [compare_eq_iff_eq.mpr rfl, compare_lt_iff_lt.mpr smaller]
      rfl
  · obtain ⟨rfl, rfl⟩ := (nearest_self m e).unique canonical canonical' (same ▸ nearest_self n f)
    rw [compare_eq_iff_eq.mpr rfl, compare_eq_iff_eq.mpr rfl, cmp_self_eq_eq]
    rfl
  · have keys := magnitude_lt canonical' canonical greater
    rw [greater.cmp_eq_gt]
    rcases (by omega : f < e ∨ f = e ∧ n < m) with higher | ⟨rfl, larger⟩
    · rw [compare_gt_iff_gt.mpr higher]
      rfl
    · rw [compare_eq_iff_eq.mpr rfl, compare_gt_iff_gt.mpr larger]
      rfl

/-- Finite doubles compare as their numbers; both zeros are the same number. -/
theorem compare_unpacked (canonical : Canonical m e) (canonical' : Canonical n f) :
    UnpackedFloat.compare (unpacked negative m e) (unpacked negative' n f) =
      some (cmp (signed negative (m * 2 ^ e)) (signed negative' (n * 2 ^ f))) := by
  have positive {k : ℕ} (g : ℤ) (some : k ≠ 0) : (0 : ℚ) < k * 2 ^ g := by
    have : (0 : ℚ) < k := by exact_mod_cast Nat.pos_of_ne_zero some
    positivity
  have magnitude := compare_magnitude canonical canonical'
  rw [unpacked, unpacked]
  by_cases hm : m = 0 <;> by_cases hn : n = 0
  · subst hm hn
    simp [signed, UnpackedFloat.compare]
  · have above := positive f hn
    subst hm
    rw [dif_pos rfl, dif_neg hn]
    cases negative' with
    | false => simp [signed, signOf, UnpackedFloat.compare, above.cmp_eq_lt]
    | true => simp [signed, signOf, UnpackedFloat.compare, (neg_lt_zero.mpr above).cmp_eq_gt]
  · have above := positive e hm
    subst hn
    rw [dif_neg hm, dif_pos rfl]
    cases negative with
    | false => simp [signed, signOf, UnpackedFloat.compare, above.cmp_eq_gt]
    | true => simp [signed, signOf, UnpackedFloat.compare, (neg_lt_zero.mpr above).cmp_eq_lt]
  · have above := positive e hm
    have above' := positive f hn
    rw [dif_neg hm, dif_neg hn]
    cases negative <;> cases negative' <;>
      simp only [signed, signOf, UnpackedFloat.compare, Bool.false_eq_true, if_true, if_false, Option.some.injEq]
    case false.false => exact magnitude
    case false.true => exact (LT.lt.cmp_eq_gt (by linarith)).symm
    case true.false => exact (LT.lt.cmp_eq_lt (by linarith)).symm
    case true.true =>
      have turned : StrictAnti fun v : ℚ => -v := fun _ _ => neg_lt_neg
      rw [magnitude, cmp_swap]
      exact (turned.cmp_map_eq _ _).symm

/-- Doubles compare as what they stand for. -/
theorem compare_unpack (hx : x.isNaN = false) (hy : y.isNaN = false) :
    UnpackedFloat.compare x.toModel.unpack y.toModel.unpack = some (cmp (extent x) (extent y)) := by
  rcases finite_or_infinite hx with finite | ⟨negative, rfl⟩ <;>
    rcases finite_or_infinite hy with finite' | ⟨negative', rfl⟩
  · rw [extent_of_isFinite finite, extent_of_isFinite finite', EReal.coe_strictMono.cmp_map_eq,
      Rat.cast_strictMono.cmp_map_eq]
    obtain ⟨negative, m, e, canonical, le, rfl⟩ := exists_packed finite
    obtain ⟨negative', n, f, canonical', le', rfl⟩ := exists_packed finite'
    rw [unpack_packed canonical le, unpack_packed canonical' le', compare_unpacked canonical canonical',
      valueOf_packed canonical le, valueOf_packed canonical' le']
  · rw [extent_of_isFinite finite, unpack_infinity, extent_infinity]
    have top := (EReal.coe_lt_top (valueOf x : ℝ)).cmp_eq_lt
    have bottom := (EReal.bot_lt_coe (valueOf x : ℝ)).cmp_eq_gt
    obtain ⟨negative, m, e, canonical, le, rfl⟩ := exists_packed finite
    rw [unpack_packed canonical le, unpacked]
    cases negative' <;> split <;> simp [UnpackedFloat.compare, signOf, top, bottom]
  · rw [extent_of_isFinite finite', unpack_infinity, extent_infinity]
    have top := (EReal.coe_lt_top (valueOf y : ℝ)).cmp_eq_gt
    have bottom := (EReal.bot_lt_coe (valueOf y : ℝ)).cmp_eq_lt
    obtain ⟨negative', n, f, canonical', le', rfl⟩ := exists_packed finite'
    rw [unpack_packed canonical' le', unpacked]
    cases negative <;> split <;> simp [UnpackedFloat.compare, signOf, top, bottom]
  · have order : (⊥ : EReal) < ⊤ := bot_lt_top
    rw [unpack_infinity, unpack_infinity, extent_infinity, extent_infinity]
    cases negative <;> cases negative' <;>
      simp only [Bool.false_eq_true, if_true, if_false, cmp_self_eq_eq, order.cmp_eq_lt, order.cmp_eq_gt] <;> rfl

theorem le_iff_extent (hx : x.isNaN = false) (hy : y.isNaN = false) : x ≤ y ↔ extent x ≤ extent y := by
  have unfolded : x ≤ y ↔ UnpackedFloat.le x.toModel.unpack y.toModel.unpack = true := by
    change decide _ = true ↔ _
    rw [decide_eq_true_iff]
    rfl
  rw [unfolded, UnpackedFloat.le, compare_unpack hx hy, Option.any_some]
  rcases lt_trichotomy (extent x) (extent y) with less | same | greater
  · rw [less.cmp_eq_lt]
    exact iff_of_true rfl less.le
  · rw [same.cmp_eq_eq]
    exact iff_of_true rfl same.le
  · rw [greater.cmp_eq_gt]
    exact iff_of_false nofun greater.not_ge

theorem lt_iff_unpack : x < y ↔ UnpackedFloat.lt x.toModel.unpack y.toModel.unpack = true := by
  change decide _ = true ↔ _
  rw [decide_eq_true_iff]
  rfl

theorem lt_iff_extent (hx : x.isNaN = false) (hy : y.isNaN = false) : x < y ↔ extent x < extent y := by
  rw [lt_iff_unpack, UnpackedFloat.lt, compare_unpack hx hy, beq_iff_eq, Option.some.injEq, cmp_eq_lt_iff]

theorem compare_notANumber {u v : UnpackedFloat} (h : u.isNaN = true ∨ v.isNaN = true) :
    UnpackedFloat.compare u v = none := by
  cases u <;> cases v <;> simp_all [UnpackedFloat.isNaN, UnpackedFloat.compare]

theorem not_lt_of_isNaN (h : x.isNaN = true ∨ y.isNaN = true) : ¬ x < y := by
  have unpacked : x.toModel.unpack.isNaN = true ∨ y.toModel.unpack.isNaN = true := h
  rw [lt_iff_unpack, UnpackedFloat.lt, compare_notANumber unpacked]
  exact Bool.false_ne_true

/-- What lies between two numbers that round to a double rounds to it too. -/
theorem Nearest.between (h : Nearest v m e) (k : Nearest w m e) (above : v ≤ u) (below : u ≤ w) : Nearest u m e := by
  have unit : (0 : ℚ) < 2 ^ e := by positivity
  have above : v / 2 ^ e ≤ u / 2 ^ e := div_le_div_of_nonneg_right above unit.le
  have below : u / 2 ^ e ≤ w / 2 ^ e := div_le_div_of_nonneg_right below unit.le
  refine ⟨h.low.trans above, below.trans k.high, ?_⟩
  rintro (least | greatest)
  · exact h.tie (.inl (le_antisymm (least ▸ above) h.low))
  · exact k.tie (.inr (le_antisymm k.high (greatest ▸ below)))

/-- Rounding keeps the order of magnitudes. -/
theorem Nearest.mono (canonical : Canonical m e) (h : Nearest v m e) (canonical' : Canonical n f) (k : Nearest w n f)
    (le : v ≤ w) : (m : ℚ) * 2 ^ e ≤ n * 2 ^ f := by
  refine not_lt.mp fun greater => ?_
  have shared : ∃ u, Nearest u m e ∧ Nearest u n f := by
    rcases le_total v (n * 2 ^ f) with below | above
    · exact ⟨_, h.between (nearest_self m e) below greater.le, nearest_self n f⟩
    · exact ⟨v, h, (nearest_self n f).between k above le⟩
  obtain ⟨u, own, other⟩ := shared
  obtain ⟨rfl, rfl⟩ := own.unique canonical canonical' other
  exact lt_irrefl _ greater

noncomputable def magnitude (m : ℕ) (e : ℤ) : EReal := if e ≤ maxExponent then ((m * 2 ^ e : ℚ) : ℝ) else ⊤

theorem extent_packed (negative : Bool) (canonical : Canonical m e) :
    extent (packed negative m e) = if negative then -magnitude m e else magnitude m e := by
  rw [magnitude]
  by_cases le : e ≤ maxExponent
  · rw [extent, ofFloat_packed canonical le, Binary64.extent, if_pos le]
    cases negative <;> simp [signed]
  · rw [packed_of_large canonical (not_le.mp le), if_neg le]
    refine (extent_infinity negative).trans ?_
    cases negative <;> simp

theorem magnitude_mono (canonical : Canonical m e) (canonical' : Canonical n f) (le : (m : ℚ) * 2 ^ e ≤ n * 2 ^ f) :
    magnitude m e ≤ magnitude n f := by
  rw [magnitude, magnitude]
  by_cases within' : f ≤ maxExponent
  · have within : e ≤ maxExponent := by
      by_contra large
      rw [maxExponent] at within' large
      rcases le.lt_or_eq with less | same
      · have keys := magnitude_lt canonical canonical' less
        have full := canonical.full
        have bits' := canonical'.bits
        omega
      · obtain ⟨-, rfl⟩ := (nearest_self m e).unique canonical canonical' (same ▸ nearest_self n f)
        exact large within'
    rw [if_pos within, if_pos within', EReal.coe_le_coe_iff, Rat.cast_le]
    exact le
  · rw [if_neg within']
    exact le_top

theorem magnitude_nonneg (m : ℕ) (e : ℤ) : 0 ≤ magnitude m e := by
  rw [magnitude]
  split
  · exact EReal.coe_nonneg.mpr (Rat.cast_nonneg.mpr (by positivity))
  · exact le_top

theorem magnitude_nonpos (canonical : Canonical m e) (h : Nearest v m e) (nonpos : v ≤ 0) : magnitude m e ≤ 0 := by
  have le := h.mono canonical canonical_zero (nearest_self 0 (-1074)) (by simpa using nonpos)
  have none := magnitude_mono canonical canonical_zero le
  rwa [magnitude, magnitude, if_pos (show (-1074 : ℤ) ≤ maxExponent by decide), Nat.cast_zero, zero_mul, Rat.cast_zero,
    EReal.coe_zero] at none

theorem Closest.isNaN (h : Closest x v) : x.isNaN = false := by
  obtain ⟨negative, m, e, canonical, -, -, rfl⟩ := h
  by_cases le : e ≤ maxExponent
  · exact isNaN_of_isFinite (isFinite_packed canonical le)
  · rw [packed_of_large canonical (not_le.mp le)]
    exact isNaN_infinity negative

/-- Rounding keeps the order of numbers. -/
theorem Closest.mono (hx : Closest x v) (hy : Closest y w) (le : v ≤ w) : extent x ≤ extent y := by
  obtain ⟨negative, m, e, canonical, nearest, sign, rfl⟩ := hx
  obtain ⟨negative', n, f, canonical', nearest', sign', rfl⟩ := hy
  rw [extent_packed negative canonical, extent_packed negative' canonical']
  have nonneg := magnitude_nonneg m e
  have nonneg' := magnitude_nonneg n f
  cases negative <;> cases negative' <;> simp only [signed, Bool.false_eq_true, if_true, if_false] at sign sign' ⊢
  case false.false =>
    exact magnitude_mono canonical canonical' (nearest.mono canonical canonical' nearest' (by rwa [← sign, ← sign']))
  case false.true =>
    have none := magnitude_nonpos canonical nearest (by linarith [abs_nonneg w])
    have none' := magnitude_nonpos canonical' nearest' (by linarith [abs_nonneg v])
    exact none.trans (EReal.neg_nonneg.mpr none')
  case true.false => exact (EReal.neg_le_neg_iff.mpr nonneg |>.trans (by simpa using nonneg'))
  case true.true =>
    refine EReal.neg_le_neg_iff.mpr (magnitude_mono canonical' canonical (nearest'.mono canonical' canonical nearest ?_))
    linarith

theorem exists_zero (h : x.isFinite = true) (none : valueOf x = 0) : ∃ negative, x = packed negative 0 (-1074) := by
  obtain ⟨negative, m, e, canonical, le, rfl⟩ := exists_packed h
  have size := congrArg (fun v : ℚ => |v|) none
  rw [valueOf_packed canonical le, abs_signed, abs_zero, abs_eq_zero, mul_eq_zero, Nat.cast_eq_zero] at size
  have zero := size.resolve_right (by positivity)
  have least := canonical.full.resolve_left (by omega)
  exact ⟨negative, by rw [zero, least]⟩

theorem exists_packed_of_pos (h : x.isFinite = true) (positive : 0 < valueOf x) :
    ∃ m e, Canonical m e ∧ e ≤ maxExponent ∧ 0 < m ∧ x = packed false m e := by
  obtain ⟨negative, m, e, canonical, le, rfl⟩ := exists_packed h
  have nonneg : (0 : ℚ) ≤ m * 2 ^ e := by positivity
  rw [valueOf_packed canonical le] at positive
  cases negative with
  | true =>
    rw [signed, if_pos rfl] at positive
    linarith
  | false =>
    refine ⟨m, e, canonical, le, Nat.pos_of_ne_zero ?_, rfl⟩
    rintro rfl
    simp [signed] at positive

theorem closest_self (h : x.isFinite = true) : Closest x (valueOf x) := by
  obtain ⟨negative, m, e, canonical, le, rfl⟩ := exists_packed h
  rw [valueOf_packed canonical le]
  exact closest_packed negative canonical

theorem Closest.nonneg (h : Closest x v) (nonneg : 0 ≤ v) : 0 ≤ extent x := by
  simpa using (closest_self isFinite_zero).mono h (by simpa using nonneg)

/-- What is nearest to a number between zero and a double lies between them too. -/
theorem Closest.range (h : Closest x v) (nonneg : 0 ≤ v) (hy : y.isFinite = true) (le : v ≤ valueOf y) :
    x.isFinite = true ∧ 0 ≤ valueOf x ∧ valueOf x ≤ valueOf y := by
  have within : |v| < limit := by
    rw [abs_of_nonneg nonneg]
    exact lt_of_le_of_lt (le.trans (le_abs_self _)) (abs_valueOf_lt_limit hy)
  have finite := h.isFinite within
  have low := h.nonneg nonneg
  have high := h.mono (closest_self hy) le
  rw [extent_of_isFinite finite, EReal.coe_nonneg, Rat.cast_nonneg] at low
  exact ⟨finite, low, (extent_le_iff finite hy).mp high⟩

/-- Apart from zero, no two doubles stand for one number. -/
theorem eq_of_valueOf_eq (hx : x.isFinite = true) (hy : y.isFinite = true) (positive : 0 < valueOf x)
    (same : valueOf x = valueOf y) : x = y := by
  obtain ⟨m, e, canonical, le, -, rfl⟩ := exists_packed_of_pos hx positive
  obtain ⟨n, f, canonical', le', -, rfl⟩ := exists_packed_of_pos hy (same ▸ positive)
  rw [valueOf_packed canonical le, valueOf_packed canonical' le'] at same
  obtain ⟨rfl, rfl⟩ := (nearest_self m e).unique canonical canonical'
    (show Nearest (m * 2 ^ e) n f from (show (m : ℚ) * 2 ^ e = n * 2 ^ f from same) ▸ nearest_self n f)
  rfl

theorem sub_infinity (hx : x.isFinite = true) (negative : Bool) : x - infinity negative = infinity (!negative) := by
  have unfolded : x - infinity negative = .ofModel (.pack (sub Format.binary64 x.toModel.unpack
      (infinity negative).toModel.unpack)) := rfl
  obtain ⟨sign, m, e, canonical, le, rfl⟩ := exists_packed hx
  rw [unfolded, unpack_infinity, unpack_packed canonical le, unpacked]
  cases negative <;> split <;> rfl

theorem infinity_sub (negative : Bool) (hx : x.isFinite = true) : infinity negative - x = infinity negative := by
  have unfolded : infinity negative - x = .ofModel (.pack (sub Format.binary64 (infinity negative).toModel.unpack
      x.toModel.unpack)) := rfl
  obtain ⟨sign, m, e, canonical, le, rfl⟩ := exists_packed hx
  rw [unfolded, unpack_infinity, unpack_packed canonical le, unpacked]
  split <;> rfl

theorem add_infinity (hx : x.isFinite = true) (negative : Bool) : x + infinity negative = infinity negative := by
  have unfolded : x + infinity negative = .ofModel (.pack (add Format.binary64 x.toModel.unpack
      (infinity negative).toModel.unpack)) := rfl
  obtain ⟨sign, m, e, canonical, le, rfl⟩ := exists_packed hx
  rw [unfolded, unpack_infinity, unpack_packed canonical le, unpacked]
  split <;> rfl

theorem infinity_add (negative : Bool) (hx : x.isFinite = true) : infinity negative + x = infinity negative := by
  have unfolded : infinity negative + x = .ofModel (.pack (add Format.binary64 (infinity negative).toModel.unpack
      x.toModel.unpack)) := rfl
  obtain ⟨sign, m, e, canonical, le, rfl⟩ := exists_packed hx
  rw [unfolded, unpack_infinity, unpack_packed canonical le, unpacked]
  split <;> rfl

theorem isNaN_add_finite (hx : x.isNaN = false) (hy : y.isFinite = true) : (x + y).isNaN = false := by
  rcases finite_or_infinite hx with finite | ⟨negative, rfl⟩
  · exact (add_closest finite hy).isNaN
  · rw [infinity_add negative hy]
    exact isNaN_infinity negative

theorem isNaN_add (hx : x.isFinite = true) (hy : y.isNaN = false) : (x + y).isNaN = false := by
  rcases finite_or_infinite hy with finite | ⟨negative, rfl⟩
  · exact (add_closest hx finite).isNaN
  · rw [add_infinity hx]
    exact isNaN_infinity negative

theorem isNaN_sub (hx : x.isFinite = true) (hy : y.isNaN = false) : (x - y).isNaN = false := by
  rcases finite_or_infinite hy with finite | ⟨negative, rfl⟩
  · exact (sub_closest hx finite).isNaN
  · rw [sub_infinity hx]
    exact isNaN_infinity _

theorem isNaN_sub_finite (hx : x.isNaN = false) (hy : y.isFinite = true) : (x - y).isNaN = false := by
  rcases finite_or_infinite hx with finite | ⟨negative, rfl⟩
  · exact (sub_closest finite hy).isNaN
  · rw [infinity_sub negative hy]
    exact isNaN_infinity negative

/-- The more is taken from a finite double, the less is left. -/
theorem extent_sub_anti (hx : x.isFinite = true) (hy : y.isNaN = false) (hz : z.isNaN = false)
    (le : extent y ≤ extent z) : extent (x - z) ≤ extent (x - y) := by
  rcases finite_or_infinite hy with finite | ⟨negative, rfl⟩ <;>
    rcases finite_or_infinite hz with finite' | ⟨negative', rfl⟩
  · have values := (extent_le_iff finite finite').mp le
    exact (sub_closest hx finite').mono (sub_closest hx finite) (by linarith)
  · rw [sub_infinity hx, extent_infinity]
    cases negative' with
    | false => exact bot_le
    | true =>
      rw [extent_of_isFinite finite, extent_infinity, if_pos rfl, le_bot_iff] at le
      exact absurd le (EReal.coe_ne_bot _)
  · rw [sub_infinity hx, extent_infinity]
    cases negative with
    | true => exact le_top
    | false =>
      rw [extent_of_isFinite finite', extent_infinity, if_neg Bool.false_ne_true, top_le_iff] at le
      exact absurd le (EReal.coe_ne_top _)
  · rw [sub_infinity hx, sub_infinity hx]
    cases negative <;> cases negative' <;> simp_all

/-- Taking a later double from one that may be infinite leaves less. -/
theorem extent_sub_finite_anti (hx : x.isNaN = false) (hy : y.isFinite = true) (hz : z.isFinite = true)
    (le : valueOf y ≤ valueOf z) : extent (x - z) ≤ extent (x - y) := by
  rcases finite_or_infinite hx with finite | ⟨negative, rfl⟩
  · exact extent_sub_anti finite (isNaN_of_isFinite hy) (isNaN_of_isFinite hz) ((extent_le_iff hy hz).mpr le)
  · rw [infinity_sub negative hy, infinity_sub negative hz]

/-- What is a whole number of the least positive double is off by a part of the result only. -/
theorem Nearest.relative_error (canonical : Canonical m e) (h : Nearest v m e) {k : ℤ}
    (multiple : v = k * 2 ^ (-1074 : ℤ)) : |m * 2 ^ e - v| ≤ m * 2 ^ e / 2 ^ 53 := by
  have error := h.abs_sub_le
  rcases canonical.full with full | rfl
  · have unit : (0 : ℚ) < 2 ^ e := by positivity
    have cast : (2 : ℚ) ^ 52 ≤ m := by exact_mod_cast full
    rw [le_div_iff₀ (by norm_num)]
    nlinarith
  · -- Between a whole number of least doubles and the nearest one there is less than one of them.
    have unit : (0 : ℚ) < 2 ^ (-1074 : ℤ) := by positivity
    generalize (2 : ℚ) ^ (-1074 : ℤ) = least at *
    have apart : |((m - k : ℤ) : ℚ)| * least ≤ least / 2 := by
      rw [multiple, ← sub_mul, abs_mul, abs_of_pos unit] at error
      exact_mod_cast error
    have small : |((m - k : ℤ) : ℚ)| < 1 := by nlinarith
    have exact : (m : ℤ) - k = 0 := by
      rw [← Int.cast_abs] at small
      exact Int.abs_lt_one_iff.mp (by exact_mod_cast small)
    have same : (k : ℚ) = m := by exact_mod_cast (sub_eq_zero.mp exact).symm
    rw [multiple, same, sub_self, abs_zero]
    positivity

theorem Closest.relative_error (h : Closest x v) (finite : x.isFinite = true) {k : ℤ}
    (multiple : v = k * 2 ^ (-1074 : ℤ)) : |valueOf x - v| ≤ |valueOf x| / 2 ^ 53 := by
  obtain ⟨negative, m, e, canonical, nearest, sign, rfl⟩ := h
  have le := le_maxExponent_of_isFinite canonical finite
  have apart : signed negative (m * 2 ^ e) - v = signed negative (m * 2 ^ e - |v|) := by
    rw [sign, abs_signed, abs_abs]
    cases negative <;> simp [signed]
    ring
  have size : |v| = (|k| : ℤ) * 2 ^ (-1074 : ℤ) := by
    rw [multiple, abs_mul, abs_of_pos (show (0 : ℚ) < 2 ^ (-1074 : ℤ) by positivity), Int.cast_abs]
  rw [valueOf_packed canonical le, apart, abs_signed, abs_signed, abs_of_nonneg (show 0 ≤ (m : ℚ) * 2 ^ e by positivity)]
  exact nearest.relative_error canonical size

/-- A difference is off by a part of itself only. -/
theorem sub_error (hx : x.isFinite = true) (hy : y.isFinite = true) (finite : (x - y).isFinite = true) :
    |valueOf (x - y) - (valueOf x - valueOf y)| ≤ |valueOf (x - y)| / 2 ^ 53 := by
  obtain ⟨k, multiple⟩ := exists_valueOf_sub_eq hx hy
  exact (sub_closest hx hy).relative_error finite multiple

theorem infinity_div (hy : y.isFinite = true) (positive : 0 < valueOf y) : infinity false / y = infinity false := by
  obtain ⟨n, f, canonical, le, some, rfl⟩ := exists_packed_of_pos hy positive
  have unfolded : infinity false / packed false n f = .ofModel (.pack (div Format.binary64
      (infinity false).toModel.unpack (packed false n f).toModel.unpack)) := rfl
  rw [unfolded, unpack_infinity, unpack_positive canonical le some]
  rfl

/-- Neither zero divided by a positive double is more than zero. -/
theorem zero_div_closest (negative : Bool) (hy : y.isFinite = true) (positive : 0 < valueOf y) :
    Closest (packed negative 0 (-1074) / y) 0 := by
  obtain ⟨n, f, canonical, le, some, rfl⟩ := exists_packed_of_pos hy positive
  have unfolded : packed negative 0 (-1074) / packed false n f = .ofModel (.pack (div Format.binary64
      (packed negative 0 (-1074)).toModel.unpack (packed false n f).toModel.unpack)) := rfl
  rw [unfolded, unpack_packed canonical_zero (by decide), unpacked_zero, unpack_positive canonical le some]
  cases negative
  · exact closest_zero false
  · exact closest_zero true

theorem div_closest (hx : x.isFinite = true) (nonneg : 0 ≤ valueOf x) (hy : y.isFinite = true)
    (positive : 0 < valueOf y) : Closest (x / y) (valueOf x / valueOf y) := by
  rcases nonneg.eq_or_lt with none | some
  · obtain ⟨negative, rfl⟩ := exists_zero hx none.symm
    rw [← none, zero_div]
    exact zero_div_closest negative hy positive
  · obtain ⟨m, e, canonical, le, hm, rfl⟩ := exists_packed_of_pos hx some
    obtain ⟨n, f, canonical', le', hn, rfl⟩ := exists_packed_of_pos hy positive
    rw [valueOf_packed canonical le, valueOf_packed canonical' le', signed, signed, if_neg Bool.false_ne_true,
      if_neg Bool.false_ne_true]
    exact .of_rounded (div_rounded canonical le hm canonical' le' hn) (by positivity)

theorem finite_or_top (h : x.isNaN = false) (nonneg : 0 ≤ extent x) :
    x.isFinite = true ∧ 0 ≤ valueOf x ∨ x = infinity false := by
  rcases finite_or_infinite h with finite | ⟨negative, rfl⟩
  · rw [extent_of_isFinite finite, EReal.coe_nonneg, Rat.cast_nonneg] at nonneg
    exact .inl ⟨finite, nonneg⟩
  · cases negative with
    | false => exact .inr rfl
    | true => simp at nonneg

theorem isNaN_div (hx : x.isNaN = false) (nonneg : 0 ≤ extent x) (hy : y.isFinite = true) (positive : 0 < valueOf y) :
    (x / y).isNaN = false := by
  rcases finite_or_top hx nonneg with ⟨finite, nonneg⟩ | rfl
  · exact (div_closest finite nonneg hy positive).isNaN
  · rw [infinity_div hy positive]
    exact isNaN_infinity false

/-- The quotients by a positive double rise with what is divided. -/
theorem extent_div_mono (hx : x.isNaN = false) (nonneg : 0 ≤ extent x) (hz : z.isNaN = false) (le : extent x ≤ extent z)
    (hy : y.isFinite = true) (positive : 0 < valueOf y) : extent (x / y) ≤ extent (z / y) := by
  rcases finite_or_top hz (nonneg.trans le) with ⟨finite', nonneg'⟩ | rfl
  · rcases finite_or_top hx nonneg with ⟨finite, nonneg⟩ | rfl
    · have values := (extent_le_iff finite finite').mp le
      exact (div_closest finite nonneg hy positive).mono (div_closest finite' nonneg' hy positive)
        (div_le_div_of_nonneg_right values positive.le)
    · rw [extent_infinity, if_neg Bool.false_ne_true, extent_of_isFinite finite', top_le_iff] at le
      exact absurd le (EReal.coe_ne_top _)
  · rw [infinity_div hy positive, extent_infinity]
    exact le_top

end EncounterTimeline.Decimal

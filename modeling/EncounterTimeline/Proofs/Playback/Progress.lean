import EncounterTimeline.Proofs.Decimal.Order
import EncounterTimeline.Proofs.Playback.Positions

/-! # Remaining time and progress

The remaining time is never negative and the progress stays between nothing and one, whatever the clock, the base and
the window, and also where the time until a cue is due leaves the range of doubles. While the clock goes on, the
remaining time does not rise and the progress does not fall: every step from the one to the other keeps the order, the
rounding to thousandths included.
-/
namespace EncounterTimeline

open Decimal

theorem Duration.isNaN_seconds (d : Duration) : d.seconds.isNaN = false :=
  isNaN_add_finite (closest_toFloat _).isNaN (moderate_nanos (Nat.mod_lt _ (by norm_num))).1

namespace Cue

variable {c : Cue} {clock later base : Float}

theorem isNaN_before (hc : clock.isFinite = true) (hb : base.isFinite = true) : (c.before clock base).isNaN = false :=
  isNaN_sub_finite (isNaN_add hb c.time.isNaN_seconds) hc

/-- Later the time until the cue is due is no longer. -/
theorem before_anti (hc : clock.isFinite = true) (hl : later.isFinite = true) (hb : base.isFinite = true)
    (le : clock ≤ later) : extent (c.before later base) ≤ extent (c.before clock base) := by
  rw [le_iff_extent (isNaN_of_isFinite hc) (isNaN_of_isFinite hl), extent_le_iff hc hl] at le
  exact extent_sub_finite_anti (isNaN_add hb c.time.isNaN_seconds) hc hl le

end Cue

variable {before before' window : Float}

theorem isNaN_zero : (0.0 : Float).isNaN = false := isNaN_of_isFinite isFinite_zero

theorem remainingFor_eq (hb : before.isNaN = false) :
    (remainingFor before).isNaN = false ∧ extent (remainingFor before) = max (extent before) 0 := by
  rw [remainingFor]
  split
  case isTrue positive =>
    have above := (lt_iff_extent isNaN_zero hb).mp positive
    rw [extent_zero] at above
    exact ⟨hb, (max_eq_left above.le).symm⟩
  case isFalse past =>
    have below := not_lt.mp (mt (lt_iff_extent isNaN_zero hb).mpr past)
    rw [extent_zero] at below
    exact ⟨isNaN_zero, extent_zero.trans (max_eq_right below).symm⟩

theorem remainingFor_nonneg (hb : before.isNaN = false) : 0.0 ≤ remainingFor before := by
  obtain ⟨number, value⟩ := remainingFor_eq hb
  rw [le_iff_extent isNaN_zero number, value, extent_zero]
  exact le_max_right _ _

theorem remainingFor_mono (hb : before.isNaN = false) (hb' : before'.isNaN = false)
    (le : extent before' ≤ extent before) : remainingFor before' ≤ remainingFor before := by
  obtain ⟨number, value⟩ := remainingFor_eq hb
  obtain ⟨number', value'⟩ := remainingFor_eq hb'
  rw [le_iff_extent number' number, value', value]
  exact max_le_max_right 0 le

namespace Decimal

variable {x y : Float} {num den : ℕ}

theorem thousand_eq_packed : (1000.0 : Float) = packed false (1000 * 2 ^ 43) (-43) := by decide +kernel

theorem canonical_thousand : Canonical (1000 * 2 ^ 43) (-43) := ⟨by norm_num, by norm_num, .inl (by norm_num)⟩

theorem isFinite_thousand : (1000.0 : Float).isFinite = true := by decide +kernel

theorem valueOf_thousand : valueOf 1000.0 = 1000 := by
  rw [thousand_eq_packed, valueOf_packed canonical_thousand (by decide)]
  norm_num [signed]

theorem isFinite_one : (1.0 : Float).isFinite = true := by decide +kernel

theorem valueOf_one : valueOf 1.0 = 1 := by
  have packed : (1.0 : Float) = packed false (2 ^ 52) (-52) := by decide +kernel
  rw [packed, valueOf_packed ⟨by norm_num, by norm_num, .inl (by norm_num)⟩ (by decide)]
  norm_num [signed]

theorem mul_thousand_closest (hx : x.isFinite = true) (nonneg : 0 ≤ valueOf x) :
    Closest (x * 1000.0) (valueOf x * 1000) := by
  rcases nonneg.eq_or_lt with none | some
  · obtain ⟨negative, rfl⟩ := exists_zero hx none.symm
    rw [← none, zero_mul]
    have zero : packed negative 0 (-1074) * 1000.0 = packed negative 0 (-1074) := by
      cases negative <;> decide +kernel
    rw [zero]
    exact closest_zero negative
  · obtain ⟨m, e, canonical, le, hm, rfl⟩ := exists_packed_of_pos hx some
    have product := mul_rounded canonical le hm canonical_thousand (by decide) (by norm_num) (.inl (by omega))
    rw [← thousand_eq_packed] at product
    have value : valueOf (packed false m e) * 1000 = m * 2 ^ e * ((1000 * 2 ^ 43 : ℕ) * 2 ^ (-43 : ℤ)) := by
      rw [valueOf_packed canonical le]
      norm_num [signed]
    rw [value]
    exact .of_rounded product (by positivity)

theorem Closest.small_error {v : ℚ} (h : Closest x v) (nonneg : 0 ≤ v) (small : v ≤ 1001) :
    |valueOf x - v| ≤ 1 / 2 ^ 42 := by
  have moderate : |v| ≤ 1001 := by rwa [abs_of_nonneg nonneg]
  have within := abs_lt_limit (moderate.trans (by norm_num))
  have error := h.error within
  have size := h.abs_valueOf_le within
  norm_num at error ⊢
  linarith

/-- A half is rounded up. -/
theorem roundHalfUp_bounds (num : ℕ) (positive : 0 < den) :
    (roundHalfUp num den : ℚ) - 1 / 2 ≤ num / den ∧ (num : ℚ) / den < roundHalfUp num den + 1 / 2 := by
  have den_pos : (0 : ℚ) < den := by exact_mod_cast positive
  have low : (roundHalfUp num den : ℚ) * (2 * den) ≤ 2 * num + den := by
    exact_mod_cast Nat.div_mul_le_self (2 * num + den) (2 * den)
  have high : 2 * (num : ℚ) + den < (2 * den) * (roundHalfUp num den + 1) := by
    exact_mod_cast Nat.lt_mul_div_succ (2 * num + den) (by omega : 0 < 2 * den)
  rw [le_div_iff₀ den_pos, div_lt_iff₀ den_pos]
  constructor <;> linarith

theorem nearestWhole_closest (hx : x.isFinite = true) (nonneg : 0 ≤ valueOf x) :
    ∃ k : ℕ, Closest (nearestWhole x) k ∧ (k : ℚ) - 1 / 2 ≤ valueOf x ∧ valueOf x < k + 1 / 2 := by
  rcases nonneg.eq_or_lt with none | some
  · obtain ⟨negative, rfl⟩ := exists_zero hx none.symm
    have zero : nearestWhole (packed negative 0 (-1074)) = packed negative 0 (-1074) := by
      cases negative <;> decide +kernel
    refine ⟨0, ?_, by norm_num [← none], by norm_num [← none]⟩
    rw [zero, Nat.cast_zero]
    exact closest_zero negative
  · obtain ⟨m, e, canonical, le, hm, rfl⟩ := exists_packed_of_pos hx some
    have bounds := roundHalfUp_bounds (Binary64.ratio m e).1 (Binary64.ratio_den_pos m e)
    rw [Binary64.ratio_eq] at bounds
    rw [valueOf_packed canonical le, nearestWhole, ofFloat_packed canonical le]
    exact ⟨_, closest_toFloat _, bounds⟩

theorem nearestWhole_mono (hx : x.isFinite = true) (hy : y.isFinite = true) (nonneg : 0 ≤ valueOf x)
    (le : valueOf x ≤ valueOf y) : extent (nearestWhole x) ≤ extent (nearestWhole y) := by
  obtain ⟨k, own, low, -⟩ := nearestWhole_closest hx nonneg
  obtain ⟨l, own', -, high⟩ := nearestWhole_closest hy (nonneg.trans le)
  have less : (k : ℚ) < (l + 1 : ℕ) := by
    push_cast
    linarith
  have count : k ≤ l := Nat.le_of_lt_succ (by exact_mod_cast less)
  exact own.mono own' (by exact_mod_cast count)

end Decimal

def thousandths (share : Float) : Float := nearestWhole (share * 1000.0) / 1000.0

structure Share (x : Float) : Prop where
  finite : x.isFinite = true
  nonneg : 0 ≤ valueOf x
  le_one : valueOf x ≤ 1

namespace Share

variable {x y : Float}

theorem zero : Share 0.0 := ⟨isFinite_zero, valueOf_zero.ge, by norm_num⟩

theorem one : Share 1.0 := ⟨isFinite_one, by norm_num [valueOf_one], valueOf_one.le⟩

theorem mul_thousand (h : Share x) :
    (x * 1000.0).isFinite = true ∧ 0 ≤ valueOf (x * 1000.0) ∧ valueOf (x * 1000.0) ≤ 1000 := by
  have scaled : 0 ≤ valueOf x * 1000 := mul_nonneg h.nonneg (by norm_num)
  have range := (mul_thousand_closest h.finite h.nonneg).range scaled isFinite_thousand
    (by linarith [h.le_one, valueOf_thousand])
  rwa [valueOf_thousand] at range

theorem nearestWhole_mul (h : Share x) : (nearestWhole (x * 1000.0)).isFinite = true ∧
    0 ≤ valueOf (nearestWhole (x * 1000.0)) ∧ valueOf (nearestWhole (x * 1000.0)) ≤ 1000 := by
  obtain ⟨finite, nonneg, le⟩ := h.mul_thousand
  obtain ⟨k, closest, low, -⟩ := nearestWhole_closest finite nonneg
  have less : (k : ℚ) < (1001 : ℕ) := by
    push_cast
    linarith
  have count : k ≤ 1000 := Nat.le_of_lt_succ (by exact_mod_cast less)
  have range := closest.range (Nat.cast_nonneg k) isFinite_thousand (by rw [valueOf_thousand]; exact_mod_cast count)
  rwa [valueOf_thousand] at range

theorem div_thousand_closest (h : Share x) : Closest (thousandths x) (valueOf (nearestWhole (x * 1000.0)) / 1000) := by
  obtain ⟨finite, nonneg, -⟩ := h.nearestWhole_mul
  have quotient := div_closest finite nonneg isFinite_thousand (by norm_num [valueOf_thousand])
  rwa [valueOf_thousand] at quotient

theorem le_iff (h : Share x) (k : Share y) : x ≤ y ↔ valueOf x ≤ valueOf y := by
  rw [le_iff_extent (isNaN_of_isFinite h.finite) (isNaN_of_isFinite k.finite), extent_le_iff h.finite k.finite]

theorem bounds (h : Share x) : 0.0 ≤ x ∧ x ≤ 1.0 := by
  rw [zero.le_iff h, h.le_iff one, valueOf_zero, valueOf_one]
  exact ⟨h.nonneg, h.le_one⟩

protected theorem thousandths (h : Share x) : Share (thousandths x) := by
  obtain ⟨-, nonneg, le⟩ := h.nearestWhole_mul
  obtain ⟨finite, low, high⟩ := h.div_thousand_closest.range (by positivity) isFinite_one
    (by rw [valueOf_one, div_le_one (by norm_num)]; exact le)
  exact ⟨finite, low, high.trans valueOf_one.le⟩

theorem thousandths_mono (h : Share x) (k : Share y) (le : valueOf x ≤ valueOf y) :
    valueOf (thousandths x) ≤ valueOf (thousandths y) := by
  obtain ⟨finite, nonneg, -⟩ := h.mul_thousand
  obtain ⟨finite', -⟩ := k.mul_thousand
  have scaled := (mul_thousand_closest h.finite h.nonneg).mono (mul_thousand_closest k.finite k.nonneg)
    (by linarith : valueOf x * 1000 ≤ valueOf y * 1000)
  have counted := nearestWhole_mono finite finite' nonneg ((extent_le_iff finite finite').mp scaled)
  rw [extent_le_iff h.nearestWhole_mul.1 k.nearestWhole_mul.1] at counted
  have divided := h.div_thousand_closest.mono k.div_thousand_closest (by linarith)
  exact (extent_le_iff h.thousandths.finite k.thousandths.finite).mp divided

/-- Rounding to thousandths moves a share by half of one, and by what doubles cannot tell apart. -/
theorem thousandths_error (h : Share x) : |valueOf (thousandths x) - valueOf x| ≤ 1 / 2000 + 1 / 2 ^ 40 := by
  obtain ⟨finite, nonneg, le⟩ := h.mul_thousand
  obtain ⟨-, nonneg', le'⟩ := h.nearestWhole_mul
  obtain ⟨k, closest, below, above⟩ := nearestWhole_closest finite nonneg
  have scaled := (mul_thousand_closest h.finite h.nonneg).small_error (by linarith [h.nonneg]) (by linarith [h.le_one])
  have counted := closest.small_error (Nat.cast_nonneg k) (by linarith)
  have divided := h.div_thousand_closest.small_error (by linarith) (by linarith)
  rw [abs_le] at scaled counted divided ⊢
  constructor <;> linarith

end Share

def clamped (x : Float) : Float := if x < 0.0 then 0.0 else if x > 1.0 then 1.0 else x

theorem isNaN_one : (1.0 : Float).isNaN = false := isNaN_of_isFinite isFinite_one

theorem extent_one : extent 1.0 = 1 := by
  rw [extent_of_isFinite isFinite_one, valueOf_one]
  norm_num

theorem clamped_eq {x : Float} (hx : x.isNaN = false) :
    Share (clamped x) ∧ extent (clamped x) = max 0 (min 1 (extent x)) := by
  have below := lt_iff_extent hx isNaN_zero
  have above := lt_iff_extent isNaN_one hx
  rw [extent_zero] at below
  rw [extent_one] at above
  rw [clamped]
  split
  case isTrue less =>
    have nonpos := (below.mp less).le
    exact ⟨.zero, extent_zero.trans (max_eq_left ((min_le_right _ _).trans nonpos)).symm⟩
  case isFalse nonneg =>
    rw [below, not_lt] at nonneg
    split
    case isTrue greater =>
      rw [min_eq_left (above.mp greater).le, max_eq_right zero_le_one]
      exact ⟨.one, extent_one⟩
    case isFalse le =>
      have le_one := not_lt.mp (mt above.mpr le)
      rw [min_eq_right le_one, max_eq_right nonneg]
      refine ⟨?_, rfl⟩
      rcases finite_or_top hx nonneg with ⟨finite, nonneg⟩ | rfl
      · rw [← extent_one, extent_le_iff finite isFinite_one, valueOf_one] at le_one
        exact ⟨finite, nonneg, le_one⟩
      · rw [extent_infinity, if_neg Bool.false_ne_true, top_le_iff] at le_one
        exact absurd le_one (EReal.coe_ne_top 1)

theorem Share.valueOf_clamped {x : Float} (h : Share x) : valueOf (clamped x) = valueOf x := by
  obtain ⟨share, value⟩ := clamped_eq (isNaN_of_isFinite h.finite)
  have low : 0 ≤ extent x := by rw [extent_of_isFinite h.finite]; exact_mod_cast h.nonneg
  have high : extent x ≤ 1 := by rw [extent_of_isFinite h.finite]; exact_mod_cast h.le_one
  rw [min_eq_right high, max_eq_right low, extent_of_isFinite share.finite, extent_of_isFinite h.finite] at value
  exact_mod_cast value

theorem before_gt_iff (hw : window.isFinite = true) (hb : before.isNaN = false) :
    before > window ↔ extent window < extent before := lt_iff_extent (isNaN_of_isFinite hw) hb

theorem before_le_zero_iff (hb : before.isNaN = false) : before ≤ 0.0 ↔ extent before ≤ 0 := by
  rw [le_iff_extent hb isNaN_zero, extent_zero]

theorem not_le_zero_iff (hw : window.isFinite = true) : ¬ window ≤ 0.0 ↔ 0 < valueOf window := by
  rw [before_le_zero_iff (isNaN_of_isFinite hw), ← extent_zero, extent_le_iff hw isFinite_zero, valueOf_zero, not_le]

/-- The part of the window that has passed, once its edge has. -/
theorem passed_nonneg (hw : window.isFinite = true) (hb : before.isNaN = false) (near : ¬ before > window) :
    (window - before).isNaN = false ∧ 0 ≤ extent (window - before) := by
  rw [before_gt_iff hw hb, not_lt] at near
  have least := extent_sub_anti hw hb (isNaN_of_isFinite hw) near
  have none := (sub_closest hw hw).nonneg (sub_self _).ge
  exact ⟨isNaN_sub hw hb, none.trans least⟩

section Window

variable (hw : window.isFinite = true) (positive : 0 < valueOf window)

include hw positive

theorem progressFor_of_near (near : ¬ before > window) :
    progressFor before window = thousandths (clamped ((window - before) / window)) := by
  rw [progressFor, if_neg ((not_le_zero_iff hw).mpr positive), if_neg near]
  rfl

theorem isNaN_share (hb : before.isNaN = false) (near : ¬ before > window) :
    ((window - before) / window).isNaN = false := by
  obtain ⟨number, nonneg⟩ := passed_nonneg hw hb near
  exact isNaN_div number nonneg hw positive

theorem share_anti (hb : before.isNaN = false) (hb' : before'.isNaN = false) (near : ¬ before > window)
    (le : extent before' ≤ extent before) :
    extent ((window - before) / window) ≤ extent ((window - before') / window) := by
  obtain ⟨number, nonneg⟩ := passed_nonneg hw hb near
  exact extent_div_mono number nonneg (isNaN_sub hw hb') (extent_sub_anti hw hb' hb le) hw positive

/-- What is due has filled the whole bar, also where the window less the time is out of range. -/
theorem progressFor_of_due (hb : before.isNaN = false) (due : extent before ≤ 0) : progressFor before window = 1.0 := by
  have number := isNaN_of_isFinite hw
  have nonneg : 0 ≤ extent window := by
    rw [← extent_zero, extent_le_iff isFinite_zero hw, valueOf_zero]
    exact positive.le
  have near : ¬ before > window := by
    rw [before_gt_iff hw hb, not_lt]
    exact due.trans nonneg
  have whole := (closest_self hw).mono (sub_closest hw isFinite_zero) (by simp)
  have passed := extent_sub_anti hw hb isNaN_zero (due.trans extent_zero.ge)
  have quotient := extent_div_mono number nonneg (isNaN_sub hw hb) (whole.trans passed) hw positive
  have one := (closest_self isFinite_one).mono (div_closest hw positive.le hw positive)
    (by rw [valueOf_one, div_self positive.ne'])
  obtain ⟨filled, value⟩ := clamped_eq (isNaN_share hw positive hb near)
  have full : extent (clamped ((window - before) / window)) = extent 1.0 := by
    rw [value, extent_one, min_eq_left (extent_one ▸ one.trans quotient), max_eq_right zero_le_one]
  have same : valueOf (clamped ((window - before) / window)) = valueOf 1.0 :=
    le_antisymm ((extent_le_iff filled.finite isFinite_one).mp full.le) ((extent_le_iff isFinite_one filled.finite).mp full.ge)
  have exact : clamped ((window - before) / window) = 1.0 :=
    eq_of_valueOf_eq filled.finite isFinite_one (by rw [same, valueOf_one]; exact one_pos) same
  rw [progressFor_of_near hw positive near, exact]
  decide +kernel

/-- Between the edge of the window and its end the bar has filled as far as the window has passed. -/
theorem share_error (hb : before.isNaN = false) (ahead : 0 < extent before) (near : ¬ before > window) :
    before.isFinite = true ∧ |valueOf (clamped ((window - before) / window)) -
      (valueOf window - valueOf before) / valueOf window| ≤ 1 / 2 ^ 40 := by
  rw [before_gt_iff hw hb, not_lt] at near
  rcases finite_or_top hb ahead.le with ⟨finite, nonneg⟩ | rfl
  · rw [extent_le_iff finite hw] at near
    have difference := sub_closest hw finite
    obtain ⟨finite', low, high⟩ := difference.range (by linarith) hw (by linarith)
    have quotient := div_closest finite' low hw positive
    have whole : valueOf (window - before) / valueOf window ≤ 1 := (div_le_one positive).mpr high
    obtain ⟨finite'', low'', high''⟩ := quotient.range (by positivity) isFinite_one (valueOf_one ▸ whole)
    have share : Share ((window - before) / window) := ⟨finite'', low'', high''.trans valueOf_one.le⟩
    have exact := quotient.small_error (by positivity) (by linarith)
    have error := sub_error hw finite finite'
    rw [abs_of_nonneg low] at error
    have part : |valueOf (window - before) / valueOf window - (valueOf window - valueOf before) / valueOf window| ≤
        1 / 2 ^ 53 := by
      rw [← sub_div, abs_div, abs_of_pos positive, div_le_iff₀ positive]
      linarith
    refine ⟨finite, ?_⟩
    rw [share.valueOf_clamped]
    rw [abs_le] at exact part ⊢
    constructor <;> linarith
  · rw [extent_infinity, if_neg Bool.false_ne_true, extent_of_isFinite hw, top_le_iff] at near
    exact absurd near (EReal.coe_ne_top _)

theorem progressFor_error (hb : before.isNaN = false) (near : ¬ before > window) (ahead : ¬ before ≤ 0.0) :
    before.isFinite = true ∧
      |valueOf (progressFor before window) - (valueOf window - valueOf before) / valueOf window| ≤ 1 / 1000 := by
  rw [before_le_zero_iff hb, not_le] at ahead
  obtain ⟨finite, error⟩ := share_error hw positive hb ahead near
  have rounded := (clamped_eq (isNaN_share hw positive hb near)).1.thousandths_error
  rw [progressFor_of_near hw positive near]
  refine ⟨finite, ?_⟩
  rw [abs_le] at error rounded ⊢
  constructor <;> linarith

end Window

theorem progressFor_share (hw : window.isFinite = true) (hb : before.isNaN = false) :
    Share (progressFor before window) := by
  by_cases none : window ≤ 0.0
  · rw [progressFor, if_pos none]
    split
    · exact .one
    · exact .zero
  · by_cases far : before > window
    · rw [progressFor, if_neg none, if_pos far]
      exact .zero
    · have positive := (not_le_zero_iff hw).mp none
      rw [progressFor_of_near hw positive far]
      exact (clamped_eq (isNaN_share hw positive hb far)).1.thousandths

/-- The nearer a cue is, the further its bar has filled, across the edge of the window and without a window too. -/
theorem progressFor_anti (hw : window.isFinite = true) (hb : before.isNaN = false) (hb' : before'.isNaN = false)
    (le : extent before' ≤ extent before) : valueOf (progressFor before window) ≤ valueOf (progressFor before' window) := by
  have share := progressFor_share hw hb
  have share' := progressFor_share hw hb'
  by_cases none : window ≤ 0.0
  · by_cases due : before ≤ 0.0
    · have due' : before' ≤ 0.0 := (before_le_zero_iff hb').mpr (le.trans ((before_le_zero_iff hb).mp due))
      rw [progressFor, progressFor, if_pos none, if_pos none, if_pos due, if_pos due']
    · rw [progressFor, if_pos none, if_neg due, valueOf_zero]
      exact share'.nonneg
  · have positive := (not_le_zero_iff hw).mp none
    by_cases far : before > window
    · rw [progressFor, if_neg none, if_pos far, valueOf_zero]
      exact share'.nonneg
    · have near' : ¬ before' > window := by
        rw [before_gt_iff hw hb, not_lt] at far
        rw [before_gt_iff hw hb', not_lt]
        exact le.trans far
      obtain ⟨filled, value⟩ := clamped_eq (isNaN_share hw positive hb far)
      obtain ⟨filled', value'⟩ := clamped_eq (isNaN_share hw positive hb' near')
      have order : extent (clamped ((window - before) / window)) ≤ extent (clamped ((window - before') / window)) := by
        rw [value, value']
        exact max_le_max_left 0 (min_le_min_left 1 (share_anti hw positive hb hb' far le))
      rw [progressFor_of_near hw positive far, progressFor_of_near hw positive near']
      exact filled.thousandths_mono filled' ((extent_le_iff filled.finite filled'.finite).mp order)

namespace Activity

variable {clock base : Float}

/-- Whatever the finite clock, base and window, the remaining time is not negative and the progress lies between nothing
and one. With a window the progress is nothing before the edge of the window, one from when the activity is due, and
in between within a thousandth of the part of the window that has passed. While the clock goes on, the progress does
not fall and the remaining time does not rise. -/
theorem refresh_bounds (a : Activity) (hc : clock.isFinite = true) (hb : base.isFinite = true)
    (hw : window.isFinite = true) :
    0.0 ≤ (a.refresh clock base window).remaining ∧
    0.0 ≤ (a.refresh clock base window).progress ∧ (a.refresh clock base window).progress ≤ 1.0 ∧
    (window > 0.0 →
      (a.cue.before clock base > window → (a.refresh clock base window).progress = 0.0) ∧
      (a.cue.before clock base ≤ 0.0 → (a.refresh clock base window).progress = 1.0) ∧
      (¬ a.cue.before clock base > window → ¬ a.cue.before clock base ≤ 0.0 →
        (a.cue.before clock base).isFinite = true ∧ |valueOf (a.refresh clock base window).progress -
          (valueOf window - valueOf (a.cue.before clock base)) / valueOf window| ≤ 1 / 1000)) ∧
    ∀ later : Float, later.isFinite = true → clock ≤ later →
      (a.refresh clock base window).progress ≤ (a.refresh later base window).progress ∧
      (a.refresh later base window).remaining ≤ (a.refresh clock base window).remaining := by
  have number := a.cue.isNaN_before hc hb
  have share := progressFor_share hw number
  obtain ⟨nonneg, le_one⟩ := share.bounds
  refine ⟨remainingFor_nonneg number, nonneg, le_one, fun positive => ⟨fun far => ?_, fun due => ?_, fun near ahead => ?_⟩,
    fun later hl le => ?_⟩
  · have some := (not_le_zero_iff hw).mpr ((gt_zero_iff hw).mp positive)
    change progressFor (a.cue.before clock base) window = 0.0
    rw [progressFor, if_neg some, if_pos far]
  · exact progressFor_of_due hw ((gt_zero_iff hw).mp positive) number ((before_le_zero_iff number).mp due)
  · exact progressFor_error hw ((gt_zero_iff hw).mp positive) number near ahead
  · have shorter := a.cue.before_anti hc hl hb le
    have number' := a.cue.isNaN_before hl hb
    have filled := progressFor_anti hw number number' shorter
    exact ⟨(share.le_iff (progressFor_share hw number')).mpr filled, remainingFor_mono number number' shorter⟩

/-- Two seconds ahead in a window of eight seconds, and half a second later. -/
theorem refresh_bounds_two_seconds :
    let a : Activity := { id := 0, cue := { time := ⟨5000000000⟩ } }
    0.0 ≤ (a.refresh 3.0 0.0 8.0).remaining ∧ (a.refresh 3.0 0.0 8.0).progress ≤ 1.0 ∧
    |valueOf (a.refresh 3.0 0.0 8.0).progress - (valueOf 8.0 - valueOf (a.cue.before 3.0 0.0)) / valueOf 8.0| ≤ 1 / 1000 ∧
    (a.refresh 3.0 0.0 8.0).progress ≤ (a.refresh 3.5 0.0 8.0).progress ∧
    (a.refresh 3.5 0.0 8.0).remaining ≤ (a.refresh 3.0 0.0 8.0).remaining := by
  intro a
  have bounds := a.refresh_bounds (show (3.0 : Float).isFinite = true by decide +kernel) isFinite_zero
    (show (8.0 : Float).isFinite = true by decide +kernel)
  obtain ⟨remaining, -, progress, within, later⟩ := bounds
  have near := ((within (by decide +kernel)).2.2 (by decide +kernel) (by decide +kernel)).2
  exact ⟨remaining, progress, near, later 3.5 (by decide +kernel) (by decide +kernel)⟩

end Activity

end EncounterTimeline

import EncounterTimeline.Proofs.Decimal.Reading
import EncounterTimeline.Proofs.Playback.Progress
import EncounterTimeline.Proofs.Playback.Rebasing

/-! # What offsets do to a run

An offset is added to a position or compared with a distance, so a finite one only shifts a moment. A grace without end
keeps an activity from ever being due, a notice without bound is given at any distance, and a sum out of the range of
doubles sends the clock back to zero.
-/
namespace EncounterTimeline

open Decimal

theorem Decimal.neg_infinity : -infinity false = infinity true := by decide +kernel

theorem Decimal.exists_valueOf_neg {x : Float} (h : x.isFinite = true) :
    ∃ y : Float, y.isFinite = true ∧ valueOf y = -valueOf x := by
  obtain ⟨negative, m, e, canonical, le, rfl⟩ := exists_packed h
  refine ⟨packed (!negative) m e, isFinite_packed canonical le, ?_⟩
  rw [valueOf_packed canonical le, valueOf_packed canonical le]
  cases negative <;> simp [signed]

namespace Activity

variable {a : Activity}

/-- However late it is, the activity is not executed. -/
def NeverDue (a : Activity) : Prop :=
  ∀ clock base, (a.cue.before clock base).isFinite = true → a.isDue clock base = false

/-- A grace is a finite length of time, unless it was written to have no end. -/
theorem grace_cases (a : Activity) :
    (∃ m e, Canonical m e ∧ e ≤ maxExponent ∧ a.grace = packed false m e) ∨
      (a.latches.synced = true ∧ a.cue.syncEnd = some (infinity false)) ∧ a.grace = infinity false := by
  have none : ∃ m e, Canonical m e ∧ e ≤ maxExponent ∧ (0.0 : Float) = packed false m e :=
    ⟨0, -1074, canonical_zero, by decide, zero_eq_packed⟩
  rw [grace]
  split
  · exact .inl none
  · rename_i synced
    split
    · rename_i offset written
      split
      · rename_i positive
        have number : offset.isNaN = false := Bool.eq_false_iff.mpr fun nan => not_lt_of_isNaN (.inr nan) positive
        rcases finite_or_infinite number with finite | ⟨negative, rfl⟩
        · obtain ⟨m, e, canonical, le, -, exact⟩ := exists_packed_of_pos finite ((gt_zero_iff finite).mp positive)
          exact .inl ⟨m, e, canonical, le, exact⟩
        · have above := (lt_iff_extent isNaN_zero number).mp positive
          rw [extent_zero, extent_infinity] at above
          cases negative with
          | false => exact .inr ⟨⟨by simpa using synced, written⟩, rfl⟩
          | true => exact absurd above not_lt_bot
      · exact .inl none
    · exact .inl none

/-- A clock that stands at the end of a finite grace finds the activity due. -/
theorem exists_isDue {m : ℕ} {e : ℤ} (canonical : Canonical m e) (le : e ≤ maxExponent)
    (finite : a.grace = packed false m e) (fits : a.cue.time.Fits) :
    ∃ clock base, (a.cue.before clock base).isFinite = true ∧ a.isDue clock base = true := by
  have seconds := (Duration.moderate_seconds fits).1
  have length : (packed false m e).isFinite = true := isFinite_packed canonical le
  have turned : (packed true m e).isFinite = true := isFinite_packed canonical le
  -- From this base the cue is due at nothing.
  obtain ⟨base, finiteBase, opposite⟩ := exists_valueOf_neg seconds
  have sum : Closest (a.cue.effectiveTime base) (valueOf base + valueOf a.cue.time.seconds) :=
    add_closest finiteBase seconds
  rw [opposite, neg_add_cancel] at sum
  have due := sum.isFinite (by rw [abs_zero]; exact limit_pos)
  have nothing := sum.valueOf_eq isFinite_zero valueOf_zero
  have late := sub_closest due length
  have value : valueOf (packed true m e) = valueOf (a.cue.effectiveTime base) - valueOf (packed false m e) := by
    rw [nothing, zero_sub, valueOf_packed canonical le, valueOf_packed canonical le]
    rfl
  have within := value ▸ abs_valueOf_lt_limit turned
  have before : a.cue.before a.grace base = a.cue.effectiveTime base - packed false m e := by rw [Cue.before, finite]
  refine ⟨a.grace, base, ?_, ?_⟩
  · rw [before]
    exact late.isFinite within
  · have level := late.valueOf_eq turned value
    have passed : ¬ a.cue.before a.grace base > -a.grace := by
      rw [before, finite, neg_packed canonical le]
      refine fun ahead => absurd ((lt_iff_extent (isNaN_of_isFinite turned) late.isNaN).mp ahead) (not_lt.mpr ?_)
      rw [extent_le_iff (late.isFinite within) turned, level, value]
    rw [isDue, decide_eq_false passed, Bool.not_false]

/-- Only a grace that was written to have no end keeps an activity from ever being due, and only where a line synchronised
it. -/
theorem neverDue_iff (fits : a.cue.time.Fits) :
    a.NeverDue ↔ a.latches.synced = true ∧ a.cue.syncEnd = some (infinity false) := by
  constructor
  · intro never
    rcases a.grace_cases with ⟨m, e, canonical, le, finite⟩ | ⟨endless, -⟩
    · obtain ⟨clock, base, before, due⟩ := exists_isDue canonical le finite fits
      rw [never clock base before] at due
      cases due
    · exact endless
  · intro endless clock base before
    have grace : a.grace = infinity false := by
      have positive : infinity false > 0.0 := by decide +kernel
      simp [Activity.grace, endless, positive]
    have ahead : a.cue.before clock base > -a.grace := by
      rw [grace, neg_infinity]
      refine (lt_iff_extent (isNaN_infinity true) (isNaN_of_isFinite before)).mpr ?_
      rw [extent_infinity, extent_of_isFinite before]
      exact EReal.bot_lt_coe _
    rw [isDue, decide_eq_true ahead, Bool.not_true]

end Activity

namespace Cue

variable {c : Cue}

def AlwaysNoticed (c : Cue) : Prop := ∀ before : Float, before.isNaN = false → c.noticeDue before = true

theorem noticeDue_iff {before : Float} : c.noticeDue before = true ↔ ¬ c.noticeThreshold < before := by
  rw [noticeDue, Bool.not_eq_true', decide_eq_false_iff_not]

/-- Only a notice that is written to be infinitely early, or early by no number, is given at any distance. -/
theorem alwaysNoticed_iff :
    c.AlwaysNoticed ↔ ∃ x ∈ c.noticeOffset, x.isNaN = true ∨ x = infinity false := by
  simp only [AlwaysNoticed, noticeDue_iff]
  constructor
  · intro always
    have far := always _ (isNaN_infinity false)
    have near (finite : c.noticeThreshold.isFinite = true) : c.noticeThreshold < infinity false := by
      refine (lt_iff_extent (isNaN_of_isFinite finite) (isNaN_infinity false)).mpr ?_
      rw [extent_infinity, extent_of_isFinite finite]
      exact EReal.coe_lt_top _
    cases written : c.noticeOffset with
    | none => exact absurd (near (by rw [noticeThreshold, written]; exact isFinite_zero)) far
    | some x =>
      have threshold : c.noticeThreshold = x := by rw [noticeThreshold, written, Option.getD_some]
      rw [threshold] at far near
      refine ⟨x, rfl, or_iff_not_imp_left.mpr fun number => ?_⟩
      rcases finite_or_infinite (Bool.eq_false_iff.mpr number) with finite | ⟨negative, rfl⟩
      · exact absurd (near finite) far
      · cases negative with
        | false => rfl
        | true => exact absurd (by decide +kernel) far
  · rintro ⟨x, written, early⟩ before number
    have threshold : c.noticeThreshold = x := by rw [noticeThreshold, written, Option.getD_some]
    rw [threshold]
    rcases early with nan | rfl
    · exact not_lt_of_isNaN (.inl nan)
    · rw [lt_iff_extent (isNaN_infinity false) number, extent_infinity]
      exact not_top_lt

end Cue

def Decimal.Shifts (position offset : Float) : Prop := offset.isFinite = true ∧ |valueOf position + valueOf offset| < limit

theorem Decimal.isFinite_add_iff {position offset : Float} (finite : position.isFinite = true) :
    (position + offset).isFinite = true ↔ Shifts position offset := by
  constructor
  · intro sum
    have offset := (isFinite_of_add sum).2
    exact ⟨offset, (add_closest finite offset).isFinite_iff.mp sum⟩
  · rintro ⟨offset, within⟩
    exact (add_closest finite offset).isFinite within

/-- The clock goes where the offset shifts the position to, or back to zero if there is no such place. -/
theorem Clock.settle_add {position offset : Float} (finite : position.isFinite = true) :
    (Shifts position offset → settle (position + offset) = position + offset ∧
      Closest (settle (position + offset)) (valueOf position + valueOf offset)) ∧
    (¬ Shifts position offset → settle (position + offset) = 0.0) := by
  rw [settle, ← isFinite_add_iff finite]
  constructor
  · intro sum
    rw [if_pos sum]
    exact ⟨rfl, add_closest finite (isFinite_of_add sum).2⟩
  · intro sum
    rw [if_neg sum]

/-- A line moves the clock of a run to where an activity of the definition is due, shifted by the offset of its start. -/
theorem Session.clock_synchronize {p : Pace} {d : Definition} {s : Session} {f : Frame} {m : SyncMatch} {line : String}
    (timed : d.Timed) (h : Scene.Reached p d ⟨.rest, s⟩) (hf : s.cursor.frame = some f)
    (hm : s.definition.findSync f p.visible line = some m) (host : Duration) :
    ∃ a ∈ d.activities, a.cue = m.activity.cue ∧ (a.cue.effectiveTime f.base).isFinite = true ∧
      (s.synchronize p line host).2.clock = Clock.settle (a.cue.effectiveTime f.base + a.cue.syncStart.getD 0.0) := by
  obtain ⟨window, -⟩ := Definition.findSync_eq_some hm
  have there := Definition.mem_activities.mpr ⟨_, _, (Definition.mem_window window).1⟩
  obtain ⟨a, ha, same⟩ := Definition.exists_cue_of_script h.script.symm there
  have base : f.base.isFinite = true := (h.finite timed).cursor f (by rw [hf]; exact List.mem_cons_self)
  refine ⟨a, ha, same, Duration.isFinite_add_seconds base (timed a ha), ?_⟩
  rw [synchronize_of_findSync hf hm, (rebased_of_findSync hf hm host).clock, same]

end EncounterTimeline

import EncounterTimeline.Proofs.Decimal.Scientific
import EncounterTimeline.Proofs.Decimal.Sums
import EncounterTimeline.Proofs.Playback.Moves
import EncounterTimeline.Proofs.Playback.Settling
import EncounterTimeline.Proofs.Playback.Synchronisation

/-! # Positions stay finite

The clock of a run is finite, and so is the position that a frame counts from: it is a position of the clock, or one less
the time of a cue, and no cue is so far ahead that this is out of range.
-/
namespace EncounterTimeline

open Decimal

def Duration.Fits (d : Duration) : Prop := d.nanos / 1000000000 < UInt64.size

theorem Decimal.closest_toFloat (n : ℕ) : Closest n.toFloat n := by
  rcases Nat.eq_zero_or_pos n with rfl | positive
  · have zero : (0 : ℕ).toFloat = packed false 0 (-1074) := by decide +kernel
    rw [zero]
    simpa [signed] using closest_packed false canonical_zero
  · have rounded := rounded_ofScientific positive (Nat.zero_le 2048)
    rw [pow_zero, mul_one] at rounded
    exact .of_rounded rounded (Nat.cast_nonneg n)

namespace Duration

variable {d : Duration} {x : Float}

theorem billion_eq_packed : (1e9 : Float) = packed false (10 ^ 9 * 2 ^ 23) (-23) := by decide +kernel

/-- The part of a second that remains is small. -/
theorem moderate_nanos {n : ℕ} (small : n < 1000000000) :
    (n.toFloat / 1e9).isFinite = true ∧ |valueOf (n.toFloat / 1e9)| ≤ 8 := by
  rcases Nat.eq_zero_or_pos n with rfl | positive
  · have zero : (0 : ℕ).toFloat / 1e9 = 0.0 := by decide +kernel
    rw [zero]
    exact ⟨isFinite_zero, by simp⟩
  · have cast : (1 : ℚ) ≤ n := by exact_mod_cast positive
    have cast' : (n : ℚ) < 1000000000 := by exact_mod_cast small
    have rounded := rounded_ofScientific positive (Nat.zero_le 2048)
    rw [pow_zero, mul_one] at rounded
    obtain ⟨m, e, canonical, le, exact, error⟩ := rounded.exists_finite (by norm_num; linarith)
    obtain ⟨low, high⟩ := abs_le.mp error
    have some : 0 < m := by
      refine Nat.pos_of_ne_zero fun none => ?_
      rw [none] at low high
      norm_num at low high
      linarith
    have divisor : Canonical (10 ^ 9 * 2 ^ 23) (-23) := ⟨by norm_num, by norm_num, .inl (by norm_num)⟩
    have quotient := div_rounded canonical le some divisor (show (-23 : ℤ) ≤ maxExponent by decide) (by norm_num)
    rw [← exact, ← billion_eq_packed] at quotient
    have nonneg : (0 : ℚ) ≤ m * 2 ^ e / ((10 ^ 9 * 2 ^ 23 : ℕ) * 2 ^ (-23 : ℤ)) := by positivity
    have bound : (m : ℚ) * 2 ^ e / ((10 ^ 9 * 2 ^ 23 : ℕ) * 2 ^ (-23 : ℤ)) ≤ 4 := by
      rw [div_le_iff₀ (by positivity)]
      norm_num at low high ⊢
      linarith
    have moderate : |(m : ℚ) * 2 ^ e / ((10 ^ 9 * 2 ^ 23 : ℕ) * 2 ^ (-23 : ℤ))| ≤ 4 := by rwa [abs_of_nonneg nonneg]
    have closest := Closest.of_rounded quotient nonneg
    have within := abs_lt_limit (moderate.trans (by norm_num))
    exact ⟨closest.isFinite within, (closest.abs_valueOf_le within).trans (by linarith)⟩

theorem moderate_seconds (h : d.Fits) : d.seconds.isFinite = true ∧ |valueOf d.seconds| ≤ 2 ^ 80 := by
  have whole : |((d.nanos / 1000000000 : ℕ) : ℚ)| ≤ 2 ^ 64 := by
    rw [abs_of_nonneg (Nat.cast_nonneg _)]
    exact_mod_cast Nat.le_of_lt h
  have within := abs_lt_limit (whole.trans (by norm_num))
  have counted := closest_toFloat (d.nanos / 1000000000)
  have size := counted.abs_valueOf_le within
  obtain ⟨finite, part⟩ := moderate_nanos (Nat.mod_lt d.nanos (by norm_num : 0 < 1000000000))
  have sum := add_closest (counted.isFinite within) finite
  have total := abs_add_le (valueOf (d.nanos / 1000000000).toFloat) (valueOf ((d.nanos % 1000000000).toFloat / 1e9))
  have moderate := (total.trans (add_le_add (size.trans (mul_le_mul_of_nonneg_left whole two_pos.le)) part))
  have within' := abs_lt_limit (moderate.trans (by norm_num))
  refine ⟨sum.isFinite within', (sum.abs_valueOf_le within').trans ?_⟩
  norm_num at moderate ⊢
  linarith

theorem isFinite_add_seconds (hx : x.isFinite = true) (h : d.Fits) : (x + d.seconds).isFinite = true := by
  obtain ⟨finite, moderate⟩ := moderate_seconds h
  exact (add_closest hx finite).isFinite (abs_add_lt_limit hx moderate)

theorem isFinite_sub_seconds (hx : x.isFinite = true) (h : d.Fits) : (x - d.seconds).isFinite = true := by
  obtain ⟨finite, moderate⟩ := moderate_seconds h
  exact (sub_closest hx finite).isFinite (abs_sub_lt_limit hx moderate)

end Duration

theorem Clock.isFinite_settle (x : Float) : (Clock.settle x).isFinite = true := by
  rw [Clock.settle]
  split
  · assumption
  · exact isFinite_zero

def Definition.Timed (d : Definition) : Prop := ∀ a ∈ d.activities, a.cue.time.Fits

def Cursor.Finite (c : Cursor) : Prop := ∀ f ∈ c.frame.toList ++ c.returns, f.base.isFinite = true

structure Session.Finite (s : Session) : Prop where
  clock : s.clock.isFinite = true
  cursor : s.cursor.Finite

/-- The cues of definitions that are written the same are the same. -/
theorem Definition.exists_cue_of_script {d e : Definition} (h : d.script = e.script) {b : Activity}
    (hb : b ∈ e.activities) : ∃ a ∈ d.activities, a.cue = b.cue := by
  obtain ⟨c, i, hi⟩ := mem_activities.mp hb
  have written : d.script.statement? c i = some b.script := by rw [h, statement?_script, hi, Option.map_some]
  rw [statement?_script] at written
  obtain ⟨a, ha, same⟩ := Option.map_eq_some_iff.mp written
  exact ⟨a, mem_activities.mpr ⟨c, i, ha⟩, Activity.cue_eq_of_script same⟩

theorem Definition.Timed.congr {d e : Definition} (h : d.script = e.script) (timed : d.Timed) : e.Timed := by
  intro b hb
  obtain ⟨a, ha, same⟩ := exists_cue_of_script h hb
  exact same ▸ timed a ha

namespace Cursor

variable {d : Definition} {c : Cursor} {fs : List Frame} {dest : Destination} {clock : Float}

theorem finite_ofFrames (h : ∀ f ∈ fs, f.base.isFinite = true) : (ofFrames d fs).Finite := by
  rcases ofFrames_cases d fs with ⟨he, -⟩ | ⟨above, f, below, g, rfl, -, hf, he⟩
  · rw [he]
    nofun
  · rw [he]
    intro k hk
    rcases List.mem_cons.mp hk with rfl | hk
    · rw [(Frame.settle?_eq_some hf).2.1]
      exact h f (by simp)
    · have later : k ∈ f :: below := List.mem_cons_of_mem _ hk
      exact h k (List.mem_append_right _ later)

/-- The same frames at other places count from the same positions. -/
theorem Finite.moved {f g : Frame} {returns : List Frame} (h : Finite ⟨some f, returns⟩) (base : g.base = f.base) :
    ∀ k ∈ g :: returns, k.base.isFinite = true := by
  obtain ⟨own, below⟩ := List.forall_mem_cons.mp h
  exact List.forall_mem_cons.mpr ⟨base ▸ own, below⟩

theorem Finite.advance (h : c.Finite) (d : Definition) : (c.advance d).Finite := by
  obtain ⟨frame, returns⟩ := c
  cases frame with
  | none => exact h
  | some f => exact finite_ofFrames (h.moved rfl)

theorem Finite.passBy (h : c.Finite) (d : Definition) (resume : ℕ) : (c.passBy d resume).Finite := by
  rw [Cursor.passBy]
  split
  · exact h.advance d
  · exact h

theorem Finite.moveTo (h : c.Finite) (index : ℕ) : (c.moveTo index).Finite := by
  obtain ⟨frame, returns⟩ := c
  cases frame with
  | none => exact h
  | some f => exact h.moved rfl

theorem Finite.enter (h : c.Finite) (j : Jump) {entered : Frame} (finite : entered.base.isFinite = true)
    (resume : ℕ) : (c.enter d j entered resume).Finite := by
  obtain ⟨frame, returns⟩ := c
  refine finite_ofFrames (List.forall_mem_cons.mpr ⟨finite, ?_⟩)
  have below : ∀ f ∈ returns, f.base.isFinite = true := fun f hf => h f (List.mem_append_right _ hf)
  split
  · cases frame with
    | none => exact below
    | some f => exact h.moved rfl
  · exact below

theorem isFinite_entry (timed : d.Timed) (finite : clock.isFinite = true) :
    (entry d clock dest).base.isFinite = true := by
  cases dest with
  | subroutine index => exact finite
  | statement scope index =>
    show (clock - ((d.statement? scope index).map fun a => a.cue.time.seconds).getD 0.0).isFinite = true
    cases ha : d.statement? scope index with
    | none =>
      refine (sub_closest finite isFinite_zero).isFinite ?_
      rw [valueOf_zero, sub_zero]
      exact abs_valueOf_lt_limit finite
    | some a => exact Duration.isFinite_sub_seconds finite (timed a (Definition.mem_activities.mpr ⟨scope, index, ha⟩))

end Cursor

namespace Session

variable {p : Pace} {s : Session}

theorem Finite.follow (h : s.Finite) (timed : s.definition.Timed) (owner : ElementId) (jump : Option Jump)
    (resume : ℕ) : (s.follow owner jump resume).Finite := by
  cases jump with
  | none => exact ⟨h.clock, h.cursor.passBy _ resume⟩
  | some j =>
    cases hr : s.definition.resolve s.cursor.scope j with
    | none =>
      rw [follow_unresolved hr]
      exact ⟨h.clock, h.cursor.passBy _ resume⟩
    | some dest =>
      rw [follow_resolved hr]
      exact ⟨h.clock, h.cursor.enter j (Cursor.isFinite_entry timed h.clock) resume⟩

theorem Finite.synchronize (h : s.Finite) (p : Pace) (line : String) (host : Duration) :
    (s.synchronize p line host).2.Finite := by
  rcases synchronize_cases p s line host with he | ⟨f, m, -, -, he⟩
  · rw [he]
    exact h
  · rw [he]
    exact ⟨Clock.isFinite_settle _, h.cursor.moveTo m.index⟩

theorem finite_start (p : Pace) (s : Session) (host : Duration) : (s.start p host).Finite := by
  refine ⟨?_, ?_⟩
  · rw [clock_start]
    exact isFinite_zero
  · rw [cursor_start]
    exact Cursor.finite_ofFrames (List.forall_mem_singleton.mpr isFinite_zero)

end Session

namespace Scene

open Session

variable {p : Pace} {d : Definition} {x y : Scene}

theorem Next.finite (move : Next p x y) (timed : x.session.definition.Timed) (h : x.session.Finite) :
    y.session.Finite := by
  cases move with
  | step | fire | begin | finish | execute | await | exhaust => exact ⟨h.clock, h.cursor⟩
  | tick | rebase => exact ⟨Clock.isFinite_settle _, h.cursor⟩
  | hear s line host => exact h.synchronize p line host
  | jump s t => exact h.follow timed t.id t.rule.jump 0
  | passOver s => exact ⟨h.clock, h.cursor.advance _⟩
  | leave s n a => exact h.follow timed a.id a.cue.jump 1
  | «show» s =>
    refine ⟨?_, ?_⟩
    · show (s.refreshWindow p).clock.isFinite = true
      rw [(SameTime.refreshWindow p s).clock]
      exact h.clock
    · show (s.refreshWindow p).cursor.Finite
      rw [cursor_refreshWindow]
      exact h.cursor

theorem Reached.finite (h : Reached p d x) (timed : d.Timed) : x.session.Finite := by
  induction h with
  | start s host => exact finite_start p s host
  | next reached move ih => exact move.finite (timed.congr reached.script.symm) ih

end Scene

end EncounterTimeline

import EncounterTimeline.Proofs.Playback.Draining
import EncounterTimeline.Proofs.Playback.Positions
import EncounterTimeline.Proofs.Timeline.Landing

/-! # Where a goto lands

A goto onto an activity counts the times of its list from a position that is to make the activity due at once: the clock
less its time. Both the difference and the sum that it is added back in are rounded, and the activity is executed on landing
exactly if that sum does not come out beyond the clock.
-/
namespace EncounterTimeline

open Decimal

namespace Decimal

variable {x y : Float}

/-- Whole numbers of moderate size are doubles. -/
theorem exists_valueOf_eq_intCast {k : ℤ} (small : k.natAbs < 2 ^ 53) :
    ∃ x : Float, x.isFinite = true ∧ valueOf x = k := by
  rcases Nat.eq_zero_or_pos k.natAbs with none | positive
  · rw [Int.natAbs_eq_zero.mp none, Int.cast_zero]
    exact ⟨0.0, isFinite_zero, valueOf_zero⟩
  · obtain ⟨m, e, canonical, le, -, exact, -⟩ := toFloat_exact positive small
    refine ⟨packed (decide (k < 0)) m e, isFinite_packed canonical le, ?_⟩
    rw [valueOf_packed canonical le, exact, Nat.cast_natAbs, Int.cast_abs, signed]
    by_cases below : k < 0
    · rw [decide_eq_true below, if_pos rfl, abs_of_neg (by exact_mod_cast below), neg_neg]
    · rw [decide_eq_false below, if_neg Bool.false_ne_true, abs_of_nonneg (by exact_mod_cast not_lt.mp below)]

/-- Taking away and adding back leaves a finite double, near the first. -/
theorem isFinite_sub_add (hx : x.isFinite = true) (hy : y.isFinite = true) (moderate : |valueOf y| ≤ 2 ^ 80) :
    (x - y + y).isFinite = true ∧ |valueOf (x - y + y) - valueOf x| < limit := by
  have away := sub_closest hx hy
  have within := abs_sub_lt_limit hx moderate
  have finite := away.isFinite within
  have back := add_closest finite hy
  have within' := abs_add_lt_limit finite moderate
  have finite' := back.isFinite within'
  refine ⟨finite', ?_⟩
  -- Each of the two roundings loses half a unit in the last place at most.
  have lost := away.error within
  have lost' := back.error within'
  have size := abs_valueOf_le finite
  have size' := abs_valueOf_le finite'
  have triangle := abs_add_le (valueOf (x - y + y) - (valueOf (x - y) + valueOf y))
    (valueOf (x - y) - (valueOf x - valueOf y))
  have split : valueOf (x - y + y) - (valueOf (x - y) + valueOf y) + (valueOf (x - y) - (valueOf x - valueOf y)) =
      valueOf (x - y + y) - valueOf x := by ring
  rw [split] at triangle
  have large : (1 : ℚ) ≤ 2 ^ (970 : ℤ) := one_le_zpow₀ (by norm_num) (by norm_num)
  rw [two_zpow_maxExponent] at size size'
  rw [limit]
  generalize (2 : ℚ) ^ (970 : ℤ) = scale at *
  norm_num at lost lost'
  linarith

/-- What is taken away exactly comes back exactly. -/
theorem valueOf_sub_add (hx : x.isFinite = true) (hy : y.isFinite = true) (finite : (x - y).isFinite = true)
    (exact : valueOf (x - y) = valueOf x - valueOf y) : valueOf (x - y + y) = valueOf x := by
  have back := add_closest finite hy
  rw [exact, sub_add_cancel] at back
  exact back.valueOf_eq hx rfl

/-- Between whole numbers nothing is lost. -/
theorem valueOf_sub_of_whole (hx : x.isFinite = true) (hy : y.isFinite = true) {k l : ℤ} (hk : valueOf x = k)
    (hl : valueOf y = l) (small : k.natAbs < 2 ^ 52) (small' : l.natAbs < 2 ^ 52) :
    valueOf (x - y) = valueOf x - valueOf y := by
  obtain ⟨z, finite, exact⟩ := exists_valueOf_eq_intCast (show (k - l).natAbs < 2 ^ 53 by omega)
  rw [Int.cast_sub, ← hk, ← hl] at exact
  exact (sub_closest hx hy).valueOf_eq finite exact

end Decimal

namespace Session

variable {p : Pace} {s u : Session} {f : Frame} {a : Activity} {scope : Scope} {index : ℕ}

theorem suffix_record (j : Journal) (es : List Happening) : j <:+ j.record es := ⟨es.reverse, rfl⟩

theorem suffix_follow (s : Session) (owner : ElementId) (jump : Option Jump) (resume : ℕ) :
    s.journal <:+ (s.follow owner jump resume).journal :=
  suffix_record ..

theorem suffix_refreshWindow (p : Pace) (s : Session) : s.journal <:+ (s.refreshWindow p).journal := by
  cases hf : s.cursor.frame with
  | none =>
    simp only [refreshWindow, hf]
    exact List.suffix_rfl
  | some f =>
    rw [refreshWindow_of_frame hf]
    exact suffix_record ..

theorem suffix_play (p : Pace) (n : ℕ) (s : Session) : s.journal <:+ (play p n s).journal := by
  refine play_keeps (motive := fun t => s.journal <:+ t.journal) ?_ ?_ ?_ n List.suffix_rfl
  · exact fun _ kept => kept
  · intro t f a kept
    exact (kept.trans (suffix_record t.journal _)).trans (suffix_follow (t.strike p f a) a.id a.cue.jump 1)
  · intro t f a kept
    exact kept.trans (suffix_record t.journal _)

theorem not_mem_of_executions {j : Journal} (none : j.executions = 0) (id : ElementId) : .executed id ∉ j := by
  intro listed
  exact List.countP_eq_zero.mp none _ listed rfl

/-- What is due at the cursor is executed in the first round. -/
theorem executed_of_due (hf : u.cursor.frame = some f) (ha : f.activity? u.definition = some a)
    (due : a.isDue u.clock f.base = true) (p : Pace) (n : ℕ) :
    ∃ later, ((play p (n + 1) u).refreshWindow p).journal = later ++ u.journal ∧ .executed a.id ∈ later := by
  rw [play_execute hf ha due]
  have followed := suffix_follow (u.strike p f a) a.id a.cue.jump 1
  obtain ⟨after, grown⟩ := (followed.trans (suffix_play p n _)).trans (suffix_refreshWindow p _)
  refine ⟨after ++ .executed a.id :: (u.pending a).reverse, ?_, by simp⟩
  rw [← grown, strike, record_journal, Journal.record]
  simp

/-- What is not due is waited for, and nothing is executed. -/
theorem unexecuted_of_early (hf : u.cursor.frame = some f) (ha : f.activity? u.definition = some a)
    (early : a.isDue u.clock f.base = false) (p : Pace) (n : ℕ) :
    ∃ later, ((play p (n + 1) u).refreshWindow p).journal = later ++ u.journal ∧ later.executions = 0 := by
  rw [play_await hf ha early]
  have noticed := suffix_record u.journal (u.pendingNow f.base a)
  obtain ⟨later, grown⟩ := noticed.trans (suffix_refreshWindow p (u.await p f a))
  refine ⟨later, grown.symm, ?_⟩
  have count := (executions_refreshWindow p (u.await p f a)).trans (executions_await p u f a)
  rw [← grown, Journal.executions, List.countP_append] at count
  exact Nat.add_eq_right.mp count

structure Landed (s : Session) (scope : Scope) (index : ℕ) (a : Activity) (u : Session) : Prop where
  frame : u.cursor.frame = some ⟨scope, index, s.clock - a.cue.time.seconds⟩
  fresh : u.definition.statement? scope index = some a.rearm
  script : u.definition.script = s.definition.script
  clock : u.clock = s.clock
  journal : ∃ later, u.journal = later ++ s.journal ∧ later.executions = 0

theorem landed_follow {name : String}
    (hr : s.definition.resolve s.cursor.scope (.goto name) = some (.statement scope index))
    (ha : s.definition.statement? scope index = some a) (owner : ElementId) (resume : ℕ) :
    s.Landed scope index a (s.follow owner (some (.goto name)) resume) := by
  have entered : Cursor.entry s.definition s.clock (.statement scope index) =
      ⟨scope, index, s.clock - a.cue.time.seconds⟩ := by
    rw [Cursor.entry, ha]
    rfl
  have settled : Frame.settle? s.definition ⟨scope, index, s.clock - a.cue.time.seconds⟩ =
      some ⟨scope, index, s.clock - a.cue.time.seconds⟩ := Frame.settle?_of_activity? ha
  have followed : s.follow owner (some (.goto name)) resume = _ := follow_resolved hr
  rw [entered] at followed
  rw [followed]
  refine
    { frame := ?_
      fresh := ?_
      script := Definition.script_rearmFrom
      clock := rfl
      journal := ⟨[.rearmed _], rfl, rfl⟩ }
  · exact congrArg Cursor.frame (Cursor.ofFrames_cons_of_some settled)
  · exact Definition.statement?_rearmFrom.trans (by rw [if_pos ⟨rfl, Nat.le_refl _⟩, ha, Option.map_some])

theorem Landed.fall {jump : Option Jump} (h : s.Landed scope index a u)
    (lost : ∀ j, jump = some j → s.definition.resolve scope j = none) (owner : ElementId) :
    s.Landed scope index a (u.follow owner jump 0) := by
  cases jump with
  | none => exact ⟨h.frame, h.fresh, h.script, h.clock, h.journal⟩
  | some j =>
    have own : u.cursor.scope = scope := by rw [Cursor.scope, h.frame]; rfl
    have nowhere : u.definition.resolve u.cursor.scope j = none := by
      rw [own, Definition.resolve_congr h.script]
      exact lost j rfl
    rw [follow_unresolved nowhere]
    obtain ⟨later, journal, none⟩ := h.journal
    exact ⟨h.frame, h.fresh, h.script, h.clock, _ :: later, congrArg (_ :: ·) journal, none⟩

theorem Landed.followAll {fired : List Trigger} (h : s.Landed scope index a u)
    (last : ∀ t ∈ fired, ∀ j, t.rule.jump = some j → s.definition.resolve scope j = none) :
    s.Landed scope index a (u.followAll fired) := by
  induction fired generalizing u with
  | nil => exact h
  | cons t fired ih =>
    obtain ⟨first, later⟩ := List.forall_mem_cons.mp last
    exact ih (h.fall first t.id) later

/-- The loop begins with the activity that the goto led to. -/
theorem Landed.executed_iff (h : s.Landed scope index a u) (p : Pace) (n : ℕ) :
    ∃ later, ((play p (n + 1) u).refreshWindow p).journal = later ++ s.journal ∧
      (.executed a.id ∈ later ↔ ¬ a.cue.before s.clock (s.clock - a.cue.time.seconds) > -0.0) := by
  obtain ⟨fresh, journal, none⟩ := h.journal
  -- The latches have just been cleared, so there is no grace.
  have due : a.rearm.isDue u.clock (s.clock - a.cue.time.seconds) =
      !decide (a.cue.before s.clock (s.clock - a.cue.time.seconds) > -0.0) := by
    rw [h.clock]
    rfl
  by_cases ahead : a.cue.before s.clock (s.clock - a.cue.time.seconds) > -0.0
  · rw [decide_eq_true ahead] at due
    obtain ⟨later, grown, silent⟩ := unexecuted_of_early h.frame h.fresh due p n
    refine ⟨later ++ fresh, by rw [grown, journal, List.append_assoc], iff_of_false ?_ (not_not_intro ahead)⟩
    intro listed
    rcases List.mem_append.mp listed with listed | listed
    · exact not_mem_of_executions silent a.id listed
    · exact not_mem_of_executions none a.id listed
  · rw [decide_eq_false ahead] at due
    obtain ⟨later, grown, listed⟩ := executed_of_due h.frame h.fresh due p n
    exact ⟨later ++ fresh, by rw [grown, journal, List.append_assoc],
      iff_of_true (List.mem_append_left _ listed) ahead⟩

end Session

namespace Scene

open Session

variable {p : Pace} {d : Definition} {x : Scene}

/-- The move that comes next follows a goto onto the activity at an address, no later one leads elsewhere, and that many
activities may be executed after it. -/
inductive Lands (p : Pace) (scope : Scope) (index : ℕ) : Scene → ℕ → Prop
  | leave (s : Session) (a : Activity) (n : ℕ) (name : String) (goes : a.cue.jump = some (.goto name))
      (resolved : s.definition.resolve s.cursor.scope (.goto name) = some (.statement scope index)) :
      Lands p scope index ⟨.leaving a n, s⟩ n
  | jump (s : Session) (t : Trigger) (fired : List Trigger) (name : String) (goes : t.rule.jump = some (.goto name))
      (resolved : s.definition.resolve s.cursor.scope (.goto name) = some (.statement scope index))
      (last : ∀ r ∈ fired, ∀ j, r.rule.jump = some j → s.definition.resolve scope j = none) :
      Lands p scope index ⟨.jumping (t :: fired), s⟩ p.maxSteps

theorem Lands.landed {scope : Scope} {index k : ℕ} (lands : x.Lands p scope index k) :
    ∃ a u, x.session.definition.statement? scope index = some a ∧ x.session.Landed scope index a u ∧
      x.outcome p = (play p k u).refreshWindow p := by
  cases lands with
  | leave s a n name goes resolved =>
    obtain ⟨target, there⟩ := Definition.exists_statement?_of_resolve resolved
    have landed := landed_follow resolved there a.id 1
    rw [← goes] at landed
    exact ⟨target, _, there, landed, rfl⟩
  | jump s t fired name goes resolved last =>
    obtain ⟨target, there⟩ := Definition.exists_statement?_of_resolve resolved
    have landed := landed_follow resolved there t.id 0
    rw [← goes] at landed
    exact ⟨target, _, there, landed.followAll last, rfl⟩

/-- An activity that a goto leads to is executed on landing, at the clock position of the goto, exactly if its time taken
away from the clock and added back is not beyond the clock. So it is if the difference is exact, as it is between whole
seconds. -/
theorem landing_due_iff (p : Pace) (d : Definition) (timed : d.Timed) (x : Scene) (h : Reached p d x) (scope : Scope)
    (index n : ℕ) (lands : x.Lands p scope index (n + 1)) :
    ∃ a later, x.session.definition.statement? scope index = some a ∧ (x.outcome p).clock = x.session.clock ∧
      (x.outcome p).journal = later ++ x.session.journal ∧
      (.executed a.id ∈ later ↔
        ¬ x.session.clock - a.cue.time.seconds + a.cue.time.seconds - x.session.clock > 0.0) ∧
      (.executed a.id ∈ later ↔
        valueOf (x.session.clock - a.cue.time.seconds + a.cue.time.seconds) ≤ valueOf x.session.clock) ∧
      (valueOf (x.session.clock - a.cue.time.seconds) = valueOf x.session.clock - valueOf a.cue.time.seconds →
        .executed a.id ∈ later) ∧
      ∀ k l : ℤ, valueOf x.session.clock = k → valueOf a.cue.time.seconds = l →
        k.natAbs < 2 ^ 52 → l.natAbs < 2 ^ 52 → .executed a.id ∈ later := by
  obtain ⟨a, u, there, landed, outcome⟩ := lands.landed
  obtain ⟨later, grown, executed⟩ := landed.executed_iff p n
  have clock := (h.finite timed).clock
  have fits := (timed.congr h.script.symm) a (Definition.mem_activities.mpr ⟨scope, index, there⟩)
  obtain ⟨time, moderate⟩ := Duration.moderate_seconds fits
  obtain ⟨back, within⟩ := isFinite_sub_add clock time moderate
  have stayed : (x.outcome p).clock = x.session.clock := by
    rw [outcome]
    exact ((SameTime.play p (n + 1) u).trans (.refreshWindow p _)).clock.trans landed.clock
  have due : .executed a.id ∈ later ↔
      valueOf (x.session.clock - a.cue.time.seconds + a.cue.time.seconds) ≤ valueOf x.session.clock := by
    rw [executed, Cue.before, Cue.effectiveTime, sub_gt_negative_zero_iff back clock within, not_lt]
  have exact_due (exact : valueOf (x.session.clock - a.cue.time.seconds) =
      valueOf x.session.clock - valueOf a.cue.time.seconds) : .executed a.id ∈ later :=
    due.mpr (valueOf_sub_add clock time (Duration.isFinite_sub_seconds clock fits) exact).le
  refine ⟨a, later, there, stayed, outcome ▸ grown, ?_, due, exact_due, ?_⟩
  · rw [due, sub_gt_zero_iff back clock within, not_lt]
  · intro k l hk hl small small'
    exact exact_due (valueOf_sub_of_whole clock time hk hl small small')

def hop (first second : Duration) : Session :=
  { definition :=
      { elements :=
          [.activity { id := 0, cue := { time := first, goto := some "Enrage" } },
            .activity { id := 1, cue := { name := some "Enrage", time := second } }] } }

def hopping (first second : Duration) : Session :=
  ((hop first second).start ({} : Settings).pace .zero).pass ({} : Settings).pace first

theorem exists_lands_hop {first second : Duration}
    (due : ((hopping first second).definition.statement? .root 0).any
      (fun a => a.isDue (hopping first second).clock 0.0) = true) :
    ∃ x n, Reached ({} : Settings).pace (hop first second).definition x ∧
      x.Lands ({} : Settings).pace .root 1 (n + 1) ∧
      x.session.definition.statement? .root 1 = (hopping first second).definition.statement? .root 1 ∧
      x.session.clock = (hopping first second).clock ∧
      x.outcome ({} : Settings).pace = (hopping first second).step ({} : Settings).pace := by
  obtain ⟨a, ha, due⟩ := (Option.any_eq_true _ _).mp due
  have reached : Reached ({} : Settings).pace (hop first second).definition
      ⟨.playing ({} : Settings).pace.maxSteps, hopping first second⟩ :=
    (Reached.start (hop first second) .zero rfl).next (.tick _ first)
  have frame : (hopping first second).cursor.frame = some .start := rfl
  have goes : a.cue.jump = some (.goto "Enrage") := by
    cases ha
    rfl
  have resolved : ((hopping first second).strike ({} : Settings).pace .start a).definition.resolve .root
      (.goto "Enrage") = some (.statement .root 1) := by
    rw [Definition.resolve_congr ((script_strike _ _ _ _).trans reached.script)]
    rfl
  have executed := reached.next (.execute _ 255 .start a frame ha due)
  refine ⟨_, 254, executed, .leave _ a 255 "Enrage" goes resolved, ?_, rfl, ?_⟩
  · show ((hopping first second).definition.modifyStatement .root 0 _).statement? .root 1 = _
    rw [Definition.statement?_modifyStatement, if_neg (by decide)]
  · show _ = (Session.play _ (255 + 1) _).refreshWindow _
    rw [play_execute frame ha due]
    rfl

theorem landing_due_iff_hop :
    ∃ x n a later, Reached ({} : Settings).pace (hop ⟨1000000000⟩ ⟨3000000000⟩).definition x ∧
      x.Lands ({} : Settings).pace .root 1 (n + 1) ∧ x.session.definition.statement? .root 1 = some a ∧
      (x.outcome ({} : Settings).pace).journal = later ++ x.session.journal ∧ .executed a.id ∈ later := by
  have due : ((hopping ⟨1000000000⟩ ⟨3000000000⟩).definition.statement? .root 0).any
      (fun a => a.isDue (hopping ⟨1000000000⟩ ⟨3000000000⟩).clock 0.0) = true := by decide +kernel
  have timed : (hop ⟨1000000000⟩ ⟨3000000000⟩).definition.Timed := by
    simp [Definition.Timed, hop, Definition.activities, Element.activities, Duration.Fits, UInt64.size]
  have back : ((hopping ⟨1000000000⟩ ⟨3000000000⟩).definition.statement? .root 1).all (fun a =>
      !decide ((hopping ⟨1000000000⟩ ⟨3000000000⟩).clock - a.cue.time.seconds + a.cue.time.seconds -
        (hopping ⟨1000000000⟩ ⟨3000000000⟩).clock > 0.0)) = true := by decide +kernel
  obtain ⟨x, n, reached, lands, same, clock, -⟩ := exists_lands_hop due
  obtain ⟨a, later, there, -, grown, executed, -⟩ := landing_due_iff _ _ timed x reached .root 1 n lands
  rw [← same, ← clock, there, Option.all_some, Bool.not_eq_true', decide_eq_false_iff_not] at back
  exact ⟨x, n, a, later, reached, lands, there, grown, executed.mpr back⟩

/-- A tenth of a second, less eleven tenths and plus eleven tenths, is more than a tenth. So a goto after a tenth of a second
onto an activity with that time is not executed on landing. -/
theorem exists_landing_not_due :
    ∃ x n a, Reached ({} : Settings).pace (hop ⟨100000000⟩ ⟨1100000000⟩).definition x ∧
      x.Lands ({} : Settings).pace .root 1 (n + 1) ∧ x.session.definition.statement? .root 1 = some a ∧
      .executed a.id ∉ (x.outcome ({} : Settings).pace).journal := by
  have due : ((hopping ⟨100000000⟩ ⟨1100000000⟩).definition.statement? .root 0).any
      (fun a => a.isDue (hopping ⟨100000000⟩ ⟨1100000000⟩).clock 0.0) = true := by decide +kernel
  have missed : ((hopping ⟨100000000⟩ ⟨1100000000⟩).definition.statement? .root 1).any (fun a =>
      ((hopping ⟨100000000⟩ ⟨1100000000⟩).step ({} : Settings).pace).journal.all fun e =>
        !(e.isExecution && e.subject == some a.id)) = true := by decide +kernel
  obtain ⟨x, n, reached, lands, same, -, outcome⟩ := exists_lands_hop due
  obtain ⟨a, there, missed⟩ := (Option.any_eq_true _ _).mp missed
  refine ⟨x, n, a, reached, lands, same.trans there, fun listed => ?_⟩
  rw [outcome] at listed
  simpa [Happening.isExecution, Happening.subject] using List.all_eq_true.mp missed _ listed

end Scene

end EncounterTimeline

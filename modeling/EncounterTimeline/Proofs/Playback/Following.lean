import EncounterTimeline.Proofs.Playback.Rebasing

/-! # What following a jump touches

A jump that lands somewhere clears the latches of the scope of its landing from there on, and touches nothing else of the
definition. Where no jump lands the definition is as it was, and the cursor goes past its place at most.
-/
namespace EncounterTimeline

namespace Definition

variable {d e e' : Definition} {s : Scope} {start : ℕ}

structure Rearmed (d : Definition) (s : Scope) (start : ℕ) (e : Definition) : Prop where
  cleared : ∀ i, start ≤ i → e.statement? s i =
    (d.statement? s i).map fun a => { a with latches := ⟨false, false, false, false⟩ }
  kept : ∀ t i, t ≠ s ∨ i < start → e.statement? t i = d.statement? t i
  triggers : e.elements.map Element.asTrigger = d.elements.map Element.asTrigger
  script : e.script = d.script

theorem rearmed_rearmFrom (d : Definition) (s : Scope) (start : ℕ) : d.Rearmed s start (d.rearmFrom s start) where
  cleared i le := by
    rw [statement?_rearmFrom, if_pos ⟨rfl, le⟩]
    rfl
  kept t i apart := by
    rw [statement?_rearmFrom, if_neg]
    rintro ⟨same, le⟩
    rcases apart with other | less
    · exact other same
    · exact Nat.not_lt_of_le le less
  triggers := map_asTrigger_mapScope _
  script := script_rearmFrom

/-- Nothing is left open. -/
theorem Rearmed.unique (h : d.Rearmed s start e) (h' : d.Rearmed s start e') : e = e' := by
  refine eq_of_script (h.script.trans h'.script.symm) (h.triggers.trans h'.triggers.symm) fun t i => ?_
  by_cases apart : t ≠ s ∨ i < start
  · rw [h.kept t i apart, h'.kept t i apart]
  · obtain ⟨rfl, le⟩ : t = s ∧ start ≤ i := by simpa only [not_or, not_lt, ne_eq, not_not] using apart
    rw [h.cleared i le, h'.cleared i le]

theorem rearmed_iff : d.Rearmed s start e ↔ e = d.rearmFrom s start :=
  ⟨fun h => h.unique (rearmed_rearmFrom d s start), fun h => h ▸ rearmed_rearmFrom d s start⟩

/-- The frame in which a destination is entered at a clock position: a subroutine at its start, counting from now, and a
statement so that it is due now. -/
inductive Enters (d : Definition) (clock : Float) : Destination → Frame → Prop
  | subroutine (k : ℕ) : Enters d clock (.subroutine k) ⟨.subroutine k, 0, clock⟩
  | statement {s : Scope} {i : ℕ} {a : Activity} (here : d.statement? s i = some a) :
      Enters d clock (.statement s i) ⟨s, i, clock - a.cue.time.seconds⟩

end Definition

namespace Cursor

variable {d : Definition} {c : Cursor} {origin : Scope} {j : Jump} {dest : Destination}

theorem enters_entry (lands : d.resolve origin j = some dest) (clock : Float) :
    d.Enters clock dest (entry d clock dest) := by
  cases dest with
  | subroutine k => exact .subroutine k
  | statement s i =>
    obtain ⟨a, ha⟩ := Definition.exists_statement?_of_resolve lands
    have entered : entry d clock (.statement s i) = ⟨s, i, clock - a.cue.time.seconds⟩ := by
      rw [entry, ha, Option.map_some, Option.getD_some]
    rw [entered]
    exact .statement ha

/-- Without a landing nothing is entered. -/
theorem follow_nowhere {jump : Option Jump} (nowhere : jump.bind (d.resolve c.scope) = none) (clock : Float)
    (resume : ℕ) : (c.follow d jump clock resume).2 = (c.passBy d resume, d) := by
  cases jump with
  | none => rfl
  | some j =>
    replace nowhere : d.resolve c.scope j = none := nowhere
    simp only [follow, nowhere]

theorem follow_landing (lands : d.resolve c.scope j = some dest) (clock : Float) (resume : ℕ) :
    (c.follow d (some j) clock resume).2 =
      (c.enter d j (entry d clock dest) resume,
        d.rearmFrom (entry d clock dest).scope (entry d clock dest).index) := by
  simp only [follow, lands]

theorem enter_of_goto (goto : j.isCall = false) (landing : Frame) (resume : ℕ) :
    c.enter d j landing resume = settle ⟨some landing, c.returns⟩ d := by
  simp only [enter, settle, goto, Bool.false_eq_true, if_false]

theorem enter_of_call (call : j.isCall = true) (landing : Frame) (resume : ℕ) :
    c.enter d j landing resume = settle ⟨some landing, (c.returnPoint resume).toList ++ c.returns⟩ d := by
  simp only [enter, settle, call, if_true]

/-- Where nothing is followed or the jump lands nowhere, the definition is as it was and the cursor goes past its place
exactly if it is to resume behind it. Where the jump lands, the latches of the scope of the landing are cleared from there
on, and everything else is as it was. A goto settles at its landing above the frames that were to be returned to, and a call
does so with the frame to resume in on top of them, unless the cursor was finished. -/
theorem follow_touches (d : Definition) (c : Cursor) (jump : Option Jump) (clock : Float) (resume : ℕ) :
    (jump.bind (d.resolve c.scope) = none →
        (c.follow d jump clock resume).2.2 = d ∧
          (c.follow d jump clock resume).2.1 = if 0 < resume then c.advance d else c) ∧
      ∀ j dest, jump = some j → d.resolve c.scope j = some dest →
        ∃ landing, d.Enters clock dest landing ∧
          (∀ e, d.Rearmed landing.scope landing.index e ↔ e = (c.follow d jump clock resume).2.2) ∧
          (j.isCall = false → (c.follow d jump clock resume).2.1 = settle ⟨some landing, c.returns⟩ d) ∧
          (j.isCall = true → c.frame = none →
            (c.follow d jump clock resume).2.1 = settle ⟨some landing, c.returns⟩ d) ∧
          (j.isCall = true → ∀ f, c.frame = some f → (c.follow d jump clock resume).2.1 =
            settle ⟨some landing, { f with index := f.index + resume } :: c.returns⟩ d) := by
  refine ⟨fun nowhere => ?_, ?_⟩
  · rw [follow_nowhere nowhere]
    exact ⟨rfl, rfl⟩
  · rintro j dest rfl lands
    rw [follow_landing lands]
    refine ⟨entry d clock dest, enters_entry lands clock, fun e => Definition.rearmed_iff, ?_, ?_, ?_⟩
    · exact fun goto => enter_of_goto goto _ resume
    · intro call finished
      rw [enter_of_call call, returnPoint, finished]
      rfl
    · intro call f running
      rw [enter_of_call call, returnPoint, running]
      rfl

end Cursor

end EncounterTimeline

import EncounterTimeline.Proofs.Playback.Triggers

/-! # Numbers in playing order

A run begins by numbering the activities, root activities and the statements of subroutines in one count as they
stand. The count runs over elements of four kinds, but its outcome is told by the flat list of activities alone. No
move gives out numbers again, so they name the same activities throughout the run.
-/
namespace EncounterTimeline

def Activity.numbering (a : Activity) : ElementId × Nat := (a.id, a.seq)

def Definition.numbering (d : Definition) : List (ElementId × Nat) := d.activities.map Activity.numbering

namespace Activity

variable (a : Activity) (clock base window : Float)

theorem numbering_display : (a.display clock base window).numbering = a.numbering := by
  rw [numbering, numbering, display, refresh]

theorem numbering_execute : (a.execute clock base window).numbering = a.numbering := by
  rw [numbering, numbering, execute, latchNotice, display, refresh]

theorem numbering_attend : (a.attend clock base window).numbering = a.numbering := by
  unfold attend
  split <;> exact a.numbering_display clock base window

end Activity

namespace Definition

variable {d e : Definition} {s : Scope}

theorem prepareActivities_eq_mapIdx (n : Nat) (l : List Activity) :
    prepareActivities n l = l.mapIdx fun i a => a.prepare (n + i) := by
  induction l generalizing n with
  | nil => rfl
  | cons a rest ih =>
    rw [prepareActivities, ih, List.mapIdx_cons]
    simp only [Nat.add_zero, Nat.add_assoc, Nat.add_comm 1]

theorem prepareActivities_append (n : Nat) (l m : List Activity) :
    prepareActivities n (l ++ m) = prepareActivities n l ++ prepareActivities (n + l.length) m := by
  induction l generalizing n with
  | nil => rfl
  | cons a rest ih =>
    simp only [List.cons_append, prepareActivities, ih, List.length_cons, Nat.add_comm 1, Nat.add_assoc]

/-- Numbering elements numbers their activities in one count. -/
theorem activities_prepareElements (n : Nat) (l : List Element) :
    (prepareElements n l).flatMap Element.activities = prepareActivities n (l.flatMap Element.activities) := by
  induction l generalizing n with
  | nil => rfl
  | cons e rest ih =>
    rw [List.flatMap_cons, prepareActivities_append, ← ih]
    cases e <;> rfl

theorem activities_prepare (d : Definition) :
    d.prepare.activities = d.activities.mapIdx fun i a => a.prepare (i + 1) := by
  rw [activities, prepare, activities_prepareElements, prepareActivities_eq_mapIdx]
  simp only [activities, Nat.add_comm 1]

theorem numbering_prepare (d : Definition) : d.prepare.numbering = d.activities.mapIdx fun i a => (a.id, i + 1) := by
  apply List.ext_getElem?
  intro i
  rw [numbering, activities_prepare, List.getElem?_map, List.getElem?_mapIdx, List.getElem?_mapIdx, Option.map_map]
  rfl

/-- The numbers are told by those within each element. -/
theorem numbering_eq_of_elements (h : d.elements.map (fun x => x.activities.map Activity.numbering) =
    e.elements.map fun x => x.activities.map Activity.numbering) : d.numbering = e.numbering := by
  rw [numbering, numbering, activities, activities, List.map_flatMap, List.map_flatMap, List.flatMap_def, List.flatMap_def, h]

theorem numbering_mapScope {f : Nat → Activity → Activity} (h : ∀ i a, (f i a).numbering = a.numbering) :
    (d.mapScope s f).numbering = d.numbering := by
  apply numbering_eq_of_elements
  apply List.ext_getElem?
  intro k
  cases s with
  | root =>
    simp only [mapScope, List.getElem?_map, List.getElem?_mapIdx]
    cases d.elements[k]? with
    | none => rfl
    | some e => cases e <;> simp [Element.activities, h]
  | subroutine j =>
    have statements (l : List Activity) : (l.mapIdx f).map Activity.numbering = l.map Activity.numbering := by
      apply List.ext_getElem?
      intro n
      rw [List.getElem?_map, List.getElem?_mapIdx, List.getElem?_map]
      cases l[n]? <;> simp [h]
    simp only [mapScope, List.getElem?_map, List.getElem?_modify]
    cases d.elements[k]? with
    | none => rfl
    | some e => by_cases hk : j = k <;> cases e <;> simp [hk, Element.activities, statements]

theorem numbering_rearmFrom (i : Nat) : (d.rearmFrom s i).numbering = d.numbering := by
  apply numbering_mapScope
  intro i a
  split <;> rfl

theorem numbering_modifyStatement {f : Activity → Activity} (h : ∀ a, (f a).numbering = a.numbering) (i : Nat) :
    (d.modifyStatement s i f).numbering = d.numbering := by
  apply numbering_mapScope
  intro i a
  split
  · exact h a
  · rfl

theorem numbering_countFired (line : String) : (d.countFired line).numbering = d.numbering := by
  apply numbering_eq_of_elements
  rw [countFired, List.map_map]
  apply List.map_congr_left
  intro e _
  cases e <;> rfl

end Definition

namespace Session

variable {p : Pace} {s : Session} {f : Frame}

theorem numbering_overWindow {g : Activity → Activity} (h : ∀ a, (g a).numbering = a.numbering) :
    (s.overWindow p f g).numbering = s.definition.numbering := by
  apply Definition.numbering_mapScope
  intro i a
  split
  · exact h a
  · rfl

theorem numbering_showWindow (p : Pace) (s : Session) : (s.showWindow p).definition.numbering = s.definition.numbering := by
  cases hf : s.cursor.frame with
  | none => simp only [showWindow, hf]
  | some f =>
    simp only [showWindow, hf]
    exact numbering_overWindow fun a => a.numbering_display ..

theorem numbering_refreshWindow (p : Pace) (s : Session) :
    (s.refreshWindow p).definition.numbering = s.definition.numbering := by
  cases hf : s.cursor.frame with
  | none => simp only [refreshWindow, hf]
  | some f =>
    rw [refreshWindow_of_frame hf]
    exact numbering_overWindow fun a => a.numbering_attend ..

/-- A synchronisation latches one activity and skips others. -/
theorem numbering_synchronize (p : Pace) (s : Session) (line : String) (host : Duration) :
    (s.synchronize p line host).2.definition.numbering = s.definition.numbering := by
  rcases synchronize_cases p s line host with h | ⟨f, m, -, -, h⟩
  · rw [h]
  · rw [h]
    apply Definition.numbering_mapScope
    intro i a
    split
    · rfl
    · split <;> rfl

/-- A jump clears latches with the function that also numbers, and gives out no numbers. -/
theorem numbering_follow (s : Session) (owner : ElementId) (jump : Option Jump) (resume : Nat) :
    (s.follow owner jump resume).definition.numbering = s.definition.numbering := by
  cases jump with
  | none => rfl
  | some j =>
    cases h : s.definition.resolve s.cursor.scope j with
    | none => rw [follow_unresolved h, record_definition]
    | some dest =>
      rw [follow_resolved h]
      exact Definition.numbering_rearmFrom _

theorem numbering_start (p : Pace) (s : Session) (host : Duration) :
    (s.start p host).definition.numbering = s.definition.prepare.numbering :=
  numbering_showWindow p _

end Session

namespace Scene

open Session

variable {p : Pace} {d : Definition} {x y : Scene}

theorem Next.numbering (move : Next p x y) : y.session.definition.numbering = x.session.definition.numbering := by
  cases move with
  | tick | step | rebase | begin | finish | passOver | exhaust => rfl
  | hear s line host => exact numbering_synchronize p s line host
  | fire s line => exact Definition.numbering_countFired line
  | jump s t => exact numbering_follow s t.id t.rule.jump 0
  | execute s n f a => exact Definition.numbering_modifyStatement (fun a => a.numbering_execute ..) f.index
  | leave s n a => exact numbering_follow s a.id a.cue.jump 1
  | await s n f a => exact Definition.numbering_modifyStatement (fun a => a.numbering_attend ..) f.index
  | «show» s => exact numbering_refreshWindow p s

theorem Reached.numbering (h : Reached p d x) : x.session.definition.numbering = d.prepare.numbering := by
  induction h with
  | start s host h => rw [numbering_start, h]
  | next _ move ih => exact move.numbering.trans ih

end Scene

namespace Session

/-- Preparing a definition numbers its activities from one in playing order, clears their latches and sets the
counts of its triggers to nothing, and every activity keeps its number throughout every run. -/
theorem numbered_in_order (p : Pace) (d : Definition) :
    (d.prepare.activities =
      d.activities.mapIdx fun i a => { a with seq := i + 1, latches := ⟨false, false, false, false⟩ }) ∧
    (d.prepare.triggers = d.triggers.map fun t => { t with fired := 0 }) ∧
    ∀ x, Scene.Reached p d x →
      (x.session.definition.activities.map fun a => (a.id, a.seq)) = d.activities.mapIdx fun i a => (a.id, i + 1) :=
  ⟨d.activities_prepare, d.triggers_prepare, fun _ reached => reached.numbering.trans d.numbering_prepare⟩

def muster : Session :=
  { definition :=
      { elements :=
          [.trigger { id := 0, rule := { sync := some (.ofSource "(?-i)Adds"), call := some "Adds" }, fired := 3 },
            .activity { id := 1, cue := { call := some "Adds" }, seq := 8 },
            .subroutine { id := 2, name := some "Adds", statements := [{ id := 3, cue := {} }, { id := 4, cue := {} }] },
            .activity { id := 5, cue := {} }] } }

def mustered : Session :=
  (muster.start ({} : Settings).pace .zero).run ({} : Settings).pace [.step, .line "Adds" .zero]

/-- Both calls have cleared the latches of the statements, and the numbers have stayed. -/
theorem numbered_in_order_muster :
    mustered.journal.count (.rearmed [3, 4]) = 2 ∧
      (mustered.definition.activities.map fun a => (a.id, a.seq)) = [(1, 1), (3, 2), (4, 3), (5, 4)] := by
  have reached : Scene.Reached ({} : Settings).pace muster.definition ⟨.rest, mustered⟩ :=
    (Scene.Reached.start muster .zero rfl).run [.step, .line "Adds" .zero]
  have numbered := (numbered_in_order ({} : Settings).pace muster.definition).2.2 _ reached
  exact ⟨by decide +kernel, numbered.trans rfl⟩

end Session

end EncounterTimeline

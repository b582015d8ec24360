import EncounterTimeline.Proofs.Playback.Window
import EncounterTimeline.Proofs.Timeline.Script

/-! # What shows of a definition

Remaining time and progress are shown of active activities. The face of a definition leaves them out elsewhere; what is
read off a definition is read off its face, and changes that bring both up to date keep to it.
-/
namespace EncounterTimeline

/-- The activity as it shows. -/
def Activity.face (a : Activity) : Activity :=
  if a.latches.active then a else { a with remaining := 0.0, progress := 0.0 }

def Element.face : Element → Element
  | .activity a => .activity a.face
  | .subroutine s => .subroutine { s with statements := s.statements.map Activity.face }
  | e => e

def Definition.face (d : Definition) : Definition := { d with elements := d.elements.map Element.face }

def SyncMatch.face (m : SyncMatch) : SyncMatch := { m with activity := m.activity.face }

structure Activity.Alike (a b : Activity) : Prop where
  script : a.script = b.script
  seq : a.seq = b.seq
  latches : a.latches = b.latches
  remaining : b.latches.active = true → a.remaining = b.remaining
  progress : b.latches.active = true → a.progress = b.progress

namespace Activity

variable {a b : Activity}

@[simp] theorem id_face (a : Activity) : a.face.id = a.id := by
  unfold face
  split <;> rfl

@[simp] theorem cue_face (a : Activity) : a.face.cue = a.cue := by
  unfold face
  split <;> rfl

@[simp] theorem seq_face (a : Activity) : a.face.seq = a.seq := by
  unfold face
  split <;> rfl

@[simp] theorem latches_face (a : Activity) : a.face.latches = a.latches := by
  unfold face
  split <;> rfl

@[simp] theorem script_face (a : Activity) : a.face.script = a.script := by simp [script]

theorem face_of_active (h : a.latches.active = true) : a.face = a := by rw [face, if_pos h]

theorem alike_of_face (h : a.face = b.face) : a.Alike b := by
  have latches : a.latches = b.latches := by simpa using congrArg Activity.latches h
  have shown (active : b.latches.active = true) : a = b := by
    rw [face_of_active active, face_of_active (latches ▸ active)] at h
    exact h
  exact
    { script := by simpa using congrArg Activity.script h
      seq := by simpa using congrArg Activity.seq h
      latches
      remaining := fun active => by rw [shown active]
      progress := fun active => by rw [shown active] }

@[simp] theorem face_face (a : Activity) : a.face.face = a.face := by
  by_cases active : a.latches.active = true
  · rw [face_of_active active, face_of_active active]
  · simp [face, active]

/-- What a change makes of an activity shows as what it makes of the activity as it shows. -/
theorem face_of_keeps {g : Activity → Activity}
    (h : ∀ a, (g { a with remaining := 0.0, progress := 0.0 }).face = (g a).face) (a : Activity) :
    (g a.face).face = (g a).face := by
  by_cases active : a.latches.active = true
  · rw [face_of_active active]
  · have plain : a.face = { a with remaining := 0.0, progress := 0.0 } := if_neg active
    rw [plain]
    exact h a

theorem face_rearm (a : Activity) : a.face.rearm.face = a.rearm.face := face_of_keeps (fun _ => rfl) a

theorem face_prepare (n : Nat) (a : Activity) : (a.prepare n).face = a.script.prepare n := rfl

theorem face_skip (a : Activity) : a.face.skip.face = a.skip.face := face_of_keeps (fun _ => rfl) a

theorem face_latchSync (h : a.latches.active = true) : a.face.latchSync.face = a.latchSync.face := by
  rw [face_of_active h]

variable (clock base window : Float)

theorem face_display (a : Activity) :
    (a.face.display clock base window).face = (a.display clock base window).face :=
  face_of_keeps (g := fun a => a.display clock base window) (fun _ => rfl) a

theorem face_execute (a : Activity) :
    (a.face.execute clock base window).face = (a.execute clock base window).face :=
  face_of_keeps (g := fun a => a.execute clock base window) (fun _ => rfl) a

theorem face_attend (a : Activity) :
    (a.face.attend clock base window).face = (a.attend clock base window).face := by
  apply face_of_keeps (g := fun a => a.attend clock base window)
  intro a
  unfold attend
  split <;> rfl

end Activity

@[simp] theorem Element.face_face (e : Element) : e.face.face = e.face := by
  cases e <;> simp [Element.face]

@[simp] theorem Element.script_face (e : Element) : e.face.script = e.script := by
  cases e <;> simp [Element.face, Element.script]

namespace Definition

variable {d : Definition} {s : Scope} {i k v : Nat} {f : Frame}

@[simp] theorem face_face (d : Definition) : d.face.face = d.face := by
  simp [face]

@[simp] theorem script_face (d : Definition) : d.face.script = d.script := by
  simp [face, script]

theorem subroutineAt?_face : d.face.subroutineAt? k =
    (d.subroutineAt? k).map fun r => { r with statements := r.statements.map Activity.face } := by
  simp only [subroutineAt?, face, List.getElem?_map]
  cases d.elements[k]? with
  | none => rfl
  | some e => cases e <;> rfl

theorem places_face : d.face.places s = (d.places s).map (Option.map Activity.face) := by
  cases s with
  | root =>
    simp only [places, face, List.map_map]
    apply List.map_congr_left
    intro e _
    cases e <;> rfl
  | subroutine k =>
    simp only [places, subroutineAt?_face]
    cases d.subroutineAt? k <;> simp

theorem statement?_face : d.face.statement? s i = (d.statement? s i).map Activity.face := by
  simp only [statement?, places_face, List.getElem?_map]
  cases (d.places s)[i]? <;> rfl

theorem triggers_face (d : Definition) : d.face.triggers = d.triggers := by
  simp only [triggers, face, List.filterMap_map]
  congr 1
  funext e
  cases e <;> rfl

theorem activities_face (d : Definition) : d.face.activities = d.activities.map Activity.face := by
  simp only [activities, face, List.flatMap_map, List.map_flatMap]
  congr 1
  funext e
  cases e <;> rfl

theorem firedBy_face (line : String) : d.face.firedBy line = d.firedBy line := by
  rw [firedBy, triggers_face, firedBy]

theorem resolve_face (j : Jump) : d.face.resolve s j = d.resolve s j := by
  rw [← resolve_script, script_face, resolve_script]

theorem idsFrom_face : d.face.idsFrom s k = d.idsFrom s k := by
  simp only [idsFrom, places_face, ← List.map_drop, List.filterMap_map]
  congr 1
  funext place
  cases place <;> simp

theorem window_face : d.face.window f v = (d.window f v).map fun (i, a) => (i, a.face) := by
  simp only [window, places_face, List.zipIdx_map, ← List.map_drop, List.filterMap_map, List.map_take,
    List.map_filterMap]
  congr 2
  funext x
  obtain ⟨place, i⟩ := x
  cases place with
  | none => rfl
  | some a => cases done : a.latches.done <;> simp [done]

theorem earliest_face (l : List SyncMatch) :
    SyncMatch.earliest (l.map SyncMatch.face) = (SyncMatch.earliest l).map SyncMatch.face := by
  induction l with
  | nil => rfl
  | cons m rest ih =>
    simp only [List.map_cons, SyncMatch.earliest, ih]
    cases SyncMatch.earliest rest with
    | none => rfl
    | some n =>
      have order : n.face.precedes m.face = n.precedes m := rfl
      simp only [Option.map_some, order]
      split <;> rfl

theorem findSync_face (line : String) :
    d.face.findSync f v line = (d.findSync f v line).map SyncMatch.face := by
  rw [findSync, findSync, ← earliest_face]
  congr 1
  simp only [syncMatches, window_face, List.filterMap_map, List.map_filterMap]
  congr 1
  funext x
  obtain ⟨i, a⟩ := x
  have armed : a.face.canSync = a.canSync := by simp [Activity.canSync]
  simp only [Function.comp_apply, armed, Activity.cue_face]
  split <;> rfl

theorem map_face_mapIdx {l : List Activity} {g : Nat → Activity → Activity}
    (h : ∀ i a, l[i]? = some a → (g i a.face).face = (g i a).face) :
    ((l.map Activity.face).mapIdx g).map Activity.face = (l.mapIdx g).map Activity.face := by
  apply List.ext_getElem?
  intro i
  simp only [List.getElem?_map, List.getElem?_mapIdx]
  cases hi : l[i]? with
  | none => rfl
  | some a => simp [h i a hi]

/-- A change of a scope shows as the same change of what shows, if that is so for every activity in it. -/
theorem face_mapScope {g : Nat → Activity → Activity}
    (h : ∀ i a, d.statement? s i = some a → (g i a.face).face = (g i a).face) :
    (d.face.mapScope s g).face = (d.mapScope s g).face := by
  cases s with
  | root =>
    simp only [face, mapScope]
    congr 1
    apply List.ext_getElem?
    intro k
    simp only [List.getElem?_map, List.getElem?_mapIdx]
    cases hk : d.elements[k]? with
    | none => rfl
    | some e =>
      cases e with
      | activity a => simp [Element.face, h k a (statement?_root.mpr hk)]
      | preset | trigger | subroutine => simp [Element.face]
  | subroutine j =>
    simp only [face, mapScope]
    congr 1
    apply List.ext_getElem?
    intro k
    simp only [List.getElem?_map, List.getElem?_modify]
    cases hk : d.elements[k]? with
    | none => rfl
    | some e =>
      by_cases own : j = k
      · subst own
        cases e with
        | subroutine r =>
          have inner (i : Nat) (a : Activity) (ha : r.statements[i]? = some a) : (g i a.face).face = (g i a).face :=
            h i a (statement?_subroutine.mpr ⟨r, subroutineAt?_eq_some_iff.mpr hk, ha⟩)
          simp only [Element.face, Option.map_eq_map, Option.map_some, if_true, map_face_mapIdx inner]
        | preset | activity | trigger => simp [Element.face]
      · simp [own]

theorem face_modifyStatement {g : Activity → Activity} (h : ∀ a, (g a.face).face = (g a).face) :
    (d.face.modifyStatement s i g).face = (d.modifyStatement s i g).face := by
  apply face_mapScope
  intro j a _
  split
  · exact h a
  · exact a.face_face

theorem face_rearmFrom : (d.face.rearmFrom s k).face = (d.rearmFrom s k).face := by
  apply face_mapScope
  intro i a _
  split
  · exact a.face_rearm
  · exact a.face_face

theorem face_countFired (line : String) : (d.face.countFired line).face = (d.countFired line).face := by
  simp only [face, countFired, List.map_map]
  congr 1
  apply List.map_congr_left
  intro e _
  cases e <;> simp [Element.face]

theorem map_face_prepareActivities (n : Nat) (l : List Activity) :
    (prepareActivities n l).map Activity.face = prepareActivities n (l.map Activity.script) := by
  induction l generalizing n with
  | nil => rfl
  | cons a rest ih => simp [prepareActivities, ih, Activity.face_prepare]

theorem map_face_prepareElements (n : Nat) (l : List Element) :
    (prepareElements n l).map Element.face = prepareElements n (l.map Element.script) := by
  induction l generalizing n with
  | nil => rfl
  | cons e rest ih =>
    cases e <;> simp [prepareElements, Element.face, Element.script, map_face_prepareActivities,
      Activity.face_prepare, ih]

/-- Once a definition is prepared, its script is all that shows. -/
theorem face_prepare (d : Definition) : d.prepare.face = d.script.prepare := by
  simp only [face, prepare, script, map_face_prepareElements]

end Definition

end EncounterTimeline

import EncounterTimeline.Playback.Session
import EncounterTimeline.Proofs.Timeline.Scope

/-! # Scripts

The script of a definition is what is written in it, without the state of a run. Playing changes latches,
numbers, progress and counters, never the script; identities, addresses and the resolution of jumps are read
off the script alone.
-/
namespace EncounterTimeline

def Activity.script (a : Activity) : Activity := { id := a.id, cue := a.cue }

def Element.script : Element → Element
  | .preset i p => .preset i p
  | .activity a => .activity a.script
  | .trigger t => .trigger { t with fired := 0 }
  | .subroutine s => .subroutine { s with statements := s.statements.map Activity.script }

/-- A definition as it stands before any run. -/
def Definition.script (d : Definition) : Definition := { d with elements := d.elements.map Element.script }

namespace Activity

variable (a : Activity) (clock base window : Float)

@[simp] theorem script_rearm : a.rearm.script = a.script := rfl
@[simp] theorem script_prepare (n : Nat) : (a.prepare n).script = a.script := rfl
@[simp] theorem script_display : (a.display clock base window).script = a.script := rfl
@[simp] theorem script_execute : (a.execute clock base window).script = a.script := rfl
@[simp] theorem script_skip : a.skip.script = a.script := rfl
@[simp] theorem script_latchSync : a.latchSync.script = a.script := rfl

@[simp] theorem script_attend : (a.attend clock base window).script = a.script := by
  unfold attend
  split <;> rfl

variable {a}

theorem id_eq_of_script {b : Activity} (h : b.script = a.script) : b.id = a.id :=
  show b.script.id = a.script.id by rw [h]

theorem cue_eq_of_script {b : Activity} (h : b.script = a.script) : b.cue = a.cue :=
  show b.script.cue = a.script.cue by rw [h]

end Activity

namespace Definition

variable {d e : Definition} {s : Scope} {i j : Nat}

theorem script_eq_of_elements (h : d.elements.map Element.script = e.elements.map Element.script)
    (same : { d with elements := [] } = { e with elements := [] }) : d.script = e.script := by
  cases d
  cases e
  simp_all [script]

theorem script_mapScope {f : Nat → Activity → Activity} (h : ∀ i a, (f i a).script = a.script) :
    (d.mapScope s f).script = d.script := by
  cases s with
  | root =>
    refine script_eq_of_elements ?_ rfl
    apply List.ext_getElem?
    intro k
    simp only [mapScope, List.getElem?_map, List.getElem?_mapIdx]
    cases d.elements[k]? with
    | none => rfl
    | some e => cases e <;> simp [Element.script, h]
  | subroutine j =>
    refine script_eq_of_elements ?_ rfl
    apply List.ext_getElem?
    intro k
    have statements (l : List Activity) : (l.mapIdx f).map Activity.script = l.map Activity.script := by
      apply List.ext_getElem?
      intro n
      rw [List.getElem?_map, List.getElem?_mapIdx, List.getElem?_map]
      cases l[n]? <;> simp [h]
    simp only [mapScope, List.getElem?_map, List.getElem?_modify]
    cases d.elements[k]? with
    | none => rfl
    | some e => by_cases hk : j = k <;> cases e <;> simp [hk, Element.script, statements]

theorem script_rearmFrom : (d.rearmFrom s j).script = d.script := by
  apply script_mapScope
  intro i a
  split <;> rfl

theorem script_modifyStatement {f : Activity → Activity} (h : ∀ a, (f a).script = a.script) :
    (d.modifyStatement s j f).script = d.script := by
  apply script_mapScope
  intro i a
  split
  · exact h a
  · rfl

theorem script_countFired (line : String) : (d.countFired line).script = d.script := by
  refine script_eq_of_elements ?_ rfl
  simp only [countFired, List.map_map]
  apply List.map_congr_left
  intro e _
  cases e with
  | trigger t =>
    simp only [Function.comp_apply]
    split <;> rfl
  | preset | activity | subroutine => rfl

theorem map_script_prepareActivities (n : Nat) (l : List Activity) :
    (prepareActivities n l).map Activity.script = l.map Activity.script := by
  induction l generalizing n with
  | nil => rfl
  | cons a rest ih => simp [prepareActivities, ih]

theorem map_script_prepareElements (n : Nat) (l : List Element) :
    (prepareElements n l).map Element.script = l.map Element.script := by
  induction l generalizing n with
  | nil => rfl
  | cons e rest ih =>
    cases e <;> simp [prepareElements, Element.script, map_script_prepareActivities, ih]

theorem script_prepare : d.prepare.script = d.script :=
  script_eq_of_elements (map_script_prepareElements 1 d.elements) rfl

theorem subroutineAt?_script : d.script.subroutineAt? i =
    (d.subroutineAt? i).map fun r => { r with statements := r.statements.map Activity.script } := by
  simp only [subroutineAt?, script, List.getElem?_map]
  cases d.elements[i]? with
  | none => rfl
  | some e => cases e <;> rfl

theorem places_script : d.script.places s = (d.places s).map (Option.map Activity.script) := by
  cases s with
  | root =>
    simp only [places, script, List.map_map]
    apply List.map_congr_left
    intro e _
    cases e <;> rfl
  | subroutine k =>
    simp only [places, subroutineAt?_script]
    cases d.subroutineAt? k <;> simp

theorem statement?_script : d.script.statement? s i = (d.statement? s i).map Activity.script := by
  simp only [statement?, places_script, List.getElem?_map]
  cases (d.places s)[i]? <;> rfl

theorem map_ids_script : d.script.elements.map Element.ids = d.elements.map Element.ids := by
  rw [script, List.map_map]
  apply List.map_congr_left
  intro e _
  cases e <;> simp [Element.ids, Element.id, Element.statements, Element.script, Activity.script]

theorem ids_script : d.script.ids = d.ids := by
  rw [ids, ids, List.flatMap_def, List.flatMap_def, map_ids_script]

theorem triggers_script : d.script.triggers = d.triggers.map fun t => { t with fired := 0 } := by
  simp only [triggers, script, List.filterMap_map, List.map_filterMap]
  congr 1
  funext e
  cases e <;> rfl

/-- Definitions of one script have the same triggers but for their counts. -/
theorem exists_mem_triggers_congr (h : d.script = e.script) {t : Trigger} (ht : t ∈ d.triggers) :
    ∃ u ∈ e.triggers, u.id = t.id ∧ u.rule = t.rule := by
  have written : { t with fired := 0 } ∈ e.script.triggers := by
    rw [← h, triggers_script]
    exact List.mem_map_of_mem ht
  rw [triggers_script] at written
  obtain ⟨u, hu, same⟩ := List.mem_map.mp written
  simp only [Trigger.mk.injEq, and_true] at same
  exact ⟨u, hu, same⟩

theorem subroutineNamed?_script (name : String) :
    d.script.subroutineNamed? name =
      (d.subroutineNamed? name).map fun (i, r) =>
        (i, { r with statements := r.statements.map Activity.script }) := by
  have test : (fun e : Element => e.asSubroutine.any fun r => r.name == some name) ∘ Element.script =
      fun e => e.asSubroutine.any fun r => r.name == some name := by
    funext e
    cases e <;> rfl
  simp only [subroutineNamed?, script, List.findIdx?_map, test]
  cases d.elements.findIdx? fun e => e.asSubroutine.any fun r => r.name == some name with
  | none => rfl
  | some i =>
    have at_i := subroutineAt?_script (d := d) (i := i)
    simp only [script] at at_i
    simp only [Option.bind_some, at_i]
    cases d.subroutineAt? i <;> rfl

theorem rootLanding?_script (name : String) : d.script.rootLanding? name = d.rootLanding? name := by
  have test : isLanding name ∘ Element.script = isLanding name := by
    funext e
    cases e <;> rfl
  simp only [rootLanding?, script, List.findIdx?_map, test, List.getElem?_map]
  cases d.elements.findIdx? (isLanding name) with
  | none => rfl
  | some i =>
    simp only [Option.bind_some]
    cases d.elements[i]? with
    | none => rfl
    | some e => cases e <;> rfl

theorem localLanding?_script (name : String) : d.script.localLanding? name s = d.localLanding? name s := by
  cases s with
  | root => rfl
  | subroutine k =>
    simp only [localLanding?, subroutineAt?_script]
    cases d.subroutineAt? k with
    | none => rfl
    | some r =>
      have test : (fun a : Activity => a.cue.displayName == some name) ∘ Activity.script =
          fun a => a.cue.displayName == some name := rfl
      simp [Subroutine.indexOf?, test]

theorem resolve_script (j : Jump) : d.script.resolve s j = d.resolve s j := by
  cases j with
  | call name =>
    simp only [resolve, subroutineNamed?_script]
    cases d.subroutineNamed? name <;> rfl
  | goto name => simp only [resolve, localLanding?_script, rootLanding?_script]

theorem resolve_congr (h : d.script = e.script) (j : Jump) : d.resolve s j = e.resolve s j := by
  rw [← resolve_script, h, resolve_script]

end Definition

end EncounterTimeline

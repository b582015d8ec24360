import EncounterTimeline.Proofs.Timeline.Script

/-! # Where a cursor settles

A frame settles at the first activity at or after its place, and a list of frames at the first of them that has
one, with the frames below it left as they are. What settles where is read off the script.
-/
namespace EncounterTimeline

namespace Frame

variable {d e : Definition} {f g : Frame} {a : Activity}

private theorem getElem?_drop_places (n : Nat) :
    ((d.places f.scope).drop f.index)[n]?.join = d.statement? f.scope (f.index + n) := by
  rw [List.getElem?_drop]
  rfl

theorem settle?_eq_none_iff : f.settle? d = none ↔ ∀ i, f.index ≤ i → d.statement? f.scope i = none := by
  rw [settle?, Option.map_eq_none_iff, List.findIdx?_eq_none_iff]
  constructor
  · intro h i le
    obtain ⟨n, rfl⟩ := Nat.exists_eq_add_of_le le
    rw [← getElem?_drop_places]
    cases hn : ((d.places f.scope).drop f.index)[n]? with
    | none => rfl
    | some q =>
      have hq := h q (List.mem_of_getElem? hn)
      simpa using hq
  · intro h q hq
    obtain ⟨n, hn⟩ := List.mem_iff_getElem?.mp hq
    have empty := h (f.index + n) (Nat.le_add_right ..)
    rw [← getElem?_drop_places, hn] at empty
    simpa using empty

/-- A frame settles forward in its scope, at an activity, and passes over none. -/
theorem settle?_eq_some (h : f.settle? d = some g) :
    g.scope = f.scope ∧ g.base = f.base ∧ f.index ≤ g.index ∧ (∃ a, g.activity? d = some a) ∧
      ∀ i, f.index ≤ i → i < g.index → d.statement? f.scope i = none := by
  obtain ⟨n, hn, rfl⟩ := Option.map_eq_some_iff.mp h
  obtain ⟨lt, found, before⟩ := List.findIdx?_eq_some_iff_getElem.mp hn
  refine ⟨rfl, rfl, Nat.le_add_right .., ?_, ?_⟩
  · obtain ⟨a, ha⟩ := Option.isSome_iff_exists.mp found
    refine ⟨a, ?_⟩
    have at_n := getElem?_drop_places (d := d) (f := f) n
    rw [List.getElem?_eq_getElem lt, ha] at at_n
    exact at_n.symm
  · intro i le below
    obtain ⟨m, rfl⟩ := Nat.exists_eq_add_of_le le
    have hm : m < n := by
      dsimp only at below
      omega
    have empty := before m hm
    rw [← getElem?_drop_places, List.getElem?_eq_getElem (Nat.lt_trans hm lt)]
    simpa using empty

/-- A frame that stands at an activity is settled. -/
theorem settle?_of_activity? (h : f.activity? d = some a) : f.settle? d = some f := by
  cases hs : f.settle? d with
  | none =>
    rw [activity?, settle?_eq_none_iff.mp hs f.index (Nat.le_refl _)] at h
    cases h
  | some g =>
    obtain ⟨scope, base, le, -, before⟩ := settle?_eq_some hs
    have index : g.index = f.index := by
      rcases Nat.lt_or_eq_of_le le with lt | eq
      · rw [activity?, before f.index (Nat.le_refl _) lt] at h
        cases h
      · exact eq.symm
    cases f
    cases g
    simp_all

theorem settle?_script (f : Frame) : f.settle? d.script = f.settle? d := by
  have filled : Option.isSome ∘ Option.map Activity.script = Option.isSome := by
    funext place
    cases place <;> rfl
  simp only [settle?, Definition.places_script, ← List.map_drop, List.findIdx?_map, filled]

theorem activity?_script : f.activity? d.script = (f.activity? d).map Activity.script :=
  Definition.statement?_script

/-- Definitions of one script have the same activities at the same places, but for their state. -/
theorem activity?_congr (h : d.script = e.script) (ha : f.activity? d = some a) :
    ∃ b, f.activity? e = some b ∧ b.id = a.id ∧ b.cue = a.cue := by
  have hs : (f.activity? e).map Activity.script = some a.script := by
    rw [← activity?_script, ← h, activity?_script, ha]
    rfl
  obtain ⟨b, hb, same⟩ := Option.map_eq_some_iff.mp hs
  exact ⟨b, hb, Activity.id_eq_of_script same, Activity.cue_eq_of_script same⟩

theorem exists_activity?_congr (h : d.script = e.script) (ha : ∃ a, f.activity? d = some a) :
    ∃ a, f.activity? e = some a := by
  obtain ⟨a, ha⟩ := ha
  obtain ⟨b, hb, -⟩ := activity?_congr h ha
  exact ⟨b, hb⟩

end Frame

namespace Cursor

variable {d e : Definition} {f g : Frame} {fs below : List Frame}

theorem ofFrames_cons_of_some (h : f.settle? d = some g) : ofFrames d (f :: below) = ⟨some g, below⟩ := by
  simp only [ofFrames, h]

theorem ofFrames_cons_of_none (h : f.settle? d = none) : ofFrames d (f :: below) = ofFrames d below := by
  simp only [ofFrames, h]

/-- Frames settle nowhere, or at the first of them that has an activity left. -/
theorem ofFrames_cases (d : Definition) (fs : List Frame) :
    (ofFrames d fs = ⟨none, []⟩ ∧ ∀ f ∈ fs, f.settle? d = none) ∨
    ∃ above f below g, fs = above ++ f :: below ∧ (∀ h ∈ above, h.settle? d = none) ∧
      f.settle? d = some g ∧ ofFrames d fs = ⟨some g, below⟩ := by
  induction fs with
  | nil => exact .inl ⟨rfl, by simp⟩
  | cons f fs ih =>
    cases hf : f.settle? d with
    | some g => exact .inr ⟨[], f, fs, g, rfl, by simp, hf, ofFrames_cons_of_some hf⟩
    | none =>
      rw [ofFrames_cons_of_none hf]
      rcases ih with ⟨h, spent⟩ | ⟨above, k, below, g, rfl, spent, hk, h⟩
      · exact .inl ⟨h, List.forall_mem_cons.mpr ⟨hf, spent⟩⟩
      · exact .inr ⟨f :: above, k, below, g, rfl, List.forall_mem_cons.mpr ⟨hf, spent⟩, hk, h⟩

theorem ofFrames_congr (h : d.script = e.script) (fs : List Frame) : ofFrames d fs = ofFrames e fs := by
  induction fs with
  | nil => rfl
  | cons f fs ih =>
    have settled : f.settle? d = f.settle? e := by rw [← Frame.settle?_script, h, Frame.settle?_script]
    simp only [ofFrames, settled, ih]

theorem advance_congr (h : d.script = e.script) (c : Cursor) : c.advance d = c.advance e := by
  simp only [advance, settle, ofFrames_congr h]

theorem passBy_congr (h : d.script = e.script) (c : Cursor) (resume : Nat) :
    c.passBy d resume = c.passBy e resume := by
  simp only [passBy, advance_congr h]

theorem enter_congr (h : d.script = e.script) (c : Cursor) (j : Jump) (entered : Frame) (resume : Nat) :
    c.enter d j entered resume = c.enter e j entered resume := by
  simp only [enter, ofFrames_congr h]

theorem entry_congr (h : d.script = e.script) (clock : Float) (dest : Destination) :
    entry d clock dest = entry e clock dest := by
  cases dest with
  | subroutine index => rfl
  | statement s i =>
    have same : (d.statement? s i).map Activity.script = (e.statement? s i).map Activity.script := by
      rw [← Definition.statement?_script, h, Definition.statement?_script]
    have cues := congrArg (Option.map fun a => a.cue.time.seconds) same
    simp only [Option.map_map] at cues
    unfold entry
    exact congrArg (fun t : Option Float => Frame.mk s i (clock - t.getD 0.0)) cues

end Cursor

end EncounterTimeline

import EncounterTimeline.Proofs.Playback.Moves
import EncounterTimeline.Proofs.Playback.Settling

/-! # The cursor stays on activities

Throughout a run the cursor has finished or stands at an activity, and every frame it returns to lies in a scope
that exists, its end included. So the loop never comes to a place without an activity.
-/
namespace EncounterTimeline

def Definition.HasScope (d : Definition) : Scope → Prop
  | .root => True
  | .subroutine index => ∃ r, d.subroutineAt? index = some r

structure Frame.Within (f : Frame) (d : Definition) : Prop where
  scope : d.HasScope f.scope
  index : f.index ≤ d.scopeLength f.scope

/-- The cursor stands at an activity or has finished, and returns into scopes. -/
structure Cursor.Placed (c : Cursor) (d : Definition) : Prop where
  current : ∀ f, c.frame = some f → ∃ a, f.activity? d = some a
  returns : ∀ f ∈ c.returns, f.Within d

def Session.Placed (s : Session) : Prop := s.cursor.Placed s.definition

namespace Definition

variable {d e : Definition}

theorem HasScope.congr (h : d.script = e.script) {s : Scope} (hs : d.HasScope s) : e.HasScope s := by
  cases s with
  | root => trivial
  | subroutine k =>
    obtain ⟨r, hr⟩ := hs
    have found : (e.script.subroutineAt? k).isSome := by
      rw [← h, subroutineAt?_script, hr]
      rfl
    rw [subroutineAt?_script, Option.isSome_map] at found
    exact Option.isSome_iff_exists.mp found

theorem scopeLength_congr (h : d.script = e.script) (s : Scope) : d.scopeLength s = e.scopeLength s := by
  have lengths := congrArg (fun q => (q.places s).length) h
  simpa [places_script, scopeLength] using lengths

theorem hasScope_of_statement? {s : Scope} {i : Nat} {a : Activity} (h : d.statement? s i = some a) :
    d.HasScope s := by
  cases s with
  | root => trivial
  | subroutine k =>
    obtain ⟨r, hr, -⟩ := statement?_subroutine.mp h
    exact ⟨r, hr⟩

end Definition

theorem Frame.Within.congr {d e : Definition} {f : Frame} (h : d.script = e.script) (hf : f.Within d) :
    f.Within e :=
  ⟨hf.scope.congr h, by rw [← Definition.scopeLength_congr h]; exact hf.index⟩

namespace Cursor

variable {d e : Definition} {c : Cursor} {fs : List Frame} {f : Frame} {resume : Nat}

theorem Placed.congr (h : d.script = e.script) (hc : c.Placed d) : c.Placed e where
  current f hf := Frame.exists_activity?_congr h (hc.current f hf)
  returns f hf := (hc.returns f hf).congr h

/-- What is not written in the elements has no part in it. -/
theorem placed_bare : c.Placed { elements := d.elements } ↔ c.Placed d :=
  ⟨fun h => ⟨h.current, fun f hf => ⟨(h.returns f hf).scope, (h.returns f hf).index⟩⟩,
    fun h => ⟨h.current, fun f hf => ⟨(h.returns f hf).scope, (h.returns f hf).index⟩⟩⟩

theorem Placed.congr_elements (h : d.script.elements = e.script.elements) (hc : c.Placed d) : c.Placed e := by
  have bare : Definition.script { elements := d.elements } = Definition.script { elements := e.elements } :=
    Definition.script_eq_of_elements h rfl
  exact placed_bare.mp ((placed_bare.mpr hc).congr bare)

/-- Only the frames below the first one have to be in place. -/
theorem placed_ofFrames (h : ∀ f ∈ fs.tail, f.Within d) : (ofFrames d fs).Placed d := by
  rcases ofFrames_cases d fs with ⟨he, -⟩ | ⟨above, f, below, g, rfl, -, hf, he⟩
  · rw [he]
    exact ⟨by simp, by simp⟩
  · rw [he]
    refine ⟨?_, ?_⟩
    · rintro _ ⟨⟩
      exact (Frame.settle?_eq_some hf).2.2.2.1
    · intro k hk
      apply h k
      cases above with
      | nil => exact hk
      | cons a above => exact List.mem_append_right _ (List.mem_cons_of_mem _ hk)

theorem placed_reset (d : Definition) : (reset d).Placed d := placed_ofFrames (by simp)

theorem Placed.advance (hc : c.Placed d) : (c.advance d).Placed d := by
  obtain ⟨frame, returns⟩ := c
  cases frame with
  | none => exact hc
  | some f => exact placed_ofFrames hc.returns

theorem Placed.passBy (hc : c.Placed d) (resume : Nat) : (c.passBy d resume).Placed d := by
  rw [Cursor.passBy]
  split
  · exact hc.advance
  · exact hc

/-- A call returns to the place of the call or to the one behind it. -/
theorem Placed.returnPoint (hc : c.Placed d) (le : resume ≤ 1) :
    ∀ f ∈ (c.returnPoint resume).toList, f.Within d := by
  intro f hf
  rw [Option.mem_toList, Cursor.returnPoint] at hf
  obtain ⟨g, hg, rfl⟩ := Option.map_eq_some_iff.mp hf
  obtain ⟨a, ha⟩ := hc.current g hg
  have lt := Definition.lt_scopeLength_of_statement? ha
  refine ⟨Definition.hasScope_of_statement? ha, ?_⟩
  dsimp only
  omega

theorem Placed.enter (hc : c.Placed d) (j : Jump) (entered : Frame) (le : resume ≤ 1) :
    (c.enter d j entered resume).Placed d := by
  rw [Cursor.enter]
  apply placed_ofFrames
  rw [List.tail_cons]
  intro f hf
  split at hf
  · rcases List.mem_append.mp hf with hf | hf
    · exact hc.returnPoint le f hf
    · exact hc.returns f hf
  · exact hc.returns f hf

end Cursor

namespace Session

variable {p : Pace} {s : Session}

theorem Placed.synchronize (h : s.Placed) (line : String) (host : Duration) :
    (s.synchronize p line host).2.Placed := by
  rcases synchronize_cases p s line host with he | ⟨f, m, hf, hm, he⟩
  · rw [he]
    exact h
  · rw [he]
    have stands := (Definition.mem_window (Definition.findSync_eq_some hm).1).1
    refine Cursor.Placed.congr (script_syncTo f m host).symm ⟨?_, h.returns⟩
    intro g hg
    obtain ⟨k, hk, rfl⟩ := Option.map_eq_some_iff.mp hg
    cases hf.symm.trans hk
    exact ⟨_, stands⟩

theorem Placed.follow (h : s.Placed) (owner : ElementId) (jump : Option Jump) {resume : Nat}
    (le : resume ≤ 1) : (s.follow owner jump resume).Placed := by
  cases jump with
  | none =>
    rw [follow_none]
    exact h.passBy resume
  | some j =>
    cases hr : s.definition.resolve s.cursor.scope j with
    | none =>
      rw [follow_unresolved hr]
      exact h.passBy resume
    | some dest =>
      rw [follow_resolved hr]
      exact (h.enter j _ le).congr Definition.script_rearmFrom.symm

theorem placed_start (s : Session) (host : Duration) : (s.start p host).Placed := by
  have script : s.definition.prepare.script = (s.start p host).definition.script :=
    Definition.script_prepare.trans (script_start p s host).symm
  rw [Session.Placed, cursor_start]
  exact (Cursor.placed_reset _).congr script

theorem Placed.refreshWindow (h : s.Placed) : (s.refreshWindow p).Placed := by
  rw [Session.Placed, cursor_refreshWindow]
  exact Cursor.Placed.congr (script_refreshWindow p s).symm h

end Session

namespace Scene

open Session

variable {p : Pace} {d : Definition} {x y : Scene}

theorem Next.placed (move : Next p x y) (h : x.session.Placed) : y.session.Placed := by
  cases move with
  | tick | step | rebase | begin | finish | exhaust => exact h
  | hear s line host => exact h.synchronize line host
  | fire s line => exact Cursor.Placed.congr (Definition.script_countFired line).symm h
  | jump s t => exact h.follow t.id t.rule.jump (by omega)
  | passOver => exact Cursor.Placed.advance h
  | execute s n f a => exact Cursor.Placed.congr (script_strike p s f a).symm h
  | leave s n a => exact h.follow a.id a.cue.jump (by omega)
  | await s n f a => exact Cursor.Placed.congr (script_await p s f a).symm h
  | «show» => exact h.refreshWindow

theorem Reached.placed (h : Reached p d x) : x.session.Placed := by
  induction h with
  | start s host => exact placed_start s host
  | next _ move ih => exact move.placed ih

theorem Path.placed (path : Path p x y) (h : x.session.Placed) : y.session.Placed := by
  induction path with
  | refl => exact h
  | tail _ move ih => exact move.placed ih

end Scene

theorem Session.Placed.perform {p : Pace} {s : Session} (h : s.Placed) (o : Operation) : (s.perform p o).Placed :=
  (Scene.Path.perform s o).placed h

/-- After every operation of a run and at every round of the loop in a further one, the cursor is in place. -/
theorem Session.placed_throughout (p : Pace) (s : Session) (host : Duration) (ops : List Operation) :
    let t := (s.start p host).run p ops
    t.cursor.Placed t.definition ∧
    ∀ (o : Operation) (k : Nat), k ≤ p.maxSteps →
      let u := Session.play p k (t.approach p o)
      u.cursor.Placed u.definition ∧ ∀ f, u.cursor.frame = some f → f.activity? u.definition ≠ none := by
  intro t
  have rest : Scene.Reached p s.definition ⟨.rest, t⟩ := (Scene.Reached.start s host rfl).run ops
  refine ⟨rest.placed, ?_⟩
  intro o k le u
  have placed : u.cursor.Placed u.definition := by
    rcases (rest.approach o).play k le with going | stopped
    · exact going.placed
    · exact stopped.placed
  refine ⟨placed, ?_⟩
  intro f hf none
  obtain ⟨a, ha⟩ := placed.current f hf
  rw [none] at ha
  cases ha

end EncounterTimeline

import EncounterTimeline.Proofs.Playback.Placement
import EncounterTimeline.Proofs.Timeline.Landing
import EncounterTimeline.Settings.Basic

/-! # Returns and the end of the root

A frame of the root should be the last one: with nothing to return to, the end of the root ends the run. A goto
leaves the returns as they are, so this holds of a run exactly as long as no goto leaves a called subroutine for
an activity of the root.
-/
namespace EncounterTimeline

namespace Cursor

def scopes (c : Cursor) : List Scope := (c.frame.toList ++ c.returns).map Frame.scope

def Nested (c : Cursor) : Prop := c.scopes.Pairwise fun s _ => s ≠ .root

/-- At the root nothing is pending, and past the last activity of the root the cursor has finished. -/
def EndsAtRoot (c : Cursor) (d : Definition) : Prop :=
  ∀ f, c.frame = some f → f.scope = .root →
    c.returns = [] ∧ ((∀ i, f.index < i → d.statement? .root i = none) → (c.advance d).isFinished = true)

variable {d : Definition} {c : Cursor} {fs : List Frame} {f : Frame}

theorem Nested.returns_nil (h : c.Nested) (hf : c.frame = some f) (root : f.scope = .root) :
    c.returns = [] := by
  rw [Nested, scopes, hf, Option.toList_some, List.singleton_append, List.map_cons, List.pairwise_cons] at h
  cases hr : c.returns with
  | nil => rfl
  | cons g rest => exact (h.1 g.scope (by simp [hr]) root).elim

theorem Nested.endsAtRoot (h : c.Nested) : c.EndsAtRoot d := by
  intro f hf root
  have nil := h.returns_nil hf root
  refine ⟨nil, ?_⟩
  intro last
  obtain ⟨frame, returns⟩ := c
  cases hf
  cases nil
  have ended : Frame.settle? d { f with index := f.index + 1 } = none := by
    rw [Frame.settle?_eq_none_iff]
    intro i le
    dsimp only at le ⊢
    rw [root]
    exact last i (by omega)
  simp only [advance, settle, Option.map_some, ofFrames, ended, isFinished, Option.isNone_none]

/-- Settling drops frames from the top. -/
theorem scopes_ofFrames (d : Definition) (fs : List Frame) :
    (ofFrames d fs).scopes <:+ fs.map Frame.scope := by
  rcases ofFrames_cases d fs with ⟨h, -⟩ | ⟨above, f, below, g, rfl, -, hf, h⟩
  · rw [h]
    exact List.nil_suffix
  · rw [h]
    refine ⟨above.map Frame.scope, ?_⟩
    simp [scopes, (Frame.settle?_eq_some hf).1]

theorem nested_ofFrames (h : (fs.map Frame.scope).Pairwise fun s _ => s ≠ .root) : (ofFrames d fs).Nested :=
  h.sublist (scopes_ofFrames d fs).sublist

theorem Nested.advance (h : c.Nested) : (c.advance d).Nested := by
  obtain ⟨frame, returns⟩ := c
  cases frame with
  | none => exact h
  | some f => exact nested_ofFrames h

theorem Nested.passBy (h : c.Nested) (resume : Nat) : (c.passBy d resume).Nested := by
  rw [Cursor.passBy]
  split
  · exact h.advance
  · exact h

theorem Nested.moveTo (h : c.Nested) (index : Nat) : (c.moveTo index).Nested := by
  have same : (c.moveTo index).scopes = c.scopes := by
    obtain ⟨frame, returns⟩ := c
    cases frame <;> rfl
  rw [Nested, same]
  exact h

theorem Nested.below (h : c.Nested) (j : Jump) (resume : Nat) :
    ((if j.isCall then (c.returnPoint resume).toList ++ c.returns else c.returns).map Frame.scope).Pairwise
      fun s _ => s ≠ .root := by
  obtain ⟨frame, returns⟩ := c
  cases frame with
  | none =>
    have same : (⟨none, returns⟩ : Cursor).scopes = returns.map Frame.scope := rfl
    rw [Nested, same] at h
    cases j <;> exact h
  | some f =>
    cases j with
    | call name => exact h
    | goto name => exact (List.pairwise_cons.mp h).2

/-- Entering a scope keeps the nesting unless it enters the root over something pending. -/
theorem Nested.enter (h : c.Nested) {j : Jump} {entered : Frame} (resume : Nat)
    (ok : entered.scope ≠ .root ∨ (j.isCall = false ∧ c.returns = [])) :
    (c.enter d j entered resume).Nested := by
  apply nested_ofFrames
  rw [List.map_cons, List.pairwise_cons]
  refine ⟨?_, h.below j resume⟩
  intro s hs
  rcases ok with inner | ⟨isGoto, nil⟩
  · exact inner
  · simp [isGoto, nil] at hs

end Cursor

namespace Session

variable {p : Pace} {s : Session} {jump : Option Jump} {owner : ElementId} {resume : Nat}

/-- The jump is a goto that lands on an activity of the root while a call is pending. -/
def Escapes (s : Session) (jump : Option Jump) : Prop :=
  s.cursor.returns ≠ [] ∧ ∃ j i, jump = some j ∧ s.definition.resolve s.cursor.scope j = some (.statement .root i)

theorem nested_follow (h : s.cursor.Nested) (stays : ¬ s.Escapes jump) :
    (s.follow owner jump resume).cursor.Nested := by
  cases jump with
  | none =>
    rw [follow_none]
    exact h.passBy resume
  | some j =>
    cases hr : s.definition.resolve s.cursor.scope j with
    | none =>
      rw [follow_unresolved hr]
      exact h.passBy resume
    | some dest =>
      rw [follow_resolved hr]
      apply h.enter
      cases dest with
      | subroutine k => exact .inl (by simp [Cursor.entry])
      | statement scope i =>
        cases scope with
        | subroutine k => exact .inl (by simp [Cursor.entry])
        | root =>
          have nil : s.cursor.returns = [] := by
            by_contra pending
            exact stays ⟨pending, j, i, rfl, hr⟩
          cases j with
          | goto name => exact .inr ⟨rfl, nil⟩
          | call name =>
            obtain ⟨k, hk⟩ := Definition.resolve_call hr
            cases hk

/-- Such a goto stands at the root at once, with everything still pending. -/
theorem follow_of_escapes (h : s.Escapes jump) : ∃ f, (s.follow owner jump resume).cursor.frame = some f ∧
    f.scope = .root ∧ (s.follow owner jump resume).cursor.returns = s.cursor.returns := by
  obtain ⟨-, j, i, rfl, hr⟩ := h
  rw [follow_resolved hr]
  obtain ⟨a, ha⟩ := Definition.exists_statement?_of_resolve hr
  have stands : (Cursor.entry s.definition s.clock (.statement .root i)).settle? s.definition =
      some (Cursor.entry s.definition s.clock (.statement .root i)) :=
    Frame.settle?_of_activity? ha
  cases j with
  | call name =>
    obtain ⟨k, hk⟩ := Definition.resolve_call hr
    cases hk
  | goto name =>
    refine ⟨Cursor.entry s.definition s.clock (.statement .root i), ?_, rfl, ?_⟩
    · simp [Cursor.enter, Jump.isCall, Cursor.ofFrames_cons_of_some stands]
    · simp [Cursor.enter, Jump.isCall, Cursor.ofFrames_cons_of_some stands]

theorem nested_synchronize (h : s.cursor.Nested) (line : String) (host : Duration) :
    (s.synchronize p line host).2.cursor.Nested := by
  rcases synchronize_cases p s line host with he | ⟨f, m, -, -, he⟩
  · rw [he]
    exact h
  · rw [he]
    exact h.moveTo m.index

theorem nested_start (s : Session) (host : Duration) : (s.start p host).cursor.Nested := by
  rw [cursor_start]
  exact Cursor.nested_ofFrames (List.pairwise_singleton ..)

theorem nested_refreshWindow (h : s.cursor.Nested) : (s.refreshWindow p).cursor.Nested := by
  rw [cursor_refreshWindow]
  exact h

end Session

namespace Scene

open Session

variable {p : Pace} {x y : Scene}

def jumpAhead (x : Scene) : Option Jump :=
  match x.stage with
  | .jumping (t :: _) => t.rule.jump
  | .leaving a _ => a.cue.jump
  | _ => none

/-- The next move leaves a called subroutine for an activity of the root. -/
def Escapes (x : Scene) : Prop := x.session.Escapes x.jumpAhead

theorem Next.nested (move : Next p x y) (h : x.session.cursor.Nested) (stays : ¬ x.Escapes) :
    y.session.cursor.Nested := by
  cases move with
  | tick | step | rebase | fire | begin | finish | exhaust | execute | await => exact h
  | hear s line host => exact nested_synchronize h line host
  | jump s t fired => exact nested_follow h stays
  | leave s n a => exact nested_follow h stays
  | passOver => exact h.advance
  | «show» => exact nested_refreshWindow h

theorem Next.pending (move : Next p x y) (h : x.Escapes) : ∃ f, y.session.cursor.frame = some f ∧
    f.scope = .root ∧ y.session.cursor.returns = x.session.cursor.returns := by
  cases move with
  | jump s t fired => exact follow_of_escapes h
  | leave s n a => exact follow_of_escapes h
  | _ =>
    obtain ⟨-, j, i, hj, -⟩ := h
    cases hj

end Scene

namespace Trail

open Scene

variable {p : Pace}

private theorem nested_of_linked {x : Scene} {xs : List Scene} (linked : (x :: xs).IsChain (Next p))
    (first : x.session.cursor.Nested) (stays : ∀ y ∈ (x :: xs).dropLast, ¬ y.Escapes) :
    ∀ y ∈ x :: xs, y.session.cursor.Nested :=
  forall_of_linked linked first (fun move stays h => move.nested h stays) stays

private theorem stays_of_linked {x : Scene} {xs : List Scene} (linked : (x :: xs).IsChain (Next p))
    (ends : ∀ y ∈ x :: xs, y.session.cursor.EndsAtRoot y.session.definition) :
    ∀ y ∈ (x :: xs).dropLast, ¬ y.Escapes := by
  induction xs generalizing x with
  | nil => simp
  | cons y xs ih =>
    obtain ⟨move, linked⟩ := List.isChain_cons_cons.mp linked
    have rest := (List.forall_mem_cons.mp ends).2
    rw [List.dropLast_cons_cons, List.forall_mem_cons]
    refine ⟨?_, ih linked rest⟩
    intro escapes
    obtain ⟨f, hf, root, pending⟩ := move.pending escapes
    have nil := (rest y List.mem_cons_self f hf root).1
    rw [pending] at nil
    exact escapes.1 nil

/-- The end of the root ends a run exactly as long as no goto leaves a called subroutine for the root. -/
theorem endsAtRoot_iff (t : Trail p) :
    (∀ x ∈ t.scenes, x.session.cursor.EndsAtRoot x.session.definition) ↔
      ∀ x ∈ t.scenes.dropLast, ¬ x.Escapes := by
  constructor
  · exact stays_of_linked t.linked
  · intro stays x hx
    exact (nested_of_linked t.linked (Session.nested_start t.session t.host) stays x hx).endsAtRoot

def detour : Session :=
  { definition :=
      { elements :=
          [.activity { id := 0, cue := { call := some "Adds" } },
            .activity { id := 1, cue := { name := some "Enrage", time := ⟨100000000000⟩ } },
            .subroutine
              { id := 2, name := some "Adds", statements := [{ id := 3, cue := { goto := some "Enrage" } }] }] } }

/-- The call of the first activity is still pending when the goto has landed at the root. -/
theorem exists_not_endsAtRoot : ∃ s, Reached ({ maxStepsPerTick := 2 } : Settings).pace detour.definition ⟨.rest, s⟩ ∧
    ¬ s.cursor.EndsAtRoot s.definition := by
  let s := (detour.start ({ maxStepsPerTick := 2 } : Settings).pace .zero).run
    ({ maxStepsPerTick := 2 } : Settings).pace [.step]
  have landed : s.cursor.frame.map Frame.scope = some .root ∧ s.cursor.returns.length = 1 := by decide +kernel
  refine ⟨s, (Reached.start detour .zero rfl).run [.step], ?_⟩
  intro ends
  obtain ⟨f, hf, root⟩ := Option.map_eq_some_iff.mp landed.1
  have nil := (ends f hf root).1
  rw [nil] at landed
  cases landed.2

end Trail

end EncounterTimeline

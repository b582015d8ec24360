import EncounterTimeline.Timeline.Resolve
import EncounterTimeline.Proofs.Timeline.Scope

/-! # Where jumps land

A call lands on a subroutine, and a jump onto a statement lands where an activity stands.
-/
namespace EncounterTimeline.Definition

variable {d : Definition} {s t : Scope} {i : Nat} {name : String} {dest : Destination}

theorem subroutineAt?_of_named {k : Nat} {r : Subroutine} (h : d.subroutineNamed? name = some (k, r)) :
    d.subroutineAt? k = some r := by
  obtain ⟨i, -, hi⟩ := Option.bind_eq_some_iff.mp h
  obtain ⟨q, hq, he⟩ := Option.map_eq_some_iff.mp hi
  cases he
  exact hq

theorem resolve_call (h : d.resolve s (.call name) = some dest) : ∃ k, dest = .subroutine k := by
  obtain ⟨⟨k, r⟩, -, rfl⟩ := Option.map_eq_some_iff.mp h
  exact ⟨k, rfl⟩

theorem localLanding?_eq_some (h : d.localLanding? name s = some dest) :
    ∃ i a, dest = .statement s i ∧ d.statement? s i = some a := by
  cases s with
  | root => cases h
  | subroutine k =>
    obtain ⟨i, hi, rfl⟩ := Option.map_eq_some_iff.mp h
    obtain ⟨r, hr, hi⟩ := Option.bind_eq_some_iff.mp hi
    obtain ⟨lt, -⟩ := List.findIdx?_eq_some_iff_getElem.mp hi
    exact ⟨i, _, rfl, statement?_subroutine.mpr ⟨r, hr, List.getElem?_eq_getElem lt⟩⟩

theorem rootLanding?_eq_some (h : d.rootLanding? name = some dest) :
    (∃ k, dest = .subroutine k) ∨ ∃ i a, dest = .statement .root i ∧ d.statement? .root i = some a := by
  obtain ⟨i, hi, hd⟩ := Option.bind_eq_some_iff.mp h
  obtain ⟨lt, lands, -⟩ := List.findIdx?_eq_some_iff_getElem.mp hi
  have at_i := List.getElem?_eq_getElem lt
  rw [at_i] at hd
  cases he : d.elements[i] with
  | preset | trigger => simp [he, isLanding] at lands
  | subroutine r =>
    simp only [he, Option.some.injEq] at hd
    exact .inl ⟨i, hd.symm⟩
  | activity a =>
    simp only [he, Option.some.injEq] at hd
    exact .inr ⟨i, a, hd.symm, statement?_root.mpr (he ▸ at_i)⟩

/-- A jump onto a statement finds an activity there. -/
theorem exists_statement?_of_resolve {j : Jump} (h : d.resolve s j = some (.statement t i)) :
    ∃ a, d.statement? t i = some a := by
  cases j with
  | call name =>
    obtain ⟨k, hk⟩ := resolve_call h
    cases hk
  | goto name =>
    rcases Option.or_eq_some_iff.mp h with inside | ⟨-, outside⟩
    · obtain ⟨i, a, he, ha⟩ := localLanding?_eq_some inside
      cases he
      exact ⟨a, ha⟩
    · rcases rootLanding?_eq_some outside with ⟨k, he⟩ | ⟨i, a, he, ha⟩
      · cases he
      · cases he
        exact ⟨a, ha⟩

end EncounterTimeline.Definition

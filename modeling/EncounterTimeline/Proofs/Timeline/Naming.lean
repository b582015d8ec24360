import EncounterTimeline.Proofs.Timeline.Landing
import Mathlib.Order.Nat

/-! # What a name leads to

Which destinations bear a name is told by what stands there, and which of them are open to a jump by the scope it comes
from. A jump lands at the foremost of both: what stands in the subroutine of the jump comes before what stands in the
root, and an earlier place before a later one.
-/
namespace EncounterTimeline

namespace Destination

def index : Destination → Nat
  | statement _ i => i
  | subroutine i => i

def isInside : Destination → Bool
  | statement (.subroutine _) _ => true
  | _ => false

def Precedes (x y : Destination) : Prop :=
  (x.isInside = true ∧ y.isInside = false) ∨ (x.isInside = y.isInside ∧ x.index < y.index)

theorem Precedes.asymm {x y : Destination} (h : x.Precedes y) : ¬ y.Precedes x := by
  rintro (⟨inside, outside⟩ | ⟨same, less⟩)
  · rcases h with ⟨-, outside'⟩ | ⟨same', -⟩
    · cases inside.symm.trans outside'
    · cases outside.symm.trans (same'.trans inside)
  · rcases h with ⟨inside', outside'⟩ | ⟨-, less'⟩
    · cases inside'.symm.trans (same.symm.trans outside')
    · exact Nat.lt_asymm less less'

end Destination

/-- The destinations that are open to a jump out of a scope, whatever stands there. -/
def Jump.Reaches (origin : Scope) : Jump → Destination → Prop
  | .call _, .statement _ _ => False
  | .goto _, .statement s _ => s = origin ∨ s = .root
  | _, .subroutine _ => True

namespace Definition

variable {d : Definition} {origin s : Scope} {i k : Nat} {name : String} {j : Jump} {dest other : Destination}

def Bears (d : Definition) (name : String) : Destination → Prop
  | .statement s i => ∃ a, d.statement? s i = some a ∧ a.cue.displayName = some name
  | .subroutine i => ∃ r, d.subroutineAt? i = some r ∧ r.name = some name

def Answers (d : Definition) (origin : Scope) (j : Jump) (dest : Destination) : Prop :=
  j.Reaches origin dest ∧ d.Bears j.name dest

/-- The destination answers the jump and comes before every other that does. -/
structure Foremost (d : Definition) (origin : Scope) (j : Jump) (dest : Destination) : Prop where
  answers : d.Answers origin j dest
  precedes : ∀ other, d.Answers origin j other → other ≠ dest → dest.Precedes other

theorem Foremost.unique (h : d.Foremost origin j dest) (h' : d.Foremost origin j other) : dest = other := by
  by_contra apart
  exact (h.precedes other h'.answers (Ne.symm apart)).asymm (h'.precedes dest h.answers apart)

/-- What answers from the root answers from everywhere. -/
theorem Answers.of_root (h : d.Answers .root j dest) : d.Answers origin j dest := by
  obtain ⟨reaches, bears⟩ := h
  refine ⟨?_, bears⟩
  cases j <;> cases dest <;> simp_all [Jump.Reaches]

theorem findIdx?_eq_some_iff_isLeast {α : Type} {l : List α} {p : α → Bool} :
    l.findIdx? p = some i ↔ IsLeast {n | ∃ x, l[n]? = some x ∧ p x = true} i := by
  rw [List.findIdx?_eq_some_iff_getElem]
  constructor
  · rintro ⟨lt, found, before⟩
    refine ⟨⟨_, List.getElem?_eq_getElem lt, found⟩, ?_⟩
    rintro n ⟨x, hx, holds⟩
    by_contra less
    obtain ⟨_, rfl⟩ := List.getElem?_eq_some_iff.mp hx
    exact before n (Nat.lt_of_not_le less) holds
  · rintro ⟨⟨x, hx, holds⟩, least⟩
    obtain ⟨lt, rfl⟩ := List.getElem?_eq_some_iff.mp hx
    refine ⟨lt, holds, ?_⟩
    intro n less holds'
    exact absurd (least ⟨_, List.getElem?_eq_getElem (Nat.lt_trans less lt), holds'⟩) (Nat.not_le_of_lt less)

theorem bears_subroutine_iff : d.Bears name (.subroutine i) ↔
    ∃ e, d.elements[i]? = some e ∧ (e.asSubroutine.any fun r => r.name == some name) = true := by
  constructor
  · rintro ⟨r, hr, named⟩
    exact ⟨_, subroutineAt?_eq_some_iff.mp hr, by simp [Element.asSubroutine, named]⟩
  · rintro ⟨e, he, named⟩
    obtain ⟨r, hr, named⟩ := (Option.any_eq_true _ _).mp named
    exact ⟨r, by rw [subroutineAt?, he, Option.bind_some, hr], beq_iff_eq.mp named⟩

/-- A place of the root bears a name if a goto may land on its element. -/
theorem bears_root_iff : d.Bears name (.statement .root i) ∨ d.Bears name (.subroutine i) ↔
    ∃ e, d.elements[i]? = some e ∧ isLanding name e = true := by
  constructor
  · rintro (⟨a, ha, named⟩ | ⟨r, hr, named⟩)
    · exact ⟨_, statement?_root.mp ha, by simp [isLanding, named]⟩
    · exact ⟨_, subroutineAt?_eq_some_iff.mp hr, by simp [isLanding, named]⟩
  · rintro ⟨e, he, lands⟩
    cases e with
    | preset | trigger => cases lands
    | activity a => exact .inl ⟨a, statement?_root.mpr he, beq_iff_eq.mp lands⟩
    | subroutine r => exact .inr ⟨r, subroutineAt?_eq_some_iff.mpr he, beq_iff_eq.mp lands⟩

/-- An element is an activity or a subroutine, never both. -/
theorem not_bears_twice (activity : d.Bears name (.statement .root i)) : ¬ d.Bears name (.subroutine i) := by
  obtain ⟨a, ha, -⟩ := activity
  rintro ⟨r, hr, -⟩
  cases (statement?_root.mp ha).symm.trans (subroutineAt?_eq_some_iff.mp hr)

theorem resolve_call_eq_some_iff : d.resolve s (.call name) = some dest ↔
    ∃ i, dest = .subroutine i ∧ IsLeast {n | d.Bears name (.subroutine n)} i := by
  have search (i : Nat) : (d.elements.findIdx? fun e => e.asSubroutine.any fun r => r.name == some name) = some i ↔
      IsLeast {n | d.Bears name (.subroutine n)} i := by
    simp only [bears_subroutine_iff]
    exact findIdx?_eq_some_iff_isLeast
  simp only [resolve, subroutineNamed?, Option.map_eq_some_iff, Option.bind_eq_some_iff]
  constructor
  · rintro ⟨_, ⟨i, found, r, -, rfl⟩, rfl⟩
    exact ⟨i, rfl, (search i).mp found⟩
  · rintro ⟨i, rfl, least⟩
    obtain ⟨r, hr, -⟩ := least.1
    exact ⟨(i, r), ⟨i, (search i).mpr least, r, hr, rfl⟩, rfl⟩

theorem rootLanding?_eq_some_iff : d.rootLanding? name = some dest ↔
    (dest = .statement .root dest.index ∨ dest = .subroutine dest.index) ∧ d.Bears name dest ∧
      IsLeast {n | d.Bears name (.statement .root n) ∨ d.Bears name (.subroutine n)} dest.index := by
  have search (i : Nat) : d.elements.findIdx? (isLanding name) = some i ↔
      IsLeast {n | d.Bears name (.statement .root n) ∨ d.Bears name (.subroutine n)} i := by
    simp only [bears_root_iff]
    exact findIdx?_eq_some_iff_isLeast
  rw [rootLanding?, Option.bind_eq_some_iff]
  constructor
  · rintro ⟨i, found, entered⟩
    have least := (search i).mp found
    rcases least.1 with bears | bears
    · obtain ⟨a, ha, -⟩ := id bears
      rw [statement?_root.mp ha] at entered
      cases entered
      exact ⟨.inl rfl, bears, least⟩
    · obtain ⟨r, hr, -⟩ := id bears
      rw [subroutineAt?_eq_some_iff.mp hr] at entered
      cases entered
      exact ⟨.inr rfl, bears, least⟩
  · rintro ⟨place, bears, least⟩
    refine ⟨dest.index, (search _).mpr least, ?_⟩
    rcases place with here | here
    · rw [here] at bears
      obtain ⟨a, ha, -⟩ := bears
      rw [statement?_root.mp ha]
      exact congrArg some here.symm
    · rw [here] at bears
      obtain ⟨r, hr, -⟩ := bears
      rw [subroutineAt?_eq_some_iff.mp hr]
      exact congrArg some here.symm

theorem localLanding?_eq_some_iff : d.localLanding? name s = some dest ↔
    ∃ k i, s = .subroutine k ∧ dest = .statement s i ∧ IsLeast {n | d.Bears name (.statement s n)} i := by
  cases s with
  | root => simp [localLanding?]
  | subroutine k =>
    have search (r : Subroutine) (hr : d.subroutineAt? k = some r) (i : Nat) : r.indexOf? name = some i ↔
        IsLeast {n | d.Bears name (.statement (.subroutine k) n)} i := by
      rw [Subroutine.indexOf?, findIdx?_eq_some_iff_isLeast]
      simp [Bears, statement?_subroutine, hr]
    simp only [localLanding?, Option.map_eq_some_iff, Option.bind_eq_some_iff]
    constructor
    · rintro ⟨i, ⟨r, hr, found⟩, rfl⟩
      exact ⟨k, i, rfl, rfl, (search r hr i).mp found⟩
    · rintro ⟨_, i, -, rfl, least⟩
      obtain ⟨a, ha, -⟩ := id least.1
      obtain ⟨r, hr, -⟩ := statement?_subroutine.mp ha
      exact ⟨i, ⟨r, hr, (search r hr i).mpr least⟩, rfl⟩

theorem exists_isLeast {p : Nat → Prop} (h : p i) : ∃ n, IsLeast {n | p n} n := by
  classical
  exact ⟨_, Nat.isLeast_find ⟨i, h⟩⟩

/-- Of two places of the root that bear the name, the one that is no later is earlier. -/
theorem precedes_of_root (here : dest = .statement .root dest.index ∨ dest = .subroutine dest.index)
    (there : other = .statement .root other.index ∨ other = .subroutine other.index) (bears : d.Bears name dest)
    (bears' : d.Bears name other) (apart : other ≠ dest) (le : dest.index ≤ other.index) : dest.Precedes other := by
  refine .inr ⟨?_, Nat.lt_of_le_of_ne le fun same => ?_⟩
  · rcases here with h | h <;> rcases there with h' | h' <;> rw [h, h'] <;> rfl
  · rcases here with h | h <;> rcases there with h' | h'
    · exact apart (by rw [h, h', same])
    · rw [h] at bears
      rw [h', ← same] at bears'
      exact not_bears_twice bears bears'
    · rw [h] at bears
      rw [h', ← same] at bears'
      exact not_bears_twice bears' bears
    · exact apart (by rw [h, h', same])

theorem foremost_of_call (h : d.resolve origin (.call name) = some dest) :
    d.Foremost origin (.call name) dest := by
  obtain ⟨i, rfl, least⟩ := resolve_call_eq_some_iff.mp h
  refine ⟨⟨trivial, least.1⟩, ?_⟩
  rintro (⟨s, n⟩ | n) ⟨reaches, bears⟩ apart
  · exact reaches.elim
  · exact .inr ⟨rfl, Nat.lt_of_le_of_ne (least.2 bears) fun same => apart (congrArg _ same.symm)⟩

theorem foremost_of_inside (h : d.localLanding? name origin = some dest) : d.Foremost origin (.goto name) dest := by
  obtain ⟨k, i, rfl, rfl, least⟩ := localLanding?_eq_some_iff.mp h
  refine ⟨⟨.inl rfl, least.1⟩, ?_⟩
  rintro (⟨s, n⟩ | n) ⟨reaches, bears⟩ apart
  · rcases reaches with rfl | rfl
    · exact .inr ⟨rfl, Nat.lt_of_le_of_ne (least.2 bears) fun same => apart (congrArg _ same.symm)⟩
    · exact .inl ⟨rfl, rfl⟩
  · exact .inl ⟨rfl, rfl⟩

theorem foremost_of_outside (nowhere : d.localLanding? name origin = none) (h : d.rootLanding? name = some dest) :
    d.Foremost origin (.goto name) dest := by
  obtain ⟨place, bears, least⟩ := rootLanding?_eq_some_iff.mp h
  have reaches : Jump.Reaches origin (.goto name) dest := by
    rcases place with here | here <;> rw [here]
    · exact .inr rfl
    · trivial
  refine ⟨⟨reaches, bears⟩, ?_⟩
  rintro (⟨s, n⟩ | n) ⟨reaches', bears'⟩ apart
  · cases s with
    | root => exact precedes_of_root place (.inl rfl) bears bears' apart (least.2 (.inl bears'))
    | subroutine k =>
      -- It would have been found inside.
      obtain ⟨i, least'⟩ := exists_isLeast (p := fun n => d.Bears name (.statement (.subroutine k) n)) bears'
      rcases reaches' with rfl | none
      · cases nowhere.symm.trans (localLanding?_eq_some_iff.mpr ⟨k, i, rfl, rfl, least'⟩)
      · cases none
  · exact precedes_of_root place (.inr rfl) bears bears' apart (least.2 (.inr bears'))

theorem foremost_of_resolve (h : d.resolve origin j = some dest) : d.Foremost origin j dest := by
  cases j with
  | call name => exact foremost_of_call h
  | goto name =>
    rcases Option.or_eq_some_iff.mp h with inside | ⟨nowhere, outside⟩
    · exact foremost_of_inside inside
    · exact foremost_of_outside nowhere outside

theorem exists_rootLanding? (h : d.Bears name (.statement .root i) ∨ d.Bears name (.subroutine i)) :
    ∃ dest, d.rootLanding? name = some dest := by
  obtain ⟨n, least⟩ :=
    exists_isLeast (p := fun n => d.Bears name (.statement .root n) ∨ d.Bears name (.subroutine n)) h
  rcases least.1 with bears | bears
  · exact ⟨_, rootLanding?_eq_some_iff.mpr ⟨.inl rfl, bears, least⟩⟩
  · exact ⟨_, rootLanding?_eq_some_iff.mpr ⟨.inr rfl, bears, least⟩⟩

/-- Where something answers, the jump lands somewhere. -/
theorem Answers.exists_resolve (h : d.Answers origin j dest) : ∃ found, d.resolve origin j = some found := by
  obtain ⟨reaches, bears⟩ := h
  cases j with
  | call name =>
    cases dest with
    | statement => exact reaches.elim
    | subroutine i =>
      obtain ⟨n, least⟩ := exists_isLeast (p := fun n => d.Bears name (.subroutine n)) bears
      exact ⟨_, resolve_call_eq_some_iff.mpr ⟨n, rfl, least⟩⟩
  | goto name =>
    rw [resolve]
    cases inside : d.localLanding? name origin with
    | some found => exact ⟨found, rfl⟩
    | none =>
      rw [Option.none_or]
      cases dest with
      | subroutine i => exact exists_rootLanding? (.inr bears)
      | statement s i =>
        cases s with
        | root => exact exists_rootLanding? (.inl bears)
        | subroutine k =>
          obtain ⟨n, least⟩ := exists_isLeast (p := fun n => d.Bears name (.statement (.subroutine k) n)) bears
          rcases reaches with rfl | none
          · cases inside.symm.trans (localLanding?_eq_some_iff.mpr ⟨k, n, rfl, rfl, least⟩)
          · cases none

/-- A jump lands at the foremost destination that is open to it and bears its name: a call at the first subroutine of the
root, a goto at the first statement of the subroutine it stands in, else at the first activity or subroutine of the root.
It lands nowhere exactly if there is no such destination, and what lands somewhere from the root does so from every
scope. -/
theorem resolve_foremost (d : Definition) (origin : Scope) (j : Jump) :
    (∀ dest, d.resolve origin j = some dest ↔ d.Foremost origin j dest) ∧
      (d.resolve origin j = none ↔ ∀ dest, ¬ d.Answers origin j dest) ∧
      ((d.resolve .root j).isSome = true → (d.resolve origin j).isSome = true) := by
  refine ⟨fun dest => ⟨foremost_of_resolve, fun foremost => ?_⟩, ⟨fun nowhere dest answers => ?_, fun none => ?_⟩, ?_⟩
  · obtain ⟨found, lands⟩ := foremost.answers.exists_resolve
    rw [lands, (foremost_of_resolve lands).unique foremost]
  · obtain ⟨found, lands⟩ := answers.exists_resolve
    cases nowhere.symm.trans lands
  · rw [Option.eq_none_iff_forall_ne_some]
    exact fun dest lands => none dest (foremost_of_resolve lands).answers
  · intro lands
    obtain ⟨dest, fromRoot⟩ := Option.isSome_iff_exists.mp lands
    have answers : d.Answers origin j dest := (foremost_of_resolve fromRoot).answers.of_root
    exact Option.isSome_iff_exists.mpr answers.exists_resolve

/-- A name that is borne by a statement, by an activity of the root and, as its text, by an earlier one. -/
example :
    let d : Definition :=
      { elements :=
          [.trigger { id := 0, rule := { name := some "Adds" } },
            .activity { id := 1, cue := { text := some "Adds" } },
            .subroutine { id := 2, name := some "Adds", statements := [{ id := 3, cue := { name := some "Adds" } }] }] }
    d.resolve .root (.goto "Adds") = some (.statement .root 1) ∧
      d.resolve (.subroutine 2) (.goto "Adds") = some (.statement (.subroutine 2) 0) ∧
      d.resolve (.subroutine 1) (.goto "Adds") = some (.statement .root 1) ∧
      d.resolve .root (.call "Adds") = some (.subroutine 2) := by
  decide

end Definition

end EncounterTimeline

import EncounterTimeline.Proofs.Playback.Settling
import Mathlib.Logic.Relation

/-! # Rounds of settling

Settling walks. A place that holds no activity is passed over, and when a scope has come to its end the frame it
was called from takes over. Every round shortens the way that is left, through the scope of the frame and then
through those of the frames below it, so the walk comes to an end wherever it began; and since no round changes
where a cursor settles, it ends where settling says.
-/
namespace EncounterTimeline

namespace Frame

variable {d : Definition} {f g : Frame} {i j : Nat}

def Spent (d : Definition) (f : Frame) : Prop := ∀ i, f.index ≤ i → d.statement? f.scope i = none

structure Meets (d : Definition) (f : Frame) (i : Nat) : Prop where
  ahead : f.index ≤ i
  found : ∃ a, d.statement? f.scope i = some a
  before : ∀ j, f.index ≤ j → j < i → d.statement? f.scope j = none

theorem Meets.not_lt (hi : f.Meets d i) (hj : f.Meets d j) : ¬ i < j := by
  intro lt
  obtain ⟨a, ha⟩ := hi.found
  rw [hj.before i hi.ahead lt] at ha
  cases ha

theorem Meets.unique (hi : f.Meets d i) (hj : f.Meets d j) : i = j :=
  Nat.le_antisymm (Nat.le_of_not_lt (hj.not_lt hi)) (Nat.le_of_not_lt (hi.not_lt hj))

theorem settle?_eq_some_iff : f.settle? d = some g ↔ ∃ i, f.Meets d i ∧ g = { f with index := i } := by
  have meets : ∀ g, f.settle? d = some g → f.Meets d g.index ∧ g = { f with index := g.index } := by
    intro g h
    obtain ⟨scope, base, ahead, ⟨a, ha⟩, before⟩ := settle?_eq_some h
    rw [activity?, scope] at ha
    refine ⟨⟨ahead, ⟨a, ha⟩, before⟩, ?_⟩
    rw [← scope, ← base]
  constructor
  · intro h
    exact ⟨g.index, meets g h⟩
  · rintro ⟨i, hi, rfl⟩
    cases h : f.settle? d with
    | none =>
      obtain ⟨a, ha⟩ := hi.found
      rw [settle?_eq_none_iff.mp h i hi.ahead] at ha
      cases ha
    | some g =>
      obtain ⟨own, hg⟩ := meets g h
      rw [hg, own.unique hi]

/-- A place without an activity makes no difference to what lies from it on. -/
theorem meets_pass (h : f.activity? d = none) : Meets d { f with index := f.index + 1 } i ↔ f.Meets d i := by
  constructor
  · rintro ⟨ahead, found, before⟩
    refine ⟨Nat.le_of_succ_le ahead, found, fun j le lt => ?_⟩
    rcases Nat.eq_or_lt_of_le le with rfl | le
    · exact h
    · exact before j le lt
  · rintro ⟨ahead, ⟨a, ha⟩, before⟩
    refine ⟨Nat.lt_of_le_of_ne ahead ?_, ⟨a, ha⟩, fun j le lt => before j (Nat.le_of_succ_le le) lt⟩
    rintro rfl
    cases h.symm.trans ha

theorem settle?_pass (h : f.activity? d = none) :
    Frame.settle? d { f with index := f.index + 1 } = f.settle? d := by
  ext g
  simp only [settle?_eq_some_iff, meets_pass h]

theorem settle?_past_end (h : d.scopeLength f.scope ≤ f.index) : f.settle? d = none := by
  rw [settle?_eq_none_iff]
  intro i le
  cases ha : d.statement? f.scope i with
  | none => rfl
  | some a => exact absurd (Definition.lt_scopeLength_of_statement? ha) (by omega)

end Frame

namespace Cursor

variable {d : Definition} {c e : Cursor}

/-- One round: a place without an activity is passed over, and past the end of its scope the frame is left for the
latest of those below it, if there is one. -/
inductive Round (d : Definition) : Cursor → Cursor → Prop
  | pass (f : Frame) (returns : List Frame) (within : f.index < d.scopeLength f.scope)
      (empty : f.activity? d = none) : Round d ⟨some f, returns⟩ ⟨some { f with index := f.index + 1 }, returns⟩
  | leave (f : Frame) (returns : List Frame) (past : d.scopeLength f.scope ≤ f.index) :
      Round d ⟨some f, returns⟩ ⟨returns.head?, returns.tail⟩

def Still (d : Definition) (c : Cursor) : Prop := ∀ e, ¬ Round d c e

def wayThrough (d : Definition) : List Frame → Nat
  | [] => 0
  | f :: below => d.scopeLength f.scope - f.index + 1 + wayThrough d below

/-- The rounds that are left at most. A finished cursor has none, whatever frames lie below it. -/
def wayLeft (d : Definition) (c : Cursor) : Nat :=
  match c.frame with
  | none => 0
  | some f => wayThrough d (f :: c.returns)

theorem Round.wayLeft (h : Round d c e) : e.wayLeft d < c.wayLeft d := by
  cases h with
  | pass f returns within empty =>
    simp only [Cursor.wayLeft, wayThrough]
    omega
  | leave f returns past =>
    cases returns with
    | nil => simp [Cursor.wayLeft, wayThrough]
    | cons g below =>
      simp only [Cursor.wayLeft, wayThrough, List.head?_cons, List.tail_cons]
      omega

theorem wellFounded_round (d : Definition) : WellFounded fun e c => Round d c e :=
  Subrelation.wf Round.wayLeft (measure (Cursor.wayLeft d)).wf

@[simp] theorem settle_finished (returns : List Frame) : Cursor.settle ⟨none, returns⟩ d = ⟨none, returns⟩ := rfl

@[simp] theorem settle_some (f : Frame) (returns : List Frame) :
    Cursor.settle ⟨some f, returns⟩ d = ofFrames d (f :: returns) := rfl

/-- A round does not change where a cursor settles. -/
theorem Round.settle (h : Round d c e) : c.settle d = e.settle d := by
  cases h with
  | pass f returns within empty => simp only [settle_some, ofFrames, Frame.settle?_pass empty]
  | leave f returns past =>
    rw [settle_some, ofFrames_cons_of_none (Frame.settle?_past_end past)]
    cases returns <;> rfl

theorem settle_of_rounds (h : Relation.ReflTransGen (Round d) c e) : c.settle d = e.settle d := by
  induction h with
  | refl => rfl
  | tail _ last ih => exact ih.trans last.settle

/-- A cursor that can go no further is finished or stands at an activity. -/
theorem still_iff : c.Still d ↔ ∀ f, c.frame = some f → ∃ a, f.activity? d = some a := by
  obtain ⟨frame, returns⟩ := c
  constructor
  · rintro still f rfl
    cases ha : f.activity? d with
    | some a => exact ⟨a, rfl⟩
    | none =>
      rcases Nat.lt_or_ge f.index (d.scopeLength f.scope) with within | past
      · exact absurd (Round.pass f returns within ha) (still _)
      · exact absurd (Round.leave f returns past) (still _)
  · intro settled e h
    cases h with
    | pass f returns within empty =>
      obtain ⟨a, ha⟩ := settled f rfl
      cases empty.symm.trans ha
    | leave f returns past =>
      obtain ⟨a, ha⟩ := settled f rfl
      exact Nat.not_lt_of_le past (Definition.lt_scopeLength_of_statement? ha)

theorem settle_of_still (h : c.Still d) : c.settle d = c := by
  obtain ⟨frame, returns⟩ := c
  cases frame with
  | none => rfl
  | some f =>
    obtain ⟨a, ha⟩ := still_iff.mp h f rfl
    exact ofFrames_cons_of_some (Frame.settle?_of_activity? ha)

/-- From every cursor the walk comes to a cursor that can go no further. -/
theorem exists_rounds_still (d : Definition) (c : Cursor) : ∃ e, Relation.ReflTransGen (Round d) c e ∧ e.Still d := by
  -- The walk from a cursor ends if it ends from whatever cursor one round leads to.
  induction c using (wellFounded_round d).induction with
  | _ c ih =>
    by_cases still : c.Still d
    · exact ⟨c, .refl, still⟩
    · obtain ⟨e, round⟩ := not_forall_not.mp still
      obtain ⟨last, rounds, still⟩ := ih e round
      exact ⟨last, .head round rounds, still⟩

/-- A cursor settles where its rounds lead and end. -/
theorem settle_eq_iff : c.settle d = e ↔ Relation.ReflTransGen (Round d) c e ∧ e.Still d := by
  constructor
  · rintro rfl
    obtain ⟨e, rounds, still⟩ := exists_rounds_still d c
    rw [settle_of_rounds rounds, settle_of_still still]
    exact ⟨rounds, still⟩
  · rintro ⟨rounds, still⟩
    rw [settle_of_rounds rounds, settle_of_still still]

/-- A cursor settles at the first of its frames that has an activity left, moved to it, over the frames below
that one; without such a frame it is finished. -/
theorem settle_cases (d : Definition) (f : Frame) (returns : List Frame) :
    ((∀ g ∈ f :: returns, g.Spent d) ∧ Cursor.settle ⟨some f, returns⟩ d = ⟨none, []⟩) ∨
    ∃ above g below i, f :: returns = above ++ g :: below ∧ (∀ h ∈ above, h.Spent d) ∧ g.Meets d i ∧
      Cursor.settle ⟨some f, returns⟩ d = ⟨some { g with index := i }, below⟩ := by
  rcases ofFrames_cases d (f :: returns) with ⟨settled, spent⟩ | ⟨above, g, below, g', frames, spent, hg, settled⟩
  · exact .inl ⟨fun g hg => Frame.settle?_eq_none_iff.mp (spent g hg), settled⟩
  · obtain ⟨i, meets, rfl⟩ := Frame.settle?_eq_some_iff.mp hg
    exact .inr ⟨above, g, below, i, frames, fun h hh => Frame.settle?_eq_none_iff.mp (spent h hh), meets, settled⟩

/-- Settling comes to an end from every cursor, at the one its rounds lead to. It finishes the cursor, with no
frames left, when no frame has an activity at or after its place; else it stops at the first frame that has, the
present one before the stacked ones and these from the latest, moved to the first such activity, and the frames
below stay as they are. A finished cursor stays as it is, and so does a settled one. -/
theorem settle_walks (d : Definition) :
    (WellFounded fun e c => Round d c e) ∧
    (∀ c e, c.settle d = e ↔ Relation.ReflTransGen (Round d) c e ∧ e.Still d) ∧
    (∀ f returns,
      ((∀ g ∈ f :: returns, g.Spent d) ∧ Cursor.settle ⟨some f, returns⟩ d = ⟨none, []⟩) ∨
      ∃ above g below i, f :: returns = above ++ g :: below ∧ (∀ h ∈ above, h.Spent d) ∧ g.Meets d i ∧
        Cursor.settle ⟨some f, returns⟩ d = ⟨some { g with index := i }, below⟩) ∧
    (∀ returns, Cursor.settle ⟨none, returns⟩ d = ⟨none, returns⟩) ∧
    ∀ c : Cursor, (c.settle d).settle d = c.settle d := by
  refine ⟨wellFounded_round d, fun c e => settle_eq_iff, settle_cases d, settle_finished, fun c => ?_⟩
  have still : (c.settle d).Still d := (settle_eq_iff.mp rfl).2
  exact settle_of_still still

/-- A frame of a subroutine that does not exist and one past the end of the root give way to the frame below. -/
example : Cursor.settle ⟨some ⟨.subroutine 7, 3, 1.0⟩, [⟨.root, 9, 2.0⟩, ⟨.root, 0, 3.0⟩, ⟨.root, 5, 4.0⟩]⟩
    { elements := [.preset 0 {}, .activity { id := 1, cue := {} }] } = ⟨some ⟨.root, 1, 3.0⟩, [⟨.root, 5, 4.0⟩]⟩ := rfl

end Cursor

end EncounterTimeline

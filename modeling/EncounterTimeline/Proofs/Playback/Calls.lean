import EncounterTimeline.Proofs.Playback.Settling
import EncounterTimeline.Proofs.Timeline.Landing

/-! # Calls and returns

A call puts its return point on top of the frames that are pending. Whatever a cursor does, it enters frames above
those or settles into them from the top, so the return point and what lies below it stay as they are until the
cursor settles into the return point itself; from there on it is as if the call had not been made.
-/
namespace EncounterTimeline

namespace Cursor

theorem ofFrames_append (d : Definition) (above base : List Frame) :
    (∃ f upper, ofFrames d (above ++ base) = ⟨some f, upper ++ base⟩) ∨
      ofFrames d (above ++ base) = ofFrames d base := by
  induction above with
  | nil => exact .inr rfl
  | cons f above ih =>
    cases hf : f.settle? d with
    | some g => exact .inl ⟨g, above, ofFrames_cons_of_some hf⟩
    | none =>
      rw [List.cons_append, ofFrames_cons_of_none hf]
      exact ih

theorem length_returns_ofFrames (d : Definition) (f : Frame) (below : List Frame) :
    (ofFrames d (f :: below)).returns.length ≤ below.length := by
  rcases ofFrames_cases d (f :: below) with ⟨h, -⟩ | ⟨above, _, rest, _, parts, -, -, h⟩
  · rw [h]
    exact Nat.zero_le _
  · rw [h]
    have lengths := congrArg List.length parts
    simp only [List.length_cons, List.length_append] at lengths
    dsimp only
    omega

end Cursor

structure Walk where
  cursor : Cursor
  definition : Definition

inductive Turn where
  | advance
  | follow (jump : Option Jump) (clock : Float) (resume : Nat)

namespace Walk

def take (w : Walk) : Turn → Walk
  | .advance => { w with cursor := w.cursor.advance w.definition }
  | .follow jump clock resume =>
    let (_, cursor, definition) := w.cursor.follow w.definition jump clock resume
    ⟨cursor, definition⟩

def takeAll (w : Walk) (turns : List Turn) : Walk := turns.foldl take w

variable {d : Definition} {w : Walk} {f : Frame} {base : List Frame}

theorem script_take (w : Walk) (turn : Turn) : (w.take turn).definition.script = w.definition.script := by
  cases turn with
  | advance => rfl
  | follow jump clock resume =>
    cases jump with
    | none => rfl
    | some j =>
      cases hr : w.definition.resolve w.cursor.scope j with
      | none => simp only [take, Cursor.follow, hr]
      | some dest =>
        simp only [take, Cursor.follow, hr]
        exact Definition.script_rearmFrom

/-- A turn leaves the cursor as it is, or settles it from frames put above its returns. -/
theorem cursor_take (w : Walk) (turn : Turn) (hf : w.cursor.frame = some f) :
    (w.take turn).cursor = w.cursor ∨
      ∃ above, (w.take turn).cursor = Cursor.ofFrames w.definition (above ++ w.cursor.returns) := by
  have advance : w.cursor.advance w.definition =
      Cursor.ofFrames w.definition ([{ f with index := f.index + 1 }] ++ w.cursor.returns) := by
    simp only [Cursor.advance, Cursor.settle, hf, Option.map_some, List.singleton_append]
  have passBy (resume : Nat) : w.cursor.passBy w.definition resume = w.cursor ∨
      ∃ above, w.cursor.passBy w.definition resume = Cursor.ofFrames w.definition (above ++ w.cursor.returns) := by
    unfold Cursor.passBy
    split
    · exact .inr ⟨_, advance⟩
    · exact .inl rfl
  cases turn with
  | advance => exact .inr ⟨_, advance⟩
  | follow jump clock resume =>
    cases jump with
    | none => exact passBy resume
    | some j =>
      cases hr : w.definition.resolve w.cursor.scope j with
      | none =>
        simp only [take, Cursor.follow, hr]
        exact passBy resume
      | some dest =>
        simp only [take, Cursor.follow, hr, Cursor.enter]
        right
        cases j with
        | goto name => exact ⟨[_], rfl⟩
        | call name =>
          exact ⟨Cursor.entry w.definition clock dest :: (w.cursor.returnPoint resume).toList, by simp [Jump.isCall]⟩

/-- The walk goes on above frames that wait. -/
structure Above (w : Walk) (d : Definition) (base : List Frame) : Prop where
  script : w.definition.script = d.script
  going : ∃ f, w.cursor.frame = some f
  waiting : base <:+ w.cursor.returns

/-- A turn stays above the frames that wait or settles into them. -/
theorem Above.take (h : w.Above d base) (turn : Turn) :
    (w.take turn).Above d base ∨ (w.take turn).cursor = Cursor.ofFrames d base := by
  obtain ⟨f, hf⟩ := h.going
  have script : (w.take turn).definition.script = d.script := (script_take w turn).trans h.script
  rcases cursor_take w turn hf with same | ⟨above, settled⟩
  · left
    refine ⟨script, ?_, ?_⟩
    · rw [same]
      exact h.going
    · rw [same]
      exact h.waiting
  · obtain ⟨upper, parts⟩ := h.waiting
    rw [← parts, ← List.append_assoc, Cursor.ofFrames_congr h.script] at settled
    rcases Cursor.ofFrames_append d (above ++ upper) base with ⟨g, later, stays⟩ | returns
    · left
      rw [stays] at settled
      exact ⟨script, by rw [settled]; exact ⟨g, rfl⟩, by rw [settled]; exact List.suffix_append later base⟩
    · exact .inr (settled.trans returns)

/-- A walk stays above a frame and those below it as long as it never has fewer returns than these. -/
theorem Above.takeAll (h : w.Above d (f :: base)) {turns : List Turn}
    (deep : ∀ n ≤ turns.length, base.length < (w.takeAll (turns.take n)).cursor.returns.length) :
    (w.takeAll turns).Above d (f :: base) := by
  induction turns generalizing w with
  | nil => exact h
  | cons turn turns ih =>
    rcases h.take turn with stays | returns
    · apply ih stays
      intro n le
      exact deep (n + 1) (Nat.succ_le_succ le)
    · have short := Cursor.length_returns_ofFrames d f base
      have still := deep 1 (by simp)
      rw [← returns] at short
      exact absurd still (Nat.not_lt.mpr short)

end Walk

namespace Cursor

variable {d : Definition} {c : Cursor} {f : Frame} {name : String} {k : Nat} {r : Subroutine}

/-- A call stands in the subroutine it names, above its return point. -/
theorem follow_call (hf : c.frame = some f) (named : d.subroutineNamed? name = some (k, r)) (clock : Float)
    (resume : Nat) :
    c.follow d (some (.call name)) clock resume =
      (.called ⟨.subroutine k, 0, clock⟩ { f with index := f.index + resume },
        ofFrames d (⟨.subroutine k, 0, clock⟩ :: { f with index := f.index + resume } :: c.returns),
        d.rearmFrom (.subroutine k) 0) := by
  have lands : d.resolve c.scope (.call name) = some (.subroutine k) := by
    simp only [Definition.resolve, named, Option.map_some]
  simp [follow, lands, entry, enter, returnPoint, hf, Jump.isCall]

/-- A call of a subroutine with statements stands at the first of them, counting from now, with its return point
above what was pending. However the cursor goes on, these frames stay as they are while as many are left, and the
first turn that leaves fewer settles the return point over what was pending, which is where the caller goes on when
there is an activity. A call of an empty subroutine does so at once. -/
theorem call_returns (d : Definition) (c : Cursor) (f : Frame) (hf : c.frame = some f) (name : String) (k : Nat)
    (r : Subroutine) (named : d.subroutineNamed? name = some (k, r)) (clock : Float) (resume : Nat) :
    let back : Frame := { f with index := f.index + resume }
    let called : Walk := Walk.take ⟨c, d⟩ (.follow (some (.call name)) clock resume)
    (c.follow d (some (.call name)) clock resume).1 = .called ⟨.subroutine k, 0, clock⟩ back ∧
    (r.statements ≠ [] →
      called.cursor = ⟨some ⟨.subroutine k, 0, clock⟩, back :: c.returns⟩ ∧
      ∀ turns : List Turn,
        (∀ n ≤ turns.length, c.returns.length < (called.takeAll (turns.take n)).cursor.returns.length) →
        back :: c.returns <:+ (called.takeAll turns).cursor.returns ∧
        ∀ turn, ((called.takeAll turns).take turn).cursor.returns.length ≤ c.returns.length →
          ((called.takeAll turns).take turn).cursor = settle ⟨some back, c.returns⟩ d) ∧
    (r.statements = [] → called.cursor = settle ⟨some back, c.returns⟩ d) ∧
    ∀ a, back.activity? d = some a → settle ⟨some back, c.returns⟩ d = ⟨some back, c.returns⟩ := by
  intro back called
  have followed := follow_call hf named clock resume
  have cursor : called.cursor = ofFrames d (⟨.subroutine k, 0, clock⟩ :: back :: c.returns) :=
    congrArg (fun x => x.2.1) followed
  have at_k : d.subroutineAt? k = some r := Definition.subroutineAt?_of_named named
  refine ⟨congrArg Prod.fst followed, ?_, ?_, ?_⟩
  · intro filled
    obtain ⟨a, rest, first⟩ := List.exists_cons_of_ne_nil filled
    have stands : Frame.activity? d ⟨.subroutine k, 0, clock⟩ = some a :=
      Definition.statement?_subroutine.mpr ⟨r, at_k, by rw [first]; rfl⟩
    rw [ofFrames_cons_of_some (Frame.settle?_of_activity? stands)] at cursor
    have above : called.Above d (back :: c.returns) :=
      ⟨Walk.script_take _ _, ⟨_, by rw [cursor]⟩, by simp only [cursor, List.suffix_refl]⟩
    refine ⟨cursor, ?_⟩
    intro turns deep
    have waits := above.takeAll deep
    refine ⟨waits.waiting, ?_⟩
    intro turn short
    rcases waits.take turn with stays | returns
    · have still := stays.waiting.length_le
      simp only [List.length_cons] at still
      omega
    · exact returns
  · intro empty
    have spent : Frame.settle? d ⟨.subroutine k, 0, clock⟩ = none := by
      rw [Frame.settle?_eq_none_iff]
      intro i _
      simp [Definition.statement?, Definition.places, at_k, empty]
    rw [cursor, ofFrames_cons_of_none spent]
    rfl
  · intro a ha
    exact ofFrames_cons_of_some (Frame.settle?_of_activity? ha)

def phase : Definition :=
  { elements :=
      [.activity { id := 0, cue := { call := some "Adds" } },
        .subroutine { id := 1, name := some "Adds", statements := [{ id := 2, cue := {} }] },
        .activity { id := 3, cue := {} }] }

/-- The end of a call inside a call takes two frames off at once. -/
theorem call_returns_twice :
    let call (clock : Float) : Turn := .follow (some (.call "Adds")) clock 1
    let called : Walk := Walk.take ⟨{}, phase⟩ (call 10.0)
    called.cursor = ⟨some ⟨.subroutine 1, 0, 10.0⟩, [⟨.root, 1, 0.0⟩]⟩ ∧
      ((called.takeAll [call 12.0]).take .advance).cursor = settle ⟨some ⟨.root, 1, 0.0⟩, []⟩ phase := by
  intro call called
  have named : phase.subroutineNamed? "Adds" = some (1, ⟨1, some "Adds", [{ id := 2, cue := {} }]⟩) := by
    rfl
  obtain ⟨-, filled, -, -⟩ := call_returns phase {} .start rfl "Adds" 1 _ named 10.0 1
  obtain ⟨entered, later⟩ := filled (List.cons_ne_nil _ _)
  have deep : ∀ n ≤ [call 12.0].length, 0 < (called.takeAll ([call 12.0].take n)).cursor.returns.length := by
    decide +kernel
  have short : ((called.takeAll [call 12.0]).take .advance).cursor.returns.length ≤ 0 := by decide +kernel
  exact ⟨entered, (later [call 12.0] deep).2 .advance short⟩

end Cursor

end EncounterTimeline

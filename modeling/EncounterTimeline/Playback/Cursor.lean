import EncounterTimeline.Timeline.Resolve

/-! # Cursors

A cursor stands at a place of a scope, with the frames it returns to, the latest call first. Settling moves it to
the next activity: places that hold none are passed over, and a scope that has no more returns to its caller.
Following a jump enters a new frame and clears the latches of what lies ahead in it.
-/
namespace EncounterTimeline

/-- A place of a scope, and the clock position that times in this scope count from. -/
structure Frame where
  scope : Scope
  index : Nat
  base : Float
  deriving BEq, Repr

namespace Frame

def start : Frame := ⟨.root, 0, 0.0⟩

def activity? (d : Definition) (f : Frame) : Option Activity := d.statement? f.scope f.index

def settle? (d : Definition) (f : Frame) : Option Frame :=
  (((d.places f.scope).drop f.index).findIdx? Option.isSome).map fun n => { f with index := f.index + n }

end Frame

structure Cursor where
  frame : Option Frame := some .start
  returns : List Frame := []
  deriving BEq, Repr

inductive Transfer where
  | fellThrough
  | jumped (entered : Frame)
  | called (entered returnTo : Frame)
  | unresolved (jump : Jump)
  deriving BEq, Repr

namespace Cursor

def isFinished (c : Cursor) : Bool := c.frame.isNone

def ofFrames (d : Definition) : List Frame → Cursor
  | [] => ⟨none, []⟩
  | f :: below =>
    match f.settle? d with
    | some g => ⟨some g, below⟩
    | none => ofFrames d below

/-- Moves to the next activity, in a caller if need be. A finished cursor stays as it is. -/
def settle (c : Cursor) (d : Definition) : Cursor :=
  match c.frame with
  | none => c
  | some f => ofFrames d (f :: c.returns)

def reset (d : Definition) : Cursor := ofFrames d [.start]

def moveTo (c : Cursor) (index : Nat) : Cursor :=
  { c with frame := c.frame.map fun f => { f with index := index } }

def advance (c : Cursor) (d : Definition) : Cursor :=
  Cursor.settle { c with frame := c.frame.map fun f => { f with index := f.index + 1 } } d

/-- Moves on after a jump that leads nowhere: past the place it came from, or not at all. -/
def passBy (c : Cursor) (d : Definition) (resume : Nat) : Cursor :=
  if 0 < resume then c.advance d else c

def scope (c : Cursor) : Scope := (c.frame.map Frame.scope).getD .root

/-- The frame that a destination is entered with: a subroutine counts from now, and a statement so that it is due
now. -/
def entry (d : Definition) (clock : Float) : Destination → Frame
  | .subroutine index => ⟨.subroutine index, 0, clock⟩
  | .statement scope index =>
    ⟨scope, index, clock - ((d.statement? scope index).map fun a => a.cue.time.seconds).getD 0.0⟩

def returnPoint (c : Cursor) (resume : Nat) : Option Frame :=
  c.frame.map fun f => { f with index := f.index + resume }

def enter (c : Cursor) (d : Definition) (jump : Jump) (entered : Frame) (resume : Nat) : Cursor :=
  let below := if jump.isCall then (c.returnPoint resume).toList ++ c.returns else c.returns
  ofFrames d (entered :: below)

/-- Follows a jump out of the current place. `resume` is added to the place to give the return point of a call:
one when an executed statement calls, nothing when a trigger interrupts. Answers what it came to, the cursor and
the definition with the latches ahead cleared. -/
def follow (c : Cursor) (d : Definition) (jump : Option Jump) (clock : Float) (resume : Nat) :
    Transfer × Cursor × Definition :=
  match jump with
  | none => (.fellThrough, c.passBy d resume, d)
  | some j =>
    match d.resolve c.scope j with
    | none => (.unresolved j, c.passBy d resume, d)
    | some destination =>
      let entered := entry d clock destination
      let transfer :=
        if j.isCall then .called entered ((c.returnPoint resume).getD entered) else .jumped entered
      (transfer, c.enter d j entered resume, d.rearmFrom entered.scope entered.index)

end Cursor

end EncounterTimeline

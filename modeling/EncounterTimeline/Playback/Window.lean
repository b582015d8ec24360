import EncounterTimeline.Decimal.Binary64
import EncounterTimeline.Playback.Cursor

/-! # The near-term window

The window of a frame is the first activities at or after it that are not done. A line synchronises the one of
them that is due first among those that may still be synchronised and whose pattern matches.
-/
namespace EncounterTimeline

/-- The not-done activities at or after a frame, `visible` of them at most, with their places. -/
def Definition.window (d : Definition) (f : Frame) (visible : Nat) : List (Nat × Activity) :=
  (((d.places f.scope).zipIdx.drop f.index).filterMap fun (place, i) =>
    match place with
    | some a => if a.latches.done then none else some (i, a)
    | none => none).take visible

structure SyncMatch where
  index : Nat
  activity : Activity
  effectiveTime : Float

namespace SyncMatch

def precedes (m n : SyncMatch) : Bool :=
  let x := Decimal.orderKey m.effectiveTime
  let y := Decimal.orderKey n.effectiveTime
  x < y || (x == y && m.index < n.index)

def earliest : List SyncMatch → Option SyncMatch
  | [] => none
  | m :: rest =>
    match earliest rest with
    | none => some m
    | some n => if n.precedes m then some n else some m

end SyncMatch

def Definition.syncMatches (d : Definition) (f : Frame) (visible : Nat) (line : String) : List SyncMatch :=
  (d.window f visible).filterMap fun (i, a) =>
    if a.canSync && a.cue.sync.any fun p => p.isMatch line then
      some ⟨i, a, a.cue.effectiveTime f.base⟩
    else none

def Definition.findSync (d : Definition) (f : Frame) (visible : Nat) (line : String) : Option SyncMatch :=
  SyncMatch.earliest (d.syncMatches f visible line)

end EncounterTimeline

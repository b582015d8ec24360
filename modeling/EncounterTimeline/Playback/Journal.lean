import EncounterTimeline.Timeline.Resolve

/-! # Journals

What a run does, entry by entry. Notices are what the outside hears of it; the other entries tell why.
-/
namespace EncounterTimeline

inductive NoticeSource where
  | activity | trigger
  deriving DecidableEq, Repr

structure Notice where
  element : ElementId
  timeline : String
  source : NoticeSource
  text : String
  device : Device
  clock : Float
  deriving BEq, Repr

inductive Happening where
  | notice (n : Notice)
  | elapsed (d : Duration)
  | synced (id : ElementId)
  | fired (id : ElementId)
  | executed (id : ElementId)
  /-- A jump landed and cleared the latches of these activities. -/
  | rearmed (ids : List ElementId)
  | unresolved (target : UnresolvedTarget)
  deriving BEq, Repr

abbrev Journal := List Happening

namespace Journal

def record (j : Journal) (entries : List Happening) : Journal := entries.reverse ++ j

def notices (j : Journal) : List Notice :=
  j.reverse.filterMap fun
    | .notice n => some n
    | _ => none

end Journal

end EncounterTimeline

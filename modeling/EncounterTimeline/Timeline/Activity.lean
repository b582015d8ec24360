import EncounterTimeline.Decimal.Binary64
import EncounterTimeline.Pattern.SyncPattern
import EncounterTimeline.Timeline.Duration
import EncounterTimeline.Timeline.Locale
import EncounterTimeline.Timeline.TimeText

/-! # Activities

A scheduled step of an encounter. Its cue is what is written about it; the rest is the state of one run: a
number in playing order, the remaining time, the progress, and four latches.
-/
namespace EncounterTimeline

abbrev ElementId := Nat

inductive Jump where
  | call (name : String)
  | goto (name : String)
  deriving DecidableEq, Repr

namespace Jump

def name : Jump → String
  | call n | goto n => n

def isCall : Jump → Bool
  | call _ => true
  | goto _ => false

/-- A call wins over a goto; an empty target is none. -/
def ofTargets (callee landing : Option String) : Option Jump :=
  match callee.filter (!·.isEmpty) with
  | some n => some (.call n)
  | none => (landing.filter (!·.isEmpty)).map .goto

end Jump

structure Cue where
  name : Option String := none
  time : Duration := .zero
  text : Option String := none
  sync : Option SyncPattern := none
  syncStart : Option Float := none
  syncEnd : Option Float := none
  goto : Option String := none
  call : Option String := none
  notice : Option String := none
  noticeDevice : Option Device := none
  noticeOffset : Option Float := none
  style : Option String := none
  deriving BEq

namespace Cue

def displayName (c : Cue) : Option String := c.name.or c.text

def jump (c : Cue) : Option Jump := Jump.ofTargets c.call c.goto

def line (c : Cue) : String := TimeText.format c.time ++ " " ++ c.text.getD ""

/-- The clock position at which the cue is due, from the base of its list. -/
def effectiveTime (c : Cue) (base : Float) : Float := base + c.time.seconds

def before (c : Cue) (clock base : Float) : Float := c.effectiveTime base - clock

def noticeThreshold (c : Cue) : Float := c.noticeOffset.getD 0.0

end Cue

/-- What a run has done with an activity since it was last prepared. -/
structure Latches where
  active : Bool := false
  done : Bool := false
  notified : Bool := false
  synced : Bool := false
  deriving DecidableEq, Repr

structure Activity where
  id : ElementId
  cue : Cue
  seq : Nat := 0
  remaining : Float := 0.0
  progress : Float := 0.0
  latches : Latches := {}
  deriving BEq

def remainingFor (before : Float) : Float := if before > 0.0 then before else 0.0

/-- How far a progress bar has filled: from nothing at the edge of the window to one when due, in
thousandths. Without a window it jumps from nothing to one. -/
def progressFor (before window : Float) : Float :=
  if window ≤ 0.0 then (if before ≤ 0.0 then 1.0 else 0.0)
  else if before > window then 0.0
  else
    let share := (window - before) / window
    let share := if share < 0.0 then 0.0 else if share > 1.0 then 1.0 else share
    Decimal.nearestWhole (share * 1000.0) / 1000.0

namespace Activity

def rearm (a : Activity) : Activity := { a with latches := {} }

def prepare (n : Nat) (a : Activity) : Activity := { a.rearm with seq := n }

def refresh (a : Activity) (clock base window : Float) : Activity :=
  let before := a.cue.before clock base
  { a with remaining := remainingFor before, progress := progressFor before window }

def grace (a : Activity) : Float :=
  if !a.latches.synced then 0.0
  else match a.cue.syncEnd with
    | some offset => if offset > 0.0 then offset else 0.0
    | none => 0.0

def canSync (a : Activity) : Bool :=
  !a.latches.synced && !a.latches.done && a.cue.sync.any SyncPattern.isUsable

def remainingText (a : Activity) : String := Decimal.ceilingText a.remaining

end Activity

end EncounterTimeline

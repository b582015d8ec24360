import EncounterTimeline.Decimal.Binary64
import EncounterTimeline.Playback.Session

/-! # Settings

What the host may adjust. Counts are 64-bit counters; the limits that a session keeps to are derived from them and
are never less than one where nothing would happen otherwise.
-/
namespace EncounterTimeline

structure Settings where
  progressBarTime : Float := 15.0
  designMode : Bool := false
  visibleActivities : Nat := 8
  tickIntervalMillis : Nat := 50
  maxTickStepMillis : Nat := 1000
  workerStopTimeoutMillis : Nat := 2000
  maxStepsPerTick : Nat := 256
  deriving BEq, Repr

namespace Settings

/-- In design mode the bar always takes fifteen seconds; otherwise what is set, if it is positive. -/
def lookAhead (s : Settings) : Float :=
  if s.designMode then 15.0 else if s.progressBarTime > 0.0 then s.progressBarTime else 0.0

def tickInterval (s : Settings) : Duration := Duration.ofMillis (max s.tickIntervalMillis 1)

def maxTickStep (s : Settings) : Duration := Duration.ofMillis s.maxTickStepMillis

def workerStopTimeout (s : Settings) : Duration := Duration.ofMillis s.workerStopTimeoutMillis

def pace (s : Settings) : Pace where
  lookAhead := s.lookAhead
  visible := max s.visibleActivities 1
  maxSteps := max s.maxStepsPerTick 1
  maxTickStep := s.maxTickStep
  visible_pos := Nat.lt_of_lt_of_le Nat.one_pos (Nat.le_max_right _ _)
  maxSteps_pos := Nat.lt_of_lt_of_le Nat.one_pos (Nat.le_max_right _ _)

end Settings

end EncounterTimeline

import EncounterTimeline.Director.Handle

/-! # Lifecycle tasks

A request leaves a task behind: a list of actions that are taken in order while the task holds the lifecycle lock.
Tasks wait for the lock and run one at a time.
-/
namespace EncounterTimeline

inductive Action where
  | takeLive
  | takeOwn (key : HandleKey)
  | detach
  | lowerLeaving
  /-- What leaves becomes idle, unless a request claimed its state meanwhile. -/
  | restLeaving
  | lowerFlag (key : HandleKey)
  | refresh (key : HandleKey) (path : String)
  /-- A run begins: the definition is prepared and flagged, the clock is at zero. -/
  | begin (key : HandleKey)
  | connect
  | setState (key : HandleKey) (state : Lifecycle)
  deriving DecidableEq, Repr

namespace Action

def stopping : List Action := [detach, lowerLeaving, restLeaving]

def starting (key : HandleKey) : List Action := [begin key, connect, setState key .active]

def activate (key : HandleKey) : List Action := takeLive :: stopping ++ starting key

def deactivate (key : HandleKey) : List Action :=
  takeOwn key :: stopping ++ [lowerFlag key, setState key .idle]

/-- A reload restarts a handle that was active when it was asked for, and leaves another idle. -/
def reload (key : HandleKey) (path : String) (wasActive : Bool) : List Action :=
  if wasActive then
    takeOwn key :: stopping ++ refresh key path :: takeLive :: stopping ++ starting key
  else [refresh key path, setState key .idle]

def shutdown : List Action := takeLive :: stopping

end Action

abbrev TaskId := Nat

structure Task where
  id : TaskId
  actions : List Action
  fault : Option Fault := none
  deriving DecidableEq, Repr

end EncounterTimeline

import EncounterTimeline.Fault
import EncounterTimeline.Timeline.Definition

/-! # Handles

A registered definition and the state of its life: idle, on its way in, active, or on its way out. A request claims
a state at once, so that a definition has one change under way at most; a definition is edited only while it is
idle, by one editor at a time.
-/
namespace EncounterTimeline

abbrev HandleKey := Nat

inductive Lifecycle where
  | idle | loading | active | unloading
  deriving DecidableEq, Repr, Inhabited

def Lifecycle.isTransitioning (s : Lifecycle) : Bool := s == .loading || s == .unloading

structure Handle where
  definition : Definition
  state : Lifecycle := .idle
  guarded : Bool := false

namespace Handle

def ofDefinition (d : Definition) : Handle := { definition := { d with isActive := false } }

def name (h : Handle) : String := h.definition.name

def setState (h : Handle) (s : Lifecycle) : Handle := { h with state := s }

def setFlag (h : Handle) (active : Bool) : Handle :=
  { h with definition := { h.definition with isActive := active } }

def settleFrom (h : Handle) (origin target : Lifecycle) : Handle :=
  if h.state = origin then h.setState target else h

def conflict (h : Handle) : Fault := .lifecycleConflict h.name

/-- The state that a request to activate or to deactivate claims; nothing if there is nothing to do. -/
def claim (h : Handle) (activate : Bool) : Except Fault (Option Lifecycle) :=
  match h.state, activate with
  | .loading, _ | .unloading, _ => .error h.conflict
  | .active, true | .idle, false => .ok none
  | .idle, true => .ok (some .loading)
  | .active, false => .ok (some .unloading)

def claimReload (h : Handle) : Except Fault Lifecycle :=
  match h.state with
  | .active => .ok .unloading
  | .idle => .ok .loading
  | .loading | .unloading => .error h.conflict

def guard (h : Handle) : Except Fault Handle :=
  if h.state = .idle then .ok { h with guarded := true } else .error (.editWhileLoaded h.name)

def release (h : Handle) : Handle := { h with guarded := false }

def replace (h : Handle) (loaded : Definition) : Handle :=
  { h with definition := { loaded with isActive := h.definition.isActive } }

end Handle

end EncounterTimeline

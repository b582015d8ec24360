import EncounterTimeline.Timeline.Definition

/-! # Jump targets

A call names a subroutine. A goto names a statement of the subroutine it stands in, else the first activity or
subroutine of the root. What resolves nowhere falls through when it is followed.
-/
namespace EncounterTimeline

inductive Destination where
  | statement (scope : Scope) (index : Nat)
  | subroutine (index : Nat)
  deriving DecidableEq, Repr

structure UnresolvedTarget where
  element : ElementId
  jump : Jump
  deriving DecidableEq, Repr

namespace Definition

def subroutineNamed? (d : Definition) (name : String) : Option (Nat × Subroutine) :=
  (d.elements.findIdx? fun e => e.asSubroutine.any fun s => s.name == some name).bind fun i =>
    (d.subroutineAt? i).map (i, ·)

def isLanding (name : String) : Element → Bool
  | .activity a => a.cue.displayName == some name
  | .subroutine s => s.name == some name
  | _ => false

def rootLanding? (d : Definition) (name : String) : Option Destination :=
  (d.elements.findIdx? (isLanding name)).bind fun i =>
    match d.elements[i]? with
    | some (.subroutine _) => some (.subroutine i)
    | some _ => some (.statement .root i)
    | none => none

/-- The landing of a goto inside the subroutine it stands in. -/
def localLanding? (d : Definition) (name : String) : Scope → Option Destination
  | .root => none
  | .subroutine owner =>
    ((d.subroutineAt? owner).bind (·.indexOf? name)).map (.statement (.subroutine owner) ·)

def resolve (d : Definition) (origin : Scope) : Jump → Option Destination
  | .call name => (d.subroutineNamed? name).map fun (i, _) => .subroutine i
  | .goto name => (d.localLanding? name origin).or (d.rootLanding? name)

/-- The jump of an element, if it lands nowhere from the scope it is written in. -/
def unresolvedOf (d : Definition) (id : ElementId) (jump : Option Jump) (s : Scope) :
    List UnresolvedTarget :=
  match jump with
  | none => []
  | some j => if (d.resolve s j).isNone then [⟨id, j⟩] else []

def unresolvedTargets (d : Definition) : List UnresolvedTarget :=
  (d.elements.mapIdx fun i e =>
    match e with
    | .activity a => unresolvedOf d a.id a.cue.jump .root
    | .trigger t => unresolvedOf d t.id t.rule.jump .root
    | .subroutine s => s.statements.flatMap fun a => unresolvedOf d a.id a.cue.jump (.subroutine i)
    | .preset _ _ => []).flatten

end Definition

end EncounterTimeline

import EncounterTimeline.Timeline.Activity

/-! # Elements

The kinds of entries of a definition, each with an identity of its own: carried defaults, activities,
triggers and subroutines. A draft is an entry as it is written, without identity and state.
-/
namespace EncounterTimeline

/-- A default value for an attribute of other elements, carried as it is. -/
structure Preset where
  name : Option String := none
  targetElement : Option String := none
  targetAttribute : Option String := none
  value : Option String := none
  deriving DecidableEq, Repr

structure Rule where
  name : Option String := none
  text : Option String := none
  sync : Option SyncPattern := none
  notice : Option String := none
  noticeDevice : Option Device := none
  goto : Option String := none
  call : Option String := none
  deriving BEq

namespace Rule

def displayName (r : Rule) : Option String := r.name.or r.text

def jump (r : Rule) : Option Jump := Jump.ofTargets r.call r.goto

def isMatch (r : Rule) (line : String) : Bool := r.sync.any fun p => p.isMatch line

end Rule

structure Trigger where
  id : ElementId
  rule : Rule
  fired : Nat := 0
  deriving BEq

structure Subroutine where
  id : ElementId
  name : Option String
  statements : List Activity := []
  deriving BEq

namespace Subroutine

def push (s : Subroutine) (a : Activity) : Subroutine := { s with statements := s.statements ++ [a] }

def indexOf? (s : Subroutine) (name : String) : Option Nat :=
  s.statements.findIdx? fun a => a.cue.displayName == some name

end Subroutine

inductive Element where
  | preset (id : ElementId) (p : Preset)
  | activity (a : Activity)
  | trigger (t : Trigger)
  | subroutine (s : Subroutine)
  deriving BEq

inductive Draft where
  | preset (p : Preset)
  | activity (c : Cue)
  | trigger (r : Rule)
  | subroutine (name : Option String) (cues : List Cue)
  deriving BEq

namespace Element

def id : Element → ElementId
  | preset i _ => i
  | activity a => a.id
  | trigger t => t.id
  | subroutine s => s.id

def displayName : Element → Option String
  | preset _ p => p.name
  | activity a => a.cue.displayName
  | trigger t => t.rule.displayName
  | subroutine s => s.name

def asActivity : Element → Option Activity
  | activity a => some a
  | _ => none

def asTrigger : Element → Option Trigger
  | trigger t => some t
  | _ => none

def asSubroutine : Element → Option Subroutine
  | subroutine s => some s
  | _ => none

def statements : Element → List Activity
  | subroutine s => s.statements
  | _ => []

def activities : Element → List Activity
  | activity a => [a]
  | subroutine s => s.statements
  | _ => []

def ids (e : Element) : List ElementId := e.id :: e.statements.map Activity.id

def mapActivities (f : Activity → Activity) : Element → Element
  | activity a => activity (f a)
  | subroutine s => subroutine { s with statements := s.statements.map f }
  | e => e

def draft : Element → Draft
  | preset _ p => .preset p
  | activity a => .activity a.cue
  | trigger t => .trigger t.rule
  | subroutine s => .subroutine s.name (s.statements.map Activity.cue)

def numberActivities (first : ElementId) : List Activity → List Activity
  | [] => []
  | a :: rest => { a with id := first } :: numberActivities (first + 1) rest

/-- Gives an element and its statements the identities from `first` on. -/
def withIds (first : ElementId) : Element → Element
  | preset _ p => preset first p
  | activity a => activity { a with id := first }
  | trigger t => trigger { t with id := first }
  | subroutine s =>
    subroutine { s with id := first, statements := numberActivities (first + 1) s.statements }

end Element

namespace Draft

def activities (first : ElementId) : List Cue → List Activity
  | [] => []
  | c :: rest => { id := first, cue := c } :: activities (first + 1) rest

def element (first : ElementId) : Draft → Element
  | preset p => .preset first p
  | activity c => .activity { id := first, cue := c }
  | trigger r => .trigger { id := first, rule := r }
  | subroutine name cues =>
    .subroutine { id := first, name := name, statements := activities (first + 1) cues }

def size : Draft → Nat
  | subroutine _ cues => cues.length + 1
  | _ => 1

end Draft

end EncounterTimeline

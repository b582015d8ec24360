import EncounterTimeline.Timeline.Element

/-! # Definitions

A definition owns an ordered list of elements, and subroutines own their statements. A table beside the list
says who owns an identity. The list of the root and that of a subroutine are scopes that a cursor can walk: each
place of a scope holds an activity or something to be skipped.
-/
namespace EncounterTimeline

inductive Owner where
  | root
  | subroutine (id : ElementId)
  deriving DecidableEq, Repr

structure Ownership where
  ownerOf : ElementId → Option Owner

namespace Ownership

def empty : Ownership := ⟨fun _ => none⟩

def put (o : Ownership) (id : ElementId) (owner : Owner) : Ownership :=
  ⟨fun i => if i = id then some owner else o.ownerOf i⟩

def erase (o : Ownership) (id : ElementId) : Ownership :=
  ⟨fun i => if i = id then none else o.ownerOf i⟩

def knows (o : Ownership) (id : ElementId) : Bool := (o.ownerOf id).isSome

def enter (o : Ownership) (e : Element) : Ownership :=
  e.statements.foldl (fun o a => o.put a.id (.subroutine e.id)) (o.put e.id .root)

def strike (o : Ownership) (e : Element) : Ownership :=
  e.statements.foldl (fun o a => o.erase a.id) (o.erase e.id)

end Ownership

/-- A list of places that a cursor can walk: the root, or the subroutine at a place of the root. -/
inductive Scope where
  | root
  | subroutine (index : Nat)
  deriving DecidableEq, Repr

structure Definition where
  name : String := ""
  zone : String := ""
  locale : Locale := .ja
  /-- The file it was read from or last saved to. -/
  file : Option String := none
  isActive : Bool := false
  elements : List Element := []
  ownership : Ownership := .empty

namespace Definition

def activities (d : Definition) : List Activity := d.elements.flatMap Element.activities

def triggers (d : Definition) : List Trigger := d.elements.filterMap Element.asTrigger

def ids (d : Definition) : List ElementId := d.elements.flatMap Element.ids

def findActivity? (d : Definition) (id : ElementId) : Option Activity :=
  d.activities.find? fun a => a.id == id

/-- The element of an identity; a statement is given as an activity. -/
def findElement? (d : Definition) (id : ElementId) : Option Element :=
  (d.elements.find? fun e => e.id == id).or ((d.findActivity? id).map .activity)

def mapActivities (d : Definition) (f : Activity → Activity) : Definition :=
  { d with elements := d.elements.map (Element.mapActivities f) }

def refresh (d : Definition) (clock base window : Float) : Definition :=
  d.mapActivities fun a => a.refresh clock base window

def ownerOf (d : Definition) (id : ElementId) : Option Owner := d.ownership.ownerOf id

def subroutineAt? (d : Definition) (index : Nat) : Option Subroutine :=
  d.elements[index]?.bind Element.asSubroutine

def places (d : Definition) : Scope → List (Option Activity)
  | .root => d.elements.map Element.asActivity
  | .subroutine index => ((d.subroutineAt? index).map Subroutine.statements |>.getD []).map some

def scopeLength (d : Definition) (s : Scope) : Nat := (d.places s).length

def statement? (d : Definition) (s : Scope) (index : Nat) : Option Activity := (d.places s)[index]?.join

def mapScope (d : Definition) (s : Scope) (f : Nat → Activity → Activity) : Definition :=
  match s with
  | .root => { d with
      elements := d.elements.mapIdx fun i e =>
        match e with
        | .activity a => .activity (f i a)
        | e => e }
  | .subroutine index => { d with
      elements := d.elements.modify index fun e =>
        match e with
        | .subroutine r => .subroutine { r with statements := r.statements.mapIdx f }
        | e => e }

def modifyStatement (d : Definition) (s : Scope) (index : Nat) (f : Activity → Activity) : Definition :=
  d.mapScope s fun i a => if i = index then f a else a

def rearmFrom (d : Definition) (s : Scope) (start : Nat) : Definition :=
  d.mapScope s fun i a => if start ≤ i then a.rearm else a

def prepareActivities (n : Nat) : List Activity → List Activity
  | [] => []
  | a :: rest => a.prepare n :: prepareActivities (n + 1) rest

/-- Prepares elements for a run: activities are numbered from `n`, triggers count from zero. -/
def prepareElements (n : Nat) : List Element → List Element
  | [] => []
  | .activity a :: rest => .activity (a.prepare n) :: prepareElements (n + 1) rest
  | .subroutine s :: rest =>
    .subroutine { s with statements := prepareActivities n s.statements } ::
      prepareElements (n + s.statements.length) rest
  | .trigger t :: rest => .trigger { t with fired := 0 } :: prepareElements n rest
  | e :: rest => e :: prepareElements n rest

def prepare (d : Definition) : Definition := { d with elements := prepareElements 1 d.elements }

end Definition

end EncounterTimeline

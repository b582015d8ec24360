import EncounterTimeline.Timeline.Definition

/-! # Editing

A workbench holds a definition and the next identity that nobody has yet. Every element that enters the
definition keeps its identities unless one of them is already there; then all of them are renewed.
-/
namespace EncounterTimeline

structure Workbench where
  definition : Definition
  nextId : ElementId := 0

namespace Workbench

def build (w : Workbench) (draft : Draft) : Element × Workbench :=
  (draft.element w.nextId, { w with nextId := w.nextId + draft.size })

def duplicate (w : Workbench) (e : Element) : Element × Workbench :=
  (e.withIds w.nextId, { w with nextId := w.nextId + e.ids.length })

def shares (w : Workbench) (e : Element) : Bool := e.ids.any w.definition.ownership.knows

def admitted (w : Workbench) (e : Element) : Element × Workbench :=
  if w.shares e then w.duplicate e else (e, w)

/-- Inserts an element at a place of the root, at the end if the place lies beyond; answers the identity that
was stored. -/
def insert (w : Workbench) (index : Nat) (e : Element) : ElementId × Workbench :=
  let (e, w) := w.admitted e
  let d := w.definition
  (e.id, { w with definition := { d with
    elements := d.elements.insertIdx (min index d.elements.length) e
    ownership := d.ownership.enter e } })

def add (w : Workbench) (e : Element) : ElementId × Workbench :=
  w.insert w.definition.elements.length e

def subroutineIndex? (w : Workbench) (id : ElementId) : Option Nat :=
  w.definition.elements.findIdx? fun e => e.asSubroutine.any fun s => s.id == id

def setSubroutine (w : Workbench) (index : Nat) (s : Subroutine) : Workbench :=
  let d := w.definition
  { w with definition := { d with elements := d.elements.set index (.subroutine s) } }

def setOwnership (w : Workbench) (o : Ownership) : Workbench :=
  { w with definition := { w.definition with ownership := o } }

/-- Adds an activity to the end of a subroutine; anything else is refused. -/
def addStatement (w : Workbench) (owner : ElementId) (e : Element) : Option ElementId × Workbench :=
  let (e, w) := w.admitted e
  match w.subroutineIndex? owner, e with
  | some i, .activity a =>
    match w.definition.subroutineAt? i with
    | some s =>
      (some a.id, (w.setSubroutine i (s.push a)).setOwnership
        (w.definition.ownership.put a.id (.subroutine owner)))
    | none => (none, w)
  | _, _ => (none, w)

/-- The subroutine that owns a statement, its place, and the place of the statement in it. -/
def statementPlace? (w : Workbench) (owner id : ElementId) : Option (Nat × Subroutine × Nat) := do
  let i ← w.subroutineIndex? owner
  let s ← w.definition.subroutineAt? i
  let j ← s.statements.findIdx? fun a => a.id == id
  pure (i, s, j)

def remove (w : Workbench) (id : ElementId) : Option Element × Workbench :=
  let d := w.definition
  match d.ownerOf id with
  | none => (none, w)
  | some .root =>
    match d.elements.findIdx? fun e => e.id == id with
    | none => (none, w)
    | some i =>
      match d.elements[i]? with
      | none => (none, w)
      | some e =>
        (some e, { w with definition := { d with
          elements := d.elements.eraseIdx i, ownership := d.ownership.strike e } })
  | some (.subroutine owner) =>
    match w.statementPlace? owner id with
    | none => (none, w)
    | some (i, s, j) =>
      match s.statements[j]? with
      | none => (none, w)
      | some a =>
        (some (.activity a), (w.setSubroutine i { s with statements := s.statements.eraseIdx j }).setOwnership
          (d.ownership.erase id))

def duplicateElement (w : Workbench) (id : ElementId) : Option ElementId × Workbench :=
  let d := w.definition
  match d.ownerOf id with
  | none => (none, w)
  | some .root =>
    match d.elements.findIdx? fun e => e.id == id with
    | none => (none, w)
    | some i =>
      match d.elements[i]? with
      | none => (none, w)
      | some e =>
        let (copy, w) := w.duplicate e
        let (id, w) := w.insert (i + 1) copy
        (some id, w)
  | some (.subroutine owner) =>
    match w.statementPlace? owner id with
    | none => (none, w)
    | some (i, s, j) =>
      match s.statements[j]? with
      | none => (none, w)
      | some a =>
        let copy := { a with id := w.nextId }
        let w := { w with nextId := w.nextId + 1 }
        (some copy.id,
          (w.setSubroutine i { s with statements := s.statements.insertIdx (j + 1) copy }).setOwnership
            (d.ownership.put copy.id (.subroutine owner)))

def addDrafts (w : Workbench) (drafts : List Draft) : Workbench :=
  drafts.foldl (fun w draft =>
    let (e, w) := w.build draft
    (w.add e).2) w

end Workbench

end EncounterTimeline

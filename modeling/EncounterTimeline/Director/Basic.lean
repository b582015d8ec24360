import EncounterTimeline.Director.Task
import EncounterTimeline.Document.File
import EncounterTimeline.Feed.Bus
import EncounterTimeline.Settings.Basic

/-! # Directors

A director keeps registered definitions and at most one live run. Requests claim the state of a handle at once and
leave tasks behind, which wait for the lifecycle lock. While it is live, a run hears the lines of its subscription
and ticks with the host clock.
-/
namespace EncounterTimeline

/-- The run of a handle: where it stands, and its subscription once it is connected. -/
structure Run where
  key : HandleKey
  cursor : Cursor
  lastHost : Duration
  subscription : Option Nat := none
  deriving BEq, Repr

structure Director where
  settings : Settings := {}
  host : HostClock := ⟨0⟩
  clock : Float := 0.0
  storage : Storage := {}
  bus : Bus := {}
  nextId : ElementId := 0
  registry : List Handle := []
  live : Option Run := none
  leaving : Option Run := none
  waiting : List Task := []
  current : Option Task := none
  taskCount : Nat := 0
  finished : List (TaskId × Option Fault) := []
  outbox : List Notice := []

namespace Director

def handle? (d : Director) (key : HandleKey) : Option Handle := d.registry[key]?

def modifyHandle (d : Director) (key : HandleKey) (f : Handle → Handle) : Director :=
  { d with registry := d.registry.modify key f }

def require (d : Director) (key : HandleKey) : Except Fault Handle :=
  match d.handle? key with
  | some h => .ok h
  | none => .error .unknownTimeline

def activeKey? (d : Director) : Option HandleKey := d.registry.findIdx? fun h => h.state == .active

def session? (d : Director) (r : Run) : Option Session :=
  (d.handle? r.key).map fun h =>
    { definition := h.definition, clock := d.clock, cursor := r.cursor, lastHost := r.lastHost }

def keep (d : Director) (r : Run) (s : Session) : Director :=
  { d.modifyHandle r.key fun h => { h with definition := s.definition } with
    clock := s.clock
    live := some { r with cursor := s.cursor, lastHost := s.lastHost }
    outbox := d.outbox ++ s.journal.notices }

def playLive (d : Director) (f : Session → Session) : Director :=
  match d.live with
  | none => d
  | some r =>
    match d.session? r with
    | none => d
    | some s => d.keep r (f s)

def hearLine (d : Director) (line : String) : Director :=
  d.playLive fun s => (s.hear d.settings.pace line d.host.elapsed).2

def tickLive (d : Director) : Director := d.playLive fun s => s.tick d.settings.pace d.host.elapsed

def takeLines (d : Director) : List String × Director :=
  match d.live.bind Run.subscription with
  | none => ([], d)
  | some n =>
    let (lines, bus) := d.bus.drain n
    (lines, { d with bus := bus })

/-- The live run hears all lines that wait for it, then ticks. -/
def work (d : Director) : Director :=
  let (lines, d) := d.takeLines
  (lines.foldl hearLine d).tickLive

def beginRun (d : Director) (key : HandleKey) : Director :=
  match d.handle? key with
  | none => d
  | some h =>
    let s := Session.start { definition := h.definition } d.settings.pace d.host.elapsed
    let d := d.modifyHandle key fun h => { h with definition := { s.definition with isActive := true } }
    { d with clock := s.clock, live := some { key := key, cursor := s.cursor, lastHost := s.lastHost } }

def connect (d : Director) : Director :=
  match d.live with
  | none => d
  | some r =>
    let (n, bus) := d.bus.subscribe
    { d with bus := bus, live := some { r with subscription := some n } }

/-- The live run leaves if it is one of those meant. -/
def takeRun (d : Director) (meant : Run → Bool) : Director :=
  match d.live with
  | none => d
  | some r => if meant r then { d with live := none, leaving := some r } else d

def detach (d : Director) : Director :=
  match d.leaving.bind Run.subscription with
  | none => d
  | some n => { d with bus := (d.bus.unsubscribe n).leave n }

def lowerLeaving (d : Director) : Director :=
  match d.leaving with
  | none => d
  | some r => d.modifyHandle r.key fun h => h.setFlag false

def restLeaving (d : Director) : Director :=
  match d.leaving with
  | none => d
  | some r => { d.modifyHandle r.key fun h => h.settleFrom .active .idle with leaving := none }

/-- Replaces a definition by what its file holds. A missing or empty file changes nothing. -/
def refresh (d : Director) (key : HandleKey) (path : String) : Option Fault × Director :=
  match Document.load d.storage path with
  | .error f => (some f, d)
  | .ok none => (none, d)
  | .ok (some document) =>
    let w := document.workbench d.nextId
    (none, { d.modifyHandle key fun h => h.replace { w.definition with file := some path } with
      nextId := w.nextId })

def perform (d : Director) : Action → Option Fault × Director
  | .takeLive => (none, d.takeRun fun _ => true)
  | .takeOwn key => (none, d.takeRun fun r => r.key == key)
  | .detach => (none, d.detach)
  | .lowerLeaving => (none, d.lowerLeaving)
  | .restLeaving => (none, d.restLeaving)
  | .lowerFlag key => (none, d.modifyHandle key fun h => h.setFlag false)
  | .refresh key path => d.refresh key path
  | .begin key => (none, d.beginRun key)
  | .connect => (none, d.connect)
  | .setState key state => (none, d.modifyHandle key fun h => h.setState state)

def writtenBy (d : Director) : Action → Option HandleKey
  | .lowerLeaving => d.leaving.map Run.key
  | .lowerFlag key | .refresh key _ | .begin key => some key
  | _ => none

/-- Whether an action has to wait until an editor gives a definition back. -/
def blocked (d : Director) (a : Action) : Bool := ((d.writtenBy a).bind d.handle?).any Handle.guarded

def takeUp (d : Director) (n : Nat) : Option Director :=
  match d.current, d.waiting[n]? with
  | none, some t => some { d with current := some t, waiting := d.waiting.eraseIdx n }
  | _, _ => none

/-- The task that holds the lock takes its next action, or gives the lock back. -/
def proceed (d : Director) : Option Director :=
  match d.current with
  | none => none
  | some t =>
    match t.actions with
    | [] => some { d with current := none, finished := d.finished ++ [(t.id, t.fault)] }
    | a :: rest =>
      if d.blocked a then none
      else
        let (fault, d) := d.perform a
        some { d with current := some { t with actions := rest, fault := t.fault.or fault } }

def advance (d : Director) : Option Director := d.proceed.or (d.takeUp 0)

def workload (d : Director) : Nat :=
  (d.current.toList ++ d.waiting).foldl (fun n t => n + (t.actions.length + 2)) 0

def advanceBy : Nat → Director → Director
  | 0, d => d
  | n + 1, d =>
    match d.advance with
    | none => d
    | some d => advanceBy n d

def runTasks (d : Director) : Director := advanceBy d.workload d

/-- Lets the live run work, runs all tasks to their end, and lets the run that is live then work. -/
def settle (d : Director) : Director := d.work.runTasks.work

def outcomeOf (d : Director) (id : TaskId) : Option (Option Fault) := d.finished.lookup id

def launch (d : Director) (actions : List Action) : TaskId × Director :=
  (d.taskCount, { d with
    waiting := d.waiting ++ [{ id := d.taskCount, actions := actions }], taskCount := d.taskCount + 1 })

def register (d : Director) (definition : Definition) : HandleKey × Director :=
  (d.registry.length, { d with registry := d.registry ++ [Handle.ofDefinition definition] })

def registerDocument (d : Director) (document : Document) (file : Option String) : HandleKey × Director :=
  let w := document.workbench d.nextId
  { d with nextId := w.nextId }.register { w.definition with file := file }

def loadFile (d : Director) (path : String) : Except Fault (Option HandleKey × Director) :=
  match Document.load d.storage path with
  | .error f => .error f
  | .ok none => .ok (none, d)
  | .ok (some document) =>
    let (key, d) := d.registerDocument document (some path)
    .ok (some key, d)

def setActive (d : Director) (key : HandleKey) (active : Bool) : Except Fault (TaskId × Director) := do
  let h ← d.require key
  match ← h.claim active with
  | none => return d.launch []
  | some claimed =>
    let d := d.modifyHandle key fun h => h.setState claimed
    return d.launch (if active then Action.activate key else Action.deactivate key)

def reload (d : Director) (key : HandleKey) : Except Fault (TaskId × Director) := do
  let h ← d.require key
  match h.definition.file with
  | none => .error (.noSourceFile h.name)
  | some path =>
    let claimed ← h.claimReload
    let d := d.modifyHandle key fun h => h.setState claimed
    return d.launch (Action.reload key path (h.state == .active))

def shutdown (d : Director) : TaskId × Director := d.launch Action.shutdown

def saveTo (d : Director) (definition : Definition) (path : String) : Except Fault Unit × Director :=
  let (result, storage) := definition.document.save d.storage path
  (result, { d with storage := storage })

def save (d : Director) (key : HandleKey) : Except Fault Unit × Director :=
  match d.require key with
  | .error f => (.error f, d)
  | .ok h =>
    match h.definition.file with
    | none => (.error (.noSourceFile h.name), d)
    | some path => d.saveTo h.definition path

def saveAs (d : Director) (key : HandleKey) (path : String) : Except Fault Unit × Director :=
  match d.require key with
  | .error f => (.error f, d)
  | .ok h =>
    match d.saveTo h.definition path with
    | (.error f, d) => (.error f, d)
    | (.ok _, d) =>
      (.ok (), d.modifyHandle key fun h => { h with definition := { h.definition with file := some path } })

def beginEdit (d : Director) (key : HandleKey) : Except Fault Director := do
  let h ← d.require key
  let held ← h.guard
  return d.modifyHandle key fun _ => held

def amend (d : Director) (key : HandleKey) (f : Workbench → Workbench) : Director :=
  match d.handle? key with
  | none => d
  | some h =>
    let w := f { definition := h.definition, nextId := d.nextId }
    { d.modifyHandle key fun h => { h with definition := w.definition } with nextId := w.nextId }

def endEdit (d : Director) (key : HandleKey) : Director := d.modifyHandle key Handle.release

end Director

end EncounterTimeline

import EncounterTimeline.Playback.Clock
import EncounterTimeline.Playback.Journal
import EncounterTimeline.Playback.Window

/-! # Sessions

A session plays one definition. Host time moves the clock, lines of the log move it to where they belong and fire
triggers, and whatever is due is executed. Everything is computed at once and in a fixed order.
-/
namespace EncounterTimeline

structure Pace where
  lookAhead : Float
  visible : Nat
  maxSteps : Nat
  maxTickStep : Duration
  visible_pos : 0 < visible
  maxSteps_pos : 0 < maxSteps

namespace Cue

def noticeText (c : Cue) : Option String := c.notice.filter (!·.isEmpty)

/-- Whether the notice is to be given with that many seconds to go. -/
def noticeDue (c : Cue) (before : Float) : Bool := !(before > c.noticeThreshold)

end Cue

namespace Activity

def display (a : Activity) (clock base window : Float) : Activity :=
  let a := a.refresh clock base window
  { a with latches := { a.latches with active := true } }

def latchNotice (a : Activity) : Activity := { a with latches := { a.latches with notified := true } }

def pendingNotice (a : Activity) : Option String := if a.latches.notified then none else a.cue.noticeText

def attend (a : Activity) (clock base window : Float) : Activity :=
  let shown := a.display clock base window
  if a.cue.noticeDue (a.cue.before clock base) then shown.latchNotice else shown

def execute (a : Activity) (clock base window : Float) : Activity :=
  let shown := (a.display clock base window).latchNotice
  { shown with latches := { shown.latches with done := true, active := false } }

def skip (a : Activity) : Activity := { a with latches := { a.latches with done := true, active := false } }

def latchSync (a : Activity) : Activity := { a with latches := { a.latches with synced := true, active := true } }

def isDue (a : Activity) (clock base : Float) : Bool := !(a.cue.before clock base > -a.grace)

end Activity

namespace Definition

def idsFrom (d : Definition) (s : Scope) (start : Nat) : List ElementId :=
  ((d.places s).drop start).filterMap fun place => place.map Activity.id

def countFired (d : Definition) (line : String) : Definition :=
  { d with
    elements := d.elements.map fun e =>
      match e with
      | .trigger t => .trigger (if t.rule.isMatch line then { t with fired := t.fired + 1 } else t)
      | e => e }

def firedBy (d : Definition) (line : String) : List Trigger :=
  d.triggers.filter fun t => t.rule.isMatch line

end Definition

structure Session where
  definition : Definition
  clock : Float := 0.0
  cursor : Cursor := {}
  lastHost : Duration := .zero
  journal : Journal := []

structure LineOutcome where
  synced : Option ElementId
  fired : List ElementId
  deriving DecidableEq, Repr

namespace Session

def record (s : Session) (entries : List Happening) : Session :=
  { s with journal := s.journal.record entries }

def activityNotice (s : Session) (a : Activity) (text : String) : Notice :=
  ⟨a.id, s.definition.name, .activity, text, a.cue.noticeDevice.getD .both, s.clock⟩

def pending (s : Session) (a : Activity) : List Happening :=
  (a.pendingNotice.map fun text => .notice (s.activityNotice a text)).toList

def pendingNow (s : Session) (base : Float) (a : Activity) : List Happening :=
  if a.cue.noticeDue (a.cue.before s.clock base) then s.pending a else []

def triggerNotice (s : Session) (t : Trigger) (text : String) : Notice :=
  ⟨t.id, s.definition.name, .trigger, text, t.rule.noticeDevice.getD .both, s.clock⟩

def firing (s : Session) (t : Trigger) : List Happening :=
  .fired t.id ::
    ((t.rule.notice.filter (!·.isEmpty)).map fun text => .notice (s.triggerNotice t text)).toList

def overWindow (s : Session) (p : Pace) (f : Frame) (g : Activity → Activity) : Definition :=
  let places := (s.definition.window f p.visible).map Prod.fst
  s.definition.mapScope f.scope fun i a => if places.contains i then g a else a

def showWindow (s : Session) (p : Pace) : Session :=
  match s.cursor.frame with
  | none => s
  | some f => { s with definition := s.overWindow p f fun a => a.display s.clock f.base p.lookAhead }

def refreshWindow (s : Session) (p : Pace) : Session :=
  match s.cursor.frame with
  | none => s
  | some f =>
    let given := (s.definition.window f p.visible).flatMap fun (_, a) => s.pendingNow f.base a
    Session.record { s with definition := s.overWindow p f fun a => a.attend s.clock f.base p.lookAhead } given

def transferEntry (s : Session) (owner : ElementId) : Transfer → List Happening
  | .fellThrough => []
  | .jumped f | .called f _ => [.rearmed (s.definition.idsFrom f.scope f.index)]
  | .unresolved j => [.unresolved ⟨owner, j⟩]

def follow (s : Session) (owner : ElementId) (jump : Option Jump) (resume : Nat) : Session :=
  let (transfer, cursor, definition) := s.cursor.follow s.definition jump s.clock resume
  Session.record { s with cursor := cursor, definition := definition } (s.transferEntry owner transfer)

def strike (s : Session) (p : Pace) (f : Frame) (a : Activity) : Session :=
  let definition := s.definition.modifyStatement f.scope f.index fun a => a.execute s.clock f.base p.lookAhead
  Session.record { s with definition := definition } (s.pending a ++ [.executed a.id])

def execute (s : Session) (p : Pace) (f : Frame) (a : Activity) : Session :=
  (s.strike p f a).follow a.id a.cue.jump 1

def await (s : Session) (p : Pace) (f : Frame) (a : Activity) : Session :=
  let definition := s.definition.modifyStatement f.scope f.index fun a => a.attend s.clock f.base p.lookAhead
  Session.record { s with definition := definition } (s.pendingNow f.base a)

/-- Executes what is due at the cursor, that many activities at most. -/
def play (p : Pace) : Nat → Session → Session
  | 0, s => s
  | n + 1, s =>
    match s.cursor.frame with
    | none => s
    | some f =>
      match f.activity? s.definition with
      | none => play p n { s with cursor := s.cursor.advance s.definition }
      | some a => if a.isDue s.clock f.base then play p n (s.execute p f a) else s.await p f a

def step (s : Session) (p : Pace) : Session := (play p p.maxSteps s).refreshWindow p

def start (s : Session) (p : Pace) (host : Duration) : Session :=
  let definition := s.definition.prepare
  Session.showWindow
    { definition := definition, clock := 0.0, cursor := Cursor.reset definition, lastHost := host,
      journal := [] } p

def pass (s : Session) (p : Pace) (host : Duration) : Session :=
  let delta := (host.since s.lastHost).atMost p.maxTickStep
  Session.record { s with clock := Clock.advance s.clock delta, lastHost := host } [.elapsed delta]

def tick (s : Session) (p : Pace) (host : Duration) : Session := (s.pass p host).step p

/-- Moves the clock and the cursor to an activity; what lies before it is skipped. -/
def syncTo (s : Session) (f : Frame) (m : SyncMatch) (host : Duration) : Session :=
  let definition := s.definition.mapScope f.scope fun i a =>
    if i = m.index then a.latchSync else if f.index ≤ i && i < m.index then a.skip else a
  Session.record
    { s with
      definition := definition
      clock := Clock.settle (m.effectiveTime + m.activity.cue.syncStart.getD 0.0)
      lastHost := host
      cursor := s.cursor.moveTo m.index } [.synced m.activity.id]

def synchronize (s : Session) (p : Pace) (line : String) (host : Duration) : Option ElementId × Session :=
  match s.cursor.frame with
  | none => (none, s)
  | some f =>
    match s.definition.findSync f p.visible line with
    | none => (none, s)
    | some m => (some m.activity.id, s.syncTo f m host)

def countFired (s : Session) (line : String) : Session :=
  Session.record { s with definition := s.definition.countFired line }
    ((s.definition.firedBy line).flatMap s.firing)

def followAll (s : Session) (fired : List Trigger) : Session :=
  fired.foldl (fun s t => s.follow t.id t.rule.jump 0) s

/-- Fires the triggers that a line matches: all notices first, then the jumps, in list order. -/
def fire (s : Session) (line : String) : List ElementId × Session :=
  let hits := s.definition.firedBy line
  (hits.map Trigger.id, (s.countFired line).followAll hits)

def hear (s : Session) (p : Pace) (line : String) (host : Duration) : LineOutcome × Session :=
  let (synced, s) := s.synchronize p line host
  let (fired, s) := s.fire line
  (⟨synced, fired⟩, s.step p)

end Session

end EncounterTimeline

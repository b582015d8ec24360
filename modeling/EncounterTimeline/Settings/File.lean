import EncounterTimeline.Decimal.Layout
import EncounterTimeline.Decimal.Scaled
import EncounterTimeline.Fault
import EncounterTimeline.Settings.Basic
import EncounterTimeline.Settings.Tree

/-! # Settings files

Settings are an object whose keys may come in any order, or a list of the values in their order. What is missing
keeps its default, an unknown key is passed over, a known key may come once only. A missing file and one that holds
nothing but white space give the defaults.
-/
namespace EncounterTimeline.Settings

open SettingsFile (Value)

inductive Key where
  | progressBarTime | designMode | visibleActivities | tickInterval | maxTickStep | workerStopTimeout
  | maxStepsPerTick
  deriving DecidableEq, Repr

namespace Key

def all : List Key :=
  [progressBarTime, designMode, visibleActivities, tickInterval, maxTickStep, workerStopTimeout,
    maxStepsPerTick]

def text : Key → String
  | progressBarTime => "showProgressBarTime"
  | designMode => "designMode"
  | visibleActivities => "visibleActivities"
  | tickInterval => "tickIntervalMs"
  | maxTickStep => "maxTickStepMs"
  | workerStopTimeout => "workerStopTimeoutMs"
  | maxStepsPerTick => "maxStepsPerTick"

def ofText? (s : List Char) : Option Key := all.find? fun k => k.text.toList == s

end Key

def readFloat : Value → Option Float
  | .number negative _ n => n.scaledValue.map fun x => if negative then -x else x
  | _ => none

def readCount : Value → Option Nat
  | .number false true n =>
    let m := Decimal.digitsValue n.whole
    if m ≤ Decimal.maxCount then some m else none
  | _ => none

def readTruth : Value → Option Bool
  | .truth b => some b
  | _ => none

def assign (s : Settings) (k : Key) (v : Value) : Option Settings :=
  match k with
  | .progressBarTime => (readFloat v).map fun x => { s with progressBarTime := x }
  | .designMode => (readTruth v).map fun b => { s with designMode := b }
  | .visibleActivities => (readCount v).map fun n => { s with visibleActivities := n }
  | .tickInterval => (readCount v).map fun n => { s with tickIntervalMillis := n }
  | .maxTickStep => (readCount v).map fun n => { s with maxTickStepMillis := n }
  | .workerStopTimeout => (readCount v).map fun n => { s with workerStopTimeoutMillis := n }
  | .maxStepsPerTick => (readCount v).map fun n => { s with maxStepsPerTick := n }

/-- Takes the members of an object; `seen` are the keys that came before. -/
def assignMembers (s : Settings) (seen : List Key) : List (List Char × Value) → Option Settings
  | [] => some s
  | (raw, v) :: rest =>
    (SettingsFile.unquote raw).bind fun name =>
      match Key.ofText? name with
      | none => s.assignMembers seen rest
      | some k =>
        if seen.contains k then none
        else (s.assign k v).bind fun s => s.assignMembers (k :: seen) rest

def assignItems (s : Settings) : List Key → List Value → Option Settings
  | _, [] => some s
  | [], _ :: _ => none
  | k :: keys, v :: rest => (s.assign k v).bind fun s => s.assignItems keys rest

def ofValue : Value → Option Settings
  | .object members => ({} : Settings).assignMembers [] members
  | .list items => ({} : Settings).assignItems Key.all items
  | _ => none

def read (text : String) : Option Settings :=
  if Text.blank text then some {} else (SettingsFile.parse text.toList).bind ofValue

def valueText (s : Settings) : Key → String
  | .progressBarTime => Decimal.Layout.settings.text s.progressBarTime
  | .designMode => if s.designMode then "true" else "false"
  | .visibleActivities => toString s.visibleActivities
  | .tickInterval => toString s.tickIntervalMillis
  | .maxTickStep => toString s.maxTickStepMillis
  | .workerStopTimeout => toString s.workerStopTimeoutMillis
  | .maxStepsPerTick => toString s.maxStepsPerTick

def memberText (s : Settings) (k : Key) : String := "  \"" ++ k.text ++ "\": " ++ s.valueText k

/-- The text of a settings file: one setting a line, and no line feed at the end. -/
def print (s : Settings) : String :=
  "\x7b\n" ++ String.intercalate ",\n" (Key.all.map s.memberText) ++ "\n\x7d"

def load (storage : Storage) (path : String) : Except Fault Settings :=
  match storage.readText path with
  | .error .notFound => .ok {}
  | .error cause => .error (.io path cause)
  | .ok text =>
    match read text with
    | some s => .ok s
    | none => .error .settings

def save (s : Settings) (storage : Storage) (path : String) : Except Fault Unit × Storage :=
  let parent := Route.parentPath path
  match storage.createDirectories parent with
  | .error cause => (.error (.io parent cause), storage)
  | .ok storage =>
    match storage.write path (Text.encode s.print.toList) with
    | .error cause => (.error (.io path cause), storage)
    | .ok storage => (.ok (), storage)

end EncounterTimeline.Settings

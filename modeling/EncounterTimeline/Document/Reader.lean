import EncounterTimeline.Document.Basic
import EncounterTimeline.Markup.Event

/-! # Reading documents

A document is read event by event. At each moment the reader stands before the root, in the root, in the text of
a field, in a subroutine, in something that is skipped with all it holds, or behind the root, where nothing
counts any more.
-/
namespace EncounterTimeline

open Markup (Event Tag Attributes)

namespace Markup.Attributes

def text (as : Attributes) (key : String) : Option String := (as.lookup key.toList).map String.ofList

def number (as : Attributes) (key : String) : Option Float :=
  (as.text key).bind fun s => Decimal.read (Text.trim s)

def device (as : Attributes) (key : String) : Option Device := (as.text key).bind Device.parse

def pattern (as : Attributes) (key : String) : Option SyncPattern := SyncPattern.ofAttribute (as.text key)

end Markup.Attributes

namespace Document

def readPreset (as : Attributes) : Preset where
  name := as.text "name"
  targetElement := as.text "target-element"
  targetAttribute := as.text "target-attr"
  value := as.text "value"

def readRule (as : Attributes) : Rule where
  name := as.text "name"
  text := as.text "text"
  sync := as.pattern "sync"
  notice := as.text "notice"
  noticeDevice := as.device "notice-d"
  goto := as.text "goto"
  call := as.text "call"

def readTime (as : Attributes) : Except DocumentError Duration :=
  match as.text "time" with
  | none => .ok .zero
  | some s =>
    match TimeText.parse s with
    | some d => .ok d
    | none => .error (.invalidTime s)

def cueOf (as : Attributes) (time : Duration) : Cue where
  name := as.text "name"
  time := time
  text := as.text "text"
  sync := as.pattern "sync"
  syncStart := as.number "sync-s"
  syncEnd := as.number "sync-e"
  goto := as.text "goto"
  call := as.text "call"
  notice := as.text "notice"
  noticeDevice := as.device "notice-d"
  noticeOffset := as.number "notice-o"
  style := as.text "style"

def attributesOf (tag : Tag) : Except DocumentError Attributes :=
  match tag.attributes? with
  | some as => .ok as
  | none => .error .markup

/-- The entry that a tag stands for, subroutines apart; a tag that is none of them stands for nothing and its
attributes are not looked at. -/
def readEntry (tag : Tag) : Except DocumentError (Option Draft) :=
  match String.ofList tag.name with
  | "default" => do
    let as ← attributesOf tag
    return some (.preset (readPreset as))
  | "a" => do
    let as ← attributesOf tag
    let time ← readTime as
    return some (.activity (cueOf as time))
  | "t" => do
    let as ← attributesOf tag
    return some (.trigger (readRule as))
  | _ => return none

def routineName (tag : Tag) : Except DocumentError (Option String) := do
  let as ← attributesOf tag
  return as.text "name"

inductive Field where
  | name | zone | locale
  deriving DecidableEq, Repr

def Field.tag : Field → String
  | name => "name"
  | zone => "zone"
  | locale => "locale"

def Field.ofTag? (tag : String) : Option Field :=
  [Field.name, .zone, .locale].find? fun f => f.tag == tag

structure OpenRoutine where
  name : Option String
  cues : List Cue := []
  deriving BEq

inductive Place where
  | prolog
  | root
  | field (f : Field) (content : List Char)
  | routine (r : OpenRoutine)
  /-- Inside an element that is skipped, with that many elements of its name open inside it; afterwards the reader
  stands in the subroutine, or in the root. -/
  | skipping (name : List Char) (depth : Nat) (back : Option OpenRoutine)
  | finished
  deriving BEq

structure Reader where
  place : Place := .prolog
  document : Document := {}
  deriving BEq

def rootTag : String := "timeline"

def setField (d : Document) (f : Field) (content : List Char) : Except DocumentError Document :=
  let value := String.ofList content
  match f with
  | .name => .ok { d with name := value }
  | .zone => .ok { d with zone := value }
  | .locale =>
    match Locale.parse value with
    | some l => .ok { d with locale := l }
    | none => .error (.unknownLocale value)

def OpenRoutine.add (r : OpenRoutine) : Option Draft → OpenRoutine
  | some (.activity c) => { r with cues := r.cues ++ [c] }
  | _ => r

def addEntry (d : Document) : Option Draft → Document
  | some entry => d.push entry
  | none => d

namespace Reader

def standAt (r : Reader) (p : Place) : Reader := { r with place := p }

/-- Before the root only its tag may come; an empty root is an empty document. -/
def stepProlog (r : Reader) : Event → Except DocumentError Reader
  | .enter tag =>
    if String.ofList tag.name == rootTag then .ok (r.standAt .root)
    else .error (.unexpectedRoot (String.ofList tag.name))
  | .single tag =>
    if String.ofList tag.name == rootTag then .ok (r.standAt .finished)
    else .error (.unexpectedRoot (String.ofList tag.name))
  | .malformed => .error .markup
  | _ => .ok r

def stepRoot (r : Reader) : Event → Except DocumentError Reader
  | .enter tag =>
    match Field.ofTag? (String.ofList tag.name) with
    | some f => .ok (r.standAt (.field f []))
    | none =>
      if String.ofList tag.name == "s" then do
        let name ← routineName tag
        return r.standAt (.routine ⟨name, []⟩)
      else do
        let entry ← readEntry tag
        return ⟨.skipping tag.name 0 none, addEntry r.document entry⟩
  | .single tag =>
    if String.ofList tag.name == "s" then do
      let name ← routineName tag
      return { r with document := r.document.push (.subroutine name []) }
    else do
      let entry ← readEntry tag
      return { r with document := addEntry r.document entry }
  | .leave name => .ok (if String.ofList name == rootTag then r.standAt .finished else r)
  | .malformed => .error .markup
  | _ => .ok r

/-- Tags inside a field count for nothing; their text belongs to the field. -/
def stepField (r : Reader) (f : Field) (content : List Char) : Event → Except DocumentError Reader
  | .text raw =>
    match Markup.unescape raw with
    | some more => .ok (r.standAt (.field f (content ++ more)))
    | none => .error .markup
  | .verbatim more => .ok (r.standAt (.field f (content ++ more)))
  | .leave name =>
    if String.ofList name == f.tag then do
      let d ← setField r.document f content
      return ⟨.root, d⟩
    else .ok r
  | .malformed => .error .markup
  | _ => .ok r

def stepRoutine (r : Reader) (s : OpenRoutine) : Event → Except DocumentError Reader
  | .enter tag => do
    let entry ← readEntry tag
    return r.standAt (.skipping tag.name 0 (some (s.add entry)))
  | .single tag => do
    let entry ← readEntry tag
    return r.standAt (.routine (s.add entry))
  | .leave name =>
    .ok (if String.ofList name == "s" then ⟨.root, r.document.push (.subroutine s.name s.cues)⟩ else r)
  | .malformed => .error .markup
  | _ => .ok r

def backTo : Option OpenRoutine → Place
  | some s => .routine s
  | none => .root

def stepSkipping (r : Reader) (name : List Char) (depth : Nat) (back : Option OpenRoutine) :
    Event → Except DocumentError Reader
  | .enter tag => .ok (if tag.name = name then r.standAt (.skipping name (depth + 1) back) else r)
  | .leave n =>
    if n = name then
      match depth with
      | 0 => .ok (r.standAt (backTo back))
      | d + 1 => .ok (r.standAt (.skipping name d back))
    else .ok r
  | .malformed => .error .markup
  | _ => .ok r

def step (r : Reader) (e : Event) : Except DocumentError Reader :=
  match r.place with
  | .prolog => r.stepProlog e
  | .root => r.stepRoot e
  | .field f content => r.stepField f content e
  | .routine s => r.stepRoutine s e
  | .skipping name depth back => r.stepSkipping name depth back e
  | .finished => .ok r

def finish (r : Reader) : Except DocumentError Document :=
  match r.place with
  | .prolog => .error .missingRoot
  | .root => .error (.unterminated rootTag)
  | .field f _ => .error (.unterminated f.tag)
  | .routine _ => .error (.unterminated "s")
  | .skipping _ _ _ => .error .markup
  | .finished => .ok r.document

end Reader

def ofEvents (es : List Event) : Except DocumentError Document :=
  (es.foldlM Reader.step ({} : Reader)).bind Reader.finish

def read (s : String) : Except DocumentError Document := ofEvents (Markup.events s.toList)

end Document

end EncounterTimeline

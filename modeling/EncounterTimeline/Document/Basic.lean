import EncounterTimeline.Timeline.Workbench

/-! # Documents

What a file keeps of a definition: its name, zone and locale, and its elements as they are written. Identities
and the state of a run are not kept.
-/
namespace EncounterTimeline

structure Document where
  name : String := ""
  zone : String := ""
  locale : Locale := .ja
  entries : List Draft := []
  deriving BEq

inductive DocumentError where
  | markup
  | unexpectedRoot (tag : String)
  | missingRoot
  | unknownLocale (text : String)
  | unterminated (tag : String)
  | invalidTime (text : String)
  deriving DecidableEq, Repr

namespace DocumentError

def message : DocumentError → String
  | markup => ""
  | unexpectedRoot tag => "unexpected root element <" ++ tag ++ ">"
  | missingRoot => "missing <timeline> root element"
  | unknownLocale text => "unknown locale '" ++ text ++ "'"
  | unterminated tag => "unterminated <" ++ tag ++ "> element"
  | invalidTime text => "invalid timeline time '" ++ text ++ "'"

end DocumentError

namespace Document

def push (d : Document) (entry : Draft) : Document := { d with entries := d.entries ++ [entry] }

/-- The definition that a document describes, with identities from `first` on. -/
def workbench (d : Document) (first : ElementId) : Workbench :=
  Workbench.addDrafts
    { definition := { name := d.name, zone := d.zone, locale := d.locale }, nextId := first } d.entries

end Document

def Definition.document (d : Definition) : Document :=
  { name := d.name, zone := d.zone, locale := d.locale, entries := d.elements.map Element.draft }

end EncounterTimeline

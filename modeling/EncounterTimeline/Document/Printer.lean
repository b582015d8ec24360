import EncounterTimeline.Decimal.Layout
import EncounterTimeline.Document.Basic
import EncounterTimeline.Markup.Entity

/-! # Writing documents

A document is written with one tag a line and two blanks for each level. Attributes stand in a fixed order and
only where there is something to write; the time of an activity is always written.
-/
namespace EncounterTimeline.Document

abbrev Written := List (String × Option String)

def attributeText (as : Written) : List Char :=
  as.flatMap fun (key, value) =>
    match value with
    | none => []
    | some v => ' ' :: key.toList ++ '=' :: '"' :: Markup.escape v.toList ++ ['"']

def presetAttributes (p : Preset) : Written :=
  [("name", p.name), ("target-element", p.targetElement), ("target-attr", p.targetAttribute),
    ("value", p.value)]

def ruleAttributes (r : Rule) : Written :=
  [("name", r.name), ("text", r.text), ("sync", r.sync.map SyncPattern.source), ("notice", r.notice),
    ("notice-d", r.noticeDevice.map Device.name), ("goto", r.goto), ("call", r.call)]

def cueAttributes (c : Cue) : Written :=
  [("name", c.name), ("time", some (TimeText.format c.time)), ("text", c.text),
    ("sync", c.sync.map SyncPattern.source), ("sync-s", c.syncStart.map Decimal.plainText),
    ("sync-e", c.syncEnd.map Decimal.plainText), ("goto", c.goto), ("call", c.call),
    ("notice", c.notice), ("notice-d", c.noticeDevice.map Device.name),
    ("notice-o", c.noticeOffset.map Decimal.plainText), ("style", c.style)]

/-- The body of the tag of an entry; the body of a subroutine's tag gives its name. -/
def entryBody : Draft → List Char
  | .preset p => "default".toList ++ attributeText (presetAttributes p)
  | .activity c => 'a' :: attributeText (cueAttributes c)
  | .trigger r => 't' :: attributeText (ruleAttributes r)
  | .subroutine name _ => 's' :: attributeText [("name", name)]

def newline (level : Nat) : List Char := '\n' :: List.replicate (2 * level) ' '

def emptyTag (level : Nat) (body : List Char) : List Char := newline level ++ '<' :: body ++ "/>".toList

def entryText (entry : Draft) : List Char :=
  match entry with
  | .subroutine _ cues =>
    newline 1 ++ '<' :: entryBody entry ++ '>' ::
      (cues.flatMap fun c => emptyTag 2 (entryBody (.activity c))) ++ newline 1 ++ "</s>".toList
  | _ => emptyTag 1 (entryBody entry)

def fieldText (tag value : String) : List Char :=
  newline 1 ++ '<' :: tag.toList ++ '>' :: Markup.escape value.toList ++ "</".toList ++ tag.toList ++ ['>']

def declaration : List Char := "<?xml version=\"1.0\" encoding=\"utf-8\"?>".toList

def render (d : Document) : List Char :=
  declaration ++ newline 0 ++ "<timeline>".toList ++ fieldText "name" d.name ++ fieldText "zone" d.zone ++
    fieldText "locale" d.locale.name ++ d.entries.flatMap entryText ++ newline 0 ++ "</timeline>".toList

def print (d : Document) : String := String.ofList (render d)

end EncounterTimeline.Document

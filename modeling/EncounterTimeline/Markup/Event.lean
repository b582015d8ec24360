import EncounterTimeline.Markup.Attribute

/-! # Markup events

What a reader of a document sees, in order. Every closing tag has to name the tag that was opened last and is
still open; the first piece that does not fit ends the events.
-/
namespace EncounterTimeline.Markup

inductive Event where
  | enter (tag : Tag)
  | single (tag : Tag)
  | leave (name : List Char)
  | text (raw : List Char)
  | verbatim (content : List Char)
  | malformed
  deriving DecidableEq, Repr

def closedName (content : List Char) : List Char :=
  match content.reverse.dropWhile isSpace with
  | [] => content
  | r => r.reverse

/-- The events of lexemes, with the names of the tags that are open, the latest first. -/
def eventsFrom (opened : List (List Char)) : List Lexeme → List Event
  | [] => []
  | .text raw :: rest => .text raw :: eventsFrom opened rest
  | .verbatim content :: rest => .verbatim content :: eventsFrom opened rest
  | .remark :: rest => eventsFrom opened rest
  | .openTag body :: rest =>
    let tag := Tag.ofBody body
    .enter tag :: eventsFrom (tag.name :: opened) rest
  | .emptyTag body :: rest => .single (Tag.ofBody body) :: eventsFrom opened rest
  | .closeTag content :: rest =>
    match opened with
    | [] => [.malformed]
    | name :: others =>
      if closedName content = name then .leave name :: eventsFrom others rest else [.malformed]
  | .malformed :: _ => [.malformed]

def events (cs : List Char) : List Event := eventsFrom [] (lexemes (dropMark cs))

end EncounterTimeline.Markup

import EncounterTimeline.Document.Printer
import EncounterTimeline.Document.Reader
import EncounterTimeline.Fault

/-! # Document files

A file that is missing or empty holds no document. A document is written with a line feed at its end and
without a byte-order mark; the directory it stands in is created.
-/
namespace EncounterTimeline.Document

def ofText (text : String) : Except Fault Document :=
  match read text with
  | .ok d => .ok d
  | .error e => .error (.malformed Fault.inMemory (.document e))

def ofBytes (path : String) (bytes : Text.Bytes) : Except Fault Document :=
  match Text.decode (Text.stripMark bytes) with
  | .error e => .error (.malformed path (.encoding e))
  | .ok cs =>
    match read (String.ofList cs) with
    | .ok d => .ok d
    | .error e => .error (.malformed path (.document e))

def load (s : Storage) (path : String) : Except Fault (Option Document) :=
  match s.read path with
  | .error .notFound => .ok none
  | .error cause => .error (.io path cause)
  | .ok [] => .ok none
  | .ok bytes => (ofBytes path bytes).map some

def fileBytes (d : Document) : Text.Bytes := Text.encode (d.render ++ ['\n'])

/-- Writes a document to a path. What was created before a fault stays. -/
def save (s : Storage) (path : String) (d : Document) : Except Fault Unit × Storage :=
  let parent := Route.parentPath path
  match s.createDirectories parent with
  | .error cause => (.error (.io parent cause), s)
  | .ok s =>
    match s.write path d.fileBytes with
    | .error cause => (.error (.io path cause), s)
    | .ok s => (.ok (), s)

end EncounterTimeline.Document

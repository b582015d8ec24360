import EncounterTimeline.Feed.Bus
import EncounterTimeline.Feed.Tail

/-! # Watches

A watch tails a file from its present end and publishes what is added to it. The file may be missing; the directory
it stands in has to be there.
-/
namespace EncounterTimeline

structure Watch where
  path : String
  tail : Tail
  running : Bool := true
  deriving DecidableEq, Repr

namespace Watch

def initialOffset (storage : Storage) (path : String) : Except Fault Nat :=
  match storage.lengthOf path with
  | .ok n => .ok n
  | .error .notFound => .ok 0
  | .error cause => .error (.io path cause)

def start (storage : Storage) (path : String) : Except Fault Watch :=
  match initialOffset storage path with
  | .error f => .error f
  | .ok offset =>
    match storage.find (Route.parentPath path) with
    | .ok (some _) => .ok { path := path, tail := Tail.startingAt offset }
    | _ => .error .watch

/-- Publishes what was added to the file. A file that cannot be read adds nothing. -/
def notice (w : Watch) (storage : Storage) (bus : Bus) : Watch × Bus :=
  if w.running then
    match w.tail.read storage w.path with
    | (.ok lines, tail) => ({ w with tail := tail }, lines.foldl Bus.publish bus)
    | (.error _, tail) => ({ w with tail := tail }, bus)
  else (w, bus)

def stop (w : Watch) : Watch := { w with running := false }

end Watch

end EncounterTimeline

import EncounterTimeline.Fault
import EncounterTimeline.Text.Blank

/-! # Tails

A tail remembers how far it has read a growing file and holds back the bytes of a line that has not ended. A file
that is shorter than what was read is a new one and is read from its start. Lines come without the carriage
returns at their ends; blank lines are dropped.
-/
namespace EncounterTimeline

structure Tail where
  offset : Nat := 0
  pending : Text.Bytes := []
  deriving DecidableEq, Repr

def lineFeed : UInt8 := 10

/-- Cuts bytes into the lines that have ended and what comes after them. -/
def cutLines : Text.Bytes → List Text.Bytes × Text.Bytes
  | [] => ([], [])
  | b :: r =>
    let (lines, rest) := cutLines r
    if b = lineFeed then ([] :: lines, rest)
    else
      match lines with
      | [] => ([], b :: rest)
      | l :: others => ((b :: l) :: others, rest)

def lineText (line : Text.Bytes) : String :=
  String.ofList ((Text.decodeLossy line).reverse.dropWhile (· == '\r')).reverse

def heardLines (lines : List Text.Bytes) : List String :=
  (lines.map lineText).filter fun s => !Text.blank s

namespace Tail

def startingAt (offset : Nat) : Tail := ⟨offset, []⟩

/-- Starts over if a file is shorter than what was read of it. -/
def rewind (t : Tail) (length : Nat) : Tail := if length < t.offset then {} else t

def take (t : Tail) (bytes : Text.Bytes) : List String × Tail :=
  let t := t.rewind bytes.length
  let (lines, rest) := cutLines (t.pending ++ bytes.drop t.offset)
  (heardLines lines, ⟨bytes.length, rest⟩)

def read (t : Tail) (storage : Storage) (path : String) : Except Fault (List String) × Tail :=
  match storage.read path with
  | .error .notFound => (.ok [], t)
  | .error .isDirectory => (.error (.io path .isDirectory), t.rewind Storage.directoryLength)
  | .error cause => (.error (.io path cause), t)
  | .ok bytes =>
    let (lines, t) := t.take bytes
    (.ok lines, t)

end Tail

end EncounterTimeline

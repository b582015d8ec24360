import EncounterTimeline.Decimal.Numeral
import EncounterTimeline.Text.Blank
import EncounterTimeline.Timeline.Duration

/-! # Time text

A scheduled time is written `mm:ss`, with a millisecond fraction when there is one. It is read as
`mm:ss[.fff]` or as bare seconds, with white space allowed around it; nothing but white space is time zero.
-/
namespace EncounterTimeline.TimeText

def padded (width n : Nat) : List Char :=
  let digits := (toString n).toList
  List.replicate (width - digits.length) '0' ++ digits

def fraction (millis : Nat) : List Char :=
  if millis == 0 then []
  else '.' :: ((padded 3 millis).reverse.dropWhile (· == '0')).reverse

/-- `mm:ss`, and the milliseconds when they are not zero. Minutes take as many digits as they need. -/
def render (d : Duration) : List Char :=
  let total := d.millis
  padded 2 (total / 60000) ++ ':' :: padded 2 (total / 1000 % 60) ++ fraction (total % 1000)

def format (d : Duration) : String := String.ofList (render d)

def isSeconds (cs : List Char) : Bool :=
  !(cs.takeWhile Char.isDigit).isEmpty &&
    match cs.dropWhile Char.isDigit with
    | [] => true
    | '.' :: r => !r.isEmpty && r.all Char.isDigit
    | _ => false

/-- Seconds to whole milliseconds, rounded through double arithmetic and capped at the largest counter. -/
def secondsMillis (cs : List Char) : Option Nat :=
  if isSeconds cs then
    (Decimal.readUnsigned cs).map fun n => Decimal.nearestCount (n.value * 1000.0)
  else none

/-- Minutes and seconds in milliseconds; sums beyond the largest counter stop there. -/
def total (minutes seconds : Nat) : Nat :=
  min (min (minutes * 60000) Decimal.maxCount + seconds) Decimal.maxCount

def readTrimmed (cs : List Char) : Option Nat :=
  let digits := cs.takeWhile Char.isDigit
  match cs.dropWhile Char.isDigit with
  | ':' :: r =>
    let minutes := Decimal.digitsValue digits
    if digits.isEmpty || decide (minutes > Decimal.maxCount) then none
    else (secondsMillis r).map (total minutes)
  | _ => (secondsMillis cs).map (total 0)

def read (cs : List Char) : Option Duration :=
  match Text.trimBoth Text.isBlank cs with
  | [] => some Duration.zero
  | trimmed => (readTrimmed trimmed).map Duration.ofMillis

def parse (s : String) : Option Duration := read s.toList

end EncounterTimeline.TimeText

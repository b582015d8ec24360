import EncounterTimeline.Pattern.Node

/-! # The extent of a pattern

A pattern is refused when the automaton over bytes that recognises it would be too large, read forward or
backward. The extent counts that automaton's memory: each state has a fixed price, each edge a small one, and a
class of characters is spelled out as sequences of byte ranges that share states where they can.
-/
namespace EncounterTimeline.Pattern
open EncounterTimeline.Text

abbrev ByteRange := Nat × Nat

/-- The byte sequences of the code points from `low` to `high`, all of which take the same number of bytes:
one with a marked first byte and `tail` others of six bits each. -/
private def sameLength (mark : Nat) : Nat → Nat → Nat → List (List ByteRange)
  | 0, low, high => [[(mark + low, mark + high)]]
  | tail + 1, low, high =>
    let unit := 64 ^ (tail + 1)
    let first := low / unit
    let last := high / unit
    let under (byte a b : Nat) := (sameLength 0x80 tail a b).map ((mark + byte, mark + byte) :: ·)
    if first == last then under first (low % unit) (high % unit)
    else
      let front := if low % unit == 0 then [] else under first (low % unit) (unit - 1)
      let back := if high % unit == unit - 1 then [] else under last 0 (high % unit)
      let least := if low % unit == 0 then first else first + 1
      let most := if high % unit == unit - 1 then last else last - 1
      let middle := if least ≤ most then
          [(mark + least, mark + most) :: List.replicate (tail + 1) (0x80, 0xBF)] else []
      front ++ middle ++ back

/-- The lengths of encoded characters: the code points that have each, the mark of the first byte and the
number of others. The halves of surrogate pairs have none. -/
private def lengthClasses : List (Nat × Nat × Nat × Nat) :=
  [(0, 0x7F, 0, 0), (0x80, 0x7FF, 0xC0, 1), (0x800, 0xD7FF, 0xE0, 2), (0xE000, 0xFFFF, 0xE0, 2),
    (0x10000, 0x10FFFF, 0xF0, 3)]

def byteSequences (set : CharSet) : List (List ByteRange) :=
  set.ranges.flatMap fun r => lengthClasses.flatMap fun (low, high, mark, tail) =>
    let a := max r.low low
    let b := min r.high high
    if a ≤ b then sameLength mark tail a b else []

def statePrice : Nat := 32
def rangePrice : Nat := 8
def choicePrice : Nat := 4

private def children : List (List ByteRange) → List (ByteRange × List (List ByteRange))
  | [] => []
  | [] :: rest => children rest
  | (r :: tail) :: rest =>
    match children rest with
    | (r', tails) :: others =>
      if r == r' then (r, tail :: tails) :: others else (r, [tail]) :: (r', tails) :: others
    | [] => [(r, [tail])]

/-- The distinct states with edges that recognise sequences of at most `depth` bytes, each given by the
sequences that it still expects. -/
private def states : Nat → List (List ByteRange) → List (List (List ByteRange))
  | 0, _ => []
  | depth + 1, seqs =>
    if seqs.all List.isEmpty then []
    else (seqs :: (children seqs).flatMap fun (_, tails) => states depth tails)

private def distinct (xs : List (List (List ByteRange))) : List (List (List ByteRange)) :=
  (xs.foldl (fun seen x => if seen.contains x then seen else x :: seen) [])

private def forwardSpelling (seqs : List (List ByteRange)) : Nat :=
  (distinct (states 4 seqs)).foldl
    (fun n s => n + (statePrice + rangePrice * (children s).length)) statePrice

private def commonLength : List ByteRange → List ByteRange → Nat
  | a :: as, b :: bs => if a == b then commonLength as bs + 1 else 0
  | _, _ => 0

/-- How many beginnings the sequences have, counting those shared with the sequence before only once. The
sequences ascend, so equal beginnings stand together. -/
private def beginnings : List ByteRange → List (List ByteRange) → Nat
  | _, [] => 0
  | before, s :: rest => s.length - commonLength before s + beginnings s rest

private def backwardSpelling (seqs : List (List ByteRange)) : Nat :=
  2 * statePrice + choicePrice * seqs.length + statePrice * beginnings [] seqs

private def utf8Length (n : Nat) : Nat :=
  if n < 0x80 then 1 else if n < 0x800 then 2 else if n < 0x10000 then 3 else 4

inductive Direction where
  | forward | backward
  deriving DecidableEq, Repr

def setExtent (d : Direction) (set : CharSet) : Nat :=
  match set.ranges with
  | [⟨low, high⟩] =>
    if low == high then statePrice * utf8Length low
    else spelled
  | _ => spelled
where
  spelled : Nat :=
    if set.isAscii then 2 * statePrice + rangePrice * set.ranges.length
    else match d with
      | .forward => forwardSpelling (byteSequences set)
      | .backward => backwardSpelling (byteSequences set)

private def fork : Nat := statePrice + 2 * choicePrice

/-- The extent of a node. Groups mark both their ends, but only when read forward. -/
def Node.extent (d : Direction) : Node → Nat
  | .empty | .look _ => statePrice
  | .chars set => setExtent d set
  | .capture _ body => body.extent d + (if d = .forward then 2 * statePrice else 0)
  | .repetition least most _ body =>
    let e := body.extent d
    match least, most with
    | 0, none => if body.consumes then e + fork else e + 2 * fork + statePrice
    | n, none => n * e + fork
    | 0, some 1 => e + fork + statePrice
    | n, some m =>
      (if n == 0 then statePrice else n * e) +
        (if n == m then 0 else statePrice + (m - n) * (e + fork))
  | .sequence items => total items
  | .choice branches =>
    total branches + 2 * statePrice + choicePrice * branches.length
where
  total : List Node → Nat
    | [] => 0
    | n :: ns => n.extent d + total ns

private def frameExtent : Nat := 2 * statePrice + statePrice + 2 * statePrice + rangePrice + fork

def extentLimit : Nat := 1 <<< 20

def Node.fits (n : Node) : Bool :=
  n.extent .forward + frameExtent ≤ extentLimit && n.extent .backward + frameExtent ≤ extentLimit

end EncounterTimeline.Pattern

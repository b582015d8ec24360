/-! # Sets of characters

A set of characters is a list of ranges of code points, ascending and with gaps between them. Union sorts and
joins ranges; complement walks the gaps; the other operations are built from these two.
-/
namespace EncounterTimeline.Text

structure CodeRange where
  low : Nat
  high : Nat
  deriving DecidableEq, Repr

/-- Ascending ranges with gaps between them. -/
structure CharSet where
  ranges : List CodeRange
  deriving DecidableEq, Repr, Inhabited

namespace CharSet

def maxCode : Nat := 0x10FFFF

def empty : CharSet := ⟨[]⟩

def single (c : Char) : CharSet := ⟨[⟨c.toNat, c.toNat⟩]⟩

def containsCode : List CodeRange → Nat → Bool
  | [], _ => false
  | r :: rs, n => if n < r.low then false else n ≤ r.high || containsCode rs n

def contains (s : CharSet) (c : Char) : Bool := containsCode s.ranges c.toNat

def isEmpty (s : CharSet) : Bool := s.ranges.isEmpty

def isAscii (s : CharSet) : Bool := s.ranges.all fun r => r.high ≤ 0x7F

def coalesce : CodeRange → List CodeRange → List CodeRange
  | r, [] => [r]
  | r, next :: rest =>
    if next.low ≤ r.high + 1 then coalesce ⟨r.low, max r.high next.high⟩ rest
    else r :: coalesce next rest

def ofRanges (rs : List CodeRange) : CharSet :=
  match (rs.filter fun r => r.low ≤ r.high).mergeSort (fun a b => a.low ≤ b.low) with
  | [] => empty
  | r :: rest => ⟨coalesce r rest⟩

def union (a b : CharSet) : CharSet :=
  match a.ranges, b.ranges with
  | [], _ => b
  | _, [] => a
  | ra, rb => ofRanges (ra ++ rb)

def gaps (start : Nat) : List CodeRange → List CodeRange
  | [] => if start ≤ maxCode then [⟨start, maxCode⟩] else []
  | r :: rest => if start < r.low then ⟨start, r.low - 1⟩ :: gaps (r.high + 1) rest
    else gaps (r.high + 1) rest

def complement (s : CharSet) : CharSet := ⟨gaps 0 s.ranges⟩

def inter (a b : CharSet) : CharSet := (a.complement.union b.complement).complement

def diff (a b : CharSet) : CharSet := (a.complement.union b).complement

def symmDiff (a b : CharSet) : CharSet := (a.diff b).union (b.diff a)

def unions (sets : List CharSet) : CharSet := ofRanges (sets.flatMap CharSet.ranges)

def between (low high : Char) : CharSet := ofRanges [⟨low.toNat, high.toNat⟩]

private def hexDigit (c : Char) : Nat :=
  if c.isDigit then c.toNat - 48 else c.toNat - 87

/-- Reads packed ranges: for each the distance from the end of the one before and, after a dash when there
is more than one code point, how many follow; in hexadecimal, with blanks between ranges. -/
private def unpackFrom : List Char → Nat → Nat → Option Nat → List CodeRange
  | [], start, n, none => [⟨start + n, start + n⟩]
  | [], start, n, some low => [⟨low, start + n⟩]
  | c :: cs, start, n, low =>
    if c == ' ' then
      match low with
      | none => ⟨start + n, start + n⟩ :: unpackFrom cs (start + n + 1) 0 none
      | some l => ⟨l, start + n⟩ :: unpackFrom cs (start + n + 1) 0 none
    else if c == '-' then unpackFrom cs (start + n) 0 (some (start + n))
    else unpackFrom cs start (16 * n + hexDigit c) low

def unpack (table : String) : CharSet :=
  if table.isEmpty then empty else ⟨unpackFrom table.toList 0 0 none⟩

end CharSet

end EncounterTimeline.Text

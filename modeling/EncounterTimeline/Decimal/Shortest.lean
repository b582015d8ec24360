import EncounterTimeline.Decimal.Binary64

/-! # Shortest decimals

The fewest significant digits that read back to the same double. The reals that round to `m · 2 ^ e` form
an interval around it, whose ends belong to it iff `m` is even. On the grid of `n`-digit decimals only the
two neighbours of the value have to be tested; the least `n` with a hit wins, and of two hits the nearer one.
-/
namespace EncounterTimeline.Decimal

structure Digits where
  digits : Nat
  exponent : Int
  deriving DecidableEq, Repr

structure Interval where
  low : Nat
  value : Nat
  high : Nat
  den : Nat
  closed : Bool

def Interval.around (m : Nat) (e : Int) : Interval :=
  let gap := if m == 1 <<< 52 && decide (e > -1074) then 1 else 2
  let scaled := Binary64.ratio 1 (e - 2)
  ⟨(4 * m - gap) * scaled.1, 4 * m * scaled.1, (4 * m + 2) * scaled.1, scaled.2, m % 2 == 0⟩

def Interval.holds (i : Interval) (unit per d : Nat) : Bool :=
  let x := d * unit * i.den
  if i.closed then i.low * per ≤ x && x ≤ i.high * per
  else i.low * per < x && x < i.high * per

/-- The hit on one grid, whose points are the multiples of `unit / per`: the nearer of the two neighbours
of the value; with a tie, `tieUp` decides. -/
def Interval.onGrid? (i : Interval) (tieUp : Bool) (unit per : Nat) : Option Nat :=
  let below := i.value * per / (i.den * unit)
  let above := below + 1
  match i.holds unit per below, i.holds unit per above with
  | false, false => none
  | true, false => some below
  | false, true => some above
  | true, true =>
    let toBelow := i.value * per - below * unit * i.den
    let toAbove := above * unit * i.den - i.value * per
    if toBelow < toAbove then some below
    else if toAbove < toBelow then some above
    else if tieUp then some above
    else if below % 2 == 0 then some below else some above

def pointFrom (num den : Nat) : Nat → Int → Int
  | 0, k => k
  | fuel + 1, k =>
    let fits : Bool := match k with
      | .ofNat j => decide (num < 10 ^ j * den)
      | .negSucc j => decide (num * 10 ^ (j + 1) < den)
    if fits then k else pointFrom num den fuel (k + 1)

/-- Where the decimal point stands: the least `k` with `value < 10 ^ k`. The logarithm in base two gives
an estimate from below that is at most two short. -/
def Interval.point (i : Interval) : Int :=
  let log := (Nat.log2 i.value : Int) - Nat.log2 i.den - 1
  let start := Int.fdiv (log * 30103) 100000 - 1
  pointFrom i.value i.den 8 start

def gridSearch (i : Interval) (tieUp : Bool) (point : Int) : Nat → Nat → Digits
  | 0, _ => ⟨0, 0⟩
  | fuel + 1, n =>
    let exponent := point - n
    let hit := match exponent with
      | .ofNat k => i.onGrid? tieUp (10 ^ k) 1
      | .negSucc k => i.onGrid? tieUp 1 (10 ^ (k + 1))
    match hit with
    | some d => ⟨d, exponent⟩
    | none => gridSearch i tieUp point fuel (n + 1)

def dropZeros : Nat → Digits → Digits
  | 0, d => d
  | fuel + 1, d =>
    if d.digits != 0 && d.digits % 10 == 0 then dropZeros fuel ⟨d.digits / 10, d.exponent + 1⟩ else d

/-- The shortest digits of `m · 2 ^ e`, without trailing zeros; seventeen digits always suffice. -/
def shortest (tieUp : Bool) (m : Nat) (e : Int) : Digits :=
  if m == 0 then ⟨0, 0⟩
  else
    let i := Interval.around m e
    dropZeros 20 (gridSearch i tieUp i.point 18 1)

end EncounterTimeline.Decimal

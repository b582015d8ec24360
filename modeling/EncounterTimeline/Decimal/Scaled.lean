import EncounterTimeline.Decimal.Numeral

/-! # Scaled significands

A faster and coarser way to read a decimal: as many digits as fit into a 64-bit counter are taken as a whole number,
which becomes a double and is then multiplied or divided by a power of ten. The two roundings may miss the
nearest double by a little.
-/
namespace EncounterTimeline.Decimal

def takeFitting (n : Nat) : List Char → Nat × List Char
  | [] => (n, [])
  | c :: r =>
    let m := 10 * n + digitValue c
    if m ≤ maxCount then takeFitting m r else (n, c :: r)

def powerOfTen (k : Nat) : Float := scientific 1 k

def maxPower : Nat := 308

def divideByPower (x : Float) (k : Nat) : Float :=
  if k ≤ maxPower then x / powerOfTen k
  else if x == 0.0 then x
  else divideByPower (x / powerOfTen maxPower) (k - maxPower)
termination_by k
decreasing_by simp only [maxPower] at *; omega

def scaled (significand : Nat) (exponent : Int) : Option Float :=
  let x := significand.toFloat
  match exponent with
  | .negSucc k => some (divideByPower x (k + 1))
  | .ofNat k =>
    if k ≤ maxPower then
      let y := x * powerOfTen k
      if y.isInf then none else some y
    else if x == 0.0 then some x else none

/-- The value of a numeral by its scaled significand. Digits of the whole part that do not fit count as zeros, those
of the fraction not at all. -/
def Numeral.scaledValue (n : Numeral) : Option Float :=
  let (whole, dropped) := takeFitting 0 n.whole
  let (significand, rest) := takeFitting whole n.fraction
  let places : Int := (dropped.length : Int) - ((n.fraction.length - rest.length : Nat) : Int)
  scaled significand (n.exponent + places)

end EncounterTimeline.Decimal

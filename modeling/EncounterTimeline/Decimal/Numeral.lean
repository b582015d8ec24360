import EncounterTimeline.Decimal.Binary64

/-! # Reading decimals

A decimal numeral is an optional sign and either digits with at most one point and an optional exponent, or
one of the names of infinity and of no number in any case. It reads to the nearest double.
-/
namespace EncounterTimeline.Decimal

def digitValue (c : Char) : Nat := c.toNat - '0'.toNat

def digitsValue (cs : List Char) : Nat := cs.foldl (fun n c => 10 * n + digitValue c) 0

/-- The nearest double to `mantissa · 10 ^ exponent`. Magnitudes that are certainly out of range are
settled without computing the power. -/
def scientific (mantissa : Nat) (exponent : Int) : Float :=
  if mantissa == 0 then 0.0
  else
    let point := ((toString mantissa).length : Int) + exponent
    if point > 400 then 1.0 / 0.0
    else if point < -400 then 0.0
    else match exponent with
      | .ofNat k => Float.ofScientific mantissa false k
      | .negSucc k => Float.ofScientific mantissa true (k + 1)

structure Numeral where
  whole : List Char
  fraction : List Char
  exponent : Int
  deriving DecidableEq, Repr

def Numeral.value (n : Numeral) : Float :=
  scientific (digitsValue (n.whole ++ n.fraction)) (n.exponent - n.fraction.length)

def readExponent : List Char → Option Int
  | [] => some 0
  | c :: r =>
    if c == 'e' || c == 'E' then
      let (negative, ds) := match r with
        | '-' :: ds => (true, ds)
        | '+' :: ds => (false, ds)
        | ds => (false, ds)
      if ds.isEmpty || !ds.all Char.isDigit then none
      else some (if negative then -(digitsValue ds : Int) else digitsValue ds)
    else none

/-- Digits with at most one point and at least one digit, then the exponent. -/
def readUnsigned (cs : List Char) : Option Numeral :=
  let whole := cs.takeWhile Char.isDigit
  match cs.dropWhile Char.isDigit with
  | '.' :: r =>
    let fraction := r.takeWhile Char.isDigit
    if whole.isEmpty && fraction.isEmpty then none
    else (readExponent (r.dropWhile Char.isDigit)).map (⟨whole, fraction, ·⟩)
  | r => if whole.isEmpty then none else (readExponent r).map (⟨whole, [], ·⟩)

def readMagnitude (cs : List Char) : Option Float :=
  let word := String.ofList (cs.map Char.toLower)
  if word == "inf" || word == "infinity" then some (1.0 / 0.0)
  else if word == "nan" then some (0.0 / 0.0)
  else (readUnsigned cs).map Numeral.value

def read (s : String) : Option Float :=
  match s.toList with
  | '-' :: r => (readMagnitude r).map (fun x => -x)
  | '+' :: r => readMagnitude r
  | r => readMagnitude r

end EncounterTimeline.Decimal

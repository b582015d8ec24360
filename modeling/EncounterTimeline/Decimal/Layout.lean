import EncounterTimeline.Decimal.Shortest

/-! # Decimal text

How the digits of a double are laid out: which magnitudes are written positionally, whether whole numbers
carry a fraction mark, and how the exponent is spelled. Two layouts are in use: `plain` for answers and
documents, `settings` for the settings file.
-/
namespace EncounterTimeline.Decimal

/-- The decisions of one way of writing doubles. A magnitude is `0.d₁d₂… · 10 ^ point`. -/
structure Layout where
  positional : Int → Bool
  wholeMark : Bool
  plusExponent : Bool
  /-- Whether an exact tie between two shortest candidates goes up rather than to the even digit. -/
  tieUp : Bool
  notANumber : String
  infinite : Bool → String

def Layout.plain : Layout :=
  ⟨fun _ => true, false, false, true, "NaN", fun negative => if negative then "-inf" else "inf"⟩

/-- Positional from 10⁻⁵ up to 10¹⁶, and whole numbers keep `.0`. Numbers of the settings file are finite;
what is not is written as null. -/
def Layout.settings : Layout :=
  ⟨fun point => -5 < point && point ≤ 16, true, true, false, "null", fun _ => "null"⟩

def zeros (n : Nat) : String := String.ofList (List.replicate n '0')

def positionalText (wholeMark : Bool) (digits : String) (point : Int) : String :=
  let n : Int := digits.length
  if point ≤ 0 then "0." ++ zeros (-point).toNat ++ digits
  else if n ≤ point then
    digits ++ zeros (point - n).toNat ++ (if wholeMark then ".0" else "")
  else
    String.ofList (digits.toList.take point.toNat) ++ "." ++
      String.ofList (digits.toList.drop point.toNat)

def exponentText (plus : Bool) (digits : String) (point : Int) : String :=
  let rest := String.ofList (digits.toList.drop 1)
  let mantissa := String.ofList (digits.toList.take 1) ++ (if rest.isEmpty then "" else "." ++ rest)
  let e := point - 1
  mantissa ++ "e" ++ (if plus && 0 ≤ e then "+" else "") ++ toString e

def Layout.magnitude (l : Layout) (m : Nat) (e : Int) : String :=
  if m == 0 then (if l.wholeMark then "0.0" else "0")
  else
    let d := shortest l.tieUp m e
    let digits := toString d.digits
    let point := d.exponent + digits.length
    if l.positional point then positionalText l.wholeMark digits point
    else exponentText l.plusExponent digits point

def Layout.text (l : Layout) (x : Float) : String :=
  match Binary64.ofFloat x with
  | .notANumber => l.notANumber
  | .infinite negative => l.infinite negative
  | .finite negative m e => (if negative then "-" else "") ++ l.magnitude m e

def plainText (x : Float) : String := Layout.plain.text x

end EncounterTimeline.Decimal

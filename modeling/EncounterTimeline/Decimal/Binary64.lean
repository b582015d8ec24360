/-! # Doubles as exact numbers

A double is a sign and a natural number times a power of two, or it is infinite, or no number. Text and
rounding are computed on that exact value, never through further float arithmetic.
-/
namespace EncounterTimeline.Decimal

/-- What a double stands for; `finite negative m e` is `± m · 2 ^ e`. -/
inductive Binary64 where
  | notANumber
  | infinite (negative : Bool)
  | finite (negative : Bool) (mantissa : Nat) (exponent : Int)
  deriving DecidableEq, Repr

namespace Binary64

def ofBits (bits : Nat) : Binary64 :=
  let negative : Bool := (bits >>> 63) % 2 == 1
  let exponent : Nat := (bits >>> 52) % 2048
  let fraction : Nat := bits % (1 <<< 52)
  if exponent == 2047 then
    if fraction == 0 then .infinite negative else .notANumber
  else if exponent == 0 then
    .finite negative fraction (-1074)
  else
    .finite negative (1 <<< 52 + fraction) ((exponent : Int) - 1075)

def ofFloat (x : Float) : Binary64 := ofBits x.toBits.toNat

def ratio (mantissa : Nat) (exponent : Int) : Nat × Nat :=
  match exponent with
  | .ofNat k => (mantissa <<< k, 1)
  | .negSucc k => (mantissa, 1 <<< (k + 1))

theorem ratio_den_pos (m : Nat) (e : Int) : 0 < (ratio m e).2 := by
  cases e with
  | ofNat k => exact Nat.one_pos
  | negSucc k =>
    rw [ratio, Nat.one_shiftLeft]
    exact Nat.two_pow_pos _

end Binary64

def roundHalfUp (num den : Nat) : Nat := (2 * num + den) / (2 * den)

def ceiling (num den : Nat) : Nat := (num + den - 1) / den

def nearestWhole (x : Float) : Float :=
  match Binary64.ofFloat x with
  | .finite negative m e =>
    let whole := (roundHalfUp (Binary64.ratio m e).1 (Binary64.ratio m e).2).toFloat
    if negative then -whole else whole
  | _ => x

def ceilingText (x : Float) : String :=
  match Binary64.ofFloat x with
  | .finite _ m e => toString (ceiling (Binary64.ratio m e).1 (Binary64.ratio m e).2)
  | .infinite _ => "inf"
  | .notANumber => "NaN"

/-- The place of a double in the total order of doubles: negative zero lies below zero, and what is no number
lies outside the infinities. -/
def orderKey (x : Float) : Int :=
  let bits := x.toBits.toNat
  if bits < 1 <<< 63 then bits else ((1 <<< 63 : Nat) : Int) - 1 - bits

def maxCount : Nat := UInt64.size - 1

/-- The nearest 64-bit counter value to a double: a half goes away from zero, what is too large stops at
the largest value, and what is negative or no number is zero. -/
def nearestCount (x : Float) : Nat :=
  match Binary64.ofFloat x with
  | .finite false m e => min (roundHalfUp (Binary64.ratio m e).1 (Binary64.ratio m e).2) maxCount
  | .infinite false => maxCount
  | _ => 0

end EncounterTimeline.Decimal

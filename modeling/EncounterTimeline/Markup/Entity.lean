import EncounterTimeline.Decimal.Numeral

/-! # Entities

Five characters are written as named entities, in text and in attribute values alike. Besides those names a
reference may give a code point in decimal or hexadecimal digits. Any other use of `&` is an error.
-/
namespace EncounterTimeline.Markup

def entityNames : List (Char × List Char) :=
  [('&', "amp".toList), ('<', "lt".toList), ('>', "gt".toList), ('\'', "apos".toList),
    ('"', "quot".toList)]

def escapeChar (c : Char) : List Char :=
  match entityNames.lookup c with
  | some name => '&' :: name ++ [';']
  | none => [c]

def escape (cs : List Char) : List Char := cs.flatMap escapeChar

def hexValue? (c : Char) : Option Nat :=
  if '0' ≤ c && c ≤ '9' then some (c.toNat - '0'.toNat)
  else if 'a' ≤ c && c ≤ 'f' then some (c.toNat - 'a'.toNat + 10)
  else if 'A' ≤ c && c ≤ 'F' then some (c.toNat - 'A'.toNat + 10)
  else none

def readHex (cs : List Char) : Option Nat :=
  if cs.isEmpty then none
  else cs.foldlM (fun n c => (hexValue? c).map (16 * n + ·)) 0

def readDecimal (cs : List Char) : Option Nat :=
  if cs.isEmpty || !cs.all Char.isDigit then none else some (Decimal.digitsValue cs)

def character? (code : Nat) : Option Char :=
  if code.isValidChar ∧ code ≠ 0 then some (Char.ofNat code) else none

def reference? (body : List Char) : Option Char :=
  match body with
  | '#' :: 'x' :: digits => (readHex digits).bind character?
  | '#' :: digits => (readDecimal digits).bind character?
  | name => (entityNames.find? fun p => p.2 == name).map Prod.fst

/-- Reads what is left of a text; `pending` is the open reference, its latest character first. -/
def unescapeFrom (pending : Option (List Char)) : List Char → Option (List Char)
  | [] => if pending.isNone then some [] else none
  | c :: r =>
    match pending with
    | none =>
      if c == '&' then unescapeFrom (some []) r else (unescapeFrom none r).map (c :: ·)
    | some body =>
      if c == ';' then
        (reference? body.reverse).bind fun x => (unescapeFrom none r).map (x :: ·)
      else if c == '&' then none
      else unescapeFrom (some (c :: body)) r

def unescape (cs : List Char) : Option (List Char) := unescapeFrom none cs

end EncounterTimeline.Markup

import EncounterTimeline.Settings.Token

/-! # Values of a settings file

The tree that the tokens of a settings file write. Keys and strings are kept as written; `unquote` gives the text
of one. Every value takes at least one token, so the number of tokens bounds the depth of the reading.
-/
namespace EncounterTimeline.SettingsFile

inductive Value where
  | null
  | truth (b : Bool)
  | number (negative integral : Bool) (n : Decimal.Numeral)
  | quoted (raw : List Char)
  | list (items : List Value)
  | object (members : List (List Char × Value))
  deriving Repr

mutual

def readValue : Nat → List Token → Option (Value × List Token)
  | _ + 1, .null :: r => some (.null, r)
  | _ + 1, .truth b :: r => some (.truth b, r)
  | _ + 1, .number negative integral m :: r => some (.number negative integral m, r)
  | _ + 1, .quoted raw :: r => some (.quoted raw, r)
  | _ + 1, .openList :: .closeList :: r => some (.list [], r)
  | n + 1, .openList :: r => (readItems n r).map fun (items, rest) => (.list items, rest)
  | _ + 1, .openObject :: .closeObject :: r => some (.object [], r)
  | n + 1, .openObject :: r => (readMembers n r).map fun (members, rest) => (.object members, rest)
  | _, _ => none

def readItems : Nat → List Token → Option (List Value × List Token)
  | 0, _ => none
  | n + 1, ts =>
    match readValue n ts with
    | some (v, .closeList :: rest) => some ([v], rest)
    | some (v, .comma :: rest) => (readItems n rest).map fun (items, rest) => (v :: items, rest)
    | _ => none

def readMembers : Nat → List Token → Option (List (List Char × Value) × List Token)
  | n + 1, .quoted key :: .colon :: ts =>
    match readValue n ts with
    | some (v, .closeObject :: rest) => some ([(key, v)], rest)
    | some (v, .comma :: rest) => (readMembers n rest).map fun (members, rest) => ((key, v) :: members, rest)
    | _ => none
  | _, _ => none

end

def parse (cs : List Char) : Option Value :=
  (tokens cs).bind fun ts =>
    match readValue (ts.length + 1) ts with
    | some (v, []) => some v
    | _ => none

def fourHex : List Char → Option Nat
  | [a, b, c, d] => Markup.readHex [a, b, c, d]
  | _ => none

def isTrailing (n : Nat) : Bool := 0xDC00 ≤ n && n ≤ 0xDFFF

def isLeading (n : Nat) : Bool := 0xD800 ≤ n && n ≤ 0xDBFF

/-- The text that a string writes; half a surrogate pair writes none. -/
def unquote : List Char → Option (List Char)
  | [] => some []
  | '\\' :: 'u' :: a :: b :: c :: d :: r =>
    (fourHex [a, b, c, d]).bind fun high =>
      if isLeading high then
        match r with
        | '\\' :: 'u' :: a :: b :: c :: d :: r =>
          (fourHex [a, b, c, d]).bind fun low =>
            if isTrailing low then
              (unquote r).map (Char.ofNat (0x10000 + 0x400 * (high - 0xD800) + (low - 0xDC00)) :: ·)
            else none
        | _ => none
      else if isTrailing high then none
      else (unquote r).map (Char.ofNat high :: ·)
  | '\\' :: c :: r => (escapeLetters.lookup c).bind fun x => (unquote r).map (x :: ·)
  | c :: r => (unquote r).map (c :: ·)

end EncounterTimeline.SettingsFile

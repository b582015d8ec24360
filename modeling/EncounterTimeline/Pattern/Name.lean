import EncounterTimeline.Text.Property
import EncounterTimeline.Text.Script

/-! # Named classes

The names that a pattern may give to a class of characters: ASCII classes inside brackets, and properties of
characters, which are compared without case, blanks, dashes and underscores.
-/
namespace EncounterTimeline.Pattern
open EncounterTimeline.Text

def asciiDigit : CharSet := ⟨[⟨0x30, 0x39⟩]⟩

def asciiSpace : CharSet := ⟨[⟨0x09, 0x0D⟩, ⟨0x20, 0x20⟩]⟩

def asciiWord : CharSet := ⟨[⟨0x30, 0x39⟩, ⟨0x41, 0x5A⟩, ⟨0x5F, 0x5F⟩, ⟨0x61, 0x7A⟩]⟩

def asciiClass? (name : String) : Option CharSet :=
  match name with
  | "alnum" => some ⟨[⟨0x30, 0x39⟩, ⟨0x41, 0x5A⟩, ⟨0x61, 0x7A⟩]⟩
  | "alpha" => some ⟨[⟨0x41, 0x5A⟩, ⟨0x61, 0x7A⟩]⟩
  | "ascii" => some ⟨[⟨0, 0x7F⟩]⟩
  | "blank" => some ⟨[⟨0x09, 0x09⟩, ⟨0x20, 0x20⟩]⟩
  | "cntrl" => some ⟨[⟨0, 0x1F⟩, ⟨0x7F, 0x7F⟩]⟩
  | "digit" => some asciiDigit
  | "graph" => some ⟨[⟨0x21, 0x7E⟩]⟩
  | "lower" => some ⟨[⟨0x61, 0x7A⟩]⟩
  | "print" => some ⟨[⟨0x20, 0x7E⟩]⟩
  | "punct" => some ⟨[⟨0x21, 0x2F⟩, ⟨0x3A, 0x40⟩, ⟨0x5B, 0x60⟩, ⟨0x7B, 0x7E⟩]⟩
  | "space" => some asciiSpace
  | "upper" => some ⟨[⟨0x41, 0x5A⟩]⟩
  | "word" => some asciiWord
  | "xdigit" => some ⟨[⟨0x30, 0x39⟩, ⟨0x41, 0x46⟩, ⟨0x61, 0x66⟩]⟩
  | _ => none

private def plainName (cs : List Char) : String :=
  String.ofList ((cs.filter fun c =>
    c.toNat < 0x80 && c != ' ' && c != '-' && c != '_').map Char.toLower)

/-- The form in which names are compared. A leading `is` does not count, except in the one name where it is
part of an abbreviation. -/
def comparedName (cs : List Char) : String :=
  match cs with
  | a :: b :: rest =>
    if a.toLower == 'i' && b.toLower == 's' then
      let name := plainName rest
      if name == "c" then "isc" else name
    else plainName cs
  | _ => plainName cs

/-- The class that a single name stands for. Three abbreviations of categories are also abbreviations of
properties; the category wins. -/
private def single? (name : String) : Option CharSet :=
  let property := if name == "cf" || name == "sc" || name == "lc" then none else Property.named? name
  property.or ((Category.named? name).or (Script.named? name))

private def valued? (property value : String) : Option CharSet :=
  match property with
  | "gc" | "generalcategory" => Category.named? value
  | "sc" | "script" => Script.named? value
  | "scx" | "scriptextensions" => Script.extended? value
  | _ => none

private def splitAt? (mark : Char) (cs : List Char) : Option (List Char × List Char) :=
  match cs.dropWhile (· != mark) with
  | [] => none
  | _ :: after => some (cs.takeWhile (· != mark), after)

private def splitUnequal? : List Char → Option (List Char × List Char)
  | [] => none
  | '!' :: '=' :: rest => some ([], rest)
  | c :: rest => (splitUnequal? rest).map fun (before, after) => (c :: before, after)

def property? (cs : List Char) : Option (CharSet × Bool) :=
  match splitUnequal? cs with
  | some (p, v) => (valued? (comparedName p) (comparedName v)).map (·, true)
  | none =>
    match (splitAt? ':' cs).or (splitAt? '=' cs) with
    | some (p, v) => (valued? (comparedName p) (comparedName v)).map (·, false)
    | none => (single? (comparedName cs)).map (·, false)

end EncounterTimeline.Pattern

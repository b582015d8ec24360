/-! # White space

The characters that count as white space at the edges of a time, a locale or a log line: the Unicode
property `White_Space`, which is wider than the ASCII blanks.
-/
namespace EncounterTimeline.Text

def isBlank (c : Char) : Bool :=
  let n := c.toNat
  (9 ≤ n && n ≤ 13) || n == 0x20 || n == 0x85 || n == 0xA0 || n == 0x1680 ||
    (0x2000 ≤ n && n ≤ 0x200A) || n == 0x2028 || n == 0x2029 || n == 0x202F || n == 0x205F ||
    n == 0x3000

def trimBoth (p : Char → Bool) (cs : List Char) : List Char :=
  ((cs.dropWhile p).reverse.dropWhile p).reverse

def trim (s : String) : String :=
  String.ofList (trimBoth isBlank s.toList)

def blank (s : String) : Bool := s.toList.all isBlank

end EncounterTimeline.Text

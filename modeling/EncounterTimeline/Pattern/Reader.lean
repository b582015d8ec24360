import EncounterTimeline.Pattern.Name
import EncounterTimeline.Pattern.Tree
import EncounterTimeline.Text.Blank

/-! # Reading patterns

From text to tree, one construct at a time over an explicit stack of open groups. A text that breaks a rule
of the notation has no tree. In verbose reading white space and comments between constructs do not count.
-/
namespace EncounterTimeline.Pattern
open EncounterTimeline.Text

private def skipFrom : Bool → List Char → List Char
  | _, [] => []
  | true, c :: cs => skipFrom (c != '\n') cs
  | false, c :: cs =>
    if isBlank c then skipFrom false cs
    else if c == '#' then skipFrom true cs
    else c :: cs

def skip (verbose : Bool) (cs : List Char) : List Char :=
  if verbose then skipFrom false cs else cs

def isMeta (c : Char) : Bool := "\\.+*?()|[]\x7b\x7d^$#&-~".toList.contains c

def isEscapable (c : Char) : Bool :=
  isMeta c || (c.toNat < 0x80 && !c.isAlphanum && c != '<' && c != '>')

private def hexValue? (c : Char) : Option Nat :=
  if c.isDigit then some (c.toNat - 48)
  else if 'a' ≤ c && c ≤ 'f' then some (c.toNat - 87)
  else if 'A' ≤ c && c ≤ 'F' then some (c.toNat - 55)
  else none

def charOfCode? (n : Nat) : Option Char :=
  if n.isValidChar then some (Char.ofNat n) else none

private def readHexDigits (verbose : Bool) : Nat → Nat → List Char → Option (Char × List Char)
  | 0, code, cs => (charOfCode? code).map (·, cs)
  | _ + 1, _, [] => none
  | count + 1, code, c :: cs =>
    (hexValue? c).bind fun d => readHexDigits verbose count (16 * code + d) (skip verbose cs)

private def readHexBraced (verbose : Bool) : Nat → List Nat → List Char → Option (Char × List Char)
  | 0, _, _ => none
  | _ + 1, _, [] => none
  | fuel + 1, digits, c :: cs =>
    if c == '\x7d' then
      if digits.isEmpty then none
      else (charOfCode? (digits.reverse.foldl (fun n d => 16 * n + d) 0)).map (·, skip verbose cs)
    else (hexValue? c).bind fun d => readHexBraced verbose fuel (d :: digits) (skip verbose cs)

inductive Escaped where
  | atom (a : Atom)
  | mark (m : Mark)

private def readHex (verbose : Bool) (count : Nat) (cs : List Char) : Option (Escaped × List Char) :=
  match skip verbose cs with
  | [] => none
  | '\x7b' :: rest =>
    (readHexBraced verbose (rest.length + 1) [] (skip verbose rest)).map fun (c, cs) =>
      (.atom (.char c false), cs)
  | rest => (readHexDigits verbose count 0 rest).map fun (c, cs) => (.atom (.char c (count == 2)), cs)

private def readBraced (verbose : Bool) : Nat → List Char → List Char → Option (List Char × List Char)
  | 0, _, _ => none
  | _ + 1, _, [] => none
  | fuel + 1, name, c :: cs =>
    if c == '\x7d' then some (name.reverse, cs)
    else readBraced verbose fuel (c :: name) (skip verbose cs)

private def readProperty (verbose negated : Bool) (cs : List Char) : Option (Escaped × List Char) :=
  match skip verbose cs with
  | [] => none
  | '\x7b' :: rest => do
    let (name, after) ← readBraced verbose (rest.length + 1) [] (skip verbose rest)
    let (set, flipped) ← property? name
    pure (.atom (.property set (negated != flipped)), after)
  | c :: rest =>
    if c == '\\' then none
    else (property? [c]).map fun (set, _) => (.atom (.property set negated), skip verbose rest)

private def isBoundaryLetter (c : Char) : Bool := c.isAlpha || c == '-'

private def readBoundaryName (verbose : Bool) :
    Nat → List Char → List Char → List Char × List Char
  | 0, name, cs => (name.reverse, cs)
  | _ + 1, name, [] => (name.reverse, [])
  | fuel + 1, name, c :: cs =>
    if isBoundaryLetter c then readBoundaryName verbose fuel (c :: name) (skip verbose cs)
    else (name.reverse, c :: cs)

/-- A word boundary, which a name in braces may narrow. Braces that do not start with a letter belong to a
repetition. -/
private def readBoundary (verbose : Bool) (cs : List Char) : Option (Escaped × List Char) :=
  match cs with
  | '\x7b' :: rest =>
    match skip verbose rest with
    | [] => none
    | c :: inner =>
      if isBoundaryLetter c then
        match readBoundaryName verbose (rest.length + 1) [] (c :: inner) with
        | (name, '\x7d' :: after) =>
          match String.ofList name with
          | "start" => some (.mark .wordStart, after)
          | "end" => some (.mark .wordEnd, after)
          | "start-half" => some (.mark .wordStartHalf, after)
          | "end-half" => some (.mark .wordEndHalf, after)
          | _ => none
        | _ => none
      else some (.mark .boundary, cs)
  | _ => some (.mark .boundary, cs)

def readEscape (verbose : Bool) : List Char → Option (Escaped × List Char)
  | [] => none
  | c :: cs =>
    match c with
    | 'x' => readHex verbose 2 cs
    | 'u' => readHex verbose 4 cs
    | 'U' => readHex verbose 8 cs
    | 'p' => readProperty verbose false cs
    | 'P' => readProperty verbose true cs
    | 'd' => some (.atom (.digit false), cs)
    | 'D' => some (.atom (.digit true), cs)
    | 's' => some (.atom (.space false), cs)
    | 'S' => some (.atom (.space true), cs)
    | 'w' => some (.atom (.word false), cs)
    | 'W' => some (.atom (.word true), cs)
    | 'a' => some (.atom (.char '\x07' false), cs)
    | 'f' => some (.atom (.char '\x0c' false), cs)
    | 't' => some (.atom (.char '\t' false), cs)
    | 'n' => some (.atom (.char '\n' false), cs)
    | 'r' => some (.atom (.char '\r' false), cs)
    | 'v' => some (.atom (.char '\x0b' false), cs)
    | 'A' => some (.mark .textStart, cs)
    | 'z' => some (.mark .textEnd, cs)
    | 'b' => readBoundary verbose cs
    | 'B' => some (.mark .noBoundary, cs)
    | '<' => some (.mark .wordStart, cs)
    | '>' => some (.mark .wordEnd, cs)
    | _ => if isEscapable c then some (.atom (.char c false), cs) else none

private def readMember (verbose : Bool) : List Char → Option (Atom × List Char)
  | [] => none
  | '\\' :: cs =>
    match readEscape verbose cs with
    | some (.atom a, rest) => some (a, rest)
    | _ => none
  | c :: cs => some (.char c false, cs)

private def afterDash (verbose : Bool) (cs : List Char) : Option Char :=
  if verbose then (cs.dropWhile isBlank).head? else cs.head?

private def readRange (verbose : Bool) (cs : List Char) : Option (ClassTree × List Char) := do
  let (first, rest) ← readMember verbose cs
  match skip verbose rest with
  | [] => none
  | '-' :: after =>
    let next := afterDash verbose after
    if next == some ']' || next == some '-' then pure (.atom first, '-' :: after)
    else
      let (last, rest) ← readMember verbose (skip verbose after)
      match first, last with
      | .char low _, .char high _ => if low ≤ high then pure (.range low high, rest) else none
      | _, _ => none
  | rest => pure (.atom first, rest)

private def readAscii? (cs : List Char) : Option (ClassTree × List Char) :=
  match cs with
  | '[' :: ':' :: rest =>
    let (negated, rest) := match rest with
      | '^' :: rest => (true, rest)
      | rest => (false, rest)
    match rest.dropWhile (· != ':') with
    | ':' :: ']' :: after =>
      (asciiClass? (String.ofList (rest.takeWhile (· != ':')))).map fun set =>
        (.atom (.ascii set negated), after)
    | _ => none
  | _ => none

private def readDashes (verbose : Bool) :
    Nat → List ClassTree → List Char → List ClassTree × List Char
  | fuel + 1, items, '-' :: rest =>
    readDashes verbose fuel (ClassTree.atom (.char '-' false) :: items) (skip verbose rest)
  | _, items, cs => (items, cs)

/-- What an opening bracket may be followed by before its first ordinary member: a negation, then dashes, or
one closing bracket, that stand for themselves. -/
private def openBracket (verbose : Bool) (cs : List Char) : Option (Bool × List ClassTree × List Char) := do
  let cs := skip verbose cs
  let (negated, cs) := match cs with
    | '^' :: rest => (true, skip verbose rest)
    | cs => (false, cs)
  let (items, cs) := readDashes verbose (cs.length + 1) [] cs
  let (items, cs) := match items, cs with
    | [], ']' :: rest => ([ClassTree.atom (.char ']' false)], skip verbose rest)
    | items, cs => (items, cs)
  if cs.isEmpty then none else pure (negated, items, cs)

private def combineWith : Option (SetOp × ClassTree) → ClassTree → ClassTree
  | none, t => t
  | some (op, left), t => .combine op left t

private def readMembers (verbose : Bool) : Nat → List ClassTree → Option (SetOp × ClassTree) →
    List Char → Option (ClassTree × List Char)
  | 0, _, _, _ => none
  | fuel + 1, items, pending, cs =>
    let operate (op : SetOp) (rest : List Char) :=
      readMembers verbose fuel [] (some (op, combineWith pending (.ofItems items.reverse))) rest
    match skip verbose cs with
    | [] => none
    | ']' :: rest => some (combineWith pending (.ofItems items.reverse), rest)
    | '&' :: '&' :: rest => operate .intersection rest
    | '-' :: '-' :: rest => operate .difference rest
    | '~' :: '~' :: rest => operate .symmetricDifference rest
    | '[' :: rest =>
      match readAscii? ('[' :: rest) with
      | some (t, after) => readMembers verbose fuel (t :: items) pending after
      | none => do
        let (negated, inner, rest) ← openBracket verbose rest
        let (body, after) ← readMembers verbose fuel inner none rest
        readMembers verbose fuel (.bracket negated body :: items) pending after
    | cs => do
      let (t, after) ← readRange verbose cs
      readMembers verbose fuel (t :: items) pending after

private def readBracket (verbose : Bool) (cs : List Char) : Option (Tree × List Char) := do
  let (negated, items, rest) ← openBracket verbose cs
  let (body, after) ← readMembers verbose (cs.length + 1) items none rest
  pure (.bracket negated body, after)

private def switch? (c : Char) : Option Switch :=
  match c with
  | 'i' => some .caseless
  | 'm' => some .multiLine
  | 's' => some .dotAll
  | 'U' => some .swapGreed
  | 'u' => some .unicode
  | 'R' => some .carriage
  | 'x' => some .verbose
  | _ => none

/-- The switches up to `:` or `)`. Each may occur once, and so may the dash, which must have one after it. -/
private def readSettings : List Char → Bool → List Setting → Option (List Setting × List Char)
  | [], _, _ => none
  | c :: cs, on, settings =>
    if c == ':' || c == ')' then some (settings.reverse, c :: cs)
    else if c == '-' then
      match cs with
      | [] => none
      | d :: _ => if !on || d == ':' || d == ')' then none else readSettings cs false settings
    else
      match switch? c with
      | none => none
      | some s =>
        if settings.any fun x => x.switch == s then none
        else readSettings cs on (⟨s, on⟩ :: settings)

private def isNameChar (first : Bool) (c : Char) : Bool :=
  let letter := c == '_' || Property.alphabetic.contains c
  if first then letter
  else letter || c == '.' || c == '[' || c == ']' || (Category.charsOf Category.numbers).contains c

private def readName (cs : List Char) : Option (String × List Char) :=
  match cs.takeWhile (· != '>'), cs.dropWhile (· != '>') with
  | first :: others, '>' :: rest =>
    if isNameChar true first && others.all (isNameChar false) then
      some (String.ofList (first :: others), rest)
    else none
  | _, _ => none

private inductive Opening where
  | capture (name : Option String)
  | scope (settings : List Setting)

/-- An open group: how it was opened, what precedes it in the group around it, latest first, and whether
that group is read verbosely. -/
private structure Level where
  opening : Opening
  items : List Tree
  branches : List Tree
  verbose : Bool

/-- The reading of a pattern: the groups that are open, the current one's items and finished branches, latest
first, the names given so far, and the text still to read. -/
private structure State where
  stack : List Level
  items : List Tree
  branches : List Tree
  names : List String
  verbose : Bool
  rest : List Char

private def State.content (s : State) : Tree :=
  match s.branches with
  | [] => .ofItems s.items.reverse
  | branches => .choice (Tree.ofItems s.items.reverse :: branches).reverse

private def State.push (s : State) (t : Tree) (rest : List Char) : State :=
  { s with items := t :: s.items, rest := rest }

private def State.enter (s : State) (opening : Opening) (verbose : Bool) (rest : List Char) : State :=
  { s with
    stack := ⟨opening, s.items, s.branches, s.verbose⟩ :: s.stack
    items := [], branches := [], verbose := verbose, rest := rest }

private def verboseAfter (verbose : Bool) (settings : List Setting) : Bool :=
  (settings.filter fun x => x.switch == .verbose).foldl (fun _ x => x.on) verbose

/-- An opening parenthesis: a name, switches for the rest, a group with switches, or a plain group. Groups
that look around are not part of the notation. -/
private def State.openGroup (s : State) (cs : List Char) : Option State :=
  let named (cs : List Char) : Option State := do
    let (name, rest) ← readName cs
    if s.names.contains name then none
    else pure { s.enter (.capture (some name)) s.verbose rest with names := name :: s.names }
  match skip s.verbose cs with
  | '?' :: '=' :: _ | '?' :: '!' :: _ => none
  | '?' :: '<' :: '=' :: _ | '?' :: '<' :: '!' :: _ => none
  | '?' :: 'P' :: '<' :: rest => named rest
  | '?' :: '<' :: rest => named rest
  | '?' :: rest => do
    let (settings, after) ← readSettings rest true []
    match after with
    | ')' :: after =>
      if settings.isEmpty then none
      else
        pure { s.push (.switches settings) after with verbose := verboseAfter s.verbose settings }
    | _ :: after => pure (s.enter (.scope settings) (verboseAfter s.verbose settings) after)
    | [] => none
  | rest => pure (s.enter (.capture none) s.verbose rest)

private def State.closeGroup (s : State) (cs : List Char) : Option State :=
  match s.stack with
  | [] => none
  | level :: stack =>
    let body := s.content
    let group := match level.opening with
      | .capture name => Tree.capture name body
      | .scope settings => Tree.scope settings body
    some { s with
      stack := stack, items := group :: level.items, branches := level.branches
      verbose := level.verbose, rest := cs }

private def State.repeatLast (s : State) (least : Nat) (most : Option Nat) (cs : List Char) :
    Option State :=
  let (greedy, rest) := match cs with
    | '?' :: rest => (false, rest)
    | rest => (true, rest)
  match s.items with
  | [] | .switches _ :: _ => none
  | t :: items => some { s with items := .repetition least most greedy t :: items, rest := rest }

private def readDigits (verbose : Bool) : Nat → List Char → List Char → List Char × List Char
  | fuel + 1, found, c :: cs =>
    if c.isDigit then readDigits verbose fuel (c :: found) (skip verbose cs) else (found, c :: cs)
  | _, found, cs => (found, cs)

private def readCount (verbose : Bool) (cs : List Char) : Option (Nat × List Char) :=
  let start := cs.dropWhile isBlank
  let (found, rest) := readDigits verbose (start.length + 1) [] start
  let value := found.reverse.foldl (fun n c => 10 * n + (c.toNat - 48)) 0
  if found.isEmpty || value ≥ UInt32.size then none else some (value, rest.dropWhile isBlank)

private def State.repeatCounted (s : State) (cs : List Char) : Option State := do
  let (least, rest) ← readCount s.verbose (skip s.verbose cs)
  match rest with
  | '\x7d' :: after => s.repeatLast least (some least) (skip s.verbose after)
  | ',' :: after =>
    match skip s.verbose after with
    | '\x7d' :: after => s.repeatLast least none (skip s.verbose after)
    | after =>
      let (most, rest) ← readCount s.verbose after
      match rest with
      | '\x7d' :: after =>
        if least ≤ most then s.repeatLast least (some most) (skip s.verbose after) else none
      | _ => none
  | _ => none

private def State.next (s : State) : Option State :=
  match s.rest with
  | [] => some s
  | '(' :: cs => s.openGroup cs
  | ')' :: cs => s.closeGroup cs
  | '|' :: cs =>
    some { s with branches := Tree.ofItems s.items.reverse :: s.branches, items := [], rest := cs }
  | '[' :: cs => (readBracket s.verbose cs).map fun (t, rest) => s.push t rest
  | '?' :: cs => s.repeatLast 0 (some 1) cs
  | '*' :: cs => s.repeatLast 0 none cs
  | '+' :: cs => s.repeatLast 1 none cs
  | '\x7b' :: cs => s.repeatCounted cs
  | '\\' :: cs =>
    (readEscape s.verbose cs).map fun (e, rest) =>
      match e with
      | .atom a => s.push (.atom a) rest
      | .mark m => s.push (.mark m) rest
  | '.' :: cs => some (s.push .dot cs)
  | '^' :: cs => some (s.push (.mark .lineStart) cs)
  | '$' :: cs => some (s.push (.mark .lineEnd) cs)
  | c :: cs => some (s.push (.atom (.char c false)) cs)

private def State.run : Nat → State → Option State
  | 0, _ => none
  | fuel + 1, s =>
    let s := { s with rest := skip s.verbose s.rest }
    if s.rest.isEmpty then some s else s.next.bind (State.run fuel)

def depthLimit : Nat := 250

def Tree.read? (source : String) : Option Tree := do
  let cs := source.toList
  let s ← State.run (cs.length + 1) ⟨[], [], [], [], false, cs⟩
  let tree := s.content
  if s.stack.isEmpty && tree.depth ≤ depthLimit then pure tree else none

end EncounterTimeline.Pattern

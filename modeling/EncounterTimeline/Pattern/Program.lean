import EncounterTimeline.Pattern.Extent
import EncounterTimeline.Pattern.Reader

/-! # Matching programs

A pattern compiles to a list of instructions. All ways through it advance over a line together, in order of
preference, and at each place an instruction is followed at most once, so a match takes time proportional to
program and line. Earlier starts win, then preferred choices.
-/
namespace EncounterTimeline.Pattern
open EncounterTimeline.Text

inductive Inst where
  | take (set : CharSet)
  | check (l : Look)
  | save (slot : Nat)
  | split (preferred other : Nat)
  | jump (target : Nat)
  | accept
  deriving Repr

private def forkTo (greedy : Bool) (body skip : Nat) : Inst :=
  if greedy then .split body skip else .split skip body

private def copies (block : Nat → List Inst) : Nat → Nat → List Inst
  | 0, _ => []
  | n + 1, start =>
    let code := block start
    code ++ copies block n (start + code.length)

private def optionals (greedy : Bool) (block : Nat → List Inst) (finish : Nat) : Nat → Nat → List Inst
  | 0, _ => []
  | n + 1, start =>
    let code := block (start + 1)
    forkTo greedy (start + 1) finish :: code ++
      optionals greedy block finish n (start + 1 + code.length)

private def loop (greedy : Bool) (block : Nat → List Inst) (start : Nat) : List Inst :=
  let code := block start
  code ++ [forkTo greedy start (start + code.length + 1)]

/-- The instructions of a node that stand at `start`; they end by running on to the next address. A loop over
what may match emptily is an optional one-or-more, so that its preferences stay in order. -/
def Node.code (names : List String) : Node → Nat → List Inst
  | .empty, _ => []
  | .chars set, _ => [.take set]
  | .look l, _ => [.check l]
  | .capture none body, start => body.code names start
  | .capture (some name) body, start =>
    let slot := 2 * names.idxOf name
    .save slot :: body.code names (start + 1) ++ [.save (slot + 1)]
  | .repetition least most greedy body, start =>
    let block := body.code names
    match least, most with
    | 0, none =>
      if body.consumes then
        let code := block (start + 1)
        forkTo greedy (start + 1) (start + code.length + 2) :: code ++ [.jump start]
      else
        let code := loop greedy block (start + 1)
        forkTo greedy (start + 1) (start + code.length + 1) :: code
    | n + 1, none =>
      let front := copies block n start
      front ++ loop greedy block (start + front.length)
    | n, some m =>
      let front := copies block n start
      let here := start + front.length
      let width := (block 0).length + 1
      front ++ optionals greedy block (here + (m - n) * width) (m - n) here
  | .sequence items, start => inOrder items start
  | .choice branches, start => branching branches start
where
  inOrder : List Node → Nat → List Inst
    | [], _ => []
    | n :: ns, start =>
      let code := n.code names start
      code ++ inOrder ns (start + code.length)
  branching : List Node → Nat → List Inst
    | [], _ => []
    | [n], start => n.code names start
    | n :: ns, start =>
      let code := n.code names (start + 1)
      let other := start + 1 + code.length + 1
      let rest := branching ns other
      .split (start + 1) other :: code ++ .jump (other + rest.length) :: rest

def Node.names : Node → List String
  | .empty | .chars _ | .look _ => []
  | .capture name body => name.toList ++ body.names
  | .repetition _ _ _ body => body.names
  | .sequence items | .choice items => all items
where
  all : List Node → List String
    | [] => []
    | n :: ns => n.names ++ all ns

structure Program where
  code : Array Inst
  names : List String

def Program.ofNode (n : Node) : Program :=
  ⟨(n.code n.names 0 ++ [Inst.accept]).toArray, n.names⟩

/-- The program of a pattern's text, unless the text breaks the notation, means something other than whole
characters, or is too large. -/
def compile (source : String) : Option Program := do
  let tree ← Tree.read? source
  let (node, _) ← tree.resolve {}
  if node.fits then pure (Program.ofNode node) else none

structure Place where
  index : Nat
  before : Option Char
  after : Option Char

private def isWordChar (unicode : Bool) (c : Option Char) : Bool :=
  c.any (if unicode then Property.word else asciiWord).contains

def Look.holds (l : Look) (p : Place) : Bool :=
  match l with
  | .start => p.before.isNone
  | .finish => p.after.isNone
  | .lineStart => p.before.isNone || p.before == some '\n'
  | .lineEnd => p.after.isNone || p.after == some '\n'
  | .carriageLineStart =>
    p.before.isNone || p.before == some '\n' || (p.before == some '\r' && p.after != some '\n')
  | .carriageLineEnd =>
    p.after.isNone || p.after == some '\r' || (p.after == some '\n' && p.before != some '\r')
  | .boundary u => isWordChar u p.before != isWordChar u p.after
  | .noBoundary u => isWordChar u p.before == isWordChar u p.after
  | .wordStart u => !isWordChar u p.before && isWordChar u p.after
  | .wordEnd u => isWordChar u p.before && !isWordChar u p.after
  | .wordStartHalf u => !isWordChar u p.before
  | .wordEndHalf u => !isWordChar u p.after

abbrev Slots := Array (Option Nat)

structure Thread where
  address : Nat
  slots : Slots

structure Front where
  seen : Array Bool
  threads : List Thread

/-- Follows threads, the preferred first, up to instructions that take a character or accept. Each
instruction is followed once and pushes at most two more, which bounds the fuel. -/
private def follow (code : Array Inst) (p : Place) : Nat → List Thread → Front → Front
  | 0, _, front => front
  | _ + 1, [], front => front
  | fuel + 1, t :: rest, front =>
    if front.seen.getD t.address true then follow code p fuel rest front
    else
      let ⟨seen, threads⟩ := front
      let seen := seen.setIfInBounds t.address true
      match code[t.address]? with
      | some (.split a b) =>
        follow code p fuel ({ t with address := a } :: { t with address := b } :: rest) ⟨seen, threads⟩
      | some (.jump a) => follow code p fuel ({ t with address := a } :: rest) ⟨seen, threads⟩
      | some (.check l) =>
        if l.holds p then
          follow code p fuel ({ t with address := t.address + 1 } :: rest) ⟨seen, threads⟩
        else follow code p fuel rest ⟨seen, threads⟩
      | some (.save slot) =>
        let slots := t.slots.setIfInBounds slot (some p.index)
        follow code p fuel (⟨t.address + 1, slots⟩ :: rest) ⟨seen, threads⟩
      | _ => follow code p fuel rest ⟨seen, t :: threads⟩

private def launch (code : Array Inst) (p : Place) (front : Front) (t : Thread) : Front :=
  follow code p (2 * code.size + 2) [t] front

private def emptyFront (code : Array Inst) : Front := ⟨Array.replicate code.size false, []⟩

private def advance (code : Array Inst) (next : Place) (c : Char) :
    List Thread → Front → Front × Option Slots
  | [], front => (front, none)
  | t :: rest, front =>
    match code[t.address]? with
    | some .accept => (front, some t.slots)
    | some (.take set) =>
      if set.contains c then
        advance code next c rest (launch code next front { t with address := t.address + 1 })
      else advance code next c rest front
    | _ => advance code next c rest front

private def accepted (code : Array Inst) (threads : List Thread) : Option Slots :=
  threads.findSome? fun t =>
    match code[t.address]? with
    | some .accept => some t.slots
    | _ => none

/-- Runs over the rest of a line. While nothing has matched a new thread starts at each place, behind all
others. -/
private def search (program : Program) : List Char → Nat → Option Char → Front → Option Slots → Option Slots
  | cs, index, before, front, found =>
    let code := program.code
    let here : Place := ⟨index, before, cs.head?⟩
    let start : Thread := ⟨0, Array.replicate (2 * program.names.length) none⟩
    let front := if found.isNone then launch code here front start else front
    match cs with
    | [] => (accepted code front.threads.reverse).or found
    | c :: rest =>
      if front.threads.isEmpty && found.isSome then found
      else
        let next : Place := ⟨index + 1, some c, rest.head?⟩
        let (front, ended) := advance code next c front.threads.reverse (emptyFront code)
        search program rest (index + 1) (some c) front (ended.or found)

def Program.find (program : Program) (line : List Char) : Option Slots :=
  search program line 0 none (emptyFront program.code) none

def Program.isMatch (program : Program) (line : String) : Bool :=
  (program.find line.toList).isSome

private def groupText (line : List Char) (slots : Slots) (i : Nat) : Option String :=
  match slots.getD (2 * i) none, slots.getD (2 * i + 1) none with
  | some a, some b => some (String.ofList ((line.drop a).take (b - a)))
  | _, _ => none

def Program.captures (program : Program) (line : String) : Option (List (String × String)) :=
  let cs := line.toList
  (program.find cs).map fun slots =>
    let named := program.names.mapIdx fun i name => (groupText cs slots i).map fun text => (name, text)
    (named.filterMap id).mergeSort fun a b => a.1 ≤ b.1

end EncounterTimeline.Pattern

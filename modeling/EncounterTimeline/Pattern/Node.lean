import EncounterTimeline.Pattern.Name
import EncounterTimeline.Pattern.Tree
import EncounterTimeline.Text.Fold

/-! # What patterns mean

A pattern with its switches applied: sets of characters, conditions on places, and their combinations. A
pattern whose switches allow it to match something other than whole characters has no meaning.
-/
namespace EncounterTimeline.Pattern
open EncounterTimeline.Text

inductive Look where
  | start | finish
  | lineStart | lineEnd
  | carriageLineStart | carriageLineEnd
  | boundary (unicode : Bool) | noBoundary (unicode : Bool)
  | wordStart (unicode : Bool) | wordEnd (unicode : Bool)
  | wordStartHalf (unicode : Bool) | wordEndHalf (unicode : Bool)
  deriving DecidableEq, Repr

inductive Node where
  | empty
  | chars (set : CharSet)
  | look (l : Look)
  | capture (name : Option String) (body : Node)
  | repetition (least : Nat) (most : Option Nat) (greedy : Bool) (body : Node)
  | sequence (items : List Node)
  | choice (branches : List Node)
  deriving Repr

structure Switches where
  caseless : Bool := true
  multiLine : Bool := false
  dotAll : Bool := false
  swapGreed : Bool := false
  unicode : Bool := true
  carriage : Bool := false
  deriving DecidableEq, Repr

namespace Switches

def set (s : Switches) (x : Setting) : Switches :=
  match x.switch with
  | .caseless => { s with caseless := x.on }
  | .multiLine => { s with multiLine := x.on }
  | .dotAll => { s with dotAll := x.on }
  | .swapGreed => { s with swapGreed := x.on }
  | .unicode => { s with unicode := x.on }
  | .carriage => { s with carriage := x.on }
  | .verbose => s

def apply (s : Switches) (settings : List Setting) : Switches := settings.foldl set s

end Switches

private def asciiClose (s : CharSet) : CharSet :=
  let upper := s.inter (CharSet.between 'A' 'Z')
  let lower := s.inter (CharSet.between 'a' 'z')
  CharSet.unions [s, ⟨upper.ranges.map fun r => ⟨r.low + 32, r.high + 32⟩⟩,
    ⟨lower.ranges.map fun r => ⟨r.low - 32, r.high - 32⟩⟩]

namespace Switches

def close (s : Switches) (set : CharSet) : CharSet :=
  if !s.caseless then set else if s.unicode then Fold.close set else asciiClose set

def complement (s : Switches) (negated : Bool) (set : CharSet) : Option CharSet :=
  if !negated then some set else if s.unicode then some set.complement else none

def member (s : Switches) : Atom → Option CharSet
  | .char c _ => if s.unicode || c.toNat < 0x80 then some (CharSet.single c) else none
  | .digit negated => s.complement negated (if s.unicode then Property.digit else asciiDigit)
  | .space negated => s.complement negated (if s.unicode then Property.whiteSpace else asciiSpace)
  | .word negated => s.complement negated (if s.unicode then Property.word else asciiWord)
  | .ascii set negated => s.complement negated (s.close set)
  | .property set negated => if s.unicode then s.complement negated (s.close set) else none

def atom (s : Switches) : Atom → Option CharSet
  | .char c byte =>
    if s.unicode then some (if s.caseless then Fold.ofChar c else CharSet.single c)
    else if c.toNat < 0x80 then some (s.close (CharSet.single c))
    else if byte then none
    else some (CharSet.single c)
  | a => s.member a

/-- The members of a bracketed class. Case is closed off at each bracket and on both sides of an operation,
and a bracket is negated after that. -/
def members (s : Switches) : ClassTree → Option CharSet
  | .nothing => some CharSet.empty
  | .atom a => s.member a
  | .range low high =>
    if s.unicode || high.toNat < 0x80 then some (CharSet.between low high) else none
  | .union items => (all items).map CharSet.unions
  | .bracket negated body => (s.members body).bind fun set => s.complement negated (s.close set)
  | .combine op left right => do
    let l := s.close (← s.members left)
    let r := s.close (← s.members right)
    match op with
    | .intersection => pure (l.inter r)
    | .difference => pure (l.diff r)
    | .symmetricDifference => pure (l.symmDiff r)
where
  all : List ClassTree → Option (List CharSet)
    | [] => some []
    | t :: ts => do
      let set ← s.members t
      let sets ← all ts
      pure (set :: sets)

def dot (s : Switches) : Option CharSet :=
  if !s.unicode then none
  else if s.dotAll then some CharSet.empty.complement
  else if s.carriage then some (CharSet.complement ⟨[⟨0x0A, 0x0A⟩, ⟨0x0D, 0x0D⟩]⟩)
  else some (CharSet.complement ⟨[⟨0x0A, 0x0A⟩]⟩)

def mark (s : Switches) : Mark → Look
  | .lineStart =>
    if !s.multiLine then .start else if s.carriage then .carriageLineStart else .lineStart
  | .lineEnd =>
    if !s.multiLine then .finish else if s.carriage then .carriageLineEnd else .lineEnd
  | .textStart => .start
  | .textEnd => .finish
  | .boundary => .boundary s.unicode
  | .noBoundary => .noBoundary s.unicode
  | .wordStart => .wordStart s.unicode
  | .wordEnd => .wordEnd s.unicode
  | .wordStartHalf => .wordStartHalf s.unicode
  | .wordEndHalf => .wordEndHalf s.unicode

end Switches

namespace Node

def onlyEmpty : Node → Bool
  | .empty | .look _ => true
  | .chars _ => false
  | .capture _ body => body.onlyEmpty
  | .repetition _ most _ body => most == some 0 || body.onlyEmpty
  | .sequence items | .choice items => all items
where
  all : List Node → Bool
    | [] => true
    | n :: ns => n.onlyEmpty && all ns

def consumes : Node → Bool
  | .empty | .look _ => false
  | .chars set => !set.isEmpty
  | .capture _ body => body.consumes
  | .repetition least _ _ body => 0 < least && body.consumes
  | .sequence items => any items
  | .choice branches => all branches
where
  any : List Node → Bool
    | [] => false
    | n :: ns => n.consumes || any ns
  all : List Node → Bool
    | [] => true
    | n :: ns => n.consumes && all ns

/-- A repetition in its simplest form: what only matches emptily is tried at most once. -/
def repeated (least : Nat) (most : Option Nat) (greedy : Bool) (body : Node) : Node :=
  let (least, most) :=
    if body.onlyEmpty then (min least 1, some (min (most.getD 1) 1)) else (least, most)
  if most == some 0 then .empty
  else if least == 1 && most == some 1 then body
  else .repetition least most greedy body

def ofItems (items : List Node) : Node :=
  match items.filter fun | .empty => false | _ => true with
  | [] => .empty
  | [n] => n
  | ns => .sequence ns

private def charSets? : List Node → Option (List CharSet)
  | [] => some []
  | .chars set :: ns => (charSets? ns).map (set :: ·)
  | _ => none

def ofBranches (branches : List Node) : Node :=
  match charSets? branches with
  | some sets => .chars (CharSet.unions sets)
  | none => .choice branches

end Node

def Tree.resolve (s : Switches) : Tree → Option (Node × Switches)
  | .empty => some (.empty, s)
  | .atom a => (s.atom a).map fun set => (.chars set, s)
  | .dot => s.dot.map fun set => (.chars set, s)
  | .mark m => some (.look (s.mark m), s)
  | .bracket negated body => (s.members (.bracket negated body)).map fun set => (.chars set, s)
  | .switches settings => some (.empty, s.apply settings)
  | .capture name body => (body.resolve s).map fun (n, _) => (.capture name n, s)
  | .scope settings body => (body.resolve (s.apply settings)).map fun (n, _) => (n, s)
  | .repetition least most greedy body =>
    (body.resolve s).map fun (n, s') => (.repeated least most (greedy != s.swapGreed) n, s')
  | .sequence items => (inOrder s items).map fun (ns, s') => (.ofItems ns, s')
  | .choice branches => (inOrder s branches).map fun (ns, s') => (.ofBranches ns, s')
where
  inOrder (s : Switches) : List Tree → Option (List Node × Switches)
    | [] => some ([], s)
    | t :: ts => do
      let (n, s') ← t.resolve s
      let (ns, s'') ← inOrder s' ts
      pure (n :: ns, s'')

end EncounterTimeline.Pattern

import EncounterTimeline.Text.CharSet

/-! # Patterns as they are written

The tree that a pattern's text denotes before its switches are applied: which letters are caseless, what a
dot stands for and how greedy a repetition is depend on the switches in force where it stands.
-/
namespace EncounterTimeline.Pattern
open EncounterTimeline.Text

inductive Switch where
  | caseless | multiLine | dotAll | swapGreed | unicode | carriage | verbose
  deriving DecidableEq, Repr

structure Setting where
  switch : Switch
  on : Bool
  deriving DecidableEq, Repr

inductive Atom where
  /-- A character; `byte` when it was written as two hexadecimal digits. -/
  | char (c : Char) (byte : Bool)
  | digit (negated : Bool)
  | space (negated : Bool)
  | word (negated : Bool)
  | ascii (set : CharSet) (negated : Bool)
  | property (set : CharSet) (negated : Bool)
  deriving DecidableEq, Repr

inductive SetOp where
  | intersection | difference | symmetricDifference
  deriving DecidableEq, Repr

inductive ClassTree where
  | nothing
  | atom (a : Atom)
  | range (low high : Char)
  | union (items : List ClassTree)
  | bracket (negated : Bool) (body : ClassTree)
  | combine (op : SetOp) (left right : ClassTree)
  deriving Repr

inductive Mark where
  | lineStart | lineEnd | textStart | textEnd
  | boundary | noBoundary | wordStart | wordEnd | wordStartHalf | wordEndHalf
  deriving DecidableEq, Repr

inductive Tree where
  | empty
  | atom (a : Atom)
  | dot
  | mark (m : Mark)
  | bracket (negated : Bool) (body : ClassTree)
  | switches (settings : List Setting)
  | capture (name : Option String) (body : Tree)
  | scope (settings : List Setting) (body : Tree)
  | repetition (least : Nat) (most : Option Nat) (greedy : Bool) (body : Tree)
  | sequence (items : List Tree)
  | choice (branches : List Tree)
  deriving Repr

def ClassTree.depth : ClassTree → Nat
  | .nothing | .atom _ | .range _ _ => 0
  | .union items => 1 + depths items
  | .bracket _ body => 1 + body.depth
  | .combine _ left right => 1 + max left.depth right.depth
where
  depths : List ClassTree → Nat
    | [] => 0
    | t :: ts => max t.depth (depths ts)

def Tree.depth : Tree → Nat
  | .empty | .atom _ | .dot | .mark _ | .switches _ => 0
  | .bracket _ body => 1 + body.depth
  | .capture _ body | .scope _ body | .repetition _ _ _ body => 1 + body.depth
  | .sequence items | .choice items => 1 + depths items
where
  depths : List Tree → Nat
    | [] => 0
    | t :: ts => max t.depth (depths ts)

def Tree.ofItems : List Tree → Tree
  | [] => .empty
  | [t] => t
  | ts => .sequence ts

def ClassTree.ofItems : List ClassTree → ClassTree
  | [] => .nothing
  | [t] => t
  | ts => .union ts

end EncounterTimeline.Pattern

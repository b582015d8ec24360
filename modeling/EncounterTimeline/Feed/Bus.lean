/-! # Buses

A bus hands every published line to all of its subscribers. A subscription is numbered by its place. Lines wait
until they are taken, also after the subscription has ended; a subscriber that has gone is noticed, and struck
off, when the next line is published.
-/
namespace EncounterTimeline

structure Subscriber where
  waiting : List String := []
  /-- Whether the bus still counts the subscription. -/
  attached : Bool := true
  /-- Whether anybody still takes its lines. -/
  listening : Bool := true
  deriving DecidableEq, Repr

namespace Subscriber

/-- Hands on a line, or notices that nobody takes it. -/
def offer (s : Subscriber) (line : String) : Subscriber :=
  if !s.attached then s
  else if s.listening then { s with waiting := s.waiting ++ [line] }
  else { s with attached := false }

def detach (s : Subscriber) : Subscriber := { s with attached := false }

def leave (s : Subscriber) : Subscriber := { s with waiting := [], listening := false }

end Subscriber

structure Bus where
  subscribers : List Subscriber := []
  deriving DecidableEq, Repr

namespace Bus

def subscribe (b : Bus) : Nat × Bus := (b.subscribers.length, ⟨b.subscribers ++ [({} : Subscriber)]⟩)

def publish (b : Bus) (line : String) : Bus := ⟨b.subscribers.map fun s => s.offer line⟩

def unsubscribe (b : Bus) (n : Nat) : Bus := ⟨b.subscribers.modify n Subscriber.detach⟩

def leave (b : Bus) (n : Nat) : Bus := ⟨b.subscribers.modify n Subscriber.leave⟩

def drain (b : Bus) (n : Nat) : List String × Bus :=
  ((b.subscribers[n]?.map Subscriber.waiting).getD [],
    ⟨b.subscribers.modify n fun s => { s with waiting := [] }⟩)

def count (b : Bus) : Nat := b.subscribers.countP Subscriber.attached

end Bus

end EncounterTimeline

import EncounterTimeline.Document.Basic
import EncounterTimeline.Storage

/-! # Faults

Everything that can go wrong for a caller, with the message that tells it.
-/
namespace EncounterTimeline

inductive Malformation where
  | encoding (e : Text.Utf8Error)
  | document (e : DocumentError)
  deriving DecidableEq, Repr

def Malformation.message : Malformation → String
  | encoding e => "invalid UTF-8: " ++ e.message
  | document e => e.message

inductive Fault where
  | io (path : String) (cause : StorageError)
  | malformed (path : String) (cause : Malformation)
  | invalidTime (text : String)
  | lifecycleConflict (name : String)
  | editWhileLoaded (name : String)
  | unknownTimeline
  | noSourceFile (name : String)
  | settings
  | watch
  deriving DecidableEq, Repr

namespace Fault

def inMemory : String := "<memory>"

/-- The message of a fault. An unknown timeline, settings that are no settings, a watch that cannot start and
malformed markup are told by their kind alone. -/
def message? : Fault → Option String
  | io path cause => some ("I/O error on '" ++ path ++ "': " ++ cause.message)
  | malformed _ (.document .markup) => none
  | malformed path cause => some ("malformed timeline definition '" ++ path ++ "': " ++ cause.message)
  | invalidTime text => some ("invalid timeline time '" ++ text ++ "'")
  | lifecycleConflict name => some ("timeline '" ++ name ++ "' already has a load or unload in flight")
  | editWhileLoaded name => some ("timeline '" ++ name ++ "' cannot be edited while it is loaded")
  | noSourceFile name => some ("timeline '" ++ name ++ "' has no source file")
  | unknownTimeline | settings | watch => none

end Fault

def TimeText.require (s : String) : Except Fault Duration :=
  match parse s with
  | some d => .ok d
  | none => .error (.invalidTime s)

/-- A computation that succeeded after another one had it succeed first. -/
theorem except_bind_eq_ok {ε α β : Type} {x : Except ε α} {f : α → Except ε β} {b : β}
    (h : (x >>= f) = .ok b) : ∃ a, x = .ok a ∧ f a = .ok b := by
  cases x with
  | error => cases h
  | ok a => exact ⟨a, rfl, h⟩

end EncounterTimeline
